import Egress.Connection.Supervisor
import Egress.Proofs.Connection.Registry
import Mathlib.Logic.Relation

set_option autoImplicit false

namespace Egress

namespace Registry

def Needed (r : Registry) : Prop :=
  ∀ x ∈ r.watches, x.unwatched = false → ∃ e ∈ r.byScope, e.watch = x.number ∧ e.scope = x.scope.id

namespace Needed

variable {r next : Registry} {m : Member}

theorem file (needed : r.Needed) (scope : Scope) (id : Nat) : (r.fileScope scope id).Needed := by
  unfold fileScope
  split
  next =>
    intro x there waits
    obtain ⟨e, entry, number, same⟩ := needed x there waits
    refine ⟨_, List.mem_map_of_mem entry, ?_⟩
    split <;> simp [number, same]
  next =>
    intro x there waits
    rcases List.mem_append.mp there with old | new
    · obtain ⟨e, entry, keyed⟩ := needed x old waits
      exact ⟨e, List.mem_append_left _ entry, keyed⟩
    · obtain rfl := List.mem_singleton.mp new
      exact ⟨_, List.mem_append_right _ (List.mem_singleton_self _), rfl, rfl⟩

theorem drop (needed : r.Needed) (apart : (r.byScope.map (·.scope)).Nodup) {e : ScopeEntry}
    (member : e ∈ r.byScope) :
    (({ r with byScope := r.byScope.filter (·.scope != e.scope) }).unwatch e.watch).Needed := by
  intro x there waits
  obtain ⟨o, was, rfl⟩ := List.mem_map.mp there
  by_cases hit : o.number = e.watch
  next => simp [hit] at waits
  next =>
    rw [if_neg hit] at waits ⊢
    obtain ⟨f, entry, number, same⟩ := needed o was waits
    have other : f.scope ≠ e.scope := by
      intro scope
      obtain rfl := eq_of_key apart entry member scope
      exact hit number.symm
    exact ⟨f, List.mem_filter.mpr ⟨entry, by simpa using other⟩, number, same⟩

theorem unfile (needed : r.Needed) (apart : (r.byScope.map (·.scope)).Nodup) (scope id : Nat) :
    (r.unfileScope scope id).Needed := by
  unfold unfileScope
  split
  next => exact needed
  next e found =>
    obtain ⟨member, rfl⟩ := find_entry found
    dsimp only
    split
    next => exact needed.drop apart member
    next =>
      intro x there waits
      obtain ⟨f, entry, number, same⟩ := needed x there waits
      refine ⟨_, List.mem_map_of_mem entry, ?_⟩
      split <;> simp [number, same]

theorem add (needed : r.Needed) (added : r.add? m = some next) : next.Needed := by
  rw [(add?_eq added).2]
  exact file (r := r.enlist m) needed _ _

theorem removed (needed : r.Needed) (sound : r.Sound) (id : Nat) : (r.remove id).Needed := by
  rcases r.remove_cases id with ⟨-, same⟩ | ⟨m, -, -, same⟩
  · rwa [same]
  · rw [same]
    exact unfile (r := r.strike m) needed sound.watched.apart _ _

theorem forget (needed : r.Needed) (number : Nat) : (r.dropWatch number).Needed :=
  fun x there waits => needed x (List.mem_of_mem_filter there) waits

theorem done (needed : r.Needed) (sound : r.Sound) (number scope : Nat) :
    ((r.dropWatch number).scopeDone scope).1.Needed := by
  unfold scopeDone
  split
  next => exact needed.forget number
  next e found =>
    obtain ⟨member, rfl⟩ := find_entry found
    exact drop (r := r.dropWatch number) (needed.forget number) sound.watched.apart member

end Needed

theorem Sound.one_watch {r : Registry} (sound : r.Sound) (needed : r.Needed) {e : ScopeEntry}
    (entry : e ∈ r.byScope) : ∃ x, x.number = e.watch ∧
      r.watches.filter (fun w => w.scope.id = e.scope && !w.unwatched) = [x] := by
  obtain ⟨apart, -, numbers, -, live⟩ := sound.watched
  obtain ⟨x, there, number, same, waits⟩ := live e entry
  have only (w : ScopeWatch) : w ∈ r.watches.filter (fun w => w.scope.id = e.scope && !w.unwatched) ↔
      w = x := by
    simp only [List.mem_filter, Bool.and_eq_true, decide_eq_true_eq, Bool.not_eq_true']
    constructor
    · rintro ⟨member, scope, waits'⟩
      obtain ⟨f, entry', number', same'⟩ := needed w member waits'
      obtain rfl := eq_of_key apart entry' entry (same'.trans scope)
      exact eq_of_key numbers member there (number'.symm.trans number.symm)
    · rintro rfl
      exact ⟨there, same, waits⟩
  have once : (r.watches.filter (fun w => w.scope.id = e.scope && !w.unwatched)).Nodup :=
    (List.Nodup.of_map _ numbers).filter _
  refine ⟨x, number, ?_⟩
  exact List.perm_singleton.mp ((List.perm_ext_iff_of_nodup once (List.nodup_singleton x)).mpr
    fun w => by rw [only, List.mem_singleton])

end Registry

namespace Supervisor

variable {s : Supervisor} {view : View}

theorem handle_add (s : Supervisor) (v : View) (m : Member) (generation : Nat) :
    (v.closed m.id ∨ s.registry.add? m = none) ∧ s.handle v (.add m generation) = (s, []) ∨
      ∃ r, v.closed m.id = false ∧ s.registry.add? m = some r ∧
        s.handle v (.add m generation) = ({ s with registry := r },
          if generation = s.generation then [] else { s with registry := r }.revalidate v) := by
  unfold handle
  dsimp only
  split
  next closed => exact .inl ⟨.inl closed, rfl⟩
  next opened =>
    split
    next known => exact .inl ⟨.inr known, rfl⟩
    next r added => exact .inr ⟨r, by simpa using opened, added, rfl⟩

theorem mem_order {ids : List Nat} {reason : Option AbortReason} {o : FanOut} :
    o ∈ order ids reason ↔ ids ≠ [] ∧ o = ⟨ids, reason⟩ := by
  unfold order
  cases ids <;> simp

theorem revalidate_eq {o : FanOut} (ordered : o ∈ s.revalidate view) :
    ∃ addresses ∈ view.addresses, o = ⟨s.registry.stranded addresses, some .netDisconnected⟩ ∧
      s.revalidate view = [o] := by
  unfold revalidate at ordered ⊢
  split at ordered
  next addresses sees =>
    obtain ⟨some, rfl⟩ := mem_order.mp ordered
    exact ⟨addresses, sees, rfl, if_neg (by simpa using some)⟩
  next => cases ordered

end Supervisor

structure Custody where
  supervisor : Supervisor := {}
  orders : List FanOut := []
  added : List Nat := []

namespace Custody

variable {x next : Custody}

abbrev registry (x : Custody) : Registry := x.supervisor.registry

def after (x : Custody) (result : Supervisor × List FanOut) : Custody :=
  { x with supervisor := result.1, orders := x.orders ++ result.2 }

-- One pass of the supervisor. Nobody is added twice; anybody may be removed at any time. A watch
-- resolves because its scope is cancelled, which it may be long after its entry is gone, or because
-- it was told that its entry is gone.
inductive Step : Custody → Custody → Prop
  | add {x : Custody} {m : Member} (view : Supervisor.View) (generation : Nat) (new : m.id ∉ x.added) :
      Step x { x.after (x.supervisor.handle view (.add m generation)) with
        added := x.added ++ [m.id] }
  | remove {x : Custody} (view : Supervisor.View) (id : Nat) :
      Step x (x.after (x.supervisor.handle view (.remove id)))
  | resolve {x : Custody} {w : ScopeWatch} (there : w ∈ x.registry.watches) (lapsed : Bool)
      (why : lapsed ∨ w.unwatched) : Step x (x.after (x.supervisor.watchResolved w lapsed))
  | move {x : Custody} (view : Supervisor.View) :
      Step x (x.after (x.supervisor.addressesChanged view))

def Dismissed (x : Custody) (id : Nat) : Prop := ∃ o ∈ x.orders, o.reason = none ∧ id ∈ o.ids

structure Kept (x : Custody) : Prop where
  sound : x.registry.Sound
  needed : x.registry.Needed
  placed : ∀ m ∈ x.registry.members,
    x.registry.Filed m.scope.id m.id ∨ x.Dismissed m.id
  told : ∀ m ∈ x.registry.members, m.id ∈ x.added

theorem Dismissed.after {id : Nat} (dismissed : x.Dismissed id) (result : Supervisor × List FanOut) :
    (x.after result).Dismissed id := by
  obtain ⟨o, was, rest⟩ := dismissed
  exact ⟨o, List.mem_append_left _ was, rest⟩

-- Who was registered is as well placed as before, unless its entry goes.
theorem Kept.still (kept : x.Kept) (result : Supervisor × List FanOut) {m : Member}
    (was : m ∈ x.registry.members)
    (filed : x.registry.Filed m.scope.id m.id → result.1.registry.Filed m.scope.id m.id) :
    result.1.registry.Filed m.scope.id m.id ∨ (x.after result).Dismissed m.id :=
  (kept.placed m was).imp filed (·.after result)

theorem Kept.add (kept : x.Kept) (view : Supervisor.View) (m : Member) (generation : Nat) :
    Kept { x.after (x.supervisor.handle view (.add m generation)) with
      added := x.added ++ [m.id] } := by
  have ⟨sound, needed, placed, told⟩ := kept
  rcases x.supervisor.handle_add view m generation with ⟨-, result⟩ | ⟨r, -, added, result⟩
  · rw [result]
    exact ⟨sound, needed, fun o was => kept.still (_, []) was id,
      fun o was => List.mem_append_left _ (told o was)⟩
  · rw [result]
    have members := Registry.add?_members added
    refine ⟨sound.add added, needed.add added, fun o there => ?_, fun o there => ?_⟩
    all_goals
      change o ∈ r.members at there
      rw [members] at there
      rcases List.mem_append.mp there with old | new
    · exact kept.still ({ x.supervisor with registry := r }, _) old
        fun filed => (Registry.add?_filed added _ _).mpr (.inl filed)
    · obtain rfl := List.mem_singleton.mp new
      exact .inl ((Registry.add?_filed added _ _).mpr (.inr ⟨rfl, rfl⟩))
    · exact List.mem_append_left _ (told o old)
    · rw [List.mem_singleton.mp new]
      exact List.mem_append_right _ (List.mem_singleton_self _)

theorem Kept.remove (kept : x.Kept) (view : Supervisor.View) (id : Nat) :
    (x.after (x.supervisor.handle view (.remove id))).Kept := by
  have ⟨sound, needed, placed, told⟩ := kept
  have left {m : Member} (there : m ∈ (x.registry.remove id).members) :
      m ∈ x.registry.members ∧ m.id ≠ id := by
    rw [Registry.remove_members] at there
    simpa using there
  refine ⟨sound.removed id, needed.removed sound id, fun m there => ?_, fun m there => ?_⟩
  · obtain ⟨was, other⟩ := left there
    exact kept.still _ was fun filed => (Registry.remove_filed sound id _ _).mpr ⟨filed, other⟩
  · exact told m (left there).1

theorem Kept.resolve (kept : x.Kept) {w : ScopeWatch}
    (there : w ∈ x.registry.watches) {lapsed : Bool} (why : lapsed ∨ w.unwatched) :
    (x.after (x.supervisor.watchResolved w lapsed)).Kept := by
  have ⟨sound, needed, placed, told⟩ := kept
  cases lapsed with
  | false =>
    refine ⟨sound.forget there (by simpa using why), needed.forget _, fun m was => ?_, told⟩
    exact kept.still ({ x.supervisor with registry := _ }, []) was id
  | true =>
    obtain ⟨members, -, closes⟩ := x.registry.scopeDone_rest w.number w.scope.id
    refine ⟨sound.done there, needed.done sound _ _, fun m was => ?_, fun m was => ?_⟩
    all_goals
      replace was : m ∈ x.registry.members := members ▸ was
    · by_cases same : m.scope.id = w.scope.id
      next =>
        rcases placed m was with filed | dismissed
        · have inside := (Registry.mem_scopeDone sound w.scope.id m.id).mpr (same ▸ filed)
          rw [← closes] at inside
          exact .inr ⟨_, List.mem_append_right _ (Supervisor.mem_order.mpr
            ⟨List.ne_nil_of_mem inside, rfl⟩), rfl, inside⟩
        · exact .inr (dismissed.after _)
      next =>
        exact kept.still _ was fun filed => (Registry.scopeDone_filed _ _ _ _).mpr ⟨filed, same⟩
    · exact told m was

theorem Step.kept (step : Step x next) (kept : x.Kept) : next.Kept := by
  cases step with
  | add view generation => exact kept.add view _ generation
  | remove view id => exact kept.remove view id
  | resolve there lapsed why => exact kept.resolve there why
  | move view =>
    have ⟨sound, needed, placed, told⟩ := kept
    exact ⟨sound, needed, fun m was => kept.still (_, _) was id, told⟩

theorem kept_of_steps (steps : Relation.ReflTransGen Step {} x) : x.Kept := by
  induction steps with
  | refl => exact ⟨Registry.sound_empty, by simp [Registry.Needed], by simp, by simp⟩
  | tail _ step ih => exact step.kept ih

-- What the registry says of its members is what they say themselves. The scopes of all of them are
-- watched, by one watch for each entry, and whoever else is a watch has something to report.
structure Intact (x : Custody) : Prop where
  addresses : (x.registry.byAddress.map (·.ip)).Nodup
  known : ∀ ip, (∃ e ∈ x.registry.byAddress, e.ip = ip) ↔ ∃ m ∈ x.registry.members, m.localIp = some ip
  atAddress : ∀ e ∈ x.registry.byAddress, e.ids ≠ [] ∧
    ∀ id, id ∈ e.ids ↔ ∃ m ∈ x.registry.members, m.id = id ∧ m.localIp = some e.ip
  scopes : (x.registry.byScope.map (·.scope)).Nodup
  inScope : ∀ e ∈ x.registry.byScope, e.ids ≠ [] ∧
    ∀ id ∈ e.ids, ∃ m ∈ x.registry.members, m.id = id ∧ m.scope.id = e.scope
  placed : ∀ m ∈ x.registry.members,
    (∃ e ∈ x.registry.byScope, e.scope = m.scope.id ∧ m.id ∈ e.ids) ∨ x.Dismissed m.id
  watched : ∀ e ∈ x.registry.byScope, ∃ w, w.number = e.watch ∧
    x.registry.watches.filter (fun w => w.scope.id = e.scope && !w.unwatched) = [w]
  rest : ∀ w ∈ x.registry.watches, (∃ e ∈ x.registry.byScope, e.scope = w.scope.id ∧ e.watch = w.number) ∨
    ∀ cancelled, Registry.ScopeWatch.isResolved w cancelled
  once : ∀ m, m.id ∉ x.added → (x.registry.add? m).isSome

theorem Kept.intact (kept : x.Kept) : x.Intact := by
  obtain ⟨sound, needed, placed, told⟩ := kept
  refine ⟨sound.addressed.apart, fun ip => ?known, fun e entry => ?atAddress, sound.watched.apart,
    fun e entry => ?inScope, placed, fun e entry => sound.one_watch needed entry,
    fun w there => ?rest, fun m new => ?once⟩
  case known =>
    constructor
    · rintro ⟨e, entry, rfl⟩
      obtain ⟨id, inside⟩ := List.exists_mem_of_ne_nil _ (sound.addressed.filled e entry)
      obtain ⟨m, member, -, there⟩ := (sound.filedAt e.ip id).mp ⟨e, entry, rfl, inside⟩
      exact ⟨m, member, there⟩
    · rintro ⟨m, member, there⟩
      obtain ⟨e, entry, same, -⟩ := (sound.filedAt ip m.id).mpr ⟨m, member, rfl, there⟩
      exact ⟨e, entry, same⟩
  case atAddress =>
    refine ⟨sound.addressed.filled e entry, fun id => ?_⟩
    rw [← sound.filedAt]
    constructor
    · exact fun inside => ⟨e, entry, rfl, inside⟩
    · rintro ⟨o, was, same, inside⟩
      obtain rfl := eq_of_key sound.addressed.apart was entry same
      exact inside
  case inScope =>
    exact ⟨sound.watched.filled e entry, fun id inside => sound.filed _ _ ⟨e, entry, rfl, inside⟩⟩
  case rest =>
    cases unwatched : w.unwatched with
    | true => exact .inr fun cancelled => by simp [Registry.ScopeWatch.isResolved, unwatched]
    | false =>
      obtain ⟨e, entry, number, scope⟩ := needed w there unwatched
      exact .inl ⟨e, entry, scope, number⟩
  case once =>
    have absent : x.registry.has m.id = false := by
      rw [Bool.eq_false_iff, ne_eq, Registry.has_iff]
      rintro ⟨o, member, same⟩
      exact new (same ▸ told o member)
    simp [Registry.add?, absent]

-- After any passes of the supervisor, in whatever order, its registry is intact.
theorem registry_intact (steps : Relation.ReflTransGen Step {} x) :
    x.Intact :=
  (kept_of_steps steps).intact

def office : Scope := ⟨7, 0⟩

def seat (id : Nat) : Member := { id, scope := office, localIp := some .loopback }

def blank : Supervisor.View :=
  { cancelled := fun _ => true, closed := fun _ => false, addresses := some {} }

-- The entry of a scope went and came again before the watch of the first one is heard of, which
-- then speaks for the scope. It comes a third time, and the address of everybody goes.
theorem reopened_intact : ∃ x, Relation.ReflTransGen Step {} x ∧
    x.registry.members = [seat 2, seat 3, seat 4] ∧ x.registry.byScope = [⟨7, [3, 4], 2⟩] ∧
    x.registry.watches = [⟨2, office, false⟩] ∧
    x.orders = [⟨[2], none⟩, ⟨[2, 3], some .netDisconnected⟩, ⟨[2, 3, 4], some .netDisconnected⟩] ∧
    x.Intact := by
  have steps := (Relation.ReflTransGen.refl : Relation.ReflTransGen Step {} {})
    |>.tail (.add (m := seat 1) blank 0 (by decide))
    |>.tail (.remove blank 1)
    |>.tail (.add (m := seat 2) blank 0 (by decide))
    |>.tail (.resolve (w := ⟨0, office, true⟩) (by decide) true (.inl rfl))
    |>.tail (.add (m := seat 3) blank 0 (by decide))
    |>.tail (.remove blank 9)
    |>.tail (.move blank)
    |>.tail (.resolve (w := ⟨1, office, true⟩) (by decide) false (.inr rfl))
    |>.tail (.add (m := seat 4) blank 0 (by decide))
  exact ⟨_, steps, by decide, by decide, by decide, by decide, registry_intact steps⟩

end Custody

end Egress
