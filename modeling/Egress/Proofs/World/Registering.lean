import Egress.Proofs.Connection.Supervisor
import Egress.Proofs.World.Scenes

set_option autoImplicit false

namespace Egress

@[simp]
theorem Connection.member_id (c : Connection) : c.member.id = c.id := rfl

@[simp]
theorem Connection.member_scope (c : Connection) : c.member.scope = c.scope := rfl

@[simp]
theorem Connection.member_localIp (c : Connection) : c.member.localIp = c.localIp := rfl

namespace Supervisor

theorem send_eq {s : Supervisor} (running : s.running) (c : Command) :
    s.send c = { s with queue := s.queue ++ [c] } := if_pos running

end Supervisor

namespace Traffic

def isClosed (t : Traffic) (id : Nat) : Bool := (t.connections.find? (·.id = id)).all (·.closed)

theorem isClosed_own (t : Traffic) (numbers : (t.connections.map (·.id)).Nodup) {c : Connection}
    (member : c ∈ t.connections) : t.isClosed c.id = c.closed := by
  rw [isClosed, find_of_key numbers member, Option.all_some]

structure Kept (t : Traffic) : Prop where
  running : t.supervisor.running
  numbers : (t.connections.map (·.id)).Nodup
  fresh : ∀ c ∈ t.connections, c.id < t.supervisor.nextId
  sound : t.supervisor.registry.Sound
  members : ∀ m ∈ t.supervisor.registry.members, ∃ c ∈ t.connections, c.member = m
  queued : ∀ m g, .add m g ∈ t.supervisor.queue → ∃ c ∈ t.connections, c.member = m
  gone : ∀ id, .remove id ∈ t.supervisor.queue → ∃ c ∈ t.connections, c.id = id ∧ c.closed
  awaited : ∀ c ∈ t.connections, c.closed = false →
    c.member ∈ t.supervisor.registry.members ∨ ∃ g, .add c.member g ∈ t.supervisor.queue
  dismissed : ∀ c ∈ t.connections, c.closed → c.member ∈ t.supervisor.registry.members →
    .remove c.id ∈ t.supervisor.queue

namespace Kept

variable {aborts : AbortReason → Prop} {asked : Scope → Nat → Prop} {t next : Traffic}

theorem find (kept : t.Kept) {c : Connection} (member : c ∈ t.connections) :
    t.connections.find? (·.id = c.id) = some c :=
  find_of_key kept.numbers member

theorem isClosed (kept : t.Kept) {c : Connection} (member : c ∈ t.connections) :
    t.isClosed c.id = c.closed := t.isClosed_own kept.numbers member

theorem known (kept : t.Kept) {c : Connection} (member : c ∈ t.connections)
    (known : t.supervisor.registry.add? c.member = none) :
    c.member ∈ t.supervisor.registry.members := by
  have has : t.supervisor.registry.has c.member.id := by
    by_contra absent
    rw [Registry.add?, if_neg absent] at known
    cases known
  obtain ⟨m, there, number⟩ := Registry.has_iff.mp has
  obtain ⟨o, was, rfl⟩ := kept.members m there
  rwa [eq_of_key kept.numbers was member number] at there

-- Connections change, none of them into another one, and those that are closed are reported.
theorem alter (kept : t.Kept) (f : Connection → Connection) (more : List Command)
    (connections : next.connections = t.connections.map f)
    (supervisor : next.supervisor = { t.supervisor with queue := t.supervisor.queue ++ more })
    (same : ∀ o ∈ t.connections, (f o).member = o.member)
    (closed : ∀ o ∈ t.connections, o.closed → (f o).closed)
    (reported : ∀ o ∈ t.connections, (f o).closed → o.closed ∨ .remove o.id ∈ more)
    (reports : ∀ c ∈ more, ∃ o ∈ t.connections, c = .remove o.id ∧ (f o).closed) : next.Kept := by
  obtain ⟨running, numbers, fresh, sound, members, queued, gone, awaited, dismissed⟩ := kept
  have number {o : Connection} (member : o ∈ t.connections) : (f o).id = o.id :=
    congrArg Member.id (same o member)
  have still {m : Member} (known : ∃ c ∈ t.connections, c.member = m) :
      ∃ c ∈ next.connections, c.member = m := by
    obtain ⟨c, member, rfl⟩ := known
    exact ⟨f c, connections ▸ List.mem_map_of_mem member, same c member⟩
  refine ⟨?running, ?numbers, fun c member => ?fresh, ?sound, fun m member => ?members,
    fun m g queue => ?queued, fun id queue => ?gone, fun c member opened => ?awaited,
    fun c member shut registered => ?dismissed⟩ <;> simp only [supervisor] at *
  case running => exact running
  case numbers =>
    have keys : next.connections.map (·.id) = t.connections.map (·.id) := by
      rw [connections, List.map_map]
      exact List.map_congr_left fun o member => number member
    rwa [keys]
  case fresh =>
    obtain ⟨o, was, rfl⟩ := List.mem_map.mp (connections ▸ member)
    exact number was ▸ fresh o was
  case sound => exact sound
  case members => exact still (members m member)
  case queued =>
    rcases List.mem_append.mp queue with old | new
    · exact still (queued m g old)
    · obtain ⟨o, -, same, -⟩ := reports _ new
      cases same
  case gone =>
    rcases List.mem_append.mp queue with old | new
    · obtain ⟨o, was, rfl, shut⟩ := gone id old
      exact ⟨f o, connections ▸ List.mem_map_of_mem was, number was, closed o was shut⟩
    · obtain ⟨o, was, same, shut⟩ := reports _ new
      cases same
      exact ⟨f o, connections ▸ List.mem_map_of_mem was, number was, shut⟩
  case awaited =>
    obtain ⟨o, was, rfl⟩ := List.mem_map.mp (connections ▸ member)
    have before : o.closed = false := by
      cases shut : o.closed with
      | false => rfl
      | true => rw [closed o was shut] at opened; cases opened
    rw [same o was]
    exact (awaited o was before).imp id fun ⟨g, old⟩ => ⟨g, List.mem_append_left _ old⟩
  case dismissed =>
    obtain ⟨o, was, rfl⟩ := List.mem_map.mp (connections ▸ member)
    rw [same o was] at registered
    rw [number was, List.mem_append]
    exact (reported o was shut).imp (dismissed o was · registered) id

-- One connection is put in the place of what it was.
theorem replace (kept : t.Kept) {c changed : Connection} (more : List Command)
    (found : t.connections.find? (·.id = c.id) = some c) (same : changed.member = c.member)
    (closed : c.closed → changed.closed)
    (connections : next.connections = t.replace changed)
    (supervisor : next.supervisor = { t.supervisor with queue := t.supervisor.queue ++ more })
    (reported : changed.closed → c.closed ∨ .remove c.id ∈ more)
    (reports : ∀ x ∈ more, x = .remove c.id ∧ changed.closed) : next.Kept := by
  have member := List.mem_of_find?_eq_some found
  have number : changed.id = c.id := congrArg Member.id same
  have hit {o : Connection} (was : o ∈ t.connections) (same : o.id = changed.id) : o = c :=
    eq_of_key kept.numbers was member (same.trans number)
  refine kept.alter (fun o => if o.id = changed.id then changed else o) more connections supervisor
    (fun o was => ?_) (fun o was shut => ?_) (fun o was shut => ?_) fun x new => ?_
  · split
    next this => rw [hit was this, same]
    next => rfl
  · split
    next this => exact closed (hit was this ▸ shut)
    next => exact shut
  · split at shut
    next this => exact hit was this ▸ reported shut
    next => exact .inl shut
  · obtain ⟨rfl, shut⟩ := reports x new
    exact ⟨c, member, rfl, by rw [if_pos number.symm]; exact shut⟩

theorem worked (kept : t.Kept) (connections : next.connections = t.connections)
    (running : next.supervisor.running) (nextId : next.supervisor.nextId = t.supervisor.nextId)
    (queue : ∀ c ∈ next.supervisor.queue, c ∈ t.supervisor.queue)
    (sound : next.supervisor.registry.Sound)
    (members : ∀ m ∈ next.supervisor.registry.members, ∃ c ∈ t.connections, c.member = m)
    (awaited : ∀ c ∈ t.connections, c.closed = false →
      c.member ∈ next.supervisor.registry.members ∨ ∃ g, .add c.member g ∈ next.supervisor.queue)
    (dismissed : ∀ c ∈ t.connections, c.closed → c.member ∈ next.supervisor.registry.members →
      .remove c.id ∈ next.supervisor.queue) : next.Kept where
  running := running
  numbers := connections ▸ kept.numbers
  fresh := nextId ▸ connections ▸ kept.fresh
  sound := sound
  members := connections ▸ members
  queued m g here := connections ▸ kept.queued m g (queue _ here)
  gone id here := connections ▸ kept.gone id (queue _ here)
  awaited := connections ▸ awaited
  dismissed := connections ▸ dismissed

end Kept

variable {aborts : AbortReason → Prop} {asked : Scope → Nat → Prop} {t next : Traffic}

theorem Kept.establish (kept : t.Kept) {c : Connection} (generation : Nat)
    (number : c.id = t.supervisor.nextId) (opened : c.closed = false)
    (connections : next.connections = t.connections ++ [c])
    (supervisor : next.supervisor =
      { t.supervisor with
        nextId := c.id + 1, queue := t.supervisor.queue ++ [.add c.member generation] }) :
    next.Kept := by
  obtain ⟨running, numbers, fresh, sound, members, queued, gone, awaited, dismissed⟩ := kept
  have still {p : Connection → Prop} (known : ∃ k ∈ t.connections, p k) :
      ∃ k ∈ next.connections, p k := by
    obtain ⟨k, member, holds⟩ := known
    exact ⟨k, connections ▸ List.mem_append_left _ member, holds⟩
  have either {k : Connection} (member : k ∈ next.connections) : k ∈ t.connections ∨ k = c := by
    rw [connections] at member
    exact (List.mem_append.mp member).imp id List.mem_singleton.mp
  have older {k : Connection} (was : k ∈ t.connections) : k.id < c.id := number ▸ fresh k was
  refine ⟨?running, ?numbers, fun k member => ?fresh, ?sound, fun m member => ?members,
    fun m g queue => ?queued, fun id queue => ?gone, fun k member shut => ?awaited,
    fun k member shut registered => ?dismissed⟩ <;> simp only [supervisor] at *
  case running => exact running
  case numbers =>
    rw [connections]
    exact nodup_append numbers fun k was => Nat.ne_of_lt (older was)
  case fresh =>
    rcases either member with was | rfl
    · exact Nat.lt_succ_of_lt (older was)
    · exact Nat.lt_succ_self _
  case sound => exact sound
  case members => exact still (members m member)
  case queued =>
    rcases List.mem_append.mp queue with old | new
    · exact still (queued m g old)
    · cases List.mem_singleton.mp new
      exact ⟨c, connections ▸ List.mem_append_right _ (List.mem_singleton_self c), rfl⟩
  case gone =>
    rcases List.mem_append.mp queue with old | new
    · exact still (gone id old)
    · cases List.mem_singleton.mp new
  case awaited =>
    rcases either member with was | rfl
    · exact (awaited k was shut).imp id fun ⟨g, old⟩ => ⟨g, List.mem_append_left _ old⟩
    · exact .inr ⟨generation, List.mem_append_right _ (List.mem_singleton_self _)⟩
  case dismissed =>
    rcases either member with was | rfl
    · exact List.mem_append_left _ (dismissed k was shut registered)
    · rw [opened] at shut
      cases shut

theorem Step.kept (step : t.Step aborts asked next) (kept : t.Kept) : next.Kept := by
  cases step with
  | establish c generation number opened =>
    let numbered : Supervisor := { t.supervisor with nextId := c.id + 1 }
    have running : numbered.running := kept.running
    exact kept.establish generation number opened rfl (Supervisor.send_eq running _)
  | use c changed found same =>
    refine kept.replace [] found ?_ ?_ rfl (by simp) ?_ (by simp)
    · rcases same with rfl | rfl <;> rfl
    · rcases same with rfl | rfl <;> exact id
    · rcases same with rfl | rfl <;> exact .inl
  | tearDown c torn reason found torn? =>
    obtain ⟨-, rfl⟩ := Connection.tearDown?_eq torn?
    let torn : Connection := { c with closed := true, reason, hasCopy := false }
    have same : torn.member = c.member := rfl
    exact kept.replace [.remove c.id] found same (fun _ => rfl) rfl
      (Supervisor.send_eq kept.running _) (fun _ => .inr (List.mem_singleton_self _))
      fun x new => ⟨List.mem_singleton.mp new, rfl⟩
  | _ => exact { kept with }

namespace Kept

variable {view : Supervisor.View}

section Additions

variable {c : Connection} {generation : Nat} {rest : List Command} (kept : t.Kept)
  (queued : t.supervisor.queue = .add c.member generation :: rest)

include kept queued

theorem dismissed_rest {k : Connection} (there : k ∈ t.connections) (shut : k.closed)
    (registered : k.member ∈ t.supervisor.registry.members) : .remove k.id ∈ rest := by
  have waiting := kept.dismissed k there shut registered
  rw [queued] at waiting
  exact (List.mem_cons.mp waiting).resolve_left Command.noConfusion

theorem awaited_rest (member : c ∈ t.connections) {k : Connection} (there : k ∈ t.connections)
    (opened : k.closed = false) :
    k = c ∨ k.member ∈ t.supervisor.registry.members ∨ ∃ g, .add k.member g ∈ rest := by
  rcases kept.awaited k there opened with known | ⟨g, waiting⟩
  · exact .inr (.inl known)
  · rw [queued] at waiting
    rcases List.mem_cons.mp waiting with same | left
    · have same : k.member = c.member := (Command.add.inj same).1
      exact .inl (eq_of_key kept.numbers there member (congrArg Member.id same))
    · exact .inr (.inr ⟨g, left⟩)

theorem pass (member : c ∈ t.connections)
    (void : c.closed ∨ c.member ∈ t.supervisor.registry.members)
    (connections : next.connections = t.connections)
    (supervisor : next.supervisor = { t.supervisor with queue := rest }) : next.Kept := by
  refine kept.worked connections ?_ ?_ ?_ ?_ ?_ (fun k there opened => ?_) ?_ <;>
    simp only [supervisor] at *
  · exact kept.running
  · exact fun x earlier => queued ▸ List.mem_cons_of_mem _ earlier
  · exact kept.sound
  · exact kept.members
  · rcases kept.awaited_rest queued member there opened with rfl | known
    · exact .inl (void.resolve_left (by simp [opened]))
    · exact known
  · exact fun k => kept.dismissed_rest queued

theorem enlist (member : c ∈ t.connections) (opened : c.closed = false) {r : Registry}
    (added : t.supervisor.registry.add? c.member = some r)
    (connections : next.connections = t.connections)
    (supervisor : next.supervisor = { t.supervisor with queue := rest, registry := r }) :
    next.Kept := by
  have grown := Registry.add?_members added
  refine kept.worked connections ?_ ?_ ?_ ?_ (fun m there => ?_) (fun k there opened => ?_)
    (fun k there shut registered => ?_) <;> simp only [supervisor] at *
  · exact kept.running
  · exact fun x earlier => queued ▸ List.mem_cons_of_mem _ earlier
  · exact kept.sound.add added
  · rw [grown] at there
    rcases List.mem_append.mp there with old | new
    · exact kept.members m old
    · exact ⟨c, member, (List.mem_singleton.mp new).symm⟩
  · rw [grown]
    rcases kept.awaited_rest queued member there opened with rfl | known
    · exact .inl (List.mem_append_right _ (List.mem_singleton_self _))
    · exact known.imp (List.mem_append_left _) id
  · rw [grown] at registered
    rcases List.mem_append.mp registered with old | new
    · exact kept.dismissed_rest queued there shut old
    · have same : k.member = c.member := List.mem_singleton.mp new
      obtain rfl := eq_of_key kept.numbers there member (congrArg Member.id same)
      rw [shut] at opened
      cases opened

end Additions

theorem add (kept : t.Kept) (sees : view.closed = t.isClosed) {m : Member} {generation : Nat}
    {rest : List Command} (queued : t.supervisor.queue = .add m generation :: rest)
    (connections : next.connections = t.connections)
    (supervisor : next.supervisor =
      ({ t.supervisor with queue := rest }.handle view (.add m generation)).1) : next.Kept := by
  obtain ⟨c, member, rfl⟩ := kept.queued m generation (queued ▸ List.mem_cons_self)
  have seen : view.closed c.member.id = c.closed := by
    rw [sees]
    exact kept.isClosed member
  rcases Supervisor.handle_add { t.supervisor with queue := rest } view c.member generation with
    ⟨void, result⟩ | ⟨r, opened, added, result⟩ <;> rw [result] at supervisor
  · exact kept.pass queued member (void.imp (seen ▸ ·) (kept.known member)) connections supervisor
  · exact kept.enlist queued member (seen ▸ opened) added connections supervisor

theorem remove (kept : t.Kept) {id : Nat} {rest : List Command}
    (queued : t.supervisor.queue = .remove id :: rest)
    (connections : next.connections = t.connections)
    (supervisor : next.supervisor =
      { t.supervisor with queue := rest, registry := t.supervisor.registry.remove id }) :
    next.Kept := by
  obtain ⟨c, member, rfl, closed⟩ := kept.gone id (queued ▸ List.mem_cons_self)
  have later {x : Command} (new : x ≠ .remove c.id) (old : x ∈ t.supervisor.queue) : x ∈ rest :=
    (List.mem_cons.mp (queued ▸ old)).resolve_left new
  have left := t.supervisor.registry.remove_members c.id
  refine kept.worked connections ?_ ?_ ?_ ?_ (fun m there => ?_) (fun k there opened => ?_)
    (fun k there shut registered => ?_) <;> simp only [supervisor] at *
  · exact kept.running
  · exact fun x earlier => queued ▸ List.mem_cons_of_mem _ earlier
  · exact kept.sound.removed c.id
  · exact kept.members m (List.mem_of_mem_filter (left ▸ there))
  · have other : k.id ≠ c.id := by
      intro same
      rw [eq_of_key kept.numbers there member same, closed] at opened
      cases opened
    refine (kept.awaited k there opened).imp (fun known => ?_) fun ⟨g, waiting⟩ => ⟨g, ?_⟩
    · exact left ▸ List.mem_filter.mpr ⟨known, by simpa using other⟩
    · exact later Command.noConfusion waiting
  · obtain ⟨known, other⟩ := List.mem_filter.mp (left ▸ registered)
    refine later (fun same => ?_) (kept.dismissed k there shut known)
    simp [Command.remove.inj same] at other

theorem rearrange (kept : t.Kept) (connections : next.connections = t.connections)
    (supervisor : ∃ registry, next.supervisor = { t.supervisor with registry } ∧
      registry.members = t.supervisor.registry.members ∧ registry.Sound) : next.Kept := by
  obtain ⟨registry, supervisor, members, sound⟩ := supervisor
  refine kept.worked connections ?_ ?_ ?_ ?_ ?_ ?_ ?_ <;> simp only [supervisor, members]
  · exact kept.running
  · exact fun _ => id
  · exact sound
  · exact kept.members
  · exact kept.awaited
  · exact kept.dismissed

end Kept

theorem Supervises.kept {view : Supervisor.View} (step : t.Supervises view next)
    (sees : view.closed = t.isClosed) (kept : t.Kept) : next.Kept := by
  cases step with
  | command c rest queued =>
    cases c with
    | add m generation => exact kept.add sees queued rfl rfl
    | remove id => exact kept.remove queued rfl rfl
  | watch x verdict member resolved =>
    refine kept.rearrange rfl ?_
    cases verdict with
    | true =>
      exact ⟨_, rfl, (Registry.scopeDone_rest x.number x.scope.id).1, kept.sound.done member⟩
    | false => exact ⟨_, rfl, rfl, kept.sound.forget member resolved⟩
  | news => exact { kept with }
  | silence => exact { kept with }

theorem Step.lasts (step : t.Step aborts asked next) (kept : t.Kept) {o : Connection}
    (was : o ∈ t.connections) : ∃ k ∈ next.connections, k.member = o.member ∧
      (o.closed → k.closed ∧ k.reason = o.reason) := by
  have still : o.closed → o.closed ∧ o.reason = o.reason := fun closed => ⟨closed, rfl⟩
  have replaced {c changed : Connection} (found : t.connections.find? (·.id = c.id) = some c)
      (same : changed.member = c.member)
      (closed : c.closed → changed.closed ∧ changed.reason = c.reason) :
      ∃ k ∈ t.replace changed, k.member = o.member ∧
        (o.closed → k.closed ∧ k.reason = o.reason) := by
    refine ⟨_, List.mem_map_of_mem was, ?_⟩
    split
    next hit =>
      have number : changed.id = c.id := congrArg Member.id same
      rw [eq_of_key kept.numbers was (List.mem_of_find?_eq_some found) (hit.trans number)]
      exact ⟨same, closed⟩
    next => exact ⟨rfl, still⟩
  cases step with
  | establish => exact ⟨o, List.mem_append_left _ was, rfl, still⟩
  | use c changed found same =>
    refine replaced found ?_ ?_
    · rcases same with rfl | rfl <;> rfl
    · rcases same with rfl | rfl <;> exact fun closed => ⟨closed, rfl⟩
  | tearDown c torn reason found torn? =>
    obtain ⟨opened, rfl⟩ := Connection.tearDown?_eq torn?
    exact replaced found rfl fun closed => absurd closed (by simp [opened])
  | _ => exact ⟨o, was, rfl, still⟩

theorem Step.rest (step : t.Step aborts asked next) :
    next.fanOuts = t.fanOuts ∧ next.supervisor.registry = t.supervisor.registry := by
  have sent (s : Supervisor) (c : Command) : (s.send c).registry = s.registry := by
    unfold Supervisor.send
    split <;> rfl
  cases step <;> simp [sent]

end Traffic

end Egress
