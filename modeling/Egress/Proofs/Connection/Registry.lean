import Egress.Connection.Registry
import Egress.Proofs.Connection.Filing

set_option autoImplicit false

namespace Egress

namespace Registry

section Addresses

abbrev FiledAt (entries : List AddressEntry) : Ip → Nat → Prop :=
  Files AddressEntry.ip AddressEntry.ids entries

structure Addressed (entries : List AddressEntry) : Prop where
  apart : (entries.map (·.ip)).Nodup
  filled : ∀ e ∈ entries, e.ids ≠ []

variable {entries : List AddressEntry} (ip : Ip) (id : Nat)

theorem filedAt_file (p : Ip) (i : Nat) :
    FiledAt (fileAddress entries ip id) p i ↔ FiledAt entries p i ∨ p = ip ∧ i = id := by
  unfold fileAddress
  split
  next known => exact files_more (fun _ => rfl) (fun _ => rfl) (by simpa using known)
  next => exact files_append.trans (by simp [eq_comm])

theorem Addressed.file (addressed : Addressed entries) : Addressed (fileAddress entries ip id) := by
  obtain ⟨apart, filled⟩ := addressed
  unfold fileAddress
  split
  next =>
    refine ⟨nodup_map apart fun _ => rfl, fun e member => ?_⟩
    obtain ⟨o, was, rfl⟩ := List.mem_map.mp member
    split
    · simp
    · exact filled o was
  next unknown =>
    refine ⟨nodup_append apart fun e member same => unknown ?_, fun e member => ?_⟩
    · exact List.any_eq_true.mpr ⟨e, member, by simpa using same⟩
    · rcases List.mem_append.mp member with old | new
      · exact filled e old
      · simp [List.mem_singleton.mp new]

theorem filedAt_unfile (p : Ip) (i : Nat) :
    FiledAt (unfileAddress entries ip id) p i ↔ FiledAt entries p i ∧ ¬(p = ip ∧ i = id) := by
  rw [← files_less (f := fun e => { e with ids := e.ids.filter (· != id) }) (fun _ => rfl)
    fun _ => rfl]
  unfold unfileAddress FiledAt Files
  constructor
  · rintro ⟨e, member, same, filed⟩
    exact ⟨e, List.mem_of_mem_filter member, same, filed⟩
  · rintro ⟨e, member, same, filed⟩
    refine ⟨e, List.mem_filter.mpr ⟨member, ?_⟩, same, filed⟩
    rw [Bool.not_eq_true', List.isEmpty_eq_false_iff]
    exact List.ne_nil_of_mem filed

theorem Addressed.unfile (addressed : Addressed entries) :
    Addressed (unfileAddress entries ip id) := by
  have apart : ((entries.map fun e =>
      if e.ip = ip then { e with ids := e.ids.filter (· != id) } else e).map (·.ip)).Nodup :=
    nodup_map addressed.apart fun _ => rfl
  refine ⟨nodup_filter apart _, fun e member => ?_⟩
  simpa using (List.mem_filter.mp member).2

end Addresses

abbrev Filed (r : Registry) : Nat → Nat → Prop := Files ScopeEntry.scope ScopeEntry.ids r.byScope

structure Watched (r : Registry) : Prop where
  apart : (r.byScope.map (·.scope)).Nodup
  filled : ∀ e ∈ r.byScope, e.ids ≠ []
  numbers : (r.watches.map (·.number)).Nodup
  fresh : ∀ x ∈ r.watches, x.number < r.nextWatch
  live : ∀ e ∈ r.byScope, ∃ x ∈ r.watches, x.number = e.watch ∧ x.scope.id = e.scope ∧
    x.unwatched = false

section Scopes

variable {r : Registry} (scope : Scope) (id : Nat)

theorem filed_fileScope (s i : Nat) :
    (r.fileScope scope id).Filed s i ↔ r.Filed s i ∨ s = scope.id ∧ i = id := by
  unfold fileScope
  split
  next known => exact files_more (fun _ => rfl) (fun _ => rfl) (by simpa using known)
  next => exact files_append.trans (by simp [eq_comm])

theorem fileScope_watches :
    (r.fileScope scope id).watches = r.watches ∨
      (r.fileScope scope id).watches = r.watches ++ [{ number := r.nextWatch, scope := scope }] := by
  unfold fileScope
  split
  · exact .inl rfl
  · exact .inr rfl

theorem Watched.file (watched : r.Watched) : (r.fileScope scope id).Watched := by
  obtain ⟨apart, filled, numbers, fresh, live⟩ := watched
  unfold fileScope
  split
  next =>
    refine ⟨nodup_map apart fun _ => rfl, fun e member => ?_, numbers, fresh,
      fun e member => ?_⟩
    all_goals obtain ⟨o, was, rfl⟩ := List.mem_map.mp member
    · split
      · simp
      · exact filled o was
    · obtain ⟨x, there, number, same, lives⟩ := live o was
      refine ⟨x, there, ?_⟩
      split <;> exact ⟨number, same, lives⟩
  next unknown =>
    refine ⟨nodup_append apart fun e member same => unknown ?_, fun e member => ?_,
      nodup_append numbers fun x member => Nat.ne_of_lt (fresh x member), fun x member => ?_,
      fun e member => ?_⟩
    · exact List.any_eq_true.mpr ⟨e, member, by simpa using same⟩
    · rcases List.mem_append.mp member with old | new
      · exact filled e old
      · simp [List.mem_singleton.mp new]
    · rcases List.mem_append.mp member with old | new
      · exact Nat.lt_succ_of_lt (fresh x old)
      · rw [List.mem_singleton.mp new]
        exact Nat.lt_succ_self _
    · rcases List.mem_append.mp member with old | new
      · obtain ⟨x, there, lives⟩ := live e old
        exact ⟨x, List.mem_append_left _ there, lives⟩
      · obtain rfl := List.mem_singleton.mp new
        exact ⟨_, List.mem_append_right _ (List.mem_singleton_self _), rfl, rfl, rfl⟩

variable (watch : Nat)

theorem unwatch_numbers : (r.unwatch watch).watches.map (·.number) = r.watches.map (·.number) := by
  unfold unwatch
  rw [List.map_map]
  refine List.map_congr_left fun x _ => ?_
  dsimp only [Function.comp]
  split <;> rfl

theorem mem_unwatch {x : ScopeWatch} (member : x ∈ (r.unwatch watch).watches) :
    ∃ o ∈ r.watches, x.number = o.number ∧ x.scope = o.scope := by
  obtain ⟨o, was, rfl⟩ := List.mem_map.mp member
  refine ⟨o, was, ?_⟩
  split <;> exact ⟨rfl, rfl⟩

theorem Watched.drop (watched : r.Watched) {e : ScopeEntry} (member : e ∈ r.byScope) :
    (({ r with byScope := r.byScope.filter (·.scope != e.scope) }).unwatch e.watch).Watched := by
  obtain ⟨apart, filled, numbers, fresh, live⟩ := watched
  refine ⟨nodup_filter apart _, fun o left => filled o (List.mem_of_mem_filter left),
    (unwatch_numbers e.watch).symm ▸ numbers, fun x there => ?_, fun o left => ?_⟩
  · obtain ⟨y, was, number, -⟩ := mem_unwatch e.watch there
    exact number ▸ fresh y was
  · obtain ⟨was, other⟩ := List.mem_filter.mp left
    obtain ⟨x, there, number, same, lives⟩ := live o was
    obtain ⟨y, there', number', same', -⟩ := live e member
    have different : x.number ≠ e.watch := by
      rintro hit
      obtain rfl := eq_of_key numbers there there' (hit.trans number'.symm)
      simp [← same, ← same'] at other
    refine ⟨x, List.mem_map.mpr ⟨x, there, ?_⟩, number, same, lives⟩
    rw [if_neg different]

theorem find_entry {scope : Nat} {e : ScopeEntry} (found : r.byScope.find? (·.scope = scope) = some e) :
    e ∈ r.byScope ∧ e.scope = scope :=
  ⟨List.mem_of_find?_eq_some found, by simpa using List.find?_some found⟩

theorem files_filter {scope : Nat} (s i : Nat) :
    Files ScopeEntry.scope ScopeEntry.ids (r.byScope.filter (·.scope != scope)) s i ↔
      r.Filed s i ∧ s ≠ scope := by
  constructor
  · rintro ⟨o, left, rfl, filed⟩
    obtain ⟨was, other⟩ := List.mem_filter.mp left
    exact ⟨⟨o, was, rfl, filed⟩, by simpa using other⟩
  · rintro ⟨⟨o, was, rfl, filed⟩, other⟩
    exact ⟨o, List.mem_filter.mpr ⟨was, by simpa using other⟩, rfl, filed⟩

theorem not_filed {scope : Nat} (missing : r.byScope.find? (·.scope = scope) = none) (i : Nat) :
    ¬ r.Filed scope i := by
  rintro ⟨e, member, same, -⟩
  simpa [same] using List.find?_eq_none.mp missing e member

theorem filed_unfileScope (watched : r.Watched) (scope s i : Nat) :
    (r.unfileScope scope id).Filed s i ↔ r.Filed s i ∧ ¬(s = scope ∧ i = id) := by
  unfold unfileScope
  split
  next missing =>
    refine ⟨fun filed => ⟨filed, ?_⟩, And.left⟩
    rintro ⟨rfl, -⟩
    exact not_filed missing i filed
  next e found =>
    obtain ⟨member, rfl⟩ := find_entry found
    dsimp only
    split
    next empty =>
      refine (files_filter s i).trans (and_congr_right fun filed => ?_)
      rw [not_and]
      refine ⟨fun other same => absurd same other, fun only same => only same ?_⟩
      obtain ⟨o, was, rfl, filed⟩ := filed
      obtain rfl := eq_of_key watched.apart was member same
      by_contra other
      have left : i ∈ o.ids.filter (· != id) := List.mem_filter.mpr ⟨filed, by simpa using other⟩
      rw [List.isEmpty_iff.mp empty] at left
      cases left
    next =>
      -- The entry of the scope is the one that was found.
      have entry : (r.byScope.map fun o =>
            if o.scope = e.scope then { o with ids := e.ids.filter (· != id) } else o) =
          r.byScope.map fun o =>
            if o.scope = e.scope then { o with ids := o.ids.filter (· != id) } else o := by
        refine List.map_congr_left fun o was => ?_
        split
        next same => rw [eq_of_key watched.apart was member same]
        next => rfl
      change Files ScopeEntry.scope ScopeEntry.ids (r.byScope.map fun o =>
        if o.scope = e.scope then { o with ids := e.ids.filter (· != id) } else o) s i ↔ _
      rw [entry]
      exact files_less (fun _ => rfl) fun _ => rfl

theorem Watched.unfile (watched : r.Watched) (scope : Nat) : (r.unfileScope scope id).Watched := by
  unfold unfileScope
  split
  · exact watched
  next e found =>
    obtain ⟨member, rfl⟩ := find_entry found
    dsimp only
    split
    · exact watched.drop member
    next left =>
      have apart := watched.apart
      refine ⟨nodup_map apart fun _ => rfl, fun o there => ?_, watched.numbers,
        watched.fresh, fun o there => ?_⟩
      all_goals obtain ⟨o, was, rfl⟩ := List.mem_map.mp there
      · split
        · simpa using left
        · exact watched.filled o was
      · obtain ⟨x, there, number, same, lives⟩ := watched.live o was
        refine ⟨x, there, ?_⟩
        split <;> exact ⟨number, same, lives⟩

theorem unfileScope_watches {scope : Nat} {x : ScopeWatch}
    (member : x ∈ (r.unfileScope scope id).watches) :
    ∃ o ∈ r.watches, x.scope = o.scope := by
  unfold unfileScope at member
  split at member
  · exact ⟨x, member, rfl⟩
  · dsimp only at member
    split at member
    · obtain ⟨o, was, -, same⟩ := mem_unwatch _ member
      exact ⟨o, was, same⟩
    · exact ⟨x, member, rfl⟩

end Scopes

-- What is filed is a member, under its own scope and at its own address. The entry of a scope may
-- go before its members do.
structure Sound (r : Registry) : Prop where
  members : (r.members.map (·.id)).Nodup
  watched : r.Watched
  filed : ∀ s i, r.Filed s i → ∃ m ∈ r.members, m.id = i ∧ m.scope.id = s
  addressed : Addressed r.byAddress
  filedAt : ∀ ip i, FiledAt r.byAddress ip i ↔ ∃ m ∈ r.members, m.id = i ∧ m.localIp = some ip

theorem sound_empty : ({} : Registry).Sound := by
  refine ⟨?_, ⟨?_, ?_, ?_, ?_, ?_⟩, ?_, ⟨?_, ?_⟩, ?_⟩ <;> simp [Files]

section Members

variable {r next : Registry} {m : Member}

theorem has_iff {id : Nat} : r.has id ↔ ∃ m ∈ r.members, m.id = id := by
  simp [has, List.any_eq_true]

def fileMember (entries : List AddressEntry) (m : Member) : List AddressEntry :=
  match m.localIp with
  | some ip => fileAddress entries ip m.id
  | none => entries

def unfileMember (entries : List AddressEntry) (m : Member) : List AddressEntry :=
  match m.localIp with
  | some ip => unfileAddress entries ip m.id
  | none => entries

theorem filedAt_fileMember (entries : List AddressEntry) (m : Member) (p : Ip) (i : Nat) :
    FiledAt (fileMember entries m) p i ↔
      FiledAt entries p i ∨ m.localIp = some p ∧ i = m.id := by
  unfold fileMember
  split
  next ip at_address => rw [filedAt_file, at_address, Option.some.injEq, eq_comm (a := p)]
  next nowhere => simp [nowhere]

theorem filedAt_unfileMember (entries : List AddressEntry) (m : Member) (p : Ip) (i : Nat) :
    FiledAt (unfileMember entries m) p i ↔
      FiledAt entries p i ∧ ¬(m.localIp = some p ∧ i = m.id) := by
  unfold unfileMember
  split
  next ip at_address => rw [filedAt_unfile, at_address, Option.some.injEq, eq_comm (a := p)]
  next nowhere => simp [nowhere]

theorem Addressed.fileMember {entries : List AddressEntry} (addressed : Addressed entries)
    (m : Member) : Addressed (fileMember entries m) := by
  unfold Registry.fileMember
  split
  · exact addressed.file _ _
  · exact addressed

theorem Addressed.unfileMember {entries : List AddressEntry} (addressed : Addressed entries)
    (m : Member) : Addressed (unfileMember entries m) := by
  unfold Registry.unfileMember
  split
  · exact addressed.unfile _ _
  · exact addressed

theorem fileScope_rest (scope : Scope) (id : Nat) :
    (r.fileScope scope id).members = r.members ∧
      (r.fileScope scope id).byAddress = r.byAddress := by
  unfold fileScope
  split <;> exact ⟨rfl, rfl⟩

theorem unfileScope_rest (scope id : Nat) :
    (r.unfileScope scope id).members = r.members ∧
      (r.unfileScope scope id).byAddress = r.byAddress := by
  unfold unfileScope
  split
  · exact ⟨rfl, rfl⟩
  · dsimp only
    split <;> exact ⟨rfl, rfl⟩

-- A member comes, or goes, before its scope is told so.
def enlist (r : Registry) (m : Member) : Registry :=
  { r with members := r.members ++ [m], byAddress := fileMember r.byAddress m }

def strike (r : Registry) (m : Member) : Registry :=
  { r with
    members := r.members.filter (·.id != m.id)
    byAddress := unfileMember r.byAddress m }

section Adding

variable (added : r.add? m = some next)

include added

theorem add?_eq : (∀ o ∈ r.members, o.id ≠ m.id) ∧
    next = (r.enlist m).fileScope m.scope m.id := by
  unfold add? at added
  split at added
  next => cases added
  next absent =>
    refine ⟨fun o member same => absent (has_iff.mpr ⟨o, member, same⟩), ?_⟩
    exact (Option.some.inj added).symm

theorem add?_members : next.members = r.members ++ [m] := by
  rw [(add?_eq added).2, (fileScope_rest _ _).1, enlist]

theorem add?_filed (s i : Nat) : next.Filed s i ↔ r.Filed s i ∨ s = m.scope.id ∧ i = m.id := by
  rw [(add?_eq added).2]
  exact filed_fileScope _ _ s i

theorem add?_filedAt (p : Ip) (i : Nat) : FiledAt next.byAddress p i ↔
    FiledAt r.byAddress p i ∨ m.localIp = some p ∧ i = m.id := by
  rw [(add?_eq added).2, (fileScope_rest _ _).2]
  exact filedAt_fileMember _ m p i

theorem add?_watches {x : ScopeWatch} (member : x ∈ next.watches) :
    x ∈ r.watches ∨ x.scope = m.scope := by
  rw [(add?_eq added).2] at member
  rcases fileScope_watches (r := r.enlist m) m.scope m.id with same | more
  · exact .inl (same ▸ member)
  · rw [more] at member
    rcases List.mem_append.mp member with old | new
    · exact .inl old
    · exact .inr (by rw [List.mem_singleton.mp new])

theorem Sound.add (sound : r.Sound) : next.Sound := by
  have members := add?_members added
  have old {i : Nat} {p : Member → Prop} (known : ∃ o ∈ r.members, o.id = i ∧ p o) :
      ∃ o ∈ next.members, o.id = i ∧ p o := by
    obtain ⟨o, member, same⟩ := known
    exact ⟨o, members ▸ List.mem_append_left _ member, same⟩
  have new : m ∈ next.members := members ▸ List.mem_append_right _ (List.mem_singleton_self m)
  refine ⟨?members, ?watched, fun s i is => ?filed, ?addressed, fun p i => ?filedAt⟩
  case members => exact members ▸ nodup_append sound.members (add?_eq added).1
  case watched =>
    obtain ⟨apart, filled, numbers, fresh, live⟩ := sound.watched
    rw [(add?_eq added).2]
    exact Watched.file (r := r.enlist m) _ _ ⟨apart, filled, numbers, fresh, live⟩
  case filed =>
    rcases (add?_filed added s i).mp is with was | ⟨rfl, rfl⟩
    · exact old (sound.filed s i was)
    · exact ⟨m, new, rfl, rfl⟩
  case addressed =>
    rw [(add?_eq added).2, (fileScope_rest _ _).2]
    exact sound.addressed.fileMember m
  case filedAt =>
    rw [add?_filedAt added, sound.filedAt]
    constructor
    · rintro (known | ⟨at_address, rfl⟩)
      · exact old known
      · exact ⟨m, new, rfl, at_address⟩
    · rintro ⟨o, member, rfl, at_address⟩
      rw [members] at member
      rcases List.mem_append.mp member with before | now
      · exact .inl ⟨o, before, rfl, at_address⟩
      · obtain rfl := List.mem_singleton.mp now
        exact .inr ⟨at_address, rfl⟩

end Adding

section Removing

variable (sound : r.Sound) (id : Nat)

theorem remove_cases : (r.has id = false ∧ r.remove id = r) ∨
    ∃ m ∈ r.members, m.id = id ∧ r.remove id = (r.strike m).unfileScope m.scope.id id := by
  unfold remove
  split
  next missing =>
    refine .inl ⟨?_, rfl⟩
    rw [Bool.eq_false_iff, ne_eq, has_iff]
    rintro ⟨m, member, same⟩
    simpa [same] using List.find?_eq_none.mp missing m member
  next m found =>
    have same : m.id = id := by simpa using List.find?_some found
    refine .inr ⟨m, List.mem_of_find?_eq_some found, same, ?_⟩
    subst same
    rfl

theorem remove_members : (r.remove id).members = r.members.filter (·.id != id) := by
  rcases r.remove_cases id with ⟨absent, same⟩ | ⟨m, -, hit, same⟩
  · rw [same]
    refine (List.filter_eq_self.mpr fun m member => ?_).symm
    rw [Bool.eq_false_iff, ne_eq, has_iff] at absent
    simpa using fun same => absent ⟨m, member, same⟩
  · rw [same, (unfileScope_rest _ _).1, strike, hit]

theorem remove_watches {x : ScopeWatch} (member : x ∈ (r.remove id).watches) :
    ∃ o ∈ r.watches, x.scope = o.scope := by
  rcases r.remove_cases id with ⟨-, same⟩ | ⟨m, -, -, same⟩
  · exact ⟨x, same ▸ member, rfl⟩
  · exact unfileScope_watches (r := r.strike m) id (same ▸ member)

include sound

theorem watched_strike (m : Member) : (r.strike m).Watched := by
  obtain ⟨apart, filled, numbers, fresh, live⟩ := sound.watched
  exact ⟨apart, filled, numbers, fresh, live⟩

theorem remove_filed (s i : Nat) : (r.remove id).Filed s i ↔ r.Filed s i ∧ i ≠ id := by
  have known (filed : r.Filed s i) := sound.filed s i filed
  rcases r.remove_cases id with ⟨absent, same⟩ | ⟨m, member, rfl, same⟩
  · rw [same, iff_self_and]
    rintro filed rfl
    obtain ⟨o, there, hit, -⟩ := known filed
    rw [has_iff.mpr ⟨o, there, hit⟩] at absent
    cases absent
  · rw [same]
    refine (filed_unfileScope m.id (watched_strike sound m) m.scope.id s i).trans
      (and_congr_right fun filed => ?_)
    rw [not_and, ne_eq]
    refine ⟨fun other hit => ?_, fun other _ => other⟩
    obtain ⟨o, there, number, scope⟩ := known filed
    obtain rfl := eq_of_key sound.members there member (number.trans hit)
    exact other scope.symm hit

theorem Sound.removed : (r.remove id).Sound := by
  have members := r.remove_members id
  have left {i : Nat} {p : Member → Prop} (other : i ≠ id) (known : ∃ o ∈ r.members, o.id = i ∧ p o) :
      ∃ o ∈ (r.remove id).members, o.id = i ∧ p o := by
    obtain ⟨o, member, rfl, holds⟩ := known
    exact ⟨o, members ▸ List.mem_filter.mpr ⟨member, by simpa using other⟩, rfl, holds⟩
  refine ⟨?members, ?watched, fun s i is => ?filed, ?addressed, fun p i => ?filedAt⟩
  case members => exact members ▸ nodup_filter sound.members _
  case watched =>
    rcases r.remove_cases id with ⟨-, same⟩ | ⟨m, -, -, same⟩
    · exact same.symm ▸ sound.watched
    · rw [same]
      exact (watched_strike sound m).unfile id m.scope.id
  case filed =>
    obtain ⟨was, other⟩ := (remove_filed sound id s i).mp is
    exact left other (sound.filed s i was)
  case addressed =>
    rcases r.remove_cases id with ⟨-, same⟩ | ⟨m, -, -, same⟩
    · exact same.symm ▸ sound.addressed
    · rw [same, (unfileScope_rest _ _).2]
      exact sound.addressed.unfileMember m
  case filedAt =>
    have index : FiledAt (r.remove id).byAddress p i ↔ FiledAt r.byAddress p i ∧ i ≠ id := by
      rcases r.remove_cases id with ⟨absent, same⟩ | ⟨m, member, rfl, same⟩
      · rw [same, iff_self_and]
        rintro filed rfl
        obtain ⟨o, there, hit, -⟩ := (sound.filedAt p i).mp filed
        rw [has_iff.mpr ⟨o, there, hit⟩] at absent
        cases absent
      · rw [same, (unfileScope_rest _ _).2]
        refine (filedAt_unfileMember _ m p i).trans (and_congr_right fun filed => ?_)
        rw [not_and, ne_eq]
        refine ⟨fun other hit => ?_, fun other _ => other⟩
        obtain ⟨o, there, number, at_address⟩ := (sound.filedAt p i).mp filed
        obtain rfl := eq_of_key sound.members there member (number.trans hit)
        exact other at_address hit
    rw [index, sound.filedAt]
    constructor
    · exact fun ⟨known, other⟩ => left other known
    · rintro ⟨o, member, rfl, at_address⟩
      rw [members] at member
      obtain ⟨was, other⟩ := List.mem_filter.mp member
      exact ⟨⟨o, was, rfl, at_address⟩, by simpa using other⟩

end Removing

section Ends

variable (sound : r.Sound)

include sound

omit sound in
theorem mem_present {ids : List Nat} {i : Nat} :
    i ∈ r.present ids ↔ i ∈ ids ∧ ∃ m ∈ r.members, m.id = i := by
  rw [present, List.mem_filter, has_iff]

theorem mem_scopeDone (scope i : Nat) : i ∈ (r.scopeDone scope).2 ↔ r.Filed scope i := by
  unfold scopeDone
  split
  next missing => simp [not_filed missing]
  next e found =>
    obtain ⟨member, rfl⟩ := find_entry found
    rw [mem_present]
    constructor
    · exact fun ⟨filed, _⟩ => ⟨e, member, rfl, filed⟩
    · intro filed
      obtain ⟨m, there, same, -⟩ := sound.filed _ _ filed
      obtain ⟨o, was, same', inside⟩ := filed
      obtain rfl := eq_of_key sound.watched.apart was member same'
      exact ⟨inside, m, there, same⟩

theorem mem_stranded (addresses : LocalAddresses) (i : Nat) :
    i ∈ r.stranded addresses ↔
      ∃ m ∈ r.members, m.id = i ∧ ∃ ip, m.localIp = some ip ∧ addresses.contains ip = false := by
  rw [stranded, mem_present, List.mem_flatMap]
  constructor
  · rintro ⟨⟨e, left, filed⟩, -⟩
    obtain ⟨member, gone⟩ := List.mem_filter.mp left
    obtain ⟨m, there, same, at_address⟩ := (sound.filedAt e.ip i).mp ⟨e, member, rfl, filed⟩
    exact ⟨m, there, same, e.ip, at_address, by simpa using gone⟩
  · rintro ⟨m, there, same, ip, at_address, gone⟩
    obtain ⟨e, member, rfl, filed⟩ := (sound.filedAt ip i).mpr ⟨m, there, same, at_address⟩
    exact ⟨⟨e, List.mem_filter.mpr ⟨member, by simp [gone]⟩, filed⟩, m, there, same⟩

variable {x : ScopeWatch} (member : x ∈ r.watches)

include member

theorem live_of_other {e : ScopeEntry} (entry : e ∈ r.byScope)
    (other : e.scope ≠ x.scope.id ∨ x.unwatched) :
    ∃ y ∈ (r.dropWatch x.number).watches, y.number = e.watch ∧ y.scope.id = e.scope ∧
      y.unwatched = false := by
  obtain ⟨y, there, number, same, lives⟩ := sound.watched.live e entry
  refine ⟨y, List.mem_filter.mpr ⟨there, ?_⟩, number, same, lives⟩
  rw [bne_iff_ne]
  intro hit
  obtain rfl := eq_of_key sound.watched.numbers there member hit
  rcases other with other | unwatched
  · exact other same.symm
  · rw [lives] at unwatched
    cases unwatched

theorem Sound.forget (unwatched : x.unwatched) : (r.dropWatch x.number).Sound := by
  obtain ⟨apart, filled, numbers, fresh, -⟩ := sound.watched
  refine ⟨sound.members, ?_, sound.filed, sound.addressed, sound.filedAt⟩
  exact ⟨apart, filled, nodup_filter numbers _,
    fun y left => fresh y (List.mem_of_mem_filter left),
    fun e entry => live_of_other sound member entry (.inr unwatched)⟩

omit sound member in
theorem scopeDone_filed (n scope s i : Nat) :
    ((r.dropWatch n).scopeDone scope).1.Filed s i ↔ r.Filed s i ∧ s ≠ scope := by
  unfold scopeDone
  split
  next missing =>
    refine ⟨fun filed => ⟨filed, ?_⟩, And.left⟩
    rintro rfl
    exact not_filed (r := r) missing i filed
  next e found => exact files_filter s i

omit sound member in
theorem scopeDone_rest (n scope : Nat) :
    ((r.dropWatch n).scopeDone scope).1.members = r.members ∧
      ((r.dropWatch n).scopeDone scope).1.byAddress = r.byAddress ∧
      ((r.dropWatch n).scopeDone scope).2 = (r.scopeDone scope).2 := by
  unfold scopeDone
  have same : (r.dropWatch n).byScope = r.byScope := rfl
  rw [same]
  split <;> exact ⟨rfl, rfl, rfl⟩

omit sound member in
theorem scopeDone_watches {n scope : Nat} {y : ScopeWatch}
    (left : y ∈ ((r.dropWatch n).scopeDone scope).1.watches) :
    ∃ o ∈ r.watches, y.scope = o.scope := by
  unfold scopeDone at left
  split at left
  · exact ⟨y, List.mem_of_mem_filter left, rfl⟩
  · obtain ⟨o, was, -, same⟩ := mem_unwatch _ left
    exact ⟨o, List.mem_of_mem_filter was, same⟩

theorem Sound.done : ((r.dropWatch x.number).scopeDone x.scope.id).1.Sound := by
  obtain ⟨members, byAddress, -⟩ := r.scopeDone_rest x.number x.scope.id
  refine ⟨members.symm ▸ sound.members, ?_, fun s i filed => ?_, byAddress.symm ▸ sound.addressed,
    byAddress.symm ▸ members.symm ▸ sound.filedAt⟩
  · obtain ⟨apart, filled, numbers, fresh, -⟩ := sound.watched
    -- Without the entry of this scope, the watch is not needed any more.
    let left : Registry :=
      { r.dropWatch x.number with byScope := r.byScope.filter (·.scope != x.scope.id) }
    have rest : left.Watched := by
      refine ⟨nodup_filter apart _, fun e entry => filled e (List.mem_of_mem_filter entry),
        nodup_filter numbers _, fun y there => fresh y (List.mem_of_mem_filter there),
        fun e entry => ?_⟩
      obtain ⟨was, other⟩ := List.mem_filter.mp entry
      exact live_of_other sound member was (.inl (by simpa using other))
    unfold scopeDone
    split
    next missing =>
      have all : left.byScope = r.byScope := by
        refine List.filter_eq_self.mpr fun e entry => ?_
        simpa using List.find?_eq_none.mp missing e entry
      exact ⟨apart, filled, rest.numbers, rest.fresh, all ▸ rest.live⟩
    next e found =>
      obtain ⟨entry, same⟩ := find_entry found
      refine ⟨rest.apart, rest.filled, (unwatch_numbers (r := left) e.watch).symm ▸ rest.numbers,
        fun y there => ?_, fun o kept => ?_⟩
      · obtain ⟨z, was, number, -⟩ := mem_unwatch (r := left) e.watch there
        exact number ▸ rest.fresh z was
      · obtain ⟨y, there, number, scope, lives⟩ := rest.live o kept
        obtain ⟨was, other⟩ := List.mem_filter.mp kept
        obtain ⟨z, there', number', scope', -⟩ := sound.watched.live e entry
        have different : y.number ≠ e.watch := by
          intro hit
          obtain rfl := eq_of_key numbers (List.mem_of_mem_filter there) there'
            (hit.trans number'.symm)
          simp [← scope, scope', same] at other
        refine ⟨y, List.mem_map.mpr ⟨y, there, ?_⟩, number, scope, lives⟩
        rw [if_neg different]
  · rw [members]
    exact sound.filed s i ((scopeDone_filed _ _ s i).mp filed).1

end Ends

theorem Sound.count_scopes (sound : r.Sound) (filed : ∀ m ∈ r.members, r.Filed m.scope.id m.id) :
    r.byScope.length = ((r.members.map (·.scope.id)).dedup).length := by
  rw [← List.length_map (·.scope)]
  refine length_of_same sound.watched.apart fun s => ?_
  rw [List.mem_map, List.mem_map]
  constructor
  · rintro ⟨e, entry, rfl⟩
    obtain ⟨i, inside⟩ := List.exists_mem_of_ne_nil _ (sound.watched.filled e entry)
    obtain ⟨m, member, -, same⟩ := sound.filed _ _ ⟨e, entry, rfl, inside⟩
    exact ⟨m, member, same⟩
  · rintro ⟨m, member, rfl⟩
    obtain ⟨e, entry, same, -⟩ := filed m member
    exact ⟨e, entry, same⟩

theorem Sound.count_addresses (sound : r.Sound) :
    r.byAddress.length = ((r.members.filterMap (·.localIp)).dedup).length := by
  rw [← List.length_map (·.ip)]
  refine length_of_same sound.addressed.apart fun ip => ?_
  rw [List.mem_map, List.mem_filterMap]
  constructor
  · rintro ⟨e, entry, rfl⟩
    obtain ⟨i, inside⟩ := List.exists_mem_of_ne_nil _ (sound.addressed.filled e entry)
    obtain ⟨m, member, -, at_address⟩ := (sound.filedAt e.ip i).mp ⟨e, entry, rfl, inside⟩
    exact ⟨m, member, at_address⟩
  · rintro ⟨m, member, at_address⟩
    obtain ⟨e, entry, same, -⟩ := (sound.filedAt ip m.id).mpr ⟨m, member, rfl, at_address⟩
    exact ⟨e, entry, same⟩

end Members

end Registry

end Egress
