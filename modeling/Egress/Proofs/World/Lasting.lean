import Egress.Proofs.World.Books

set_option autoImplicit false

namespace Egress

open Tunnel

def ReconnectStage.draining? : ReconnectStage → Option Nat
  | .draining g => some g
  | .fresh | .locking => none

def Call.draining? : Call → Option Nat
  | .reconnect _ stage | .setParams _ stage | .run (.disconnecting stage) => stage.draining?
  | _ => none

namespace World

def IsPast (w : World) (g : Nat) : Prop := g < w.generations.length ∧ g ≠ w.current

def IsDialing (w : World) (call : String) (g : Nat) : Prop :=
  ∃ c, (call, c) ∈ w.calls ∧ dialGeneration? c = some g

def IsDraining (w : World) (call : String) (g : Nat) : Prop :=
  ∃ c, (call, c) ∈ w.calls ∧ c.draining? = some g

def endOf? (w next : World) (call : String) : Option Finish :=
  (next.finished.drop w.finished.length).lookup call

def isSessionClosed (w : World) (session : Nat) : Bool :=
  (w.script.session? session).any (·.closed)

-- A session whose watch has ended is closed, and its streams know that it is lost.
def Tidy (w : World) : Prop :=
  ∀ x ∈ w.sessionWatches, x.ended → w.isSessionClosed x.session ∧ w.isTripped x.generation x.slot

structure Lasts (w next : World) : Prop where
  settings : next.settings = w.settings
  generations : w.generations.length ≤ next.generations.length
  current : next.current = w.current ∨ w.generations.length ≤ next.current
  script : w.script.Keeps next.script
  lost : ∀ g slot, w.isTripped g slot → next.isTripped g slot
  streams : ∀ (i : Nat) (s : Stream), w.streams[i]? = some s →
    ∃ t, next.streams[i]? = some t ∧ s.Becomes t
  watches : ∀ x ∈ w.sessionWatches, ∃ y ∈ next.sessionWatches,
    y.generation = x.generation ∧ y.lease = x.lease
  tidy : w.Tidy → next.Tidy
  finished : w.finished <+: next.finished
  drained : ∀ g, w.IsPast g → w.isDrained g → next.isDrained g
  dials : ∀ g, w.IsPast g → ∀ call, next.IsDialing call g → w.IsDialing call g
  arrivals : ∀ g, w.IsPast g → ∀ (i : Nat) (t : Stream), next.streams[i]? = some t →
    t.generation = g → i < w.streams.length
  ends : ∀ g, w.IsPast g → ∀ call, w.IsDialing call g →
    next.IsDialing call g ∧ w.endOf? next call = none ∨
      w.endOf? next call = some (.failed .canceled)
  drains : ∀ g, w.IsPast g → ∀ call, w.IsDraining call g →
    next.IsDraining call g ∨ next.isDrained g

theorem endOf?_self (w : World) (call : String) : w.endOf? w call = none := by
  simp [endOf?]

namespace Lasts

variable {u w next : World}

theorem past (h : Lasts w next) {g : Nat} (past : w.IsPast g) : next.IsPast g := by
  refine ⟨Nat.lt_of_lt_of_le past.1 h.generations, fun same => ?_⟩
  rcases h.current with kept | later
  · exact past.2 (same.trans kept)
  · have := past.1
    omega

theorem refl (w : World) : Lasts w w where
  settings := rfl
  generations := Nat.le_refl _
  current := .inl rfl
  script := .refl _
  lost _ _ := id
  streams _ s found := ⟨s, found, .refl s⟩
  watches x member := ⟨x, member, rfl, rfl⟩
  tidy := id
  finished := List.prefix_refl _
  drained _ _ := id
  dials _ _ _ := id
  arrivals _ _ _ _ found _ := (List.getElem?_eq_some_iff.mp found).1
  ends _ _ call dialing := .inl ⟨dialing, w.endOf?_self call⟩
  drains _ _ _ := .inl

theorem trans (h : Lasts u w) (k : Lasts w next) : Lasts u next where
  settings := k.settings.trans h.settings
  generations := Nat.le_trans h.generations k.generations
  current := by
    rcases k.current with kept | later
    · rw [kept]
      exact h.current
    · exact .inr (Nat.le_trans h.generations later)
  script := h.script.trans k.script
  lost g slot := k.lost g slot ∘ h.lost g slot
  streams i s found := by
    obtain ⟨t, foundT, becomes⟩ := h.streams i s found
    obtain ⟨r, foundR, becomes'⟩ := k.streams i t foundT
    exact ⟨r, foundR, becomes.trans becomes'⟩
  watches x member := by
    obtain ⟨y, member, generation, lease⟩ := h.watches x member
    obtain ⟨z, member, generation', lease'⟩ := k.watches y member
    exact ⟨z, member, generation'.trans generation, lease'.trans lease⟩
  tidy := k.tidy ∘ h.tidy
  finished := h.finished.trans k.finished
  drained g past := k.drained g (h.past past) ∘ h.drained g past
  dials g past call := h.dials g past call ∘ k.dials g (h.past past) call
  arrivals g past i t found same := by
    have known := k.arrivals g (h.past past) i t found same
    obtain ⟨r, foundR, becomes⟩ := k.streams i _ (List.getElem?_eq_getElem known)
    obtain rfl := Option.some.inj (found.symm.trans foundR)
    exact h.arrivals g past i _ (List.getElem?_eq_getElem known) (becomes.generation ▸ same)
  ends g past call dialing := by
    -- What ends first ends in the first part, or else in the second.
    have parts : u.endOf? next call = (u.endOf? w call).or (w.endOf? next call) := by
      obtain ⟨first, same⟩ := h.finished
      obtain ⟨second, same'⟩ := k.finished
      simp [endOf?, ← same', ← same, List.lookup_append]
    rw [parts]
    rcases h.ends g past call dialing with ⟨still, unended⟩ | ended
    · rw [unended, Option.none_or]
      exact k.ends g (h.past past) call still
    · rw [ended]
      exact .inr rfl
  drains g past call draining := by
    rcases h.drains g past call draining with still | drained
    · exact k.drains g (h.past past) call still
    · exact .inr (k.drained g (h.past past) drained)

end Lasts

theorem isDrained_iff (w : World) (g : Nat) :
    w.isDrained g ↔ (∀ call, ¬ w.IsDialing call g) ∧
      (∀ x ∈ w.sessionWatches, x.generation = g → x.ended) ∧
      ∀ x ∈ w.streamWatches, ∀ s, w.stream? x.stream = some s → s.generation = g → x.ended := by
  simp only [isDrained, IsDialing, Bool.and_eq_true, List.all_eq_true, and_assoc]
  refine and_congr ?calls (and_congr ?sessions ?streams)
  case calls =>
    simp only [bne_iff_ne, ne_eq, not_exists, not_and, Prod.forall]
  case sessions =>
    apply forall₂_congr
    intro x _
    by_cases same : x.generation = g <;> simp [same]
  case streams =>
    apply forall₂_congr
    intro x _
    cases w.stream? x.stream with
    | none => simp
    | some s => by_cases same : s.generation = g <;> simp [same]

theorem calls_of_frame {w next : World} (same : next.frame = w.frame) : next.calls = w.calls :=
  congrArg (·.calls) same

theorem isDialing_of_calls {w next : World} (same : next.calls = w.calls) (call : String) (g : Nat) :
    next.IsDialing call g ↔ w.IsDialing call g := by
  rw [IsDialing, same, IsDialing]

theorem isDraining_of_calls {w next : World} (same : next.calls = w.calls) (call : String)
    (g : Nat) : next.IsDraining call g ↔ w.IsDraining call g := by
  rw [IsDraining, same, IsDraining]

theorem Regular.watches_stream {w : World} (regular : w.Regular) {i : Nat} {x : StreamWatch}
    (found : w.streamWatches[i]? = some x) : x.stream = i ∧ i < w.streams.length := by
  have numbered : (w.streamWatches.map (·.stream))[i]? = some x.stream := by
    simpa using ⟨x, found, rfl⟩
  rw [regular.watchers] at numbered
  obtain ⟨inside, same⟩ := List.getElem?_eq_some_iff.mp numbered
  simp only [List.getElem_range] at same
  exact ⟨same.symm, by simpa using inside⟩

variable {g : Nat} {w next : World}

theorem Grows.tidy (grows : Grows g w next) (tidy : w.Tidy) : next.Tidy := by
  intro x member ended
  obtain ⟨new, same, fresh⟩ := grows.sessionWatches
  rw [same] at member
  rcases List.mem_append.mp member with old | arrived
  · obtain ⟨closed, tripped⟩ := tidy x old ended
    refine ⟨?_, grows.lost _ _ tripped⟩
    obtain ⟨session, found, closed⟩ := Option.any_eq_true _ _ |>.mp closed
    obtain ⟨later, found', -, still⟩ := grows.script _ _ found
    simp only [isSessionClosed, Simulation.Script.session?, found', Option.any_some]
    exact still closed
  · rw [(fresh x arrived).1] at ended
    cases ended

theorem Turn.drained {a b : Hand} (turn : Turn g a b w next) (regular : w.Regular)
    (inside : g < w.generations.length) {other : Nat}
    (idle : other = g → next.sessionWatches = w.sessionWatches ∧
      next.streamWatches = w.streamWatches)
    (drained : w.isDrained other) : next.isDrained other := by
  have later := turn.regular regular inside
  have ⟨dials, sessions, streams⟩ := (w.isDrained_iff other).mp drained
  have calls := calls_of_frame turn.frame
  refine (next.isDrained_iff other).mpr ⟨?dials, ?sessions, ?streams⟩
  case dials => exact fun call dialing => dials call ((isDialing_of_calls calls call other).mp dialing)
  case sessions =>
    obtain ⟨new, same, fresh⟩ := turn.grows.sessionWatches
    intro x member generation
    rw [same] at member
    rcases List.mem_append.mp member with old | arrived
    · exact sessions x old generation
    · obtain rfl : other = g := generation.symm.trans (fresh x arrived).2
      rw [(idle rfl).1, List.self_eq_append_right] at same
      simp [same] at arrived
  case streams =>
    obtain ⟨new, same, -⟩ := turn.grows.streamWatches
    intro x member s found generation
    rw [same] at member
    by_cases known : x ∈ w.streamWatches
    · obtain ⟨i, at_i⟩ := List.getElem?_of_mem known
      obtain ⟨rfl, below⟩ := regular.watches_stream at_i
      obtain ⟨t, found', becomes⟩ := turn.grows.streams _ _ (List.getElem?_eq_getElem below)
      obtain rfl := Option.some.inj (found.symm.trans found')
      exact streams x known _ (List.getElem?_eq_getElem below)
        (becomes.generation.symm.trans generation)
    · obtain ⟨i, at_i⟩ := List.getElem?_of_mem (same ▸ member)
      obtain ⟨rfl, -⟩ := later.watches_stream at_i
      have beyond : w.streams.length ≤ x.stream := by
        by_contra below
        have length : w.streamWatches.length = w.streams.length := by
          simpa using congrArg List.length regular.watchers
        rw [same, List.getElem?_append_left (by omega)] at at_i
        exact known (List.mem_of_getElem? at_i)
      obtain rfl : other = g := generation.symm.trans (turn.grows.arrivals _ s found beyond)
      rw [(idle rfl).2, List.self_eq_append_right] at same
      simp [same, known] at member

theorem Turn.lasts {a b : Hand} (turn : Turn g a b w next) (regular : w.Regular)
    (inside : g < w.generations.length)
    (idle : w.IsPast g → next.streams.length = w.streams.length ∧
      (w.isDrained g → next.sessionWatches = w.sessionWatches ∧
        next.streamWatches = w.streamWatches)) : Lasts w next where
  settings := congrArg (·.settings) turn.frame
  generations := (generations_length_of_frame turn.frame).ge
  current := .inl (congrArg (·.current) turn.frame)
  script := turn.grows.script
  lost := turn.grows.lost
  streams := turn.grows.streams
  watches x member := by
    obtain ⟨new, same, -⟩ := turn.grows.sessionWatches
    exact ⟨x, same ▸ List.mem_append_left new member, rfl, rfl⟩
  tidy := turn.grows.tidy
  finished := (congrArg (·.finished) turn.frame : next.finished = w.finished) ▸ List.prefix_refl _
  drained other past drained :=
    turn.drained regular inside (fun same => (idle (same ▸ past)).2 (same ▸ drained)) drained
  dials other _ call := (isDialing_of_calls (calls_of_frame turn.frame) call other).mp
  arrivals other past i t found same := by
    by_contra beyond
    have generation := turn.grows.arrivals i t found (Nat.le_of_not_lt beyond)
    obtain rfl : other = g := same.symm.trans generation
    have length := (idle past).1
    have known := (List.getElem?_eq_some_iff.mp found).1
    omega
  ends other _ call dialing := by
    have finished : next.finished = w.finished := congrArg (·.finished) turn.frame
    refine .inl ⟨(isDialing_of_calls (calls_of_frame turn.frame) call other).mpr dialing, ?_⟩
    simp [endOf?, finished]
  drains other _ call draining :=
    .inl ((isDraining_of_calls (calls_of_frame turn.frame) call other).mpr draining)

end World

end Egress
