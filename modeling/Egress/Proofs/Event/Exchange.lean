import Mathlib.Logic.Relation
import Egress.Proofs.Event.Bus

set_option autoImplicit false

namespace Egress.Event

structure Raise where
  number : Nat
  kind : Kind
  deriving DecidableEq, Repr

inductive Happening
  | raised (k : Kind)
  | subscribed (id : Nat) (mask word : Mask)
  | left (id : Nat)
  | received (id : Nat) (k : Kind)
  deriving DecidableEq, Repr

namespace Happening

def subscription? : Happening → Option Nat
  | raised _ => none
  | subscribed id _ _ | left id | received id _ => some id

def isComingOf (id : Nat) : Happening → Bool
  | subscribed other _ _ => other = id
  | _ => false

-- Histories begin with what happened last.
def since (id : Nat) (history : List Happening) : List Happening :=
  history.takeWhile fun e => !e.isComingOf id

-- What came after the subscription and after it last received the kind.
def unanswered (id : Nat) (k : Kind) (history : List Happening) : List Happening :=
  (since id history).takeWhile fun e => e != received id k

end Happening

-- Where the dispatcher stands in its loop. Once armed it waits for a call, or for a place in the
-- slot of a subscription that had this kind to come when the dispatcher armed.
inductive Place
  | looking
  | arming
  | armed (arms : List (Nat × Kind))
  | woken
  | handed (id : Nat) (k : Kind)
  deriving DecidableEq, Repr

def Place.arms : Place → List (Nat × Kind)
  | armed arms => arms
  | _ => []

def Place.isArmed : Place → Bool
  | armed _ => true
  | _ => false

namespace Bus

def arms (b : Bus) : List (Nat × Kind) :=
  b.subscriptions.filterMap fun s => if s.listed then s.pending.lowest.map (s.id, ·) else none

def holds (b : Bus) (id : Nat) : Bool := b.subscriptions.any fun s => s.id = id && s.held

def hasRoom (b : Bus) (id : Nat) : Bool :=
  b.subscriptions.any fun s => s.id = id && s.held && s.slot.isNone

def hand (b : Bus) (id : Nat) (k : Kind) : Bus := b.update id fun s => { s with slot := some k }

def clear (b : Bus) (id : Nat) (k : Kind) : Bus :=
  (b.update id fun s => { s with pending := s.pending.erase k }).sweep

def forget (b : Bus) (id : Nat) : Bus := (b.update id fun s => { s with listed := false }).sweep

end Bus

structure Exchange where
  bus : Bus := {}
  place : Place := .looking
  raises : Nat := 0
  -- Marked since the dispatcher last absorbed, the raise that found nothing marked first.
  gathered : List Raise := []
  -- These found nothing marked, and have still to call.
  calling : List Nat := []
  history : List Happening := []
  deriving DecidableEq, Repr

inductive Act
  | mark (k : Kind)
  | call (number : Nat)
  | subscribe (kinds : List Kind)
  | unsubscribe (id : Nat)
  | drop (id : Nat)
  | receive (id : Nat)
  | absorb
  | arm
  | wake
  | hand (id : Nat) (k : Kind)
  | forget (id : Nat) (k : Kind)
  | clear (id : Nat) (k : Kind)

def Act.isDispatching : Act → Bool
  | absorb | arm | wake | hand _ _ | forget _ _ | clear _ _ => true
  | _ => false

namespace Exchange

def act (x : Exchange) : Act → Exchange
  | .mark k =>
    let (bus, first) := x.bus.mark k
    { x with
      bus
      raises := x.raises + 1
      gathered := x.gathered ++ [⟨x.raises, k⟩]
      calling := if first then x.calling ++ [x.raises] else x.calling
      history := .raised k :: x.history }
  | .call number =>
    { x with bus := x.bus.call, calling := x.calling.filter fun other => other != number }
  | .subscribe kinds =>
    let (bus, id) := x.bus.subscribe kinds
    { x with bus, history := .subscribed id (.ofKinds kinds) x.bus.raised :: x.history }
  | .unsubscribe id => { x with bus := x.bus.unsubscribe id, history := .left id :: x.history }
  | .drop id => { x with bus := x.bus.abandon id, history := .left id :: x.history }
  | .receive id =>
    match x.bus.receive id with
    | (bus, .kind k) => { x with bus, history := .received id k :: x.history }
    | (bus, _) => { x with bus }
  | .absorb =>
    { x with
      bus := x.bus.absorb
      gathered := []
      place := if x.place = .woken then .looking else .arming }
  | .arm => { x with place := .armed x.bus.arms }
  | .wake => { x with bus := { x.bus with wake := false }, place := .woken }
  | .hand id k => { x with bus := x.bus.hand id k, place := .handed id k }
  | .forget id _ => { x with bus := x.bus.forget id, place := .looking }
  | .clear id k => { x with bus := x.bus.clear id k, place := .looking }

def allows (x : Exchange) : Act → Prop
  | .mark _ | .subscribe _ => True
  | .call number => number ∈ x.calling
  | .unsubscribe id | .drop id | .receive id => x.bus.holds id
  | .absorb => x.place = .looking ∨ x.place = .woken
  | .arm => x.place = .arming
  | .wake => x.place.isArmed ∧ x.bus.wake
  | .hand id k => (id, k) ∈ x.place.arms ∧ x.bus.hasRoom id
  | .forget id k => (id, k) ∈ x.place.arms ∧ x.bus.holds id = false
  | .clear id k => x.place = .handed id k

instance (x : Exchange) (a : Act) : Decidable (x.allows a) :=
  match a with
  | .mark _ | .subscribe _ => .isTrue trivial
  | .call number => inferInstanceAs (Decidable (number ∈ x.calling))
  | .unsubscribe _ | .drop _ | .receive _ => inferInstanceAs (Decidable (x.bus.holds _ = true))
  | .absorb => inferInstanceAs (Decidable (_ ∨ _))
  | .arm | .clear _ _ => inferInstanceAs (Decidable (x.place = _))
  | .wake | .hand _ _ | .forget _ _ => inferInstanceAs (Decidable (_ ∧ _))

def Goes (x next : Exchange) : Prop := ∃ a, x.allows a ∧ next = x.act a

abbrev Run : Exchange → Exchange → Prop := Relation.ReflTransGen Goes

def Reaches (x : Exchange) : Prop := Run {} x

def along (x : Exchange) : List Act → Exchange
  | [] => x
  | a :: rest => (x.act a).along rest

def Admits (x : Exchange) : List Act → Prop
  | [] => True
  | a :: rest => x.allows a ∧ (x.act a).Admits rest

instance admitsDecidable (x : Exchange) : (path : List Act) → Decidable (x.Admits path)
  | [] => .isTrue trivial
  | a :: rest =>
    have := admitsDecidable (x.act a) rest
    inferInstanceAs (Decidable (_ ∧ _))

theorem run_along {x : Exchange} {path : List Act} (admitted : x.Admits path) :
    Run x (x.along path) := by
  induction path generalizing x with
  | nil => exact .refl
  | cons a rest ih =>
    obtain ⟨allowed, later⟩ := admitted
    exact .head ⟨a, allowed, rfl⟩ (ih later)

def Parked (x : Exchange) : Prop := ∀ a : Act, a.isDispatching → ¬x.allows a

-- A raise is complete once it has marked its kind, and has called if it found nothing marked.
def Completed (x : Exchange) (r : Raise) : Prop := r.number ∉ x.calling

theorem Parked.waits {x : Exchange} (parked : x.Parked) :
    x.place.isArmed ∧ x.bus.wake = false ∧
      ∀ id k, (id, k) ∈ x.place.arms → x.bus.holds id ∧ x.bus.hasRoom id = false := by
  have armed : x.place.isArmed := by
    cases stands : x.place with
    | armed arms => rfl
    | looking => exact absurd (.inl stands) (parked .absorb rfl)
    | woken => exact absurd (.inr stands) (parked .absorb rfl)
    | arming => exact absurd stands (parked .arm rfl)
    | handed id k => exact absurd stands (parked (.clear id k) rfl)
  refine ⟨armed, ?_, fun id k arm => ⟨?_, ?_⟩⟩
  · by_contra called
    exact parked .wake rfl ⟨armed, by simpa using called⟩
  · by_contra gone
    exact parked (.forget id k) rfl ⟨arm, by simpa using gone⟩
  · by_contra room
    exact parked (.hand id k) rfl ⟨arm, by simpa using room⟩

theorem parked_of_waits {x : Exchange} (armed : x.place.isArmed) (uncalled : x.bus.wake = false)
    (full : ∀ id k, (id, k) ∈ x.place.arms → x.bus.holds id ∧ x.bus.hasRoom id = false) :
    x.Parked := by
  obtain ⟨arms, stands⟩ : ∃ arms, x.place = .armed arms := by
    cases stands : x.place with
    | armed arms => exact ⟨arms, rfl⟩
    | looking | arming | woken | handed => rw [stands] at armed; cases armed
  intro a dispatching allowed
  cases a with
  | absorb => rcases allowed with h | h <;> rw [stands] at h <;> cases h
  | arm => rw [allows, stands] at allowed; cases allowed
  | clear => rw [allows, stands] at allowed; cases allowed
  | wake => exact absurd allowed.2 (by simp [uncalled])
  | hand id k => exact absurd allowed.2 (by simp [(full id k allowed.1).2])
  | forget id k => exact absurd (full id k allowed.1).1 (by simp [allowed.2])
  | mark | call | subscribe | unsubscribe | drop | receive => cases dispatching

section Undisturbed

variable {x : Exchange} {b next : Bus} {s : Subscription} {k : Kind}

theorem raise_runs (x : Exchange) (k : Kind) : ∃ y, Run x y ∧ y.bus = x.bus.raise k := by
  cases first : x.bus.raised.isEmpty with
  | true =>
    refine ⟨x.along [.mark k, .call x.raises], run_along ?_, ?_⟩
    · simp [Admits, allows, act, Bus.mark, first]
    · simp [along, act, Bus.raise, Bus.mark, first]
  | false =>
    refine ⟨x.along [.mark k], run_along ⟨trivial, trivial⟩, ?_⟩
    simp [along, act, Bus.raise, Bus.mark, first]

theorem absorb_again (b : Bus) (wake : Bool) :
    ({ b.absorb with wake } : Bus).absorb = { b.absorb with wake } := by
  have same (s : Subscription) :
      (if s.listed then { s with pending := s.pending.union (Mask.empty.inter s.mask) } else s) =
        s := by
    simp [Mask.union, Mask.inter, Mask.empty]
  simp only [Bus.absorb, Bus.mk.injEq, true_and, and_true]
  exact (List.map_congr_left fun s _ => same s).trans (List.map_id' _)

theorem mem_arms (member : s ∈ b.subscriptions) (listed : s.listed)
    (lowest : s.pending.lowest = some k) : (s.id, k) ∈ b.arms :=
  List.mem_filterMap.mpr ⟨s, member, by simp [listed, lowest]⟩

theorem absorb_numbers : b.absorb.subscriptions.map (·.id) = b.subscriptions.map (·.id) := by
  rw [Bus.absorb, List.map_map]
  refine List.map_congr_left fun s _ => ?_
  dsimp only [Function.comp]
  split <;> rfl

theorem update_congr {f g : Subscription → Subscription}
    (numbers : (b.subscriptions.map (·.id)).Nodup) (member : s ∈ b.subscriptions)
    (same : f s = g s) : b.update s.id f = b.update s.id g := by
  unfold Bus.update
  congr 1
  refine List.map_congr_left fun t there => ?_
  split
  next hit => rw [eq_of_key numbers there member hit, same]
  next => rfl

theorem serve_by_hand (numbers : (b.subscriptions.map (·.id)).Nodup)
    (member : s ∈ b.subscriptions) (held : s.held) (lowest : s.pending.lowest = some k) :
    (b.hand s.id k).clear s.id k = (b.update s.id Subscription.serve).sweep := by
  have both : (b.update s.id fun s => { s with slot := some k, pending := s.pending.erase k }) =
      b.update s.id Subscription.serve :=
    update_congr numbers member (by simp [Subscription.serve, held, lowest])
  rw [← both, Bus.clear, Bus.hand]
  congr 1
  simp only [Bus.update, List.map_map]
  congr 1
  refine List.map_congr_left fun t _ => ?_
  dsimp only [Function.comp]
  by_cases hit : t.id = s.id <;> simp [hit]

theorem serve_by_forgetting (numbers : (b.subscriptions.map (·.id)).Nodup)
    (member : s ∈ b.subscriptions) (gone : s.held = false) :
    b.forget s.id = (b.update s.id Subscription.serve).sweep := by
  rw [Bus.forget, update_congr (g := Subscription.serve) numbers member
    (by simp [Subscription.serve, gone])]

theorem holds_of_member (numbers : (b.subscriptions.map (·.id)).Nodup)
    (member : s ∈ b.subscriptions) : b.holds s.id = s.held := by
  refine Bool.eq_iff_iff.mpr ⟨fun held => ?_, fun held => ?_⟩
  · obtain ⟨t, there, same⟩ := List.any_eq_true.mp held
    simp only [Bool.and_eq_true, decide_eq_true_eq] at same
    exact eq_of_key numbers there member same.1 ▸ same.2
  · exact List.any_eq_true.mpr ⟨s, member, by simp [held]⟩

theorem turn_runs (looking : x.place = .looking)
    (numbers : (x.bus.subscriptions.map (·.id)).Nodup) (opened : x.bus.closed = false)
    (turn : x.bus.turn? = some next) :
    ∃ y, Run x y ∧ y.bus = next ∧ y.place = .looking ∧ y.history = x.history := by
  unfold Bus.turn? at turn
  split at turn
  · cases turn
  · dsimp only at turn
    split at turn
    next called =>
      cases turn
      refine ⟨x.along [.absorb, .arm, .wake, .absorb], run_along ?_, absorb_again x.bus false,
        rfl, rfl⟩
      simp [Admits, allows, act, looking, Place.isArmed, called]
    · split at turn
      next closed => exact absurd (opened.symm.trans closed) Bool.false_ne_true
      · split at turn
        next s found =>
          cases turn
          have numbers := absorb_numbers (b := x.bus) ▸ numbers
          have member := List.mem_of_find?_eq_some found
          have ready := List.find?_some found
          simp only [Subscription.isReady, Bool.and_eq_true, Bool.or_eq_true,
            Bool.not_eq_true'] at ready
          obtain ⟨⟨listed, pending⟩, free⟩ := ready
          obtain ⟨k, lowest⟩ := Mask.lowest_of_nonempty pending
          have arm := mem_arms member listed lowest
          cases held : s.held with
          | true =>
            have room : x.bus.absorb.hasRoom s.id :=
              List.any_eq_true.mpr ⟨s, member, by simpa [held] using free⟩
            refine ⟨x.along [.absorb, .arm, .hand s.id k, .clear s.id k], run_along ?_,
              serve_by_hand numbers member held lowest, rfl, rfl⟩
            simp [Admits, allows, act, looking, Place.arms, arm, room]
          | false =>
            have gone : x.bus.absorb.holds s.id = false :=
              (holds_of_member numbers member).trans held
            refine ⟨x.along [.absorb, .arm, .forget s.id k], run_along ?_,
              serve_by_forgetting numbers member held, rfl, rfl⟩
            simp [Admits, allows, act, looking, Place.arms, arm, gone]
        next => cases turn

theorem parks_of_no_turn (looking : x.place = .looking)
    (numbers : (x.bus.subscriptions.map (·.id)).Nodup) (goesOn : x.bus.stopped = false)
    (waits : x.bus.turn? = none) :
    Run x (x.along [.absorb, .arm]) ∧ (x.along [.absorb, .arm]).Parked := by
  refine ⟨run_along (by simp [Admits, allows, act, looking]), ?_⟩
  unfold Bus.turn? at waits
  rw [if_neg (by simp [goesOn])] at waits
  dsimp only at waits
  split at waits
  · cases waits
  next uncalled =>
    split at waits
    · cases waits
    · split at waits
      · cases waits
      next unready =>
        have uncalled : x.bus.absorb.wake = false := by simpa using uncalled
        refine parked_of_waits rfl uncalled fun id k arm => ?_
        obtain ⟨s, member, first⟩ := List.mem_filterMap.mp arm
        have numbers := absorb_numbers (b := x.bus) ▸ numbers
        obtain ⟨listed, lowest, rfl⟩ : s.listed ∧ s.pending.lowest = some k ∧ s.id = id := by
          simpa using first
        have pending := Mask.nonempty_of_contains (Mask.contains_of_lowest lowest)
        have full := List.find?_eq_none.mp unready s member
        simp only [Subscription.isReady, listed, pending, Bool.not_false, Bool.true_and,
          Bool.or_eq_true, Bool.not_eq_true', not_or, Bool.not_eq_false] at full
        refine ⟨(holds_of_member numbers member).trans full.2,
          List.any_eq_false.mpr fun t there => ?_⟩
        simp only [Bool.and_eq_true, decide_eq_true_eq, not_and]
        rintro ⟨same, -⟩
        obtain rfl := eq_of_key numbers there member same
        exact full.1

end Undisturbed

end Exchange

end Egress.Event
