import Egress.Event.Worker
import Egress.Proofs.Event.Draining

set_option autoImplicit false

namespace Egress.Event

theorem Mask.kinds_inj {m n : Mask} (same : m.kinds = n.kinds) : m = n := by
  have bits (k : Kind) : m.contains k = n.contains k := by
    rw [Bool.eq_iff_iff, ← mem_kinds, ← mem_kinds, same]
  have equal : m.bits = n.bits := BitVec.eq_of_getLsbD_eq fun i inside => by
    obtain ⟨k, rfl⟩ := Kind.exists_index inside
    exact bits k
  cases m
  cases n
  exact congrArg Mask.mk equal

-- What has come to a worker's subscriber and what it has dealt with, with what is before it and
-- what is raised for everybody.
structure Desk where
  past : List Stimulus := []
  handled : List Kind := []
  holding : Option Kind := none
  woken : Bool := false
  slot : Option Kind := none
  pending : Mask := .empty
  word : Mask := .empty

-- Where it comes to rest: what has come to its subscriber by then, what it has dealt with, what it
-- waits with, and what stands behind that.
structure Fate where
  past : List Stimulus
  handled : List Kind
  holding : Option Kind
  behind : List Kind

namespace Subscriber

def mask (s : Subscriber) : Mask := .ofKinds s.kinds

def Waits (s : Subscriber) (past : List Stimulus) (around : Surroundings) (k : Kind) : Prop :=
  (s.poll past around k).outcome = .waits

instance (s : Subscriber) (past : List Stimulus) (around : Surroundings) (k : Kind) :
    Decidable (s.Waits past around k) :=
  inferInstanceAs (Decidable (_ = _))

def serve (s : Subscriber) (around : Surroundings) :
    (line : List Kind) → (past : List Stimulus) → (handled : List Kind) → Fate
  | [], past, handled => ⟨past, handled, none, []⟩
  | k :: line, past, handled =>
    if s.Waits (.called k :: past) around k then
      ⟨.polled k around :: .called k :: past, handled, some k, line⟩
    else s.serve around line (.polled k around :: .called k :: past) (handled ++ [k])

end Subscriber

theorem line_inj {first first' : Option Kind} {behind behind' : List Kind}
    (close : first = none → behind = []) (close' : first' = none → behind' = [])
    (same : first.toList ++ behind = first'.toList ++ behind') : first = first' ∧ behind = behind' := by
  cases first with
  | none =>
    obtain rfl := close rfl
    cases first' with
    | none => exact ⟨rfl, (close' rfl).symm⟩
    | some k => simp at same
  | some j =>
    cases first' with
    | none => simp [close' rfl] at same
    | some k => simpa using same

namespace Desk

def line (mask : Mask) (d : Desk) : List Kind :=
  d.slot.toList ++ (d.pending.union (d.word.inter mask)).kinds

def release (d : Desk) (permits : Nat) : Desk :=
  { d with past := .released permits :: d.past, woken := d.woken || d.holding.isSome }

-- What becomes of it if nothing more is raised or released.
def fate (s : Subscriber) (around : Surroundings) (d : Desk) : Fate :=
  match d.holding with
  | none => s.serve around (d.line s.mask) d.past d.handled
  | some k =>
    if d.woken then
      if s.Waits d.past around k then
        ⟨.polled k around :: d.past, d.handled, some k, d.line s.mask⟩
      else s.serve around (d.line s.mask) (.polled k around :: d.past) (d.handled ++ [k])
    else ⟨d.past, d.handled, some k, d.line s.mask⟩

structure Rests (d : Desk) : Prop where
  heard : d.word = .empty
  filled : d.slot = none → d.pending = .empty
  taken : d.holding = none → d.slot = none
  asleep : d.woken = false

variable {s : Subscriber} {around : Surroundings} {d e : Desk}

theorem Rests.line_eq (mask : Mask) (rests : d.Rests) :
    d.line mask = d.slot.toList ++ d.pending.kinds := by
  have nothing : d.pending.union (Mask.inter .empty mask) = d.pending := by
    simp [Mask.union, Mask.inter, Mask.empty]
  rw [line, rests.heard, nothing]

theorem Rests.closed (rests : d.Rests) : (d.slot = none → d.pending.kinds = []) ∧
    (d.holding = none → d.slot.toList ++ d.pending.kinds = []) := by
  have behind (free : d.slot = none) : d.pending.kinds = [] := by
    rw [rests.filled free, Mask.kinds_empty]
  refine ⟨behind, fun free => ?_⟩
  simp [rests.taken free, behind (rests.taken free)]

theorem Rests.fate_eq (rests : d.Rests) : d.fate s around =
    ⟨d.past, d.handled, d.holding, d.slot.toList ++ d.pending.kinds⟩ := by
  unfold fate
  split
  next free =>
    have nothing := rests.closed.2 free
    rw [rests.line_eq, nothing, free]
    rfl
  next k holding => simp [rests.asleep, rests.line_eq, holding]

theorem Rests.unique (rests : d.Rests) (also : e.Rests)
    (same : d.fate s around = e.fate s around) : d = e := by
  rw [rests.fate_eq, also.fate_eq, Fate.mk.injEq] at same
  obtain ⟨past, handled, holding, line⟩ := same
  obtain ⟨slot, kinds⟩ := line_inj rests.closed.1 also.closed.1 line
  have pending := Mask.kinds_inj kinds
  have word := rests.heard.trans also.heard.symm
  have woken := rests.asleep.trans also.asleep.symm
  cases d
  cases e
  simp_all

end Desk

end Egress.Event
