import Egress.Event.Kind

set_option autoImplicit false

namespace Egress.Event

structure Mask where
  bits : BitVec 8
  deriving DecidableEq, Repr

namespace Mask

def empty : Mask := ⟨0⟩

def full : Mask := ⟨255⟩

def single (k : Kind) : Mask := ⟨BitVec.twoPow 8 k.index⟩

def contains (m : Mask) (k : Kind) : Bool := m.bits.getLsbD k.index

def union (a b : Mask) : Mask := ⟨a.bits ||| b.bits⟩

def inter (a b : Mask) : Mask := ⟨a.bits &&& b.bits⟩

def erase (m : Mask) (k : Kind) : Mask := ⟨m.bits &&& ~~~(single k).bits⟩

def isEmpty (m : Mask) : Bool := m.bits == 0

def isFull (m : Mask) : Bool := m.bits == 255

def kinds (m : Mask) : List Kind := Kind.all.filter m.contains

def lowest (m : Mask) : Option Kind := Kind.all.find? m.contains

def ofKinds (ks : List Kind) : Mask :=
  if ks.isEmpty then full else ks.foldl (fun m k => m.union (single k)) empty

@[simp]
theorem contains_empty (k : Kind) : empty.contains k = false := by
  cases k <;> decide

@[simp]
theorem contains_full (k : Kind) : full.contains k = true := by
  cases k <;> decide

@[simp]
theorem contains_single (k l : Kind) : (single k).contains l = decide (k = l) := by
  cases k <;> cases l <;> decide

@[simp]
theorem contains_union (a b : Mask) (k : Kind) :
    (a.union b).contains k = (a.contains k || b.contains k) := by
  simp [contains, union]

@[simp]
theorem contains_inter (a b : Mask) (k : Kind) :
    (a.inter b).contains k = (a.contains k && b.contains k) := by
  simp [contains, inter]

@[simp]
theorem contains_erase (m : Mask) (k l : Kind) :
    (m.erase k).contains l = (m.contains l && !decide (k = l)) := by
  have h := contains_single k l
  simp only [contains, BitVec.getLsbD_eq_getElem l.index_lt] at h
  simp [contains, erase, l.index_lt, h]

theorem isEmpty_iff {m : Mask} : m.isEmpty ↔ ∀ k, m.contains k = false := by
  constructor
  · intro none k
    have none : m.bits = 0 := by simpa [isEmpty] using none
    simp [contains, none]
  · intro none
    have none : m.bits = 0 := BitVec.eq_of_getLsbD_eq fun i inside => by
      obtain ⟨k, rfl⟩ := Kind.exists_index inside
      exact (none k).trans (BitVec.getLsbD_zero).symm
    simp [isEmpty, none]

theorem contains_of_lowest {m : Mask} {k : Kind} (lowest : m.lowest = some k) :
    m.contains k = true := List.find?_some lowest

theorem lowest_of_nonempty {m : Mask} (nonempty : m.isEmpty = false) :
    ∃ k, m.lowest = some k := by
  cases lowest : m.lowest with
  | some k => exact ⟨k, rfl⟩
  | none =>
    have none := isEmpty_iff.mpr fun k => by simpa using List.find?_eq_none.mp lowest k k.mem_all
    exact absurd (none.symm.trans nonempty) Bool.noConfusion

end Mask

end Egress.Event
