import Mathlib.Data.List.Infix
import Mathlib.Data.List.Nodup
import Egress.Tunnel.Pool

set_option autoImplicit false

namespace Egress.Tunnel.Pool

variable {p : Pool} {cap : Nat}

theorem lighter_isSome (best : Option Slot) (s : Slot) : (lighter best s).isSome := by
  cases best with
  | none => rfl
  | some b => simp only [lighter]; split <;> rfl

theorem lighter_foldl_mem (slots : List Slot) (best : Option Slot) (s : Slot)
    (found : slots.foldl lighter best = some s) : s ∈ slots ∨ best = some s := by
  induction slots generalizing best with
  | nil => exact .inr found
  | cons t rest ih =>
    rcases ih _ found with member | carried
    · exact .inl (List.mem_cons_of_mem t member)
    · cases best with
      | none => exact .inl (by simp_all [lighter])
      | some b =>
        simp only [lighter] at carried
        split at carried
        · exact .inl (by simp_all)
        · exact .inr carried

theorem lighter_foldl_eq_none (slots : List Slot) (best : Option Slot) :
    slots.foldl lighter best = none ↔ slots = [] ∧ best = none := by
  induction slots generalizing best with
  | nil => simp
  | cons t rest ih =>
    have some := Option.isSome_iff_ne_none.mp (lighter_isSome best t)
    simp [List.foldl_cons, ih, some]

theorem spare_mem {s : Slot} (found : p.spare cap = some s) : s ∈ p.slots ∧ s.refs < cap := by
  rcases lighter_foldl_mem _ _ _ found with member | none
  · simpa using member
  · cases none

theorem spare_eq_none : p.spare cap = none ↔ ∀ s ∈ p.slots, cap ≤ s.refs := by
  simp [spare, lighter_foldl_eq_none, List.filter_eq_nil_iff]

@[simp]
def asked (p : Pool) (cap : Nat) (first : Bool) : Pool :=
  { p with planned := p.planned + first.toNat }.note (.ask cap first)

theorem acquire_eq (p : Pool) (cap : Nat) (first : Bool) :
    p.acquire cap first =
      match p.spare cap with
      | some s =>
        ((p.asked cap first).updateSlot s.id fun t => { t with refs := t.refs + 1 },
         .ready { slot := s.id, session := s.session })
      | none =>
        if p.sessions * cap < p.planned + first.toNat then
          ({ p.asked cap first with sessions := p.sessions + 1 }, .create)
        else ({ p.asked cap first with tickets := p.tickets + 1 }, .wait p.tickets) := by
  have planned : (if first then pure (p.planned + 1) else pure p.planned : Id Nat) =
      pure (p.planned + first.toNat) := by
    cases first <;> rfl
  have same : ({ p with planned := p.planned + first.toNat }.note (.ask cap first)).spare cap =
      p.spare cap := rfl
  unfold acquire acquireIn
  rw [planned, pure_bind]
  dsimp only
  rw [same]
  cases p.spare cap with
  | some s =>
    have each (t : Slot) :
        (if t.id = s.id then return { t with refs := ← pure (t.refs + 1) } else pure t : Id Slot).run =
          if t.id = s.id then { t with refs := t.refs + 1 } else t := by
      split <;> rfl
    simp only [Id.run_bind, Id.run_pure, List.idRun_mapM, each]
    rfl
  | none =>
    by_cases short : p.sessions * cap < p.planned + first.toNat <;> simp [note, asked, short]

theorem acquire_cases (p : Pool) (cap : Nat) (first : Bool) :
    (∃ s ∈ p.slots, s.refs < cap ∧
      p.acquire cap first =
        ((p.asked cap first).updateSlot s.id fun t => { t with refs := t.refs + 1 },
         .ready { slot := s.id, session := s.session })) ∨
    (p.spare cap = none ∧ p.sessions * cap < p.planned + first.toNat ∧
      p.acquire cap first = ({ p.asked cap first with sessions := p.sessions + 1 }, .create)) ∨
    (p.spare cap = none ∧ p.planned + first.toNat ≤ p.sessions * cap ∧
      p.acquire cap first =
        ({ p.asked cap first with tickets := p.tickets + 1 }, .wait p.tickets)) := by
  rw [acquire_eq]
  cases found : p.spare cap with
  | some s =>
    have member := spare_mem found
    exact .inl ⟨s, member.1, member.2, rfl⟩
  | none =>
    refine .inr ?_
    by_cases short : p.sessions * cap < p.planned + first.toNat
    · exact .inl ⟨rfl, short, by simp [short]⟩
    · exact .inr ⟨rfl, Nat.le_of_not_lt short, by simp [short]⟩

@[simp]
theorem updateSlot_slots (id : Nat) (f : Slot → Slot) :
    (p.updateSlot id f).slots = p.slots.map fun s => if s.id = id then f s else s := rfl

@[simp]
theorem updateSlot_sessions (id : Nat) (f : Slot → Slot) :
    (p.updateSlot id f).sessions = p.sessions := rfl

@[simp]
theorem updateSlot_planned (id : Nat) (f : Slot → Slot) :
    (p.updateSlot id f).planned = p.planned := rfl

theorem updateSlot_ids (id : Nat) (f : Slot → Slot) (keeps : ∀ s, (f s).id = s.id) :
    (p.updateSlot id f).slots.map (·.id) = p.slots.map (·.id) := by
  simp only [updateSlot_slots, List.map_map]
  apply List.map_congr_left
  intro s _
  simp only [Function.comp]
  split <;> simp [keeps]

def perform (p : Pool) : Operation → Pool
  | .ask cap first => (p.acquire cap first).1
  | .insert session => (p.insert session).1
  | .creationFailed => p.creationFailed
  | .withdraw => p.withdraw
  | .release slot => p.release slot
  | .remove slot => (p.remove slot).1

def replay (operations : List Operation) : Pool := operations.foldl perform {}

theorem perform_history (o : Operation) : (p.perform o).history = p.history ++ [o] := by
  cases o with
  | ask cap first =>
    rcases p.acquire_cases cap first with
      ⟨s, -, -, result⟩ | ⟨-, -, result⟩ | ⟨-, -, result⟩ <;> rw [perform, result] <;> rfl
  | insert | creationFailed | withdraw | release | remove => rfl

theorem replay_concat (before : List Operation) (o : Operation) :
    replay (before ++ [o]) = (replay before).perform o := by
  rw [replay, List.foldl_append]
  rfl

-- What the operation takes away is there to be taken.
def Covers (p : Pool) : Operation → Prop
  | .ask _ _ | .insert _ => True
  | .creationFailed => 0 < p.sessions ∧ 0 < p.planned
  | .withdraw => 0 < p.planned
  | .release slot => 0 < p.planned ∧ ∀ s ∈ p.slots, s.id = slot → 0 < s.refs
  | .remove _ => 0 < p.sessions

-- The pool is what its operations have made of it, and each took only what was there.
structure Accountable (p : Pool) : Prop where
  replays : p = replay p.history
  covered : ∀ before o after, p.history = before ++ o :: after → (replay before).Covers o

theorem accountable_empty : Accountable {} := ⟨rfl, fun before o after none => by simp at none⟩

theorem Accountable.perform {o : Operation} (accountable : p.Accountable) (covers : p.Covers o) :
    (p.perform o).Accountable := by
  constructor
  · rw [perform_history, replay_concat, ← accountable.replays]
  · intro before other after history
    rw [perform_history] at history
    rcases List.eq_nil_or_concat after with rfl | ⟨between, last, rfl⟩
    · obtain ⟨rfl, same⟩ := List.append_inj' history rfl
      obtain ⟨rfl⟩ := same
      exact accountable.replays ▸ covers
    · have split : p.history ++ [o] = (before ++ other :: between) ++ [last] := by simp [history]
      exact accountable.covered before other between (List.append_inj' split rfl).1

-- What was planned after each of the operations, and before the first.
def demands (p : Pool) : List Nat := p.history.inits.map fun before => (replay before).planned

theorem demands_perform (p : Pool) (o : Operation) (replays : p = replay p.history) :
    (p.perform o).demands = p.demands ++ [(p.perform o).planned] := by
  simp [demands, perform_history, List.inits_append, replay_concat, ← replays]

end Egress.Tunnel.Pool
