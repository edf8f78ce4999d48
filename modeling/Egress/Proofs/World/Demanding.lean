import Mathlib.Algebra.Order.Floor.Div
import Egress.Proofs.World.Admitting

set_option autoImplicit false

namespace Egress

open Simulation

namespace Tunnel.Ledger

variable {cap : Nat} {l next : Ledger}

theorem acquire_sessions (p : Pool) (cap : Nat) (first : Bool) :
    (p.acquire cap first).1.sessions ≤ p.sessions ∨
      (p.acquire cap first).1.sessions = p.sessions + 1 ∧
        p.sessions * cap < (p.acquire cap first).1.planned := by
  rcases p.acquire_cases cap first with
    ⟨s, -, -, result⟩ | ⟨-, short, result⟩ | ⟨-, -, result⟩ <;> rw [result]
  · exact .inl (Nat.le_refl _)
  · exact .inr ⟨rfl, short⟩
  · exact .inl (Nat.le_refl _)

theorem Step.sessions (step : Step cap l next) :
    next.pool.sessions ≤ l.pool.sessions ∨
      next.pool.sessions = l.pool.sessions + 1 ∧ l.pool.sessions * cap < next.pool.planned := by
  cases step with
  | enter p => exact acquire_sessions p cap true
  | retry p => exact acquire_sessions p cap false
  | fail | remove => exact .inl (Nat.sub_le _ 1)
  | withdraw | insert | release => exact .inl (Nat.le_refl _)

theorem Step.demands (positive : 1 ≤ cap) (before : Steps cap .new l) (step : Step cap l next) :
    next.pool.demands = l.pool.demands ++ [next.pool.planned] := by
  obtain ⟨o, performed, -⟩ := step.performs (Steps.balanced positive before balanced_empty)
  rw [performed]
  exact Pool.demands_perform _ _ (Steps.accountable positive before).replays

-- When the last session was asked for, the others could not have carried what was planned.
theorem Steps.warranted (positive : 1 ≤ cap) (steps : Steps cap .new l) :
    l.pool.sessions = 0 ∨ ∃ n ∈ l.pool.demands, (l.pool.sessions - 1) * cap < n := by
  induction steps with
  | refl => exact .inl rfl
  | @tail l next before step ih =>
    have demands := step.demands positive before
    rcases step.sessions with fewer | ⟨one, short⟩
    · rcases ih with none | ⟨n, member, others⟩
      · exact .inl (by omega)
      · have less : (next.pool.sessions - 1) * cap ≤ (l.pool.sessions - 1) * cap :=
          Nat.mul_le_mul_right cap (by omega)
        exact .inr ⟨n, by simp [demands, member], by omega⟩
    · refine .inr ⟨next.pool.planned, by simp [demands], ?_⟩
      rw [one, Nat.add_sub_cancel]
      exact short

theorem Steps.bound {most : Nat} (positive : 1 ≤ cap) (steps : Steps cap .new l)
    (top : ∀ n ∈ l.pool.demands, n ≤ most) : l.pool.sessions ≤ most ⌈/⌉ cap := by
  rw [Nat.ceilDiv_eq_add_pred_div, Nat.le_div_iff_mul_le positive]
  rcases steps.warranted positive with none | ⟨n, member, others⟩
  · simp [none]
  · have split : l.pool.sessions * cap ≤ (l.pool.sessions - 1) * cap + cap := by
      rw [← Nat.succ_mul]
      exact Nat.mul_le_mul_right cap (by omega)
    have within := top n member
    omega

end Tunnel.Ledger

open Tunnel

namespace World

end World

namespace Scenario.Setup

variable {s : Setup} {w : World} {g most : Nat}

end Scenario.Setup

end Egress
