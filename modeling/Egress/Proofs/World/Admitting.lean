import Egress.Proofs.World.Accounting

set_option autoImplicit false

namespace Egress

namespace Tunnel

def wordSize : Nat := 2 ^ 64

def plannedLimit : Nat := 2 ^ 63

def wrapped (n : Nat) : Option Nat := some (UInt64.ofNat n).toNat

def checked (n : Nat) : Option Nat := if n < wordSize then some n else none

-- A number that fits is kept as it is.
def Exact (word : Nat → Option Nat) : Prop := ∀ n, n < wordSize → word n = some n

theorem exact_wrapped : Exact wrapped := fun _ fits =>
  congrArg some (UInt64.toNat_ofNat_of_lt' fits)

theorem exact_checked : Exact checked := fun _ fits => if_pos fits

namespace Pool

-- All sessions but one carry less than the limit. When the last of them was asked for, the others
-- could not carry what was planned.
def Fits (cap : Nat) (p : Pool) : Prop := p.sessions = 0 ∨ (p.sessions - 1) * cap < plannedLimit

variable {p q : Pool} {cap : Nat}

theorem Fits.fewer (fits : p.Fits cap) (fewer : q.sessions ≤ p.sessions) : q.Fits cap := by
  rcases fits with none | others
  · exact .inl (by omega)
  · have less : (q.sessions - 1) * cap ≤ (p.sessions - 1) * cap :=
      Nat.mul_le_mul_right cap (by omega)
    exact .inr (by omega)

theorem Fits.acquire {first : Bool} (fits : p.Fits cap)
    (below : (p.acquire cap first).1.planned < plannedLimit) : (p.acquire cap first).1.Fits cap := by
  rcases p.acquire_cases cap first with
    ⟨s, -, -, result⟩ | ⟨-, short, result⟩ | ⟨-, -, result⟩ <;> rw [result] at below ⊢
  case inr.inl =>
    simp only at below
    exact .inr (by simpa using Nat.lt_trans short below)
  all_goals exact fits

theorem Fits.product (fits : p.Fits cap) (word : cap < wordSize) : p.sessions * cap < wordSize := by
  rcases fits with none | others
  · simp [none, wordSize]
  · rcases Nat.lt_or_ge 1 p.sessions with more | single
    · have cap_le : cap ≤ (p.sessions - 1) * cap := Nat.le_mul_of_pos_left cap (by omega)
      have split : p.sessions * cap = (p.sessions - 1) * cap + cap := by
        rw [← Nat.succ_mul]
        congr 1
        omega
      unfold plannedLimit wordSize at *
      omega
    · have at_most : p.sessions * cap ≤ 1 * cap := Nat.mul_le_mul_right cap single
      omega

theorem mapM_eq_some {f : Slot → Option Slot} {g : Slot → Slot} {slots : List Slot}
    (same : ∀ s ∈ slots, f s = some (g s)) : slots.mapM f = some (slots.map g) := by
  induction slots with
  | nil => rfl
  | cons s rest ih =>
    rw [List.mapM_cons, same s List.mem_cons_self, ih fun t member => same t (.tail s member)]
    rfl

theorem acquireIn_eq {word : Nat → Option Nat} (exact : Exact word) (small : cap < wordSize)
    (positive : 1 ≤ cap) (fits : p.Fits cap) (below : p.planned < plannedLimit)
    (distinct : (p.slots.map (·.id)).Nodup) (first : Bool) :
    p.acquireIn word cap first = some (p.acquire cap first) := by
  have one : first.toNat ≤ 1 := Bool.toNat_le first
  have room : p.planned + first.toNat < wordSize := by
    unfold plannedLimit wordSize at *
    omega
  have asked : (if first then word (p.planned + 1) else pure p.planned) =
      some (p.planned + first.toNat) := by
    cases first with
    | false => rfl
    | true => exact exact _ room
  have same : ({ p with planned := p.planned + first.toNat }.note (.ask cap first)).spare cap =
      p.spare cap := rfl
  unfold acquireIn
  rw [asked, Option.bind_eq_bind, Option.bind_some, acquire_eq]
  dsimp only
  rw [same]
  cases found : p.spare cap with
  | some s =>
    obtain ⟨member, free⟩ := spare_mem found
    have leased (t : Slot) (there : t ∈ p.slots) :
        (if t.id = s.id then return { t with refs := ← word (t.refs + 1) } else pure t) =
          some (if t.id = s.id then { t with refs := t.refs + 1 } else t) := by
      by_cases hit : t.id = s.id
      · obtain rfl := List.inj_on_of_nodup_map distinct there member hit
        simp [exact (t.refs + 1) (by omega)]
      · simp [hit]
    show (p.slots.mapM _ >>= _) = _
    rw [mapM_eq_some leased]
    rfl
  | none =>
    have product := exact _ (fits.product small)
    by_cases short : p.sessions * cap < p.planned + first.toNat
    · have carried : p.sessions ≤ p.sessions * cap := Nat.le_mul_of_pos_right _ positive
      have more := exact (p.sessions + 1) (by omega)
      simp [product, short, more]
    · simp [product, short]

end Pool

namespace Ledger

-- A run of a generation, in which fewer streams are planned than the limit at any time.
abbrev Below (cap : Nat) : Ledger → Ledger → Prop :=
  Relation.ReflTransGen fun l next => Step cap l next ∧ next.pool.planned < plannedLimit

variable {cap : Nat} {l next : Ledger}

theorem Step.fits (step : Step cap l next) (below : next.pool.planned < plannedLimit)
    (fits : l.pool.Fits cap) : next.pool.Fits cap := by
  cases step with
  | enter => exact fits.acquire below
  | retry => exact fits.acquire below
  | fail | remove => exact fits.fewer (Nat.sub_le _ 1)
  | withdraw | insert | release => exact fits.fewer (Nat.le_refl _)

theorem Below.steps (run : Below cap l next) : Steps cap l next :=
  run.lift id fun _ _ step => step.1

theorem Below.fits (run : Below cap .new l) :
    l.pool.planned < plannedLimit ∧ l.pool.Fits cap := by
  induction run with
  | refl => exact ⟨by decide, .inl rfl⟩
  | tail _ step ih => exact ⟨step.2, step.1.fits step.2 ih.2⟩

theorem Steps.below (positive : 1 ≤ cap) (steps : Steps cap .new l)
    (low : ∀ n ∈ l.pool.demands, n < plannedLimit) : Below cap .new l := by
  induction steps with
  | refl => exact .refl
  | @tail l next before step ih =>
    have balanced := Steps.balanced positive before balanced_empty
    obtain ⟨o, performed, -⟩ := step.performs balanced
    rw [performed, Pool.demands_perform _ _ (Steps.accountable positive before).replays,
      ← performed] at low
    exact (ih fun n member => low n (by simp [member])).tail ⟨step, low _ (by simp)⟩

end Ledger

end Tunnel

open Tunnel

namespace Scenario.Setup

-- No number that an admission computes is too large for a word, whatever the cap: with or without
-- checks a machine admits as the numbers themselves say. The runs meant here are those of the
-- generations of a process, as far as what is planned there stays below the limit.
theorem admission_exact {settings : Settings}
    (fits : settings.maxStreamsPerSession < wordSize) :
    (∀ l, Ledger.Below settings.sessionCap .new l →
      l.pool.sessions * settings.sessionCap < wordSize ∧
        ∀ first, l.pool.acquireIn wrapped settings.sessionCap first =
            some (l.pool.acquire settings.sessionCap first) ∧
          l.pool.acquireIn checked settings.sessionCap first =
            some (l.pool.acquire settings.sessionCap first)) ∧
      ∀ (s : Setup) (w : World), s.settings = settings → s.Reaches Move.Driven w → ∀ g,
        Ledger.Steps settings.sessionCap .new (w.ledger g) ∧
          ((∀ n ∈ (w.pool g).demands, n < plannedLimit) →
            Ledger.Below settings.sessionCap .new (w.ledger g)) := by
  have positive := World.sessionCap_pos settings
  have cap : settings.sessionCap < wordSize := Nat.max_lt.mpr ⟨fits, by decide⟩
  refine ⟨fun l run => ?_, fun s w same reached g => ?_⟩
  · have ⟨below, others⟩ := Ledger.Below.fits run
    have balanced : Ledger.Balanced settings.sessionCap l.pool l.stakes l.watched :=
      Ledger.Steps.balanced positive (Ledger.Below.steps run) Ledger.balanced_empty
    have admits {word : Nat → Option Nat} (exact : Exact word) (first : Bool) :
        l.pool.acquireIn word settings.sessionCap first =
          some (l.pool.acquire settings.sessionCap first) :=
      Pool.acquireIn_eq exact cap positive others below balanced.distinct first
    exact ⟨others.product cap, fun first => ⟨admits exact_wrapped first, admits exact_checked first⟩⟩
  · have steps : Ledger.Steps settings.sessionCap .new (w.ledger g) := same ▸ reached.ledger g
    exact ⟨steps, steps.below positive⟩

def spacious : Setup := { small with settings := { maxStreamsPerSession := 2 ^ 64 - 1 } }

-- The one session ends under two streams, of which one is closed; then a further one is asked for.
def relieved : Pool :=
  let created := (({} : Pool).acquire spacious.settings.sessionCap true).1
  let shared := ((created.insert 0).1.acquire spacious.settings.sessionCap true).1
  (((shared.remove 1).1.release 1).acquire spacious.settings.sessionCap true).1

theorem admission_exact_relieved :
    spacious.settings.maxStreamsPerSession < wordSize ∧
      relieved.sessions * spacious.settings.sessionCap < wordSize ∧
      relieved.acquireIn checked spacious.settings.sessionCap true =
        some (relieved.acquire spacious.settings.sessionCap true) ∧
      Ledger.Below spacious.settings.sessionCap .new
        ((spacious.build.along refusing).ledger 1) := by
  have fits : spacious.settings.maxStreamsPerSession < wordSize := by decide
  have run : Ledger.Below spacious.settings.sessionCap .new
      ⟨relieved, .creating ::ₘ .leasing 1 ::ₘ 0, 0⟩ :=
    .tail (.tail (.tail (.tail (.tail (.tail .refl
      ⟨.enter _ _ _, by decide⟩)
      ⟨.insert _ 0 0 0, by decide⟩)
      ⟨.enter _ _ _, by decide⟩)
      ⟨.remove _ ⟨1, 0⟩ _ _, by decide⟩)
      ⟨.release _ 1 _ _, by decide⟩)
      ⟨.enter _ _ _, by decide⟩
  have reached : spacious.Reaches Move.Driven (spacious.build.along refusing) :=
    World.run_along (by decide +kernel)
  have ⟨runs, worlds⟩ := admission_exact fits
  have ⟨product, admits⟩ := runs _ run
  have low : ∀ n ∈ ((spacious.build.along refusing).pool 1).demands, n < plannedLimit := by
    decide +kernel
  exact ⟨fits, product, (admits true).2, (worlds spacious _ rfl reached 1).2 low⟩

end Scenario.Setup

end Egress
