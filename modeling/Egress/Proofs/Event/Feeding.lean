import Mathlib.Data.List.Count
import Egress.Proofs.Event.Exchange

set_option autoImplicit false

namespace Egress.Event

open Happening

namespace Happening

variable {id : Nat} {k : Kind} {e : Happening} {history : List Happening}

theorem since_cons (later : e.isComingOf id = false) :
    since id (e :: history) = e :: since id history := by
  simp [since, later]

theorem since_coming {mask word : Mask} : since id (.subscribed id mask word :: history) = [] := by
  simp [since, isComingOf]

theorem unanswered_cons (later : e.isComingOf id = false) (other : e ≠ .received id k) :
    unanswered id k (e :: history) = e :: unanswered id k history := by
  simp [unanswered, since_cons later, other]

theorem unanswered_received : unanswered id k (.received id k :: history) = [] := by
  simp [unanswered, since_cons (e := .received id k) rfl]

end Happening

namespace Subscription

-- What has just been handed over stays pending until it is cleared, but it comes only once.
def waitsFor (s : Subscription) (place : Place) (k : Kind) : Bool :=
  s.pending.contains k && decide (place ≠ .handed s.id k)

def load (s : Subscription) (word : Mask) (place : Place) (k : Kind) : Nat :=
  (word.contains k).toNat + (s.waitsFor place k).toNat + (s.slot == some k).toNat

theorem load_away {s : Subscription} {word : Mask} {place : Place} {k : Kind}
    (away : place ≠ .handed s.id k) : s.load word place k =
      (word.contains k).toNat + (s.pending.contains k).toNat + (s.slot == some k).toNat := by
  simp [load, waitsFor, away]

-- The subscription is served as the history asks: what is owed is on its way, and what is on its
-- way, with what was received, has been raised.
structure Fed (s : Subscription) (word : Mask) (place : Place) (history : List Happening) :
    Prop where
  asked : ∃ start, .subscribed s.id s.mask start ∈ history
  pends : ∀ k, s.pending.contains k → s.mask.contains k
  fills : ∀ k, s.slot = some k → s.mask.contains k
  arms : place.isArmed → ∀ k, (s.id, k) ∈ place.arms ↔ s.pending.lowest = some k
  covered : s.held → ∀ k, s.mask.contains k → .raised k ∈ unanswered s.id k history →
    0 < s.load word place k
  counted : ∀ mask start k, .subscribed s.id mask start ∈ history →
    history.count (.received s.id k) + s.load word place k ≤
      (since s.id history).count (.raised k) + (start.contains k).toNat

variable {s t : Subscription} {word other : Mask} {place later : Place} {history : List Happening}
  {k : Kind}

theorem Fed.change (fed : s.Fed word place history) (id : t.id = s.id) (mask : t.mask = s.mask)
    (held : t.held → s.held) (pends : ∀ k, t.pending.contains k → s.mask.contains k)
    (fills : ∀ k, t.slot = some k → s.mask.contains k)
    (arms : later.isArmed → ∀ k, (t.id, k) ∈ later.arms ↔ t.pending.lowest = some k)
    (kept : t.held → ∀ k, s.mask.contains k → 0 < s.load word place k → 0 < t.load other later k)
    (bound : ∀ k, t.load other later k ≤ s.load word place k) : t.Fed other later history where
  asked := by rw [id, mask]; exact fed.asked
  pends k inside := mask ▸ pends k inside
  fills k filled := mask ▸ fills k filled
  arms := arms
  covered holds k inside raised := by
    rw [mask] at inside
    rw [id] at raised
    exact kept holds k inside (fed.covered (held holds) k inside raised)
  counted m start k coming := by
    rw [id] at coming ⊢
    exact Nat.le_trans (Nat.add_le_add_left (bound k) _) (fed.counted m start k coming)

theorem Fed.beside {e : Happening} (fed : s.Fed word place history) (quiet : ∀ k, e ≠ .raised k)
    (later : e.isComingOf s.id = false) (other : ∀ k, e ≠ .received s.id k) :
    s.Fed word place (e :: history) := by
  refine ⟨?_, fed.pends, fed.fills, fed.arms, fun held k inside raised => ?_,
    fun mask start k came => ?_⟩
  · obtain ⟨start, came⟩ := fed.asked
    exact ⟨start, List.mem_cons_of_mem _ came⟩
  · rw [unanswered_cons later (other k)] at raised
    exact fed.covered held k inside ((List.mem_cons.mp raised).resolve_left (quiet k).symm)
  · have came : .subscribed s.id mask start ∈ history := by
      refine (List.mem_cons.mp came).resolve_left fun same => ?_
      rw [← same] at later
      simp [isComingOf] at later
    rw [since_cons later, List.count_cons_of_ne (quiet k), List.count_cons_of_ne (other k)]
    exact fed.counted mask start k came

theorem load_mark (s : Subscription) (word : Mask) (place : Place) (k l : Kind) :
    s.load word place l ≤ s.load (word.union (.single k)) place l ∧
      s.load (word.union (.single k)) place l ≤ s.load word place l + (decide (k = l)).toNat ∧
      0 < s.load (word.union (.single k)) place k := by
  simp only [load, Mask.contains_union, Mask.contains_single]
  refine ⟨?_, ?_, ?_⟩
  · cases word.contains l <;> simp
  · cases word.contains l <;> simp; omega
  · rw [decide_true, Bool.or_true, Bool.toNat_true, Nat.add_assoc]
    exact Nat.lt_add_right _ Nat.zero_lt_one

theorem Fed.mark (fed : s.Fed word place history) (k : Kind) :
    s.Fed (word.union (.single k)) place (.raised k :: history) := by
  refine ⟨?_, fed.pends, fed.fills, fed.arms, fun held l inside raised => ?_,
    fun mask start l came => ?_⟩
  · obtain ⟨start, came⟩ := fed.asked
    exact ⟨start, List.mem_cons_of_mem _ came⟩
  · obtain ⟨more, -, now⟩ := s.load_mark word place k l
    rw [unanswered_cons rfl Happening.noConfusion] at raised
    rcases List.mem_cons.mp raised with same | before
    · cases same
      exact now
    · exact Nat.lt_of_lt_of_le (fed.covered held l inside before) more
  · have came := (List.mem_cons.mp came).resolve_left Happening.noConfusion
    have before := fed.counted mask start l came
    obtain ⟨-, less, -⟩ := s.load_mark word place k l
    rw [since_cons rfl, List.count_cons_of_ne Happening.noConfusion, List.count_cons]
    have counts : (if Happening.raised k == Happening.raised l then 1 else 0) =
        (decide (k = l)).toNat := by
      by_cases same : k = l <;> simp [same]
    omega

theorem Fed.receive (fed : s.Fed word place history) (filled : s.slot = some k) :
    { s with slot := none }.Fed word place (.received s.id k :: history) := by
  have loses (l : Kind) : { s with slot := none }.load word place l + (decide (k = l)).toNat =
      s.load word place l := by
    by_cases same : k = l <;> simp [load, waitsFor, filled, same]
  refine ⟨?_, fed.pends, (fun _ taken => nomatch taken), fed.arms,
    fun held l inside raised => ?_, fun mask start l came => ?_⟩
  · obtain ⟨start, came⟩ := fed.asked
    exact ⟨start, List.mem_cons_of_mem _ came⟩
  · by_cases same : k = l
    · subst same
      rw [unanswered_received] at raised
      cases raised
    · rw [unanswered_cons rfl (by simp [same])] at raised
      have before := (List.mem_cons.mp raised).resolve_left Happening.noConfusion
      have covered := fed.covered held l inside before
      have loses := loses l
      simp only [same, decide_false, Bool.toNat_false] at loses
      omega
  · have came := (List.mem_cons.mp came).resolve_left Happening.noConfusion
    have before := fed.counted mask start l came
    have loses := loses l
    change (Happening.received s.id k :: history).count (.received s.id l) + _ ≤
      (since s.id _).count _ + _
    rw [since_cons rfl, List.count_cons, List.count_cons_of_ne Happening.noConfusion]
    have counts : (if Happening.received s.id k == .received s.id l then 1 else 0) =
        (decide (k = l)).toNat := by
      by_cases same : k = l <;> simp [same]
    omega

theorem Fed.first {id : Nat} (mask : Mask) (older : ∀ a ∈ place.arms, a.1 < id)
    (unknown : ∀ e ∈ history, e.subscription? ≠ some id) :
    { id, mask : Subscription }.Fed word place (.subscribed id mask word :: history) := by
  have nothing : Mask.empty.lowest = none := by decide
  refine ⟨⟨word, List.mem_cons_self⟩, fun k inside => ?_, (fun _ taken => nomatch taken),
    fun _ k => ?_, fun _ k _ raised => ?_, fun m start k came => ?_⟩
  · simp at inside
  · simpa [nothing] using fun arm => absurd (older _ arm) (Nat.lt_irrefl _)
  · simp [unanswered, since_coming] at raised
  · rcases List.mem_cons.mp came with now | before
    · cases now
      have none : history.count (.received id k) = 0 :=
        List.count_eq_zero_of_not_mem fun member => unknown _ member rfl
      simp [since_coming, none, load, waitsFor]
    · exact absurd rfl (unknown _ before)

theorem Fed.leave (fed : s.Fed word place history) :
    { s with held := false, slot := none }.Fed word place (.left s.id :: history) := by
  refine (fed.change (t := { s with held := false, slot := none }) rfl rfl
    (fun held => nomatch held) fed.pends (fun _ taken => nomatch taken) fed.arms
    (fun held => nomatch held) fun k => ?_).beside (fun _ => Happening.noConfusion) rfl
    fun _ => Happening.noConfusion
  simp [load, waitsFor]

theorem Fed.absorb (fed : s.Fed word place history) (looks : place = .looking ∨ place = .woken)
    (onward : later = .looking ∨ later = .arming) :
    { s with pending := s.pending.union (word.inter s.mask) }.Fed .empty later history := by
  have was (k : Kind) : place ≠ .handed s.id k := by rcases looks with rfl | rfl <;> exact nofun
  have goes (k : Kind) : later ≠ .handed s.id k := by rcases onward with rfl | rfl <;> exact nofun
  have after (k : Kind) :
      { s with pending := s.pending.union (word.inter s.mask) }.load .empty later k =
        (s.pending.contains k || word.contains k && s.mask.contains k).toNat +
          (s.slot == some k).toNat := by
    rw [load_away (by exact goes k)]
    simp
  refine fed.change rfl rfl (fun held => held) (fun k inside => ?_) fed.fills (fun armed => ?_)
    (fun _ k inside before => ?_) fun k => ?_
  · simp only [Mask.contains_union, Mask.contains_inter, Bool.or_eq_true,
      Bool.and_eq_true] at inside
    exact inside.elim (fed.pends k) fun new => new.2
  · rcases onward with rfl | rfl <;> cases armed
  · rw [load_away (was k)] at before
    rw [after, inside]
    cases raised : word.contains k <;> simp [raised] at before ⊢ <;> omega
  · rw [load_away (was k), after]
    cases word.contains k <;> cases s.pending.contains k <;> simp [Bool.toNat_le]

theorem Fed.stand (fed : s.Fed word place history) (was : ∀ k, place ≠ .handed s.id k)
    (goes : ∀ k, later ≠ .handed s.id k)
    (arms : later.isArmed → ∀ k, (s.id, k) ∈ later.arms ↔ s.pending.lowest = some k) :
    s.Fed word later history := by
  have same (k : Kind) : s.load word later k = s.load word place k := by
    rw [load_away (was k), load_away (goes k)]
  exact fed.change rfl rfl (fun held => held) fed.pends fed.fills arms
    (fun _ k _ before => (same k).symm ▸ before) fun k => Nat.le_of_eq (same k)

theorem Fed.hand (fed : s.Fed word place history) (arm : (s.id, k) ∈ place.arms)
    (room : s.slot = none) :
    { s with slot := some k }.Fed word (.handed s.id k) history := by
  have armed : place.isArmed := by
    cases place with
    | armed => rfl
    | looking | arming | woken | handed => cases arm
  have was (l : Kind) : place ≠ .handed s.id l := by
    rintro rfl
    cases armed
  have pending := Mask.contains_of_lowest ((fed.arms armed k).mp arm)
  have same (l : Kind) : { s with slot := some k }.load word (.handed s.id k) l =
      s.load word place l := by
    by_cases hit : k = l
    · subst hit
      simp [load, waitsFor, was, room, pending]
    · simp [load, waitsFor, was, room, hit]
  refine fed.change rfl rfl (fun held => held) fed.pends (fun l filled => ?_)
    (fun armed => nomatch armed) (fun _ l _ before => (same l).symm ▸ before)
    fun l => Nat.le_of_eq (same l)
  cases filled
  exact fed.pends k pending

theorem Fed.clear (fed : s.Fed word (.handed s.id k) history) :
    { s with pending := s.pending.erase k }.Fed word .looking history := by
  have same (l : Kind) : { s with pending := s.pending.erase k }.load word .looking l =
      s.load word (.handed s.id k) l := by
    by_cases hit : k = l <;> simp [load, waitsFor, hit]
  refine fed.change rfl rfl (fun held => held) (fun l inside => ?_) fed.fills
    (fun armed => nomatch armed) (fun _ l _ before => (same l).symm ▸ before)
    fun l => Nat.le_of_eq (same l)
  rw [Mask.contains_erase, Bool.and_eq_true] at inside
  exact fed.pends l inside.1

end Subscription

end Egress.Event
