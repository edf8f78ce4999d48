import Mathlib.Algebra.GroupWithZero.Nat
import Mathlib.Algebra.Order.BigOperators.Group.List
import Mathlib.Algebra.Order.Group.Nat
import Egress.Proofs.Event.Seating

set_option autoImplicit false

namespace Egress.Event

namespace Subscription

variable {s : Subscription} {word : Mask}

-- A kind goes from the pending ones into the slot, and out of it.
def toil (s : Subscription) (word : Mask) : Nat :=
  s.slot.toList.length +
    if s.listed then 2 * (s.pending.union (word.inter s.mask)).kinds.length else 0

@[simp]
theorem toil_hear (s : Subscription) (word : Mask) : (s.hear word).toil .empty = s.toil word := by
  unfold hear toil
  split
  · simp [Mask.union, Mask.inter, Mask.empty]
  · rfl

theorem toil_serve (ready : s.isReady) : s.serve.toil .empty < s.toil .empty := by
  simp only [isReady, Bool.and_eq_true, Bool.not_eq_true'] at ready
  obtain ⟨⟨listed, pending⟩, free⟩ := ready
  obtain ⟨k, lowest⟩ := Mask.lowest_of_nonempty pending
  have nothing (m : Mask) : m.union (Mask.inter .empty s.mask) = m := by
    simp [Mask.union, Mask.inter, Mask.empty]
  have kinds := congrArg List.length (Mask.kinds_of_lowest lowest)
  rw [List.length_cons] at kinds
  unfold toil serve
  cases held : s.held with
  | true =>
    have free : s.slot = none := by simpa [held] using free
    simp only [lowest, listed, free, nothing, kinds, if_true, Option.toList_some, Option.toList_none,
      List.length_singleton, List.length_nil]
    omega
  | false =>
    simp only [listed, nothing, kinds, if_true, Bool.false_eq_true, if_false]
    omega

end Subscription

namespace Bus

variable {b next : Bus} {s : Subscription} {id : Nat}

def load (b : Bus) : Nat := (b.subscriptions.map (·.toil b.raised)).sum

def toil (b : Bus) : Nat := (if b.stopped then 0 else 1 + b.wake.toNat) + b.load

theorem load_sweep (b : Bus) : b.sweep.load ≤ b.load :=
  (List.filter_sublist.map _).sum_le_sum fun _ _ => Nat.zero_le _

theorem load_absorb (b : Bus) : b.absorb.load = b.load := by
  unfold load
  rw [absorb_subscriptions, List.map_map]
  congr 2
  exact funext fun s => s.toil_hear b.raised

theorem load_forgetAll (b : Bus) : b.forgetAll.load ≤ b.load := by
  refine Nat.le_trans (load_sweep _) ?_
  unfold load
  rw [List.map_map]
  refine List.sum_le_sum fun s _ => ?_
  simp [Subscription.toil]

section Update

variable {f : Subscription → Subscription} (b : Bus) (id : Nat)
  (lessens : ∀ s ∈ b.subscriptions, s.id = id → (f s).toil b.raised ≤ s.toil b.raised)

include lessens

theorem toil_updated (s : Subscription) (member : s ∈ b.subscriptions) :
    (if s.id = id then f s else s).toil b.raised ≤ s.toil b.raised := by
  split
  next hit => exact lessens s member hit
  next => exact Nat.le_refl _

theorem load_update : (b.update id f).sweep.load ≤ b.load := by
  refine Nat.le_trans (load_sweep _) ?_
  unfold load update
  rw [List.map_map]
  exact List.sum_le_sum (b.toil_updated id lessens)

theorem load_update_lt {s : Subscription} (member : s ∈ b.subscriptions) (hit : s.id = id)
    (strictly : (f s).toil b.raised < s.toil b.raised) : (b.update id f).sweep.load < b.load := by
  refine Nat.lt_of_le_of_lt (load_sweep _) ?_
  unfold load update
  rw [List.map_map]
  refine List.sum_lt_sum _ _ (b.toil_updated id lessens) ⟨s, member, ?_⟩
  dsimp only [Function.comp]
  rwa [if_pos hit]

end Update

theorem Turn.toil (turn : b.Turn next) (sane : b.Sane) : next.toil < b.toil := by
  have absorbed := b.load_absorb
  cases turn with
  | wake running called =>
    change (if b.stopped then 0 else 1 + 0) + b.absorb.load < b.toil
    simp [Bus.toil, running, called, absorbed]
  | stop running uncalled =>
    have less := b.absorb.load_forgetAll
    change 0 + b.absorb.forgetAll.load < b.toil
    simp only [Bus.toil, running, Bool.false_eq_true, if_false]
    omega
  | @serve running uncalled _ s member ready =>
    have lessens (t : Subscription) (there : t ∈ b.absorb.subscriptions) (hit : t.id = s.id) :
        t.serve.toil .empty ≤ t.toil .empty := by
      obtain rfl := eq_of_key sane.absorb.numbers there member hit
      exact Nat.le_of_lt (Subscription.toil_serve ready)
    have less := load_update_lt b.absorb s.id lessens member rfl (Subscription.toil_serve ready)
    change _ + (b.absorb.update s.id Subscription.serve).sweep.load < b.toil
    exact Nat.add_lt_add_left (absorbed ▸ less) _

theorem toil_empty (b : Bus) (id : Nat) {f : Subscription → Subscription}
    (empties : ∀ s word, (f s).toil word + s.slot.toList.length = s.toil word) :
    (b.update id f).sweep.toil ≤ b.toil ∧
      ∀ k, b.slotOf id = some k → (b.update id f).sweep.toil < b.toil := by
  have less (s : Subscription) (_ : s ∈ b.subscriptions) (_ : s.id = id) :
      (f s).toil b.raised ≤ s.toil b.raised := by
    have same := empties s b.raised
    omega
  refine ⟨Nat.add_le_add_left (b.load_update id less) _, fun k slot => ?_⟩
  obtain ⟨s, found, filled⟩ := Option.bind_eq_some_iff.mp slot
  have member := List.mem_of_find?_eq_some found
  have number : s.id = id := by simpa using List.find?_some found
  have strictly := empties s b.raised
  rw [filled, Option.toList_some, List.length_singleton] at strictly
  exact Nat.add_lt_add_left (b.load_update_lt id less member number (by omega)) _

theorem toil_take (b : Bus) {k : Kind} (slot : b.slotOf id = some k) : (b.take id).toil < b.toil := by
  refine (toil_empty b id fun s word => ?_).2 k slot
  simp only [Subscription.toil, Option.toList_none, List.length_nil]
  omega

theorem toil_abandon (b : Bus) (id : Nat) : (b.abandon id).toil ≤ b.toil := by
  refine (toil_empty b id fun s word => ?_).1
  simp only [Subscription.toil, Option.toList_none, List.length_nil]
  omega

end Bus

namespace Worker

variable {x y : Worker} {b c : Bus} {around : Surroundings}

-- A call that has been woken is polled once more.
def toil (x : Worker) : Nat :=
  if x.ended then 0 else 1 + x.holding.toList.length + x.woken.toNat

theorem toil_polled (x : Worker) (around : Surroundings) (k : Kind) :
    (x.polled around k).toil ≤ 2 := by
  unfold Worker.toil
  split
  · omega
  · by_cases waits : x.subscriber.Waits x.past around k <;> simp [waits]

theorem Does.toil (does : x.Does b around y c) (running : x.ended = false) :
    2 * c.toil + y.toil < 2 * b.toil + x.toil := by
  have before : x.toil = 1 + x.holding.toList.length + x.woken.toNat := by
    simp [Worker.toil, running]
  cases does with
  | @resumes k hand woken =>
    have after := x.toil_polled around k
    simp only [hand, woken, Option.toList_some, List.length_singleton, Bool.toNat_true] at before
    omega
  | @takes k free slot =>
    have less := b.toil_take slot
    have after := (x.called k).toil_polled around k
    omega
  | @fails _ payload free slot =>
    have less := b.toil_take slot
    have fewer := (b.take x.subscription).toil_abandon x.subscription
    have none : Worker.toil { x with ended := true, failure := some payload } = 0 := rfl
    omega
  | leaves =>
    have fewer := b.toil_abandon x.subscription
    have none : Worker.toil { x with ended := true } = 0 := rfl
    omega

end Worker

end Egress.Event
