import Egress.Event.Bus
import Egress.Proofs.Connection.Filing

set_option autoImplicit false

namespace Egress.Event

theorem Mask.nonempty_of_contains {m : Mask} {k : Kind} (inside : m.contains k) :
    m.isEmpty = false := by
  by_contra empty
  have none : m.bits = 0 := by simpa [Mask.isEmpty] using empty
  rw [Mask.contains, none] at inside
  simp at inside

def Subscription.Wants (s : Subscription) (k : Kind) : Prop :=
  s.held ∧ s.listed ∧ s.mask.contains k

def Subscription.Expects (s : Subscription) (k : Kind) : Prop :=
  s.pending.contains k ∨ s.slot.isSome

theorem Subscription.serve_id (s : Subscription) : s.serve.id = s.id := by
  unfold serve
  split
  · split <;> rfl
  · rfl

theorem Subscription.serve_keeps {s : Subscription} {k : Kind} (wants : s.Wants k) :
    s.serve.Wants k ∧ (s.Expects k → s.serve.Expects k) := by
  unfold serve
  rw [if_pos wants.1]
  split
  · exact ⟨wants, fun _ => .inr rfl⟩
  · exact ⟨wants, fun h => h⟩

namespace Bus

-- The subscription gets news of this kind for as long as the bus is open. The dispatcher has been
-- called if anything is raised.
structure Serves (b : Bus) (id : Nat) (k : Kind) : Prop where
  numbers : (b.subscriptions.map (·.id)).Nodup
  fresh : ∀ s ∈ b.subscriptions, s.id < b.nextId
  made : id < b.nextId
  called : b.raised.isEmpty = false → b.wake
  stops : b.stopped → b.closed
  wanted : b.closed = false → ∃ s ∈ b.subscriptions, s.id = id ∧ s.Wants k

def Owes (b : Bus) (id : Nat) (k : Kind) : Prop :=
  b.raised.contains k ∨ ∃ s ∈ b.subscriptions, s.id = id ∧ s.Wants k ∧ s.Expects k

-- Whatever happens here, the subscription is served as before, and what is owed to it stays so.
structure Onward (id : Nat) (k : Kind) (b next : Bus) : Prop where
  serves : b.Serves id k → next.Serves id k
  closed : b.closed → next.closed
  owes : b.Serves id k → next.closed = false → b.Owes id k → next.Owes id k

variable {b next last : Bus} {id : Nat} {k : Kind}

theorem Onward.refl (b : Bus) : Onward id k b b := ⟨fun h => h, fun h => h, fun _ _ h => h⟩

theorem Onward.opened (onward : Onward id k b next) (opened : next.closed = false) :
    b.closed = false := by
  cases was : b.closed with
  | false => rfl
  | true => rw [onward.closed was] at opened; cases opened

theorem Onward.trans (first : Onward id k b next) (second : Onward id k next last) :
    Onward id k b last where
  serves h := second.serves (first.serves h)
  closed h := second.closed (first.closed h)
  owes serves opened owed :=
    second.owes (first.serves serves) opened (first.owes serves (second.opened opened) owed)

section Changes

variable {f : Subscription → Subscription}

theorem Serves.change (serves : b.Serves id k) (same : ∀ s, (f s).id = s.id)
    (left : next.subscriptions.Sublist (b.subscriptions.map f)) (nextId : next.nextId = b.nextId)
    (closed : next.closed = b.closed) (stops : next.stopped → b.stopped ∨ b.closed)
    (called : next.raised.isEmpty = false → next.raised = b.raised ∧ next.wake = b.wake)
    (keeps : b.closed = false → ∀ s ∈ b.subscriptions, s.id = id → s.Wants k →
      f s ∈ next.subscriptions ∧ (f s).Wants k) : next.Serves id k := by
  have keys : (b.subscriptions.map f).map (·.id) = b.subscriptions.map (·.id) := by
    rw [List.map_map]
    exact List.map_congr_left fun s _ => same s
  refine ⟨(left.map _).nodup (keys.symm ▸ serves.numbers), fun s member => ?_,
    nextId ▸ serves.made, fun some => ?_, fun stopped => ?_, fun opened => ?_⟩
  · obtain ⟨o, was, rfl⟩ := List.mem_map.mp (left.subset member)
    rw [same, nextId]
    exact serves.fresh o was
  · obtain ⟨raised, wake⟩ := called some
    rw [wake]
    exact serves.called (raised ▸ some)
  · rw [closed]
    exact (stops stopped).elim serves.stops fun closed => closed
  · obtain ⟨s, member, number, wants⟩ := serves.wanted (closed ▸ opened)
    obtain ⟨there, still⟩ := keeps (closed ▸ opened) s member number wants
    exact ⟨f s, there, (same s).trans number, still⟩

theorem Onward.change (same : ∀ s, (f s).id = s.id)
    (left : next.subscriptions.Sublist (b.subscriptions.map f)) (nextId : next.nextId = b.nextId)
    (closed : next.closed = b.closed) (stops : next.stopped → b.stopped ∨ b.closed)
    (called : next.raised.isEmpty = false → next.raised = b.raised ∧ next.wake = b.wake)
    (keeps : b.closed = false → ∀ s ∈ b.subscriptions, s.id = id → s.Wants k →
      f s ∈ next.subscriptions ∧ (f s).Wants k)
    (expects : ∀ s, s.id = id → s.Wants k → s.Expects k → (f s).Expects k)
    (raised : b.raised.contains k → next.raised.contains k ∨ ∀ s, s.Wants k → (f s).Expects k) :
    Onward id k b next where
  serves h := h.change same left nextId closed stops called keeps
  closed was := closed ▸ was
  owes h opened owed := by
    have opened : b.closed = false := closed ▸ opened
    have there {s : Subscription} (member : s ∈ b.subscriptions) (number : s.id = id)
        (wants : s.Wants k) (coming : (f s).Expects k) : next.Owes id k := by
      obtain ⟨there, still⟩ := keeps opened s member number wants
      exact .inr ⟨f s, there, (same s).trans number, still, coming⟩
    rcases owed with up | ⟨s, member, number, wants, coming⟩
    · rcases raised up with up | soon
      · exact .inl up
      · obtain ⟨s, member, number, wants⟩ := h.wanted opened
        exact there member number wants (soon s wants)
    · exact there member number wants (expects s number wants coming)

variable {other : Nat} (same : ∀ s, (f s).id = s.id)

include same

theorem update_same (s : Subscription) : (if s.id = other then f s else s).id = s.id := by
  split
  · exact same s
  · rfl

omit same in
theorem mem_update_sweep {s : Subscription} (member : s ∈ b.subscriptions)
    (wants : (if s.id = other then f s else s).Wants k) :
    (if s.id = other then f s else s) ∈ (b.update other f).sweep.subscriptions := by
  refine List.mem_filter.mpr ⟨List.mem_map_of_mem member, ?_⟩
  simp [wants.2.1]

theorem Serves.update_sweep (serves : b.Serves id k)
    (keeps : other = id → ∀ s, s.Wants k → (f s).Wants k) :
    (b.update other f).sweep.Serves id k := by
  refine serves.change (update_same same) List.filter_sublist rfl rfl .inl (fun _ => ⟨rfl, rfl⟩)
    fun _ s member number wants => ?_
  have still : (if s.id = other then f s else s).Wants k := by
    split
    next hit => exact keeps (hit.symm.trans number) s wants
    next => exact wants
  exact ⟨mem_update_sweep member still, still⟩

theorem Onward.update_sweep
    (keeps : other = id → ∀ s, s.Wants k → (f s).Wants k ∧ (s.Expects k → (f s).Expects k)) :
    Onward id k b (b.update other f).sweep := by
  have still (s : Subscription) (number : s.id = id) (wants : s.Wants k) :
      (if s.id = other then f s else s).Wants k ∧
        (s.Expects k → (if s.id = other then f s else s).Expects k) := by
    split
    next hit => exact keeps (hit.symm.trans number) s wants
    next => exact ⟨wants, fun h => h⟩
  refine .change (update_same same) List.filter_sublist rfl rfl .inl (fun _ => ⟨rfl, rfl⟩)
    (fun _ s member number wants => ?_) (fun s number wants => (still s number wants).2) .inl
  have wanted := (still s number wants).1
  exact ⟨mem_update_sweep member wanted, wanted⟩

end Changes

theorem Onward.raise (kind : Kind) : Onward id k b (b.raise kind) := by
  unfold Bus.raise Bus.mark Bus.call
  dsimp only
  have grows {m : Mask} (h : m.contains k) : (m.union (.single kind)).contains k := by simp [h]
  split
  next =>
    exact ⟨fun ⟨numbers, fresh, made, called, stops, wanted⟩ =>
      ⟨numbers, fresh, made, fun _ => rfl, stops, wanted⟩, fun h => h,
      fun _ _ owed => owed.imp grows fun h => h⟩
  next more =>
    exact ⟨fun ⟨numbers, fresh, made, called, stops, wanted⟩ =>
      ⟨numbers, fresh, made, fun _ => called (by simpa using more), stops, wanted⟩, fun h => h,
      fun _ _ owed => owed.imp grows fun h => h⟩

theorem owes_raise (b : Bus) (id : Nat) (k : Kind) : (b.raise k).Owes id k := by
  refine .inl ?_
  unfold Bus.raise Bus.mark Bus.call
  dsimp only
  split <;> simp

theorem Onward.close : Onward id k b b.close :=
  ⟨fun ⟨numbers, fresh, made, called, _, _⟩ =>
    ⟨numbers, fresh, made, called, fun _ => rfl, by simp [Bus.close]⟩,
    fun _ => rfl, fun _ _ owed => owed⟩

theorem Onward.subscribe (kinds : List Kind) : Onward id k b (b.subscribe kinds).1 := by
  refine ⟨fun ⟨numbers, fresh, made, called, stops, wanted⟩ => ?_, fun h => h, fun _ _ owed => ?_⟩
  · refine ⟨nodup_append numbers fun s member => Nat.ne_of_lt (fresh s member), fun s member => ?_,
      Nat.lt_succ_of_lt made, called, stops, fun opened => ?_⟩
    · rcases List.mem_append.mp member with old | new
      · exact Nat.lt_succ_of_lt (fresh s old)
      · rw [List.mem_singleton.mp new]
        exact Nat.lt_succ_self _
    · obtain ⟨s, member, rest⟩ := wanted opened
      exact ⟨s, List.mem_append_left _ member, rest⟩
  · exact owed.imp (fun h => h) fun ⟨s, member, rest⟩ => ⟨s, List.mem_append_left _ member, rest⟩

theorem Onward.receive {other : Nat} (different : other ≠ id) :
    Onward id k b (b.receive other).1 := by
  unfold Bus.receive
  split
  · exact .refl b
  · split
    · exact .update_sweep (fun _ => rfl) fun same => absurd same different
    · exact .refl b

theorem Onward.abandon {other : Nat} (different : other ≠ id) : Onward id k b (b.abandon other) :=
  .update_sweep (fun _ => rfl) fun same => absurd same different

theorem Onward.unsubscribe {other : Nat} (different : other ≠ id) :
    Onward id k b (b.unsubscribe other) :=
  .update_sweep (fun _ => rfl) fun same => absurd same different

theorem Serves.receive (serves : b.Serves id k) : (b.receive id).1.Serves id k := by
  unfold Bus.receive
  split
  · exact serves
  · split
    · exact serves.update_sweep (fun _ => rfl) fun _ _ wants => wants
    · exact serves

theorem receive_closed (b : Bus) (id : Nat) : (b.receive id).1.closed = b.closed := by
  unfold Bus.receive
  split
  · rfl
  · split <;> rfl

theorem Onward.absorb : Onward id k b b.absorb := by
  let f (s : Subscription) : Subscription :=
    if s.listed then { s with pending := s.pending.union (b.raised.inter s.mask) } else s
  have listed {s : Subscription} (wants : s.Wants k) :
      f s = { s with pending := s.pending.union (b.raised.inter s.mask) } := if_pos wants.2.1
  refine .change (f := f) (fun s => ?_) (.refl _) rfl rfl .inl (fun some => ?_)
    (fun _ s member _ wants => ⟨List.mem_map_of_mem member, ?_⟩) (fun s _ wants expects => ?_)
    fun up => .inr fun s wants => ?_
  · dsimp only [f]
    split <;> rfl
  · cases some
  · rw [listed wants]
    exact wants
  · rw [listed wants]
    exact expects.imp (fun inside => by simp [inside]) fun filled => filled
  · rw [listed wants]
    exact .inl (by simp [up, wants.2.2])

theorem turn?_onward (turn : b.turn? = some next) : Onward id k b next := by
  unfold turn? at turn
  split at turn
  · cases turn
  · dsimp only at turn
    split at turn
    next =>
      cases turn
      refine Onward.absorb.trans (.change (f := fun s => s) (fun _ => rfl) ?_ rfl rfl .inl ?_ ?_ ?_ ?_)
      · exact (List.map_id' _).symm ▸ .refl _
      · intro some
        cases some
      · exact fun _ s member _ wants => ⟨member, wants⟩
      · exact fun _ _ _ expects => expects
      · exact .inl
    · split at turn
      next _ closed =>
        cases turn
        -- Who still listened is told that nothing will come.
        refine Onward.absorb.trans ⟨fun serves => ?_, fun h => h, fun _ opened => ?_⟩
        · exact serves.change (f := fun s => { s with listed := false }) (fun _ => rfl)
            List.filter_sublist rfl rfl (fun _ => .inr closed) (fun some => ⟨rfl, rfl⟩)
            fun opened => absurd (opened.symm.trans closed) Bool.false_ne_true
        · exact absurd (opened.symm.trans closed) Bool.false_ne_true
      · split at turn
        next s _ =>
          cases turn
          exact Onward.absorb.trans
            (.update_sweep Subscription.serve_id fun _ _ => Subscription.serve_keeps)
        next => cases turn

section Finds

variable (serves : b.Serves id k) (opened : b.closed = false)

include serves opened

theorem Serves.find : ∃ s, b.find? id = some s ∧ s.Wants k := by
  obtain ⟨s, member, rfl, wants⟩ := serves.wanted opened
  exact ⟨s, find_of_key serves.numbers member, wants⟩

theorem Serves.receive_goes_on : (b.receive id).2 ≠ .closed := by
  obtain ⟨s, found, wants⟩ := serves.find opened
  unfold Bus.receive
  rw [found]
  dsimp only
  split
  · exact Receipt.noConfusion
  · rw [if_pos wants.2.1]
    exact Receipt.noConfusion

theorem Serves.delivered (idle : b.canTurn = false) (owed : b.Owes id k) :
    ∃ kind, (b.receive id).2 = .kind kind := by
  have running : b.stopped = false := by
    cases stopped : b.stopped with
    | false => rfl
    | true => rw [serves.stops stopped] at opened; cases opened
  simp only [canTurn, running, opened, Bool.not_false, Bool.true_and, Bool.or_false,
    Bool.or_eq_false_iff] at idle
  obtain ⟨asleep, unready⟩ := idle
  rcases owed with up | ⟨s, member, number, wants, expects⟩
  · rw [serves.called (Mask.nonempty_of_contains up)] at asleep
    cases asleep
  · have unready : s.isReady = false := by simpa using List.any_eq_false.mp unready s member
    have filled : s.slot.isSome := by
      refine expects.elim (fun pending => ?_) fun filled => filled
      have some := Mask.nonempty_of_contains pending
      simpa [Subscription.isReady, wants.1, wants.2.1, some] using unready
    have found : b.find? id = some s := number ▸ find_of_key serves.numbers member
    obtain ⟨kind, slot⟩ := Option.isSome_iff_exists.mp filled
    exact ⟨kind, by simp [Bus.receive, found, slot]⟩

end Finds

end Bus

end Egress.Event
