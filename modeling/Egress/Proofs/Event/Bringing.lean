import Egress.Proofs.Event.Settling

set_option autoImplicit false

namespace Egress.Event

namespace Bus

-- The subscription is there and has asked for the kind, its holder has not given it up, and the bus
-- knows it while the dispatcher runs.
structure Listens (b : Bus) (id : Nat) (k : Kind) : Prop where
  sane : b.Sane
  present : ∃ s ∈ b.subscriptions, s.id = id ∧ s.held ∧ s.mask.contains k ∧
    (b.stopped = false → s.listed)

def Hands (b : Bus) (id : Nat) (k : Kind) : Prop :=
  ∃ s ∈ b.subscriptions, s.id = id ∧ s.slot = some k

def Brings (b : Bus) (id : Nat) (k : Kind) : Prop :=
  b.raised.contains k ∨ (∃ s ∈ b.subscriptions, s.id = id ∧ s.pending.contains k) ∨ b.Hands id k

variable {b next last : Bus} {id : Nat} {k : Kind} {s : Subscription} {reach : Nat → Prop}

theorem Use.stopped (use : Use reach b next) : next.stopped = b.stopped := by
  cases use with
  | raise k =>
    unfold Bus.raise Bus.mark Bus.call
    dsimp only
    split <;> rfl
  | receive id =>
    unfold Bus.receive
    split
    · rfl
    · split <;> rfl
  | subscribe | abandon | unsubscribe | close => rfl

theorem Use.closed (use : Use reach b next) (was : b.closed) : next.closed := by
  cases use with
  | raise k =>
    unfold Bus.raise Bus.mark Bus.call
    dsimp only
    split <;> exact was
  | receive id => exact (receive_closed b id).trans was
  | subscribe | abandon | unsubscribe => exact was
  | close => rfl

theorem Use.raised (use : Use reach b next) (up : b.raised.contains k) :
    next.raised.contains k := by
  cases use with
  | raise j =>
    unfold Bus.raise Bus.mark Bus.call
    dsimp only
    split <;> simp [up]
  | receive id =>
    unfold Bus.receive
    split
    · exact up
    · split <;> exact up
  | subscribe | abandon | unsubscribe | close => exact up

theorem mem_update_other {f : Subscription → Subscription} {other : Nat} (sane : b.Sane)
    (member : s ∈ b.subscriptions) (apart : s.id ≠ other) :
    s ∈ (b.update other f).sweep.subscriptions :=
  List.mem_filter.mpr ⟨List.mem_map.mpr ⟨s, member, if_neg apart⟩, sane.needed s member⟩

theorem Use.spares (use : Use reach b next) (sane : b.Sane) (apart : ¬reach s.id)
    (member : s ∈ b.subscriptions) : s ∈ next.subscriptions := by
  have other {i : Nat} (reached : reach i) : s.id ≠ i := fun same => apart (same ▸ reached)
  cases use with
  | raise k =>
    unfold Bus.raise Bus.mark Bus.call
    dsimp only
    split <;> exact member
  | subscribe kinds => exact List.mem_append_left _ member
  | receive i reached =>
    unfold Bus.receive
    split
    · exact member
    · split
      · exact mem_update_other sane member (other reached)
      · exact member
  | abandon i reached => exact mem_update_other sane member (other reached)
  | unsubscribe i reached => exact mem_update_other sane member (other reached)
  | close => exact member

theorem Use.nextId (use : Use reach b next) : b.nextId ≤ next.nextId := by
  cases use with
  | raise k =>
    unfold Bus.raise Bus.mark Bus.call
    dsimp only
    split <;> exact Nat.le_refl _
  | subscribe kinds => exact Nat.le_succ _
  | receive id =>
    unfold Bus.receive
    split
    · exact Nat.le_refl _
    · split <;> exact Nat.le_refl _
  | abandon | unsubscribe | close => exact Nat.le_refl _

theorem Uses.mono {more : Nat → Prop} (uses : Uses reach b next)
    (wider : ∀ i, reach i → more i) : Uses more b next := by
  induction uses with
  | refl => exact .refl
  | tail _ use ih =>
    refine ih.tail ?_
    cases use with
    | raise k => exact .raise k
    | subscribe kinds => exact .subscribe kinds
    | receive i reached => exact .receive i (wider i reached)
    | abandon i reached => exact .abandon i (wider i reached)
    | unsubscribe i reached => exact .unsubscribe i (wider i reached)
    | close => exact .close

section Uses

variable (uses : Uses reach b next)

include uses

theorem Uses.sane (sane : b.Sane) : next.Sane := by
  induction uses with
  | refl => exact sane
  | tail _ use ih => exact ih.use use

theorem Uses.nextId : b.nextId ≤ next.nextId := by
  induction uses with
  | refl => exact Nat.le_refl _
  | tail _ use ih => exact Nat.le_trans ih use.nextId

theorem Uses.stopped : next.stopped = b.stopped := by
  induction uses with
  | refl => rfl
  | tail _ use ih => exact use.stopped.trans ih

theorem Uses.closed (was : b.closed) : next.closed := by
  induction uses with
  | refl => exact was
  | tail _ use ih => exact use.closed ih

theorem Uses.raised (up : b.raised.contains k) : next.raised.contains k := by
  induction uses with
  | refl => exact up
  | tail _ use ih => exact use.raised ih

theorem Uses.spares (sane : b.Sane) (apart : ¬reach s.id) (member : s ∈ b.subscriptions) :
    s ∈ next.subscriptions := by
  induction uses with
  | refl => exact member
  | tail before use ih => exact use.spares (Uses.sane before sane) apart ih

theorem Uses.listens (apart : ¬reach id) (listens : b.Listens id k) : next.Listens id k := by
  obtain ⟨sane, s, member, rfl, rest⟩ := listens
  refine ⟨uses.sane sane, s, uses.spares sane apart member, rfl, ?_⟩
  rw [uses.stopped]
  exact rest

theorem Uses.hands (sane : b.Sane) (apart : ¬reach id) (hands : b.Hands id k) :
    next.Hands id k := by
  obtain ⟨s, member, rfl, slot⟩ := hands
  exact ⟨s, uses.spares sane apart member, rfl, slot⟩

theorem Uses.brings (sane : b.Sane) (apart : ¬reach id) (brings : b.Brings id k) :
    next.Brings id k := by
  rcases brings with up | ⟨s, member, rfl, pending⟩ | hands
  · exact .inl (uses.raised up)
  · exact .inr (.inl ⟨s, uses.spares sane apart member, rfl, pending⟩)
  · exact .inr (.inr (uses.hands sane apart hands))

end Uses

theorem brings_raise (b : Bus) (id : Nat) (k : Kind) : (b.raise k).Brings id k := by
  refine .inl ?_
  unfold Bus.raise Bus.mark Bus.call
  dsimp only
  split <;> simp

-- A turn leaves the subscription where it is, with what is in its slot. Unless the dispatcher
-- stops, what was on its way stays so.
theorem Turn.keeps (turn : b.Turn next) (sane : b.Sane) (member : s ∈ b.subscriptions)
    (held : s.held) : ∃ t ∈ next.subscriptions, t.id = s.id ∧ t.held ∧ t.mask = s.mask ∧
      (∀ k, s.slot = some k → t.slot = some k) ∧
      (next.stopped = false → t.listed = s.listed ∧
        ∀ k, (s.hear b.raised).pending.contains k → t.pending.contains k ∨ t.slot = some k) := by
  have heard : s.hear b.raised ∈ b.absorb.subscriptions := List.mem_map_of_mem member
  have number := s.hear_id b.raised
  have holds := s.hear_held b.raised
  have mask := s.hear_mask b.raised
  have slot := s.hear_slot b.raised
  have listed := s.hear_listed b.raised
  cases turn with
  | wake =>
    exact ⟨_, heard, number, holds.trans held, mask, fun k filled => slot.trans filled,
      fun _ => ⟨listed, fun k inside => .inl inside⟩⟩
  | stop =>
    refine ⟨{ s.hear b.raised with listed := false }, ?_, number, holds.trans held, mask,
      fun k filled => slot.trans filled, fun running => nomatch running⟩
    exact List.mem_filter.mpr ⟨List.mem_map_of_mem (f := fun s : Subscription =>
      { s with listed := false }) heard, by simp [holds, held]⟩
  | @serve _ _ _ served there ready =>
    by_cases hit : (s.hear b.raised).id = served.id
    · obtain rfl := eq_of_key sane.absorb.numbers heard there hit
      obtain ⟨free, first, serve⟩ := Subscription.serve_of_held (holds.trans held) ready
      refine ⟨(s.hear b.raised).serve, ?_, ?_, ?_, ?_, ?_, fun _ => ⟨?_, fun k inside => ?_⟩⟩
      · refine List.mem_filter.mpr ⟨List.mem_map.mpr ⟨_, heard, if_pos rfl⟩, ?_⟩
        simp [serve, holds, held]
      · rw [Subscription.serve_id, number]
      · rw [serve]
        exact holds.trans held
      · rw [serve]
        exact mask
      · intro k filled
        rw [← slot, free] at filled
        cases filled
      · rw [serve]
        exact listed
      · rw [serve]
        by_cases lead : first = k
        · exact .inr (congrArg some lead)
        · exact .inl (by simp [inside, lead])
    · refine ⟨s.hear b.raised, ?_, number, holds.trans held, mask, fun k filled =>
        slot.trans filled, fun _ => ⟨listed, fun k inside => .inl inside⟩⟩
      exact List.mem_filter.mpr ⟨List.mem_map.mpr ⟨_, heard, if_neg hit⟩, by simp [holds, held]⟩

theorem Turn.nextId (turn : b.Turn next) : next.nextId = b.nextId := by
  cases turn <;> rfl

theorem Turn.closed (turn : b.Turn next) : next.closed = b.closed := by
  cases turn <;> rfl

theorem Turn.listens (turn : b.Turn next) (listens : b.Listens id k) : next.Listens id k := by
  obtain ⟨sane, s, member, rfl, held, asked, known⟩ := listens
  obtain ⟨t, there, number, holds, mask, -, running⟩ := turn.keeps sane member held
  refine ⟨sane.turn turn, t, there, number, holds, mask ▸ asked, fun goesOn => ?_⟩
  have was : b.stopped = false := by
    cases turn <;> assumption
  exact (running goesOn).1.trans (known was)

theorem Turn.hands (turn : b.Turn next) (listens : b.Listens id k) {j : Kind}
    (hands : b.Hands id j) : next.Hands id j := by
  obtain ⟨sane, s, member, rfl, held, -⟩ := listens
  obtain ⟨o, there, same, slot⟩ := hands
  obtain rfl := eq_of_key sane.numbers there member same
  obtain ⟨t, there, number, -, -, kept, -⟩ := turn.keeps sane member held
  exact ⟨t, there, number, kept j slot⟩

theorem Turn.brings (turn : b.Turn next) (listens : b.Listens id k) (goesOn : next.stopped = false)
    (brings : b.Brings id k) : next.Brings id k := by
  have ⟨sane, s, member, number, held, asked, known⟩ := listens
  subst number
  obtain ⟨t, there, number, -, -, -, running⟩ := turn.keeps sane member held
  have was : b.stopped = false := by
    cases turn <;> assumption
  have onward (inside : (s.hear b.raised).pending.contains k) : next.Brings s.id k := by
    rcases (running goesOn).2 k inside with waits | slot
    · exact .inr (.inl ⟨t, there, number, waits⟩)
    · exact .inr (.inr ⟨t, there, number, slot⟩)
  rcases brings with up | ⟨o, here, same, pending⟩ | hands
  · exact onward (by simp [Subscription.hear, known was, up, asked])
  · obtain rfl := eq_of_key sane.numbers here member same
    exact onward (by simp [Subscription.hear, known was, pending])
  · exact .inr (.inr (turn.hands listens hands))

section Dispatch

variable {n : Nat} (turns : Turns n b last)

include turns

theorem Turns.nextId : last.nextId = b.nextId := by
  induction turns with
  | none => rfl
  | more first _ ih => exact ih.trans first.nextId

theorem Turns.closed : last.closed = b.closed := by
  induction turns with
  | none => rfl
  | more first _ ih => exact ih.trans first.closed

theorem Turns.sane (sane : b.Sane) : last.Sane := by
  induction turns with
  | none => exact sane
  | more first _ ih => exact ih (sane.turn first)

theorem Turns.listens (listens : b.Listens id k) : last.Listens id k := by
  induction turns with
  | none => exact listens
  | more first _ ih => exact ih (first.listens listens)

theorem Turns.hands (listens : b.Listens id k) {j : Kind} (hands : b.Hands id j) :
    last.Hands id j := by
  induction turns with
  | none => exact hands
  | more first _ ih => exact ih (first.listens listens) (first.hands listens hands)

theorem Turns.running (goesOn : last.stopped = false) : b.stopped = false := by
  cases turns with
  | none => exact goesOn
  | more first _ => cases first <;> assumption

theorem Turns.brings (listens : b.Listens id k) (goesOn : last.stopped = false)
    (brings : b.Brings id k) : last.Brings id k := by
  induction turns with
  | none => exact brings
  | more first later ih =>
    exact ih (first.listens listens) goesOn (first.brings listens (later.running goesOn) brings)

end Dispatch

theorem Sane.turns (sane : b.Sane) : ∃ n, Turns n b b.dispatch :=
  ((sane.rests.agrees _).mpr rfl).1

theorem receive_pending (waits : b.receive id = (next, .pending)) : next = b := by
  unfold Bus.receive at waits
  split at waits
  · cases waits
  · split at waits
    · cases waits
    · exact (Prod.mk.inj waits).1.symm

theorem Sane.listens (sane : b.Sane) {kinds : List Kind}
    (asked : (Mask.ofKinds kinds).contains k) : (b.subscribe kinds).1.Listens b.nextId k := by
  refine ⟨sane.subscribe kinds, { id := b.nextId, mask := .ofKinds kinds }, ?_, rfl, rfl, asked,
    fun _ => rfl⟩
  exact List.mem_append_right _ (List.mem_singleton_self _)

theorem Listens.receive_cases (listens : b.Listens id k) :
    (∃ j, b.Hands id j ∧ b.receive id =
      ((b.update id fun s => { s with slot := none }).sweep, .kind j)) ∨
    (∀ j, ¬b.Hands id j) ∧
      (b.receive id = (b, .pending) ∨ b.stopped ∧ b.receive id = (b, .closed)) := by
  obtain ⟨sane, s, member, rfl, held, -, known⟩ := listens
  have found : b.find? s.id = some s := find_of_key sane.numbers member
  cases slot : s.slot with
  | some j => exact .inl ⟨j, ⟨s, member, rfl, slot⟩, by simp [Bus.receive, found, slot]⟩
  | none =>
    refine .inr ⟨fun j hands => ?_, ?_⟩
    · obtain ⟨o, there, same, filled⟩ := hands
      rw [eq_of_key sane.numbers there member same, slot] at filled
      cases filled
    · cases listed : s.listed with
      | true => exact .inl (by simp [Bus.receive, found, slot, listed])
      | false =>
        refine .inr ⟨?_, by simp [Bus.receive, found, slot, listed]⟩
        by_contra running
        rw [known (by simpa using running)] at listed
        cases listed

theorem Listens.took {c : Bus} {j : Kind} (listens : b.Listens id k)
    (receipt : b.receive id = (c, .kind j)) :
    b.Hands id j ∧ c = (b.update id fun s => { s with slot := none }).sweep := by
  rcases listens.receive_cases with ⟨i, hands, result⟩ | ⟨-, result | ⟨-, result⟩⟩
  · rw [receipt] at result
    cases result
    exact ⟨hands, rfl⟩
  · rw [receipt] at result
    cases result
  · rw [receipt] at result
    cases result

theorem Listens.dismissed {c : Bus} (listens : b.Listens id k)
    (receipt : b.receive id = (c, .closed)) : b.stopped ∧ ∀ j, ¬b.Hands id j := by
  rcases listens.receive_cases with ⟨i, -, result⟩ | ⟨nothing, result | ⟨stopped, -⟩⟩
  · rw [receipt] at result
    cases result
  · rw [receipt] at result
    cases result
  · exact ⟨stopped, nothing⟩

theorem Listens.hands_unique (listens : b.Listens id k) {i j : Kind} (hands : b.Hands id i)
    (also : b.Hands id j) : i = j := by
  obtain ⟨s, member, same, slot⟩ := hands
  obtain ⟨t, there, same', slot'⟩ := also
  rw [eq_of_key listens.sane.numbers there member (same'.trans same.symm), slot] at slot'
  exact Option.some.inj slot'

theorem Listens.take (listens : b.Listens id k) :
    (b.update id fun s => { s with slot := none }).sweep.Listens id k := by
  obtain ⟨sane, s, member, rfl, held, rest⟩ := listens
  refine ⟨sane.update_sweep (fun _ => by rfl) _, { s with slot := none }, ?_, rfl, held, rest⟩
  exact List.mem_filter.mpr ⟨List.mem_map.mpr ⟨s, member, if_pos rfl⟩, by simp [held]⟩

theorem Listens.brings_take (listens : b.Listens id k) {j : Kind} (brings : b.Brings id k)
    (hands : b.Hands id j) (other : j ≠ k) :
    (b.update id fun s => { s with slot := none }).sweep.Brings id k := by
  obtain ⟨sane, s, member, rfl, held, -⟩ := listens
  rcases brings with up | ⟨o, there, same, pending⟩ | ⟨o, there, same, filled⟩
  · exact .inl up
  · obtain rfl := eq_of_key sane.numbers there member same
    refine .inr (.inl ⟨{ o with slot := none }, ?_, rfl, pending⟩)
    exact List.mem_filter.mpr ⟨List.mem_map.mpr ⟨o, member, if_pos rfl⟩, by simp [held]⟩
  · obtain ⟨p, here, same', slot⟩ := hands
    rw [eq_of_key sane.numbers here there (same'.trans same.symm), filled] at slot
    exact absurd (Option.some.inj slot).symm other

-- Whatever is on its way has come by the time the dispatcher waits, or is next behind what is in
-- the slot.
theorem Listens.arrives (listens : b.Listens id k) (running : b.stopped = false)
    (idle : b.canTurn = false) (brings : b.Brings id k) : ∃ j, b.Hands id j := by
  obtain ⟨sane, s, member, rfl, held, -, known⟩ := listens
  simp only [canTurn, running, Bool.not_false, Bool.true_and, Bool.or_eq_false_iff] at idle
  obtain ⟨⟨asleep, -⟩, unready⟩ := idle
  rcases brings with up | ⟨o, there, same, pending⟩ | hands
  · rw [sane.called (Mask.nonempty_of_contains up)] at asleep
    cases asleep
  · obtain rfl := eq_of_key sane.numbers there member same
    have unready : o.isReady = false := by simpa using List.any_eq_false.mp unready o member
    have some := Mask.nonempty_of_contains pending
    cases slot : o.slot with
    | some j => exact ⟨j, o, member, rfl, slot⟩
    | none => simp [Subscription.isReady, known running, some, slot] at unready
  · exact ⟨k, hands⟩

end Bus

end Egress.Event
