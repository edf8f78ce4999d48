import Egress.Proofs.Event.Exchange

set_option autoImplicit false

namespace Egress.Event

theorem Mask.eq_empty {m : Mask} (none : m.isEmpty) : m = .empty := by
  cases m
  simpa [isEmpty, empty] using none

namespace Subscription

def hear (s : Subscription) (word : Mask) : Subscription :=
  if s.listed then { s with pending := s.pending.union (word.inter s.mask) } else s

def rest (s : Subscription) : Subscription := if s.isReady then s.serve else s

def isNeeded (s : Subscription) : Bool := s.listed || s.held

variable {s : Subscription} {word : Mask}

@[simp]
theorem hear_id (s : Subscription) (word : Mask) : (s.hear word).id = s.id := by
  unfold hear
  split <;> rfl

theorem hear_held (s : Subscription) (word : Mask) : (s.hear word).held = s.held := by
  unfold hear
  split <;> rfl

theorem hear_listed (s : Subscription) (word : Mask) : (s.hear word).listed = s.listed := by
  unfold hear
  split <;> rfl

theorem hear_mask (s : Subscription) (word : Mask) : (s.hear word).mask = s.mask := by
  unfold hear
  split <;> rfl

theorem hear_slot (s : Subscription) (word : Mask) : (s.hear word).slot = s.slot := by
  unfold hear
  split <;> rfl

@[simp]
theorem hear_isNeeded (s : Subscription) (word : Mask) :
    (s.hear word).isNeeded = s.isNeeded := by
  unfold hear isNeeded
  split <;> rfl

@[simp]
theorem hear_empty (s : Subscription) : s.hear .empty = s := by
  simp [hear, Mask.union, Mask.inter, Mask.empty]

theorem rest_of_unready (unready : s.isReady = false) : s.rest = s := by
  simp [rest, unready]

@[simp]
theorem rest_id (s : Subscription) : s.rest.id = s.id := by
  unfold rest
  split
  · exact s.serve_id
  · rfl

theorem isNeeded_of_ready (ready : s.isReady) : s.isNeeded := by
  simp only [isReady, Bool.and_eq_true] at ready
  simp [isNeeded, ready.1.1]

theorem serve_unready (ready : s.isReady) : s.serve.isReady = false := by
  simp only [isReady, Bool.and_eq_true, Bool.not_eq_true'] at ready
  obtain ⟨k, lowest⟩ := Mask.lowest_of_nonempty ready.1.2
  cases held : s.held <;> simp [serve, isReady, held, lowest]

theorem serve_of_held (held : s.held) (ready : s.isReady) : s.slot = none ∧
    ∃ k, s.serve = { s with slot := some k, pending := s.pending.erase k } := by
  simp only [isReady, held, Bool.and_eq_true, Bool.or_eq_true, Bool.not_eq_true',
    Bool.true_eq_false, or_false, Option.isNone_iff_eq_none] at ready
  obtain ⟨⟨-, pending⟩, free⟩ := ready
  obtain ⟨k, lowest⟩ := Mask.lowest_of_nonempty pending
  exact ⟨free, k, by simp [serve, held, lowest]⟩

theorem rest_serve (ready : s.isReady) : s.serve.rest = s.rest := by
  rw [rest_of_unready (serve_unready ready), rest, if_pos ready]

theorem rest_unneeded (unneeded : s.isNeeded = false) : s.rest.isNeeded = false := by
  have unready : s.isReady = false := by
    by_contra ready
    rw [isNeeded_of_ready (by simpa using ready)] at unneeded
    cases unneeded
  rwa [rest_of_unready unready]

end Subscription

namespace Bus

-- A turn as the dispatcher may take it: of the subscriptions that are ready, any may be next.
inductive Turn (b : Bus) : Bus → Prop
  | wake (running : b.stopped = false) (called : b.wake) : Turn b { b.absorb with wake := false }
  | stop (running : b.stopped = false) (uncalled : b.wake = false) (closed : b.closed) :
      Turn b { b.absorb.forgetAll with stopped := true }
  | serve (running : b.stopped = false) (uncalled : b.wake = false) (opened : b.closed = false)
      {s : Subscription} (member : s ∈ b.absorb.subscriptions) (ready : s.isReady) :
      Turn b (b.absorb.update s.id Subscription.serve).sweep

inductive Turns : Nat → Bus → Bus → Prop
  | none (b : Bus) : Turns 0 b b
  | more {b next last : Bus} {n : Nat} (first : b.Turn next) (later : Turns n next last) :
      Turns (n + 1) b last

def Idle (b : Bus) : Prop := ∀ next, ¬b.Turn next

def Settles (b last : Bus) : Prop := (∃ n, Turns n b last) ∧ last.Idle

-- What is known of any bus: its subscriptions are told apart by their numbers, one of its ends
-- still needs each of them, and the dispatcher has been called if anything is raised.
structure Sane (b : Bus) : Prop where
  numbers : (b.subscriptions.map (·.id)).Nodup
  fresh : ∀ s ∈ b.subscriptions, s.id < b.nextId
  needed : ∀ s ∈ b.subscriptions, s.isNeeded
  called : b.raised.isEmpty = false → b.wake
  stops : b.stopped → b.closed

variable {b next last : Bus} {s : Subscription} {n : Nat}

theorem absorb_subscriptions (b : Bus) :
    b.absorb.subscriptions = b.subscriptions.map (·.hear b.raised) := rfl

@[simp]
theorem absorb_wake (b : Bus) : b.absorb.wake = b.wake := rfl

@[simp]
theorem absorb_stopped (b : Bus) : b.absorb.stopped = b.stopped := rfl

@[simp]
theorem absorb_closed (b : Bus) : b.absorb.closed = b.closed := rfl

theorem turn_of_turn? (turn : b.turn? = some next) : b.Turn next := by
  unfold turn? at turn
  split at turn
  · cases turn
  next going =>
    have running : b.stopped = false := by simpa using going
    dsimp only at turn
    split at turn
    next called => cases turn; exact .wake running called
    next quiet =>
      have uncalled : b.wake = false := by simpa using quiet
      split at turn
      next closed => cases turn; exact .stop running uncalled closed
      next opened =>
        split at turn
        next s found =>
          cases turn
          exact .serve running uncalled (by simpa using opened) (List.mem_of_find?_eq_some found)
            (List.find?_some found)
        next => cases turn

theorem idle_of_turn? (waits : b.turn? = none) : b.Idle := by
  intro next turn
  cases turn with
  | wake running called => simp [turn?, running, called] at waits
  | stop running uncalled closed => simp [turn?, running, uncalled, closed] at waits
  | serve running uncalled opened member ready =>
    simp only [turn?, running, absorb_wake, uncalled, absorb_closed, opened, Bool.false_eq_true,
      if_false] at waits
    split at waits
    · cases waits
    next none => exact absurd ready (List.find?_eq_none.mp none _ member)

section Kept

variable {f : Subscription → Subscription} (same : ∀ s, (f s).id = s.id)

include same

theorem Sane.map_sweep (sane : b.Sane) (subscriptions : next.subscriptions =
      (b.subscriptions.map f).filter Subscription.isNeeded) (nextId : next.nextId = b.nextId)
    (called : next.raised.isEmpty = false → next.wake) (stops : next.stopped → next.closed) :
    next.Sane := by
  have keys : (b.subscriptions.map f).map (·.id) = b.subscriptions.map (·.id) := by
    rw [List.map_map]
    exact List.map_congr_left fun s _ => same s
  refine ⟨?_, fun s member => ?_, fun s member => ?_, called, stops⟩
  · rw [subscriptions]
    exact nodup_filter (keys.symm ▸ sane.numbers) _
  · rw [subscriptions] at member
    obtain ⟨o, was, rfl⟩ := List.mem_map.mp (List.mem_of_mem_filter member)
    rw [same, nextId]
    exact sane.fresh o was
  · rw [subscriptions] at member
    exact List.of_mem_filter member

theorem Sane.update_sweep (sane : b.Sane) (id : Nat) : (b.update id f).sweep.Sane :=
  sane.map_sweep (update_same same) rfl rfl sane.called sane.stops

end Kept

theorem Sane.running (sane : b.Sane) (opened : b.closed = false) : b.stopped = false := by
  cases stopped : b.stopped with
  | false => rfl
  | true => rw [sane.stops stopped] at opened; cases opened

theorem Sane.absorb (sane : b.Sane) : b.absorb.Sane := by
  refine ⟨?_, fun s member => ?_, fun s member => ?_, (fun some => nomatch some), sane.stops⟩
  · rw [Exchange.absorb_numbers]
    exact sane.numbers
  · obtain ⟨o, was, rfl⟩ := List.mem_map.mp member
    exact (o.hear_id _).symm ▸ sane.fresh o was
  · obtain ⟨o, was, rfl⟩ := List.mem_map.mp member
    exact (o.hear_isNeeded _).symm ▸ sane.needed o was

theorem Sane.turn (sane : b.Sane) (turn : b.Turn next) : next.Sane := by
  have absorbed := sane.absorb
  cases turn with
  | wake =>
    exact ⟨absorbed.numbers, absorbed.fresh, absorbed.needed, (fun some => nomatch some),
      sane.stops⟩
  | stop _ _ closed =>
    exact absorbed.map_sweep (f := fun s => { s with listed := false }) (fun _ => rfl) rfl rfl
      (fun some => nomatch some) fun _ => closed
  | serve => exact absorbed.update_sweep Subscription.serve_id _

theorem Sane.raise (sane : b.Sane) (k : Kind) : (b.raise k).Sane := by
  unfold Bus.raise Bus.mark Bus.call
  dsimp only
  split
  · exact ⟨sane.numbers, sane.fresh, sane.needed, fun _ => rfl, sane.stops⟩
  next more =>
    have called := sane.called (by simpa using more)
    exact ⟨sane.numbers, sane.fresh, sane.needed, fun _ => called, sane.stops⟩

theorem Sane.close (sane : b.Sane) : b.close.Sane :=
  ⟨sane.numbers, sane.fresh, sane.needed, sane.called, fun _ => rfl⟩

theorem Sane.subscribe (sane : b.Sane) (kinds : List Kind) : (b.subscribe kinds).1.Sane := by
  refine ⟨nodup_append sane.numbers fun s member => Nat.ne_of_lt (sane.fresh s member),
    fun s member => ?_, fun s member => ?_, sane.called, sane.stops⟩
  · rcases List.mem_append.mp member with old | new
    · exact Nat.lt_succ_of_lt (sane.fresh s old)
    · rw [List.mem_singleton.mp new]
      exact Nat.lt_succ_self _
  · rcases List.mem_append.mp member with old | new
    · exact sane.needed s old
    · rw [List.mem_singleton.mp new]
      rfl

theorem Sane.receive (sane : b.Sane) (id : Nat) : (b.receive id).1.Sane := by
  unfold Bus.receive
  split
  · exact sane
  · split
    · exact sane.update_sweep (fun _ => by rfl) id
    · exact sane

inductive Use (reach : Nat → Prop) (b : Bus) : Bus → Prop
  | raise (k : Kind) : Use reach b (b.raise k)
  | subscribe (kinds : List Kind) : Use reach b (b.subscribe kinds).1
  | receive (id : Nat) (reached : reach id) : Use reach b (b.receive id).1
  | abandon (id : Nat) (reached : reach id) : Use reach b (b.abandon id)
  | unsubscribe (id : Nat) (reached : reach id) : Use reach b (b.unsubscribe id)
  | close : Use reach b b.close

abbrev Uses (reach : Nat → Prop) : Bus → Bus → Prop := Relation.ReflTransGen (Use reach)

def Goes (b next : Bus) : Prop := Use (fun _ => True) b next ∨ b.Turn next

def Reaches (b : Bus) : Prop := Relation.ReflTransGen Goes {} b

theorem Sane.use {reach : Nat → Prop} (sane : b.Sane) (use : Use reach b next) : next.Sane := by
  cases use with
  | raise k => exact sane.raise k
  | subscribe kinds => exact sane.subscribe kinds
  | receive id => exact sane.receive id
  | abandon id => exact sane.update_sweep (fun _ => by rfl) id
  | unsubscribe id => exact sane.update_sweep (fun _ => by rfl) id
  | close => exact sane.close

theorem sane_new : ({} : Bus).Sane := by
  constructor <;> simp [Mask.isEmpty, Mask.empty]

theorem Reaches.sane (reached : b.Reaches) : b.Sane := by
  induction reached with
  | refl => exact sane_new
  | tail _ goes ih => exact goes.elim ih.use ih.turn

def settled (b : Bus) : Bus :=
  if b.stopped then b
  else if b.closed then { b.absorb.forgetAll with wake := false, stopped := true }
  else sweep { b.absorb with
    wake := false
    subscriptions := b.absorb.subscriptions.map Subscription.rest }

-- How many turns the dispatcher is away from that.
def ahead (b : Bus) : Nat :=
  if b.stopped then 0
  else b.wake.toNat + if b.closed then 1 else b.absorb.subscriptions.countP (·.isReady)

theorem ahead_le (b : Bus) : b.ahead ≤ b.subscriptions.length + 2 := by
  have called : b.wake.toNat ≤ 1 := Bool.toNat_le _
  have ready : b.absorb.subscriptions.countP (·.isReady) ≤ b.subscriptions.length := by
    have bound := b.absorb.subscriptions.countP_le_length (p := (·.isReady))
    rwa [absorb_subscriptions, List.length_map] at bound
  unfold ahead
  split
  · omega
  · split <;> omega

theorem rest_update {l : List Subscription} (numbers : (l.map (·.id)).Nodup) (member : s ∈ l)
    (ready : s.isReady) :
    (l.map fun t => if t.id = s.id then t.serve else t).map Subscription.rest =
      l.map Subscription.rest := by
  rw [List.map_map]
  refine List.map_congr_left fun t there => ?_
  dsimp only [Function.comp]
  split
  next hit =>
    rw [eq_of_key numbers there member hit]
    exact Subscription.rest_serve ready
  next => rfl

theorem rest_filter (l : List Subscription) :
    ((l.filter Subscription.isNeeded).map Subscription.rest).filter Subscription.isNeeded =
      (l.map Subscription.rest).filter Subscription.isNeeded := by
  induction l with
  | nil => rfl
  | cons s rest ih =>
    cases needed : s.isNeeded with
    | true =>
      rw [List.filter_cons_of_pos needed, List.map_cons, List.map_cons, List.filter_cons,
        List.filter_cons, ih]
    | false =>
      have gone := Subscription.rest_unneeded needed
      rw [List.filter_cons_of_neg (by simp [needed]), List.map_cons,
        List.filter_cons_of_neg (by simp [gone]), ih]

theorem countP_ready_update {l : List Subscription} (numbers : (l.map (·.id)).Nodup)
    (member : s ∈ l) (ready : s.isReady) :
    (l.map fun t => if t.id = s.id then t.serve else t).countP (·.isReady) + 1 =
      l.countP (·.isReady) := by
  induction l with
  | nil => cases member
  | cons t rest ih =>
    rw [List.map_cons, List.nodup_cons] at numbers
    obtain ⟨away, numbers⟩ := numbers
    rw [List.map_cons, List.countP_cons, List.countP_cons]
    rcases List.mem_cons.mp member with rfl | later
    · have others : (rest.map fun t => if t.id = s.id then t.serve else t) = rest := by
        refine (List.map_congr_left fun t there => if_neg fun same => ?_).trans (List.map_id' _)
        exact away (same ▸ List.mem_map_of_mem there)
      simp [others, ready, Subscription.serve_unready ready]
    · have other : t.id ≠ s.id := fun same => away (same ▸ List.mem_map_of_mem later)
      have ih := ih numbers later
      rw [if_neg other]
      omega

theorem countP_ready_filter (l : List Subscription) :
    (l.filter Subscription.isNeeded).countP (·.isReady) = l.countP (·.isReady) := by
  rw [List.countP_filter]
  refine List.countP_congr fun s _ => ?_
  simpa using Subscription.isNeeded_of_ready

theorem absorb_idle (heard : b.raised = .empty) : b.absorb = b := by
  have same : b.subscriptions.map (·.hear .empty) = b.subscriptions :=
    (List.map_congr_left fun s _ => s.hear_empty).trans (List.map_id' _)
  change { b with raised := .empty, subscriptions := b.subscriptions.map (·.hear b.raised) } = b
  rw [heard, same, ← heard]

-- Each turn is one of those ahead, whichever it is, and leads to the same rest.
theorem Turn.approaches (turn : b.Turn next) (sane : b.Sane) :
    next.ahead + 1 = b.ahead ∧ next.settled = b.settled := by
  cases turn with
  | wake running called =>
    have heard : Bus.absorb { b.absorb with wake := false } = { b.absorb with wake := false } :=
      absorb_idle rfl
    unfold ahead settled
    rw [heard]
    cases closed : b.closed <;> simp [running, called, closed, forgetAll, sweep]
    omega
  | stop running uncalled closed =>
    have stays : b.absorb.forgetAll.wake = false := uncalled
    refine ⟨by simp [ahead, running, uncalled, closed], ?_⟩
    simp only [settled, running, closed, if_true, Bool.false_eq_true, if_false]
    rw [← stays]
  | @serve running uncalled opened s member ready =>
    have numbers := sane.absorb.numbers
    have heard : ((b.absorb.update s.id Subscription.serve).sweep).absorb =
        (b.absorb.update s.id Subscription.serve).sweep := absorb_idle rfl
    constructor
    · have fewer := countP_ready_update numbers member ready
      rw [← countP_ready_filter] at fewer
      unfold ahead
      rw [heard]
      simp only [running, Bool.false_eq_true, if_false, uncalled, opened, ← fewer]
      simp [sweep, update, running, uncalled, opened]
      rfl
    · have same := rest_update numbers member ready
      unfold settled
      rw [heard]
      simp only [sweep, update, absorb_stopped, running, absorb_closed, opened, Bool.false_eq_true,
        if_false, Bus.mk.injEq, true_and, and_true]
      exact (rest_filter _).trans (same ▸ rfl)

theorem Turns.approach {n : Nat} (turns : Turns n b last) (sane : b.Sane) :
    n + last.ahead = b.ahead ∧ last.settled = b.settled ∧ last.Sane := by
  induction turns with
  | none b => exact ⟨Nat.zero_add _, rfl, sane⟩
  | more first later ih =>
    obtain ⟨one, same⟩ := first.approaches sane
    obtain ⟨rest, agrees, still⟩ := ih (sane.turn first)
    refine ⟨?_, agrees.trans same, still⟩
    omega

theorem Sane.unraised (sane : b.Sane) (uncalled : b.wake = false) : b.raised = .empty := by
  refine Mask.eq_empty ?_
  by_contra some
  have called := sane.called (by simpa using some)
  rw [uncalled] at called
  cases called

namespace Idle

theorem uncalled (idle : b.Idle) (running : b.stopped = false) : b.wake = false := by
  by_contra called
  exact idle _ (.wake running (by simpa using called))

theorem opened (idle : b.Idle) (running : b.stopped = false) : b.closed = false := by
  by_contra closed
  exact idle _ (.stop running (idle.uncalled running) (by simpa using closed))

theorem heard (idle : b.Idle) (sane : b.Sane) (running : b.stopped = false) : b.raised = .empty :=
  sane.unraised (idle.uncalled running)

theorem unready (idle : b.Idle) (sane : b.Sane) (running : b.stopped = false)
    (member : s ∈ b.subscriptions) : s.isReady = false := by
  have heard : b.absorb = b := absorb_idle (idle.heard sane running)
  by_contra ready
  exact idle _ (.serve running (idle.uncalled running) (idle.opened running) (heard.symm ▸ member)
    (by simpa using ready))

end Idle

theorem Idle.settled (idle : b.Idle) (sane : b.Sane) : b.settled = b := by
  cases running : b.stopped with
  | true => simp [Bus.settled, running]
  | false =>
    have uncalled := idle.uncalled running
    have opened := idle.opened running
    have heard : b.absorb = b := absorb_idle (idle.heard sane running)
    have unready (s : Subscription) (member : s ∈ b.subscriptions) : s.rest = s :=
      Subscription.rest_of_unready (idle.unready sane running member)
    have resting : b.subscriptions.map Subscription.rest = b.subscriptions :=
      (List.map_congr_left unready).trans (List.map_id' _)
    have kept : b.subscriptions.filter (fun s => s.listed || s.held) = b.subscriptions :=
      List.filter_eq_self.mpr sane.needed
    rw [Bus.settled, if_neg (by simp [running]), if_neg (by simp [opened]), heard, resting, sweep]
    simp only [kept]
    rw [← uncalled]

theorem Sane.idle_iff (sane : b.Sane) : b.Idle ↔ b.canTurn = false := by
  constructor
  · intro idle
    cases running : b.stopped with
    | true => simp [canTurn, running]
    | false =>
      have unready (s : Subscription) (member : s ∈ b.subscriptions) : s.isReady = false :=
        idle.unready sane running member
      simpa [canTurn, running, idle.uncalled running, idle.opened running] using unready
  · intro waits next turn
    cases turn with
    | wake running called => simp [canTurn, running, called] at waits
    | stop running uncalled closed => simp [canTurn, running, closed] at waits
    | @serve running uncalled opened s member ready =>
      rw [absorb_idle (sane.unraised uncalled)] at member
      simp only [canTurn, running, uncalled, opened, Bool.not_false, Bool.true_and, Bool.false_or,
        List.any_eq_false, Bool.not_eq_true] at waits
      simp [waits s member] at ready

theorem settles_turns (fuel : Nat) (sane : b.Sane) (enough : b.ahead < fuel) :
    b.Settles (b.turns fuel) := by
  induction fuel generalizing b with
  | zero => cases enough
  | succ fuel ih =>
    unfold turns
    split
    next next turn =>
      have turn := turn_of_turn? turn
      obtain ⟨one, -⟩ := turn.approaches sane
      obtain ⟨⟨n, turns⟩, idle⟩ := ih (sane.turn turn) (by omega)
      exact ⟨⟨n + 1, .more turn turns⟩, idle⟩
    next waits => exact ⟨⟨0, .none b⟩, idle_of_turn? waits⟩

theorem Settles.eq_settled (settles : b.Settles last) (sane : b.Sane) : last = b.settled := by
  obtain ⟨⟨n, turns⟩, idle⟩ := settles
  obtain ⟨-, same, still⟩ := turns.approach sane
  rw [← same, idle.settled still]

theorem Sane.dispatch (sane : b.Sane) : b.dispatch = b.settled := by
  have bound := b.ahead_le
  exact (settles_turns _ sane (by omega)).eq_settled sane

structure Rests (b : Bus) : Prop where
  ends : ∀ n last, Turns n b last → n ≤ b.subscriptions.length + 2
  agrees : ∀ last, b.Settles last ↔ last = b.dispatch

theorem Sane.rests (sane : b.Sane) : b.Rests where
  ends n last turns := by
    obtain ⟨total, -⟩ := turns.approach sane
    have bound := b.ahead_le
    omega
  agrees last := by
    constructor
    · intro settles
      rw [sane.dispatch, settles.eq_settled sane]
    · rintro rfl
      have bound := b.ahead_le
      exact settles_turns _ sane (by omega)

end Bus

end Egress.Event
