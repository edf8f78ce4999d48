import Egress.Event.Worker
import Egress.Proofs.Event.Bringing
import Egress.Proofs.Event.Desk

set_option autoImplicit false

namespace Egress.Event

namespace Bus

variable {b next : Bus} {s : Subscription} {id : Nat} {k : Kind}

def slotOf (b : Bus) (id : Nat) : Option Kind := (b.find? id).bind (·.slot)

def take (b : Bus) (id : Nat) : Bus := (b.update id fun s => { s with slot := none }).sweep

def given (b next : Bus) (id : Nat) : List Kind :=
  if (b.slotOf id).isNone then (next.slotOf id).toList else []

theorem raise_flags (b : Bus) (k : Kind) : (b.raise k).subscriptions = b.subscriptions ∧
    (b.raise k).raised = b.raised.union (.single k) ∧ (b.raise k).closed = b.closed ∧
    (b.raise k).stopped = b.stopped := by
  unfold raise mark call
  dsimp only
  split <;> exact ⟨rfl, rfl, rfl, rfl⟩

theorem slotOf_of_mem (sane : b.Sane) (member : s ∈ b.subscriptions) : b.slotOf s.id = s.slot := by
  simp [slotOf, sane.find member]

theorem slotOf_eq_none (nothing : ∀ s ∈ b.subscriptions, s.id = id → s.slot = none) :
    b.slotOf id = none := by
  unfold slotOf
  rw [Option.bind_eq_none_iff]
  intro s found
  exact nothing s (List.mem_of_find?_eq_some found) (by simpa using List.find?_some found)

theorem of_mem_updated {f : Subscription → Subscription}
    (member : s ∈ (b.update id f).sweep.subscriptions) (number : s.id = id) : ∃ t, s = f t := by
  obtain ⟨t, -, rfl⟩ := List.mem_map.mp (List.mem_of_mem_filter member)
  split
  next => exact ⟨t, rfl⟩
  next other =>
    rw [if_neg other] at number
    exact absurd number other

@[simp]
theorem take_raised (b : Bus) (id : Nat) : (b.take id).raised = b.raised := rfl

theorem mem_take (member : s ∈ b.subscriptions) (held : s.held) :
    { s with slot := none } ∈ (b.take s.id).subscriptions :=
  List.mem_filter.mpr ⟨List.mem_map.mpr ⟨s, member, if_pos rfl⟩, by simp [held]⟩

theorem left_of_abandon (member : s ∈ (b.abandon id).subscriptions) (number : s.id = id) :
    s.held = false ∧ s.slot = none := by
  obtain ⟨t, rfl⟩ := of_mem_updated member number
  exact ⟨rfl, rfl⟩

theorem slotOf_take (b : Bus) (id : Nat) : (b.take id).slotOf id = none := by
  refine slotOf_eq_none fun s member number => ?_
  obtain ⟨t, rfl⟩ := of_mem_updated member number
  rfl

theorem slotOf_abandon (b : Bus) (id : Nat) : (b.abandon id).slotOf id = none :=
  slotOf_eq_none fun _ member number => (left_of_abandon member number).2

theorem receive_slot (slot : b.slotOf id = some k) : b.receive id = (b.take id, .kind k) := by
  obtain ⟨s, found, filled⟩ := Option.bind_eq_some_iff.mp slot
  simp [receive, found, filled, take]

theorem receive_free (free : b.slotOf id = none) : (b.receive id).1 = b ∧
    ((b.receive id).2 = .closed ∧ (∀ s ∈ b.find? id, s.listed = false) ∨
      (b.receive id).2 = .pending ∧ ∃ s ∈ b.subscriptions, s.id = id ∧ s.listed) := by
  unfold receive
  cases found : b.find? id with
  | none => simp
  | some s =>
    have slot : s.slot = none := by simpa [slotOf, found] using free
    have number : s.id = id := by simpa using List.find?_some found
    cases listed : s.listed with
    | true =>
      have there := List.mem_of_find?_eq_some found
      exact ⟨by simp [slot], .inr ⟨by simp [slot, listed], s, there, number, listed⟩⟩
    | false => simp [slot, listed]

theorem Turn.owed (turn : b.Turn next) (sane : b.Sane) (opened : b.closed = false)
    (member : s ∈ b.subscriptions) (held : s.held) (listed : s.listed) :
    ∃ t ∈ next.subscriptions, t.id = s.id ∧ t.held ∧ t.listed ∧ t.mask = s.mask ∧
      t.owed next.raised = s.owed b.raised := by
  have heard : s.hear b.raised ∈ b.absorb.subscriptions := List.mem_map_of_mem member
  have number := s.hear_id b.raised
  have holds : (s.hear b.raised).held := s.hear_held b.raised ▸ held
  have known : (s.hear b.raised).listed := s.hear_listed b.raised ▸ listed
  have owed : (s.hear b.raised).owed .empty = s.owed b.raised := Subscription.hear_owed listed
  have mask := s.hear_mask b.raised
  cases turn with
  | wake => exact ⟨_, heard, number, holds, known, mask, owed⟩
  | stop _ _ closed => simp [opened] at closed
  | @serve _ _ _ served there ready =>
    by_cases hit : (s.hear b.raised).id = served.id
    next =>
      obtain rfl := eq_of_key sane.absorb.numbers heard there hit
      have rest : (s.hear b.raised).serve = (s.hear b.raised).rest := by
        simp [Subscription.rest, ready]
      obtain ⟨holds', same⟩ := Subscription.rest_held holds
      have owes := (Subscription.rest_owed holds known).1
      obtain ⟨-, k, serve⟩ := Subscription.serve_of_held holds ready
      refine ⟨(s.hear b.raised).serve, ?_, ?_, ?_, ?_, ?_, ?_⟩
      · refine List.mem_filter.mpr ⟨List.mem_map.mpr ⟨_, heard, if_pos rfl⟩, ?_⟩
        simp [serve, holds]
      · rw [Subscription.serve_id, number]
      · rw [rest]
        exact holds'
      · rw [rest]
        exact same.trans known
      · rw [serve]
        exact mask
      · rw [rest]
        exact owes.trans owed
    next =>
      refine ⟨s.hear b.raised, ?_, number, holds, known, mask, owed⟩
      exact List.mem_filter.mpr ⟨List.mem_map.mpr ⟨_, heard, if_neg hit⟩, by simp [holds]⟩

end Bus

namespace Subscriber

-- A panic comes only when its call is polled, never in the call itself.
def IsCalm (s : Subscriber) : Prop := ∀ past k, s.call past k = none

end Subscriber

namespace Recorder

variable {around : Surroundings} {past : List Stimulus} {k : Kind}

theorem waits_iff (r : Recorder) : (Subscriber.recorder r).Waits past around k ↔
    r.gated && permits past == 0 := by
  have ends : r.outcome k ≠ .waits := by
    unfold outcome
    split <;> nofun
  have poll : (Subscriber.recorder r).poll past around k = r.poll past k := rfl
  rw [Subscriber.Waits, poll, Recorder.poll]
  split
  next shut => simp [shut]
  next passes => simp [ends, passes]

theorem poll_heard (r : Recorder) : ((Subscriber.recorder r).poll past around k).heard =
    if (Subscriber.recorder r).Waits past around k then [] else [k] := by
  have poll : (Subscriber.recorder r).poll past around k = r.poll past k := rfl
  rw [poll, Recorder.poll, if_congr r.waits_iff rfl rfl]
  split <;> rfl

end Recorder

namespace Worker

variable {x y : Worker} {b : Bus} {k : Kind} {around : Surroundings}

def called (x : Worker) (k : Kind) : Worker := { x with past := .called k :: x.past }

def polled (x : Worker) (around : Surroundings) (k : Kind) : Worker := (x.poll around k).1

section Polled

variable (x) (around) (k)

@[simp]
theorem called_subscriber : (x.called k).subscriber = x.subscriber := rfl

@[simp]
theorem called_subscription : (x.called k).subscription = x.subscription := rfl

@[simp]
theorem called_past : (x.called k).past = .called k :: x.past := rfl

@[simp]
theorem called_ended : (x.called k).ended = x.ended := rfl

@[simp]
theorem called_heard : (x.called k).heard = x.heard := rfl

@[simp]
theorem polled_subscription : (x.polled around k).subscription = x.subscription := rfl

@[simp]
theorem polled_past : (x.polled around k).past = .polled k around :: x.past := rfl

@[simp]
theorem polled_holding : (x.polled around k).holding =
    if x.subscriber.Waits x.past around k then some k else none := rfl

@[simp]
theorem polled_woken : (x.polled around k).woken = false := rfl

@[simp]
theorem polled_ended : (x.polled around k).ended = x.ended := rfl

end Polled

theorem polled_heard {r : Recorder} (recorder : x.subscriber = .recorder r) :
    (x.polled around k).heard =
      x.heard ++ (if x.subscriber.Waits x.past around k then [] else [k]) := by
  simp only [polled, poll, recorder, r.poll_heard]

-- What a worker does in one step, and what becomes of the bus.
inductive Does (x : Worker) (b : Bus) (around : Surroundings) : Worker → Bus → Prop
  | resumes {k : Kind} (hand : x.holding = some k) (woken : x.woken) :
      Does x b around (x.polled around k) b
  | takes {k : Kind} (free : x.holding = none) (slot : b.slotOf x.subscription = some k) :
      Does x b around ((x.called k).polled around k) (b.take x.subscription)
  | fails {k : Kind} {payload : Payload} (free : x.holding = none)
      (slot : b.slotOf x.subscription = some k) (harsh : x.subscriber.call x.past k = some payload) :
      Does x b around { x with ended := true, failure := some payload }
        ((b.take x.subscription).abandon x.subscription)
  | leaves (free : x.holding = none) (nothing : b.slotOf x.subscription = none)
      (unlisted : ∀ s ∈ b.find? x.subscription, s.listed = false) :
      Does x b around { x with ended := true } (b.abandon x.subscription)

theorem step_does (can : x.canStep b) (around : Surroundings) :
    x.ended = false ∧ x.Does b around (x.step around b).1 (x.step around b).2.1 := by
  unfold canStep at can
  rw [Bool.and_eq_true, Bool.not_eq_true'] at can
  obtain ⟨running, can⟩ := can
  refine ⟨running, ?_⟩
  cases holding : x.holding with
  | some k =>
    simp only [holding] at can
    simp only [step, running, holding, Bool.false_eq_true, if_false]
    exact .resumes holding can
  | none =>
    simp only [holding, bne_iff_ne] at can
    cases slot : b.slotOf x.subscription with
    | some k =>
      simp only [step, running, holding, Bus.receive_slot slot, Bool.false_eq_true, if_false]
      unfold start
      split
      next payload harsh => exact .fails holding slot harsh
      next =>
        rw [if_neg (by simp [poll, running])]
        exact .takes holding slot
    | none =>
      obtain ⟨same, ⟨closed, unlisted⟩ | ⟨pending, -⟩⟩ := Bus.receive_free slot
      · have receipt : b.receive x.subscription = (b, .closed) := Prod.ext same closed
        have step : x.step around b = ({ x with ended := true }, b.abandon x.subscription, []) := by
          simp [step, running, holding, receipt]
        rw [step]
        exact .leaves holding slot unlisted
      · exact absurd pending can

theorem Does.subscription {next : Bus} (does : x.Does b around y next) :
    y.subscription = x.subscription := by
  cases does <;> rfl

theorem Does.subscriber {next : Bus} (does : x.Does b around y next) :
    y.subscriber = x.subscriber := by
  cases does <;> rfl

-- Nothing has come since a poll for this kind, and that has left the call waiting.
def HasWaited (x : Worker) (k : Kind) : Prop :=
  ∃ past around, x.past = .polled k around :: past ∧ x.subscriber.Waits past around k

-- What the step is about it has dealt with, unless it waits, or has ended.
def handles (x y : Worker) (b : Bus) : List Kind :=
  if y.ended || y.holding.isSome then [] else (x.holding.or (b.slotOf x.subscription)).toList

end Worker

namespace Bus

variable {b next : Bus} {s t : Subscription} {id : Nat}

theorem Turn.origin (turn : b.Turn next) (member : t ∈ next.subscriptions) :
    ∃ s ∈ b.subscriptions, t.id = s.id ∧ (s.held = false → t.held = false ∧ t.slot = s.slot) ∧
      (next.stopped → t.listed = false) := by
  cases turn with
  | wake running =>
    obtain ⟨s, was, rfl⟩ := List.mem_map.mp member
    have holds := s.hear_held b.raised
    have slot := s.hear_slot b.raised
    exact ⟨s, was, s.hear_id b.raised, fun unheld => ⟨holds.trans unheld, slot⟩, by simp [running]⟩
  | stop =>
    obtain ⟨u, heard, rfl⟩ := List.mem_map.mp (List.mem_of_mem_filter member)
    rw [absorb_subscriptions] at heard
    obtain ⟨s, was, rfl⟩ := List.mem_map.mp heard
    have holds := s.hear_held b.raised
    have slot := s.hear_slot b.raised
    exact ⟨s, was, s.hear_id b.raised, fun unheld => ⟨holds.trans unheld, slot⟩, fun _ => rfl⟩
  | serve running =>
    obtain ⟨u, heard, rfl⟩ := List.mem_map.mp (List.mem_of_mem_filter member)
    rw [absorb_subscriptions] at heard
    obtain ⟨s, was, rfl⟩ := List.mem_map.mp heard
    have holds := s.hear_held b.raised
    have slot := s.hear_slot b.raised
    have number := s.hear_id b.raised
    refine ⟨s, was, ?_, fun unheld => ?_, by simp [update, sweep, running]⟩
    · split
      · rw [Subscription.serve_id, number]
      · exact number
    · have unheld : (s.hear b.raised).held = false := holds.trans unheld
      split
      · simp [Subscription.serve, unheld, slot]
      · exact ⟨unheld, slot⟩

end Bus

namespace Worker

variable {x y z : Worker} {b c : Bus} {s : Subscription} {around : Surroundings}

theorem Does.uses (does : x.Does b around y c) : Bus.Uses (· = x.subscription) b c := by
  have taken {k : Kind} (slot : b.slotOf x.subscription = some k) :
      Bus.Uses (· = x.subscription) b (b.take x.subscription) := by
    have receive : Bus.Use (· = x.subscription) b (b.receive x.subscription).1 :=
      .receive x.subscription rfl
    rw [Bus.receive_slot slot] at receive
    exact .single receive
  cases does with
  | resumes => exact .refl
  | takes _ slot => exact taken slot
  | fails _ slot => exact (taken slot).tail (.abandon _ rfl)
  | leaves => exact .single (.abandon _ rfl)

theorem Does.flags (does : x.Does b around y c) :
    c.raised = b.raised ∧ c.closed = b.closed ∧ c.stopped = b.stopped := by
  cases does <;> exact ⟨rfl, rfl, rfl⟩

theorem Does.origin (does : x.Does b around y c) {t : Subscription} (member : t ∈ c.subscriptions) :
    ∃ s ∈ b.subscriptions, t.listed = s.listed ∧ (t.id ≠ x.subscription → t = s) := by
  have updated {d : Bus} {f : Subscription → Subscription} {t : Subscription}
      (member : t ∈ (d.update x.subscription f).sweep.subscriptions)
      (listed : ∀ s, (f s).listed = s.listed) (same : ∀ s, (f s).id = s.id) :
      ∃ s ∈ d.subscriptions, t.listed = s.listed ∧ (t.id ≠ x.subscription → t = s) := by
    obtain ⟨s, was, rfl⟩ := List.mem_map.mp (List.mem_of_mem_filter member)
    refine ⟨s, was, ?_⟩
    by_cases hit : s.id = x.subscription
    next => simp [hit, listed, same]
    next => simp [hit]
  cases does with
  | resumes => exact ⟨t, member, rfl, fun _ => rfl⟩
  | takes => exact updated member (fun _ => rfl) fun _ => rfl
  | fails =>
    obtain ⟨u, there, listed, same⟩ := updated member (fun _ => rfl) fun _ => rfl
    obtain ⟨s, was, listed', same'⟩ := updated there (fun _ => rfl) fun _ => rfl
    refine ⟨s, was, listed.trans listed', fun other => ?_⟩
    obtain rfl := same other
    exact same' other
  | leaves => exact updated member (fun _ => rfl) fun _ => rfl

-- A worker that goes on holds its subscription, to the kinds it has asked for, and one that has
-- ended has nothing left there. What it holds in its hand has waited when it was polled last,
-- unless permits have come since.
structure Seated (x : Worker) (b : Bus) : Prop where
  present : x.ended = false → ∃ s ∈ b.subscriptions, s.id = x.subscription ∧ s.held ∧
    (b.stopped = false → s.listed) ∧ s.mask = x.subscriber.mask
  gone : x.ended → ∀ s ∈ b.subscriptions, s.id = x.subscription → s.held = false ∧ s.slot = none
  asleep : x.woken = false → ∀ k, x.holding = some k → x.HasWaited k
  awake : x.woken → x.holding.isSome

namespace Seated

theorem slot_gone (seated : x.Seated b) (ended : x.ended) : b.slotOf x.subscription = none :=
  Bus.slotOf_eq_none fun s member number => (seated.gone ended s member number).2

theorem turn (seated : x.Seated b) (sane : b.Sane) (turn : b.Turn c) : x.Seated c := by
  obtain ⟨present, gone, asleep, awake⟩ := seated
  refine ⟨fun running => ?_, fun ended t member number => ?_, asleep, awake⟩
  · obtain ⟨s, member, number, held, listed, mask⟩ := present running
    obtain ⟨t, there, same, holds, alike, -, goesOn⟩ := turn.keeps sane member held
    refine ⟨t, there, same.trans number, holds, fun still => ?_, alike.trans mask⟩
    have was : b.stopped = false := by
      cases turn <;> assumption
    exact (goesOn still).1.trans (listed was)
  · obtain ⟨s, was, same, unheld, -⟩ := turn.origin member
    obtain ⟨held, slot⟩ := gone ended s was (same.symm.trans number)
    obtain ⟨left, still⟩ := unheld held
    exact ⟨left, still.trans slot⟩

theorem slot_turn (seated : x.Seated b) (sane : b.Sane) (turn : b.Turn c) {k : Kind}
    (slot : b.slotOf x.subscription = some k) : c.slotOf x.subscription = some k := by
  cases ended : x.ended with
  | true =>
    rw [seated.slot_gone ended] at slot
    cases slot
  | false =>
    obtain ⟨s, member, number, held, -⟩ := seated.present ended
    obtain ⟨t, there, same, -, -, kept, -⟩ := turn.keeps sane member held
    rw [← number, Bus.slotOf_of_mem sane member] at slot
    rw [← number, ← same, Bus.slotOf_of_mem (sane.turn turn) there]
    exact kept k slot

theorem polled (running : x.ended = false) (present : ∃ s ∈ c.subscriptions, s.id = x.subscription ∧
    s.held ∧ (c.stopped = false → s.listed) ∧ s.mask = x.subscriber.mask) (k : Kind) :
    (x.polled around k).Seated c where
  present _ := present
  gone ended := by simp [running] at ended
  asleep _ j holding := by
    rw [polled_holding] at holding
    split at holding
    next waits =>
      cases holding
      exact ⟨x.past, around, rfl, waits⟩
    next => cases holding
  awake := nofun

theorem own (seated : x.Seated b) (running : x.ended = false) (does : x.Does b around y c) :
    y.Seated c := by
  have present := seated.present running
  obtain ⟨s, member, number, held, listed, mask⟩ := id present
  have taken : { s with slot := none } ∈ (b.take x.subscription).subscriptions :=
    number ▸ Bus.mem_take member held
  cases does with
  | resumes => exact .polled running present _
  | @takes k => exact .polled (x := x.called k) running ⟨_, taken, number, held, listed, mask⟩ _
  | fails | leaves =>
    exact ⟨nofun, fun _ _ => Bus.left_of_abandon, seated.asleep, seated.awake⟩

theorem release (seated : x.Seated b) (permits : Nat) : (x.release permits).Seated b where
  present := seated.present
  gone := seated.gone
  asleep woken k holding := by
    have holding : x.holding = some k := holding
    simp [Worker.release, holding] at woken
  awake woken := by
    rcases Bool.or_eq_true_iff.mp woken with before | holds
    · exact seated.awake before
    · exact holds

theorem beside (seated : z.Seated b) (sane : b.Sane) (does : x.Does b around y c)
    (apart : z.subscription ≠ x.subscription) : z.Seated c := by
  obtain ⟨present, gone, asleep, awake⟩ := seated
  refine ⟨fun running => ?_, fun ended t member number => ?_, asleep, awake⟩
  · obtain ⟨s, member, number, held, listed, mask⟩ := present running
    obtain ⟨-, -, stopped⟩ := does.flags
    have spared := does.uses.spares sane (fun hit => apart (number.symm.trans hit)) member
    exact ⟨s, spared, number, held, stopped ▸ listed, mask⟩
  · obtain ⟨s, was, -, same⟩ := does.origin member
    obtain rfl := same (fun hit => apart (number.symm.trans hit))
    exact gone ended t was number

theorem slot_beside (seated : z.Seated b) (sane : b.Sane) (does : x.Does b around y c)
    (apart : z.subscription ≠ x.subscription) :
    c.slotOf z.subscription = b.slotOf z.subscription := by
  cases ended : z.ended with
  | true => rw [(seated.beside sane does apart).slot_gone ended, seated.slot_gone ended]
  | false =>
    obtain ⟨s, member, number, -⟩ := seated.present ended
    have spared := does.uses.spares sane (fun hit => apart (number.symm.trans hit)) member
    rw [← number, Bus.slotOf_of_mem sane member, Bus.slotOf_of_mem (does.uses.sane sane) spared]

theorem given (seated : x.Seated b) (sane : b.Sane) (turn : b.Turn c) :
    (c.slotOf x.subscription).toList =
      (b.slotOf x.subscription).toList ++ b.given c x.subscription := by
  unfold Bus.given
  cases slot : b.slotOf x.subscription with
  | none => simp
  | some k => simp [seated.slot_turn sane turn slot]

theorem accounts (calm : x.subscriber.IsCalm) (running : x.ended = false)
    (does : x.Does b around y c) : x.holding.toList ++ (b.slotOf x.subscription).toList =
      x.handles y b ++ (y.holding.toList ++ (c.slotOf y.subscription).toList) := by
  cases does with
  | @resumes k hand =>
    by_cases waits : x.subscriber.Waits x.past around k <;> simp [handles, hand, waits, running]
  | @takes k free slot =>
    by_cases waits : x.subscriber.Waits (.called k :: x.past) around k <;>
      simp [handles, free, slot, waits, running, Bus.slotOf_take]
  | fails _ _ harsh => simp [calm _ _] at harsh
  | leaves free nothing => simp [handles, free, nothing, Bus.slotOf_abandon]

theorem heard {r : Recorder} (recorder : x.subscriber = .recorder r) (running : x.ended = false)
    (does : x.Does b around y c) : y.heard = x.heard ++ x.handles y b := by
  cases does with
  | @resumes k hand =>
    rw [polled_heard recorder]
    by_cases waits : x.subscriber.Waits x.past around k <;> simp [handles, hand, waits, running]
  | @takes k free slot =>
    rw [polled_heard (x := x.called k) recorder]
    by_cases waits : x.subscriber.Waits (.called k :: x.past) around k <;>
      simp [handles, free, slot, waits, running]
  | fails => simp [handles]
  | leaves => simp [handles]

theorem stuck (seated : x.Seated b) (still : x.canStep b = false) (running : x.ended = false) {k : Kind}
    (holding : x.holding = some k) : x.HasWaited k :=
  seated.asleep (by simpa [canStep, running, holding] using still) k holding

theorem waits (still : x.canStep b = false) (running : x.ended = false) (free : x.holding = none) :
    b.slotOf x.subscription = none ∧ ∃ s ∈ b.subscriptions, s.id = x.subscription ∧ s.listed := by
  have pending : (b.receive x.subscription).2 = .pending := by
    simpa [canStep, running, free] using still
  cases slot : b.slotOf x.subscription with
  | some k =>
    rw [Bus.receive_slot slot] at pending
    cases pending
  | none =>
    obtain ⟨-, ⟨dismissed, -⟩ | ⟨-, listens⟩⟩ := Bus.receive_free slot
    · rw [dismissed] at pending
      cases pending
    · exact ⟨rfl, listens⟩

theorem ends (deserted : b.stopped → ∀ s ∈ b.subscriptions, s.listed = false) (closed : b.closed)
    (idle : b.Idle) (still : x.canStep b = false) (free : x.holding = none) : x.ended := by
  have stopped : b.stopped := by
    by_contra running
    have opened := idle.opened (by simpa using running)
    simp [closed] at opened
  by_contra running
  obtain ⟨-, s, member, -, listed⟩ := waits still (by simpa using running) free
  simp [deserted stopped s member] at listed

end Seated

def Sits (x : Worker) (b : Bus) (handled : List Kind) (d : Desk) : Prop :=
  x.ended = false ∧ ∃ s ∈ b.subscriptions, s.id = x.subscription ∧ s.held ∧ s.listed ∧
    s.mask = x.subscriber.mask ∧
    d = { past := x.past, handled, holding := x.holding, woken := x.woken, slot := s.slot,
          pending := s.pending, word := b.raised }

namespace Sits

variable {handled : List Kind} {d : Desk}

theorem turn (sits : x.Sits b handled d) (sane : b.Sane) (opened : b.closed = false)
    (turn : b.Turn c) : ∃ e, x.Sits c handled e ∧
      e.fate x.subscriber around = d.fate x.subscriber around := by
  obtain ⟨running, s, member, number, held, listed, mask, rfl⟩ := sits
  obtain ⟨t, there, same, holds, known, alike, owed⟩ := turn.owed sane opened member held listed
  refine ⟨_, ⟨running, t, there, same.trans number, holds, known, alike.trans mask, rfl⟩, ?_⟩
  rw [Subscription.owed, Subscription.owed, alike, mask] at owed
  simp only [Desk.fate, Desk.line, owed]

theorem own (sits : x.Sits b handled d) (sane : b.Sane)
    (calm : x.subscriber.IsCalm) (does : x.Does b around y c) :
    ∃ e, y.Sits c (handled ++ x.handles y b) e ∧
      e.fate x.subscriber around = d.fate x.subscriber around := by
  obtain ⟨running, s, member, number, held, listed, mask, rfl⟩ := sits
  have taken : { s with slot := none } ∈ (b.take x.subscription).subscriptions :=
    number ▸ Bus.mem_take member held
  cases does with
  | @resumes k hand woken =>
    refine ⟨_, ⟨running, s, member, number, held, listed, mask, rfl⟩, ?_⟩
    by_cases waits : x.subscriber.Waits x.past around k <;>
      simp [Desk.fate, Desk.line, handles, hand, woken, waits, running]
  | @takes k free slot =>
    have filled : s.slot = some k := by
      rwa [← number, Bus.slotOf_of_mem sane member] at slot
    refine ⟨_, ⟨running, _, taken, number, held, listed, mask, rfl⟩, ?_⟩
    by_cases waits : x.subscriber.Waits (.called k :: x.past) around k <;>
      simp [Desk.fate, Desk.line, handles, free, slot, filled, waits, running, Subscriber.serve]
  | fails _ _ harsh => simp [calm _ _] at harsh
  | leaves _ _ unlisted =>
    simp [unlisted s (number ▸ sane.find member)] at listed

theorem beside (sits : z.Sits b handled d) (sane : b.Sane) (does : x.Does b around y c)
    (apart : z.subscription ≠ x.subscription) : z.Sits c handled d := by
  obtain ⟨running, s, member, number, held, listed, mask, rfl⟩ := sits
  obtain ⟨raised, -, -⟩ := does.flags
  have spared := does.uses.spares sane (fun hit => apart (number.symm.trans hit)) member
  exact ⟨running, s, spared, number, held, listed, mask, by rw [raised]⟩

theorem release (sits : x.Sits b handled d) (permits : Nat) :
    (x.release permits).Sits b handled (d.release permits) := by
  obtain ⟨running, s, member, number, held, listed, mask, rfl⟩ := sits
  exact ⟨running, s, member, number, held, listed, mask, rfl⟩

theorem rests (sits : x.Sits b handled d) (seated : x.Seated b) (sane : b.Sane)
    (opened : b.closed = false) (idle : b.Idle) (still : x.canStep b = false) : d.Rests := by
  obtain ⟨running, s, member, number, held, listed, -, rfl⟩ := sits
  have going := sane.running opened
  have unready := idle.unready sane going member
  refine ⟨idle.heard sane going, fun slot => ?_, fun free => ?_, ?_⟩
  · have free : s.slot = none := slot
    refine Mask.eq_empty ?_
    simpa [Subscription.isReady, listed, free] using unready
  · obtain ⟨slot, -⟩ := Seated.waits still running free
    rwa [← number, Bus.slotOf_of_mem sane member] at slot
  · by_contra woken
    have woken : x.woken := by simpa using woken
    obtain ⟨k, holding⟩ := Option.isSome_iff_exists.mp (seated.awake woken)
    simp [canStep, running, holding, woken] at still

theorem nothing (sits : x.Sits b handled d) (rests : d.Rests) (free : x.holding = none) :
    ∃ s ∈ b.subscriptions, s.id = x.subscription ∧ s.owed b.raised = [] := by
  obtain ⟨-, s, member, number, -, -, -, rfl⟩ := sits
  have heard : b.raised = .empty := rests.heard
  have slot : s.slot = none := rests.taken free
  have pending : s.pending = .empty := rests.filled slot
  refine ⟨s, member, number, ?_⟩
  rw [heard, Subscription.owed_empty, slot, pending, Mask.kinds_empty]
  rfl

end Sits

end Worker

end Egress.Event
