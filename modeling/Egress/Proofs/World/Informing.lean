import Egress.Proofs.Event.Handling
import Egress.Proofs.World.Listening

set_option autoImplicit false

namespace Egress

open Simulation

namespace World

variable {w next : World} {i : Nat} {k : Event.Kind} {x y : Event.Worker} {m : Move}

structure Employs (w : World) (i : Nat) (k : Event.Kind) (x : Event.Worker) : Prop where
  there : w.workers[i]? = some x
  serving : x.Serving w.bus k
  own : ¬w.posts.Takes (· = i) x.subscription

structure Carries (w : World) (x : Event.Worker) (next : World) (y : Event.Worker) (k : Event.Kind) :
    Prop where
  subscriber : y.subscriber = x.subscriber
  subscription : y.subscription = x.subscription
  failure : y.failure = none → x.failure = none
  handled : x.Handled w.log k → y.Handled next.log k
  owes : y.failure = none → x.Owes w.bus k → y.Handled next.log k ∨ y.Owes next.bus k

theorem Carries.refl (w : World) (x : Event.Worker) (k : Event.Kind) : Carries w x w x k :=
  ⟨rfl, rfl, id, id, fun _ => .inr⟩

theorem Carries.trans {u : World} {z : Event.Worker} (h : Carries u x w y k)
    (g : Carries w y next z k) : Carries u x next z k where
  subscriber := g.subscriber.trans h.subscriber
  subscription := g.subscription.trans h.subscription
  failure := h.failure ∘ g.failure
  handled := g.handled ∘ h.handled
  owes sound owed := by
    rcases h.owes (g.failure sound) owed with handled | still
    · exact .inl (g.handled handled)
    · exact g.owes sound still

-- The dispatcher is about to stop, and the kind that was raised for the worker is neither in its
-- hand nor going to be in its slot.
structure Cuts (w : World) (i : Nat) (k : Event.Kind) : Prop where
  running : w.bus.stopped = false
  closed : w.bus.closed
  stops : w.bus.dispatch.stopped
  raised : ∃ x, w.workers[i]? = some x ∧ x.ended = false ∧ w.bus.Brings x.subscription k ∧
    x.holding ≠ some k ∧ ¬w.bus.dispatch.Hands x.subscription k

theorem Employs.leaves (employs : w.Employs i k x)
    (leaves : Leaves (· ≠ x.subscription) (· = i) w next) :
    next.Employs i k x ∧ Carries w x next x k := by
  obtain ⟨there, ⟨asked, listens, last⟩, own⟩ := employs
  have spared : ¬(x.subscription ≠ x.subscription) := fun other => other rfl
  have stopped : next.bus.stopped = w.bus.stopped := leaves.bus.stopped
  refine ⟨⟨(leaves.workers i rfl).trans there, ⟨asked, fun sound goesOn => ?_, fun sound ended => ?_⟩,
    fun takes => own (leaves.takes _ takes)⟩, rfl, rfl, id, fun handled => ?_, fun sound owed => ?_⟩
  · exact leaves.bus.listens spared (listens sound goesOn)
  · exact stopped.trans (last sound ended)
  · exact handled.mono rfl List.suffix_rfl List.prefix_rfl leaves.log.subset
  · obtain ⟨goesOn, way⟩ := owed
    have sane := (listens sound goesOn).sane
    refine .inr ⟨goesOn, ?_⟩
    rcases way with hand | slot | ⟨running, brings⟩
    · exact .inl hand
    · exact .inr (.inl (leaves.bus.hands sane spared slot))
    · exact .inr (.inr ⟨stopped.trans running, leaves.bus.brings sane spared brings⟩)

theorem Employs.stepWorker (employs : w.Employs i k x) :
    ∃ y, (w.stepWorker i).Employs i k y ∧ Carries w x (w.stepWorker i) y k := by
  obtain ⟨there, serving, own⟩ := employs
  have follows := x.step_follows serving w.surroundings
  have inside := (List.getElem?_eq_some_iff.mp there).1
  unfold World.stepWorker
  rw [there]
  dsimp only
  generalize x.step w.surroundings w.bus = result at follows
  obtain ⟨y, bus, lines⟩ := result
  obtain ⟨subscriber, subscription, failure, past, heard, serving, owes⟩ := follows
  refine ⟨y, ⟨by simp [inside], serving, fun takes => own ?_⟩, subscriber, subscription, failure,
    fun handled => ?_, fun sound owed => ?_⟩
  · dsimp only at subscription
    rw [← subscription]
    exact takes.before rfl rfl rfl fun j z other found =>
      ⟨z, other, by simpa [posts, Ne.symm other] using found, rfl⟩
  · exact handled.mono subscriber past heard (List.subset_append_left _ _)
  · rcases owes sound owed with handled | still
    · exact .inl (handled.mono rfl List.suffix_rfl List.prefix_rfl (List.subset_append_right _ _))
    · exact .inr still

theorem Employs.pollWorker (employs : w.Employs i k x) :
    ∃ y, (w.pollWorker i).Employs i k y ∧ Carries w x (w.pollWorker i) y k := by
  unfold World.pollWorker
  induction List.range 3 generalizing w x with
  | nil => exact ⟨x, employs, .refl w x k⟩
  | cons _ rest ih =>
    rw [List.foldl_cons]
    split
    · obtain ⟨y, employs, first⟩ := employs.stepWorker
      obtain ⟨z, employs, later⟩ := ih employs
      exact ⟨z, employs, first.trans later⟩
    · exact ih employs

theorem Employs.permit (employs : w.Employs i k x) (n : Nat) :
    ∃ y, (w.move (.permit i n)).Employs i k y ∧ Carries w x (w.move (.permit i n)) y k := by
  obtain ⟨there, ⟨asked, listens, last⟩, own⟩ := employs
  refine ⟨x.release n, ⟨?_, ⟨asked, listens, last⟩, fun takes => own ?_⟩, rfl, rfl, id,
    fun handled => handled.mono rfl (List.suffix_cons _ _) List.prefix_rfl (List.Subset.refl _),
    fun _ => .inr⟩
  · simp [move, there]
  · refine takes.before rfl rfl rfl fun j z other found => ⟨z, other, ?_, rfl⟩
    simpa [posts, move, List.getElem?_modify, Ne.symm other] using found

theorem Employs.move (employs : w.Employs i k x) (allowed : w.allows m)
    (other : m ≠ .poll .dispatcher) :
    ∃ y, (w.move m).Employs i k y ∧ Carries w x (w.move m) y k := by
  by_cases concerns : m.Concerns (· = i)
  next =>
    unfold Move.Concerns at concerns
    split at concerns
    · exact absurd rfl other
    · subst concerns
      exact employs.pollWorker
    · subst concerns
      exact employs.permit _
    · exact concerns.elim
  next =>
    have leaves : Leaves (· ≠ x.subscription) (· = i) w (w.move m) := by
      refine move_leaves allowed concerns (fun n takes same => ?_) fun n takes same => ?_
      · exact employs.own (same ▸ takes)
      · -- Nobody outside takes from what is one's own.
        subst same
        have own : w.isOwnSubscription x.subscription := by
          have listens : w.workers.any (·.subscription = x.subscription) :=
            List.any_eq_true.mpr ⟨x, List.mem_of_getElem? employs.there, by simp⟩
          simp [isOwnSubscription, listens]
        cases m with
        | receive n | unsubscribe n =>
          cases takes
          have free : w.isOwnSubscription x.subscription = false := allowed
          rw [own] at free
          cases free
        | _ => cases takes
    exact ⟨x, employs.leaves leaves⟩

-- A dispatcher that goes on forgets nothing. One that stops leaves what it has not handed over.
theorem Employs.dispatch (employs : w.Employs i k x) :
    (w.move (.poll .dispatcher)).Employs i k x ∧
      (x.failure = none → x.Owes w.bus k →
        x.Owes (w.move (.poll .dispatcher)).bus k ∨ w.Cuts i k) := by
  obtain ⟨there, ⟨asked, listens, last⟩, own⟩ := employs
  refine ⟨⟨there, ⟨asked, fun sound goesOn => ?_, fun sound ended => ?_⟩, own⟩, fun sound owed => ?_⟩
  · obtain ⟨n, turns⟩ := (listens sound goesOn).sane.turns
    exact turns.listens (listens sound goesOn)
  · have stopped := last sound ended
    simp [World.move, poll, Event.Bus.dispatch, Event.Bus.turns, Event.Bus.turn?, stopped]
  · obtain ⟨goesOn, way⟩ := owed
    have listening := listens sound goesOn
    obtain ⟨n, turns⟩ := listening.sane.turns
    rcases way with hand | slot | ⟨running, brings⟩
    · exact .inl ⟨goesOn, .inl hand⟩
    · exact .inl ⟨goesOn, .inr (.inl (turns.hands listening slot))⟩
    · cases stops : w.bus.dispatch.stopped with
      | false => exact .inl ⟨goesOn, .inr (.inr ⟨stops, turns.brings listening stops brings⟩)⟩
      | true =>
        by_cases hand : x.holding = some k
        next => exact .inl ⟨goesOn, .inl hand⟩
        next =>
          by_cases slot : w.bus.dispatch.Hands x.subscription k
          next => exact .inl ⟨goesOn, .inr (.inl slot)⟩
          next =>
            have closed := (turns.sane listening.sane).stops stops
            rw [turns.closed] at closed
            exact .inr ⟨running, closed, stops, x, there, goesOn, brings, hand, slot⟩

def asksShutdown (w : World) : Move → Bool
  | .raise kind => kind == .shutdownRequested
  | .poll (.call id) =>
    match w.call? id with
    | some (.run .fresh) => w.shutdownRequests.isSome && (Signal.awaited w.signals).isSome
    | some (.run (.waiting _)) => (Signal.awaited w.signals).isSome
    | _ => false
  | _ => false

theorem awaitShutdown_raises (signals : (Signal.awaited w.signals).isSome) (id : String) (n : Nat) :
    Event.Bus.Uses (fun _ => False) (w.bus.raise .shutdownRequested)
      (w.awaitShutdown id n).bus := by
  obtain ⟨signal, awaited⟩ := Option.isSome_iff_exists.mp signals
  have shuts : Leaves (fun _ => False) (fun _ => False)
      (({ w with signals := [] } : World).raise .shutdownRequested)
      ((({ w with signals := [] } : World).raise .shutdownRequested).shutDown id) :=
    shutDown_leaves (.refl _)
  unfold awaitShutdown
  rw [awaited]
  exact shuts.bus

theorem asksShutdown_raises (asks : w.asksShutdown m) :
    Event.Bus.Uses (fun _ => False) (w.bus.raise .shutdownRequested) (w.move m).bus := by
  unfold asksShutdown at asks
  split at asks
  next kind =>
    obtain rfl : kind = .shutdownRequested := by simpa using asks
    exact .refl
  next id =>
    have polled : w.move (.poll (.call id)) = w.pollCall id := rfl
    rw [polled]
    unfold pollCall
    split at asks
    next found =>
      rw [found]
      simp only [Bool.and_eq_true] at asks
      obtain ⟨n, requested⟩ := Option.isSome_iff_exists.mp asks.1
      simp only [pollRun, requested]
      exact awaitShutdown_raises (w := { w with shutdownRequests := none }) asks.2 id n
    next n found =>
      rw [found]
      exact awaitShutdown_raises asks id n
    next => cases asks
  next => cases asks

-- At its next poll whoever runs the whole returns, and not only because somebody else does that.
def Returns (w : World) (id : String) : Prop :=
  ∃ stage, w.call? id = some (.run stage) ∧ (stage = .fresh → w.shutdownRequests.isSome) ∧
    (w.move (.poll (.call id))).call? id = none

section Returns

variable {u : World} {id : String}

theorem call?_setCall_self (running : (w.call? id).isSome) (c : Call) :
    (w.setCall id c).call? id ≠ none := by
  obtain ⟨old, found⟩ := Option.isSome_iff_exists.mp running
  simp [call?_setCall, found]

theorem joinFrom_calls (room i : Nat) (w : World) : (joinFrom room i w).1.calls = w.calls := by
  induction room generalizing i w with
  | zero => rfl
  | succ room ih =>
    unfold joinFrom
    split
    · rfl
    · split
      · rfl
      · dsimp only
        split <;> exact ih _ _

theorem joinWorkers_returns (running : (w.call? id).isSome) {worker : Nat}
    (before : w.posts.HasEnded worker) (gone : (w.joinWorkers id worker).call? id = none) :
    ∀ i, w.posts.HasEnded i := by
  have through := (joinFrom_ended (w.workers.length + 1) worker w before).2
  have calls : (w.join worker).1.call? id = w.call? id :=
    congrArg (·.lookup id) (joinFrom_calls _ _ w)
  unfold joinWorkers at gone
  unfold join at calls gone
  generalize joinFrom (w.workers.length + 1) worker w = result at through calls gone
  obtain ⟨v, next⟩ := result
  cases next with
  | none => exact through rfl (by omega)
  | some i => exact absurd gone (call?_setCall_self (calls ▸ running) _)

theorem awaitWatch_returns (running : (w.call? id).isSome)
    (gone : (w.awaitWatch id).call? id = none) : ∀ i, w.posts.HasEnded i := by
  unfold awaitWatch at gone
  split at gone
  · exact joinWorkers_returns (w := { w with bus := w.bus.close }) running (Posts.hasEnded_zero _)
      gone
  · exact absurd gone (call?_setCall_self running _)

theorem runDisconnect_returns {run : RunStage} (running : w.governing? id = some (.run run))
    (stage : ReconnectStage) (gone : (w.runDisconnect id stage).call? id = none) :
    ∀ i, w.posts.HasEnded i := by
  have speaks : Speaks (fun _ => True) w (w.pollReconnect id {} stage).1 :=
    w.pollReconnect_speaks id {} stage
  have running : ((w.pollReconnect id {} stage).1.call? id).isSome := by
    have same : (w.pollReconnect id {} stage).1.governing? = w.governing? :=
      congrArg Posts.calls speaks.posts
    rw [← same] at running
    simp [call?_of_governing running]
  rw [← speaks.posts]
  unfold runDisconnect at gone
  generalize w.pollReconnect id {} stage = result at gone running
  obtain ⟨v, next⟩ := result
  cases next with
  | none =>
    exact awaitWatch_returns
      (w := { v with supervisor := { v.supervisor with stopping := true } }) running gone
  | some stage => exact absurd gone (call?_setCall_self running _)

theorem awaitShutdown_returns {run : RunStage} (running : w.governing? id = some (.run run)) {n : Nat}
    (gone : (w.awaitShutdown id n).call? id = none) : ∀ i, w.posts.HasEnded i := by
  have found := call?_of_governing running
  unfold awaitShutdown at gone
  split at gone
  · exact runDisconnect_returns (w :=
      { ({ w with signals := [] } : World).raise .shutdownRequested with
        scopes := w.scopes.cancel w.root }) running .fresh gone
  · split at gone
    next bus _ =>
      have running : (({ w with bus } : World).call? id).isSome :=
        Option.isSome_iff_exists.mpr ⟨_, found⟩
      exact absurd gone (call?_setCall_self running _)
    next bus _ _ _ =>
      exact runDisconnect_returns (w := { w with bus, scopes := w.scopes.cancel w.root }) running
        .fresh gone

theorem Returns.ended (returns : w.Returns id) (joined : w.posts.IsJoined) :
    ∀ (i : Nat) x, w.workers[i]? = some x → x.ended := by
  obtain ⟨stage, found, begins, gone⟩ := returns
  have running := governing_of_call found rfl
  have all : ∀ i, w.posts.HasEnded i := by
    have polled : w.move (.poll (.call id)) = w.pollRun id stage := by
      simp [move, poll, pollCall, found]
    rw [polled] at gone
    cases stage with
    | fresh =>
      obtain ⟨n, requested⟩ := Option.isSome_iff_exists.mp (begins rfl)
      simp only [pollRun, requested] at gone
      exact awaitShutdown_returns (w := { w with shutdownRequests := none }) running gone
    | waiting n => exact awaitShutdown_returns running gone
    | disconnecting stage => exact runDisconnect_returns running stage gone
    | unwatching => exact awaitWatch_returns (by simp [found]) gone
    | joining worker =>
      exact joinWorkers_returns (by simp [found]) (joined id worker running) gone
  exact fun i x there => all (i + 1) i (Nat.lt_succ_self i) x there

end Returns

section Runs

variable {u v : World}

def HasHandled (w : World) (i : Nat) (k : Event.Kind) : Prop :=
  ∃ x, w.workers[i]? = some x ∧ x.Handled w.log k

def IsDue (w : World) (i : Nat) (k : Event.Kind) : Prop :=
  ∃ x, w.workers[i]? = some x ∧ x.Owes w.bus k

def Loses (u v : World) (i : Nat) (k : Event.Kind) : Prop :=
  ∃ w, Run (fun _ => True) u w ∧ w.Cuts i k ∧
    Run (fun _ => True) (w.move (.poll .dispatcher)) v

-- What the subscriber has heard of a shutdown that was asked for in `u`. When whoever runs the
-- whole returns, nothing is due any more.
structure Informs (u v : World) (i : Nat) (k : Event.Kind) : Prop where
  told : v.HasHandled i k ∨ v.IsDue i k ∨ Loses u v i k
  returned : ∀ id, v.Returns id → v.HasHandled i k ∨ Loses u v i k

theorem Employs.run (employs : u.Employs i k x) (run : Run (fun _ => True) u v) :
    ∃ y, v.Employs i k y ∧ y.subscriber = x.subscriber := by
  induction run with
  | refl => exact ⟨x, employs, rfl⟩
  | tail _ goes ih =>
    obtain ⟨y, before, same⟩ := ih
    obtain ⟨m, -, allowed, rfl⟩ := goes
    by_cases dispatches : m = .poll .dispatcher
    next =>
      subst dispatches
      exact ⟨y, before.dispatch.1, same⟩
    next =>
      obtain ⟨z, after, carries⟩ := before.move allowed dispatches
      exact ⟨z, after, carries.subscriber.trans same⟩

theorem Loses.goes (loses : Loses u w i k) (goes : Goes (fun _ => True) w next) :
    Loses u next i k := by
  obtain ⟨z, before, cuts, after⟩ := loses
  exact ⟨z, before, cuts, after.tail goes⟩

theorem Employs.told (employs : u.Employs i k x) (owed : x.failure = none → x.Owes u.bus k)
    (run : Run (fun _ => True) u v) : ∃ y, v.Employs i k y ∧
      (y.failure = none → y.Handled v.log k ∨ y.Owes v.bus k ∨ Loses u v i k) := by
  induction run with
  | refl => exact ⟨x, employs, fun sound => .inr (.inl (owed sound))⟩
  | tail before goes ih =>
    obtain ⟨y, there, told⟩ := ih
    obtain ⟨m, -, allowed, rfl⟩ := id goes
    by_cases dispatches : m = .poll .dispatcher
    next =>
      subst dispatches
      obtain ⟨after, owes⟩ := there.dispatch
      refine ⟨y, after, fun sound => ?_⟩
      rcases told sound with handled | owed | gone
      · exact .inl handled
      · rcases owes sound owed with still | cuts
        · exact .inr (.inl still)
        · exact .inr (.inr ⟨_, before, cuts, .refl⟩)
      · exact .inr (.inr (gone.goes goes))
    next =>
      obtain ⟨z, after, carries⟩ := there.move allowed dispatches
      refine ⟨z, after, fun sound => ?_⟩
      rcases told (carries.failure sound) with handled | owed | gone
      · exact .inl (carries.handled handled)
      · rcases carries.owes sound owed with handled | still
        · exact .inl handled
        · exact .inr (.inl still)
      · exact .inr (.inr (gone.goes goes))

theorem Posted.run (posted : u.Posted) (run : Run (fun _ => True) u v) : v.Posted := by
  induction run with
  | refl => exact posted
  | tail _ goes ih =>
    obtain ⟨m, -, allowed, rfl⟩ := goes
    exact ih.move allowed

theorem Employs.asked (employs : u.Employs i .shutdownRequested x) (posted : u.Posted)
    (allowed : u.allows m) (asks : u.asksShutdown m) (running : u.bus.stopped = false) :
    ∃ y, (u.move m).Employs i .shutdownRequested y ∧
      (y.failure = none → y.Owes (u.move m).bus .shutdownRequested) := by
  have other : m ≠ .poll .dispatcher := by
    rintro rfl
    cases asks
  obtain ⟨y, there, -⟩ := employs.move allowed other
  refine ⟨y, there, fun sound => ?_⟩
  have raises := asksShutdown_raises asks
  have raised : Event.Bus.Use (fun _ => False) u.bus (u.bus.raise .shutdownRequested) := .raise _
  have still : (u.move m).bus.stopped = false :=
    raises.stopped.trans (raised.stopped.trans running)
  have goesOn : y.ended = false := by
    by_contra ended
    have stopped := there.serving.last sound (by simpa using ended)
    rw [still] at stopped
    cases stopped
  refine ⟨goesOn, .inr (.inr ⟨still, ?_⟩)⟩
  exact raises.brings (posted.sane.raise _) id (Event.Bus.brings_raise _ _ _)

end Runs

end World

namespace Scenario.Setup

variable {s : Setup} {u v : World} {m : Move}

theorem build_workers (s : Setup) : s.build.workers.map (·.subscriber) = s.roster := by
  cases runtime : s.runtime.isSome with
  | true =>
    refine build_grows (p := fun before w => w.workers.map (·.subscriber) = before) runtime
      (fun {w} assembled => ?_) fun subscriber known => ?_
    · have speaks : World.Speaks (fun _ => True) w (w.swap w.storedParams).1 := w.swap_speaks _
      have none : (w.swap w.storedParams).1.workers = [] :=
        congrArg Posts.workers (speaks.posts.trans assembled.posts)
      rw [none, List.map_nil]
    · simp [World.addWorker, World.spawn, known]
  | false =>
    have none : s.runtime = none := by simpa using runtime
    unfold build
    rw [if_neg (by simp [runtime]), roster, none]
    rfl

theorem build_employs {i : Nat} {subscriber : Event.Subscriber} {k : Event.Kind}
    (there : s.roster[i]? = some subscriber)
    (asked : (Event.Mask.ofKinds subscriber.kinds).contains k) :
    ∃ x, s.build.Employs i k x ∧ x.subscriber = subscriber := by
  rw [← s.build_workers, List.getElem?_map, Option.map_eq_some_iff] at there
  obtain ⟨x, found, rfl⟩ := there
  have staffed := s.build_staffed
  have fresh := staffed.fresh i x found
  refine ⟨x, ⟨found, ⟨asked, fun _ _ => staffed.listens i x k found asked, fun _ ended => ?_⟩,
    staffed.apart i x found⟩, rfl⟩
  rw [fresh] at ended
  cases ended

-- A subscriber that has asked for it, and does not fail, hears of every shutdown that is asked for
-- before the dispatcher has stopped, unless that stops on it. If it hears, it has heard by the time
-- that whoever runs the whole returns.
theorem shutdown_informs (reached : s.Reaches (fun _ => True) u) (allowed : u.allows m)
    (asks : u.asksShutdown m) (running : u.bus.stopped = false)
    (run : World.Run (fun _ => True) (u.move m) v) {i : Nat} {subscriber : Event.Subscriber}
    (there : s.roster[i]? = some subscriber)
    (asked : (Event.Mask.ofKinds subscriber.kinds).contains .shutdownRequested)
    (sound : ∀ x, v.workers[i]? = some x → x.failure = none) :
    World.Informs (u.move m) v i .shutdownRequested := by
  obtain ⟨x, first, -⟩ := build_employs there asked
  obtain ⟨y, before, -⟩ := first.run reached
  have posted : u.Posted := s.build_staffed.toPosted.run reached
  obtain ⟨z, after, owed⟩ := before.asked posted allowed asks running
  obtain ⟨last, employs, told⟩ := after.told owed run
  have known := told (sound last employs.there)
  refine ⟨?_, fun id returns => ?_⟩
  · rcases known with handled | due | gone
    · exact .inl ⟨last, employs.there, handled⟩
    · exact .inr (.inl ⟨last, employs.there, due⟩)
    · exact .inr (.inr gone)
  · rcases known with handled | due | gone
    · exact .inl ⟨last, employs.there, handled⟩
    · have ended := returns.ended ((posted.move allowed).run run).joined i last employs.there
      rw [due.1] at ended
      cases ended
    · exact .inr gone

def attentive : Setup where
  settings := { addressPollInterval := { nanos := 0 } }
  subscribers := [.recorder { name := "s", kinds := [.shutdownRequested] }]
  runtime := some {}

def signalled : World :=
  attentive.build.along
    [fun _ => .run "r", fun _ => .poll (.call "r"), fun _ => .signal .terminate]

-- By the time the dispatcher looks, the bus is closed.
def unheard : World :=
  (signalled.move (.poll (.call "r"))).along [fun _ => .poll .dispatcher, fun _ => .poll (.worker 0)]

theorem unheard_returns : unheard.Returns "r" :=
  ⟨.joining 0, by decide +kernel, nofun, by decide +kernel⟩

theorem unheard_unhandled : ¬unheard.HasHandled 0 .shutdownRequested := by
  have silent : (unheard.workers[0]?).all (·.past.isEmpty) := by decide +kernel
  rintro ⟨x, there, past, around, polled, -⟩
  rw [there] at silent
  rw [List.isEmpty_iff.mp silent, List.suffix_nil] at polled
  cases polled

theorem informs_unheard :
    World.Loses (signalled.move (.poll (.call "r"))) unheard 0 .shutdownRequested := by
  have reached : attentive.Reaches (fun _ => True) signalled := World.run_along (by decide +kernel)
  have run : World.Run (fun _ => True) (signalled.move (.poll (.call "r"))) unheard :=
    World.run_along (by decide +kernel)
  have informs : World.Informs (signalled.move (.poll (.call "r"))) unheard 0 .shutdownRequested :=
    shutdown_informs reached (by decide +kernel) (by decide +kernel) (by decide +kernel) run rfl
      (by decide) (by decide +kernel)
  exact (informs.returned "r" unheard_returns).resolve_left unheard_unhandled

theorem shutdown_unheard :
    ∃ u v, attentive.Reaches (fun _ => True) u ∧ u.allows (.poll (.call "r")) ∧
      u.asksShutdown (.poll (.call "r")) ∧ u.bus.closed = false ∧
      World.Run (fun _ => True) (u.move (.poll (.call "r"))) v ∧ v.Returns "r" ∧
      (v.move (.poll (.call "r"))).finished = [("r", .word "stopped")] ∧
      v.workers.map (·.failure) = [none] ∧ ¬v.HasHandled 0 .shutdownRequested := by
  refine ⟨signalled, unheard, World.run_along ?_, ?_, ?_, ?_, World.run_along ?_, unheard_returns, ?_,
    ?_, unheard_unhandled⟩
  all_goals decide +kernel

end Scenario.Setup

end Egress
