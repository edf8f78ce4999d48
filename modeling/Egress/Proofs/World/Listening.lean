import Egress.Proofs.World.Telling

set_option autoImplicit false

namespace Egress

open Simulation Tunnel

namespace Posts

def Takes (mine : Nat → Prop) (p : Posts) (n : Nat) : Prop :=
  p.inbox = n ∨ p.requests = some n ∨ (∃ id, p.calls id = some (.run (.waiting n))) ∨
    ∃ j x, ¬mine j ∧ p.workers[j]? = some x ∧ x.subscription = n

def HasEnded (p : Posts) (i : Nat) : Prop := ∀ j < i, ∀ x, p.workers[j]? = some x → x.ended

theorem hasEnded_zero (p : Posts) : p.HasEnded 0 := fun j before => absurd before (Nat.not_lt_zero j)

def IsJoined (p : Posts) : Prop :=
  ∀ id i, p.calls id = some (.run (.joining i)) → p.HasEnded i

theorem Takes.before {mine more : Nat → Prop} {p q : Posts} {n : Nat} (takes : q.Takes mine n)
    (inbox : q.inbox = p.inbox) (requests : q.requests = p.requests) (calls : q.calls = p.calls)
    (workers : ∀ j x, ¬mine j → q.workers[j]? = some x →
      ∃ y, ¬more j ∧ p.workers[j]? = some y ∧ y.subscription = x.subscription) :
    p.Takes more n := by
  rcases takes with same | same | waits | ⟨j, x, others, found, same⟩
  · exact .inl (inbox ▸ same)
  · exact .inr (.inl (requests ▸ same))
  · exact .inr (.inr (.inl (calls ▸ waits)))
  · obtain ⟨y, others, there, before⟩ := workers j x others found
    exact .inr (.inr (.inr ⟨j, y, others, there, before.trans same⟩))

theorem Takes.anyhow {mine : Nat → Prop} {p : Posts} {n : Nat} (takes : p.Takes mine n) :
    p.Takes (fun _ => False) n :=
  takes.before rfl rfl rfl fun _ x _ found => ⟨x, id, found, rfl⟩

end Posts

namespace Move

def subscription? : Move → Option Nat
  | .receive subscription | .unsubscribe subscription => some subscription
  | _ => none

def Concerns (mine : Nat → Prop) : Move → Prop
  | .poll .dispatcher => True
  | .poll (.worker i) | .permit i _ => mine i
  | _ => False

end Move

namespace World

-- A step in which my workers stay as they are, of the subscriptions only those in reach are used,
-- nobody comes to take from another one, and workers are joined in order.
structure Leaves (reach mine : Nat → Prop) (w next : World) : Prop where
  bus : Event.Bus.Uses reach w.bus next.bus
  takes : ∀ n, next.posts.Takes mine n → w.posts.Takes mine n
  joins : w.posts.IsJoined → next.posts.IsJoined
  workers : ∀ i, mine i → next.workers[i]? = w.workers[i]?
  log : w.log <+: next.log

variable {reach mine : Nat → Prop} {u w next : World} {id : String} {c : Call}

theorem Speaks.leaves (speaks : Speaks reach w next) : Leaves reach mine w next where
  bus := speaks.bus
  takes _ takes := speaks.posts ▸ takes
  joins joined := speaks.posts ▸ joined
  workers i _ := congrArg (·[i]?) (congrArg Posts.workers speaks.posts)
  log := speaks.log

theorem Tells.leaves (tells : Tells reach w next) : Leaves reach mine w next := tells.toSpeaks.leaves

namespace Leaves

theorem refl (w : World) : Leaves reach mine w w := (Speaks.refl w).leaves

theorem trans (h : Leaves reach mine u w) (k : Leaves reach mine w next) :
    Leaves reach mine u next where
  bus := h.bus.trans k.bus
  takes n := h.takes n ∘ k.takes n
  joins := k.joins ∘ h.joins
  workers i hers := (k.workers i hers).trans (h.workers i hers)
  log := h.log.trans k.log

theorem alter (leaves : Leaves reach mine w u) (bus : next.bus = u.bus)
    (inbox : next.supervisor.inbox = u.supervisor.inbox)
    (requests : next.shutdownRequests = u.shutdownRequests) (workers : next.workers = u.workers)
    (log : next.log = u.log)
    (calls : ∀ other stage, next.governing? other = some (.run stage) →
      u.governing? other = some (.run stage) ∨
        (∀ n, stage = .waiting n → w.posts.Takes mine n) ∧
          ∀ i, stage = .joining i → w.posts.IsJoined → u.posts.HasEnded i) :
    Leaves reach mine w next where
  bus := bus ▸ leaves.bus
  takes n takes := by
    rcases takes with same | same | ⟨other, same⟩ | ⟨j, x, others, found, same⟩
    · exact leaves.takes n (.inl (inbox.symm.trans same))
    · exact leaves.takes n (.inr (.inl (requests.symm.trans same)))
    · rcases calls other _ same with was | ⟨waits, -⟩
      · exact leaves.takes n (.inr (.inr (.inl ⟨other, was⟩)))
      · exact waits n rfl
    · refine leaves.takes n (.inr (.inr (.inr ⟨j, x, others, ?_, same⟩)))
      exact (congrArg (·[j]?) workers).symm.trans found
  joins joined other i same j before x found := by
    have found : u.posts.workers[j]? = some x := (congrArg (·[j]?) workers).symm.trans found
    rcases calls other _ same with was | ⟨-, joins⟩
    · exact leaves.joins joined other i was j before x found
    · exact joins i rfl joined j before x found
  workers i hers := (congrArg (·[i]?) workers).trans (leaves.workers i hers)
  log := log ▸ leaves.log

theorem setCall (leaves : Leaves reach mine w u)
    (takes : ∀ n, c = .run (.waiting n) → w.posts.Takes mine n)
    (joins : ∀ i, c = .run (.joining i) → w.posts.IsJoined → u.posts.HasEnded i) :
    Leaves reach mine w (u.setCall id c) := by
  refine leaves.alter rfl rfl rfl rfl rfl fun other stage now => ?_
  rw [governing?_setCall] at now
  split at now
  · obtain ⟨was, -⟩ := Option.filter_eq_some_iff.mp now
    obtain ⟨old, -, same⟩ := Option.map_eq_some_iff.mp was
    refine .inr ⟨fun n waits => takes n ?_, fun i joining => joins i ?_⟩
    · rw [same, waits]
    · rw [same, joining]
  · exact .inl now

theorem addCall (leaves : Leaves reach mine w u)
    (fresh : ∀ stage, c = .run stage → stage = .fresh) : Leaves reach mine w (u.addCall id c) := by
  refine leaves.alter rfl rfl rfl rfl rfl fun other stage now => ?_
  rw [governing?_addCall] at now
  split at now
  · have same := Option.some.inj (Option.filter_eq_some_iff.mp now).1
    obtain rfl := fresh stage same
    exact .inr ⟨nofun, nofun⟩
  · exact .inl now

theorem finish (leaves : Leaves reach mine w u) (f : Finish) :
    Leaves reach mine w (u.finish id f) := by
  refine leaves.alter rfl rfl rfl rfl rfl fun other n now => ?_
  rw [governing?_finish] at now
  split at now
  · cases now
  · exact .inl now

end Leaves

section Reconnecting

variable (w)

theorem awaitDrain_speaks (generation : Nat) : Speaks reach w (w.awaitDrain generation).1 := by
  unfold awaitDrain
  split
  · exact .silent rfl rfl rfl
  · exact .refl w

theorem swap_speaks (params : Server.Params) : Speaks reach w (w.swap params).1 := by
  unfold swap
  dsimp only
  split
  · exact .silent rfl rfl rfl
  · split
    · exact .silent rfl rfl rfl
    · refine Speaks.trans ?_ (awaitDrain_speaks _ _)
      refine Speaks.trans ?_ (setConnectivity_tells _ _ _).toSpeaks
      exact .silent rfl rfl rfl

theorem pollReconnect_speaks (call : String) (params : Server.Params) (stage : ReconnectStage) :
    Speaks reach w (w.pollReconnect call params stage).1 := by
  cases stage with
  | fresh =>
    unfold pollReconnect
    dsimp only
    split
    · refine Speaks.trans ?_ (swap_speaks _ params)
      exact .silent rfl rfl rfl
    · exact .silent rfl rfl rfl
  | locking =>
    unfold pollReconnect
    dsimp only
    split
    · exact w.swap_speaks params
    · exact .refl w
  | draining generation => exact w.awaitDrain_speaks generation

theorem pollReconnectCall_leaves (params : Server.Params) (stage : ReconnectStage) :
    Leaves reach mine w (w.pollReconnectCall id params stage) := by
  have polled : Leaves reach mine w (w.pollReconnect id params stage).1 :=
    (w.pollReconnect_speaks id params stage).leaves
  unfold pollReconnectCall
  generalize w.pollReconnect id params stage = result at polled
  obtain ⟨u, next⟩ := result
  cases next with
  | none => exact polled.finish _
  | some stage => exact polled.setCall nofun nofun

theorem storeParams_speaks (params : Server.Params) : Speaks reach w (w.storeParams params) := by
  unfold storeParams
  split <;> exact .silent rfl rfl rfl

theorem pollSetParams_leaves (params : Server.Params) (stage : ReconnectStage) :
    Leaves reach mine w (w.pollSetParams id params stage) := by
  have polled (u : World) (stored : Speaks reach w u) :
      Leaves reach mine w (setParamsProgress id params (u.pollReconnect id params stage)) := by
    have polled : Speaks reach w (u.pollReconnect id params stage).1 :=
      stored.trans (u.pollReconnect_speaks id params stage)
    generalize u.pollReconnect id params stage = result at polled
    obtain ⟨v, next⟩ := result
    cases next with
    | none => exact (polled.trans (raise_tells _ _).toSpeaks).leaves.finish _
    | some stage => exact polled.leaves.setCall nofun nofun
  cases stage with
  | fresh => exact polled _ (w.storeParams_speaks params)
  | locking | draining => exact polled _ (.refl w)

end Reconnecting

section Running

theorem joinFrom_ended (room i : Nat) (w : World) (before : w.posts.HasEnded i) :
    (∀ j, (joinFrom room i w).2 = some j → w.posts.HasEnded j) ∧
      ((joinFrom room i w).2 = none → w.workers.length < i + room → ∀ j, w.posts.HasEnded j) := by
  induction room generalizing i w with
  | zero =>
    refine ⟨by simp [joinFrom], fun _ enough j k _ x found => before k ?_ x found⟩
    have inside := (List.getElem?_eq_some_iff.mp found).1
    exact Nat.lt_trans inside enough
  | succ room ih =>
    unfold joinFrom
    cases found : w.workers[i]? with
    | none =>
      refine ⟨by simp, fun _ _ j k _ x there => before k ?_ x there⟩
      have inside : k < w.workers.length := (List.getElem?_eq_some_iff.mp there).1
      have outside := List.getElem?_eq_none_iff.mp found
      omega
    | some worker =>
      dsimp only
      split
      next running =>
        refine ⟨fun j same => ?_, by simp⟩
        cases same
        exact before
      next ended =>
        have more : w.posts.HasEnded (i + 1) := by
          intro k within x there
          by_cases last : k = i
          next =>
            have same : some x = some worker := there.symm.trans (last ▸ found)
            cases same
            simpa using ended
          next => exact before k (by omega) x there
        have onward (u : World) (same : u.posts = w.posts) :
            (∀ j, (joinFrom room (i + 1) u).2 = some j → w.posts.HasEnded j) ∧
              ((joinFrom room (i + 1) u).2 = none → w.workers.length < i + (room + 1) →
                ∀ j, w.posts.HasEnded j) := by
          have workers : u.workers = w.workers := congrArg Posts.workers same
          obtain ⟨stops, through⟩ := ih (i + 1) u (same ▸ more)
          rw [same, workers] at through
          rw [same] at stops
          refine ⟨stops, fun last enough => through last ?_⟩
          omega
        split <;> exact onward _ rfl

theorem joinWorkers_leaves (leaves : Leaves reach mine w u) {worker : Nat}
    (before : w.posts.IsJoined → u.posts.HasEnded worker) :
    Leaves reach mine w (u.joinWorkers id worker) := by
  have tells : Tells reach u (u.join worker).1 := u.join_tells worker
  have joined := leaves.trans tells.leaves
  have ended (i : Nat) (stops : (u.join worker).2 = some i) (order : w.posts.IsJoined) :
      (u.join worker).1.posts.HasEnded i := by
    rw [tells.posts]
    exact (joinFrom_ended _ worker u (before order)).1 i stops
  unfold joinWorkers
  generalize u.join worker = result at joined ended
  obtain ⟨v, next⟩ := result
  cases next with
  | none => exact joined.finish _
  | some i =>
    refine joined.setCall nofun fun j same => ?_
    cases same
    exact ended i rfl

theorem awaitWatch_leaves (leaves : Leaves reach mine w u) :
    Leaves reach mine w (u.awaitWatch id) := by
  unfold awaitWatch
  split
  · refine joinWorkers_leaves (leaves.trans ?_) fun _ => Posts.hasEnded_zero _
    exact Tells.leaves (.use .close rfl rfl rfl)
  · exact leaves.setCall nofun nofun

theorem runDisconnect_leaves (leaves : Leaves reach mine w u) (stage : ReconnectStage) :
    Leaves reach mine w (u.runDisconnect id stage) := by
  have polled := leaves.trans (u.pollReconnect_speaks id {} stage).leaves
  unfold runDisconnect
  generalize u.pollReconnect id {} stage = result at polled
  obtain ⟨v, next⟩ := result
  cases next with
  | none => exact awaitWatch_leaves (polled.trans (Speaks.leaves (.silent rfl rfl rfl)))
  | some stage => exact polled.setCall nofun nofun

theorem shutDown_leaves (leaves : Leaves reach mine w u) : Leaves reach mine w (u.shutDown id) := by
  refine runDisconnect_leaves (leaves.trans (Speaks.leaves ?_)) .fresh
  exact .silent rfl rfl rfl

theorem awaitShutdown_leaves (leaves : Leaves reach mine w u) {n : Nat} (reached : reach n)
    (takes : w.posts.Takes mine n) : Leaves reach mine w (u.awaitShutdown id n) := by
  unfold awaitShutdown
  split
  · refine shutDown_leaves (leaves.trans (Tells.leaves ?_))
    exact .use (.raise .shutdownRequested) rfl rfl rfl
  · split
    next bus waits =>
      have same : bus = u.bus := Event.Bus.receive_pending waits
      subst same
      refine leaves.setCall (fun m waiting => ?_) nofun
      cases waiting
      exact takes
    next bus receipt _ result =>
      refine shutDown_leaves (leaves.trans (Tells.leaves ?_))
      have bus : bus = (u.bus.receive n).1 := by rw [result]
      subst bus
      exact .use (.receive n reached) rfl rfl rfl

theorem pollRun_leaves {stage : RunStage} (found : w.call? id = some (.run stage))
    (reached : ∀ n, w.posts.Takes mine n → reach n) : Leaves reach mine w (w.pollRun id stage) := by
  cases stage with
  | fresh =>
    unfold pollRun
    dsimp only
    split
    · exact (Leaves.refl w).finish _
    next n asked =>
      have takes : w.posts.Takes mine n := .inr (.inl asked)
      have handed : Leaves reach mine w { w with shutdownRequests := none } := by
        refine ⟨.refl, fun m takes => ?_, fun joined => joined, fun _ _ => rfl, List.prefix_rfl⟩
        rcases takes with same | same | rest
        · exact .inl same
        · cases same
        · exact .inr (.inr rest)
      exact awaitShutdown_leaves handed (reached n takes) takes
  | waiting n =>
    have takes : w.posts.Takes mine n := by
      refine .inr (.inr (.inl ⟨id, ?_⟩))
      simp [posts, governing?, found, Call.governs]
    exact awaitShutdown_leaves (.refl w) (reached n takes) takes
  | disconnecting stage => exact runDisconnect_leaves (.refl w) stage
  | unwatching => exact awaitWatch_leaves (.refl w)
  | joining worker =>
    refine joinWorkers_leaves (.refl w) fun joined => joined id worker ?_
    simp [posts, governing?, found, Call.governs]

end Running

theorem stepWorker_leaves {j : Nat} (others : ¬mine j)
    (reached : ∀ x, w.workers[j]? = some x → reach x.subscription) :
    Leaves reach mine w (w.stepWorker j) := by
  unfold stepWorker
  split
  next => exact .refl w
  next x found =>
    have bus : Event.Bus.Uses reach w.bus (x.step w.surroundings w.bus).2.1 := by
      have received := Event.Bus.Use.receive (b := w.bus) x.subscription (reached x found)
      rcases x.step_bus w.surroundings w.bus with same | same | same
      · rw [same]
      · rw [same]
        exact .single received
      · rw [same]
        exact (Relation.ReflTransGen.single received).tail (.abandon _ (reached x found))
    have subscription := x.step_subscription w.surroundings w.bus
    have stays (ended : x.ended) : (x.step w.surroundings w.bus).1 = x := by
      simp [Event.Worker.step, ended]
    have inside := (List.getElem?_eq_some_iff.mp found).1
    generalize x.step w.surroundings w.bus = result at bus subscription stays
    obtain ⟨y, after, lines⟩ := result
    refine ⟨bus, fun n takes => ?_, fun joined id i same k before z there => ?_, fun i hers => ?_,
      List.prefix_append _ _⟩
    · refine takes.before rfl rfl rfl fun k z hers there => ?_
      by_cases hit : k = j
      next =>
        subst hit
        obtain rfl : z = y := by simpa [posts, inside, eq_comm] using there
        exact ⟨x, others, found, subscription.symm⟩
      next => exact ⟨z, hers, by simpa [posts, Ne.symm hit] using there, rfl⟩
    · by_cases hit : k = j
      next =>
        -- One that has ended does nothing more.
        subst hit
        have there : z = y := by simpa [posts, inside, eq_comm] using there
        have ended := joined id i same k before x found
        rw [there, show y = x from stays ended]
        exact ended
      next => exact joined id i same k before z (by simpa [posts, Ne.symm hit] using there)
    · have apart : j ≠ i := by
        rintro rfl
        exact others hers
      simp [apart]

theorem pollWorker_leaves {j : Nat} (others : ¬mine j)
    (reached : ∀ n, w.posts.Takes mine n → reach n) : Leaves reach mine w (w.pollWorker j) := by
  unfold pollWorker
  induction List.range 3 generalizing w with
  | nil => exact .refl w
  | cons _ rest ih =>
    rw [List.foldl_cons]
    split
    · have step : Leaves reach mine w (w.stepWorker j) :=
        stepWorker_leaves others fun x found =>
          reached _ (.inr (.inr (.inr ⟨j, x, others, found, rfl⟩)))
      exact step.trans (ih fun n takes => reached n (step.takes n takes))
    · exact ih reached

def IsLight (w : World) : Move → Prop
  | .poll .dispatcher | .poll (.worker _) | .permit _ _ | .reconnect _ _ | .setParams _ _
  | .run _ => False
  | .poll (.call id) => w.governing? id = none
  | _ => True

theorem move_tells {m : Move} (allowed : w.allows m) (light : w.IsLight m)
    (inbox : reach w.supervisor.inbox) (outside : ∀ n, m.subscription? = some n → reach n) :
    Tells reach w (w.move m) := by
  have fresh {id : String} (absent : w.call? id = none) : w.governing? id = none := by
    simp [governing?, absent]
  cases m with
  | poll task =>
    cases task with
    | dispatcher | worker => exact light.elim
    | supervisor => exact supervise_tells inbox
    | addressWatch => exact w.pollAddressWatch_tells
    | fanOut i => exact w.runFanOut_tells i
    | sessionWatch i => exact w.pollSessionWatch_tells i
    | streamWatch i => exact w.pollStreamWatch_tells i
    | call id => exact pollCall_tells light
  | withdraw call => exact w.advance_tells call w.withdraw_tells
  | disconnect watch => exact w.disconnect_tells watch
  | answer call mode => exact w.advance_tells call fun t => w.answer_tells t mode
  | dial id carrier network address scope => exact (Tells.refl w).addCall (fresh allowed) rfl
  | reconnect | setParams | run | permit => exact light.elim
  | startRead id name n =>
    refine w.owner_tells name fun h => Tells.addCall (fresh allowed) ?_ rfl
    exact .silent rfl rfl rfl rfl
  | abandon call => exact w.abandon_tells call
  | read name n => exact w.owner_tells name fun h => w.read_tells h n
  | write name bytes => exact w.owner_tells name fun h => w.write_tells h bytes
  | flush name => exact w.owner_tells name fun h => w.flush_tells h
  | shutdown name => exact w.owner_tells name fun h => w.shutdown_tells h
  | close name => exact w.owner_tells name fun h => w.close_tells h
  | drop name =>
    exact w.owner_tells name fun h => (w.drop_tells h).trans (.silent rfl rfl rfl rfl)
  | abort name reason =>
    refine w.owner_tells name fun h => ?_
    split
    · exact w.closeConnection_tells _ _
    · exact .refl w
  | abortByHandle name reason =>
    unfold move
    dsimp only
    split
    · exact w.tearDown_tells _ _
    · exact .refl w
  | store store =>
    refine .silent rfl rfl rfl ?_
    simp only [tenure, move, storedParams, show store.params = w.store.params from allowed]
  | count counter n => exact w.count_tells counter n
  | raise kind => exact w.raise_tells kind
  | subscribe kinds => exact .use (.subscribe kinds) rfl rfl rfl
  | receive n => exact .use (.receive n (outside n rfl)) rfl rfl rfl
  | unsubscribe n => exact .use (.unsubscribe n (outside n rfl)) rfl rfl rfl
  | closeBus => exact .use .close rfl rfl rfl
  | newScope | childScope | cancel | kernel | script | addresses | clock | signal
  | stopSupervisor => exact .silent rfl rfl rfl rfl

theorem permit_leaves {j : Nat} (others : ¬mine j) (n : Nat) :
    Leaves reach mine w (w.move (.permit j n)) := by
  have known {i : Nat} {x : Event.Worker} (found : (w.move (.permit j n)).workers[i]? = some x) :
      ∃ y, w.workers[i]? = some y ∧ x.subscription = y.subscription ∧ x.ended = y.ended := by
    simp only [move, List.getElem?_modify] at found
    obtain ⟨y, there, rfl⟩ := Option.map_eq_some_iff.mp found
    refine ⟨y, there, ?_⟩
    split <;> exact ⟨rfl, rfl⟩
  refine ⟨.refl, fun k takes => ?_, fun joined id i same k before z there => ?_, fun i hers => ?_,
    List.prefix_rfl⟩
  · refine takes.before rfl rfl rfl fun i x hers found => ?_
    obtain ⟨y, there, subscription, -⟩ := known found
    exact ⟨y, hers, there, subscription.symm⟩
  · obtain ⟨y, was, -, ended⟩ := known there
    exact ended.trans (joined id i same k before y was)
  · have other : j ≠ i := by
      rintro rfl
      exact others hers
    simp [move, other]

theorem move_leaves {m : Move} (allowed : w.allows m) (apart : ¬m.Concerns mine)
    (reached : ∀ n, w.posts.Takes mine n → reach n)
    (outside : ∀ n, m.subscription? = some n → reach n) : Leaves reach mine w (w.move m) := by
  by_cases light : w.IsLight m
  · exact (move_tells allowed light (reached _ (.inl rfl)) outside).leaves
  cases m with
  | poll task =>
    cases task with
    | dispatcher => exact (apart trivial).elim
    | worker j => exact pollWorker_leaves apart reached
    | call id =>
      obtain ⟨c, governing⟩ := Option.ne_none_iff_exists'.mp light
      obtain ⟨found, heavy⟩ := Option.filter_eq_some_iff.mp governing
      change Leaves reach mine w (w.pollCall id)
      unfold pollCall
      rw [found]
      cases c with
      | dial | read | join => cases heavy
      | reconnect params stage => exact w.pollReconnectCall_leaves params stage
      | setParams params stage => exact w.pollSetParams_leaves params stage
      | run stage => exact pollRun_leaves found reached
    | supervisor | addressWatch | fanOut | sessionWatch | streamWatch => exact (light trivial).elim
  | reconnect id params | setParams id params => exact (Leaves.refl w).addCall nofun
  | run id =>
    refine (Leaves.refl w).addCall fun stage same => ?_
    cases same
    rfl
  | permit j n => exact permit_leaves apart n
  | _ => exact (light trivial).elim

-- Nobody takes from a subscription that is yet to come, and workers are joined in order.
structure Posted (w : World) : Prop where
  sane : w.bus.Sane
  below : ∀ n, w.posts.Takes (fun _ => False) n → n < w.bus.nextId
  joined : w.posts.IsJoined

structure Staffed (w : World) : Prop extends Posted w where
  idle : ∀ id, w.posts.calls id = none
  fresh : ∀ (i : Nat) x, w.workers[i]? = some x →
    x = { subscriber := x.subscriber, subscription := x.subscription }
  apart : ∀ (i : Nat) x, w.workers[i]? = some x → ¬w.posts.Takes (· = i) x.subscription
  listens : ∀ (i : Nat) x k, w.workers[i]? = some x →
    (Event.Mask.ofKinds x.subscriber.kinds).contains k → w.bus.Listens x.subscription k

theorem Posted.leaves (posted : w.Posted) (leaves : Leaves reach (fun _ => False) w next) :
    next.Posted where
  sane := leaves.bus.sane posted.sane
  below n takes := Nat.lt_of_lt_of_le (posted.below n (leaves.takes n takes)) leaves.bus.nextId
  joined := leaves.joins posted.joined

theorem Posted.move (posted : w.Posted) {m : Move} (allowed : w.allows m) : (w.move m).Posted := by
  by_cases turns : m = .poll .dispatcher
  · subst turns
    obtain ⟨n, turns⟩ := posted.sane.turns
    refine ⟨turns.sane posted.sane, fun n takes => ?_, posted.joined⟩
    exact Nat.lt_of_lt_of_eq (posted.below n takes) turns.nextId.symm
  · have apart : ¬m.Concerns fun _ => False := by
      unfold Move.Concerns
      split
      · exact absurd rfl turns
      all_goals exact id
    have leaves : Leaves (fun _ => True) (fun _ => False) w (w.move m) :=
      move_leaves allowed apart (fun _ _ => trivial) fun _ _ => trivial
    exact posted.leaves leaves

theorem addWorker_cases {subscriber : Event.Subscriber} {i : Nat} {x : Event.Worker}
    (found : (w.addWorker subscriber).workers[i]? = some x) :
    w.workers[i]? = some x ∨ i = w.workers.length ∧
      x = { subscriber := subscriber, subscription := w.bus.nextId } := by
  simp only [World.addWorker, Event.Bus.subscribe, spawn] at found
  by_cases inside : i < w.workers.length
  next =>
    rw [List.getElem?_append_left inside] at found
    exact .inl found
  next =>
    have outside := Nat.le_of_not_lt inside
    rw [List.getElem?_append_right outside, List.getElem?_singleton] at found
    split at found
    next last =>
      cases found
      exact .inr ⟨by omega, rfl⟩
    next => cases found

theorem addWorker_takes {subscriber : Event.Subscriber} {mine : Nat → Prop} {n : Nat}
    (took : (w.addWorker subscriber).posts.Takes mine n) :
    w.posts.Takes mine n ∨ n = w.bus.nextId ∧ ¬mine w.workers.length := by
  rcases took with same | same | waits | ⟨j, x, others, found, same⟩
  · exact .inl (.inl same)
  · exact .inl (.inr (.inl same))
  · exact .inl (.inr (.inr (.inl waits)))
  · rcases addWorker_cases found with old | ⟨rfl, rfl⟩
    · exact .inl (.inr (.inr (.inr ⟨j, x, others, old, same⟩)))
    · exact .inr ⟨same.symm, others⟩

theorem Staffed.addWorker (staffed : w.Staffed) (subscriber : Event.Subscriber) :
    (w.addWorker subscriber).Staffed := by
  have bus : Event.Bus.Uses (fun _ => False) w.bus (w.addWorker subscriber).bus :=
    .single (.subscribe _)
  -- The subscription of whoever was there before is an older one.
  have older {i : Nat} {x : Event.Worker} (found : w.workers[i]? = some x) :
      x.subscription < w.bus.nextId :=
    staffed.below _ (.inr (.inr (.inr ⟨i, x, id, found, rfl⟩)))
  refine ⟨⟨bus.sane staffed.sane, fun n took => ?_, fun id i same => ?_⟩, staffed.idle,
    fun i x found => ?_, fun i x found took => ?_, fun i x k found asked => ?_⟩
  · rcases addWorker_takes took with old | ⟨rfl, -⟩
    · exact Nat.lt_of_lt_of_le (staffed.below n old) bus.nextId
    · exact Nat.lt_succ_self _
  · cases (staffed.idle id).symm.trans same
  · rcases addWorker_cases found with old | ⟨-, rfl⟩
    · exact staffed.fresh i x old
    · rfl
  · rcases addWorker_cases found with old | ⟨rfl, rfl⟩
    · rcases addWorker_takes took with before | ⟨same, -⟩
      · exact staffed.apart i x old before
      · exact absurd same (Nat.ne_of_lt (older old))
    · rcases addWorker_takes took with before | ⟨-, others⟩
      · exact Nat.lt_irrefl _ (staffed.below _ before.anyhow)
      · exact others rfl
  · rcases addWorker_cases found with old | ⟨-, rfl⟩
    · exact bus.listens id (staffed.listens i x k old asked)
    · exact staffed.sane.listens asked

theorem Posted.staffed (posted : w.Posted) (idle : ∀ id, w.posts.calls id = none)
    (none : w.workers = []) : w.Staffed := by
  refine ⟨posted, idle, fun i x found => ?_, fun i x found => ?_, fun i x k found => ?_⟩ <;>
    simp [none] at found

end World

theorem Event.Bus.sane_empty : ({} : Event.Bus).Sane :=
  ⟨List.nodup_nil, nofun, nofun, nofun, nofun⟩

structure World.Assembled (w : World) : Prop where
  sane : w.bus.Sane
  next : w.bus.nextId = 3
  posts : w.posts = ⟨2, some 1, [], fun _ => none⟩
  tenure : w.tenure = ⟨w.storedParams, [{}], 0, []⟩

namespace Scenario.Setup

-- What holds once the stored parameters are in use, and after each worker that comes, holds when a
-- runtime is built.
theorem build_grows {s : Setup} {p : List Event.Subscriber → World → Prop}
    (runtime : s.runtime.isSome)
    (start : ∀ {w : World}, w.Assembled → p [] (w.swap w.storedParams).1)
    (grow : ∀ {w : World} {before : List Event.Subscriber} (subscriber : Event.Subscriber),
      p before w → p (before ++ [subscriber]) (w.addWorker subscriber)) :
    p s.roster s.build := by
  have workers (subscribers before : List Event.Subscriber) (w : World) (known : p before w) :
      p (before ++ subscribers) (subscribers.foldl World.addWorker w) := by
    induction subscribers generalizing before w with
    | nil =>
      rw [List.append_nil]
      exact known
    | cons subscriber rest ih =>
      rw [List.append_cons]
      exact ih _ _ (grow subscriber known)
  have sane : ((({} : Event.Bus).subscribe [.shutdownRequested]).1.subscribe [.addrChanged]).1.Sane :=
    (Event.Bus.sane_empty.subscribe _).subscribe _
  unfold build
  rw [if_pos runtime]
  unfold buildRuntime
  dsimp only
  -- The watch of the addresses subscribes to nothing.
  split
  · exact workers s.roster [] _ (start ⟨sane, rfl, rfl, rfl⟩)
  · exact workers s.roster [] _ (start ⟨sane, rfl, rfl, rfl⟩)

theorem build_staffed (s : Setup) : s.build.Staffed := by
  cases runtime : s.runtime.isSome with
  | true =>
    refine build_grows (p := fun _ w => w.Staffed) runtime (fun {w} assembled => ?_)
      fun subscriber staffed => staffed.addWorker subscriber
    have posted : w.Posted := by
      refine ⟨assembled.sane, fun n takes => ?_, fun id i same => ?_⟩
      · rw [assembled.posts] at takes
        have next := assembled.next
        rcases takes with same | same | ⟨id, waits⟩ | ⟨j, x, -, found, -⟩
        · have : 2 = n := same
          omega
        · have : 1 = n := Option.some.inj same
          omega
        · cases waits
        · cases found
      · rw [assembled.posts] at same
        cases same
    have speaks : World.Speaks (fun _ => True) w (w.swap w.storedParams).1 := w.swap_speaks _
    have after := speaks.posts.trans assembled.posts
    apply (posted.leaves speaks.leaves).staffed
    · exact fun id => congrFun (congrArg Posts.calls after) id
    · exact congrArg Posts.workers after
  | false =>
    unfold build
    rw [if_neg (by simp [runtime])]
    refine World.Posted.staffed ⟨Event.Bus.sane_empty.subscribe _, fun n takes => ?_, nofun⟩
      (fun _ => rfl) rfl
    rcases takes with same | same | ⟨id, waits⟩ | ⟨j, x, -, found, -⟩
    · have : 1 = n := same
      have : n < 2 := by omega
      exact this
    · cases same
    · cases waits
    · cases found

end Scenario.Setup

end Egress
