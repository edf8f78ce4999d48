import Egress.Proofs.World.CallPolls
import Egress.Proofs.World.TunnelEffects

set_option autoImplicit false

namespace Egress

open Simulation Tunnel

-- Every call is a proper one, and nobody but the supervisor listens to its inbox.
structure Core.Proper (c : Core) : Prop where
  calls : ∀ call ∈ c.calls, call.2.Proper c.traffic.supervisor.inbox
  listeners : c.traffic.supervisor.inbox ∉ c.traffic.listeners
  requests : c.traffic.requests ≠ some c.traffic.supervisor.inbox

@[simp]
theorem Supervisor.send_inbox (s : Supervisor) (c : Command) : (s.send c).inbox = s.inbox := by
  unfold send
  split <;> rfl

@[simp]
theorem Supervisor.send_generation (s : Supervisor) (c : Command) :
    (s.send c).generation = s.generation := by
  unfold send
  split <;> rfl

namespace Core

variable {t : Terms} {c next : Core}

theorem Effect.proper (effect : Effect t c next) (proper : c.Proper) : next.Proper := by
  obtain ⟨calls, listeners, requests⟩ := proper
  cases effect with
  | traffic step =>
    cases step with
    | take => exact ⟨calls, listeners, by simp⟩
    | establish =>
      refine ⟨?_, ?_, ?_⟩ <;> simp only [Supervisor.send_inbox]
      · exact calls
      · exact listeners
      · exact requests
    | tearDown =>
      refine ⟨?_, ?_, ?_⟩ <;> simp only [Supervisor.send_inbox]
      · exact calls
      · exact listeners
      · exact requests
    | _ => exact ⟨calls, listeners, requests⟩
  | addCall id call proper =>
    refine ⟨fun p member => ?_, listeners, requests⟩
    rcases List.mem_append.mp member with old | new
    · exact calls p (List.mem_of_mem_filter old)
    · obtain rfl := List.mem_singleton.mp new
      exact proper
  | setCall id old call found proper =>
    refine ⟨fun p member => ?_, listeners, requests⟩
    obtain ⟨q, was, rfl⟩ := List.mem_map.mp member
    dsimp only
    split
    · exact proper
    · exact calls q was
  | endCall id =>
    exact ⟨fun p member => calls p (List.mem_of_mem_filter member), listeners, requests⟩
  | _ => exact ⟨calls, listeners, requests⟩

end Core

theorem World.Effects.proper {t : Terms} {w next : World} (h : w.Effects t next)
    (proper : w.core.Proper) : next.core.Proper :=
  h.keeps (fun effect => effect.proper) proper

namespace World

section Owners

variable {t : Terms} {w : World} (regular : w.Regular)

include regular

theorem read_effects (h : Handle) (n : Nat) : Effects t w (w.read h n).1 := by
  cases h with
  | connection id boxed => exact w.useConnection_effects id _
  | stream id boxed => exact useStream_effects regular id _

theorem write_effects (h : Handle) (bytes : List UInt8) : Effects t w (w.write h bytes).1 := by
  cases h with
  | connection id boxed => exact w.useConnection_effects id _
  | stream id boxed => exact useStream_effects regular id _

theorem flush_effects (h : Handle) : Effects t w (w.flush h).1 := by
  cases h with
  | connection id boxed => exact w.useConnection_effects id _
  | stream id boxed => exact useStream_effects regular id _

theorem shutdown_effects (h : Handle) : Effects t w (w.shutdown h).1 := by
  cases h with
  | connection id boxed => exact w.useConnection_effects id _
  | stream id boxed => exact useStream_effects regular id _

theorem drop_effects (h : Handle) : Effects t w (w.drop h) := by
  cases h with
  | connection id boxed => exact w.closeConnection_effects id none (by simp)
  | stream id boxed => exact dropStream_effects regular id

theorem close_effects (h : Handle) : Effects t w (w.close h) := by
  cases h with
  | connection id boxed => exact w.closeConnection_effects id none (by simp)
  | stream id boxed => exact closeStream_effects regular id

theorem putHandle_effects (name : String) (h : Handle) : Effects t w (w.putHandle name h) := by
  unfold putHandle
  dsimp only
  split
  next old _ => exact (drop_effects regular old).trans (.plain rfl)
  next => exact .plain rfl

end Owners

section Calls

variable {t : Terms} {w u : World} {id : String}

theorem Effects.generation (h : Effects t w u) :
    u.supervisor.generation = w.supervisor.generation := by
  refine h.keeps (p := fun c => c.traffic.supervisor.generation = w.supervisor.generation) ?_ rfl
  intro c next effect same
  cases effect with
  | traffic step => cases step <;> simpa [Supervisor.send_generation] using same
  | tunnels | scopes | replace | addCall | setCall | endCall => exact same

theorem finish_effects (w : World) (id : String) (f : Finish) : Effects t w (w.finish id f) :=
  .one (.endCall id)

theorem Effects.setCall {old next : Call} (h : Effects t w u) (found : w.call? id = some old)
    (calls : u.calls = w.calls) (proper : next.Proper u.supervisor.inbox)
    (same : ∀ scope, next.scope? = some scope → old.scope? = some scope)
    (follows : next.Follows w.supervisor.generation old) :
    Effects t w (u.setCall id next) := by
  have member : (id, old) ∈ u.calls := by
    obtain ⟨front, back, split, -⟩ := List.lookup_eq_some_iff.mp found
    simp [calls, split]
  have generation : u.supervisor.generation = w.supervisor.generation := h.generation
  refine h.trans (.one ?_)
  exact .setCall id old next member proper same (generation ▸ follows)

section Reconnects

variable (work : t.works w.generations.length)

theorem awaitDrain_effects (w : World) (g : Nat) : Effects t w (w.awaitDrain g).1 := by
  unfold awaitDrain
  split <;> exact .plain rfl

include work

theorem swap_effects (params : Server.Params) : Effects t w (w.swap params).1 := by
  unfold swap
  dsimp only
  split
  · exact .plain rfl
  next gen found =>
    split
    · exact .plain rfl
    · let fresh :=
        Generation.make (w.scopes.child w.root).2 params w.keys w.settings.defaultServerPort
      let next : World := { w with
        scopes := (w.scopes.child w.root).1.cancel gen.scope
        generations := w.generations ++ [fresh]
        current := w.generations.length }
      let state : Stats.TunnelState := if fresh.credentials.isSome then .trying else .notConfigured
      obtain ⟨bus, announced, heard⟩ := next.setConnectivity_eq state ""
      have replaced : Effects t w { next with connectivity := ⟨state, ""⟩ } :=
        .one (.replace gen fresh found work rfl rfl rfl)
      have all := replaced.trans (heard_effects _ heard)
      rw [← announced] at all
      exact all.trans (awaitDrain_effects _ w.current)

theorem pollReconnect_effects (call : String) (params : Server.Params) (stage : ReconnectStage) :
    Effects t w (w.pollReconnect call params stage).1 := by
  cases stage with
  | fresh =>
    let asked : World := { w with reconnecting := w.reconnecting ++ [call] }
    have asks : Effects t w asked := .plain rfl
    simp only [pollReconnect]
    split
    · exact asks.trans (swap_effects (w := asked) work params)
    · exact asks
  | locking =>
    simp only [pollReconnect]
    split
    · exact swap_effects work params
    · exact .refl w
  | draining g => exact awaitDrain_effects w g

variable (regular : w.Regular)

include regular

theorem pollReconnectCall_effects {params : Server.Params} {stage : ReconnectStage}
    (found : w.call? id = some (.reconnect params stage)) :
    Effects t w (w.pollReconnectCall id params stage) := by
  have polled : Effects t w _ := pollReconnect_effects work id params stage
  have calls := (pollReconnect_attends regular id params stage).calls
  unfold pollReconnectCall
  revert polled calls
  generalize w.pollReconnect id params stage = r
  obtain ⟨u, next⟩ := r
  intro polled calls
  cases next with
  | some next =>
    exact polled.setCall found calls trivial (by simp [Call.scope?])
      (by simp [Call.Follows, Call.connect?])
  | none => exact polled.trans (finish_effects _ _ _)

theorem pollSetParams_effects {params : Server.Params} {stage : ReconnectStage}
    (found : w.call? id = some (.setParams params stage)) :
    Effects t w (w.pollSetParams id params stage) := by
  have after (u : World) (stored : Beside w u) (core : u.core = w.core) :
      Effects t w (setParamsProgress id params (u.pollReconnect id params stage)) := by
    have generations : u.generations = w.generations := congrArg (·.tunnels.generations) core
    have polled : Effects t w _ :=
      (Effects.plain core).trans (pollReconnect_effects (generations ▸ work) id params stage)
    have calls := (pollReconnect_attends (stored.passes regular).regular id params stage).calls.trans
      (congrArg (·.calls) core)
    revert polled calls
    generalize u.pollReconnect id params stage = r
    obtain ⟨next, place⟩ := r
    intro polled calls
    cases place with
    | some place =>
      exact polled.setCall found calls trivial (by simp [Call.scope?])
        (by simp [Call.Follows, Call.connect?])
    | none => exact (polled.trans (raise_effects _ _)).trans (finish_effects _ _ _)
  unfold pollSetParams
  cases stage with
  | fresh =>
    have core : (w.storeParams params).core = w.core := by
      unfold storeParams
      split <;> rfl
    exact after _ (storeParams_beside params) core
  | locking => exact after w (.refl w) rfl
  | draining g => exact after w (.refl w) rfl

end Reconnects

theorem joinFrom_core (room worker : Nat) (w : World) : (joinFrom room worker w).1.core = w.core := by
  induction room generalizing worker w with
  | zero => rfl
  | succ room ih =>
    unfold joinFrom
    split
    · rfl
    · split
      · rfl
      · dsimp only
        split <;> exact ih _ _

section Runs

variable {stage : RunStage} (found : w.call? id = some (.run stage))

include found

theorem joinWorkers_effects (h : Effects t w u) (calls : u.calls = w.calls) (worker : Nat) :
    Effects t w (u.joinWorkers id worker) := by
  have core := joinFrom_core (u.workers.length + 1) worker u
  unfold joinWorkers join
  revert core
  generalize joinFrom (u.workers.length + 1) worker u = r
  obtain ⟨next, place⟩ := r
  intro core
  have h : Effects t w next := h.trans (.plain core)
  have calls : next.calls = w.calls := (congrArg (·.calls) core).trans calls
  cases place with
  | some i =>
    exact h.setCall found calls trivial (by simp [Call.scope?])
      (by simp [Call.Follows, Call.connect?])
  | none => exact h.trans (finish_effects _ _ _)

theorem awaitWatch_effects (h : Effects t w u) (calls : u.calls = w.calls) :
    Effects t w (u.awaitWatch id) := by
  let closed : World := { u with bus := u.bus.close }
  have closes : Effects t u closed := .traffic .closeBus rfl
  unfold awaitWatch
  split
  · exact joinWorkers_effects (u := closed) found (h.trans closes) calls 0
  · exact h.setCall found calls trivial (by simp [Call.scope?])
      (by simp [Call.Follows, Call.connect?])

theorem runDisconnect_effects (work : t.works u.generations.length) (regular : u.Regular)
    (h : Effects t w u) (calls : u.calls = w.calls) (place : ReconnectStage) :
    Effects t w (u.runDisconnect id place) := by
  have polled : Effects t w _ := h.trans (pollReconnect_effects work id {} place)
  have calls := (pollReconnect_attends regular id {} place).calls.trans calls
  unfold runDisconnect
  revert polled calls
  generalize u.pollReconnect id {} place = r
  obtain ⟨next, later⟩ := r
  intro polled calls
  cases later with
  | some later =>
    exact polled.setCall found calls trivial (by simp [Call.scope?])
      (by simp [Call.Follows, Call.connect?])
  | none =>
    let stopping : World := { next with supervisor := { next.supervisor with stopping := true } }
    have stops : Effects t next stopping := .traffic .stop rfl
    exact awaitWatch_effects (u := stopping) found (polled.trans stops) calls

theorem shutDown_effects (work : t.works u.generations.length) (regular : u.Regular)
    (h : Effects t w u) (calls : u.calls = w.calls) : Effects t w (u.shutDown id) := by
  let cancelled : World := { u with scopes := u.scopes.cancel u.root }
  have cancels : Effects t u cancelled :=
    .one (.scopes _ (Nat.le_refl _) fun _ => u.scopes.forest.cancel_keeps _)
  exact runDisconnect_effects (u := cancelled) found work (cancel_passes regular u.root).regular
    (h.trans cancels) calls .fresh

theorem awaitShutdown_effects (work : t.works u.generations.length) (regular : u.Regular)
    (h : Effects t w u) (calls : u.calls = w.calls) {subscription : Nat}
    (other : subscription ≠ u.supervisor.inbox) :
    Effects t w (u.awaitShutdown id subscription) := by
  let signalled : World := ({ u with signals := [] }).raise .shutdownRequested
  let received : World := { u with bus := (u.bus.receive subscription).1 }
  have signals : Effects t u signalled :=
    Effects.trans (w := { u with signals := [] }) (.plain rfl) (raise_effects _ _)
  have receives : Effects t u received := .traffic (.receive subscription other) rfl
  have beside (v : World) (same : v.tunnelSide = u.tunnelSide)
      (connections : v.connections = u.connections) (counters : v.counters = u.counters) :
      v.Regular :=
    ((Beside.of_eq same connections counters).passes regular).regular
  unfold awaitShutdown
  split
  · exact shutDown_effects (u := signalled) found work (beside _ rfl rfl rfl) (h.trans signals) calls
  · split
    next bus result =>
      have bus : bus = (u.bus.receive subscription).1 := by rw [result]
      subst bus
      exact (h.trans receives).setCall found calls other (by simp [Call.scope?])
        (by simp [Call.Follows, Call.connect?])
    next bus _ _ result =>
      have bus : bus = (u.bus.receive subscription).1 := by rw [result]
      subst bus
      exact shutDown_effects (u := received) found work (beside _ rfl rfl rfl) (h.trans receives)
        calls

theorem pollRun_effects (work : t.works w.generations.length) (regular : w.Regular)
    (proper : w.core.Proper) : Effects t w (w.pollRun id stage) := by
  cases stage with
  | fresh =>
    simp only [pollRun]
    split
    · exact finish_effects _ _ _
    next subscription requested =>
      let taken : World := { w with shutdownRequests := none }
      have takes : Effects t w taken := .traffic .take rfl
      have beside : Beside w taken := .of_eq rfl rfl rfl
      have other : subscription ≠ w.supervisor.inbox := by
        rintro rfl
        exact proper.requests requested
      exact awaitShutdown_effects (u := taken) found work (beside.passes regular).regular takes rfl
        other
  | waiting subscription =>
    have other : subscription ≠ w.supervisor.inbox :=
      proper.calls _ ((mem_calls regular.frame.names).mpr found)
    exact awaitShutdown_effects found work regular (.refl w) rfl other
  | disconnecting place => exact runDisconnect_effects found work regular (.refl w) rfl place
  | unwatching => exact awaitWatch_effects found (.refl w) rfl
  | joining worker => exact joinWorkers_effects found (.refl w) rfl worker

omit found in
theorem pollJoin_effects {worker : Nat} (found : w.call? id = some (.join worker)) :
    Effects t w (w.pollJoin id worker) := by
  have core := joinFrom_core (w.workers.length + 1) worker w
  unfold pollJoin join
  revert core
  generalize joinFrom (w.workers.length + 1) worker w = r
  obtain ⟨next, place⟩ := r
  intro core
  have joined : Effects t w next := .plain core
  cases place with
  | some i =>
    exact joined.setCall found (congrArg (·.calls) core) trivial (by simp [Call.scope?])
      (by simp [Call.Follows, Call.connect?])
  | none => exact joined.trans (finish_effects _ _ _)

end Runs

theorem pollRead_effects (regular : w.Regular) (h : Handle) (name : String) (n : Nat) :
    Effects t w (w.pollRead id h name n) := by
  have read : Effects t w _ := read_effects regular h n
  have travels := read_travels regular h n
  unfold pollRead
  revert read travels
  generalize w.read h n = r
  obtain ⟨u, result⟩ := r
  intro read travels
  have put : Effects t w _ := read.trans (putHandle_effects travels.regular name h)
  cases result with
  | pending => exact read
  | done bytes => exact put.trans (finish_effects _ _ _)
  | failed failure => exact put.trans (finish_effects _ _ _)

theorem connectionDialed_effects (regular : w.Regular) (connection : Nat) (boxed : Bool) :
    Effects t w (w.connectionDialed id connection boxed) := by
  have put : Effects t w _ := putHandle_effects regular id (.connection connection boxed)
  have noted (u : World) : Effects t u (u.notePeer id connection boxed) := by
    unfold notePeer
    dsimp only
    split <;> exact .plain rfl
  have noted := put.trans (noted _)
  have known (u : World) (dialed : List (String × Nat)) : Effects t u { u with dialed } := .plain rfl
  unfold connectionDialed
  dsimp only
  split
  · exact noted.trans (finish_effects _ _ _)
  · split <;> exact (noted.trans (known _ _)).trans (finish_effects _ _ _)

theorem streamDialed_effects (regular : w.Regular) (stream : Nat) (boxed : Bool) :
    Effects t w (w.streamDialed id stream boxed) := by
  have put : Effects t w _ := putHandle_effects regular id (.stream stream boxed)
  unfold streamDialed
  dsimp only
  split
  · exact put.trans (finish_effects _ _ _)
  · split <;> exact put.trans (finish_effects _ _ _)

section Dials

variable {d : Dial} (found : w.call? id = some (.dial d))

include found

theorem connectProgress_effects (h : Effects t w u) (calls : u.calls = w.calls)
    (regular : u.Regular) (boxed : Bool) (progress : Progress Connecting)
    (request : ∀ c, progress = .waiting c → c.request.scope = d.scope)
    (follows : ∀ c, progress = .waiting c →
      (Call.dial { d with stage := .connecting c boxed }).Follows w.supervisor.generation (.dial d)) :
    Effects t w (u.connectProgress id d boxed progress) := by
  cases progress with
  | waiting c =>
    exact h.setCall found calls (request c rfl) (fun _ same => same) (follows c rfl)
  | failed failure => exact h.trans (finish_effects _ _ _)
  | done connection => exact h.trans (connectionDialed_effects regular connection boxed)

theorem tunnelProgress_effects (h : Effects t w u) (calls : u.calls = w.calls)
    (regular : u.Regular) (boxed : Bool) (progress : Progress TunnelDial)
    (follows : ∀ k, linkOf? progress = some k → k.generation = w.supervisor.generation ∨
      ∃ o, (Call.dial d).connect? = some o ∧ o.generation = k.generation) :
    Effects t w (u.tunnelProgress id d boxed progress) := by
  cases progress with
  | waiting next => exact h.setCall found calls trivial (fun _ same => same) follows
  | failed failure => exact h.trans (finish_effects _ _ _)
  | done stream => exact h.trans (streamDialed_effects regular stream boxed)

variable (regular : w.Regular)

include regular

theorem dialVia_effects (work : t.works w.current) (via : Via) (boxed : Bool) :
    Effects t w (w.dialVia id d via boxed) := by
  let request : ConnectRequest :=
    { scope := d.scope, network := d.network, address := d.address, counter := .tcpConnections }
  have beside := w.beginConnect_beside request
  have direct : Effects t w
      ((w.beginConnect request).1.connectProgress id d boxed (w.beginConnect request).2) := by
    refine connectProgress_effects found (w.beginConnect_effects request)
      (congrArg (·.calls) beside.side) (beside.passes regular).regular boxed _
      (fun c waits => ?_) fun c waits k awaits => ?_
    · rw [(w.beginConnect_waits waits).1]
    · obtain rfl := Option.some.inj awaits
      exact .inl (w.beginConnect_waits waits).2
  cases via with
  | manager => exact direct
  | direct => exact direct
  | tunnel =>
    have serves := w.beginTunnelDial_serves regular.current_lt d.scope d.network d.address
    exact tunnelProgress_effects found (w.beginTunnelDial_effects work _ _ _)
      (calls_of_frame serves.turn.frame) (serves.turn.regular regular regular.current_lt) boxed _
      fun k links => .inl (w.beginTunnelDial_link _ _ _ links)

-- One more step of a dial through the tunnel that is under way.
theorem serves_effects {d' : TunnelDial} {a : Hand} {r : World × Progress TunnelDial}
    (inside : d'.generation < w.generations.length) (serves : Serves d' a w r)
    (h : Effects t w r.1) (boxed : Bool) (stage : d.stage = .tunneling d' boxed)
    (follows : ∀ k, linkOf? r.2 = some k → k.generation = w.supervisor.generation ∨
      ∃ o, d'.link? = some o ∧ o.generation = k.generation) :
    Effects t w (r.1.tunnelProgress id d boxed r.2) := by
  have awaited : (Call.dial d).connect? = d'.link? := by
    obtain ⟨scope, network, address, place⟩ := d
    obtain rfl : place = .tunneling d' boxed := stage
    rfl
  exact tunnelProgress_effects found h (calls_of_frame serves.turn.frame)
    (serves.turn.regular regular inside) boxed r.2 (awaited ▸ follows)

theorem pollDial_effects (proper : w.core.Proper)
    (work : t.works ((dialGeneration? (.dial d)).getD w.current)) :
    Effects t w (w.pollDial id d) := by
  have member := (mem_calls regular.frame.names).mpr found
  obtain ⟨scope, network, address, stage⟩ := d
  cases stage with
  | fresh carrier =>
    cases carrier with
    | via via boxed => exact dialVia_effects found regular work via boxed
    | route host =>
      unfold pollDial
      dsimp only
      split
      · exact dialVia_effects found regular work .direct true
      · exact dialVia_effects found regular work .tunnel true
      · exact finish_effects _ _ _
  | connecting c boxed =>
    have counter : c.request.counter = .tcpConnections := regular.frame.calls _ member
    have own : c.request.scope = scope := proper.calls _ member
    have beside := w.pollConnect_beside c (by simp [counter])
    have wanted : w.core.Asks c.request.scope c.generation :=
      ⟨⟨_, member, c, rfl, rfl, rfl⟩, .inl ⟨_, member, congrArg some own.symm⟩⟩
    refine connectProgress_effects found (w.pollConnect_effects c wanted)
      (congrArg (·.calls) beside.side) (beside.passes regular).regular boxed _
      (fun next waits => ?_) fun next waits k awaits => ?_
    · rw [(w.pollConnect_waits waits).1, own]
    · obtain rfl := Option.some.inj awaits
      exact .inr ⟨c, rfl, (w.pollConnect_waits waits).2.symm⟩
  | tunneling d' boxed =>
    obtain ⟨fits, inside⟩ := regular.tunnelDial_fits found rfl
    have connects (link : Connecting) (links : d'.link? = some link) :
        w.core.Connects link.request.scope link.generation := ⟨_, member, link, links, rfl, rfl⟩
    exact serves_effects found regular inside (w.pollTunnelDial_serves d' fits)
      (w.pollTunnelDial_effects d' work fits connects) boxed rfl fun _ => w.pollTunnelDial_link d'

end Dials

theorem pollCall_effects (regular : w.Regular) (proper : w.core.Proper) (work : ∀ g, t.works g)
    (id : String) : Effects t w (w.pollCall id) := by
  unfold pollCall
  split
  · exact .refl w
  next found => exact pollDial_effects found regular proper (work _)
  next found => exact pollRead_effects regular _ _ _
  next found => exact pollReconnectCall_effects (work _) regular found
  next found => exact pollSetParams_effects (work _) regular found
  next found => exact pollRun_effects found (work _) regular proper
  next found => exact pollJoin_effects found

theorem advance_effects (regular : w.Regular) (id : String)
    (f : TunnelDial → World × Progress TunnelDial)
    (serves : ∀ d, d.Fits w.frame → Serves d (.stake d.stage.stake) w (f d))
    (effects : ∀ d, Effects t w (f d).1)
    (links : ∀ d k, linkOf? (f d).2 = some k → d.link? = some k) :
    Effects t w (w.advance id f) := by
  unfold advance
  split
  next d found =>
    split
    next d' boxed stage =>
      obtain ⟨fits, inside⟩ := regular.tunnelDial_fits found stage
      exact serves_effects found regular inside (serves d' fits) (effects d') boxed stage
        fun k linked => .inr ⟨k, links d' k linked, rfl⟩
    · exact .refl w
  · exact .refl w

end Calls

end World

end Egress
