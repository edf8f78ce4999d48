import Egress.Proofs.Event.Bringing
import Egress.Proofs.World.Supervising

set_option autoImplicit false

namespace Egress

open Simulation Tunnel

-- A call that does more than dial, read or join: it changes the parameters or runs the whole.
def Call.governs : Call → Bool
  | .dial _ | .read _ _ _ | .join _ => false
  | .reconnect _ _ | .setParams _ _ | .run _ => true

structure Posts where
  inbox : Nat
  requests : Option Nat
  workers : List Event.Worker
  calls : String → Option Call

structure Tenure where
  stored : Server.Params
  params : List Server.Params
  current : Nat
  reconnecting : List String

namespace World

def governing? (w : World) (id : String) : Option Call := (w.call? id).filter Call.governs

def posts (w : World) : Posts where
  inbox := w.supervisor.inbox
  requests := w.shutdownRequests
  workers := w.workers
  calls := w.governing?

def tenure (w : World) : Tenure where
  stored := w.storedParams
  params := w.generations.map (·.params)
  current := w.current
  reconnecting := w.reconnecting

-- The bus is used, and of its subscriptions only those in reach. Nobody new listens, and what was
-- logged stays.
structure Speaks (reach : Nat → Prop) (w next : World) : Prop where
  bus : Event.Bus.Uses reach w.bus next.bus
  posts : next.posts = w.posts
  log : w.log <+: next.log

structure Tells (reach : Nat → Prop) (w next : World) : Prop extends Speaks reach w next where
  tenure : next.tenure = w.tenure

variable {reach more : Nat → Prop} {u w next : World}

namespace Speaks

theorem refl (w : World) : Speaks reach w w := ⟨.refl, rfl, List.prefix_rfl⟩

theorem trans (h : Speaks reach u w) (k : Speaks reach w next) : Speaks reach u next :=
  ⟨h.bus.trans k.bus, k.posts.trans h.posts, h.log.trans k.log⟩

theorem mono (speaks : Speaks reach w next) (wider : ∀ i, reach i → more i) : Speaks more w next :=
  ⟨speaks.bus.mono wider, speaks.posts, speaks.log⟩

theorem silent (bus : next.bus = w.bus) (posts : next.posts = w.posts) (log : next.log = w.log) :
    Speaks reach w next :=
  ⟨bus ▸ .refl, posts, log ▸ List.prefix_rfl⟩

end Speaks

namespace Tells

theorem refl (w : World) : Tells reach w w := ⟨.refl w, rfl⟩

theorem trans (h : Tells reach u w) (k : Tells reach w next) : Tells reach u next :=
  ⟨h.toSpeaks.trans k.toSpeaks, k.tenure.trans h.tenure⟩

theorem mono (tells : Tells reach w next) (wider : ∀ i, reach i → more i) : Tells more w next :=
  ⟨tells.toSpeaks.mono wider, tells.tenure⟩

theorem silent (bus : next.bus = w.bus) (posts : next.posts = w.posts) (log : next.log = w.log)
    (tenure : next.tenure = w.tenure) : Tells reach w next :=
  ⟨.silent bus posts log, tenure⟩

theorem use (use : Event.Bus.Use reach w.bus next.bus) (posts : next.posts = w.posts)
    (log : next.log = w.log) (tenure : next.tenure = w.tenure) : Tells reach w next :=
  ⟨⟨.single use, posts, log ▸ List.prefix_rfl⟩, tenure⟩

end Tells

variable (w : World)

theorem raise_tells (k : Event.Kind) : Tells reach w (w.raise k) := .use (.raise k) rfl rfl rfl

theorem count_tells (c : Stats.Counter) (n : Int32) : Tells reach w (w.count c n) :=
  .use (.raise .countersChanged) rfl rfl rfl

theorem setConnectivity_tells (state : Stats.TunnelState) (info : String) :
    Tells reach w (w.setConnectivity state info) := by
  unfold setConnectivity
  split
  · exact .use (.raise .connStateChanged) rfl rfl rfl
  · exact .refl w

theorem putConnection_tells (c next : Connection) : Tells reach w (w.putConnection c next) := by
  unfold putConnection
  dsimp only
  split <;> exact .silent rfl rfl rfl rfl

theorem loseStream_tells (id : Nat) : Tells reach w (w.loseStream id) := by
  unfold loseStream
  split
  · exact w.putConnection_tells _ _
  · exact .refl w

theorem send_inbox (s : Supervisor) (c : Command) : (s.send c).inbox = s.inbox := by
  unfold Supervisor.send
  split <;> rfl

theorem tearDown_tells (id : Nat) (reason : Option AbortReason) :
    Tells reach w (w.tearDown id reason).1 := by
  unfold tearDown
  split
  · exact .refl w
  next c _ =>
    split
    · exact .refl w
    next torn _ =>
      refine .use (.raise .countersChanged) ?_ rfl rfl
      simp only [posts, send_inbox]
      rfl

theorem closeConnection_tells (id : Nat) (reason : Option AbortReason) :
    Tells reach w (w.closeConnection id reason) :=
  (w.tearDown_tells id reason).trans (loseStream_tells _ id)

theorem tearDownAll_tells (ids : List Nat) (reason : Option AbortReason) :
    Tells reach w (w.tearDownAll ids reason) := by
  unfold tearDownAll
  induction ids generalizing w with
  | nil => exact .refl w
  | cons id rest ih => exact (w.tearDown_tells id reason).trans (ih _)

theorem useConnection_tells {α : Type} (id : Nat) (f : Socket → Socket × Io α) :
    Tells reach w (w.useConnection id f).1 := by
  unfold useConnection
  split
  · exact .refl w
  next c _ =>
    have put : Tells reach w (w.putConnection c c.touch) := w.putConnection_tells _ _
    dsimp only
    split
    · exact put.trans (.silent rfl rfl rfl rfl)
    · exact put

theorem network_tells (network : Network) : Tells reach w { w with network } := .silent rfl rfl rfl rfl

theorem script_tells (script : Script) : Tells reach w { w with script } := .silent rfl rfl rfl rfl

theorem attempt_tells (request : ConnectRequest) (generation : Nat) (targets : List Endpoint)
    (last : Option String) : Tells reach w (attempt request generation targets last w).1 := by
  induction targets generalizing last with
  | nil => exact .refl w
  | cons target rest ih =>
    unfold attempt
    split
    · exact w.network_tells _
    · exact ih _

theorem attemptAll_tells (request : ConnectRequest) (generation : Nat) (family : Option Bool)
    (found : List Endpoint) : Tells reach w (w.attemptAll request generation family found).1 := by
  unfold attemptAll
  split
  · exact .refl w
  · exact w.attempt_tells request generation _ none

theorem beginConnect_tells (request : ConnectRequest) :
    Tells reach w (w.beginConnect request).1 := by
  unfold beginConnect
  split
  · exact .refl w
  · split
    · exact .refl w
    · dsimp only
      split
      · exact w.attemptAll_tells _ _ _ _
      · exact w.network_tells _

theorem dropConnect_tells (c : Connecting) : Tells reach w (w.dropConnect c) := w.network_tells _

theorem establish_tells (c : Connecting) (socket : Nat) :
    Tells reach w (w.establish c socket).1 := by
  refine .use (.raise .countersChanged) ?_ rfl rfl
  simp only [posts, establish, send_inbox]
  rfl

theorem pollConnect_tells (c : Connecting) : Tells reach w (w.pollConnect c).1 := by
  unfold pollConnect
  split
  · exact w.dropConnect_tells c
  · split
    · exact .refl w
    · have answered (network : Network) : Tells reach w { w.dropConnect c with network } :=
        (w.dropConnect_tells c).trans (network_tells _ network)
      dsimp only
      split
      · split
        · exact answered _
        · exact (answered _).trans (attemptAll_tells _ _ _ _ _)
      · split
        · exact (answered _).trans (attempt_tells _ _ _ _ _)
        · exact (answered _).trans (establish_tells _ _ _)

theorem updateGeneration_tells (g : Nat) {f : Generation → Generation}
    (same : ∀ gen, (f gen).params = gen.params) : Tells reach w (w.updateGeneration g f) := by
  have params : (w.generations.modify g f).map (·.params) = w.generations.map (·.params) := by
    apply List.ext_getElem?
    intro i
    rw [List.getElem?_map, List.getElem?_map, List.getElem?_modify]
    cases w.generations[i]? with
    | none => rfl
    | some gen => by_cases hit : g = i <;> simp [hit, same]
  refine .silent rfl rfl rfl ?_
  simp only [tenure, updateGeneration, params]
  rfl

theorem updatePool_tells (g : Nat) (f : Pool → Pool) : Tells reach w (w.updatePool g f) :=
  w.updateGeneration_tells g fun _ => rfl

theorem updateStream_tells (id : Nat) (f : Tunnel.Stream → Tunnel.Stream) :
    Tells reach w (w.updateStream id f) := .silent rfl rfl rfl rfl

theorem putStream_tells (s next : Tunnel.Stream) : Tells reach w (w.putStream s next) := by
  have updated : Tells reach w (w.updateStream s.id fun _ => next) := w.updateStream_tells _ _
  have piped (u : World) : Tells reach u
      (if s.hasPipe && !next.hasPipe then
        { u with script := u.script.updatePipe s.pipe Pipe.drop } else u) := by
    split
    · exact u.script_tells _
    · exact .refl u
  unfold putStream
  dsimp only
  split
  · exact ((updated.trans (piped _)).trans (updatePool_tells _ _ _)).trans (count_tells _ _ _)
  · exact updated.trans (piped _)

theorem releaseStream_tells (id : Nat) : Tells reach w (w.releaseStream id) := by
  unfold releaseStream
  split
  · exact w.putStream_tells _ _
  · exact .refl w

theorem closeStream_tells (id : Nat) : Tells reach w (w.closeStream id) :=
  (w.releaseStream_tells id).trans (updateStream_tells _ _ _)

theorem dropStream_tells (id : Nat) : Tells reach w (w.dropStream id) :=
  (w.closeStream_tells id).trans (updateStream_tells _ _ _)

theorem useStream_tells {α : Type} (id : Nat) (f : Pipe → Pipe × Io α) :
    Tells reach w (w.useStream id f).1 := by
  unfold useStream
  split
  · exact .refl w
  next s _ =>
    have put : Tells reach w _ := w.putStream_tells s (s.touch (w.isCancelled s.scope) (w.lostText? s))
    dsimp only
    split
    · exact put
    · exact put.trans (script_tells _ _)

theorem publish_tells (g : Nat) (state : Stats.TunnelState) (info : String) :
    Tells reach w (w.publish g state info) := by
  unfold publish
  split
  · exact w.setConnectivity_tells state info
  · exact .refl w

section Dials

variable (d : TunnelDial)

theorem endLease_tells (lease : Lease) (failure : DialFailure) :
    Tells reach w (w.endLease d lease failure).1 :=
  w.updatePool_tells d.generation (·.release lease.slot)

theorem streamOpened_tells (lease : Lease) : Tells reach w (w.streamOpened d lease).1 :=
  .use (.raise .countersChanged) rfl rfl rfl

theorem answerOpen_tells (lease : Lease) (mode : Mode) :
    Tells reach w (w.answerOpen d lease mode).1 := by
  cases mode with
  | ok => exact w.streamOpened_tells d lease
  | fail failure => exact w.endLease_tells d lease _
  | stall => exact w.script_tells _

theorem openStream_tells (lease : Lease) : Tells reach w (w.openStream d lease).1 := by
  unfold openStream
  split
  · exact w.endLease_tells d lease _
  · split
    · exact w.endLease_tells d lease _
    · exact (w.script_tells _).trans (answerOpen_tells _ d lease _)

theorem pollOpening_tells (lease : Lease) (ticket : Nat) :
    Tells reach w (w.pollOpening d lease ticket).1 := by
  have left : Tells reach w { w with script := w.script.leaveOpening ticket } := w.script_tells _
  unfold pollOpening
  dsimp only
  split
  · exact left.trans (endLease_tells _ d lease _)
  · split
    · exact left.trans (endLease_tells _ d lease _)
    · split
      · exact left.trans (answerOpen_tells _ d lease _)
      · exact .refl w

theorem endCreation_tells (failure : DialFailure) : Tells reach w (w.endCreation d failure).1 :=
  w.updatePool_tells d.generation Pool.creationFailed

theorem dropLink_tells (link : Nat) (failure : DialFailure) :
    Tells reach w (w.dropLink d link failure).1 :=
  (w.closeConnection_tells link none).trans (endCreation_tells _ d failure)

theorem sessionArrived_tells (link : Nat) : Tells reach w (w.sessionArrived d link).1 := by
  have watched (u : World) (task : Task) (sessionWatches : List SessionWatch) :
      Tells reach u { u.spawn task with sessionWatches } := .silent rfl rfl rfl rfl
  unfold sessionArrived
  dsimp only
  refine Tells.trans (Tells.trans ?_ (publish_tells _ _ _ _)) (openStream_tells _ d _)
  exact ((w.script_tells _).trans (updatePool_tells _ _ _)).trans (watched _ _ _)

theorem answerHandshake_tells (link : Nat) (mode : Mode) :
    Tells reach w (w.answerHandshake d link mode).1 := by
  cases mode with
  | ok => exact w.sessionArrived_tells d link
  | fail failure => exact w.dropLink_tells d link _
  | stall => exact w.script_tells _

theorem shake_tells (link : Nat) : Tells reach w (w.shake d link).1 := by
  unfold shake
  split
  · exact w.dropLink_tells d link _
  · split
    · exact w.dropLink_tells d link _
    · split
      · exact w.dropLink_tells d link _
      · split
        · exact (w.script_tells _).trans (answerHandshake_tells _ d link _)
        · exact w.answerHandshake_tells d link _

theorem pollShaking_tells (link ticket : Nat) : Tells reach w (w.pollShaking d link ticket).1 := by
  have left : Tells reach w { w with script := w.script.leaveShaking ticket } := w.script_tells _
  unfold pollShaking
  dsimp only
  split
  · exact left.trans (dropLink_tells _ d link _)
  · split
    · exact left.trans (answerHandshake_tells _ d link _)
    · exact .refl w

theorem linked_tells (link : Progress Connecting) : Tells reach w (w.linked d link).1 := by
  cases link with
  | waiting link => exact .refl w
  | failed failure => exact w.endCreation_tells d failure
  | done link => exact w.shake_tells d link

theorem createSession_tells : Tells reach w (w.createSession d).1 := by
  unfold createSession
  split
  · exact w.endCreation_tells d _
  · split
    · exact w.endCreation_tells d _
    · exact (w.beginConnect_tells _).trans (linked_tells _ d _)

theorem pollLinking_tells (link : Connecting) : Tells reach w (w.pollLinking d link).1 := by
  unfold pollLinking
  split
  · exact (w.dropConnect_tells link).trans (endCreation_tells _ d _)
  · exact (w.pollConnect_tells link).trans (linked_tells _ d _)

theorem acquire_tells (first : Bool) : Tells reach w (w.acquire d first).1 := by
  have admitted : Tells reach w (w.updatePool d.generation fun _ =>
      ((w.pool d.generation).acquire w.settings.sessionCap first).1) := w.updatePool_tells _ _
  unfold acquire
  dsimp only
  split
  · exact admitted.trans (openStream_tells _ d _)
  · exact admitted.trans (createSession_tells _ d)
  · split
    · exact admitted.trans (updatePool_tells _ _ _)
    · exact admitted

theorem pollTunnelDial_tells : Tells reach w (w.pollTunnelDial d).1 := by
  unfold pollTunnelDial
  split
  · unfold pollAdmission
    split
    · exact w.acquire_tells d false
    · split
      · exact w.updatePool_tells _ _
      · exact .refl w
  · exact w.pollLinking_tells d _
  · exact w.pollShaking_tells d _ _
  · exact w.pollOpening_tells d _ _

theorem beginTunnelDial_tells (scope : Scope) (network address : String) :
    Tells reach w (w.beginTunnelDial scope network address).1 := by
  unfold beginTunnelDial
  dsimp only
  split
  · exact .refl w
  · exact w.acquire_tells _ true

theorem withdraw_tells : Tells reach w (w.withdraw d).1 := by
  unfold withdraw
  split
  · split
    · exact w.updatePool_tells _ _
    · exact .refl w
  · exact .refl w

theorem answer_tells (mode : Mode) : Tells reach w (w.answer mode d).1 := by
  unfold answer
  split
  · split
    · exact .refl w
    · exact (w.script_tells _).trans (answerOpen_tells _ d _ mode)
  · exact .refl w

end Dials

theorem closeSession_tells (session : Nat) : Tells reach w (w.closeSession session) := by
  unfold closeSession
  dsimp only
  split
  · exact (w.closeConnection_tells _ none).trans (script_tells _ _)
  · exact w.script_tells _

theorem endSession_tells (index : Nat) (watch : SessionWatch) (text : String) :
    Tells reach w (w.endSession index watch text) := by
  have trip (gen : Generation) : (gen.trip watch.slot text).params = gen.params := by
    unfold Generation.trip
    split <;> rfl
  have noted (u : World) (sessionWatches : List SessionWatch) :
      Tells reach u { u with sessionWatches } := .silent rfl rfl rfl rfl
  have ended : Tells reach w (((w.closeSession watch.session).updateGeneration watch.generation
      (·.trip watch.slot text))) :=
    (w.closeSession_tells _).trans (updateGeneration_tells _ _ trip)
  unfold endSession
  dsimp only
  split
  · exact ((ended.trans (noted _ _)).trans (updatePool_tells _ _ _)).trans (publish_tells _ _ _ _)
  · exact (ended.trans (noted _ _)).trans (updatePool_tells _ _ _)

theorem pollSessionWatch_tells (index : Nat) : Tells reach w (w.pollSessionWatch index) := by
  unfold pollSessionWatch
  split
  · exact .refl w
  · dsimp only
    split
    · exact .refl w
    · exact w.endSession_tells _ _ _

theorem disconnect_tells (index : Nat) : Tells reach w (w.disconnect index) := by
  unfold disconnect
  split
  · exact .refl w
  · split
    · exact .refl w
    · exact w.endSession_tells _ _ _

theorem pollStreamWatch_tells (index : Nat) : Tells reach w (w.pollStreamWatch index) := by
  unfold pollStreamWatch
  split
  · exact .refl w
  · split
    · exact .refl w
    · split
      · have ended (streamWatches : List StreamWatch) :
            Tells reach w { w with streamWatches } := .silent rfl rfl rfl rfl
        dsimp only
        split
        · exact ended _
        · split
          · exact (ended _).trans (releaseStream_tells _ _)
          · exact ended _
      · exact .refl w

theorem runFanOut_tells (index : Nat) : Tells reach w (w.runFanOut index) := by
  unfold runFanOut
  split
  · exact w.tearDownAll_tells _ _
  · exact .refl w

theorem pollAddressWatch_tells : Tells reach w w.pollAddressWatch := by
  have ended (t : WatchTask) (stage : WatchStage) : Tells reach w (w.endWatch t stage) :=
    .silent rfl rfl rfl rfl
  unfold pollAddressWatch
  split
  · exact .refl w
  · split
    · split
      · exact ended _ _
      · split <;> exact ended _ _
    · split
      · exact ended _ _
      · split
        · dsimp only
          split
          · exact (ended _ _).trans (raise_tells _ _)
          · exact ended _ _
        · exact .refl w
    · exact .refl w
    · exact .refl w

section Supervisor

variable {w}

theorem launch_tells (w : World) (orders : List FanOut) : Tells reach w (w.launch orders) := by
  unfold launch
  induction orders generalizing w with
  | nil => exact .refl w
  | cons o rest ih =>
    rw [List.foldl_cons]
    refine Tells.trans ?_ (ih _)
    exact .silent rfl rfl rfl rfl

theorem Supervises.tells (step : w.Supervises next) (inbox : reach w.supervisor.inbox) :
    Tells reach w next := by
  cases step with
  | command c rest =>
    have keeps := Supervisor.handle_keeps { w.supervisor with queue := rest } w.view c
    refine Tells.trans ?_ (launch_tells _ _)
    refine .silent rfl ?_ rfl rfl
    simp only [posts, keeps.inbox]
    rfl
  | watch x verdict =>
    have keeps := w.supervisor.watchResolved_keeps x verdict
    refine Tells.trans ?_ (launch_tells _ _)
    refine .silent rfl ?_ rfl rfl
    simp only [posts, keeps.inbox]
    rfl
  | news k =>
    refine Tells.trans ?_ (launch_tells _ _)
    exact .use (.receive _ inbox) rfl rfl rfl
  | silence => exact .silent rfl rfl rfl rfl

theorem stopSupervisor_tells (inbox : reach w.supervisor.inbox) :
    Tells reach w w.stopSupervisor := by
  unfold stopSupervisor
  refine Tells.trans ?_ (tearDownAll_tells _ _ _)
  exact .use (.abandon _ inbox) rfl rfl rfl

theorem supervise_tells (inbox : reach w.supervisor.inbox) : Tells reach w w.supervise := by
  have onward {u v : World} (before : Tells reach w u)
      (more : reach u.supervisor.inbox → Tells reach u v) : Tells reach w v := by
    have same : u.supervisor.inbox = w.supervisor.inbox := congrArg (·.inbox) before.posts
    exact before.trans (more (same ▸ inbox))
  exact supervise_keeps (p := Tells reach w) (fun step before => onward before step.tells)
    (fun _ before => onward before stopSupervisor_tells) (.refl w)

end Supervisor

theorem read_tells (h : Handle) (n : Nat) : Tells reach w (w.read h n).1 := by
  cases h with
  | connection id boxed => exact w.useConnection_tells id _
  | stream id boxed => exact w.useStream_tells id _

theorem write_tells (h : Handle) (bytes : List UInt8) : Tells reach w (w.write h bytes).1 := by
  cases h with
  | connection id boxed => exact w.useConnection_tells id _
  | stream id boxed => exact w.useStream_tells id _

theorem flush_tells (h : Handle) : Tells reach w (w.flush h).1 := by
  cases h with
  | connection id boxed => exact w.useConnection_tells id _
  | stream id boxed => exact w.useStream_tells id _

theorem shutdown_tells (h : Handle) : Tells reach w (w.shutdown h).1 := by
  cases h with
  | connection id boxed => exact w.useConnection_tells id _
  | stream id boxed => exact w.useStream_tells id _

theorem drop_tells (h : Handle) : Tells reach w (w.drop h) := by
  cases h with
  | connection id boxed => exact w.closeConnection_tells id none
  | stream id boxed => exact w.dropStream_tells id

theorem close_tells (h : Handle) : Tells reach w (w.close h) := by
  cases h with
  | connection id boxed => exact w.closeConnection_tells id none
  | stream id boxed => exact w.closeStream_tells id

theorem putHandle_tells (name : String) (h : Handle) : Tells reach w (w.putHandle name h) := by
  unfold putHandle
  dsimp only
  split
  · exact (w.drop_tells _).trans (.silent rfl rfl rfl rfl)
  · exact .silent rfl rfl rfl rfl

theorem owner_tells (name : String) {f : Handle → World} (each : ∀ h, Tells reach w (f h)) :
    Tells reach w (w.owner name f) := by
  unfold owner
  split
  next h _ => exact each h
  next => exact .refl w

section Calls

variable (id : String) (c : Call)

theorem governing?_setCall (other : String) : (w.setCall id c).governing? other =
    if other = id then ((w.call? id).map fun _ => c).filter Call.governs
    else w.governing? other := by
  unfold governing?
  rw [call?_setCall]
  split <;> rfl

theorem governing?_finish (f : Finish) (other : String) :
    (w.finish id f).governing? other = if other = id then none else w.governing? other := by
  unfold governing?
  rw [call?_finish]
  split <;> rfl

theorem governing?_addCall (other : String) : (w.addCall id c).governing? other =
    if other = id then (some c).filter Call.governs else w.governing? other := by
  unfold governing?
  rw [call?_addCall]
  split <;> rfl

variable {w id c}

theorem call?_of_governing (found : w.governing? id = some c) : w.call? id = some c :=
  (Option.filter_eq_some_iff.mp found).1

theorem governing_of_call (found : w.call? id = some c) (governs : c.governs) :
    w.governing? id = some c :=
  Option.filter_eq_some_iff.mpr ⟨found, governs⟩

variable (plain : w.governing? id = none) (tells : Tells reach w u)

include plain tells

theorem Tells.stays_plain : u.governing? id = none :=
  (congrFun (congrArg (·.calls) tells.posts) id).trans plain

theorem Tells.alter (bus : next.bus = u.bus) (inbox : next.supervisor.inbox = u.supervisor.inbox)
    (requests : next.shutdownRequests = u.shutdownRequests) (workers : next.workers = u.workers)
    (log : next.log = u.log) (tenure : next.tenure = u.tenure)
    (here : next.governing? id = none)
    (others : ∀ other, other ≠ id → next.governing? other = u.governing? other) :
    Tells reach w next := by
  refine tells.trans (.silent bus ?_ log tenure)
  have calls : next.governing? = u.governing? := by
    funext other
    by_cases same : other = id
    · rw [same, here, Tells.stays_plain plain tells]
    · exact others other same
  simp only [posts, inbox, requests, workers, calls]

theorem Tells.setCall (light : c.governs = false) : Tells reach w (u.setCall id c) := by
  refine Tells.alter plain tells rfl rfl rfl rfl rfl rfl ?_ fun other apart => ?_
  · rw [governing?_setCall, if_pos rfl]
    cases u.call? id <;> simp [light]
  · rw [governing?_setCall, if_neg apart]

theorem Tells.finish (f : Finish) : Tells reach w (u.finish id f) := by
  refine Tells.alter plain tells rfl rfl rfl rfl rfl rfl ?_ fun other apart => ?_
  · rw [governing?_finish, if_pos rfl]
  · rw [governing?_finish, if_neg apart]

theorem Tells.addCall (light : c.governs = false) : Tells reach w (u.addCall id c) := by
  refine Tells.alter plain tells rfl rfl rfl rfl rfl rfl ?_ fun other apart => ?_
  · rw [governing?_addCall, if_pos rfl]
    simp [light]
  · rw [governing?_addCall, if_neg apart]

end Calls

section Polls

variable {w} {id : String} (plain : w.governing? id = none)

include plain

theorem connectionDialed_tells (tells : Tells reach w u) (connection : Nat) (boxed : Bool) :
    Tells reach w (u.connectionDialed id connection boxed) := by
  have noted : Tells reach w ((u.putHandle id (.connection connection boxed)).notePeer id connection
      boxed) := by
    refine (tells.trans (putHandle_tells u id (.connection connection boxed))).trans ?_
    unfold notePeer
    dsimp only
    split <;> exact .silent rfl rfl rfl rfl
  unfold connectionDialed
  dsimp only
  split
  · exact noted.finish plain _
  · have handed (dialed : List (String × Nat)) : Tells reach w
        { (u.putHandle id (.connection connection boxed)).notePeer id connection boxed with dialed } :=
      noted.trans (.silent rfl rfl rfl rfl)
    split <;> exact Tells.finish plain (handed _) _

theorem streamDialed_tells (tells : Tells reach w u) (stream : Nat) (boxed : Bool) :
    Tells reach w (u.streamDialed id stream boxed) := by
  have put : Tells reach w (u.putHandle id (.stream stream boxed)) :=
    tells.trans (putHandle_tells _ _ _)
  unfold streamDialed
  dsimp only
  split
  · exact put.finish plain _
  · split <;> exact put.finish plain _

theorem connectProgress_tells (tells : Tells reach w u) (d : Dial) (boxed : Bool)
    (progress : Progress Connecting) : Tells reach w (u.connectProgress id d boxed progress) := by
  cases progress with
  | waiting c => exact tells.setCall plain rfl
  | failed failure => exact tells.finish plain _
  | done connection => exact connectionDialed_tells plain tells connection boxed

theorem tunnelProgress_tells (tells : Tells reach w u) (d : Dial) (boxed : Bool)
    (progress : Progress TunnelDial) : Tells reach w (u.tunnelProgress id d boxed progress) := by
  cases progress with
  | waiting t => exact tells.setCall plain rfl
  | failed failure => exact tells.finish plain _
  | done stream => exact streamDialed_tells plain tells stream boxed

theorem dialVia_tells (d : Dial) (via : Via) (boxed : Bool) :
    Tells reach w (w.dialVia id d via boxed) := by
  cases via with
  | manager | direct => exact connectProgress_tells plain (w.beginConnect_tells _) d boxed _
  | tunnel => exact tunnelProgress_tells plain (w.beginTunnelDial_tells _ _ _) d boxed _

theorem pollDial_tells (d : Dial) : Tells reach w (w.pollDial id d) := by
  unfold pollDial
  split
  · exact dialVia_tells plain d _ _
  · split
    · exact dialVia_tells plain d _ _
    · exact dialVia_tells plain d _ _
    · exact (Tells.refl w).finish plain _
  · exact connectProgress_tells plain (w.pollConnect_tells _) d _ _
  · exact tunnelProgress_tells plain (w.pollTunnelDial_tells _) d _ _

theorem pollRead_tells (h : Handle) (name : String) (n : Nat) :
    Tells reach w (w.pollRead id h name n) := by
  have read : Tells reach w (w.read h n).1 := w.read_tells h n
  unfold pollRead
  generalize w.read h n = result at read
  obtain ⟨u, io⟩ := result
  cases io with
  | pending => exact read
  | done bytes => exact Tells.finish plain (read.trans (putHandle_tells _ _ _)) _
  | failed failure => exact Tells.finish plain (read.trans (putHandle_tells _ _ _)) _

omit plain in
theorem join_tells (w : World) (worker : Nat) : Tells reach w (w.join worker).1 := by
  unfold join
  generalize w.workers.length + 1 = room
  induction room generalizing w worker with
  | zero => exact .refl w
  | succ room ih =>
    unfold joinFrom
    split
    · exact .refl w
    · split
      · exact .refl w
      · dsimp only
        split
        · refine Tells.trans ?_ (ih _ _)
          exact ⟨⟨.refl, rfl, List.prefix_append _ _⟩, rfl⟩
        · exact ih _ _

theorem pollJoin_tells (worker : Nat) : Tells reach w (w.pollJoin id worker) := by
  have joined : Tells reach w (w.join worker).1 := w.join_tells worker
  unfold pollJoin
  generalize w.join worker = result at joined
  obtain ⟨u, next⟩ := result
  cases next with
  | none => exact joined.finish plain _
  | some i => exact joined.setCall plain rfl

theorem pollCall_tells : Tells reach w (w.pollCall id) := by
  have light {c : Call} (found : w.call? id = some c) : c.governs = false := by
    simpa [governing?, found] using plain
  unfold pollCall
  split
  next => exact .refl w
  next d _ => exact pollDial_tells plain d
  next h name n _ => exact pollRead_tells plain h name n
  next found => cases light found
  next found => cases light found
  next found => cases light found
  next worker _ => exact pollJoin_tells plain worker

end Polls

theorem advance_tells (id : String) {f : TunnelDial → World × Progress TunnelDial}
    (each : ∀ t, Tells reach w (f t).1) : Tells reach w (w.advance id f) := by
  unfold advance
  split
  next d found =>
    have plain : w.governing? id = none := by simp [governing?, found, Call.governs]
    split
    next t boxed _ => exact tunnelProgress_tells plain (each t) _ boxed _
    next => exact .refl w
  next => exact .refl w

theorem abandon_tells (id : String) : Tells reach w (w.abandon id) := by
  unfold abandon
  split
  next d found =>
    have dropped : Tells reach w (w.dropDial d) := by
      unfold dropDial
      split
      · exact .refl w
      · exact w.dropConnect_tells _
      · split
        · exact .refl w
        · exact w.dropConnect_tells _
        · exact (w.script_tells _).trans (closeConnection_tells _ _ _)
        · exact w.script_tells _
    have plain : w.governing? id = none := by simp [governing?, found, Call.governs]
    refine Tells.alter plain dropped rfl rfl rfl rfl rfl rfl ?_ fun other apart => ?_
    · simp [governing?, call?, lookup_filter_ne]
    · simp [governing?, call?, lookup_filter_ne, apart]
  next => exact .refl w

end World

end Egress
