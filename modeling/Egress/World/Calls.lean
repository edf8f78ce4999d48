import Egress.World.Supervise
import Egress.World.TunnelDial

set_option autoImplicit false

namespace Egress.World

open Simulation

def readConnection (w : World) (id n : Nat) : World × Io (List UInt8) :=
  w.useConnection id (·.read .dialer n)

def readStream (w : World) (id n : Nat) : World × Io (List UInt8) :=
  w.useStream id fun p =>
    let (inward, result) := p.inward.read n
    ({ p with inward }, result)

def read (w : World) (h : Handle) (n : Nat) : World × Io (List UInt8) :=
  match h with
  | .connection id _ => w.readConnection id n
  | .stream id _ => w.readStream id n

def isPending {α : Type} : Io α → Bool
  | .pending => true
  | _ => false

def canRead (w : World) (h : Handle) : Bool := !isPending (w.read h 1).2

def write (w : World) (h : Handle) (bytes : List UInt8) : World × Io Nat :=
  match h with
  | .connection id _ => w.useConnection id (·.write .dialer bytes)
  | .stream id _ => w.useStream id fun p =>
      let (outward, result) := p.outward.write bytes
      ({ p with outward }, result)

def flush (w : World) (h : Handle) : World × Io Unit :=
  match h with
  | .connection id _ => w.useConnection id fun s => (s, s.flush)
  | .stream id _ => w.useStream id fun p => (p, .done ())

def shutdown (w : World) (h : Handle) : World × Io Unit :=
  match h with
  | .connection id _ => w.useConnection id (·.shutdown .dialer)
  | .stream id _ => w.useStream id fun p => ({ p with outward := p.outward.close }, .done ())

def drop (w : World) (h : Handle) : World :=
  match h with
  | .connection id _ => w.closeConnection id none
  | .stream id _ => w.dropStream id

def close (w : World) (h : Handle) : World :=
  match h with
  | .connection id _ => w.closeConnection id none
  | .stream id _ => w.closeStream id

def removeHandle (w : World) (name : String) : World :=
  { w with handles := w.handles.filter (·.1 != name) }

def putHandle (w : World) (name : String) (h : Handle) : World :=
  let w := match w.handles.lookup name with
    | some old => w.drop old
    | none => w
  { w.removeHandle name with handles := (w.removeHandle name).handles ++ [(name, h)] }

def pollRead (w : World) (call : String) (h : Handle) (name : String) (n : Nat) : World :=
  match w.read h n with
  | (w, .pending) => w
  | (w, .done bytes) => (w.putHandle name h).finish call (.data bytes)
  | (w, .failed failure) => (w.putHandle name h).finish call (.io failure)

-- The other end is told by the address it was reached at. A boxed stream has forgotten that
-- address, but not where it was dialed to.
def notePeer (w : World) (name : String) (id : Nat) (boxed : Bool) : World :=
  let others := w.peers.filter (·.1 != name)
  match (w.connection? id).filter fun c => boxed || c.peer.isSome with
  | some c => { w with peers := others ++ [(name, c.socket)] }
  | none => { w with peers := others }

def connectionDialed (w : World) (name : String) (id : Nat) (boxed : Bool) : World :=
  let w := (w.putHandle name (.connection id boxed)).notePeer name id boxed
  if boxed then w.finish name .boxed
  else
    let others := w.dialed.filter (·.1 != name)
    let w : World := { w with dialed := others ++ [(name, id)] }
    match w.connection? id with
    | some c => w.finish name (.connection (c.localAddr.map Endpoint.ip) c.peer)
    | none => w.finish name .boxed

def streamDialed (w : World) (name : String) (id : Nat) (boxed : Bool) : World :=
  let w := w.putHandle name (.stream id boxed)
  if boxed then w.finish name .boxed
  else
    match w.stream? id with
    | some s => w.finish name (.tunnelStream s.address)
    | none => w.finish name .boxed

def connectProgress (w : World) (name : String) (d : Dial) (boxed : Bool) :
    Progress Connecting → World
  | .waiting c => w.setCall name (.dial { d with stage := .connecting c boxed })
  | .failed failure => w.finish name (.failed failure)
  | .done id => w.connectionDialed name id boxed

def tunnelProgress (w : World) (name : String) (d : Dial) (boxed : Bool) :
    Progress TunnelDial → World
  | .waiting t => w.setCall name (.dial { d with stage := .tunneling t boxed })
  | .failed failure => w.finish name (.failed failure)
  | .done id => w.streamDialed name id boxed

def dialVia (w : World) (name : String) (d : Dial) (via : Via) (boxed : Bool) : World :=
  match via with
  | .manager | .direct =>
    let (w, progress) := w.beginConnect
      { scope := d.scope, network := d.network, address := d.address, counter := .tcpConnections }
    w.connectProgress name d boxed progress
  | .tunnel =>
    let (w, progress) := w.beginTunnelDial d.scope d.network d.address
    w.tunnelProgress name d boxed progress

def pollDial (w : World) (name : String) (d : Dial) : World :=
  match d.stage with
  | .fresh (.via via boxed) => w.dialVia name d via boxed
  | .fresh (.route host) =>
    match Site.route w.sites host with
    | .bypass => w.dialVia name d .direct true
    | .forward => w.dialVia name d .tunnel true
    | .block => w.finish name .blocked
  | .connecting c boxed =>
    let (w, progress) := w.pollConnect c
    w.connectProgress name d boxed progress
  | .tunneling t boxed =>
    let (w, progress) := w.pollTunnelDial t
    w.tunnelProgress name d boxed progress

def canPollDial (w : World) (d : Dial) : Bool :=
  match d.stage with
  | .fresh _ => true
  | .connecting c _ => w.canPollConnect c
  | .tunneling t _ => w.canPollTunnelDial t

-- A dial is dropped before it has ended. What it holds itself goes with it: its work in the kernel,
-- or a link that has not become a session.
def dropDial (w : World) (d : Dial) : World :=
  match d.stage with
  | .fresh _ => w
  | .connecting c _ => w.dropConnect c
  | .tunneling t _ =>
    match t.stage with
    | .waiting _ => w
    | .linking link => w.dropConnect link
    | .shaking link ticket =>
      ({ w with script := w.script.leaveShaking ticket }).closeConnection link none
    | .opening _ ticket => { w with script := w.script.leaveOpening ticket }

def abandon (w : World) (id : String) : World :=
  match w.call? id with
  | some (.dial d) =>
    let w := w.dropDial d
    { w with calls := w.calls.filter (·.1 != id), held := w.held.filter (· != id) }
  | _ => w

-- Where a reconnect stands after a poll: `none` when it is through.
abbrev Reconnected := World × Option ReconnectStage

def unlock (w : World) : World := { w with reconnecting := w.reconnecting.drop 1 }

def awaitDrain (w : World) (generation : Nat) : Reconnected :=
  if w.isDrained generation then (w.unlock, none) else (w, some (.draining generation))

-- Puts a new generation in the place of the current one, whose scope is cancelled. The same
-- parameters change nothing.
def swap (w : World) (params : Server.Params) : Reconnected :=
  let old := w.current
  match w.generation? old with
  | none => (w.unlock, none)
  | some g =>
    if g.params = params then (w.unlock, none)
    else
      let (scopes, scope) := w.scopes.child w.root
      let fresh := Tunnel.Generation.make scope params w.keys w.settings.defaultServerPort
      let state := if fresh.credentials.isSome then .trying else .notConfigured
      let w :=
        { w with
          scopes := scopes.cancel g.scope
          generations := w.generations ++ [fresh]
          current := w.generations.length }
      (w.setConnectivity state "").awaitDrain old

def holdsLock (w : World) (call : String) : Bool := w.reconnecting.head? == some call

def pollReconnect (w : World) (call : String) (params : Server.Params) :
    ReconnectStage → Reconnected
  | .fresh =>
    let w := { w with reconnecting := w.reconnecting ++ [call] }
    if w.holdsLock call then w.swap params else (w, some .locking)
  | .locking => if w.holdsLock call then w.swap params else (w, some .locking)
  | .draining generation => w.awaitDrain generation

def canPollReconnect (w : World) (call : String) : ReconnectStage → Bool
  | .fresh => true
  | .locking => w.holdsLock call
  | .draining generation => w.isDrained generation

def pollReconnectCall (w : World) (call : String) (params : Server.Params)
    (stage : ReconnectStage) : World :=
  match w.pollReconnect call params stage with
  | (w, some stage) => w.setCall call (.reconnect params stage)
  | (w, none) => w.finish call (.word "reconnected")

def setParamsProgress (call : String) (params : Server.Params) : Reconnected → World
  | (w, some stage) => w.setCall call (.setParams params stage)
  | (w, none) => (w.raise .serverParamsChanged).finish call (.word "params set")

def pollSetParams (w : World) (call : String) (params : Server.Params) (stage : ReconnectStage) :
    World :=
  let w := match stage with
    | .fresh => w.storeParams params
    | _ => w
  setParamsProgress call params (w.pollReconnect call params stage)

def isWatchOver (w : World) : Bool :=
  w.watch.all fun t => match t.stage with
    | .ended | .panicked => true
    | _ => false

-- The number of the task is left out.
def joinError : Event.Payload → String
  | .text message => "task # panicked with message " ++ Text.quoted message
  | .other => "task # panicked"

def joinFrom : (room : Nat) → (worker : Nat) → World → World × Option Nat
  | 0, _, w => (w, none)
  | room + 1, i, w =>
    match w.workers[i]? with
    | none => (w, none)
    | some worker =>
      if !worker.ended then (w, some i)
      else
        let w := match worker.failure with
          | some payload =>
            { w with log := w.log ++
                [.workerFailed worker.subscriber.name (joinError payload)] }
          | none => w
        joinFrom room (i + 1) w

def join (w : World) (worker : Nat) : World × Option Nat :=
  joinFrom (w.workers.length + 1) worker w

def joinWorkers (w : World) (call : String) (worker : Nat) : World :=
  match w.join worker with
  | (w, some i) => w.setCall call (.run (.joining i))
  | (w, none) => w.finish call (.word "stopped")

def awaitWatch (w : World) (call : String) : World :=
  if w.isWatchOver then ({ w with bus := w.bus.close }).joinWorkers call 0
  else w.setCall call (.run .unwatching)

def runDisconnect (w : World) (call : String) (stage : ReconnectStage) : World :=
  match w.pollReconnect call {} stage with
  | (w, some stage) => w.setCall call (.run (.disconnecting stage))
  | (w, none) =>
    ({ w with supervisor := { w.supervisor with stopping := true } }).awaitWatch call

def shutDown (w : World) (call : String) : World :=
  ({ w with scopes := w.scopes.cancel w.root }).runDisconnect call .fresh

def awaitShutdown (w : World) (call : String) (subscription : Nat) : World :=
  match Signal.awaited w.signals with
  | some _ => (({ w with signals := [] }).raise .shutdownRequested).shutDown call
  | none =>
    match w.bus.receive subscription with
    | (bus, .pending) => { w with bus }.setCall call (.run (.waiting subscription))
    | (bus, _) => { w with bus }.shutDown call

def pollRun (w : World) (call : String) : RunStage → World
  | .fresh =>
    match w.shutdownRequests with
    | none => w.finish call (.word "stopped")
    | some subscription =>
      { w with shutdownRequests := none }.awaitShutdown call subscription
  | .waiting subscription => w.awaitShutdown call subscription
  | .disconnecting stage => w.runDisconnect call stage
  | .unwatching => w.awaitWatch call
  | .joining worker => w.joinWorkers call worker

def isWorkerOver (w : World) (worker : Nat) : Bool := (w.workers[worker]?).all (·.ended)

def canPollRun (w : World) (call : String) : RunStage → Bool
  | .fresh => true
  | .waiting subscription =>
    (Signal.awaited w.signals).isSome || (w.bus.receive subscription).2 != .pending
  | .disconnecting stage => w.canPollReconnect call stage
  | .unwatching => w.isWatchOver
  | .joining worker => w.isWorkerOver worker

def pollJoin (w : World) (call : String) (worker : Nat) : World :=
  match w.join worker with
  | (w, some i) => w.setCall call (.join i)
  | (w, none) => w.finish call (.word "joined")

def pollCall (w : World) (id : String) : World :=
  match w.call? id with
  | none => w
  | some (.dial d) => w.pollDial id d
  | some (.read h name n) => w.pollRead id h name n
  | some (.reconnect params stage) => w.pollReconnectCall id params stage
  | some (.setParams params stage) => w.pollSetParams id params stage
  | some (.run stage) => w.pollRun id stage
  | some (.join worker) => w.pollJoin id worker

def canPollCall (w : World) (id : String) : Bool :=
  match w.call? id with
  | none => false
  | some (.dial d) => w.canPollDial d
  | some (.read h _ _) => w.canRead h
  | some (.reconnect _ stage) => w.canPollReconnect id stage
  | some (.setParams _ stage) => w.canPollReconnect id stage
  | some (.run stage) => w.canPollRun id stage
  | some (.join worker) => w.isWorkerOver worker

end Egress.World
