import Egress.World.Connect

set_option autoImplicit false

namespace Egress.World

open Simulation Tunnel

-- Only the current generation speaks for the tunnel, and only while it is not cancelled.
def publish (w : World) (generation : Nat) (state : Stats.TunnelState) (info : String) : World :=
  if generation = w.current && !w.isGenerationCancelled generation then
    w.setConnectivity state info
  else w

def isDialCancelled (w : World) (d : TunnelDial) : Bool :=
  w.isCancelled d.scope || w.isGenerationCancelled d.generation

def endLease (w : World) (d : TunnelDial) (lease : Lease) (failure : DialFailure) :
    World × Progress TunnelDial :=
  (w.updatePool d.generation (·.release lease.slot), .failed failure)

def streamOpened (w : World) (d : TunnelDial) (lease : Lease) : World × Progress TunnelDial :=
  let (script, pipe) := w.script.addPipe lease.session d.address
  let id := w.streams.length
  let stream : Tunnel.Stream :=
    { id, address := d.address, generation := d.generation, slot := lease.slot, scope := d.scope,
      pipe }
  let watch : StreamWatch := { stream := id }
  let w := ({ w with script }).count .tunnelConnections 1
  let w := w.spawn (.streamWatch w.streamWatches.length)
  ({ w with streams := w.streams ++ [stream], streamWatches := w.streamWatches ++ [watch] },
   .done id)

def answerOpen (w : World) (d : TunnelDial) (lease : Lease) : Mode → World × Progress TunnelDial
  | .ok => w.streamOpened d lease
  | .fail failure => w.endLease d lease (.stream d.address failure)
  | .stall =>
    let (script, ticket) := w.script.waitToOpen
    ({ w with script }, .waiting { d with stage := .opening lease ticket })

def openStream (w : World) (d : TunnelDial) (lease : Lease) : World × Progress TunnelDial :=
  if w.isDialCancelled d then w.endLease d lease .canceled
  else if w.script.isDone lease.session then w.endLease d lease (.stream d.address .closed)
  else
    let script := w.script.note (.opened lease.session d.network d.address)
    ({ w with script }).answerOpen d lease script.streamMode

def pollOpening (w : World) (d : TunnelDial) (lease : Lease) (ticket : Nat) :
    World × Progress TunnelDial :=
  let left : World := { w with script := w.script.leaveOpening ticket }
  if w.isDialCancelled d then left.endLease d lease .canceled
  else if w.script.isDone lease.session then left.endLease d lease (.stream d.address .closed)
  else
    match Script.released? w.script.opening ticket with
    | some mode => left.answerOpen d lease mode
    | none => (w, .waiting d)

def endCreation (w : World) (d : TunnelDial) (failure : DialFailure) :
    World × Progress TunnelDial :=
  (w.updatePool d.generation Pool.creationFailed, .failed failure)

def dropLink (w : World) (d : TunnelDial) (link : Nat) (failure : DialFailure) :
    World × Progress TunnelDial :=
  (w.closeConnection link none).endCreation d failure

def sessionArrived (w : World) (d : TunnelDial) (link : Nat) : World × Progress TunnelDial :=
  let (script, session) := w.script.addSession link
  let (pool, lease) := (w.pool d.generation).insert session
  let w := ({ w with script }).updatePool d.generation fun _ => pool
  let watch : SessionWatch := { generation := d.generation, slot := lease.slot, session }
  let w := w.spawn (.sessionWatch w.sessionWatches.length)
  let w := { w with sessionWatches := w.sessionWatches ++ [watch] }
  (w.publish d.generation .established "").openStream d lease

def serverAddr (w : World) (generation : Nat) : String :=
  ((w.generation? generation).map (·.serverAddr)).getD ""

def answerHandshake (w : World) (d : TunnelDial) (link : Nat) : Mode → World × Progress TunnelDial
  | .ok => w.sessionArrived d link
  | .fail failure =>
    w.dropLink d link (.handshake (w.serverAddr d.generation) failure)
  | .stall =>
    let (script, ticket) := w.script.waitToShake
    ({ w with script }, .waiting { d with stage := .shaking link ticket })

def noHandshake : TunnelFailure := .protocol "no tunnel handshake configured"

-- The link is up; unless the generation is over, the handshake begins.
def shake (w : World) (d : TunnelDial) (link : Nat) : World × Progress TunnelDial :=
  match w.generation? d.generation with
  | none => w.dropLink d link .canceled
  | some g =>
    match g.credentials with
    | none => w.dropLink d link .notConfigured
    | some credentials =>
      if w.isCancelled g.scope then w.dropLink d link .canceled
      else if w.wiring.handshake then
        let script := w.script.note (.handshake g.serverAddr g.params.login credentials)
        ({ w with script }).answerHandshake d link script.handshakeMode
      else w.answerHandshake d link (.fail noHandshake)

def pollShaking (w : World) (d : TunnelDial) (link ticket : Nat) : World × Progress TunnelDial :=
  let left : World := { w with script := w.script.leaveShaking ticket }
  if w.isDialCancelled d then left.dropLink d link .canceled
  else
    match Script.released? w.script.shaking ticket with
    | some mode => left.answerHandshake d link mode
    | none => (w, .waiting d)

def linked (w : World) (d : TunnelDial) : Progress Connecting → World × Progress TunnelDial
  | .waiting link => (w, .waiting { d with stage := .linking link })
  | .failed failure => w.endCreation d failure
  | .done link => w.shake d link

def createSession (w : World) (d : TunnelDial) : World × Progress TunnelDial :=
  if w.isCancelled d.scope then w.endCreation d .canceled
  else
    match w.generation? d.generation with
    | none => w.endCreation d .canceled
    | some g =>
      let (w, link) := w.beginConnect
        { scope := g.scope, network := "tcp", address := g.serverAddr, counter := .tunnelSessions }
      w.linked d link

def pollLinking (w : World) (d : TunnelDial) (link : Connecting) : World × Progress TunnelDial :=
  if w.isCancelled d.scope then (w.dropConnect link).endCreation d .canceled
  else
    let (w, link) := w.pollConnect link
    w.linked d link

def acquire (w : World) (d : TunnelDial) (first : Bool) : World × Progress TunnelDial :=
  let (pool, admission) := (w.pool d.generation).acquire w.settings.sessionCap first
  let w := w.updatePool d.generation fun _ => pool
  match admission with
  | .ready lease => w.openStream d lease
  | .create => w.createSession d
  | .wait ticket =>
    if w.isDialCancelled d then (w.updatePool d.generation Pool.withdraw, .failed .canceled)
    else (w, .waiting { d with stage := .waiting ticket })

def pollAdmission (w : World) (d : TunnelDial) (ticket : Nat) : World × Progress TunnelDial :=
  if (w.pool d.generation).isCalled ticket then w.acquire d false
  else if w.isDialCancelled d then (w.updatePool d.generation Pool.withdraw, .failed .canceled)
  else (w, .waiting d)

def beginTunnelDial (w : World) (scope : Scope) (network address : String) :
    World × Progress TunnelDial :=
  let generation := w.current
  if ((w.generation? generation).bind (·.credentials)).isNone then (w, .failed .notConfigured)
  else w.acquire { generation, scope, network, address, stage := .waiting 0 } true

def pollTunnelDial (w : World) (d : TunnelDial) : World × Progress TunnelDial :=
  match d.stage with
  | .waiting ticket => w.pollAdmission d ticket
  | .linking link => w.pollLinking d link
  | .shaking link ticket => w.pollShaking d link ticket
  | .opening lease ticket => w.pollOpening d lease ticket

def canPollTunnelDial (w : World) (d : TunnelDial) : Bool :=
  w.isDialCancelled d ||
    match d.stage with
    | .waiting ticket => (w.pool d.generation).isCalled ticket
    | .linking link => w.canPollConnect link
    | .shaking _ ticket => (Script.released? w.script.shaking ticket).isSome
    | .opening lease ticket =>
      w.script.isDone lease.session || (Script.released? w.script.opening ticket).isSome

-- Why a session ended, if it did: it was told to, or its link is at an end.
def sessionEnd? (w : World) (session : Nat) : Option String :=
  match w.script.session? session with
  | none => some ""
  | some s =>
    match s.killed with
    | some text => some text
    | none =>
      match w.connection? s.link with
      | none => some "link closed"
      | some link =>
        if link.closed then some ("link: " ++ link.gone.message)
        else
          match w.network.socket? link.socket with
          | none => some "link closed"
          | some socket =>
            if socket.reset then some ("link: " ++ resetByPeer.message)
            else if socket.isEnded .server then some "link closed"
            else none

def closeSession (w : World) (session : Nat) : World :=
  let w := match w.script.session? session with
    | some s => w.closeConnection s.link none
    | none => w
  { w with script := w.script.close session }

def endSession (w : World) (index : Nat) (watch : SessionWatch) (text : String) : World :=
  let w := w.closeSession watch.session
  let w := w.updateGeneration watch.generation (·.trip watch.slot text)
  let sessionWatches := w.sessionWatches.modify index fun s => { s with ended := true }
  let w := { w with sessionWatches }
  let (pool, last) := (w.pool watch.generation).remove watch.slot
  let w := w.updatePool watch.generation fun _ => pool
  if last then w.publish watch.generation .trying text else w

def canPollSessionWatch (w : World) (watch : SessionWatch) : Bool :=
  (w.sessionEnd? watch.session).isSome || w.isGenerationCancelled watch.generation

def pollSessionWatch (w : World) (index : Nat) : World :=
  match w.sessionWatches[index]? with
  | none => w
  | some watch =>
    let text? :=
      match w.sessionEnd? watch.session with
      | some text => some text
      | none =>
        if w.isGenerationCancelled watch.generation then some "tunnel disconnected" else none
    match text? with
    | none => w
    | some text => w.endSession index watch text

def canPollStreamWatch (w : World) (watch : StreamWatch) : Bool :=
  match w.stream? watch.stream with
  | none => true
  | some s => s.done || w.isGenerationCancelled s.generation || w.isCancelled s.scope

-- A stream whose scope is cancelled is released even if its owner is idle. Its watch ends without
-- doing so once the stream is closed or its generation over.
def pollStreamWatch (w : World) (index : Nat) : World :=
  match w.streamWatches[index]? with
  | none => w
  | some watch =>
    match w.stream? watch.stream with
    | none => w
    | some s =>
      if w.canPollStreamWatch watch then
        let streamWatches := w.streamWatches.modify index fun t => { t with ended := true }
        let w := { w with streamWatches }
        if s.done || w.isGenerationCancelled s.generation then w
        else if s.owned then w.releaseStream s.id
        else w
      else w

def dialGeneration? : Call → Option Nat
  | .dial { stage := .tunneling d _, .. } => some d.generation
  | _ => none

def isDrained (w : World) (generation : Nat) : Bool :=
  w.calls.all (fun c => dialGeneration? c.2 != some generation) &&
    w.sessionWatches.all (fun s => s.ended || s.generation != generation) &&
    w.streamWatches.all fun s =>
      s.ended || (w.stream? s.stream).all (·.generation != generation)

end Egress.World
