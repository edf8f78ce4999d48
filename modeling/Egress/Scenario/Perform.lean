import Egress.Scenario.Step
import Egress.Text.Utf8

set_option autoImplicit false

namespace Egress.Scenario

open Simulation

structure Stage where
  world : World
  scopes : List (String × Scope) := []
  subscription : Nat := 0
  -- Dials begun without the scope they need: each panics as soon as it runs.
  strays : List String := []
  panicked : Bool := false

namespace Stage

def set (s : Stage) (w : World) : Stage := { s with world := w }

def scope? (s : Stage) (name : String) : Option Scope := s.scopes.lookup name

def wake (s : Stage) : Stage := s.set s.world.wake

def settle (s : Stage) : Stage := s.set s.world.settle

def start (s : Stage) (id : String) (c : Call) : Stage × Reply :=
  ({ s with
      world := (s.world.addCall id c).spawn (.call id)
      strays := s.strays.filter (· != id) }, .nothing)

def withHandle (s : Stage) (id : String) (f : Handle → Stage × Reply) : Stage × Reply :=
  match s.world.handles.lookup id with
  | some h => f h
  | none => (s, .missing .stream)

def ofIo {α : Type} (f : α → Reply) : Io α → Reply
  | .done a => f a
  | .failed failure => .io failure
  | .pending => .word "pending"

def beginDial (s : Stage) (id : String) (dial : Dial) (hold : Bool) : Stage × Reply :=
  if hold then
    let w := if s.world.held.contains id then s.world.abandon id else s.world
    let w := (w.addCall id (.dial dial)).pollCall id
    (s.set (if (w.call? id).isSome then { w with held := w.held ++ [id] } else w), .nothing)
  else s.start id (.dial dial)

-- A dial without a scope takes the calls of its name along.
def stray (s : Stage) (id : String) : Stage :=
  { s with
    world := { s.world with calls := s.world.calls.filter (·.1 != id) }
    strays := s.strays.filter (· != id) ++ [id] }

-- Only a transport of its own choosing has a scope to fall back on.
def dial (s : Stage) (id : String) (carrier : Carrier) (network address : String)
    (scope : Option String) (hold : Bool) : Stage × Reply :=
  match scope.bind s.scope?, carrier with
  | some scope, _ =>
    s.beginDial id { scope, network, address, stage := .fresh carrier } hold
  | none, .via _ false => (if hold then { s with panicked := true } else s.stray id, .nothing)
  | none, _ =>
    s.beginDial id { scope := s.world.root, network, address, stage := .fresh carrier } hold

def resume (s : Stage) (id : String) : Stage × Reply :=
  let w := s.world
  if w.held.contains id then
    (s.set ({ w with held := w.held.filter (· != id) }.spawn (.call id)), .nothing)
  else (s, .missing .dial)

def info (s : Stage) (h : Handle) (scope : Option String) : Reply :=
  match h with
  | .connection _ true | .stream _ true => .word "boxed"
  | .connection id false =>
    match s.world.connection? id with
    | none => .missing .stream
    | some c =>
      .connection
        { closed := c.closed
          reason := c.reason.map (·.message)
          localAddr := c.localAddr
          peer := c.peer
          isScope := scope.map fun name => (s.scope? name).any c.scope.same
          scopeCancelled := s.world.isCancelled c.scope
          debug := c.describe
          handle := c.describeHandle }
  | .stream id false =>
    match s.world.stream? id with
    | none => .missing .stream
    | some t =>
      let lost := s.world.lostText? t
      .stream (t.isClosed lost) t.address (t.describe lost)

def abort (s : Stage) (h : Handle) (reason : AbortReason) : Stage × Reply :=
  match h with
  | .connection id false => (s.set (s.world.closeConnection id (some reason)), .nothing)
  | _ => (s, .missing .stream)

def abortByHandle (s : Stage) (id : String) (reason : AbortReason) : Stage × Reply :=
  match s.world.dialed.lookup id with
  | some connection =>
    let (w, did) := s.world.tearDown connection (some reason)
    (s.set w, .flag did)
  | none => (s, .missing .stream)

def startRead (s : Stage) (id : String) (n : Nat) : Stage × Reply :=
  s.withHandle id fun h =>
    (s.set (s.world.removeHandle id)).start ("read:" ++ id) (.read h id n)

def serverEnd? (w : World) (socket : Nat) : Option Nat := do
  let s ← w.network.socket? socket
  if s.server.handles = 0 then none else some socket

def peer? (w : World) (id : String) : Option Nat := do serverEnd? w (← w.peers.lookup id)

def linkPeer? (w : World) (session : Nat) : Option Nat := do
  let s ← w.script.session? session
  if s.closed then none
  else
    let link ← w.connection? s.link
    if link.peer.isSome then serverEnd? w link.socket else none

def withSocket (s : Stage) (socket : Option Nat) (f : World → Nat → World × Reply) :
    Stage × Reply :=
  match socket with
  | some socket => let (w, reply) := f s.world socket; (s.set w, reply)
  | none => (s, .missing .peer)

def serverWrite (w : World) (data : String) (socket : Nat) : World × Reply :=
  let (network, result) := w.network.run socket (·.write .server (Text.encode data))
  ({ w with network }, ofIo (fun _ => .nothing) result)

def serverRead (w : World) (n : Nat) (socket : Nat) : World × Reply :=
  let (network, result) := w.network.run socket (·.read .server n)
  ({ w with network }, ofIo .data result)

def serverClose (w : World) (socket : Nat) : World :=
  { w with network := w.network.update socket (·.dropHandle .server) }

def serverReset (w : World) (socket : Nat) : World :=
  { w with network := w.network.update socket Socket.doReset }

def withSession (s : Stage) (session : Nat) (f : Session → Stage × Reply) : Stage × Reply :=
  match s.world.script.session? session with
  | some t => f t
  | none => (s, .missing .session)

def onFarEnd {α : Type} (s : Stage) (address : String) (f : Pipe → Pipe × Io α)
    (reply : α → Reply) : Stage × Reply :=
  let script := s.world.script
  match script.farEnd? address with
  | none => (s, .missing .peer)
  | some id =>
    match script.pipes[id]? with
    | none => (s, .missing .peer)
    | some pipe =>
      let (pipe, result) := f pipe
      (s.set { s.world with script := script.updatePipe id fun _ => pipe }, ofIo reply result)

def linkInfo (s : Stage) (session : Nat) : Stage × Reply :=
  s.withSession session fun t =>
    match if t.closed then none else s.world.connection? t.link with
    | some link => (s, .link link.closed link.peer)
    | none => (s, .nothing)

def release (waiting : List Waiting) (mode : Mode) (put : List Waiting → Script) (s : Stage) :
    Stage × Reply :=
  match Script.releaseFirst mode waiting with
  | some waiting => (s.set { s.world with script := put waiting }, .flag true)
  | none => (s, .flag false)

def currentParams (w : World) : Server.Params :=
  ((w.generation? w.current).map (·.params)).getD {}

def describeTunnel (w : World) : String :=
  match w.generation? w.current with
  | none => ""
  | some g =>
    "TunnelTransport \x7b generation: Generation \x7b scope: Scope \x7b id: #, cancelled: "
      ++ s!"{w.isCancelled g.scope} \x7d, server_addr: {Text.quoted g.serverAddr}, "
      ++ s!"configured: {g.credentials.isSome} \x7d, cap: {w.settings.sessionCap} \x7d"

def isRunning (w : World) : Bool :=
  w.calls.any fun c => match c.2 with
    | .run (.waiting _) => true
    | _ => false

def route (w : World) (host : String) : Reply :=
  let disposition :=
    if w.hasRuntime then Site.route w.sites host else Site.route w.store.sites host
  .route disposition (if w.hasRuntime then some (disposition != .block) else none)

def setScope (s : Stage) (name : String) (parent : Option String) (isAlias : Bool) : Stage :=
  let parent := parent.bind s.scope?
  let (scopes, scope) := match parent with
    | some p => if isAlias then (s.world.scopes, p) else s.world.scopes.child p
    | none => s.world.scopes.new
  { s with
    world := { s.world with scopes }
    scopes := s.scopes.filter (·.1 != name) ++ [(name, scope)] }

def act (s : Stage) : Action → Stage × Reply
  | .addAddress ip =>
    (s.set { s.world with addresses := s.world.addresses.insert ip }, .nothing)
  | .removeAddress ip =>
    (s.set { s.world with addresses := s.world.addresses.remove ip }, .nothing)
  | .failAddresses on => (s.set { s.world with addressesFail := on }, .nothing)
  | .advance millis =>
    let s := s.settle
    (s.set { s.world with clock := s.world.clock + (Duration.ofMillis millis).nanos }, .nothing)
  | .raise kind => (s.set (s.world.raise kind), .nothing)
  | .closeBus => (s.set { s.world with bus := s.world.bus.close }, .nothing)
  | .count counter change =>
    let w := s.world.count counter change.amount
    (s.set w, .counter (w.counters.get counter).toInt (w.counters.describeOne counter))
  | .settle => (s.settle, .nothing)
  | .fault kind =>
    let faults := s.world.network.faults ++ [kind]
    (s.set { s.world with network := { s.world.network with faults } }, .nothing)
  | .interfaces interfaces =>
    (s.set { s.world with network := { s.world.network with interfaces } }, .nothing)
  | .listen name address =>
    let listeners := s.world.network.listeners.filter (·.name != name) ++ [⟨name, address⟩]
    (s.set { s.world with network := { s.world.network with listeners } }, .nothing)
  | .unlisten name =>
    let listeners := s.world.network.listeners.filter (·.name != name)
    (s.set { s.world with network := { s.world.network with listeners } }, .nothing)
  | .scope name parent isAlias => (s.setScope name parent isAlias, .nothing)
  | .cancel name =>
    match s.scope? name with
    | some scope => (s.set { s.world with scopes := s.world.scopes.cancel scope }, .nothing)
    | none => (s, .nothing)
  | .dial id carrier network address scope hold => s.dial id carrier network address scope hold
  | .resume id => s.resume id
  | .close id => s.withHandle id fun h => (s.set (s.world.close h), .nothing)
  | .drop id => s.withHandle id fun h => (s.set ((s.world.drop h).removeHandle id), .nothing)
  | .abort id reason => s.withHandle id fun h => s.abort h reason
  | .abortByHandle id reason => s.abortByHandle id reason
  | .info id scope => s.withHandle id fun h => (s, s.info h scope)
  | .read id n =>
    let s := s.settle
    s.withHandle id fun h =>
      let (w, result) := s.world.read h n
      (s.set w, ofIo .data result)
  | .pollRead id n => s.withHandle id fun h =>
      let (w, result) := s.world.read h n
      (s.set w, ofIo .data result)
  | .startRead id n => s.startRead id n
  | .write id data => s.withHandle id fun h =>
      let (w, result) := s.world.write h (Text.encode data)
      (s.set w, ofIo .written result)
  | .flush id => s.withHandle id fun h =>
      let (w, result) := s.world.flush h
      (s.set w, ofIo (fun _ => .word "ok") result)
  | .shutdown id => s.withHandle id fun h =>
      let (w, result) := s.world.shutdown h
      (s.set w, ofIo (fun _ => .word "ok") result)
  | .peerRead id n => s.withSocket (peer? s.world id) fun w => serverRead w n
  | .peerWrite id data => s.withSocket (peer? s.world id) fun w => serverWrite w data
  | .peerClose id =>
    match peer? s.world id with
    | some socket => (s.set (serverClose s.world socket), .nothing)
    | none => (s, .nothing)
  | .peerReset id =>
    s.withSocket (peer? s.world id) fun w socket => (serverReset w socket, .nothing)
  | .farRead address n =>
    s.onFarEnd address
      (fun p => let (outward, result) := p.outward.read n; ({ p with outward }, result)) .data
  | .farWrite address data =>
    s.onFarEnd address
      (fun p =>
        let (inward, result) := p.inward.write (Text.encode data)
        ({ p with inward }, result)) .written
  | .farClose address =>
    match s.world.script.farEnd? address with
    | some _ => (s.set { s.world with script := s.world.script.dropFarEnd address }, .nothing)
    | none => (s, .missing .peer)
  | .reconnect id params => s.start id (.reconnect params .fresh)
  | .handshakeMode mode =>
    (s.set { s.world with script := { s.world.script with handshakeMode := mode } }, .nothing)
  | .streamMode mode =>
    (s.set { s.world with script := { s.world.script with streamMode := mode } }, .nothing)
  | .releaseHandshake mode =>
    s.release s.world.script.shaking mode fun shaking => { s.world.script with shaking }
  | .releaseStream mode =>
    s.release s.world.script.opening mode fun opening => { s.world.script with opening }
  | .kill session text => s.withSession session fun t =>
      let script := s.world.script.updateSession session fun t => { t with killed := some text }
      (if t.closed then s else s.set { s.world with script }, .nothing)
  | .linkClose session => s.withSession session fun _ =>
      s.withSocket (linkPeer? s.world session) fun w socket => (serverClose w socket, .nothing)
  | .linkReset session => s.withSession session fun _ =>
      s.withSocket (linkPeer? s.world session) fun w socket => (serverReset w socket, .nothing)
  | .linkWrite session data => s.withSession session fun _ =>
      s.withSocket (linkPeer? s.world session) fun w => serverWrite w data
  | .linkInfo session => s.linkInfo session
  | .tunnelInfo => (s, .tunnel (currentParams s.world))
  | .debug =>
    (s, .texts
      [s.world.supervisor.describe, describeTunnel s.world,
       s.world.counters.describeOne .tcpConnections])
  | .stopSupervisor =>
    (s.set { s.world with supervisor := { s.world.supervisor with stopping := true } }, .nothing)
  | .setSites sites => (s.set { s.world with store := s.world.store.setSites sites }, .nothing)
  | .putKey key => (s.set { s.world with store := s.world.store.putKey key }, .nothing)
  | .removeKey id =>
    let (store, found) := s.world.store.removeKey id
    (s.set { s.world with store }, .flag found)
  | .route host => (s, route s.world host)
  | .setParams id params => s.start id (.setParams params .fresh)
  | .storedParams => (s, .params s.world.storedParams)
  | .startup => (s.set (s.world.raise .startup), .nothing)
  | .requestShutdown => (s.set (s.world.raise .shutdownRequested), .nothing)
  | .config => (s, .numbers [s.world.settings.sessionCap, s.world.settings.defaultServerPort])
  | .resubscribe =>
    let (bus, subscription) := s.world.bus.subscribe []
    let bus := bus.unsubscribe s.subscription
    ({ s with world := { s.world with bus }, subscription }, .number bus.subscriberCount)
  | .run id => s.start id (.run .fresh)
  | .signal signal =>
    let s := s.settle
    let signals := s.world.signals ++ [signal]
    (if isRunning s.world then s.set { s.world with signals } else s, .nothing)

mutual

def perform (s : Stage) : Step → Stage × Reply
  | .act a => s.act a
  | .batch steps =>
    let (s, replies) := s.performAll steps
    (s, .list replies)

def performAll (s : Stage) : List Step → Stage × List Reply
  | [] => (s, [])
  | step :: rest =>
    let (s, reply) := s.perform step
    let (s, replies) := s.wake.performAll rest
    (s, reply :: replies)

end

end Stage

end Egress.Scenario
