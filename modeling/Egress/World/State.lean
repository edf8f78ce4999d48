import Egress.Address.Watch
import Egress.Connection.Supervisor
import Egress.Event.Worker
import Egress.Server.Store
import Egress.Settings
import Egress.Signal
import Egress.Simulation.Network
import Egress.Simulation.Script
import Egress.Tunnel.Generation
import Egress.Tunnel.Stream

set_option autoImplicit false

namespace Egress

structure ConnectRequest where
  scope : Scope
  network : String
  address : String
  counter : Stats.Counter
  deriving DecidableEq, Repr

inductive ConnectStage
  | resolving (work : Nat)
  | attempting (work : Nat) (target : Endpoint) (rest : List Endpoint)
  deriving DecidableEq, Repr

structure Connecting where
  request : ConnectRequest
  generation : Nat
  stage : ConnectStage
  deriving DecidableEq, Repr

inductive TunnelStage
  | waiting (ticket : Nat)
  | linking (link : Connecting)
  | shaking (link ticket : Nat)
  | opening (lease : Tunnel.Lease) (ticket : Nat)
  deriving DecidableEq, Repr

structure TunnelDial where
  generation : Nat
  scope : Scope
  network : String
  address : String
  stage : TunnelStage
  deriving DecidableEq, Repr

inductive Progress (suspended : Type)
  | waiting (place : suspended)
  | failed (failure : DialFailure)
  | done (id : Nat)

inductive Via
  | manager
  | direct
  | tunnel
  deriving DecidableEq, Repr

inductive Carrier
  | via (v : Via) (boxed : Bool)
  | route (host : String)
  deriving DecidableEq, Repr

inductive DialStage
  | fresh (carrier : Carrier)
  | connecting (c : Connecting) (boxed : Bool)
  | tunneling (d : TunnelDial) (boxed : Bool)
  deriving DecidableEq, Repr

structure Dial where
  scope : Scope
  network : String
  address : String
  stage : DialStage
  deriving DecidableEq, Repr

inductive Handle
  | connection (id : Nat) (boxed : Bool)
  | stream (id : Nat) (boxed : Bool)
  deriving DecidableEq, Repr

inductive ReconnectStage
  | fresh
  | locking
  | draining (generation : Nat)
  deriving DecidableEq, Repr

inductive RunStage
  | fresh
  | waiting (subscription : Nat)
  | disconnecting (stage : ReconnectStage)
  | unwatching
  | joining (worker : Nat)
  deriving DecidableEq, Repr

inductive Call
  | dial (d : Dial)
  | read (handle : Handle) (name : String) (n : Nat)
  | reconnect (params : Server.Params) (stage : ReconnectStage)
  | setParams (params : Server.Params) (stage : ReconnectStage)
  | run (stage : RunStage)
  | join (worker : Nat)
  deriving DecidableEq, Repr

inductive Finish
  | connection (localIp : Option Ip) (peer : Option Endpoint)
  | tunnelStream (address : String)
  | boxed
  | blocked
  | failed (failure : DialFailure)
  | data (bytes : List UInt8)
  | io (failure : IoFailure)
  | word (text : String)
  deriving DecidableEq, Repr

inductive Task
  | dispatcher
  | supervisor
  | addressWatch
  | worker (index : Nat)
  | fanOut (index : Nat)
  | sessionWatch (index : Nat)
  | streamWatch (index : Nat)
  | call (id : String)
  deriving DecidableEq, Repr

structure SessionWatch where
  generation : Nat
  slot : Nat
  session : Nat
  ended : Bool := false
  deriving DecidableEq, Repr

structure StreamWatch where
  stream : Nat
  ended : Bool := false
  deriving DecidableEq, Repr

inductive WatchStage
  | fresh
  | watching (w : AddressWatch)
  | ended
  | panicked
  deriving DecidableEq, Repr

structure WatchTask where
  scope : Scope
  every : Nat
  stage : WatchStage := .fresh

-- Which collaborators a runtime got; it has its own for the others.
structure Wiring where
  sites : Bool := true
  keys : Bool := true
  params : Bool := true
  handshake : Bool := true
  addresses : Bool := true

structure World where
  settings : Settings := {}
  wiring : Wiring := {}
  hasRuntime : Bool := false
  scopes : Scopes := {}
  root : Scope := { id := 0, token := 0 }
  bus : Event.Bus := {}
  counters : Stats.Counters := {}
  connectivity : Stats.Connectivity := {}
  store : Server.Store := {}
  ownStore : Server.Store := {}
  -- The given address source, and whether it fails at present.
  addresses : LocalAddresses := {}
  addressesFail : Bool := false
  watch : Option WatchTask := none
  supervisor : Supervisor := {}
  connections : List Connection := []
  generations : List Tunnel.Generation := []
  current : Nat := 0
  -- Calls that hold (the first) or await the right to reconnect.
  reconnecting : List String := []
  streams : List Tunnel.Stream := []
  workers : List Event.Worker := []
  fanOuts : List FanOut := []
  sessionWatches : List SessionWatch := []
  streamWatches : List StreamWatch := []
  -- The runtime's own subscription to shutdown requests, until somebody runs it.
  shutdownRequests : Option Nat := none
  signals : List Signal := []
  network : Simulation.Network := {}
  script : Simulation.Script := {}
  calls : List (String × Call) := []
  held : List String := []
  handles : List (String × Handle) := []
  -- Every connection handed out, by the name of its dial; an abort handle outlives its connection.
  dialed : List (String × Nat) := []
  peers : List (String × Nat) := []
  queue : List Task := []
  parked : List Task := []
  -- In nanoseconds.
  clock : Nat := 0
  finished : List (String × Finish) := []
  log : List Event.LogLine := []

namespace World

def isCancelled (w : World) (s : Scope) : Bool := w.scopes.isCancelled s

def raise (w : World) (k : Event.Kind) : World := { w with bus := w.bus.raise k }

def count (w : World) (c : Stats.Counter) (n : Int32) : World :=
  ({ w with counters := w.counters.add c n }).raise .countersChanged

def setConnectivity (w : World) (state : Stats.TunnelState) (info : String) : World :=
  match w.connectivity.set? state info with
  | some connectivity => ({ w with connectivity }).raise .connStateChanged
  | none => w

def spawn (w : World) (t : Task) : World := { w with queue := w.queue ++ [t] }

def sites (w : World) : List Site.Rule :=
  if w.wiring.sites then w.store.sites else w.ownStore.sites

def keys (w : World) : List Server.Key :=
  if w.wiring.keys then w.store.keys else w.ownStore.keys

def storedParams (w : World) : Server.Params :=
  if w.wiring.params then w.store.params else w.ownStore.params

def storeParams (w : World) (p : Server.Params) : World :=
  if w.wiring.params then { w with store := w.store.setParams p }
  else { w with ownStore := w.ownStore.setParams p }

def localAddresses (w : World) : Option LocalAddresses :=
  if !w.wiring.addresses then w.network.systemAddresses.toOption
  else if w.addressesFail then none
  else some w.addresses

def connection? (w : World) (id : Nat) : Option Connection := w.connections.find? (·.id = id)

def updateConnection (w : World) (id : Nat) (f : Connection → Connection) : World :=
  { w with connections := w.connections.map fun c => if c.id = id then f c else c }

def isConnectionClosed (w : World) (id : Nat) : Bool := (w.connection? id).all (·.closed)

def generation? (w : World) (g : Nat) : Option Tunnel.Generation := w.generations[g]?

def updateGeneration (w : World) (g : Nat) (f : Tunnel.Generation → Tunnel.Generation) : World :=
  { w with generations := w.generations.modify g f }

def updatePool (w : World) (g : Nat) (f : Tunnel.Pool → Tunnel.Pool) : World :=
  w.updateGeneration g fun gen => { gen with pool := f gen.pool }

def pool (w : World) (g : Nat) : Tunnel.Pool := ((w.generation? g).map (·.pool)).getD {}

def isGenerationCancelled (w : World) (g : Nat) : Bool :=
  (w.generation? g).all fun gen => w.isCancelled gen.scope

def stream? (w : World) (id : Nat) : Option Tunnel.Stream := w.streams[id]?

def updateStream (w : World) (id : Nat) (f : Tunnel.Stream → Tunnel.Stream) : World :=
  { w with streams := w.streams.modify id f }

def lostText? (w : World) (s : Tunnel.Stream) : Option String :=
  (w.generation? s.generation).bind (·.lostText? s.slot)

def call? (w : World) (id : String) : Option Call := w.calls.lookup id

def setCall (w : World) (id : String) (c : Call) : World :=
  { w with calls := w.calls.map fun (name, old) => (name, if name = id then c else old) }

def finish (w : World) (id : String) (f : Finish) : World :=
  { w with
    calls := w.calls.filter (·.1 != id)
    finished := w.finished ++ [(id, f)] }

def addCall (w : World) (id : String) (c : Call) : World :=
  { w with calls := w.calls.filter (·.1 != id) ++ [(id, c)] }

end World

end Egress
