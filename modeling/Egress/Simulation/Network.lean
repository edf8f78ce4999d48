import Egress.Address.Endpoint
import Egress.Address.HostPort
import Egress.Address.Local
import Egress.Simulation.Pipe

set_option autoImplicit false

namespace Egress.Simulation

def os (kind : IoKind) (message : String) : IoFailure := .text kind message

def brokenPipe : IoFailure := os .brokenPipe "Broken pipe (os error 32)"
def resetByPeer : IoFailure := os .connectionReset "Connection reset by peer (os error 104)"
def unconnected : IoFailure :=
  os .notConnected "Transport endpoint is not connected (os error 107)"

def noInterfaces : IoFailure := os .other "interfaces unavailable"

structure Listener where
  name : String
  address : Endpoint

inductive Fault
  | connect
  | localAddr
  | peerAddr
  | dup
  | keepAlive
  deriving DecidableEq, Repr

inductive Side
  | dialer
  | server
  deriving DecidableEq, Repr

def Side.other : Side → Side
  | dialer => server
  | server => dialer

-- One end of a socket: its open handles, what it can read, and which directions it has shut.
structure SocketHalf where
  handles : Nat
  inbox : List UInt8 := []
  readShut : Bool := false
  writeShut : Bool := false

structure Socket where
  dialer : SocketHalf
  server : SocketHalf
  localAddr : Endpoint
  peerAddr : Endpoint
  reset : Bool := false
  faults : List Fault := []

structure Work where
  id : Nat
  granted : Bool := false

inductive Request
  | lookup (host : String)
  | connect (target : Endpoint)
  | keepAlive (millis : Nat)
  | keepAliveFailed

structure Network where
  up : Bool := false
  listeners : List Listener := []
  hosts : List (String × List Ip) := []
  locals : List (Ip × Ip) := []
  interfaces : Option (List Ip) := some []
  faults : List Fault := []
  sockets : List Socket := []
  works : List Work := []
  nextWork : Nat := 0
  requests : List Request := []

namespace Socket

def half (s : Socket) : Side → SocketHalf
  | .dialer => s.dialer
  | .server => s.server

def setHalf (s : Socket) (side : Side) (e : SocketHalf) : Socket :=
  match side with
  | .dialer => { s with dialer := e }
  | .server => { s with server := e }

def updateHalf (s : Socket) (side : Side) (f : SocketHalf → SocketHalf) : Socket :=
  s.setHalf side (f (s.half side))

def isEnded (s : Socket) (side : Side) : Bool :=
  (s.half side).writeShut || (s.half side).handles == 0

def isGone (s : Socket) (side : Side) : Bool :=
  (s.half side).readShut || (s.half side).handles == 0

def read (s : Socket) (side : Side) (n : Nat) : Socket × Io (List UInt8) :=
  let e := s.half side
  if s.reset then (s, .failed resetByPeer)
  else if !e.inbox.isEmpty then
    (s.setHalf side { e with inbox := e.inbox.drop n }, .done (e.inbox.take n))
  else if s.isEnded side.other || e.readShut then (s, .done [])
  else (s, .pending)

def canRead (s : Socket) (side : Side) : Bool :=
  match s.read side 1 with
  | (_, .pending) => false
  | _ => true

def write (s : Socket) (side : Side) (bytes : List UInt8) : Socket × Io Nat :=
  if s.reset then (s, .failed resetByPeer)
  else if (s.half side).writeShut || s.isGone side.other then (s, .failed brokenPipe)
  else
    (s.updateHalf side.other fun e => { e with inbox := e.inbox ++ bytes }, .done bytes.length)

def flush (_ : Socket) : Io Unit := .done ()

def shutdown (s : Socket) (side : Side) : Socket × Io Unit :=
  if s.reset then (s, .failed unconnected)
  else (s.updateHalf side fun e => { e with writeShut := true }, .done ())

def shutdownBoth (s : Socket) (side : Side) : Socket :=
  if s.reset then s
  else s.updateHalf side fun e => { e with writeShut := true, readShut := true }

def dropHandle (s : Socket) (side : Side) : Socket :=
  s.updateHalf side fun e => { e with handles := e.handles - 1 }

def addHandle (s : Socket) (side : Side) : Socket :=
  s.updateHalf side fun e => { e with handles := e.handles + 1 }

def doReset (s : Socket) : Socket := { s with reset := true }

end Socket

namespace Network

def log (n : Network) (r : Request) : Network := { n with requests := n.requests ++ [r] }

def startWork (n : Network) : Network × Nat :=
  ({ n with works := n.works ++ [{ id := n.nextWork }], nextWork := n.nextWork + 1 }, n.nextWork)

def isGranted (n : Network) (work : Nat) : Bool := n.works.any fun w => w.id == work && w.granted

def endWork (n : Network) (work : Nat) : Network :=
  { n with works := n.works.filter (·.id != work) }

def grantFirst : List Work → Option (List Work)
  | [] => none
  | w :: rest =>
    if w.granted then (grantFirst rest).map (w :: ·) else some ({ w with granted := true } :: rest)

def grant? (n : Network) : Option Network := (grantFirst n.works).map fun works => { n with works }

def port? (cs : List Char) : Option Nat :=
  let digits := match cs with
    | '+' :: rest => rest
    | _ => cs
  match Endpoint.readPort digits with
  | some (port, []) => some port
  | _ => none

def hostIps? (n : Network) (host : String) : Option (List Ip) :=
  match n.hosts.lookup host with
  | some ips => some ips
  | none => if host = "localhost" then some [.loopback] else none

def lookup (n : Network) (address : String) : Network × Except String (List Endpoint) :=
  match HostPort.cutLast ':' address.toList with
  | none => (n, .error "invalid socket address")
  | some (host, port) =>
    match port? port with
    | none => (n, .error "invalid port value")
    | some port =>
      let host := String.ofList host
      let n := n.log (.lookup host)
      match n.hostIps? host with
      | none => (n, .error "no such host")
      | some ips => (n, .ok (ips.map fun ip => { ip := ip, port }))

def unreachable (target : Endpoint) : String :=
  if target.ip.normalize.isV4 then "Network is unreachable (os error 101)"
  else "Cannot assign requested address (os error 99)"

def takeFault (n : Network) (f : Fault) : Network × Bool :=
  ({ n with faults := n.faults.erase f }, n.faults.contains f)

def takeFaults (n : Network) (fs : List Fault) : Network × List Fault :=
  fs.foldl (fun (n, taken) f =>
    let (n, found) := n.takeFault f
    (n, if found then taken ++ [f] else taken)) (n, [])

def isListening (n : Network) (target : Endpoint) : Bool :=
  n.listeners.any fun l =>
    l.address.ip.normalize == target.ip.normalize && l.address.port == target.port

def localIp (n : Network) (target : Endpoint) : Ip := (n.locals.lookup target.ip).getD target.ip

def firstLocalPort : Nat := 50001

def openSocket (n : Network) (target : Endpoint) : Network × Nat :=
  let (n, faults) := n.takeFaults [.localAddr, .peerAddr, .dup, .keepAlive]
  let socket : Socket :=
    { dialer := { handles := 1 }
      server := { handles := 1 }
      localAddr := { ip := n.localIp target, port := firstLocalPort + n.sockets.length }
      peerAddr := target
      faults }
  ({ n with sockets := n.sockets ++ [socket] }, n.sockets.length)

def connect (n : Network) (target : Endpoint) : Network × Except String Nat :=
  let (n, timedOut) := n.takeFault .connect
  if timedOut then (n, .error "Connection timed out (os error 110)")
  else if !n.isListening target then (n, .error "Connection refused (os error 111)")
  else
    let (n, socket) := n.openSocket target
    (n, .ok socket)

def update (n : Network) (socket : Nat) (f : Socket → Socket) : Network :=
  { n with sockets := n.sockets.modify socket f }

def socket? (n : Network) (socket : Nat) : Option Socket := n.sockets[socket]?

def hasFault (n : Network) (socket : Nat) (f : Fault) : Bool :=
  (n.socket? socket).any (·.faults.contains f)

def run {α : Type} (n : Network) (socket : Nat) (f : Socket → Socket × Io α) : Network × Io α :=
  match n.socket? socket with
  | none => (n, .failed unconnected)
  | some s =>
    let (s, result) := f s
    (n.update socket fun _ => s, result)

def systemAddresses (n : Network) : Except IoFailure LocalAddresses :=
  match n.interfaces with
  | some ips => .ok (.ofList ips)
  | none => .error noInterfaces

end Network

end Egress.Simulation
