import Egress.Failure
import Egress.Server.Params
import Egress.Simulation.Pipe

set_option autoImplicit false

namespace Egress.Simulation

inductive Mode
  | ok
  | stall
  | fail (failure : TunnelFailure)
  deriving DecidableEq, Repr

-- A session owns its link until it is closed, and the far ends of its streams.
structure Session where
  link : Nat
  killed : Option String := none
  closed : Bool := false
  farEnds : List (String × Nat) := []

inductive Note
  | handshake (server login : String) (credentials : Server.Credentials)
  | opened (session : Nat) (network address : String)

structure Waiting where
  ticket : Nat
  released : Option Mode := none

structure Script where
  handshakeMode : Mode := .ok
  streamMode : Mode := .ok
  sessions : List Session := []
  shaking : List Waiting := []
  opening : List Waiting := []
  nextTicket : Nat := 0
  pipes : List Pipe := []
  notes : List Note := []

namespace Script

def note (s : Script) (n : Note) : Script := { s with notes := s.notes ++ [n] }

def session? (s : Script) (session : Nat) : Option Session := s.sessions[session]?

def updateSession (s : Script) (session : Nat) (f : Session → Session) : Script :=
  { s with sessions := s.sessions.modify session f }

def updatePipe (s : Script) (pipe : Nat) (f : Pipe → Pipe) : Script :=
  { s with pipes := s.pipes.modify pipe f }

def isDone (s : Script) (session : Nat) : Bool :=
  (s.session? session).all fun t => t.closed || t.killed.isSome

def addSession (s : Script) (link : Nat) : Script × Nat :=
  ({ s with sessions := s.sessions ++ [{ link := link }] }, s.sessions.length)

-- A stream's pipe, its far end kept under the address. An older far end there goes.
def addPipe (s : Script) (session : Nat) (address : String) : Script × Nat :=
  let old := ((s.session? session).bind (·.farEnds.lookup address))
  let s := match old with
    | some pipe => s.updatePipe pipe Pipe.drop
    | none => s
  let pipe := s.pipes.length
  let s := { s with pipes := s.pipes ++ [({} : Pipe)] }
  (s.updateSession session fun t =>
    { t with farEnds := t.farEnds.filter (·.1 != address) ++ [(address, pipe)] }, pipe)

def farEnd? (s : Script) (address : String) : Option Nat :=
  s.sessions.findSome? (·.farEnds.lookup address)

def dropFarEnd (s : Script) (address : String) : Script :=
  match s.farEnd? address with
  | none => s
  | some pipe =>
    let s := s.updatePipe pipe Pipe.drop
    { s with
      sessions := s.sessions.map fun t =>
        { t with farEnds := t.farEnds.filter (·.2 != pipe) } }

def close (s : Script) (session : Nat) : Script :=
  let ends := ((s.session? session).map (·.farEnds)).getD []
  let s := ends.foldl (fun s e => s.updatePipe e.2 Pipe.drop) s
  s.updateSession session fun t => { t with closed := true, farEnds := [] }

def waitToShake (s : Script) : Script × Nat :=
  ({ s with shaking := s.shaking ++ [{ ticket := s.nextTicket }], nextTicket := s.nextTicket + 1 },
   s.nextTicket)

def waitToOpen (s : Script) : Script × Nat :=
  ({ s with opening := s.opening ++ [{ ticket := s.nextTicket }], nextTicket := s.nextTicket + 1 },
   s.nextTicket)

def released? (waiting : List Waiting) (ticket : Nat) : Option Mode :=
  (waiting.find? (·.ticket == ticket)).bind (·.released)

def leaveShaking (s : Script) (ticket : Nat) : Script :=
  { s with shaking := s.shaking.filter (·.ticket != ticket) }

def leaveOpening (s : Script) (ticket : Nat) : Script :=
  { s with opening := s.opening.filter (·.ticket != ticket) }

def releaseFirst (mode : Mode) : List Waiting → Option (List Waiting)
  | [] => none
  | w :: rest =>
    if w.released.isSome then (releaseFirst mode rest).map (w :: ·)
    else some ({ w with released := some mode } :: rest)

end Script

end Egress.Simulation
