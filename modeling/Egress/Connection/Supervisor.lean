import Egress.Connection.Registry

set_option autoImplicit false

namespace Egress

inductive Command
  | add (member : Member) (generation : Nat)
  | remove (id : Nat)
  deriving DecidableEq, Repr

structure FanOut where
  ids : List Nat
  reason : Option AbortReason
  deriving DecidableEq, Repr

-- Keeps the registry. Connections report to it in a queue; it answers cancelled scopes and changed
-- addresses with fan-outs. The generation counts the address changes it has handled.
structure Supervisor where
  registry : Registry := {}
  queue : List Command := []
  generation : Nat := 0
  stopping : Bool := false
  running : Bool := true
  busOpen : Bool := true
  inbox : Nat := 0
  nextId : Nat := 1
  deriving DecidableEq, Repr

structure Supervisor.View where
  cancelled : Nat → Bool
  closed : Nat → Bool
  addresses : Option LocalAddresses

namespace Supervisor

def send (s : Supervisor) (c : Command) : Supervisor :=
  if s.running then { s with queue := s.queue ++ [c] } else s

def order (ids : List Nat) (reason : Option AbortReason) : List FanOut :=
  if ids.isEmpty then [] else [⟨ids, reason⟩]

def revalidate (s : Supervisor) (v : View) : List FanOut :=
  match v.addresses with
  | some addresses => order (s.registry.stranded addresses) (some .netDisconnected)
  | none => []

-- An addition is void if the connection is closed by now. If the addresses changed since it was
-- dialed, they are checked at once.
def handle (s : Supervisor) (v : View) : Command → Supervisor × List FanOut
  | .add m generation =>
    if v.closed m.id then (s, [])
    else
      match s.registry.add? m with
      | none => (s, [])
      | some registry =>
        let s := { s with registry }
        (s, if generation = s.generation then [] else s.revalidate v)
  | .remove id => ({ s with registry := s.registry.remove id }, [])

def watchResolved (s : Supervisor) (w : ScopeWatch) (cancelled : Bool) : Supervisor × List FanOut :=
  let registry := s.registry.dropWatch w.number
  if cancelled then
    let (registry, ids) := registry.scopeDone w.scope.id
    ({ s with registry }, order ids none)
  else ({ s with registry }, [])

def addressesChanged (s : Supervisor) (v : View) : Supervisor × List FanOut :=
  let s := { s with generation := s.generation + 1 }
  (s, s.revalidate v)

def describe (s : Supervisor) : String :=
  s!"ConnManager \x7b addr_generation: {s.generation}, stopped: {s.stopping} \x7d"

end Supervisor

end Egress
