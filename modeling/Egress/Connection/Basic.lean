import Egress.Address.Endpoint
import Egress.Failure
import Egress.Scope
import Egress.Stats.Counters

set_option autoImplicit false

namespace Egress

-- A dialed connection. Its owner has the stream; a second handle on the same socket lets a teardown
-- reach the peer while the owner is idle.
structure Connection where
  id : Nat
  scope : Scope
  localAddr : Option Endpoint
  peer : Option Endpoint
  counter : Stats.Counter
  socket : Nat
  closed : Bool := false
  reason : Option AbortReason := none
  hasStream : Bool := true
  hasCopy : Bool := true
  deriving DecidableEq, Repr

namespace Connection

def localIp (c : Connection) : Option Ip := c.localAddr.map (·.ip.normalize)

def tearDown? (c : Connection) (reason : Option AbortReason) : Option Connection :=
  if c.closed then none else some { c with closed := true, reason, hasCopy := false }

def dropStream (c : Connection) : Connection := { c with hasStream := false }

def touch (c : Connection) : Connection := if c.closed then c.dropStream else c

def gone (c : Connection) : IoFailure :=
  match c.reason with
  | some reason => .aborted reason
  | none => .connectionClosed

def surface (c : Connection) (failure : IoFailure) : IoFailure :=
  match c.reason with
  | some reason => .aborted reason
  | none => failure

def describeAddr (addr : Option Endpoint) : String :=
  match addr with
  | some e => "Some(" ++ e.toText ++ ")"
  | none => "None"

def describe (c : Connection) : String :=
  s!"Conn \x7b id: {c.id}, local: {describeAddr c.localAddr}, peer: {describeAddr c.peer}, "
    ++ s!"closed: {c.closed} \x7d"

def describeHandle (c : Connection) : String :=
  s!"AbortHandle \x7b id: {c.id}, closed: {c.closed} \x7d"

end Connection

end Egress
