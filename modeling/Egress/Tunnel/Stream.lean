import Egress.Failure
import Egress.Scope

set_option autoImplicit false

namespace Egress.Tunnel

-- A stream on a leased slot. `held` says that its lease still counts, `hasPipe` that its data path
-- is still there, and `owned` that somebody has the stream.
structure Stream where
  id : Nat
  address : String
  generation : Nat
  slot : Nat
  scope : Scope
  pipe : Nat
  held : Bool := true
  hasPipe : Bool := true
  owned : Bool := true
  done : Bool := false
  deriving DecidableEq, Repr

inductive Wait
  | scope
  | session
  deriving DecidableEq

namespace Stream

def release (s : Stream) : Stream := { s with held := false, hasPipe := false }

def dropPipe (s : Stream) : Stream := { s with hasPipe := false }

def isClosed (s : Stream) (lost : Option String) : Bool := !s.held || lost.isSome

def gone (lost : Option String) : IoFailure :=
  match lost with
  | some text => .aborted (.sessionLost text)
  | none => .connectionClosed

-- What one use asks, in this order, and whether the wait is over.
def asks (s : Stream) (cancelled : Bool) (lost : Option String) : List (Wait × Bool) :=
  if !s.hasPipe then []
  else if cancelled then [(.scope, true)]
  else [(.scope, false), (.session, lost.isSome)]

def told (s : Stream) : Wait × Bool → Stream
  | (_, false) => s
  | (.scope, true) => s.release
  | (.session, true) => s.dropPipe

def touch (s : Stream) (cancelled : Bool) (lost : Option String) : Stream :=
  (s.asks cancelled lost).foldl told s

def describe (s : Stream) (lost : Option String) : String :=
  "TunnelConn \x7b address: " ++ Text.quoted s.address ++ s!", closed: {s.isClosed lost} \x7d"

end Stream

end Egress.Tunnel
