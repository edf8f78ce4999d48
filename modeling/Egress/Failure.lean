import Egress.Text.Quoted

set_option autoImplicit false

namespace Egress

inductive TunnelFailure
  | auth (text : String)
  | protocol (text : String)
  | closed
  deriving DecidableEq, Repr

namespace TunnelFailure

def label : TunnelFailure → String
  | auth _ => "tunnel_auth"
  | protocol _ => "tunnel_protocol"
  | closed => "tunnel_closed"

def message : TunnelFailure → String
  | auth text => "authentication failed: " ++ text
  | protocol text => text
  | closed => "session closed"

def describe : TunnelFailure → String
  | auth text => "Auth(" ++ Text.quoted text ++ ")"
  | protocol text => "Protocol(" ++ Text.quoted text ++ ")"
  | closed => "Closed"

end TunnelFailure

inductive AbortReason
  | netDisconnected
  | sessionLost (text : String)
  deriving DecidableEq, Repr

namespace AbortReason

def label : AbortReason → String
  | netDisconnected => "abort_net_disconnected"
  | sessionLost _ => "abort_session_lost"

def message : AbortReason → String
  | netDisconnected => "disconnected from network"
  | sessionLost text => "tunnel session lost: " ++ text

def describe : AbortReason → String
  | netDisconnected => "NetDisconnected"
  | sessionLost text => "SessionLost(" ++ Text.quoted text ++ ")"

end AbortReason

inductive IoKind
  | notConnected
  | connectionAborted
  | connectionReset
  | brokenPipe
  | other
  deriving DecidableEq, Repr

def IoKind.label : IoKind → String
  | notConnected => "NotConnected"
  | connectionAborted => "ConnectionAborted"
  | connectionReset => "ConnectionReset"
  | brokenPipe => "BrokenPipe"
  | other => "Other"

inductive IoFailure
  | bare (kind : IoKind)
  | text (kind : IoKind) (message : String)
  | aborted (reason : AbortReason)
  | nested (kind : IoKind) (inner : IoFailure)
  deriving DecidableEq, Repr

namespace IoFailure

def connectionClosed : IoFailure := .text .notConnected "connection closed"

def kind : IoFailure → IoKind
  | bare kind => kind
  | text kind _ => kind
  | aborted _ => .connectionAborted
  | nested kind _ => kind

def kindMessage : IoKind → String
  | .notConnected => "not connected"
  | .connectionAborted => "connection aborted"
  | .connectionReset => "connection reset"
  | .brokenPipe => "broken pipe"
  | .other => "other error"

def message : IoFailure → String
  | bare kind => kindMessage kind
  | text _ message => message
  | aborted reason => reason.message
  | nested _ inner => inner.message

-- Only the failure itself can carry a reason, not one inside it.
def abortReason? : IoFailure → Option AbortReason
  | aborted reason => some reason
  | _ => none

end IoFailure

inductive DialFailure
  | notConfigured
  | unsupportedNetwork (network : String)
  | resolve (addr source : String)
  | connect (addr source : String)
  | handshake (addr : String) (reason : TunnelFailure)
  | stream (addr : String) (reason : TunnelFailure)
  | canceled
  deriving DecidableEq, Repr

namespace DialFailure

def label : DialFailure → String
  | notConfigured => "dial_not_configured"
  | unsupportedNetwork _ => "dial_unsupported_network"
  | resolve _ _ => "dial_resolve_failed"
  | connect _ _ => "dial_connect_failed"
  | handshake _ _ => "dial_handshake_failed"
  | stream _ _ => "dial_stream_failed"
  | canceled => "dial_canceled"

def message : DialFailure → String
  | notConfigured => "server not configured"
  | unsupportedNetwork network => "unsupported network " ++ Text.quoted network
  | resolve addr source => "can't resolve " ++ Text.quoted addr ++ ": " ++ source
  | connect addr source => "can't connect to " ++ Text.quoted addr ++ ": " ++ source
  | handshake addr reason =>
    "can't connect to the server " ++ Text.quoted addr ++ ": " ++ reason.message
  | stream addr reason => "server can't connect to " ++ Text.quoted addr ++ ": " ++ reason.message
  | canceled => "dial canceled"

def isConfig : DialFailure → Bool
  | notConfigured => true
  | _ => false

def source? : DialFailure → Option String
  | resolve _ source => some source
  | connect _ source => some source
  | _ => none

end DialFailure

end Egress
