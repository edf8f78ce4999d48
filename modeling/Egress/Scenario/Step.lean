import Egress.World.Schedule

set_option autoImplicit false

namespace Egress.Scenario

open Simulation

inductive CountBy
  | add (n : Int32)
  | up
  | down
  deriving Repr

def CountBy.amount : CountBy → Int32
  | add n => n
  | up => 1
  | down => -1

inductive Action
  | addAddress (ip : Ip)
  | removeAddress (ip : Ip)
  | failAddresses (on : Bool)
  | advance (millis : Nat)
  | raise (kind : Event.Kind)
  | closeBus
  | count (counter : Stats.Counter) (change : CountBy)
  | settle
  | fault (kind : Fault)
  | interfaces (ips : Option (List Ip))
  | listen (name : String) (address : Endpoint)
  | unlisten (name : String)
  | scope (name : String) (parent : Option String) (isAlias : Bool)
  | cancel (scope : String)
  | dial (id : String) (carrier : Carrier) (network address : String) (scope : Option String)
      (hold : Bool)
  | resume (id : String)
  | close (id : String)
  | drop (id : String)
  | abort (id : String) (reason : AbortReason)
  | abortByHandle (id : String) (reason : AbortReason)
  | info (id : String) (scope : Option String)
  | read (id : String) (n : Nat)
  | pollRead (id : String) (n : Nat)
  | startRead (id : String) (n : Nat)
  | write (id : String) (data : String)
  | flush (id : String)
  | shutdown (id : String)
  | peerRead (id : String) (n : Nat)
  | peerWrite (id : String) (data : String)
  | peerClose (id : String)
  | peerReset (id : String)
  | farRead (address : String) (n : Nat)
  | farWrite (address : String) (data : String)
  | farClose (address : String)
  | reconnect (id : String) (params : Server.Params)
  | handshakeMode (mode : Mode)
  | streamMode (mode : Mode)
  | releaseHandshake (mode : Mode)
  | releaseStream (mode : Mode)
  | kill (session : Nat) (text : String)
  | linkClose (session : Nat)
  | linkReset (session : Nat)
  | linkWrite (session : Nat) (data : String)
  | linkInfo (session : Nat)
  | tunnelInfo
  | debug
  | stopSupervisor
  | setSites (sites : List Site.Rule)
  | putKey (key : Server.Key)
  | removeKey (id : String)
  | route (host : String)
  | setParams (id : String) (params : Server.Params)
  | storedParams
  | startup
  | requestShutdown
  | config
  | resubscribe
  | run (id : String)
  | signal (s : Signal)

-- The steps of a batch follow each other with nothing in between.
inductive Step
  | act (a : Action)
  | batch (steps : List Step)

inductive Missing
  | stream
  | dial
  | session
  | peer

structure ConnectionInfo where
  closed : Bool
  reason : Option String
  localAddr : Option Endpoint
  peer : Option Endpoint
  isScope : Option Bool
  scopeCancelled : Bool
  debug : String
  handle : String

inductive Reply
  | nothing
  | missing (what : Missing)
  | flag (value : Bool)
  | number (n : Nat)
  | word (text : String)
  | texts (lines : List String)
  | numbers (ns : List Nat)
  | data (bytes : List UInt8)
  | written (n : Nat)
  | io (failure : IoFailure)
  | connection (info : ConnectionInfo)
  | stream (closed : Bool) (address debug : String)
  | counter (value : Int) (debug : String)
  | link (closed : Bool) (peer : Option Endpoint)
  | params (p : Server.Params)
  | tunnel (p : Server.Params)
  | route (disposition : Site.Disposition) (hasTransport : Option Bool)
  | list (replies : List Reply)

end Egress.Scenario
