import Egress.Address.HostPort
import Egress.Scope
import Egress.Server.Params
import Egress.Tunnel.Pool

set_option autoImplicit false

namespace Egress.Tunnel

structure Generation where
  scope : Scope
  params : Server.Params := {}
  serverAddr : String := ""
  credentials : Option Server.Credentials := none
  pool : Pool := {}
  -- Why the session of a slot ended; the first text stays.
  lost : List (Nat × String) := []

namespace Generation

def make (scope : Scope) (params : Server.Params) (keys : List Server.Key) (defaultPort : Nat) :
    Generation :=
  { scope
    params
    serverAddr := if params.addr.isEmpty then ""
      else HostPort.withDefaultPort params.addr defaultPort
    credentials := params.credentials keys }

def lostText? (g : Generation) (slot : Nat) : Option String := g.lost.lookup slot

def trip (g : Generation) (slot : Nat) (text : String) : Generation :=
  if (g.lostText? slot).isSome then g else { g with lost := g.lost ++ [(slot, text)] }

end Generation

end Egress.Tunnel
