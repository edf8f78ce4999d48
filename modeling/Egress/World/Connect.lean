import Egress.World.Teardown

set_option autoImplicit false

namespace Egress.World

open Simulation

def family? : String → Option (Option Bool)
  | "tcp" => some none
  | "tcp4" => some (some true)
  | "tcp6" => some (some false)
  | _ => none

def suits (family : Option Bool) (e : Endpoint) : Bool := family.all (· == e.ip.isV4)

-- Attempts the addresses in order, each once. `last` is the failure of the attempt before. A
-- working network leaves the attempt to the kernel; without one it fails at once.
def attempt (request : ConnectRequest) (generation : Nat) :
    List Endpoint → Option String → World → World × Progress Connecting
  | [], last, w => (w, .failed (.connect request.address (last.getD "address not available")))
  | target :: rest, _, w =>
    if w.network.up then
      let (network, work) := (w.network.log (.connect target)).startWork
      ({ w with network },
       .waiting { request, generation, stage := .attempting work target rest })
    else attempt request generation rest (some (Network.unreachable target)) w

def attemptAll (w : World) (request : ConnectRequest) (generation : Nat) (family : Option Bool)
    (found : List Endpoint) : World × Progress Connecting :=
  match found.filter (suits family) with
  | [] => (w, .failed (.resolve request.address s!"no {request.network} address found"))
  | targets => attempt request generation targets none w

def establish (w : World) (c : Connecting) (socket : Nat) : World × Progress Connecting :=
  let network := match w.settings.keepAlive? with
    | none => w.network
    | some idle =>
      w.network.log (if w.network.hasFault socket .keepAlive then .keepAliveFailed
        else .keepAlive idle.wholeMillis)
  let has (f : Fault) : Bool := !network.hasFault socket f
  let id := w.supervisor.nextId
  let connection : Connection :=
    { id
      scope := c.request.scope
      localAddr := if has .localAddr then (network.socket? socket).map (·.localAddr) else none
      peer := if has .peerAddr then (network.socket? socket).map (·.peerAddr) else none
      counter := c.request.counter
      socket
      hasCopy := has .dup }
  let network := if has .dup then network.update socket (·.addHandle .dialer) else network
  let supervisor := { w.supervisor with nextId := id + 1 }
  let w := { w with network, supervisor, connections := w.connections ++ [connection] }
  let w := w.count c.request.counter 1
  ({ w with supervisor := w.supervisor.send (.add connection.member c.generation) }, .done id)

def beginConnect (w : World) (request : ConnectRequest) : World × Progress Connecting :=
  if w.isCancelled request.scope then (w, .failed .canceled)
  else
    match family? request.network with
    | none => (w, .failed (.unsupportedNetwork request.network))
    | some family =>
      let generation := w.supervisor.generation
      match Endpoint.ofString? request.address with
      | some target =>
        w.attemptAll request generation family [target]
      | none =>
        let (network, work) := w.network.startWork
        ({ w with network }, .waiting { request, generation, stage := .resolving work })

def work : ConnectStage → Nat
  | .resolving work => work
  | .attempting work _ _ => work

def dropConnect (w : World) (c : Connecting) : World :=
  { w with network := w.network.endWork (work c.stage) }

def canPollConnect (w : World) (c : Connecting) : Bool :=
  w.isCancelled c.request.scope || w.network.isGranted (work c.stage)

-- A later poll. Cancellation comes first, whatever the kernel did meanwhile.
def pollConnect (w : World) (c : Connecting) : World × Progress Connecting :=
  if w.isCancelled c.request.scope then (w.dropConnect c, .failed .canceled)
  else if !w.network.isGranted (work c.stage) then (w, .waiting c)
  else
    let w := w.dropConnect c
    match c.stage with
    | .resolving _ =>
      let (network, found) := w.network.lookup c.request.address
      let w := { w with network }
      match found with
      | .error source => (w, .failed (.resolve c.request.address source))
      | .ok found =>
        w.attemptAll c.request c.generation ((family? c.request.network).getD none) found
    | .attempting _ target rest =>
      let (network, outcome) := w.network.connect target
      let w := { w with network }
      match outcome with
      | .error source => attempt c.request c.generation rest (some source) w
      | .ok socket => w.establish c socket

end Egress.World
