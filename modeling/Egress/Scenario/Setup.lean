import Egress.Scenario.Perform

set_option autoImplicit false

namespace Egress.Scenario

open Simulation

structure Setup where
  listeners : List Listener := []
  up : Bool := false
  hosts : List (String × List Ip) := []
  locals : List (Ip × Ip) := []
  interfaces : Option (List Ip) := some []
  addresses : List Ip := []
  addressesFail : Bool := false
  settings : Settings := {}
  store : Server.Store := {}
  subscribers : List Event.Subscriber := []
  -- With a runtime, what it is given; the parts are wired by hand without one.
  runtime : Option Wiring := none
  logWriter : Bool := false

namespace Setup

def network (s : Setup) : Network :=
  { up := s.up
    listeners := s.listeners
    hosts := s.hosts
    locals := s.locals
    interfaces := s.interfaces }

def roster (s : Setup) : List Event.Subscriber :=
  match s.runtime with
  | none => []
  | some _ => s.subscribers ++ (if s.logWriter then [.logWriter] else [])

end Setup

end Scenario

namespace World

def addWorker (w : World) (subscriber : Event.Subscriber) : World :=
  let (bus, subscription) := w.bus.subscribe subscriber.kinds
  let w := ({ w with bus }).spawn (.worker w.workers.length)
  { w with workers := w.workers ++ [{ subscriber := subscriber, subscription }] }

def addSupervisor (w : World) : World :=
  let (bus, inbox) := w.bus.subscribe [.addrChanged]
  ({ w with bus, supervisor := { w.supervisor with inbox } }).spawn .supervisor

def addWatch (w : World) (every : Duration) : World :=
  let (scopes, scope) := w.scopes.child w.root
  ({ w with scopes, watch := some { scope := scope, every := every.nanos } }).spawn .addressWatch

def addTunnel (w : World) : World :=
  let (scopes, scope) := w.scopes.child w.root
  let initial : Tunnel.Generation := { scope := scope }
  { w with scopes, generations := [initial], current := 0 }

end World

namespace Scenario.Setup

def base (s : Setup) : World :=
  let (scopes, root) := ({} : Scopes).new
  ({ settings := s.settings
     wiring := s.runtime.getD {}
     hasRuntime := s.runtime.isSome
     scopes
     root
     store := s.store
     addresses := .ofList s.addresses
     addressesFail := s.addressesFail
     network := s.network } : World).spawn .dispatcher

-- A runtime reconnects to the stored parameters before its subscribers start.
def buildRuntime (s : Setup) (w : World) : World :=
  let (bus, requests) := w.bus.subscribe [.shutdownRequested]
  let w := ({ w with bus, shutdownRequests := some requests }).addSupervisor
  let w := match s.settings.pollInterval? with
    | some every => w.addWatch every
    | none => w
  let w := w.addTunnel
  let w := (w.swap w.storedParams).1
  s.roster.foldl World.addWorker w

def build (s : Setup) : World :=
  if s.runtime.isSome then s.buildRuntime s.base else s.base.addSupervisor.addTunnel

def stage (s : Setup) : Stage :=
  let w := s.build
  let (bus, subscription) := w.bus.subscribe []
  { world := { w with bus }, scopes := [("root", w.root)], subscription }

end Scenario.Setup

end Egress
