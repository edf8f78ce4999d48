import Egress.World.Teardown

set_option autoImplicit false

namespace Egress.World

def view (w : World) : Supervisor.View :=
  { cancelled := w.scopes.forest.isCancelled
    closed := w.isConnectionClosed
    addresses := w.localAddresses }

def launch (w : World) (orders : List FanOut) : World :=
  orders.foldl
    (fun w o => ({ w with fanOuts := w.fanOuts ++ [o] }).spawn (.fanOut w.fanOuts.length)) w

def hasNews (w : World) : Bool :=
  w.supervisor.busOpen && (w.bus.receive w.supervisor.inbox).2 != .pending

def stopSupervisor (w : World) : World :=
  let ids := w.supervisor.registry.members.map (·.id)
  let supervisor :=
    { w.supervisor with running := false, queue := [], registry := {} }
  let w := { w with supervisor, bus := w.bus.abandon w.supervisor.inbox }
  w.tearDownAll ids none

-- One step of the supervisor: a stop comes before commands, commands before scopes that are done,
-- those before address changes. `none` if it has to wait.
def superviseStep? (w : World) : Option World :=
  if !w.supervisor.running then none
  else if w.supervisor.stopping then some w.stopSupervisor
  else
    match w.supervisor.queue with
    | command :: rest =>
      let (supervisor, orders) := { w.supervisor with queue := rest }.handle w.view command
      some ({ w with supervisor }.launch orders)
    | [] =>
      match w.supervisor.registry.resolved? w.view.cancelled with
      | some watch =>
        let cancelled := w.view.cancelled watch.scope.token
        let (supervisor, orders) := w.supervisor.watchResolved watch cancelled
        some ({ w with supervisor }.launch orders)
      | none =>
        if w.hasNews then
          match w.bus.receive w.supervisor.inbox with
          | (bus, .kind _) =>
            let (supervisor, orders) := w.supervisor.addressesChanged w.view
            some ({ w with bus, supervisor }.launch orders)
          | _ => some { w with supervisor := { w.supervisor with busOpen := false } }
        else none

def canSupervise (w : World) : Bool :=
  w.supervisor.running &&
    (w.supervisor.stopping || !w.supervisor.queue.isEmpty ||
      (w.supervisor.registry.resolved? w.view.cancelled).isSome || w.hasNews)

def superviseFor : Nat → World → World
  | 0, w => w
  | n + 1, w =>
    match w.superviseStep? with
    | some next => superviseFor n next
    | none => w

-- The supervisor works until it has to wait. A command brings one watch at most.
def supervise (w : World) : World :=
  superviseFor (2 * w.supervisor.queue.length + w.supervisor.registry.watches.length + 3) w

end Egress.World
