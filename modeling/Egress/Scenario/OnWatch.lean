import Egress.Scenario.Entry

set_option autoImplicit false

namespace Egress.Scenario.OnWatch

inductive Step
  | addAddress (ip : Ip)
  | removeAddress (ip : Ip)
  | failAddresses (on : Bool)
  | advance (millis : Nat)
  | cancel
  | cancelParent

structure Entry where
  events : List Event.Kind
  stopped : Bool

inductive Ending
  | running
  | stopped
  | panicked

structure Setup where
  addresses : List Ip
  fail : Bool
  every : Duration
  lateStart : Bool

def stage (s : Setup) : Stage :=
  let w := ({ addresses := s.addresses, addressesFail := s.fail } : Scenario.Setup).base
  let w := w.addWatch s.every
  let (bus, subscription) := w.bus.subscribe []
  let stage : Stage := { world := { w with bus }, subscription }
  if s.lateStart then stage else stage.settle

def cancelWatch (w : World) : World :=
  match w.watch with
  | some t => { w with scopes := w.scopes.cancel t.scope }
  | none => w

def perform (s : Stage) : Step → Stage
  | .addAddress ip => (s.act (.addAddress ip)).1
  | .removeAddress ip => (s.act (.removeAddress ip)).1
  | .failAddresses on => (s.act (.failAddresses on)).1
  | .advance millis => (s.act (.advance millis)).1
  | .cancel => s.set (cancelWatch s.world)
  | .cancelParent => s.set { s.world with scopes := s.world.scopes.cancel s.world.root }

def run : Stage → List Step → List Entry × Stage
  | s, [] => ([], s.settle)
  | s, step :: rest =>
    let (s, events) := (perform s step).settle.drain
    let (entries, last) := run s rest
    ({ events, stopped := s.world.isWatchOver } :: entries, last)

def ending (w : World) : Ending :=
  match w.watch with
  | some { stage := .ended, .. } => .stopped
  | some { stage := .panicked, .. } => .panicked
  | _ => .running

def play (s : Setup) (steps : List Step) : List Entry × Ending :=
  let (entries, last) := run (stage s) steps
  (entries, ending last.world)

end Egress.Scenario.OnWatch
