import Egress.Scenario.Entry

set_option autoImplicit false

namespace Egress.Scenario.OnSubscribers

inductive Step
  | raise (kinds : List Event.Kind)
  | release (name : String) (permits : Nat)
  | size
  | close
  | join

structure Entry where
  size : Option Nat
  heard : List (String × List Event.Kind)
  log : List Event.LogLine
  count : Nat
  -- Whether the set is joined, once that has begun.
  joined : Option Bool
  ended : List Bool

structure Stage where
  world : World
  inSet : Bool
  joining : Bool := false

namespace Stage

def call : String := "join"

def update (s : Stage) (f : World → World) : Stage := { s with world := f s.world }

def release (name : String) (permits : Nat) (worker : Event.Worker) : Event.Worker :=
  if worker.subscriber.name = name then worker.release permits else worker

-- A set that is being joined is not there any more.
def join (s : Stage) : Stage :=
  if s.inSet && !s.joining then
    { s with joining := true, world := (s.world.addCall call (.join 0)).spawn (.call call) }
  else s

def perform (s : Stage) : Step → Stage × Option Nat
  | .raise kinds => (s.update fun w => kinds.foldl World.raise w, none)
  | .release name permits =>
    (s.update fun w => { w with workers := w.workers.map (release name permits) }, none)
  | .size => (s, if s.inSet && !s.joining then some s.world.workers.length else none)
  | .close => (s.update fun w => { w with bus := w.bus.close }, none)
  | .join => (s.join, none)

def entry (s : Stage) (size : Option Nat) : Entry :=
  { size
    heard := Scenario.Stage.heardBy s.world
    log := s.world.log
    count := s.world.bus.subscriberCount
    joined := if s.joining then some (s.world.call? call).isNone else none
    ended := if s.inSet then [] else s.world.workers.map (·.ended) }

def forget (s : Stage) : Stage :=
  s.update fun w =>
    { w with log := [], workers := w.workers.map fun worker => { worker with heard := [] } }

def run : Stage → List Step → List Entry
  | _, [] => []
  | s, step :: rest =>
    let (s, size) := s.perform step
    let s := s.update World.settle
    s.entry size :: run s.forget rest

end Stage

def play (subscribers : List Event.Subscriber) (inSet : Bool) (steps : List Step) : List Entry :=
  let world := subscribers.foldl World.addWorker ({} : Setup).base
  let s : Stage := { world := world.settle, inSet }
  s.run steps

end Egress.Scenario.OnSubscribers
