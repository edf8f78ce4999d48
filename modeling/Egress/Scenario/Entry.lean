import Egress.Scenario.Setup

set_option autoImplicit false

namespace Egress.Scenario

open Simulation

structure Heard where
  changed : List Event.Kind
  subscribers : List (String × List Event.Kind)
  log : List Event.LogLine

structure Entry where
  reply : Reply
  counters : List (Stats.Counter × Int)
  tracked : Nat × Nat × Nat
  generation : Nat
  connectivity : Stats.Connectivity
  sessions : Nat
  planned : Nat
  loads : List Nat
  conns : List (String × Bool)
  heard : Option Heard
  finished : List (String × Finish)
  panicked : List String
  pending : List String
  notes : List Note
  requests : List Request
  sessionsClosed : List Bool
  rootCancelled : Bool
  busClosed : Bool

namespace Stage

def drainFor : (room : Nat) → Stage → Stage × List Event.Kind
  | 0, s => (s, [])
  | room + 1, s =>
    match s.world.bus.receive s.subscription with
    | (bus, .kind k) =>
      let s := (s.set { s.world with bus }).settle
      let (s, kinds) := drainFor room s
      (s, k :: kinds)
    | (bus, _) => (s.set { s.world with bus }, [])

def drain (s : Stage) : Stage × List Event.Kind := drainFor 100 s

def tracked (w : World) : Nat × Nat × Nat :=
  if w.supervisor.running then
    (w.supervisor.registry.members.length, w.supervisor.registry.byScope.length,
     w.supervisor.registry.byAddress.length)
  else (0, 0, 0)

def handleState (w : World) (name : String) (h : Handle) : Option (String × Bool) :=
  match h with
  | .stream id false => (w.stream? id).map fun t => (name, t.isClosed (w.lostText? t))
  | _ => none

def closedStates (w : World) : List (String × Bool) :=
  w.dialed.map (fun (name, id) => (name, w.isConnectionClosed id))
    ++ w.handles.filterMap fun (name, h) => handleState w name h

def heardBy (w : World) : List (String × List Event.Kind) :=
  w.workers.filterMap fun worker =>
    if worker.heard.isEmpty then none else some (worker.subscriber.name, worker.heard)

def forget (s : Stage) : Stage :=
  let w := s.world
  { s with
    world :=
      { w with
        finished := []
        log := []
        workers := w.workers.map fun worker => { worker with heard := [] }
        network := { w.network with requests := [] }
        script := { w.script with notes := [] } }
    strays := [] }

def entry (s : Stage) (reply : Reply) (heard : Option Heard) : Entry :=
  let w := s.world
  let pool := w.pool w.current
  { reply
    counters := w.counters.nonZero
    tracked := tracked w
    generation := w.supervisor.generation
    connectivity := w.connectivity
    sessions := pool.sessions
    planned := pool.planned
    loads := pool.loads
    conns := closedStates w
    heard
    finished := w.finished
    panicked := s.strays
    pending := w.calls.map (·.1)
    notes := w.script.notes
    requests := if w.network.up then w.network.requests else []
    sessionsClosed := w.script.sessions.map (·.closed)
    rootCancelled := w.isCancelled w.root
    busClosed := w.bus.closed }

-- Lets everything run and takes stock. Nothing heard is shown when the bus closed meanwhile.
def observe (s : Stage) (wasClosed : Bool) (reply : Reply) : Stage × Entry :=
  let (s, changed) := s.settle.drain
  let heard : Heard := { changed, subscribers := heardBy s.world, log := s.world.log }
  let justClosed := s.world.bus.closed && !wasClosed
  (s.forget, s.entry reply (if justClosed then none else some heard))

-- Nothing is told when the one outside panics on the way.
def run : Stage → List Step → Option (List Entry)
  | _, [] => some []
  | s, step :: rest => do
    let wasClosed := s.world.bus.closed
    let (s, reply) := s.perform step
    guard !s.panicked
    let (s, entry) := s.observe wasClosed reply
    return entry :: (← run s rest)

end Stage

def play (setup : Setup) (steps : List Step) : Option (List Entry) := do
  let (s, first) := setup.stage.observe false .nothing
  return first :: (← s.run steps)

end Egress.Scenario
