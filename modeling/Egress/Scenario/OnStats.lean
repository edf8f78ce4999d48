import Egress.Scenario.Entry

set_option autoImplicit false

namespace Egress.Scenario.OnStats

inductive Step
  | count (counter : Stats.Counter) (change : CountBy)
  | set (state : Stats.TunnelState) (info : String)
  | log (kind : Event.Kind)
  | snapshot

inductive Reply
  | counter (value : Int) (debug : String)
  | flag (value : Bool)
  | text (s : String)

structure Entry where
  reply : Reply
  counters : List (Stats.Counter × Int)
  connectivity : Stats.Connectivity
  events : List Event.Kind
  log : List Event.LogLine

def stage : Stage :=
  let w := ({} : Setup).base
  let (bus, subscription) := w.bus.subscribe []
  { world := { w with bus }, subscription }

def perform (w : World) : Step → World × Reply
  | .count counter change =>
    let w := w.count counter change.amount
    (w, .counter (w.counters.get counter).toInt (w.counters.describeOne counter))
  | .set state info =>
    (w.setConnectivity state info, .flag (w.connectivity.set? state info).isSome)
  | .log kind =>
    let answer := Event.Subscriber.logWriter.poll [] w.surroundings kind
    ({ w with log := w.log ++ answer.lines }, .text Event.Subscriber.logWriter.name)
  | .snapshot => (w, .text w.counters.toJson)

def run : Stage → List Step → List Entry
  | _, [] => []
  | s, step :: rest =>
    let (w, reply) := perform s.world step
    let (s, events) := (s.set w).settle.drain
    let w := s.world
    { reply, counters := w.counters.nonZero, connectivity := w.connectivity, events, log := w.log }
      :: run s.forget rest

def play (steps : List Step) : List Entry := run stage steps

end Egress.Scenario.OnStats
