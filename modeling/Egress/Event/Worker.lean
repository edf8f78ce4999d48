import Egress.Event.Bus
import Egress.Stats.Connectivity
import Egress.Stats.Counters

set_option autoImplicit false

namespace Egress.Event

inductive LogValue
  | text (value : String)
  | number (value : Int)
  deriving DecidableEq, Repr

structure LogLine where
  level : String
  message : String
  fields : List (String × LogValue)
  deriving DecidableEq, Repr

namespace LogLine

def changed (counters : Stats.Counters) (connectivity : Stats.Connectivity) : Kind → LogLine
  | .connStateChanged =>
    { level := "INFO"
      message := "tunnel state changed"
      fields := [("state", .text connectivity.state.name), ("info", .text connectivity.info)] }
  | .countersChanged =>
    { level := "DEBUG"
      message := "counters changed"
      fields :=
        [("tcp", .number counters.tcpConnections.toInt),
         ("sessions", .number counters.tunnelSessions.toInt),
         ("tunneled", .number counters.tunnelConnections.toInt)] }
  | kind =>
    { level := "INFO", message := "bus notification", fields := [("kind", .text kind.label)] }

def panicked (subscriber : String) (kind : Kind) (panic : String) : LogLine :=
  { level := "ERROR"
    message := "subscriber panicked"
    fields :=
      [("subscriber", .text subscriber), ("kind", .text kind.label), ("panic", .text panic)] }

def workerFailed (subscriber error : String) : LogLine :=
  { level := "WARN"
    message := "subscriber worker failed"
    fields := [("subscriber", .text subscriber), ("error", .text error)] }

def brief (l : LogLine) : String :=
  match l.fields.lookup "kind" with
  | some (.text kind) => l.level ++ " " ++ l.message ++ " " ++ kind
  | _ => l.level ++ " " ++ l.message

end LogLine

inductive Payload
  | text (value : String)
  | other
  deriving DecidableEq, Repr

def Payload.message : Payload → String
  | text value => value
  | other => "unknown panic"

structure Surroundings where
  counters : Stats.Counters
  connectivity : Stats.Connectivity

-- What comes to a subscriber: a call, a poll of what the call has returned, and permits.
inductive Stimulus
  | called (k : Kind)
  | polled (k : Kind) (around : Surroundings)
  | released (permits : Nat)

-- What a poll comes to. A call that waits can go on after a release only.
inductive Outcome
  | waits
  | returns
  | panics (payload : Payload)
  deriving DecidableEq, Repr

structure Answer where
  outcome : Outcome := .returns
  heard : List Kind := []
  lines : List LogLine := []

-- Any implementation. What it does is up to all that has come to it before, the latest first. Its
-- call may panic before there is anything to poll.
structure Subscriber where
  name : String
  kinds : List Kind := []
  call : List Stimulus → Kind → Option Payload := fun _ _ => none
  poll : List Stimulus → Surroundings → Kind → Answer

def Recorder.typeName : String := "Egress.Event.Recorder"

-- Records what it hears. It may wait at a gate first, and panic afterwards; an early one panics
-- before it records, in the call itself.
structure Recorder where
  name : String := Recorder.typeName
  kinds : List Kind := []
  panics : List (Kind × Payload) := []
  gated : Bool := false
  early : Bool := false
  deriving DecidableEq, Repr

namespace Recorder

-- How many calls the gate still lets pass. Each poll that finds a permit has taken it.
def permits : List Stimulus → Nat
  | [] => 0
  | .called _ :: past => permits past
  | .polled _ _ :: past => permits past - 1
  | .released n :: past => permits past + n

def call (r : Recorder) (k : Kind) : Option Payload :=
  if r.early && (r.panics.lookup k).isSome then some (.text "early") else none

def outcome (r : Recorder) (k : Kind) : Outcome :=
  match if r.early then none else r.panics.lookup k with
  | some payload => .panics payload
  | none => .returns

def poll (r : Recorder) (past : List Stimulus) (k : Kind) : Answer :=
  if r.gated && permits past == 0 then { outcome := .waits }
  else { outcome := r.outcome k, heard := [k] }

end Recorder

namespace Subscriber

def recorder (r : Recorder) : Subscriber where
  name := r.name
  kinds := if r.early then [] else r.kinds
  call _ := r.call
  poll past _ := r.poll past

def logWriter : Subscriber where
  name := "log-writer"
  poll _ around k := { lines := [.changed around.counters around.connectivity k] }

end Subscriber

structure Worker where
  subscriber : Subscriber
  subscription : Nat
  past : List Stimulus := []
  -- The kind of the call that still waits.
  holding : Option Kind := none
  -- Permits have come since the call was polled.
  woken : Bool := false
  heard : List Kind := []
  ended : Bool := false
  failure : Option Payload := none

namespace Worker

def release (w : Worker) (permits : Nat) : Worker :=
  { w with past := .released permits :: w.past, woken := w.woken || w.holding.isSome }

def poll (w : Worker) (around : Surroundings) (k : Kind) : Worker × List LogLine :=
  let answer := w.subscriber.poll w.past around k
  ({ w with
     past := .polled k around :: w.past
     holding := if answer.outcome = .waits then some k else none
     woken := false
     heard := w.heard ++ answer.heard },
   match answer.outcome with
   | .panics payload => answer.lines ++ [.panicked w.subscriber.name k payload.message]
   | _ => answer.lines)

def start (w : Worker) (around : Surroundings) (k : Kind) : Worker × List LogLine :=
  match w.subscriber.call w.past k with
  | some payload => ({ w with ended := true, failure := some payload }, [])
  | none => ({ w with past := .called k :: w.past }).poll around k

def canStep (w : Worker) (b : Bus) : Bool :=
  !w.ended &&
    match w.holding with
    | some _ => w.woken
    | none => (b.receive w.subscription).2 != .pending

def step (w : Worker) (around : Surroundings) (b : Bus) : Worker × Bus × List LogLine :=
  if w.ended then (w, b, [])
  else
    match w.holding with
    | some k =>
      let (w, lines) := w.poll around k
      (w, b, lines)
    | none =>
      match b.receive w.subscription with
      | (b, .kind k) =>
        let (w, lines) := w.start around k
        (w, if w.ended then b.abandon w.subscription else b, lines)
      | (b, .pending) => (w, b, [])
      | (b, .closed) => ({ w with ended := true }, b.abandon w.subscription, [])

end Worker

end Egress.Event
