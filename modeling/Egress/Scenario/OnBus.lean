import Egress.Event.Bus

set_option autoImplicit false

namespace Egress.Scenario.OnBus

open Event

inductive Step
  | subscribe (name : String) (kinds : List Kind)
  | unsubscribe (name : String)
  | drop (name : String)
  | raise (kinds : List Kind)
  | settle
  | tryReceive (name : String)
  | receive (name : String)
  | drain (name : String)
  | close
  | describe

inductive Reply
  | nothing
  | id (n : Nat)
  | receipt (r : Receipt)
  | drained (kinds : List Kind) (closed : Bool)
  | text (s : String)

structure Entry where
  reply : Reply
  count : Nat
  closed : Bool

structure Stage where
  bus : Bus := {}
  named : List (String × Nat) := []

namespace Stage

def forget (s : Stage) (name : String) (f : Bus → Nat → Bus) : Stage :=
  match s.named.lookup name with
  | some id => { bus := f s.bus id, named := s.named.filter (·.1 != name) }
  | none => s

def subscribe (s : Stage) (name : String) (kinds : List Kind) : Stage × Reply :=
  let (bus, id) := s.bus.subscribe kinds
  let s := { s with bus }.forget name Bus.abandon
  ({ s with named := s.named ++ [(name, id)] }, .id id)

def receive (s : Stage) (name : String) : Stage × Receipt :=
  match s.named.lookup name with
  | some id =>
    let (bus, receipt) := s.bus.receive id
    ({ s with bus }, receipt)
  | none => (s, .closed)

-- Dispatches and receives until there is nothing more. `room` bounds the kinds it takes.
def drain : (room : Nat) → Stage → String → Stage × List Kind × Bool
  | 0, s, _ => (s, [], false)
  | room + 1, s, name =>
    match { s with bus := s.bus.dispatch }.receive name with
    | (s, .kind k) =>
      let (s, kinds, closed) := drain room s name
      (s, k :: kinds, closed)
    | (s, .pending) => (s, [], false)
    | (s, .closed) => (s, [], true)

def room : Nat := Kind.all.length + 2

def perform (s : Stage) : Step → Stage × Reply
  | .subscribe name kinds => s.subscribe name kinds
  | .unsubscribe name => (s.forget name Bus.unsubscribe, .nothing)
  | .drop name => (s.forget name Bus.abandon, .nothing)
  | .raise kinds => ({ s with bus := kinds.foldl Bus.raise s.bus }, .nothing)
  | .settle => ({ s with bus := s.bus.dispatch }, .nothing)
  | .tryReceive name =>
    match s.receive name with
    | (s, .kind k) => (s, .receipt (.kind k))
    | (s, _) => (s, .nothing)
  | .receive name =>
    let (s, receipt) := s.receive name
    (s, .receipt receipt)
  | .drain name =>
    let (s, kinds, closed) := drain room s name
    (s, .drained kinds closed)
  | .close => ({ s with bus := s.bus.close }, .nothing)
  | .describe => (s, .text s.bus.describe)

def run : Stage → List Step → List Entry
  | _, [] => []
  | s, step :: rest =>
    let (s, reply) := s.perform step
    { reply, count := s.bus.subscriberCount, closed := s.bus.closed } :: run s rest

end Stage

def play (steps : List Step) : List Entry := ({} : Stage).run steps

end Egress.Scenario.OnBus
