import Egress.Scope

set_option autoImplicit false

namespace Egress.Scenario.OnScopes

inductive Step
  | new (name : String)
  | child (name parent : String)
  | clone (name source : String)
  | onToken (name source : String)
  | drop (name : String)
  | cancel (name : String)
  | poll (name : String)
  | wait (name : String)
  | checkWait (name : String)
  | compare (name other : String)

inductive Reply
  | nothing
  | flag (value : Bool)
  | comparison (same older : Bool)

structure Named where
  name : String
  id : Nat
  cancelled : Bool
  debug : String

structure Entry where
  reply : Reply
  scopes : List Named

structure Stage where
  scopes : Scopes := {}
  named : List (String × Scope) := []
  -- Waits, by the token they wait for. They outlive the scope.
  waits : List (String × Nat) := []

namespace Stage

def scope? (s : Stage) (name : String) : Option Scope := s.named.lookup name

def put (s : Stage) (name : String) (made : Scopes × Scope) : Stage :=
  { s with scopes := made.1, named := s.named.filter (·.1 != name) ++ [(name, made.2)] }

def derive (s : Stage) (name source : String) (f : Scope → Scopes × Scope) : Stage :=
  match s.scope? source with
  | some scope => s.put name (f scope)
  | none => s

def ask (s : Stage) (name : String) (f : Scope → Reply) : Reply :=
  match s.scope? name with
  | some scope => f scope
  | none => .nothing

def perform (s : Stage) : Step → Stage × Reply
  | .new name => (s.put name s.scopes.new, .nothing)
  | .child name parent => (s.derive name parent s.scopes.child, .nothing)
  | .clone name source => (s.derive name source fun scope => (s.scopes, scope), .nothing)
  | .onToken name source =>
    (s.derive name source fun scope => s.scopes.onToken scope.token, .nothing)
  | .drop name => ({ s with named := s.named.filter (·.1 != name) }, .nothing)
  | .cancel name =>
    match s.scope? name with
    | some scope => ({ s with scopes := s.scopes.cancel scope }, .nothing)
    | none => (s, .nothing)
  | .poll name => (s, s.ask name fun scope => .flag (s.scopes.isCancelled scope))
  | .wait name =>
    match s.scope? name with
    | some scope =>
      ({ s with waits := s.waits.filter (·.1 != name) ++ [(name, scope.token)] }, .nothing)
    | none => (s, .nothing)
  | .checkWait name =>
    match s.waits.lookup name with
    | some token => (s, .flag (s.scopes.forest.isCancelled token))
    | none => (s, .nothing)
  | .compare name other =>
    (s, s.ask name fun a => s.ask other fun b => .comparison (a.same b) (a.older b))

def entry (s : Stage) (reply : Reply) : Entry :=
  { reply
    scopes := (s.named.mergeSort fun a b => a.1 ≤ b.1).map fun (name, scope) =>
      { name, id := scope.id, cancelled := s.scopes.isCancelled scope
        debug := s.scopes.describe scope } }

def run : Stage → List Step → List Entry
  | _, [] => []
  | s, step :: rest =>
    let (s, reply) := s.perform step
    s.entry reply :: run s rest

end Stage

def play (steps : List Step) : List Entry := ({} : Stage).run steps

end Egress.Scenario.OnScopes
