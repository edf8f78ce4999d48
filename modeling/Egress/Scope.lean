set_option autoImplicit false

namespace Egress

-- A cancellation scope: an identity and the place of its token in the forest. Several scopes may
-- share one token.
structure Scope where
  id : Nat
  token : Nat
  deriving DecidableEq, Repr

namespace Scope

def same (a b : Scope) : Bool := a.id == b.id

def older (a b : Scope) : Bool := a.id < b.id

-- What goes into a hash is the identity as well. The hasher is given by what a word does to it.
def hashInto {σ : Type} (s : Scope) (write : σ → Nat → σ) (state : σ) : σ := write state s.id

end Scope

structure Forest.Node where
  parent : Option Nat
  cancelled : Bool
  deriving DecidableEq, Repr

-- Cancellation tokens, each under its parent. A parent is always older than its children.
structure Forest where
  nodes : List Forest.Node := []
  deriving DecidableEq, Repr

namespace Forest

def isCancelled (f : Forest) (token : Nat) : Bool := (f.nodes[token]?).any (·.cancelled)

def plant (f : Forest) : Forest × Nat :=
  ({ nodes := f.nodes ++ [{ parent := none, cancelled := false }] }, f.nodes.length)

def branch (f : Forest) (parent : Nat) : Forest × Nat :=
  ({ nodes := f.nodes ++ [{ parent := some parent, cancelled := f.isCancelled parent }] },
   f.nodes.length)

def isUnder (f : Forest) (top token : Nat) : Bool :=
  token = top ||
    match (f.nodes[token]?).bind (·.parent) with
    | some parent => if parent < token then f.isUnder top parent else false
    | none => false
termination_by token

def cancel (f : Forest) (token : Nat) : Forest :=
  { nodes := f.nodes.mapIdx fun i node =>
      { node with cancelled := node.cancelled || f.isUnder token i } }

end Forest

structure Scopes where
  forest : Forest := {}
  made : Nat := 0
  deriving DecidableEq, Repr

namespace Scopes

def isCancelled (s : Scopes) (scope : Scope) : Bool := s.forest.isCancelled scope.token

def cancel (s : Scopes) (scope : Scope) : Scopes :=
  { s with forest := s.forest.cancel scope.token }

def onToken (s : Scopes) (token : Nat) : Scopes × Scope :=
  ({ s with made := s.made + 1 }, { id := s.made + 1, token })

def new (s : Scopes) : Scopes × Scope :=
  let (forest, token) := s.forest.plant
  ({ s with forest }).onToken token

def child (s : Scopes) (parent : Scope) : Scopes × Scope :=
  let (forest, token) := s.forest.branch parent.token
  ({ s with forest }).onToken token

def describe (s : Scopes) (scope : Scope) : String :=
  s!"Scope \x7b id: {scope.id}, cancelled: {s.isCancelled scope} \x7d"

end Scopes

end Egress
