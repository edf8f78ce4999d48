set_option autoImplicit false

namespace Egress.Stats

inductive TunnelState
  | notConfigured
  | trying
  | established
  deriving DecidableEq, Repr

namespace TunnelState

def all : List TunnelState := [notConfigured, trying, established]

def name : TunnelState → String
  | notConfigured => "noconfig"
  | trying => "trying"
  | established => "established"

def ofName? (name : String) : Option TunnelState := all.find? (·.name == name)

def defaultInfo : TunnelState → String
  | notConfigured => "server not configured"
  | trying => "trying..."
  | established => "connected to the server"

end TunnelState

structure Connectivity where
  state : TunnelState := .notConfigured
  info : String := ""
  deriving DecidableEq, Repr

def Connectivity.set? (c : Connectivity) (state : TunnelState) (info : String) :
    Option Connectivity :=
  if c = ⟨state, info⟩ then none else some ⟨state, info⟩

end Egress.Stats
