set_option autoImplicit false

namespace Egress.Event

inductive Kind
  | startup
  | connStateChanged
  | countersChanged
  | serverParamsChanged
  | sitesChanged
  | keysChanged
  | addrChanged
  | shutdownRequested
  deriving DecidableEq, Repr

namespace Kind

def all : List Kind :=
  [startup, connStateChanged, countersChanged, serverParamsChanged, sitesChanged, keysChanged,
   addrChanged, shutdownRequested]

def label : Kind → String
  | startup => "startup"
  | connStateChanged => "conn_state_changed"
  | countersChanged => "counters_changed"
  | serverParamsChanged => "server_params_changed"
  | sitesChanged => "sites_changed"
  | keysChanged => "keys_changed"
  | addrChanged => "addr_changed"
  | shutdownRequested => "shutdown_requested"

def ofLabel? (label : String) : Option Kind := all.find? (·.label == label)

def index : Kind → Nat
  | startup => 0
  | connStateChanged => 1
  | countersChanged => 2
  | serverParamsChanged => 3
  | sitesChanged => 4
  | keysChanged => 5
  | addrChanged => 6
  | shutdownRequested => 7

theorem index_lt (k : Kind) : k.index < 8 := by cases k <;> decide

theorem exists_index {i : Nat} (h : i < 8) : ∃ k : Kind, k.index = i := by
  have every : ∀ i : Fin 8, ∃ k ∈ all, k.index = i := by decide
  obtain ⟨k, -, same⟩ := every ⟨i, h⟩
  exact ⟨k, same⟩

theorem mem_all (k : Kind) : k ∈ all := by cases k <;> decide

end Kind

end Egress.Event
