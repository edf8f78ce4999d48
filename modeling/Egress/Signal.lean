set_option autoImplicit false

namespace Egress

inductive Signal
  | terminate
  | interrupt
  | quit
  deriving DecidableEq, Repr

namespace Signal

def all : List Signal := [terminate, interrupt, quit]

def name : Signal → String
  | terminate => "SIGTERM"
  | interrupt => "SIGINT"
  | quit => "SIGQUIT"

def ofName? (name : String) : Option Signal := all.find? (·.name == name)

def awaited (pending : List Signal) : Option Signal := pending.head?

end Signal

end Egress
