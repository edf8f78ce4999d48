import Egress.Failure

set_option autoImplicit false

namespace Egress.Simulation

inductive Io (α : Type)
  | done (value : α)
  | failed (failure : IoFailure)
  | pending

def Io.mapFailure {α : Type} (f : IoFailure → IoFailure) : Io α → Io α
  | done value => done value
  | failed failure => failed (f failure)
  | pending => pending

structure Channel where
  buffer : List UInt8 := []
  closed : Bool := false

namespace Channel

def capacity : Nat := 64

def close (c : Channel) : Channel := { c with closed := true }

def read (c : Channel) (n : Nat) : Channel × Io (List UInt8) :=
  if !c.buffer.isEmpty then ({ c with buffer := c.buffer.drop n }, .done (c.buffer.take n))
  else if c.closed then (c, .done [])
  else (c, .pending)

def write (c : Channel) (bytes : List UInt8) : Channel × Io Nat :=
  let room := capacity - c.buffer.length
  if c.closed then (c, .failed (.bare .brokenPipe))
  else if room = 0 then (c, .pending)
  else ({ c with buffer := c.buffer ++ bytes.take room }, .done (min room bytes.length))

end Channel

structure Pipe where
  outward : Channel := {}
  inward : Channel := {}

def Pipe.drop (p : Pipe) : Pipe := { outward := p.outward.close, inward := p.inward.close }

end Egress.Simulation
