import Egress.Address.Local

set_option autoImplicit false

namespace Egress

-- Looks at the local addresses from time to time and compares them with what it saw last. Times are
-- in nanoseconds.
structure AddressWatch where
  every : Nat
  known : LocalAddresses := {}
  next : Nat := 0
  -- Up to this much after its time a look is not late.
  grace : Nat := 5000000
  deriving DecidableEq, Repr

namespace AddressWatch

def start (every now : Nat) (seen : Option LocalAddresses) : AddressWatch :=
  { every, known := seen.getD {}, next := now + every }

def isDue (w : AddressWatch) (now : Nat) : Bool := w.next ≤ now

def look (w : AddressWatch) (seen : Option LocalAddresses) : AddressWatch × Bool :=
  match seen with
  | none => (w, false)
  | some now => if now.same w.known then (w, false) else ({ w with known := now }, true)

-- When the next look is due after one at `now`. Looks keep their rhythm, but after a late one they
-- start over: it counts once, and the next one is due a full interval after it.
def nextDue (w : AddressWatch) (now : Nat) : Nat :=
  if w.next + w.grace < now then now + w.every
  else w.next + w.every * ((now - w.next) / w.every + 1)

def tick (w : AddressWatch) (now : Nat) (seen : Option LocalAddresses) : AddressWatch × Bool :=
  ({ w with next := w.nextDue now }).look seen

end AddressWatch

end Egress
