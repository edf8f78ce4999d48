import Egress.Event.Mask

set_option autoImplicit false

namespace Egress.Event

-- Both ends of one subscription. The bus knows it while it is `listed`, and its owner can receive
-- while it is `held`. The slot between them has room for one kind.
structure Subscription where
  id : Nat
  mask : Mask
  pending : Mask := .empty
  slot : Option Kind := none
  listed : Bool := true
  held : Bool := true
  deriving DecidableEq, Repr

structure Bus where
  nextId : Nat := 1
  subscriptions : List Subscription := []
  raised : Mask := .empty
  wake : Bool := false
  closed : Bool := false
  stopped : Bool := false
  deriving DecidableEq, Repr

inductive Receipt
  | kind (k : Kind)
  | pending
  | closed
  deriving DecidableEq, Repr

-- A delivery can be attempted: the slot is free, or nobody will ever empty it.
def Subscription.isReady (s : Subscription) : Bool :=
  s.listed && !s.pending.isEmpty && (s.slot.isNone || !s.held)

def Subscription.serve (s : Subscription) : Subscription :=
  if s.held then
    match s.pending.lowest with
    | some k => { s with slot := some k, pending := s.pending.erase k }
    | none => s
  else { s with listed := false }

namespace Bus

def update (b : Bus) (id : Nat) (f : Subscription → Subscription) : Bus :=
  { b with subscriptions := b.subscriptions.map fun s => if s.id = id then f s else s }

def find? (b : Bus) (id : Nat) : Option Subscription := b.subscriptions.find? (·.id = id)

def sweep (b : Bus) : Bus :=
  { b with subscriptions := b.subscriptions.filter fun s => s.listed || s.held }

def subscribe (b : Bus) (kinds : List Kind) : Bus × Nat :=
  ({ b with
      nextId := b.nextId + 1
      subscriptions := b.subscriptions ++ [{ id := b.nextId, mask := .ofKinds kinds }] },
   b.nextId)

def abandon (b : Bus) (id : Nat) : Bus :=
  (b.update id fun s => { s with held := false, slot := none }).sweep

def unsubscribe (b : Bus) (id : Nat) : Bus :=
  (b.update id fun s => { s with held := false, slot := none, listed := false }).sweep

def subscriberCount (b : Bus) : Nat := b.subscriptions.countP (·.listed)

def close (b : Bus) : Bus := { b with closed := true }

def mark (b : Bus) (k : Kind) : Bus × Bool :=
  ({ b with raised := b.raised.union (.single k) }, b.raised.isEmpty)

def call (b : Bus) : Bus := { b with wake := true }

def raise (b : Bus) (k : Kind) : Bus :=
  let (marked, first) := b.mark k
  if first then marked.call else marked

def receive (b : Bus) (id : Nat) : Bus × Receipt :=
  match b.find? id with
  | none => (b, .closed)
  | some s =>
    match s.slot with
    | some k => ((b.update id fun s => { s with slot := none }).sweep, .kind k)
    | none => (b, if s.listed then .pending else .closed)

def absorb (b : Bus) : Bus :=
  { b with
    raised := .empty
    subscriptions := b.subscriptions.map fun s =>
      if s.listed then { s with pending := s.pending.union (b.raised.inter s.mask) } else s }

def forgetAll (b : Bus) : Bus :=
  let forgotten := b.subscriptions.map fun s => { s with listed := false }
  sweep { b with subscriptions := forgotten }

-- One turn of the dispatcher, `none` if it has to wait. A call comes before the close, and the
-- close before any delivery.
def turn? (b : Bus) : Option Bus :=
  if b.stopped then none
  else
    let b := b.absorb
    if b.wake then some { b with wake := false }
    else if b.closed then some { b.forgetAll with stopped := true }
    else
      match b.subscriptions.find? Subscription.isReady with
      | some s => some ((b.update s.id Subscription.serve).sweep)
      | none => none

def canTurn (b : Bus) : Bool :=
  !b.stopped && (b.wake || b.closed || b.subscriptions.any Subscription.isReady)

def turns : Nat → Bus → Bus
  | 0, b => b
  | n + 1, b =>
    match b.turn? with
    | some next => turns n next
    | none => b

def dispatch (b : Bus) : Bus := turns (b.subscriptions.length + 3) b

def describe (b : Bus) : String :=
  s!"Bus \x7b subscribers: {b.subscriberCount}, closed: {b.closed} \x7d"

end Bus

end Egress.Event
