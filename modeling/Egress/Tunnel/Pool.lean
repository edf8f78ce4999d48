set_option autoImplicit false

namespace Egress.Tunnel

structure Slot where
  id : Nat
  refs : Nat
  session : Nat
  deriving DecidableEq, Repr

structure Lease where
  slot : Nat
  session : Nat
  deriving DecidableEq, Repr

inductive Operation
  | ask (cap : Nat) (first : Bool)
  | insert (session : Nat)
  | creationFailed
  | withdraw
  | release (slot : Nat)
  | remove (slot : Nat)
  deriving DecidableEq, Repr

-- The sessions of one generation. `planned` counts the streams that are open or asked for, and
-- `sessions` the sessions that live or are being created.
structure Pool where
  slots : List Slot := []
  sessions : Nat := 0
  planned : Nat := 0
  nextId : Nat := 0
  -- Who waits for a change draws a ticket. The tickets below `called` are to look again.
  tickets : Nat := 0
  called : Nat := 0
  history : List Operation := []
  deriving DecidableEq, Repr

inductive Admission
  | ready (lease : Lease)
  | create
  | wait (ticket : Nat)
  deriving DecidableEq, Repr

namespace Pool

def lighter (best : Option Slot) (s : Slot) : Option Slot :=
  match best with
  | some b => if s.refs < b.refs then some s else some b
  | none => some s

def spare (p : Pool) (cap : Nat) : Option Slot :=
  (p.slots.filter (·.refs < cap)).foldl lighter none

def updateSlot (p : Pool) (id : Nat) (f : Slot → Slot) : Pool :=
  { p with slots := p.slots.map fun s => if s.id = id then f s else s }

def notify (p : Pool) : Pool := { p with called := p.tickets }

def isCalled (p : Pool) (ticket : Nat) : Bool := ticket < p.called

@[simp]
def note (p : Pool) (o : Operation) : Pool := { p with history := p.history ++ [o] }

-- A dial asks for a stream. It leases a slot with room, or creates a session if the others cannot
-- carry all that is planned, or waits for a change. `word` holds each number that is computed.
def acquireIn {m : Type → Type} [Monad m] (word : Nat → m Nat) (p : Pool) (cap : Nat)
    (first : Bool) : m (Pool × Admission) :=
  (if first then word (p.planned + 1) else pure p.planned) >>= fun planned => do
    let p : Pool := { p with planned }.note (.ask cap first)
    match p.spare cap with
    | some s =>
      let slots ← p.slots.mapM fun t =>
        if t.id = s.id then return { t with refs := ← word (t.refs + 1) } else pure t
      return ({ p with slots }, .ready { slot := s.id, session := s.session })
    | none =>
      let carried ← word (p.sessions * cap)
      if carried < planned then return ({ p with sessions := ← word (p.sessions + 1) }, .create)
      else return ({ p with tickets := p.tickets + 1 }, .wait p.tickets)

def acquire (p : Pool) (cap : Nat) (first : Bool) : Pool × Admission :=
  Id.run (p.acquireIn pure cap first)

def insert (p : Pool) (session : Nat) : Pool × Lease :=
  let id := p.nextId + 1
  let slots := p.slots ++ [{ id, refs := 1, session }]
  (notify ({ p with nextId := id, slots }.note (.insert session)), { slot := id, session })

def creationFailed (p : Pool) : Pool :=
  notify ({ p with sessions := p.sessions - 1, planned := p.planned - 1 }.note .creationFailed)

def withdraw (p : Pool) : Pool := notify ({ p with planned := p.planned - 1 }.note .withdraw)

-- A lease ends. Its slot may be gone already.
def release (p : Pool) (slot : Nat) : Pool :=
  let p := { p with planned := p.planned - 1 }.note (.release slot)
  notify (p.updateSlot slot fun s => { s with refs := s.refs - 1 })

def remove (p : Pool) (slot : Nat) : Pool × Bool :=
  let slots := p.slots.filter (·.id != slot)
  (notify ({ p with slots, sessions := p.sessions - 1 }.note (.remove slot)), slots.isEmpty)

def loads (p : Pool) : List Nat := p.slots.map (·.refs)

end Pool

end Egress.Tunnel
