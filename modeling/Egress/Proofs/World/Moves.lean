import Mathlib.Logic.Relation
import Egress.Scenario.Setup

set_option autoImplicit false

namespace Egress

open Simulation

inductive Move
  | poll (task : Task)
  -- Three ways a poll may go when several things it waits for are there at once.
  | withdraw (call : String)
  | disconnect (watch : Nat)
  | answer (call : String) (mode : Mode)
  -- Calls begin, and a dial may be dropped before it has ended.
  | dial (id : String) (carrier : Carrier) (network address : String) (scope : Scope)
  | reconnect (id : String) (params : Server.Params)
  | setParams (id : String) (params : Server.Params)
  | run (id : String)
  | startRead (id name : String) (n : Nat)
  | abandon (call : String)
  -- Owners use what they dialed.
  | read (name : String) (n : Nat)
  | write (name : String) (bytes : List UInt8)
  | flush (name : String)
  | shutdown (name : String)
  | close (name : String)
  | drop (name : String)
  | abort (name : String) (reason : AbortReason)
  | abortByHandle (name : String) (reason : AbortReason)
  | newScope
  | childScope (parent : Scope)
  | cancel (scope : Scope)
  -- The network and the far side of the tunnel go on, and so does the host.
  | kernel (network : Network)
  | script (script : Script)
  | addresses (addresses : LocalAddresses) (fail : Bool)
  | clock (nanos : Nat)
  | signal (s : Signal)
  | store (store : Server.Store)
  | count (counter : Stats.Counter) (n : Int32)
  | raise (kind : Event.Kind)
  | subscribe (kinds : List Event.Kind)
  | receive (subscription : Nat)
  | unsubscribe (subscription : Nat)
  | permit (worker n : Nat)
  | closeBus
  | stopSupervisor

namespace World

def advance (w : World) (id : String) (f : TunnelDial → World × Progress TunnelDial) : World :=
  match w.call? id with
  | some (.dial d) =>
    match d.stage with
    | .tunneling t boxed =>
      let (w, progress) := f t
      w.tunnelProgress id d boxed progress
    | _ => w
  | _ => w

def withdraw (w : World) (t : TunnelDial) : World × Progress TunnelDial :=
  match t.stage with
  | .waiting _ =>
    if w.isDialCancelled t then
      (w.updatePool t.generation Tunnel.Pool.withdraw, .failed .canceled)
    else (w, .waiting t)
  | _ => (w, .waiting t)

def answer (w : World) (mode : Mode) (t : TunnelDial) : World × Progress TunnelDial :=
  match t.stage with
  | .opening lease ticket =>
    if w.isDialCancelled t then (w, .waiting t)
    else ({ w with script := w.script.leaveOpening ticket }).answerOpen t lease mode
  | _ => (w, .waiting t)

def disconnect (w : World) (index : Nat) : World :=
  match w.sessionWatches[index]? with
  | none => w
  | some watch =>
    if watch.ended || !w.isGenerationCancelled watch.generation then w
    else w.endSession index watch "tunnel disconnected"

def owner (w : World) (name : String) (f : Handle → World) : World :=
  match w.handles.lookup name with
  | some h => f h
  | none => w

def move (w : World) : Move → World
  | .poll t => w.poll t
  | .withdraw call => w.advance call w.withdraw
  | .disconnect watch => w.disconnect watch
  | .answer call mode => w.advance call (w.answer mode)
  | .dial id carrier network address scope =>
    w.addCall id (.dial { scope, network, address, stage := .fresh carrier })
  | .reconnect id params => w.addCall id (.reconnect params .fresh)
  | .setParams id params => w.addCall id (.setParams params .fresh)
  | .run id => w.addCall id (.run .fresh)
  | .startRead id name n => w.owner name fun h => (w.removeHandle name).addCall id (.read h name n)
  | .abandon call => w.abandon call
  | .read name n => w.owner name fun h => (w.read h n).1
  | .write name bytes => w.owner name fun h => (w.write h bytes).1
  | .flush name => w.owner name fun h => (w.flush h).1
  | .shutdown name => w.owner name fun h => (w.shutdown h).1
  | .close name => w.owner name w.close
  | .drop name => w.owner name fun h => (w.drop h).removeHandle name
  | .abort name reason => w.owner name fun
    | .connection id false => w.closeConnection id (some reason)
    | _ => w
  | .abortByHandle name reason =>
    match w.dialed.lookup name with
    | some id => (w.tearDown id (some reason)).1
    | none => w
  | .newScope => { w with scopes := w.scopes.new.1 }
  | .childScope parent => { w with scopes := (w.scopes.child parent).1 }
  | .cancel scope => { w with scopes := w.scopes.cancel scope }
  | .kernel network => { w with network }
  | .script script => { w with script }
  | .addresses addresses fail => { w with addresses, addressesFail := fail }
  | .clock nanos => { w with clock := w.clock + nanos }
  | .signal s => { w with signals := w.signals ++ [s] }
  | .store store => { w with store }
  | .count counter n => w.count counter n
  | .raise kind => w.raise kind
  | .subscribe kinds => { w with bus := (w.bus.subscribe kinds).1 }
  | .receive subscription => { w with bus := (w.bus.receive subscription).1 }
  | .unsubscribe subscription => { w with bus := w.bus.unsubscribe subscription }
  | .permit worker n => { w with workers := w.workers.modify worker (·.release n) }
  | .closeBus => { w with bus := w.bus.close }
  | .stopSupervisor => { w with supervisor := { w.supervisor with stopping := true } }

-- What is not in the hands of those outside: which sessions there are, over which links, and which
-- of them have been closed.
def keepsSessions (s t : Script) : Prop :=
  t.nextTicket = s.nextTicket ∧
    t.sessions.map (fun x => (x.link, x.closed)) = s.sessions.map fun x => (x.link, x.closed)

def isOwnSubscription (w : World) (subscription : Nat) : Bool :=
  w.supervisor.inbox = subscription || w.shutdownRequests = some subscription ||
    w.workers.any (·.subscription = subscription) ||
    w.calls.any (·.2 = .run (.waiting subscription))

def isGauge : Stats.Counter → Bool
  | .tcpConnections | .tunnelSessions | .tunnelConnections => true
  | _ => false

-- A task that is polled has something ahead of it, and calls go by different names.
def allows (w : World) : Move → Prop
  | .poll (.fanOut _) => True
  | .poll task => w.isAlive task
  | .dial id _ _ _ _ | .reconnect id _ | .setParams id _ | .run id | .startRead id _ _ =>
    w.call? id = none
  | .script script => keepsSessions w.script script
  | .store store => store.params = w.store.params
  | .count counter _ => isGauge counter = false
  | .receive subscription | .unsubscribe subscription => w.isOwnSubscription subscription = false
  | _ => True

instance (s t : Script) : Decidable (keepsSessions s t) := inferInstanceAs (Decidable (_ ∧ _))

instance (w : World) (m : Move) : Decidable (w.allows m) :=
  match m with
  | .poll (.fanOut _) => .isTrue trivial
  | .poll .dispatcher | .poll .supervisor | .poll .addressWatch | .poll (.worker _)
  | .poll (.call _) | .poll (.sessionWatch _) | .poll (.streamWatch _) =>
    inferInstanceAs (Decidable (w.isAlive _ = true))
  | .dial _ _ _ _ _ | .reconnect _ _ | .setParams _ _ | .run _ | .startRead _ _ _ =>
    inferInstanceAs (Decidable (w.call? _ = none))
  | .script _ => inferInstanceAs (Decidable (keepsSessions _ _))
  | .store _ => inferInstanceAs (Decidable (_ = w.store.params))
  | .count _ _ => inferInstanceAs (Decidable (_ = false))
  | .receive _ | .unsubscribe _ => inferInstanceAs (Decidable (_ = false))
  | .withdraw _ | .disconnect _ | .answer _ _ | .abandon _ | .read _ _ | .write _ _ | .flush _
  | .shutdown _ | .close _ | .drop _ | .abort _ _ | .abortByHandle _ _ | .newScope
  | .childScope _ | .cancel _ | .kernel _ | .addresses _ _ | .clock _ | .signal _ | .raise _
  | .subscribe _ | .permit _ _ | .closeBus | .stopSupervisor => .isTrue trivial

variable (only : Move → Prop)

def Goes (w next : World) : Prop := ∃ m, only m ∧ w.allows m ∧ next = w.move m

abbrev Run : World → World → Prop := Relation.ReflTransGen (Goes only)

-- The world at the end of a path, on which every move is chosen in sight of the world.
def along (w : World) : List (World → Move) → World
  | [] => w
  | choose :: rest => (w.move (choose w)).along rest

def Permits (w : World) : List (World → Move) → Prop
  | [] => True
  | choose :: rest =>
    only (choose w) ∧ w.allows (choose w) ∧ (w.move (choose w)).Permits rest

instance permitsDecidable [DecidablePred only] (w : World) :
    (path : List (World → Move)) → Decidable (w.Permits only path)
  | [] => .isTrue trivial
  | choose :: rest =>
    have := permitsDecidable (w.move (choose w)) rest
    inferInstanceAs (Decidable (_ ∧ _ ∧ _))

theorem run_along {only : Move → Prop} {w : World} {path : List (World → Move)}
    (permitted : w.Permits only path) : Run only w (w.along path) := by
  induction path generalizing w with
  | nil => exact .refl
  | cons choose rest ih =>
    obtain ⟨member, allowed, later⟩ := permitted
    exact .head ⟨choose w, member, allowed, rfl⟩ (ih later)

structure Settled (w : World) : Prop where
  idle : ∀ task, w.isAlive task → w.canPoll task = false
  tornDown : ∀ o ∈ w.fanOuts, ∀ id ∈ o.ids, w.isConnectionClosed id

def tasks (w : World) : List Task :=
  [.dispatcher, .supervisor, .addressWatch] ++ (List.range w.workers.length).map .worker ++
    (List.range w.sessionWatches.length).map .sessionWatch ++
    (List.range w.streamWatches.length).map .streamWatch ++ w.calls.map fun c => .call c.1

theorem mem_tasks {w : World} {task : Task} (alive : w.isAlive task) : task ∈ w.tasks := by
  cases task with
  | dispatcher | supervisor | addressWatch => simp [tasks]
  | fanOut i => cases alive
  | worker i | sessionWatch i | streamWatch i =>
    obtain ⟨x, found, -⟩ := (Option.any_eq_true _ _).mp alive
    have inside := (List.getElem?_eq_some_iff.mp found).1
    simp [tasks, inside]
  | call id =>
    obtain ⟨c, found⟩ := Option.isSome_iff_exists.mp alive
    obtain ⟨front, back, same, -⟩ := List.lookup_eq_some_iff.mp found
    simp [tasks, same]

instance (w : World) : Decidable w.Settled :=
  decidable_of_iff
    ((∀ task ∈ w.tasks, w.isAlive task → w.canPoll task = false) ∧
      ∀ o ∈ w.fanOuts, ∀ id ∈ o.ids, w.isConnectionClosed id)
    ⟨fun h => ⟨fun task alive => h.1 task (mem_tasks alive) alive, h.2⟩,
      fun h => ⟨fun task _ => h.idle task, h.tornDown⟩⟩

end World

namespace Move

def isDropping : Move → Bool
  | .abandon _ => true
  | _ => false

def isDialing : Move → Bool
  | .dial _ _ _ _ _ => true
  | _ => false

abbrev Driven (m : Move) : Prop := m.isDropping = false

abbrev Continues (m : Move) : Prop := m.Driven ∧ m.isDialing = false

def call? : Move → Option String
  | .poll (.call id) | .withdraw id | .answer id _ | .dial id _ _ _ _ | .reconnect id _
  | .setParams id _ | .run id | .startRead id _ _ | .abandon id => some id
  | _ => none

end Move

namespace Scenario.Setup

def Reaches (s : Setup) (only : Move → Prop) (w : World) : Prop := World.Run only s.build w

variable {s : Setup} {only : Move → Prop} {w : World}

theorem Reaches.start : s.Reaches only s.build := .refl

theorem Reaches.move {m : Move} (h : s.Reaches only w) (member : only m) (allowed : w.allows m) :
    s.Reaches only (w.move m) :=
  h.tail ⟨m, member, allowed, rfl⟩

end Scenario.Setup

end Egress
