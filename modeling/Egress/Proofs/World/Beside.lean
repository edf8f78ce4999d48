import Egress.Proofs.World.Moves

set_option autoImplicit false

namespace Egress

structure TunnelSide where
  settings : Settings
  scopes : Scopes
  root : Scope
  connectivity : Stats.Connectivity
  generations : List Tunnel.Generation
  current : Nat
  streams : List Tunnel.Stream
  sessionWatches : List SessionWatch
  streamWatches : List StreamWatch
  script : Simulation.Script
  calls : List (String × Call)
  finished : List (String × Finish)

namespace World

def tunnelSide (w : World) : TunnelSide where
  settings := w.settings
  scopes := w.scopes
  root := w.root
  connectivity := w.connectivity
  generations := w.generations
  current := w.current
  streams := w.streams
  sessionWatches := w.sessionWatches
  streamWatches := w.streamWatches
  script := w.script
  calls := w.calls
  finished := w.finished

def Apart (w : World) : Prop := ∀ c ∈ w.connections, c.counter ≠ .tunnelConnections

def gauge (w : World) : Int32 := w.counters.get .tunnelConnections

-- A step that leaves the tunnel alone, and its gauge.
structure Beside (w next : World) : Prop where
  side : next.tunnelSide = w.tunnelSide
  apart : w.Apart → next.Apart
  gauge : w.Apart → next.gauge = w.gauge

namespace Beside

theorem refl (w : World) : Beside w w := ⟨rfl, id, fun _ => rfl⟩

theorem trans {a b c : World} (h : Beside a b) (k : Beside b c) : Beside a c where
  side := k.side.trans h.side
  apart := k.apart ∘ h.apart
  gauge apart := (k.gauge (h.apart apart)).trans (h.gauge apart)

theorem of_eq {w next : World} (side : next.tunnelSide = w.tunnelSide)
    (connections : next.connections = w.connections) (counters : next.counters = w.counters) :
    Beside w next where
  side := side
  apart apart := by
    unfold Apart
    rw [connections]
    exact apart
  gauge _ := congrArg (·.get .tunnelConnections) counters

end Beside

variable (w : World)

theorem raise_beside (k : Event.Kind) : Beside w (w.raise k) := .of_eq rfl rfl rfl

theorem spawn_beside (t : Task) : Beside w (w.spawn t) := .of_eq rfl rfl rfl

theorem count_beside (c : Stats.Counter) (n : Int32) (other : c ≠ .tunnelConnections) :
    Beside w (w.count c n) where
  side := rfl
  apart := id
  gauge _ := by
    have := Stats.Counters.get_add w.counters c .tunnelConnections n
    rw [if_neg other] at this
    exact this

theorem connection_mem {id : Nat} {c : Connection} (found : w.connection? id = some c) :
    c ∈ w.connections :=
  List.mem_of_find?_eq_some found

theorem replace_beside (id : Nat) {c next : Connection} (member : c ∈ w.connections)
    (same : next.counter = c.counter) : Beside w (w.updateConnection id fun _ => next) where
  side := rfl
  apart apart := by
    intro d now
    obtain ⟨e, was, rfl⟩ := List.mem_map.mp now
    split
    · exact same ▸ apart c member
    · exact apart e was
  gauge _ := rfl

theorem putConnection_beside {c next : Connection} (member : c ∈ w.connections)
    (same : next.counter = c.counter) : Beside w (w.putConnection c next) := by
  have replaced := w.replace_beside c.id member same
  unfold putConnection
  split
  · exact replaced.trans (.of_eq rfl rfl rfl)
  · exact replaced

theorem loseStream_beside (id : Nat) : Beside w (w.loseStream id) := by
  unfold loseStream
  split
  next c found => exact w.putConnection_beside (w.connection_mem found) rfl
  next => exact .refl w

theorem tearDown_beside (id : Nat) (reason : Option AbortReason) :
    Beside w (w.tearDown id reason).1 := by
  unfold tearDown
  split
  next => exact .refl w
  next c found =>
    have member := w.connection_mem found
    cases torn? : c.tearDown? reason with
    | none => exact .refl w
    | some torn =>
      have same : torn.counter = c.counter := by
        unfold Connection.tearDown? at torn?
        split at torn?
        · cases torn?
        · cases torn?
          rfl
      have replaced := w.replace_beside id member same
      -- The gauge that goes down is the connection's own.
      refine ⟨rfl, replaced.apart, fun apart => ?_⟩
      have counted := (w.updateConnection id fun _ => torn).count_beside c.counter (-1)
        (apart c member)
      exact counted.gauge (replaced.apart apart)

theorem closeConnection_beside (id : Nat) (reason : Option AbortReason) :
    Beside w (w.closeConnection id reason) :=
  (w.tearDown_beside id reason).trans (loseStream_beside _ id)

theorem tearDownAll_beside (ids : List Nat) (reason : Option AbortReason) :
    Beside w (w.tearDownAll ids reason) := by
  unfold tearDownAll
  induction ids generalizing w with
  | nil => exact .refl w
  | cons id rest ih => exact (w.tearDown_beside id reason).trans (ih _)

theorem useConnection_beside {α : Type} (id : Nat)
    (f : Simulation.Socket → Simulation.Socket × Simulation.Io α) :
    Beside w (w.useConnection id f).1 := by
  unfold useConnection
  split
  next => exact .refl w
  next c found =>
    have touched : c.touch.counter = c.counter := by
      unfold Connection.touch
      split <;> rfl
    have put := w.putConnection_beside (w.connection_mem found) touched
    dsimp only
    split
    · exact put.trans (.of_eq rfl rfl rfl)
    · exact put

theorem network_beside (network : Simulation.Network) : Beside w { w with network } :=
  .of_eq rfl rfl rfl

theorem attempt_beside (request : ConnectRequest) (generation : Nat) (targets : List Endpoint) (last : Option String) :
    Beside w (attempt request generation targets last w).1 := by
  induction targets generalizing last with
  | nil => exact .refl w
  | cons target rest ih =>
    unfold attempt
    split
    · exact w.network_beside _
    · exact ih _

theorem attemptAll_beside (request : ConnectRequest) (generation : Nat) (family : Option Bool) (found : List Endpoint) :
    Beside w (w.attemptAll request generation family found).1 := by
  unfold attemptAll
  split
  · exact .refl w
  · exact w.attempt_beside request generation _ none

theorem beginConnect_beside (request : ConnectRequest) : Beside w (w.beginConnect request).1 := by
  unfold beginConnect
  split
  · exact .refl w
  · split
    · exact .refl w
    · dsimp only
      split
      · exact w.attemptAll_beside _ _ _ _
      · exact w.network_beside _

theorem dropConnect_beside (c : Connecting) : Beside w (w.dropConnect c) := w.network_beside _

theorem establish_beside (c : Connecting) (socket : Nat)
    (other : c.request.counter ≠ .tunnelConnections) : Beside w (w.establish c socket).1 := by
  refine ⟨rfl, fun apart d member => ?_, fun _ => ?_⟩
  · rcases List.mem_append.mp member with old | new
    · exact apart d old
    · obtain rfl := List.mem_singleton.mp new
      exact other
  · have := Stats.Counters.get_add w.counters c.request.counter .tunnelConnections 1
    rw [if_neg other] at this
    exact this

theorem pollConnect_beside (c : Connecting) (other : c.request.counter ≠ .tunnelConnections) :
    Beside w (w.pollConnect c).1 := by
  unfold pollConnect
  split
  · exact w.dropConnect_beside c
  · split
    · exact .refl w
    · -- The kernel's answer is taken from the network before anything else happens.
      have answered (network : Simulation.Network) :
          Beside w { w.dropConnect c with network } :=
        (w.dropConnect_beside c).trans (network_beside _ network)
      dsimp only
      split
      · split
        · exact answered _
        · exact (answered _).trans (attemptAll_beside _ _ _ _ _)
      · split
        · exact (answered _).trans (attempt_beside _ _ _ _ _)
        · exact (answered _).trans (establish_beside _ _ _ other)

theorem attempt_waits {request : ConnectRequest} {generation : Nat} {targets : List Endpoint}
    {last : Option String} {c : Connecting}
    (waits : (attempt request generation targets last w).2 = .waiting c) :
    c.request = request ∧ c.generation = generation := by
  induction targets generalizing last with
  | nil => cases waits
  | cons target rest ih =>
    unfold attempt at waits
    split at waits
    · cases waits
      exact ⟨rfl, rfl⟩
    · exact ih waits

theorem attemptAll_waits {request : ConnectRequest} {generation : Nat} {family : Option Bool}
    {found : List Endpoint} {c : Connecting}
    (waits : (w.attemptAll request generation family found).2 = .waiting c) :
    c.request = request ∧ c.generation = generation := by
  unfold attemptAll at waits
  split at waits
  · cases waits
  · exact w.attempt_waits waits

theorem beginConnect_waits {request : ConnectRequest} {c : Connecting}
    (waits : (w.beginConnect request).2 = .waiting c) :
    c.request = request ∧ c.generation = w.supervisor.generation := by
  unfold beginConnect at waits
  split at waits
  · cases waits
  · split at waits
    · cases waits
    · dsimp only at waits
      split at waits
      · exact w.attemptAll_waits waits
      · cases waits
        exact ⟨rfl, rfl⟩

theorem pollConnect_waits {c next : Connecting} (waits : (w.pollConnect c).2 = .waiting next) :
    next.request = c.request ∧ next.generation = c.generation := by
  unfold pollConnect at waits
  split at waits
  · cases waits
  · split at waits
    · cases waits
      exact ⟨rfl, rfl⟩
    · dsimp only at waits
      split at waits
      · split at waits
        · cases waits
        · exact attemptAll_waits _ waits
      · split at waits
        · exact attempt_waits _ waits
        · cases waits

theorem launch_beside (orders : List FanOut) : Beside w (w.launch orders) := by
  unfold launch
  induction orders generalizing w with
  | nil => exact .refl w
  | cons o rest ih =>
    refine Beside.trans ?_ (ih _)
    exact .of_eq rfl rfl rfl

theorem supervisor_beside (supervisor : Supervisor) (bus : Event.Bus) :
    Beside w { w with supervisor, bus } :=
  .of_eq rfl rfl rfl

theorem stopSupervisor_beside : Beside w w.stopSupervisor :=
  (w.supervisor_beside _ _).trans (tearDownAll_beside _ _ _)

theorem superviseStep_beside {next : World} (step : w.superviseStep? = some next) :
    Beside w next := by
  unfold superviseStep? at step
  split at step
  · cases step
  · split at step
    · cases step
      exact w.stopSupervisor_beside
    · split at step
      · cases step
        exact (w.supervisor_beside _ w.bus).trans (launch_beside _ _)
      · split at step
        · cases step
          exact (w.supervisor_beside _ w.bus).trans (launch_beside _ _)
        · split at step
          · split at step
            · cases step
              exact (w.supervisor_beside _ _).trans (launch_beside _ _)
            · cases step
              exact w.supervisor_beside _ w.bus
          · cases step

theorem superviseFor_beside (turns : Nat) : Beside w (superviseFor turns w) := by
  induction turns generalizing w with
  | zero => exact .refl w
  | succ turns ih =>
    unfold superviseFor
    split
    next next step => exact (w.superviseStep_beside step).trans (ih next)
    next => exact .refl w

theorem supervise_beside : Beside w w.supervise := w.superviseFor_beside _

theorem handles_beside (handles : List (String × Handle)) : Beside w { w with handles } :=
  .of_eq rfl rfl rfl

theorem reconnecting_beside (reconnecting : List String) : Beside w { w with reconnecting } :=
  .of_eq rfl rfl rfl

theorem stepWorker_beside (index : Nat) : Beside w (w.stepWorker index) := by
  unfold stepWorker
  split
  · exact .refl w
  · exact .of_eq rfl rfl rfl

theorem pollWorker_beside (index : Nat) : Beside w (w.pollWorker index) := by
  unfold pollWorker
  induction List.range 3 generalizing w with
  | nil => exact .refl w
  | cons _ rest ih =>
    refine Beside.trans ?_ (ih _)
    dsimp only
    split
    · exact w.stepWorker_beside index
    · exact .refl w

theorem pollAddressWatch_beside : Beside w w.pollAddressWatch := by
  have ended (t : WatchTask) (stage : WatchStage) : Beside w (w.endWatch t stage) :=
    .of_eq rfl rfl rfl
  unfold pollAddressWatch
  split
  · exact .refl w
  · split
    · split
      · exact ended _ _
      · split <;> exact ended _ _
    · split
      · exact ended _ _
      · split
        · dsimp only
          split
          · exact (ended _ _).trans (raise_beside _ _)
          · exact ended _ _
        · exact .refl w
    · exact .refl w
    · exact .refl w

theorem runFanOut_beside (index : Nat) : Beside w (w.runFanOut index) := by
  unfold runFanOut
  split
  · exact w.tearDownAll_beside _ _
  · exact .refl w

end World

end Egress
