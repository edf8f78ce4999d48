import Egress.Proofs.World.Dating
import Egress.Proofs.World.Severing

set_option autoImplicit false

namespace Egress

-- Whoever holds an end of the supervisor's queue to send by. A connection has one, so whatever
-- holds the connection does.
inductive Sender
  | handle (n : Nat)
  | owner (connection : Nat)
  | abortHandle (connection : Nat)
  | queued (connection : Nat)
  | registered (connection : Nat)
  | ordered (fanOut connection : Nat)
  | supervisor
  deriving DecidableEq, Repr

def Command.holds : Command → List Sender
  | .add m _ => [.queued m.id]
  | .remove _ => []

namespace Supervisor

inductive Received
  | command (c : Command) (rest : List Command)
  | waiting
  | closed
  deriving DecidableEq, Repr

-- What is in the queue comes first. One that is empty may still be added to, until the last sender
-- is gone.
def receive (s : Supervisor) (senders : List Sender) : Received :=
  match s.queue with
  | c :: rest => .command c rest
  | [] => if senders = [] then .closed else .waiting

variable {s : Supervisor} {senders : List Sender}

theorem receive_eq_command {c : Command} {rest : List Command} :
    s.receive senders = .command c rest ↔ s.queue = c :: rest := by
  unfold receive
  split
  next queued => simp [queued]
  next queued => split <;> simp [queued]

theorem receive_eq_closed : s.receive senders = .closed ↔ s.queue = [] ∧ senders = [] := by
  unfold receive
  split
  next queued => simp [queued]
  next queued => simp [queued]

theorem receive_eq_waiting : s.receive senders = .waiting ↔ s.queue = [] ∧ senders ≠ [] := by
  unfold receive
  split
  next queued => simp [queued]
  next queued => simp [queued]

end Supervisor

structure Tenancy where
  scene : Scene
  handles : Nat
  owned : List Nat := []
  abortable : List Nat := []
  -- The fan-outs that have run to their end, and hold their connections no more.
  finished : List Nat := []

namespace Tenancy

def world (x : Tenancy) : World := x.scene.world

def ordered (x : Tenancy) : List Sender :=
  x.world.fanOuts.zipIdx.flatMap fun (o, i) => if i ∈ x.finished then [] else o.ids.map (.ordered i)

def outside (x : Tenancy) : List Sender :=
  (List.range x.handles).map .handle ++ x.owned.map .owner ++ x.abortable.map .abortHandle

def inside (x : Tenancy) : List Sender :=
  x.world.supervisor.queue.flatMap Command.holds ++
    x.world.supervisor.registry.members.map (.registered ·.id) ++ x.ordered ++
    if x.world.supervisor.running then [.supervisor] else []

def senders (x : Tenancy) : List Sender := x.outside ++ x.inside

def receive (x : Tenancy) : Supervisor.Received := x.world.supervisor.receive x.senders

def arrivals (x : Tenancy) (y : Scene) : List Nat :=
  (y.world.connections.map (·.id)).filter fun id => id ∉ x.world.connections.map (·.id)

inductive Step (only : Move → Prop) (x : Tenancy) : Tenancy → Prop
  -- Nobody tells the supervisor to stop. A call goes by a handle, and its connection to an owner.
  | play (y : Scene) (step : x.scene.Step only y) (goesOn : y.world.supervisor.stopping = false)
    (through : x.handles = 0 → y.world.calls = [] ∧ x.arrivals y = []) :
    Step only x { x with scene := y, owned := x.owned ++ x.arrivals y }
  -- Nobody can send any more, and the supervisor ends by itself.
  | ended (running : x.world.supervisor.running) (closed : x.receive = .closed) :
    Step only x { x with scene := x.scene.onto x.world.stopSupervisor [] }
  | copyHandle (some : 0 < x.handles) : Step only x { x with handles := x.handles + 1 }
  | dropHandle (some : 0 < x.handles) (last : x.handles = 1 → x.world.calls = []) :
    Step only x { x with handles := x.handles - 1 }
  -- An owner that lets go of a connection has torn it down.
  | letGo (id : Nat) (closed : x.world.isConnectionClosed id) :
    Step only x { x with owned := x.owned.erase id }
  | takeAbortHandle (id : Nat) (known : id ∈ x.owned ∨ id ∈ x.abortable) :
    Step only x { x with abortable := id :: x.abortable }
  | dropAbortHandle (id : Nat) : Step only x { x with abortable := x.abortable.erase id }
  | finish (i : Nat) (o : FanOut) (ordered : x.world.fanOuts[i]? = some o)
    (tornDown : ∀ id ∈ o.ids, x.world.isConnectionClosed id) :
    Step only x { x with finished := x.finished ++ [i] }

abbrev Run (only : Move → Prop) : Tenancy → Tenancy → Prop := Relation.ReflTransGen (Step only)

variable {only : Move → Prop} {x y : Tenancy}

theorem superviseStep?_command {c : Command} {rest : List Command}
    (running : x.world.supervisor.running) (goesOn : x.world.supervisor.stopping = false)
    (received : x.receive = .command c rest) :
    x.world.superviseStep? = some
      ({ x.world with
         supervisor := ({ x.world.supervisor with queue := rest }.handle x.world.view c).1 }.launch
        ({ x.world.supervisor with queue := rest }.handle x.world.view c).2) := by
  have queued := Supervisor.receive_eq_command.mp received
  simp [World.superviseStep?, running, goesOn, queued]

theorem supervisor_mem_inside (running : x.world.supervisor.running) :
    Sender.supervisor ∈ x.inside := by
  rw [inside, if_pos running]
  exact List.mem_append_right _ (List.mem_singleton_self _)

theorem receive_ne_closed (running : x.world.supervisor.running) : x.receive ≠ .closed := by
  intro closed
  have nobody : x.senders = [] := (Supervisor.receive_eq_closed.mp closed).2
  have held : Sender.supervisor ∈ x.senders :=
    List.mem_append_right _ (supervisor_mem_inside running)
  simp [nobody] at held

theorem Step.scene (step : x.Step only y) : y.scene = x.scene ∨ x.scene.Step only y.scene := by
  cases step with
  | play next step => exact .inr step
  | ended running closed => exact absurd closed (receive_ne_closed running)
  | _ => exact .inl rfl

theorem Run.scene (run : Run only x y) : Scene.Run only x.scene y.scene := by
  induction run with
  | refl => exact .refl
  | tail _ step ih =>
    rcases step.scene with same | step
    · exact same ▸ ih
    · exact ih.tail step

def Owns (x : Tenancy) : Prop :=
  ∀ c ∈ x.world.connections, c.closed = false → c.id ∈ x.owned

theorem Step.owns (step : x.Step only y) (based : x.scene.Based) (minds : x.world.core.Minds)
    (owns : x.Owns) : y.Owns := by
  cases step with
  | play next step =>
    intro c there opened
    by_cases known : c.id ∈ x.world.connections.map (·.id)
    · obtain ⟨o, was, same⟩ := List.mem_map.mp known
      have before : o.closed = false := by
        by_contra shut
        have torn : x.world.core.Torn o.id o.reason := ⟨o, was, rfl, by simpa using shut, rfl⟩
        obtain ⟨k, now, number, lapsed, -⟩ := Scene.Run.torn (.single step) based minds torn
        have apart := (step.minds based minds).kept.numbers
        rw [eq_of_key apart now there (number.trans same), opened] at lapsed
        cases lapsed
      exact List.mem_append_left _ (same ▸ owns o was before)
    · refine List.mem_append_right _ (List.mem_filter.mpr ⟨List.mem_map_of_mem there, ?_⟩)
      simpa using known
  | ended running closed => exact absurd closed (receive_ne_closed running)
  | letGo id closed =>
    intro c there opened
    have other : c.id ≠ id := by
      rintro rfl
      have lapsed : x.world.core.traffic.isClosed c.id := closed
      rw [minds.kept.isClosed there, opened] at lapsed
      cases lapsed
    exact (List.mem_erase_of_ne other).mpr (owns c there opened)
  | _ => exact owns

-- Nothing moves any more: every fan-out has let go of what it has torn down, and no supervisor is
-- about to find its queue closed.
structure Settled (x : Tenancy) : Prop where
  world : x.world.Settled
  finished : ∀ i < x.world.fanOuts.length, i ∈ x.finished
  ended : x.world.supervisor.running → x.receive ≠ .closed

structure Abandoned (x : Tenancy) : Prop where
  bus : x.world.bus.closed
  outside : x.outside = []

theorem outside_eq_nil :
    x.outside = [] ↔ x.handles = 0 ∧ x.owned = [] ∧ x.abortable = [] := by
  simp [outside]

theorem Settled.inside_alone (settled : x.Settled) (minds : x.world.core.Minds) (owns : x.Owns)
    (owned : x.owned = []) : x.inside = [.supervisor] := by
  have running : x.world.supervisor.running := minds.kept.running
  have queue : x.world.supervisor.queue = [] := (settled.world.supervisor_idle running).2.1
  have members : x.world.supervisor.registry.members = [] := by
    refine List.eq_nil_iff_forall_not_mem.mpr fun m registered => ?_
    obtain ⟨c, there, -⟩ := (World.mem_members minds settled.world m).mp registered
    obtain ⟨member, opened⟩ := World.mem_openConnections.mp there
    have own := owns c member opened
    simp [owned] at own
  have ordered : x.ordered = [] := by
    refine List.flatMap_eq_nil_iff.mpr fun (o, i) numbered => if_pos (settled.finished i ?_)
    exact (List.getElem?_eq_some_iff.mp (List.mem_zipIdx_iff_getElem?.mp numbered)).1
  rw [inside, queue, members, ordered, if_pos running]
  rfl

structure Lingers (x : Tenancy) : Prop where
  runs : x.world.supervisor.running
  never : x.receive ≠ .closed
  alone : x.Settled → (x.senders = [.supervisor] ↔ x.outside = [])
  waits : x.Settled → x.Abandoned → x.receive = .waiting ∧ x.world.canSupervise = false
  -- Only its own end keeps it.
  kept : x.Settled → x.Abandoned →
    x.world.supervisor.receive (x.senders.erase .supervisor) = .closed

theorem run_play {y : Scene} (some : 0 < x.handles)
    (run : Relation.ReflTransGen
      (fun a b => a.Step only b ∧ b.world.supervisor.stopping = false) x.scene y) :
    ∃ owned, Run only x { x with scene := y, owned } := by
  induction run with
  | refl => exact ⟨x.owned, .refl⟩
  | tail _ step ih =>
    obtain ⟨owned, before⟩ := ih
    exact ⟨_, before.tail (.play _ step.1 step.2 fun none => absurd none some.ne')⟩

section Lapsed

variable (lapsed : ∀ id, x.world.isConnectionClosed id)

include lapsed

theorem run_letGo : Run only x { x with owned := [] } := by
  obtain ⟨scene, handles, owned, abortable, finished⟩ := x
  induction owned with
  | nil => exact .refl
  | cons id rest ih =>
    have step : Step only (Tenancy.mk scene handles (id :: rest) abortable finished)
        (Tenancy.mk scene handles ((id :: rest).erase id) abortable finished) :=
      .letGo id (lapsed id)
    rw [List.erase_cons_head] at step
    exact .head step (ih lapsed)

theorem run_finish (n : Nat) (ordered : n ≤ x.world.fanOuts.length) :
    Run only x { x with finished := x.finished ++ List.range n } := by
  induction n with
  | zero =>
    rw [List.range_zero, List.append_nil]
  | succ n ih =>
    have step := (ih (Nat.le_of_lt ordered)).tail
      (.finish n _ (List.getElem?_eq_getElem ordered) fun id _ => lapsed id)
    rwa [List.append_assoc, ← List.range_succ] at step

end Lapsed

def vacant (y : Scene) : Tenancy :=
  { scene := y, handles := 0, finished := List.range y.world.fanOuts.length }

end Tenancy

namespace Scenario.Setup

variable {s : Setup} {only : Move → Prop} {x : Tenancy}

def tenancy (s : Setup) : Tenancy := { scene := s.scene, handles := 1 }

def Holds (s : Setup) (only : Move → Prop) (x : Tenancy) : Prop := Tenancy.Run only s.tenancy x

theorem Holds.plays (holds : s.Holds only x) : s.Plays only x.scene := Tenancy.Run.scene holds

theorem Holds.owns (holds : s.Holds only x) : x.Owns := by
  induction holds with
  | refl =>
    intro c there
    have nothing : s.tenancy.world.connections = [] := s.build_rest.2
    simp [nothing] at there
  | tail before step ih =>
    have plays : s.Plays only _ := Holds.plays before
    exact step.owns (Scene.Run.based plays s.scene_based) plays.minds ih

theorem abandon {y : Scene} (run : Relation.ReflTransGen
      (fun a b => a.Step only b ∧ b.world.supervisor.stopping = false) s.scene y)
    (settled : y.world.Settled) (bus : y.world.bus.closed) (idle : y.world.calls = [])
    (lapsed : ∀ c ∈ y.world.connections, c.closed) :
    s.Holds only (.vacant y) ∧ (Tenancy.vacant y).Settled ∧ (Tenancy.vacant y).Abandoned := by
  have closed (id : Nat) : y.world.isConnectionClosed id := by
    refine (Option.all_eq_true _ _).mpr fun c found => ?_
    exact lapsed c (List.mem_of_find?_eq_some found)
  obtain ⟨owned, played⟩ := Tenancy.run_play (x := s.tenancy) Nat.zero_lt_one run
  let busy : Tenancy := { s.tenancy with scene := y, owned }
  let done : Tenancy := { busy with finished := List.range y.world.fanOuts.length }
  have completed : Tenancy.Run only busy done :=
    Tenancy.run_finish (x := busy) closed _ (Nat.le_refl _)
  have released : Tenancy.Run only done { done with owned := [] } := Tenancy.run_letGo closed
  have holds := ((played.trans completed).trans released).tail
    (.dropHandle Nat.zero_lt_one fun _ => idle)
  exact ⟨holds, ⟨settled, fun _ => List.mem_range.mpr, Tenancy.receive_ne_closed⟩,
    ⟨bus, Tenancy.outside_eq_nil.mpr ⟨rfl, rfl, rfl⟩⟩⟩

-- A supervisor that nobody tells to stop never ends, not even when everybody has let go of it: the
-- last end of its queue is its own.
theorem Holds.lingers (holds : s.Holds only x) : x.Lingers := by
  have minds : x.world.core.Minds := holds.plays.minds
  have running : x.world.supervisor.running := minds.kept.running
  have alone (settled : x.Settled) (outside : x.outside = []) : x.senders = [.supervisor] := by
    rw [Tenancy.senders, outside, List.nil_append]
    exact settled.inside_alone minds holds.owns (Tenancy.outside_eq_nil.mp outside).2.1
  have queue (settled : x.Settled) : x.world.supervisor.queue = [] :=
    (settled.world.supervisor_idle running).2.1
  refine ⟨running, Tenancy.receive_ne_closed running,
    fun settled => ⟨fun single => ?_, alone settled⟩, fun settled abandoned => ⟨?_, ?_⟩,
    fun settled abandoned => ?_⟩
  · obtain ⟨outside, -⟩ | ⟨-, inside⟩ := List.append_eq_singleton_iff.mp single
    · exact outside
    · have own := Tenancy.supervisor_mem_inside running
      simp [inside] at own
  · refine Supervisor.receive_eq_waiting.mpr ⟨queue settled, ?_⟩
    simp [alone settled abandoned.outside]
  · exact settled.world.idle .supervisor running
  · refine Supervisor.receive_eq_closed.mpr ⟨queue settled, ?_⟩
    simp [alone settled abandoned.outside]

def forsaken : Scene :=
  small.scene.along
    [fun w => .dial "d" (.via .manager false) "tcp" "127.0.0.1:22" w.root,
      fun _ => .poll (.call "d"),
      fun w => .kernel (w.network.grant?.getD w.network),
      fun _ => .poll (.call "d"),
      fun _ => .poll .supervisor,
      fun _ => .drop "d",
      fun _ => .poll .supervisor,
      fun _ => .poll .supervisor,
      fun _ => .closeBus,
      fun _ => .poll .dispatcher,
      fun _ => .poll .addressWatch,
      fun _ => .poll .supervisor]

theorem forsaken_abandoned :
    small.Holds Move.Driven (.vacant forsaken) ∧ (Tenancy.vacant forsaken).Settled ∧
      (Tenancy.vacant forsaken).Abandoned :=
  abandon (Scene.rule_along (by decide +kernel)) (by decide +kernel) (by decide +kernel)
    (by decide +kernel) (by decide +kernel)

theorem lingers_forsaken :
    small.Holds Move.Driven (.vacant forsaken) ∧ (Tenancy.vacant forsaken).Settled ∧
      (Tenancy.vacant forsaken).Abandoned ∧ (Tenancy.vacant forsaken).senders = [.supervisor] := by
  obtain ⟨holds, settled, abandoned⟩ := forsaken_abandoned
  exact ⟨holds, settled, abandoned, (holds.lingers.alone settled).mpr abandoned.outside⟩

-- A connection has been dialed and dropped. Nothing moves, the bus is closed and nobody outside has
-- anything left, and still the supervisor has not ended.
theorem abandoned_supervisor_runs :
    ∃ x, small.Holds Move.Driven x ∧ x.world.dialed.lookup "d" = some 1 ∧ x.Settled ∧
      x.Abandoned ∧ x.world.supervisor.running := by
  obtain ⟨holds, settled, abandoned⟩ := forsaken_abandoned
  exact ⟨.vacant forsaken, holds, by decide +kernel, settled, abandoned, by decide +kernel⟩

end Scenario.Setup

end Egress
