import Egress.Proofs.World.Dropping

set_option autoImplicit false

namespace Egress

open Simulation Tunnel

namespace World

variable {w next : World} {g : Nat}

-- A step in this generation that leaves the pools of the others alone, and what the world hears of
-- the tunnel.
structure Spares (g : Nat) (w next : World) : Prop where
  pools : ∀ other, other ≠ g → next.pool other = w.pool other
  connectivity : next.connectivity = w.connectivity

def IsLeftover (w : World) (g : Nat) : Move → Prop
  | .read name _ | .write name _ | .flush name | .shutdown name | .close name | .drop name =>
    ∃ stream boxed s, w.handles.lookup name = some (.stream stream boxed) ∧
      w.stream? stream = some s ∧ s.generation = g
  | .poll (.streamWatch i) =>
    ∃ x s, w.streamWatches[i]? = some x ∧ w.stream? x.stream = some s ∧ s.generation = g
  | _ => False

section Streams

variable (w) (id : Nat)

theorem putStream_connectivity (s next : Stream) :
    (w.putStream s next).connectivity = w.connectivity := by
  unfold putStream
  dsimp only
  split_ifs <;> rfl

theorem releaseStream_connectivity : (w.releaseStream id).connectivity = w.connectivity := by
  unfold releaseStream
  split
  · exact w.putStream_connectivity _ _
  · rfl

theorem closeStream_connectivity : (w.closeStream id).connectivity = w.connectivity :=
  w.releaseStream_connectivity id

theorem dropStream_connectivity : (w.dropStream id).connectivity = w.connectivity :=
  w.closeStream_connectivity id

theorem useStream_connectivity {α : Type} (f : Pipe → Pipe × Io α) :
    (w.useStream id f).1.connectivity = w.connectivity := by
  unfold useStream
  split
  · rfl
  · dsimp only
    split <;> exact w.putStream_connectivity _ _

end Streams

theorem Turn.spares {a b : Hand} (turn : Turn g a b w next)
    (connectivity : next.connectivity = w.connectivity) : Spares g w next :=
  ⟨fun other different => congrArg (·.pool) (turn.others other different), connectivity⟩

theorem pollStreamWatch_spares (regular : w.Regular) {index : Nat} {x : StreamWatch} {s : Stream}
    (found : w.streamWatches[index]? = some x) (stream : w.stream? x.stream = some s) :
    Spares s.generation w (w.pollStreamWatch index) := by
  let marked : World :=
    { w with streamWatches := w.streamWatches.modify index fun t => { t with ended := true } }
  have regular' : marked.Regular := (markStreamWatch_travels regular index).regular
  have number : s.id = x.stream := regular.stream_id w stream
  have same : Spares s.generation w marked := ⟨fun _ _ => rfl, rfl⟩
  have released : Spares s.generation marked (marked.releaseStream s.id) :=
    (marked.releaseStream_turn regular' (number ▸ stream)).spares (marked.releaseStream_connectivity _)
  simp only [pollStreamWatch, found, stream]
  split
  · split
    · exact same
    · split
      · exact ⟨released.pools, released.connectivity⟩
      · exact same
  · exact ⟨fun _ _ => rfl, rfl⟩

theorem move_spares (regular : w.Regular) {m : Move} (leftover : w.IsLeftover g m) :
    Spares g w (w.move m) := by
  have used (name : String) {f : Handle → World}
      (each : ∀ stream boxed s, w.stream? stream = some s →
        Spares s.generation w (f (.stream stream boxed)))
      (leftover : ∃ stream boxed s, w.handles.lookup name = some (.stream stream boxed) ∧
        w.stream? stream = some s ∧ s.generation = g) : Spares g w (w.owner name f) := by
    obtain ⟨stream, boxed, s, handle, found, rfl⟩ := leftover
    simp only [owner, handle]
    exact each stream boxed s found
  cases m with
  | read name n =>
    exact used name (fun _ _ _ found =>
      (w.useStream_turn regular found _).spares (w.useStream_connectivity _ _)) leftover
  | write name bytes =>
    exact used name (fun _ _ _ found =>
      (w.useStream_turn regular found _).spares (w.useStream_connectivity _ _)) leftover
  | flush name =>
    exact used name (fun _ _ _ found =>
      (w.useStream_turn regular found _).spares (w.useStream_connectivity _ _)) leftover
  | shutdown name =>
    exact used name (fun _ _ _ found =>
      (w.useStream_turn regular found _).spares (w.useStream_connectivity _ _)) leftover
  | close name =>
    exact used name (fun _ _ _ found =>
      (w.closeStream_turn regular found).spares (w.closeStream_connectivity _)) leftover
  | drop name =>
    refine used name (fun stream _ _ found => ?_) leftover
    have dropped := (w.dropStream_turn regular found).spares (w.dropStream_connectivity stream)
    exact ⟨dropped.pools, dropped.connectivity⟩
  | poll task =>
    cases task with
    | streamWatch i =>
      obtain ⟨x, s, found, stream, rfl⟩ := leftover
      exact pollStreamWatch_spares regular found stream
    | _ => exact leftover.elim
  | _ => exact leftover.elim

theorem pollReconnect_same {params : Server.Params} {gen : Generation}
    (found : w.generation? w.current = some gen) (same : gen.params = params) (call : String)
    {stage : ReconnectStage} (idle : stage.draining? = none) :
    ∃ queue, w.pollReconnect call params stage = ({ w with reconnecting := queue }, none) ∨
      w.pollReconnect call params stage = ({ w with reconnecting := queue }, some .locking) := by
  have swapped (queue : List String) : swap { w with reconnecting := queue } params =
      ({ w with reconnecting := queue.drop 1 }, none) := by
    have found' : generation? { w with reconnecting := queue } w.current = some gen := found
    simp only [swap, found', same, if_true]
    rfl
  cases stage with
  | fresh =>
    simp only [pollReconnect]
    split
    · exact ⟨_, .inl (swapped _)⟩
    · exact ⟨_, .inr rfl⟩
  | locking =>
    simp only [pollReconnect]
    split
    · exact ⟨_, .inl (swapped w.reconnecting)⟩
    · exact ⟨_, .inr rfl⟩
  | draining g => cases idle

theorem pollReconnect_alone {params : Server.Params} {gen : Generation}
    (found : w.generation? w.current = some gen) (same : gen.params = params) (call : String)
    (alone : w.reconnecting = []) : w.pollReconnect call params .fresh = (w, none) := by
  simp only [pollReconnect, alone, List.nil_append, holdsLock, List.head?_cons, beq_self_eq_true,
    if_true, swap]
  have found' : generation? { w with reconnecting := [call] } w.current = some gen := found
  simp only [found', same, if_true, unlock]
  rw [List.drop_one, List.tail_cons, ← alone]

theorem Lasts.replaced (lasts : Lasts w next) (inside : w.current < w.generations.length)
    (changed : next.current ≠ w.current) : next.IsPast w.current := by
  refine ⟨Nat.lt_of_lt_of_le inside lasts.generations, changed.symm⟩

theorem dialsOf_eq_nil (quiet : ∀ call, ¬ w.IsDialing call g) :
    w.dialsOf g = [] := by
  apply List.filter_eq_nil_iff.mpr
  intro t member
  obtain ⟨⟨id, c⟩, call, dial⟩ := List.mem_filterMap.mp member
  simp only [decide_eq_true_eq]
  rintro rfl
  exact quiet id ⟨c, call, by rw [c.dialGeneration?_eq, dial]; rfl⟩

theorem Sound.drained (sound : Sound (fun _ => 0) w) (drained : w.isDrained g) :
    (w.pool g).slots = [] ∧ (w.pool g).sessions = 0 := by
  obtain ⟨quiet, sessions, -⟩ := (w.isDrained_iff g).mp drained
  have unwatched : w.watched g = 0 := by
    rw [watched, Multiset.coe_eq_zero, List.filterMap_eq_nil_iff]
    intro x member
    by_cases same : x.generation = g
    · simp [SessionWatch.leaseIn?, sessions x member same]
    · simp [SessionWatch.leaseIn?, same]
  have slots : (w.pool g).slots = [] := by
    have watched := (sound.balanced g).watched
    rw [unwatched] at watched
    simpa using watched.symm
  refine ⟨slots, ?_⟩
  have counted := sound.sessions g
  simpa [slots, dialsOf_eq_nil quiet] using counted

theorem Lasts.closed {u : World} (lasts : Lasts u w) (before : Sound (fun _ => 0) u)
    (after : Sound (fun _ => 0) w) (drained : w.isDrained g) {slot : Slot}
    (member : slot ∈ (u.pool g).slots) :
    w.isSessionClosed slot.session ∧ w.isTripped g slot.id := by
  have watched := (before.balanced g).mem_watched.mpr ⟨slot, member, rfl⟩
  obtain ⟨x, known, lease⟩ := List.mem_filterMap.mp (Multiset.mem_coe.mp watched)
  obtain ⟨⟨-, rfl⟩, leases⟩ : (x.ended = false ∧ x.generation = g) ∧ x.lease = slot.lease := by
    simpa [SessionWatch.leaseIn?] using lease
  obtain ⟨y, still, generation, same⟩ := lasts.watches x known
  have ended := ((w.isDrained_iff _).mp drained).2.1 y still generation
  obtain ⟨closed, tripped⟩ := after.tidy y still ended
  have leases := same.trans leases
  rw [show y.session = slot.session from congrArg (·.session) leases] at closed
  rw [generation, show y.slot = slot.id from congrArg (·.slot) leases] at tripped
  exact ⟨closed, tripped⟩

-- Ever since the generation has been replaced, as it was in `swapped`.
structure Replaced (g : Nat) (swapped w : World) : Prop where
  past : w.current ≠ g
  dials : ∀ call, w.IsDialing call g → swapped.IsDialing call g
  streams : ∀ (i : Nat) (t : Stream), w.streams[i]? = some t → t.generation = g →
    i < swapped.streams.length
  -- A dial that begins has to do with the current generation only.
  begins : ∀ scope network address,
    (∀ other, other ≠ w.current →
      (w.beginTunnelDial scope network address).1.pool other = w.pool other) ∧
    ∀ t, (w.beginTunnelDial scope network address).2 = .waiting t → t.generation = w.current
  leftovers : ∀ m, w.IsLeftover g m →
    (w.move m).pool w.current = w.pool w.current ∧ (w.move m).connectivity = w.connectivity

theorem Lasts.outlives {swapped : World} (lasts : Lasts swapped w) (regular : w.Regular)
    (past : swapped.IsPast g) : Replaced g swapped w where
  past := (lasts.past past).2.symm
  dials := lasts.dials g past
  streams i t found same := lasts.arrivals g past i t found same
  begins scope network address := by
    have serves := w.beginTunnelDial_serves regular.current_lt scope network address
    exact ⟨fun other different => congrArg (·.pool) (serves.turn.others other different),
      fun t waits => (serves.waits t waits).1⟩
  leftovers m leftover := by
    have spares := move_spares regular leftover
    exact ⟨spares.pools w.current (lasts.past past).2.symm, spares.connectivity⟩

end World

namespace Scenario.Setup

variable {s : Setup} {w : World}

-- Nothing is left of the generation. What was under way in `swapped` has been given up, and all
-- sessions it ever had are closed.
structure Empties (s : Setup) (g : Nat) (swapped w : World) : Prop where
  dials : ∀ call, ¬ w.IsDialing call g
  ended : ∀ call, swapped.IsDialing call g →
    swapped.endOf? w call = some (.failed .canceled)
  slots : (w.pool g).slots = []
  sessions : (w.pool g).sessions = 0
  closed : ∀ u, s.Reaches Move.Driven u → World.Run Move.Driven u w →
    ∀ slot ∈ (u.pool g).slots, w.isSessionClosed slot.session ∧ w.isTripped g slot.id

-- Whoever replaces a generation returns when nothing is left of it, and from the moment of the
-- replacement on it gets nothing new and touches no other. A reconnect with the same parameters
-- changes nothing.
theorem Reaches.drains (reached : s.Reaches Move.Driven w) :
    (∀ id, w.isAlive (.call id) → (w.poll (.call id)).current ≠ w.current →
      ∀ later, World.Run Move.Driven (w.poll (.call id)) later →
        World.Replaced w.current (w.poll (.call id)) later ∧
        (¬ later.IsDraining id w.current →
          s.Empties w.current (w.poll (.call id)) later)) ∧
    (∀ id params stage gen, w.call? id = some (.reconnect params stage) →
      stage.draining? = none → w.generation? w.current = some gen → gen.params = params →
      (∃ queue : List String,
        w.poll (.call id) = World.finish { w with reconnecting := queue } id (.word "reconnected") ∨
        w.poll (.call id) =
          World.setCall { w with reconnecting := queue } id (.reconnect params .locking)) ∧
      (stage = .fresh → w.reconnecting = [] →
        w.poll (.call id) = w.finish id (.word "reconnected"))) := by
  have sound := reached.sound
  constructor
  · intro id alive changed later run
    have polls := World.pollCall_polls sound.regular id
    have swapped : World.Sound (fun _ => 0) (w.poll (.call id)) := polls.passes.sound sound
    have after := run.sound swapped
    have lasts := run.lasts swapped.regular
    have past : (w.poll (.call id)).IsPast w.current :=
      polls.passes.lasts.replaced sound.regular.current_lt changed
    refine ⟨lasts.outlives after.regular past, fun returned => ?_⟩
    have drained : later.isDrained w.current := by
      rcases polls.replaces changed with draining | drained
      · exact (lasts.drains _ past id draining).resolve_left returned
      · exact lasts.drained _ past drained
    have quiet := ((later.isDrained_iff _).mp drained).1
    have empty := after.drained drained
    refine ⟨quiet, fun call dialing => ?_, empty.1, empty.2, fun u reached run slot member => ?_⟩
    · exact (lasts.ends _ past call dialing).resolve_left fun still => quiet call still.1
    · exact (run.lasts reached.sound.regular).closed reached.sound after drained member
  · intro id params stage gen found idle current same
    have polled : w.poll (.call id) = w.pollReconnectCall id params stage := by
      simp only [World.poll, World.pollCall, found]
    rw [polled]
    constructor
    · obtain ⟨queue, through | waits⟩ := World.pollReconnect_same current same id idle
      · exact ⟨queue, .inl (by rw [World.pollReconnectCall, through])⟩
      · exact ⟨queue, .inr (by rw [World.pollReconnectCall, waits])⟩
    · rintro rfl alone
      rw [World.pollReconnectCall, World.pollReconnect_alone current same id alone]

def replacing : World :=
  small.build.along
    [fun w => .dial "d" (.via .tunnel false) "tcp" "a.test:80" w.root,
      fun _ => .poll (.call "d"),
      fun _ => .reconnect "r" { addr := "127.0.0.1:23", login := "u", password := "p" }]

def replaced : World :=
  (replacing.poll (.call "r")).along [fun _ => .poll (.call "d"), fun _ => .poll (.call "r")]

def repeating : World := small.build.along [fun _ => .reconnect "r" small.store.params]

theorem drains_replaced :
    small.Empties replacing.current (replacing.poll (.call "r")) replaced ∧
      repeating.poll (.call "r") = repeating.finish "r" (.word "reconnected") := by
  have reached : small.Reaches Move.Driven replacing := World.run_along (by decide +kernel)
  have reached' : small.Reaches Move.Driven repeating := World.run_along (by decide +kernel)
  have changed : (replacing.poll (.call "r")).current ≠ replacing.current := by decide +kernel
  have onwards : World.Run Move.Driven (replacing.poll (.call "r")) replaced :=
    World.run_along (by decide +kernel)
  have returned : ¬ replaced.IsDraining "r" replacing.current := by
    have gone : replaced.calls = [] := by decide +kernel
    simp [World.IsDraining, gone]
  have asked : repeating.call? "r" = some (.reconnect small.store.params .fresh) := by decide +kernel
  obtain ⟨gen, found⟩ := Option.isSome_iff_exists.mp
    (by decide +kernel : (repeating.generation? repeating.current).isSome)
  have same : gen.params = small.store.params := by
    have params : (repeating.generation? repeating.current).map (·.params) =
        some small.store.params := by decide +kernel
    simpa [found] using params
  exact ⟨(reached.drains.1 "r" (by decide +kernel) changed replaced onwards).2 returned,
    (reached'.drains.2 "r" _ .fresh gen asked rfl found same).2 rfl (by decide +kernel)⟩

end Scenario.Setup

end Egress
