import Egress.Proofs.World.TearingDown

set_option autoImplicit false

namespace Egress

namespace Core

instance (c : Core) (scope : Scope) (g : Nat) : Decidable (c.Connects scope g) :=
  decidable_of_iff
    (∃ call ∈ c.calls, ∃ k ∈ call.2.connect?, k.request.scope = scope ∧ k.generation = g) .rfl

def Begun (c : Core) : Prop :=
  ∀ scope g, c.Connects scope g → g ≤ c.traffic.supervisor.generation

variable {terms : Terms} {c next : Core}

theorem Initial.begun (initial : c.Initial) : c.Begun := by
  rintro scope g ⟨call, member, -⟩
  simp [initial.calls] at member

theorem Effect.begun (effect : c.Effect terms next) (begun : c.Begun) : next.Begun := by
  have among {calls : List (String × Call)}
      (old : ∀ call ∈ calls, ∀ k, call.2.connect? = some k →
        k.generation ≤ c.traffic.supervisor.generation) : { c with calls }.Begun := by
    rintro scope g ⟨call, member, k, awaited, -, rfl⟩
    exact old call member k awaited
  have known {call : String × Call} (member : call ∈ c.calls) (k : Connecting)
      (awaited : call.2.connect? = some k) : k.generation ≤ c.traffic.supervisor.generation :=
    begun k.request.scope k.generation ⟨call, member, k, awaited, rfl, rfl⟩
  cases effect with
  | traffic step =>
    intro scope g connects
    cases step <;> simpa using begun scope g connects
  | tunnels | scopes | replace => exact begun
  | addCall id call proper handed idle =>
    refine among fun p member k awaited => ?_
    rcases List.mem_append.mp member with old | new
    · exact known (List.mem_of_mem_filter old) k awaited
    · obtain rfl := List.mem_singleton.mp new
      rw [idle] at awaited
      cases awaited
  | setCall id old call found proper same follows =>
    refine among fun p member k awaited => ?_
    obtain ⟨q, was, rfl⟩ := List.mem_map.mp member
    dsimp only at awaited
    split at awaited
    · rcases follows k awaited with present | ⟨o, before, same⟩
      · exact Nat.le_of_eq present
      · exact same ▸ known found o before
    · exact known was k awaited
  | endCall id => exact among fun p member => known (List.mem_of_mem_filter member)

end Core

namespace Supervisor

variable (s : Supervisor) (v : View)

theorem handle_generation (c : Command) : (s.handle v c).1.generation = s.generation := by
  cases c with
  | add m generation =>
    rcases s.handle_add v m generation with ⟨-, result⟩ | ⟨r, -, -, result⟩ <;> rw [result]
  | remove id => rfl

theorem watchResolved_generation (x : ScopeWatch) (verdict : Bool) :
    (s.watchResolved x verdict).1.generation = s.generation := by
  cases verdict <;> rfl

end Supervisor

namespace Traffic

variable {aborts : AbortReason → Prop} {asked : Scope → Nat → Prop} {view : Supervisor.View}
  {t next : Traffic}

theorem Supervises.generation (step : t.Supervises view next) :
    t.supervisor.generation ≤ next.supervisor.generation := by
  cases step with
  | command c rest =>
    have same := Supervisor.handle_generation { t.supervisor with queue := rest } view c
    exact Nat.le_of_eq same.symm
  | watch x verdict => exact Nat.le_of_eq (t.supervisor.watchResolved_generation x verdict).symm
  | news => exact Nat.le_succ _
  | silence => exact Nat.le_refl _

structure Hears (t : Traffic) : Prop where
  serves : t.bus.Serves t.supervisor.inbox .addrChanged
  listens : t.bus.closed = false → t.supervisor.busOpen

theorem Step.hears (step : t.Step aborts asked next) (hears : t.Hears) : next.Hears := by
  obtain ⟨inbox, onward⟩ := step.onward .addrChanged
  have sent (s : Supervisor) (c : Command) : (s.send c).busOpen = s.busOpen := by
    unfold Supervisor.send
    split <;> rfl
  have same : next.supervisor.busOpen = t.supervisor.busOpen := by cases step <;> simp [sent]
  refine ⟨?_, fun opened => same ▸ hears.listens (onward.opened opened)⟩
  rw [inbox]
  exact onward.serves hears.serves

theorem Supervises.hears (step : t.Supervises view next) (hears : t.Hears) :
    next.Hears ∧ next.bus.closed = t.bus.closed := by
  cases step with
  | command c rest =>
    have keeps := Supervisor.handle_keeps { t.supervisor with queue := rest } view c
    refine ⟨⟨?_, fun opened => ?_⟩, rfl⟩
    · exact keeps.inbox.symm ▸ hears.serves
    · exact keeps.busOpen.trans (hears.listens opened)
  | watch x verdict =>
    have keeps := t.supervisor.watchResolved_keeps x verdict
    refine ⟨⟨?_, fun opened => ?_⟩, rfl⟩
    · exact keeps.inbox.symm ▸ hears.serves
    · exact keeps.busOpen.trans (hears.listens opened)
  | news k heard =>
    have closed := t.bus.receive_closed t.supervisor.inbox
    exact ⟨⟨hears.serves.receive, fun opened => hears.listens (closed ▸ opened)⟩, closed⟩
  | silence closed =>
    refine ⟨⟨hears.serves, fun opened => ?_⟩, rfl⟩
    exact absurd closed (hears.serves.receive_goes_on opened)

end Traffic

theorem World.swap_rest (w : World) (params : Server.Params) :
    (w.swap params).1.supervisor = w.supervisor ∧
      (w.swap params).1.connections = w.connections := by
  have drained (u : World) (g : Nat) : (u.awaitDrain g).1.supervisor = u.supervisor ∧
      (u.awaitDrain g).1.connections = u.connections := by
    unfold awaitDrain
    split <;> exact ⟨rfl, rfl⟩
  unfold swap
  dsimp only
  split
  · exact ⟨rfl, rfl⟩
  · split
    · exact ⟨rfl, rfl⟩
    · obtain ⟨supervisor, connections⟩ := drained (World.setConnectivity _ _ "") w.current
      rw [supervisor, connections]
      obtain ⟨bus, same, -⟩ := setConnectivity_eq _ _ ""
      rw [same]
      exact ⟨rfl, rfl⟩

theorem Core.Initial.hears {c : Core} (initial : c.Initial) : c.traffic.Hears := by
  obtain ⟨bus, inbox, requests, traffic, -, serves⟩ := initial.traffic
  rw [traffic]
  exact ⟨serves, fun _ => rfl⟩

theorem Core.Effect.hears {terms : Terms} {c next : Core} (effect : c.Effect terms next)
    (hears : c.traffic.Hears) : next.traffic.Hears := by
  cases effect with
  | traffic step => exact step.hears hears
  | _ => exact hears

namespace Scene

def Bound (x : Scene) : Command → Prop
  | .add m generation => ∀ ip ∈ m.localIp, ∃ u ∈ x.worlds,
    u.core.Connects m.scope generation ∧ ∃ addresses ∈ u.localAddresses, addresses.contains ip
  | .remove _ => True

-- A connect binds a local address that is there at the time.
def Binds (x y : Scene) : Prop :=
  ∀ c ∈ y.world.supervisor.queue, c ∉ x.world.supervisor.queue → x.Bound c

instance (x : Scene) (c : Command) : Decidable (x.Bound c) :=
  match c with
  | .add m _ => inferInstanceAs (Decidable (∀ ip ∈ m.localIp, ∃ u ∈ x.worlds, _ ∧ _))
  | .remove _ => .isTrue trivial

instance (x y : Scene) : Decidable (x.Binds y) := inferInstanceAs (Decidable (∀ c ∈ _, _ → _))

-- What the supervisor has yet to hear of is not older than the addresses that were there when it
-- was bound, where `there` says which ones were.
structure Dated (there : World → Option LocalAddresses) (x : Scene) : Prop where
  hears : x.world.traffic.Hears
  begun : ∀ u ∈ x.worlds, u.core.Begun
  grown : ∀ u ∈ x.worlds, u.supervisor.generation ≤ x.world.supervisor.generation
  bound : ∀ m g, .add m g ∈ x.world.supervisor.queue → ∀ ip ∈ m.localIp, ∃ u ∈ x.worlds,
    g ≤ u.supervisor.generation ∧ ∃ addresses ∈ there u, addresses.contains ip

variable {only : Move → Prop} {there : World → Option LocalAddresses} {x y : Scene}

theorem Step.mem_worlds (step : x.Step only y) {u : World} :
    u ∈ y.worlds ↔ u ∈ x.worlds ∨ u = y.world := by
  rw [worlds, step.past, List.mem_append, List.mem_singleton]

theorem Step.dated (step : x.Step only y) (based : x.Based)
    (binds : ∀ m g, .add m g ∈ y.world.supervisor.queue → .add m g ∉ x.world.supervisor.queue →
      ∀ ip ∈ m.localIp, ∃ u ∈ x.worlds,
        u.core.Connects m.scope g ∧ ∃ addresses ∈ there u, addresses.contains ip)
    (dated : x.Dated there) : y.Dated there := by
  have current : x.world ∈ x.worlds := List.mem_append_right _ (List.mem_singleton_self _)
  obtain ⟨hears, begun, later⟩ : y.world.traffic.Hears ∧ y.world.core.Begun ∧
      x.world.supervisor.generation ≤ y.world.supervisor.generation := by
    rcases step.effects based with ⟨t, -, effects⟩ | supervises
    · exact ⟨effects.keeps (p := fun c => c.traffic.Hears) Core.Effect.hears dated.hears,
        effects.keeps Core.Effect.begun (dated.begun _ current),
        Nat.le_of_eq effects.generation.symm⟩
    · obtain ⟨supervises, core⟩ := supervises.traffic
      have later : x.world.supervisor.generation ≤ y.world.supervisor.generation :=
        supervises.generation
      refine ⟨(supervises.hears dated.hears).1, fun scope g connects => ?_, later⟩
      have connects : x.world.core.Connects scope g := by
        rw [core] at connects
        exact connects
      exact Nat.le_trans (dated.begun _ current scope g connects) later
  refine ⟨hears, fun u member => ?_, fun u member => ?_, fun m g queued ip has => ?_⟩
  · rcases step.mem_worlds.mp member with old | rfl
    · exact dated.begun u old
    · exact begun
  · rcases step.mem_worlds.mp member with old | rfl
    · exact Nat.le_trans (dated.grown u old) later
    · exact Nat.le_refl _
  · by_cases old : Command.add m g ∈ x.world.supervisor.queue
    · obtain ⟨u, member, rest⟩ := dated.bound m g old ip has
      exact ⟨u, step.mem_worlds.mpr (.inl member), rest⟩
    · obtain ⟨u, member, connects, rest⟩ := binds m g queued old ip has
      exact ⟨u, step.mem_worlds.mpr (.inl member), dated.begun u member _ _ connects, rest⟩

end Scene

namespace Scenario.Setup

theorem build_rest (s : Setup) :
    (∃ inbox, s.build.supervisor = { inbox }) ∧ s.build.connections = [] := by
  have workers (subscribers : List Event.Subscriber) (w : World) :
      (subscribers.foldl World.addWorker w).supervisor = w.supervisor ∧
        (subscribers.foldl World.addWorker w).connections = w.connections := by
    induction subscribers generalizing w with
    | nil => exact ⟨rfl, rfl⟩
    | cons subscriber rest ih => exact ih _
  have started (w : World) :
      (s.roster.foldl World.addWorker (w.swap w.storedParams).1).supervisor = w.supervisor ∧
        (s.roster.foldl World.addWorker (w.swap w.storedParams).1).connections =
          w.connections := by
    obtain ⟨supervisor, connections⟩ := workers s.roster (w.swap w.storedParams).1
    rw [supervisor, connections]
    exact w.swap_rest w.storedParams
  unfold build
  split
  · unfold buildRuntime
    dsimp only
    split <;>
    · obtain ⟨supervisor, connections⟩ := started _
      rw [supervisor, connections]
      exact ⟨⟨_, rfl⟩, rfl⟩
  · exact ⟨⟨_, rfl⟩, rfl⟩

theorem scene_dated (s : Setup) (there : World → Option LocalAddresses) :
    s.scene.Dated there := by
  have kept := s.build_induct (p := fun c => c.traffic.Hears ∧ c.Begun)
    (fun initial => ⟨initial.hears, initial.begun⟩)
    (fun effect kept => ⟨effect.hears kept.1, effect.begun kept.2⟩)
    fun kinds kept =>
      ⟨⟨(Event.Bus.Onward.subscribe kinds).serves kept.1.serves, kept.1.listens⟩, kept.2⟩
  refine ⟨kept.1, fun u member => ?_, fun u member => ?_, fun m g queued => ?_⟩
  · obtain rfl := List.mem_singleton.mp member
    exact kept.2
  · obtain rfl := List.mem_singleton.mp member
    exact Nat.le_refl _
  · have queued : Command.add m g ∈ s.build.supervisor.queue := queued
    obtain ⟨⟨inbox, supervisor⟩, -⟩ := s.build_rest
    rw [supervisor] at queued
    cases queued

end Scenario.Setup

end Egress
