import Egress.Proofs.World.Accounting
import Egress.Proofs.World.Registering
import Egress.Scenario.Entry

set_option autoImplicit false

namespace Egress

namespace Traffic

-- A connection that is registered is filed under its scope, and the scope is watched, unless the
-- connection is to be closed with its scope.
structure Watching (cancelled : Scope → Prop) (t : Traffic) : Prop where
  ordered : ∀ o ∈ t.fanOuts, o.reason = none → ∀ id ∈ o.ids,
    ∃ c ∈ t.connections, c.id = id ∧ cancelled c.scope
  filed : ∀ m ∈ t.supervisor.registry.members, t.supervisor.registry.Filed m.scope.id m.id ∨
    ∃ o ∈ t.fanOuts, o.reason = none ∧ m.id ∈ o.ids
  watched : ∀ x ∈ t.supervisor.registry.watches, ∃ c ∈ t.connections, c.scope = x.scope

variable {aborts : AbortReason → Prop} {asked : Scope → Nat → Prop} {t next : Traffic}
  {cancelled : Scope → Prop}

theorem Watching.mono (watching : t.Watching cancelled) {later : Scope → Prop}
    (still : ∀ scope, cancelled scope → later scope) : t.Watching later where
  ordered o there unreasoned id member := by
    obtain ⟨c, was, number, lapsed⟩ := watching.ordered o there unreasoned id member
    exact ⟨c, was, number, still _ lapsed⟩
  filed := watching.filed
  watched := watching.watched

theorem Step.watching (step : t.Step aborts asked next) (kept : t.Kept)
    (watching : t.Watching cancelled) : next.Watching cancelled := by
  obtain ⟨fanOuts, registry⟩ := step.rest
  refine ⟨fun o there unreasoned id member => ?_, fun m there => ?_, fun x there => ?_⟩
  · obtain ⟨c, was, rfl, lapsed⟩ := watching.ordered o (fanOuts ▸ there) unreasoned id member
    obtain ⟨k, now, same, -⟩ := step.lasts kept was
    have scope : k.scope = c.scope := congrArg Member.scope same
    exact ⟨k, now, congrArg Member.id same, scope ▸ lapsed⟩
  · rw [registry] at there ⊢
    rw [fanOuts]
    exact watching.filed m there
  · obtain ⟨c, was, scope⟩ := watching.watched x (registry ▸ there)
    obtain ⟨k, now, same, -⟩ := step.lasts kept was
    exact ⟨k, now, (congrArg Member.scope same).trans scope⟩

namespace Watching

variable {view : Supervisor.View}

theorem worked (watching : t.Watching cancelled) {orders : List FanOut}
    (connections : next.connections = t.connections) (fanOuts : next.fanOuts = t.fanOuts ++ orders)
    (ordered : ∀ o ∈ orders, o.reason = none → ∀ id ∈ o.ids,
      ∃ c ∈ t.connections, c.id = id ∧ cancelled c.scope)
    (filed : ∀ m ∈ next.supervisor.registry.members,
      next.supervisor.registry.Filed m.scope.id m.id ∨
        (m ∈ t.supervisor.registry.members ∧ ¬ t.supervisor.registry.Filed m.scope.id m.id) ∨
        ∃ o ∈ orders, o.reason = none ∧ m.id ∈ o.ids)
    (watched : ∀ x ∈ next.supervisor.registry.watches,
      ∃ c ∈ t.connections, c.scope = x.scope) : next.Watching cancelled := by
  refine ⟨fun o there unreasoned id member => ?_, fun m there => ?_, connections ▸ watched⟩
  · rw [connections]
    rw [fanOuts] at there
    exact (List.mem_append.mp there).elim (watching.ordered o · unreasoned id member)
      (ordered o · unreasoned id member)
  · rw [fanOuts]
    rcases filed m there with still | ⟨old, unfiled⟩ | ⟨o, new, rest⟩
    · exact .inl still
    · obtain ⟨o, was, rest⟩ := (watching.filed m old).resolve_left unfiled
      exact .inr ⟨o, List.mem_append_left _ was, rest⟩
    · exact .inr ⟨o, List.mem_append_right _ new, rest⟩

theorem done (watching : t.Watching cancelled) (kept : t.Kept)
    (apart : ∀ a ∈ t.connections, ∀ b ∈ t.connections, a.scope.id = b.scope.id → a.scope = b.scope)
    {x : ScopeWatch} (member : x ∈ t.supervisor.registry.watches) (lapsed : cancelled x.scope)
    (connections : next.connections = t.connections)
    (registry : next.supervisor.registry =
      ((t.supervisor.registry.dropWatch x.number).scopeDone x.scope.id).1)
    (fanOuts : next.fanOuts =
      t.fanOuts ++ Supervisor.order (t.supervisor.registry.scopeDone x.scope.id).2 none) :
    next.Watching cancelled := by
  have closes (i : Nat) : i ∈ (t.supervisor.registry.scopeDone x.scope.id).2 ↔
      t.supervisor.registry.Filed x.scope.id i := Registry.mem_scopeDone kept.sound _ i
  obtain ⟨members, -⟩ := t.supervisor.registry.scopeDone_rest x.number x.scope.id
  refine watching.worked connections fanOuts (fun o there _ id inside => ?_) (fun m there => ?_)
    fun y there => ?_
  · obtain ⟨-, rfl⟩ := Supervisor.mem_order.mp there
    obtain ⟨m, known, rfl, scope⟩ := kept.sound.filed _ _ ((closes id).mp inside)
    obtain ⟨c, was, rfl⟩ := kept.members m known
    obtain ⟨o, dialed, same⟩ := watching.watched x member
    have same : c.scope = x.scope := (apart c was o dialed (scope.trans (same ▸ rfl))).trans same
    exact ⟨c, was, rfl, same ▸ lapsed⟩
  · rw [registry, members] at there
    rw [registry]
    by_cases filed : t.supervisor.registry.Filed m.scope.id m.id
    · by_cases scope : m.scope.id = x.scope.id
      · have inside := (closes m.id).mpr (scope ▸ filed)
        refine .inr (.inr ⟨_, Supervisor.mem_order.mpr ⟨?_, rfl⟩, rfl, inside⟩)
        exact List.ne_nil_of_mem inside
      · exact .inl ((Registry.scopeDone_filed _ _ _ _).mpr ⟨filed, scope⟩)
    · exact .inr (.inl ⟨there, filed⟩)
  · obtain ⟨o, was, scope⟩ := Registry.scopeDone_watches (registry ▸ there)
    rw [scope]
    exact watching.watched o was

theorem filed_still {m : Member} (there : m ∈ t.supervisor.registry.members) {registry : Registry}
    (filed : t.supervisor.registry.Filed m.scope.id m.id → registry.Filed m.scope.id m.id)
    {orders : List FanOut} : registry.Filed m.scope.id m.id ∨
      (m ∈ t.supervisor.registry.members ∧ ¬ t.supervisor.registry.Filed m.scope.id m.id) ∨
      ∃ o ∈ orders, o.reason = none ∧ m.id ∈ o.ids := by
  by_cases was : t.supervisor.registry.Filed m.scope.id m.id
  · exact .inl (filed was)
  · exact .inr (.inl ⟨there, was⟩)

variable {view : Supervisor.View}

theorem reasoned {s : Supervisor} : ∀ o ∈ s.revalidate view, o.reason = none → ∀ id ∈ o.ids,
    ∃ c ∈ t.connections, c.id = id ∧ cancelled c.scope := by
  intro o there unreasoned
  obtain ⟨_, -, rfl, -⟩ := Supervisor.revalidate_eq there
  cases unreasoned

theorem add (watching : t.Watching cancelled) {m : Member} {generation : Nat} {rest : List Command}
    (known : ∃ c ∈ t.connections, c.scope = m.scope) (connections : next.connections = t.connections)
    (supervisor : next.supervisor =
      ({ t.supervisor with queue := rest }.handle view (.add m generation)).1)
    (fanOuts : next.fanOuts =
      t.fanOuts ++ ({ t.supervisor with queue := rest }.handle view (.add m generation)).2) :
    next.Watching cancelled := by
  rcases Supervisor.handle_add { t.supervisor with queue := rest } view m generation with
    ⟨-, result⟩ | ⟨r, -, added, result⟩ <;> rw [result] at supervisor fanOuts
  · refine watching.worked connections fanOuts (by simp) (fun o there => ?_) ?_ <;>
      rw [supervisor] at *
    · exact filed_still there id
    · exact watching.watched
  · refine watching.worked connections fanOuts ?_ (fun o there => ?_) fun x there => ?_
    · split
      · simp
      · exact reasoned
    · rw [supervisor] at there ⊢
      rcases List.mem_append.mp (Registry.add?_members added ▸ there) with old | new
      · exact filed_still old fun was => (Registry.add?_filed added _ _).mpr (.inl was)
      · obtain rfl := List.mem_singleton.mp new
        exact .inl ((Registry.add?_filed added _ _).mpr (.inr ⟨rfl, rfl⟩))
    · rw [supervisor] at there
      rcases Registry.add?_watches added there with old | scope
      · exact watching.watched x old
      · exact scope ▸ known

theorem remove (watching : t.Watching cancelled) (kept : t.Kept) {id : Nat} {rest : List Command}
    (connections : next.connections = t.connections)
    (supervisor : next.supervisor =
      { t.supervisor with queue := rest, registry := t.supervisor.registry.remove id })
    (fanOuts : next.fanOuts = t.fanOuts ++ []) : next.Watching cancelled := by
  refine watching.worked connections fanOuts (by simp) (fun m there => ?_) fun x there => ?_
  · rw [supervisor] at there ⊢
    obtain ⟨old, other⟩ := List.mem_filter.mp (Registry.remove_members id ▸ there)
    exact filed_still old fun was =>
      (Registry.remove_filed kept.sound id _ _).mpr ⟨was, by simpa using other⟩
  · rw [supervisor] at there
    obtain ⟨o, was, scope⟩ := Registry.remove_watches id there
    rw [scope]
    exact watching.watched o was

end Watching

theorem Supervises.watching {view : Supervisor.View} (step : t.Supervises view next) (kept : t.Kept)
    (apart : ∀ a ∈ t.connections, ∀ b ∈ t.connections, a.scope.id = b.scope.id → a.scope = b.scope)
    (sees : ∀ scope : Scope, view.cancelled scope.token → cancelled scope)
    (watching : t.Watching cancelled) : next.Watching cancelled := by
  cases step with
  | command c rest queued =>
    cases c with
    | add m generation =>
      obtain ⟨c, member, same⟩ := kept.queued m generation (queued ▸ List.mem_cons_self)
      exact watching.add ⟨c, member, congrArg Member.scope same⟩ rfl rfl rfl
    | remove id => exact watching.remove kept rfl rfl rfl
  | watch x verdict member resolved =>
    cases verdict with
    | true =>
      refine watching.done kept apart member (sees _ resolved) rfl rfl ?_
      rw [← (t.supervisor.registry.scopeDone_rest x.number x.scope.id).2.2]
      rfl
    | false =>
      exact watching.worked rfl rfl (by simp [Supervisor.watchResolved])
        (fun m there => Watching.filed_still there id)
        fun y there => watching.watched y (List.mem_of_mem_filter there)
  | news =>
    exact watching.worked rfl rfl Watching.reasoned (fun m there => Watching.filed_still there id)
      watching.watched
  | silence =>
    exact watching.worked rfl (List.append_nil _).symm (by simp)
      (fun m there => Watching.filed_still there id) watching.watched

end Traffic

namespace Core

structure Minds (c : Core) : Prop where
  kept : c.traffic.Kept
  watching : c.traffic.Watching fun scope => c.scopes.isCancelled scope

variable {terms : Terms} {c next : Core}

theorem Initial.minds (initial : c.Initial) : c.Minds := by
  obtain ⟨bus, inbox, requests, traffic, -⟩ := initial.traffic
  constructor <;> rw [traffic]
  · refine ⟨rfl, ?_, ?_, Registry.sound_empty, ?_, ?_, ?_, ?_, ?_⟩ <;> simp
  · constructor <;> simp

theorem Effect.minds (effect : c.Effect terms next) (minds : c.Minds) : next.Minds := by
  have later := minds.watching.mono fun _ => effect.cancelled
  cases effect with
  | traffic step => exact ⟨step.kept minds.kept, step.watching minds.kept minds.watching⟩
  | _ => exact ⟨minds.kept, later⟩

theorem Minds.listen (minds : c.Minds) (kinds : List Event.Kind) : (c.listen kinds).Minds :=
  ⟨{ minds.kept with }, { minds.watching with }⟩

end Core

namespace World

variable {w next : World}

theorem Supervises.minds {handed : List Scope} (step : w.Supervises next)
    (named : w.core.Named handed) (minds : w.core.Minds) : next.core.Minds := by
  obtain ⟨supervises, core⟩ := step.traffic
  have apart (a : Connection) (dialed : a ∈ w.connections) (b : Connection)
      (dialed' : b ∈ w.connections) (same : a.scope.id = b.scope.id) : a.scope = b.scope :=
    named.apart _ (named.connections a dialed) _ (named.connections b dialed') same
  rw [core]
  exact ⟨supervises.kept rfl minds.kept,
    supervises.watching minds.kept apart (fun _ lapsed => lapsed) minds.watching⟩

theorem Settled.supervisor_idle (settled : w.Settled) (running : w.supervisor.running) :
    w.supervisor.stopping = false ∧ w.supervisor.queue = [] ∧
      w.supervisor.registry.resolved? w.view.cancelled = none ∧ w.hasNews = false := by
  have idle : w.canSupervise = false := settled.idle .supervisor running
  simpa [canSupervise, running, and_assoc] using idle

end World

namespace Scene

variable {only : Move → Prop} {x y : Scene}

theorem Step.minds (step : x.Step only y) (based : x.Based) (minds : x.world.core.Minds) :
    y.world.core.Minds := by
  rcases step.effects based with ⟨t, -, effects⟩ | supervises
  · exact effects.keeps (fun effect => effect.minds) minds
  · exact supervises.minds based.named minds

theorem Run.minds (run : Run only x y) (based : x.Based) (minds : x.world.core.Minds) :
    y.world.core.Minds := by
  induction run with
  | refl => exact minds
  | tail before step ih => exact step.minds (Run.based before based) ih

end Scene

theorem Scenario.Setup.scene_minds (s : Setup) : s.scene.world.core.Minds :=
  s.build_induct (p := Core.Minds) Core.Initial.minds Core.Effect.minds
    fun kinds minds => minds.listen kinds

namespace World

variable {w : World}

def openConnections (w : World) : List Connection := w.connections.filter fun c => !c.closed

theorem mem_openConnections {c : Connection} :
    c ∈ w.openConnections ↔ c ∈ w.connections ∧ c.closed = false := by
  simp [openConnections]

section Settled

variable (minds : w.core.Minds) (settled : w.Settled)

include minds settled

theorem mem_members (m : Member) :
    m ∈ w.supervisor.registry.members ↔ ∃ c ∈ w.openConnections, c.member = m := by
  have queue : w.supervisor.queue = [] := (settled.supervisor_idle minds.kept.running).2.1
  constructor
  · intro registered
    obtain ⟨c, member, rfl⟩ := minds.kept.members m registered
    refine ⟨c, mem_openConnections.mpr ⟨member, ?_⟩, rfl⟩
    by_contra lapsed
    have waiting : Command.remove c.id ∈ w.supervisor.queue :=
      minds.kept.dismissed c member (by simpa using lapsed) registered
    simp [queue] at waiting
  · rintro ⟨c, there, rfl⟩
    obtain ⟨member, opened⟩ := mem_openConnections.mp there
    refine (minds.kept.awaited c member opened).resolve_right fun ⟨g, waiting⟩ => ?_
    have waiting : Command.add c.member g ∈ w.supervisor.queue := waiting
    simp [queue] at waiting

theorem not_ordered {c : Connection} (there : c ∈ w.openConnections) {o : FanOut}
    (ordered : o ∈ w.fanOuts) : c.id ∉ o.ids := by
  intro inside
  obtain ⟨member, opened⟩ := mem_openConnections.mp there
  have lapsed : w.core.traffic.isClosed c.id := settled.tornDown o ordered c.id inside
  rw [minds.kept.isClosed member, opened] at lapsed
  cases lapsed

theorem open_filed {c : Connection} (there : c ∈ w.openConnections) :
    w.supervisor.registry.Filed c.scope.id c.id := by
  have registered := (mem_members minds settled c.member).mpr ⟨c, there, rfl⟩
  refine (minds.watching.filed c.member registered).resolve_right fun ⟨o, ordered, _, inside⟩ => ?_
  exact not_ordered minds settled there ordered inside

-- An open connection is filed under its scope, which is watched: were the scope cancelled, the
-- watch would be resolved.
theorem open_scope {handed : List Scope} (named : w.core.Named handed) {c : Connection}
    (there : c ∈ w.openConnections) : w.isCancelled c.scope = false := by
  obtain ⟨e, entry, scope, -⟩ := open_filed minds settled there
  obtain ⟨x, watched, -, same, -⟩ := minds.kept.sound.watched.live e entry
  obtain ⟨k, dialed, origin⟩ := minds.watching.watched x watched
  have own : x.scope = c.scope := by
    have member := (mem_openConnections.mp there).1
    rw [← origin]
    exact named.apart _ (named.connections k dialed) _ (named.connections c member)
      (origin ▸ same.trans scope)
  have unresolved := (settled.supervisor_idle minds.kept.running).2.2.1
  have waits := List.find?_eq_none.mp unresolved x watched
  rw [Registry.ScopeWatch.isResolved, own] at waits
  cases lapsed : w.isCancelled c.scope with
  | false => rfl
  | true =>
    have lapsed : w.view.cancelled c.scope.token = true := lapsed
    simp [lapsed] at waits

theorem tracked_eq : Scenario.Stage.tracked w =
    (w.openConnections.length, (w.openConnections.map (·.scope.id)).dedup.length,
      (w.openConnections.filterMap (·.localIp)).dedup.length) := by
  have sound : w.supervisor.registry.Sound := minds.kept.sound
  have running : w.supervisor.running := minds.kept.running
  have members := mem_members minds settled
  have apart : (w.openConnections.map (·.id)).Nodup := nodup_filter minds.kept.numbers _
  have filed (m : Member) (there : m ∈ w.supervisor.registry.members) :
      w.supervisor.registry.Filed m.scope.id m.id := by
    obtain ⟨c, opened, rfl⟩ := (members m).mp there
    exact open_filed minds settled opened
  have number : w.supervisor.registry.members.length = w.openConnections.length := by
    have ids := length_of_same sound.members (k := w.openConnections.map (·.id)) fun id => by
      simp [members]
    rwa [apart.dedup, List.length_map, List.length_map] at ids
  rw [Scenario.Stage.tracked, if_pos running, sound.count_scopes filed,
    sound.count_addresses, number]
  refine congrArg₂ (fun scopes ips => (_, scopes, ips)) (dedup_length_of_same fun s => ?_)
    (dedup_length_of_same fun ip => ?_)
  · simp [members]
  · simp [members]

end Settled

structure TearsDown (w : World) : Prop where
  -- What is closed with its scope was dialed under a scope that is cancelled.
  alone : ∀ o ∈ w.fanOuts, o.reason = none → ∀ id ∈ o.ids,
    ∃ c ∈ w.connections, c.id = id ∧ w.isCancelled c.scope
  refused : ∀ request : ConnectRequest, w.isCancelled request.scope →
    w.beginConnect request = (w, .failed .canceled)
  givenUp : ∀ c : Connecting, w.isCancelled c.request.scope →
    w.pollConnect c = (w.dropConnect c, .failed .canceled) ∧
      (w.dropConnect c).connections = w.connections
  wholly : w.Settled → ∀ c ∈ w.connections, c.closed = false → w.isCancelled c.scope = false
  tracked : w.Settled → Scenario.Stage.tracked w =
    (w.openConnections.length, (w.openConnections.map (·.scope.id)).dedup.length,
      (w.openConnections.filterMap (·.localIp)).dedup.length)

end World

namespace Scenario.Setup

variable {s : Setup} {only : Move → Prop} {x : Scene}

theorem Plays.minds (plays : s.Plays only x) : x.world.core.Minds :=
  Scene.Run.minds plays s.scene_based s.scene_minds

-- A cancelled scope takes its connections down, whenever they were dialed and however often its
-- entry has come and gone, and nothing else is closed with it.
theorem Plays.tears_down (plays : s.Plays only x) : x.world.TearsDown := by
  have minds := plays.minds
  have named := (Scene.Run.based plays s.scene_based).named
  refine ⟨minds.watching.ordered, fun request lapsed => ?_, fun c lapsed => ⟨?_, rfl⟩,
    fun settled c member opened => ?_, World.tracked_eq minds⟩
  · rw [World.beginConnect, if_pos lapsed]
  · rw [World.pollConnect, if_pos lapsed]
  · exact World.open_scope minds settled named (World.mem_openConnections.mpr ⟨member, opened⟩)

def parting : Scene :=
  small.scene.along
    [fun w => .childScope w.root,
      fun w => .dial "d" (.via .manager false) "tcp" "127.0.0.1:22" (youngest w),
      fun w => .dial "e" (.via .manager false) "tcp" "127.0.0.1:22" w.root,
      fun _ => .poll (.call "d"),
      fun w => .kernel (w.network.grant?.getD w.network),
      fun _ => .poll (.call "d"),
      fun _ => .poll (.call "e"),
      fun w => .kernel (w.network.grant?.getD w.network),
      fun _ => .poll (.call "e"),
      fun _ => .poll .supervisor,
      fun w => .cancel (youngest w)]

def parted : Scene :=
  parting.along
    [fun _ => .poll .supervisor,
      fun _ => .poll .supervisor,
      fun _ => .poll (.fanOut 0),
      fun _ => .poll .dispatcher,
      fun _ => .poll .supervisor,
      fun _ => .poll .addressWatch]

theorem tears_down_parted :
    (∃ c ∈ parting.world.connections, c.closed = false ∧ parting.world.isCancelled c.scope) ∧
      Stage.tracked parted.world = (1, 1, 1) ∧
      ∀ c ∈ parted.world.connections, c.closed = false →
        parted.world.isCancelled c.scope = false := by
  have before : small.Plays Move.Driven parting := Scene.run_along (by decide +kernel)
  have plays : small.Plays Move.Driven parted :=
    Relation.ReflTransGen.trans before (Scene.run_along (by decide +kernel))
  have settled : parted.world.Settled := by decide +kernel
  have down := plays.tears_down
  refine ⟨by decide +kernel, ?_, down.wholly settled⟩
  rw [down.tracked settled]
  decide +kernel

end Scenario.Setup

end Egress
