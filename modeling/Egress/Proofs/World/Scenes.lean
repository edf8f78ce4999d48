import Egress.Proofs.World.Supervising

set_option autoImplicit false

namespace Egress

theorem Connection.tearDown?_eq {c torn : Connection} {reason : Option AbortReason}
    (torn? : c.tearDown? reason = some torn) :
    c.closed = false ∧ torn = { c with closed := true, reason, hasCopy := false } := by
  unfold Connection.tearDown? at torn?
  split at torn?
  · cases torn?
  next opened => exact ⟨by simpa using opened, (Option.some.inj torn?).symm⟩

theorem Connection.tearDown?_id {c torn : Connection} {reason : Option AbortReason}
    (torn? : c.tearDown? reason = some torn) : torn.id = c.id := by
  obtain ⟨-, rfl⟩ := Connection.tearDown?_eq torn?
  rfl

theorem Traffic.mem_replace {t : Traffic} {k next : Connection} (member : k ∈ t.replace next) :
    k ∈ t.connections ∨ k = next := by
  obtain ⟨o, was, rfl⟩ := List.mem_map.mp member
  split
  · exact .inr rfl
  · exact .inl was

theorem Traffic.Step.scopes {aborts : AbortReason → Prop} {asked : Scope → Nat → Prop}
    {t next : Traffic} (step : t.Step aborts asked next) {k : Connection}
    (member : k ∈ next.connections) :
    (∃ o ∈ t.connections, o.scope = k.scope) ∨ ∃ g, asked k.scope g := by
  cases step with
  | establish c generation fresh opened unharmed wanted =>
    rcases List.mem_append.mp member with old | new
    · exact .inl ⟨k, old, rfl⟩
    · obtain rfl := List.mem_singleton.mp new
      exact .inr ⟨generation, wanted⟩
  | use c changed found same =>
    rcases Traffic.mem_replace member with old | rfl
    · exact .inl ⟨k, old, rfl⟩
    · refine .inl ⟨c, List.mem_of_find?_eq_some found, ?_⟩
      rcases same with rfl | rfl <;> rfl
  | tearDown c torn reason found torn? =>
    obtain ⟨-, rfl⟩ := Connection.tearDown?_eq torn?
    rcases Traffic.mem_replace member with old | rfl
    · exact .inl ⟨k, old, rfl⟩
    · exact .inl ⟨c, List.mem_of_find?_eq_some found, rfl⟩
  | _ => exact .inl ⟨k, member, rfl⟩

theorem Tunnels.Step.scopes {works : Nat → Prop} {around : Scopes} {t next : Tunnels}
    (step : t.Step works around next) :
    next.generations.map (·.scope) = t.generations.map (·.scope) := by
  have set {g : Nat} {gen changed : Tunnel.Generation} (found : t.generation? g = some gen)
      (same : changed.scope = gen.scope) :
      (t.generations.set g changed).map (·.scope) = t.generations.map (·.scope) := by
    obtain ⟨inside, rfl⟩ := List.getElem?_eq_some_iff.mp found
    rw [List.map_set, same, ← List.getElem_map (f := Tunnel.Generation.scope),
      List.set_getElem_self]
    simpa using inside
  cases step with
  | repool g gen pool found => exact set found rfl
  | arrive g gen session found => exact set found rfl
  | retire g gen slot text found => exact set found (World.trip_keeps gen slot text).1
  | _ => rfl

namespace Core

-- The scopes that connections can be dialed under: those handed out, and those of the generations
-- of the tunnel.
def used (handed : List Scope) (c : Core) : List Scope :=
  handed ++ c.tunnels.generations.map (·.scope)

structure Named (handed : List Scope) (c : Core) : Prop where
  made : ∀ scope ∈ c.used handed, scope.id ≤ c.scopes.made
  apart : ∀ a ∈ c.used handed, ∀ b ∈ c.used handed, a.id = b.id → a = b
  calls : ∀ call ∈ c.calls, ∀ scope, call.2.scope? = some scope → scope ∈ handed
  connections : ∀ k ∈ c.traffic.connections, k.scope ∈ c.used handed

variable {handed : List Scope} {t : Terms} {c next : Core}

theorem Named.more (named : c.Named handed) (scope : Scope) {handed' : List Scope}
    (used : ∀ a, a ∈ next.used handed' ↔ a ∈ c.used handed ∨ a = scope)
    (fresh : scope.id = c.scopes.made + 1) (made : next.scopes.made = c.scopes.made + 1)
    (calls : next.calls = c.calls) (kept : ∀ a ∈ handed, a ∈ handed')
    (connections : next.traffic.connections = c.traffic.connections) : next.Named handed' := by
  have newer {a : Scope} (old : a ∈ c.used handed) : a.id ≠ scope.id := by
    have := named.made a old
    omega
  refine ⟨fun a is => ?_, fun a is b also same => ?_, fun call member a which => ?_,
    fun k member => ?_⟩
  · rw [made]
    rcases (used a).mp is with old | rfl
    · exact Nat.le_succ_of_le (named.made a old)
    · exact Nat.le_of_eq fresh
  · rcases (used a).mp is with old | rfl <;> rcases (used b).mp also with old' | rfl
    · exact named.apart a old b old' same
    · exact absurd same (newer old)
    · exact absurd same.symm (newer old')
    · rfl
  · exact kept a (named.calls call (calls ▸ member) a which)
  · exact (used k.scope).mpr (.inl (named.connections k (connections ▸ member)))

theorem Named.give (named : c.Named handed) {scopes : Scopes} {scope : Scope}
    (made : scopes.made = c.scopes.made + 1) (fresh : scope.id = c.scopes.made + 1) :
    { c with scopes }.Named (handed ++ [scope]) := by
  refine named.more scope (fun a => ?_) fresh made rfl
    (fun _ member => List.mem_append_left _ member) rfl
  simp only [used, List.mem_append, List.mem_singleton]
  tauto

theorem Effect.named (effect : Effect t c next)
    (hands : ∀ scope, t.hands scope → scope ∈ handed) (named : c.Named handed) :
    next.Named handed := by
  obtain ⟨made, apart, calls, connections⟩ := id named
  cases effect with
  | traffic step =>
    refine ⟨made, apart, calls, fun k member => ?_⟩
    rcases step.scopes member with ⟨o, was, scope⟩ | ⟨g, wanted⟩
    · exact scope ▸ connections o was
    · rcases wanted.2 with ⟨call, begun, scope⟩ | ⟨gen, present, scope⟩
      · exact List.mem_append_left _ (calls call begun _ scope)
      · exact List.mem_append_right _ (List.mem_map.mpr ⟨gen, present, scope⟩)
  | tunnels step =>
    have used : Core.used handed { c with tunnels := _ } = c.used handed :=
      congrArg (handed ++ ·) step.scopes
    exact ⟨used ▸ made, used ▸ apart, calls, used ▸ connections⟩
  | scopes next more => exact ⟨fun a is => Nat.le_trans (made a is) more, apart, calls, connections⟩
  | replace gen fresh found work scope =>
    refine named.more fresh.scope (fun a => ?_) ?_ rfl rfl (fun _ h => h) rfl
    · simp [used, or_assoc]
    · rw [scope]
      rfl
  | addCall id call proper handed =>
    refine ⟨made, apart, fun p member a which => ?_, connections⟩
    rcases List.mem_append.mp member with old | new
    · exact calls p (List.mem_of_mem_filter old) a which
    · obtain rfl := List.mem_singleton.mp new
      exact hands a (handed a which)
  | setCall id old call found proper same =>
    refine ⟨made, apart, fun p member a which => ?_, connections⟩
    obtain ⟨q, was, rfl⟩ := List.mem_map.mp member
    dsimp only at which
    split at which
    · exact calls _ found a (same a which)
    · exact calls q was a which
  | endCall id =>
    exact ⟨made, apart, fun p member => calls p (List.mem_of_mem_filter member), connections⟩

theorem Effect.root (effect : Effect t c next) : next.root = c.root := by
  cases effect <;> rfl

theorem Initial.named (initial : c.Initial) : c.Named [c.root] := by
  obtain ⟨scope, tunnels, older, made⟩ := initial.tunnels
  obtain ⟨bus, inbox, requests, traffic, -⟩ := initial.traffic
  have used (a : Scope) : a ∈ c.used [c.root] ↔ a = c.root ∨ a = scope := by
    simp [Core.used, tunnels, Tunnels.initial]
  have distinct : c.root.id ≠ scope.id := Nat.ne_of_lt older
  refine ⟨fun a is => ?_, fun a is b also same => ?_, by simp [initial.calls], by simp [traffic]⟩
  · rcases (used a).mp is with rfl | rfl
    · exact Nat.le_of_lt (Nat.lt_of_lt_of_le older made)
    · exact made
  · rcases (used a).mp is with rfl | rfl <;> rcases (used b).mp also with rfl | rfl
    · rfl
    · exact absurd same distinct
    · exact absurd same.symm distinct
    · rfl

end Core

structure Scene where
  world : World
  -- The scopes handed out so far.
  scopes : List Scope
  past : List World := []

def Move.gives (w : World) : Move → List Scope
  | .newScope => [w.scopes.new.2]
  | .childScope parent => [(w.scopes.child parent).2]
  | _ => []

def Move.isSupervision : Move → Bool
  | .poll .supervisor => true
  | _ => false

theorem Move.gives_cases (w : World) (m : Move) :
    m.gives w = [] ∨ ∃ scopes scope, m.gives w = [scope] ∧ w.move m = { w with scopes } ∧
      scopes.made = w.scopes.made + 1 ∧ scope.id = w.scopes.made + 1 := by
  cases m with
  | newScope => exact .inr ⟨_, _, rfl, rfl, rfl, rfl⟩
  | childScope parent => exact .inr ⟨_, _, rfl, rfl, rfl, rfl⟩
  | _ => exact .inl rfl

def Move.Uses (scopes : List Scope) : Move → Prop
  | .dial _ _ _ _ scope => scope ∈ scopes
  | _ => True

instance (scopes : List Scope) (m : Move) : Decidable (m.Uses scopes) :=
  match m with
  | .dial _ _ _ _ _ => inferInstanceAs (Decidable (_ ∈ scopes))
  | .poll _ | .withdraw _ | .disconnect _ | .answer _ _ | .reconnect _ _ | .setParams _ _ | .run _
  | .startRead _ _ _ | .abandon _ | .read _ _ | .write _ _ | .flush _ | .shutdown _ | .close _
  | .drop _ | .abort _ _ | .abortByHandle _ _ | .newScope | .childScope _ | .cancel _ | .kernel _
  | .script _ | .addresses _ _ | .clock _ | .signal _ | .store _ | .count _ _ | .raise _
  | .subscribe _ | .receive _ | .unsubscribe _ | .permit _ _ | .closeBus | .stopSupervisor =>
    .isTrue trivial

namespace Scene

def worlds (x : Scene) : List World := x.past ++ [x.world]

def onto (x : Scene) (w : World) (given : List Scope) : Scene :=
  { world := w, scopes := x.scopes ++ given, past := x.worlds }

inductive Step (only : Move → Prop) (x : Scene) : Scene → Prop
  | move (m : Move) (member : only m) (allowed : x.world.allows m) (other : m ≠ .poll .supervisor)
    (uses : m.Uses x.scopes) : Step only x (x.onto (x.world.move m) (m.gives x.world))
  -- A scope of its own on the token of another one.
  | share (scope : Scope) (known : scope ∈ x.scopes) :
    Step only x
      (x.onto { x.world with scopes := (x.world.scopes.onToken scope.token).1 }
        [(x.world.scopes.onToken scope.token).2])
  | supervise (next : World) (step : x.world.Supervises next) : Step only x (x.onto next [])
  | turn (bus : Event.Bus) (turned : x.world.bus.turn? = some bus) :
    Step only x (x.onto { x.world with bus } [])
  | tear (o : FanOut) (ordered : o ∈ x.world.fanOuts) (id : Nat) (member : id ∈ o.ids) :
    Step only x (x.onto (x.world.tearDown id o.reason).1 [])

-- What holds in every scene that a setup can come to.
structure Based (x : Scene) : Prop where
  sound : ∃ lost, World.Sound lost x.world
  proper : x.world.core.Proper
  named : x.world.core.Named x.scopes

end Scene

namespace World

variable {w next : World}

theorem Supervises.beside (step : w.Supervises next) : Beside w next := by
  cases step with
  | silence => exact w.supervisor_beside _ w.bus
  | news => exact (w.supervisor_beside _ _).trans (launch_beside _ _)
  | _ => exact (w.supervisor_beside _ w.bus).trans (launch_beside _ _)

theorem Supervises.named {handed : List Scope} (step : w.Supervises next)
    (named : w.core.Named handed) : next.core.Named handed := by
  obtain ⟨supervises, core⟩ := step.traffic
  rw [core]
  generalize next.traffic = t at supervises
  have connections : t.connections = w.traffic.connections := by cases supervises <;> rfl
  refine ⟨named.made, named.apart, named.calls, fun k member => named.connections k ?_⟩
  exact connections ▸ member

theorem onToken_passes (regular : w.Regular) (token : Nat) :
    Passes w { w with scopes := (w.scopes.onToken token).1 } :=
  scopes_passes regular _ (Nat.le_refl _) fun _ h => h

theorem tear_effects {t : Terms} {o : FanOut} (ordered : o ∈ w.fanOuts) {id : Nat}
    (member : id ∈ o.ids) : Effects t w (w.tearDown id o.reason).1 :=
  w.tearDown_effects id o.reason fun _ same => .inr ⟨o, ordered, same, member⟩

end World

namespace Scene

variable {only : Move → Prop} {x y : Scene}

theorem Step.past (step : x.Step only y) : y.past = x.worlds := by
  cases step <;> rfl

structure Lets (only : Move → Prop) (scopes : List Scope) (t : Terms) : Prop where
  hands : ∀ scope, t.hands scope → scope ∈ scopes
  aborts : ∀ reason, t.aborts reason → ∃ m, only m ∧ m.terms.aborts reason

theorem Step.effects (step : x.Step only y) (based : x.Based) :
    (∃ t, Lets only x.scopes t ∧ World.Effects t x.world y.world) ∨
      x.world.Supervises y.world := by
  obtain ⟨⟨lost, sound⟩, proper, -⟩ := based
  have nothing : Lets only x.scopes .own := ⟨fun _ => False.elim, fun _ => False.elim⟩
  cases step with
  | move m member allowed other uses =>
    refine .inl ⟨m.terms, ⟨?_, fun reason aborted => ⟨m, member, aborted⟩⟩,
      World.move_effects sound proper allowed other⟩
    rintro scope ⟨id, carrier, network, address, rfl⟩
    exact uses
  | share scope known =>
    exact .inl ⟨.own, nothing, .one (.scopes _ (Nat.le_succ _) fun _ h => h)⟩
  | supervise next step => exact .inr step
  | turn bus turned => exact .inl ⟨.own, nothing, .traffic (.turn bus turned) rfl⟩
  | tear o ordered id member =>
    exact .inl ⟨.own, nothing, World.tear_effects ordered member⟩

theorem Step.based (step : x.Step only y) (based : x.Based) : y.Based := by
  obtain ⟨⟨lost, sound⟩, proper, named⟩ := id based
  have beside {next : World} (beside : World.Beside x.world next) : ∃ lost, World.Sound lost next :=
    ⟨lost, (beside.passes sound.regular).sound sound⟩
  have kept : y.world.core.Named x.scopes := by
    rcases step.effects based with ⟨t, lets, effects⟩ | supervises
    · exact effects.keeps (fun effect => effect.named lets.hands) named
    · exact supervises.named named
  cases step with
  | move m member allowed other uses =>
    refine ⟨⟨_, World.move_sound_or_lost sound m allowed⟩,
      World.move_proper sound proper allowed, ?_⟩
    rcases m.gives_cases x.world with none | ⟨scopes, scope, given, moved, made, fresh⟩
    · rw [onto, none, List.append_nil]
      exact kept
    · rw [moved, given]
      exact named.give made fresh
  | share scope known =>
    exact ⟨⟨lost, (World.onToken_passes sound.regular scope.token).sound sound⟩,
      ⟨proper.calls, proper.listeners, proper.requests⟩, named.give rfl rfl⟩
  | supervise next step =>
    refine ⟨beside step.beside, step.proper proper, ?_⟩
    rw [onto, List.append_nil]
    exact kept
  | turn bus turned =>
    refine ⟨beside (.of_eq rfl rfl rfl), ⟨proper.calls, proper.listeners, proper.requests⟩, ?_⟩
    rw [onto, List.append_nil]
    exact kept
  | tear o ordered id member =>
    refine ⟨beside (World.tearDown_beside _ _ _),
      (World.tear_effects (t := .own) ordered member).proper proper, ?_⟩
    rw [onto, List.append_nil]
    exact kept

abbrev Run (only : Move → Prop) : Scene → Scene → Prop := Relation.ReflTransGen (Step only)

theorem Run.based (run : Run only x y) (based : x.Based) : y.Based := by
  induction run with
  | refl => exact based
  | tail _ step ih => exact step.based ih

theorem run_supervise (x : Scene) (goesOn : x.world.supervisor.stopping = false) :
    ∃ y, Run only x y ∧ y.world = x.world.supervise ∧ y.scopes = x.scopes := by
  unfold World.supervise
  generalize 2 * x.world.supervisor.queue.length + x.world.supervisor.registry.watches.length + 3 =
    turns
  induction turns generalizing x with
  | zero => exact ⟨x, .refl, rfl, rfl⟩
  | succ turns ih =>
    unfold World.superviseFor
    split
    next next taken =>
      have step := (World.superviseStep?_cases taken).resolve_left (by simp [goesOn]) |>.2
      obtain ⟨y, run, world, scopes⟩ := ih (x.onto next []) step.goesOn
      exact ⟨y, .head (.supervise next step) run, world, scopes.trans (List.append_nil _)⟩
    next => exact ⟨x, .refl, rfl, rfl⟩

-- The scene after a move, in which the supervisor makes one step at a time.
def after (x : Scene) (m : Move) : Scene :=
  if m.isSupervision then x.onto (x.world.superviseStep?.getD x.world) []
  else x.onto (x.world.move m) (m.gives x.world)

def Admits (only : Move → Prop) (x : Scene) (m : Move) : Prop :=
  if m.isSupervision then x.world.supervisor.stopping = false ∧ x.world.superviseStep?.isSome
  else only m ∧ x.world.allows m ∧ m.Uses x.scopes

theorem Admits.step {m : Move} (admits : x.Admits only m) : x.Step only (x.after m) := by
  unfold Admits at admits
  unfold after
  split_ifs at admits ⊢ with supervision
  · obtain ⟨goesOn, ready⟩ := admits
    obtain ⟨next, taken⟩ := Option.isSome_iff_exists.mp ready
    rcases World.superviseStep?_cases taken with ⟨stopping, -⟩ | ⟨-, step⟩
    · rw [goesOn] at stopping
      cases stopping
    · rw [taken]
      exact .supervise next step
  · refine .move m admits.1 admits.2.1 ?_ admits.2.2
    rintro rfl
    exact supervision rfl

def along (x : Scene) : List (World → Move) → Scene
  | [] => x
  | choose :: rest => (x.after (choose x.world)).along rest

def AdmitsAll (only : Move → Prop) (rule : Scene → Scene → Prop) (x : Scene) :
    List (World → Move) → Prop
  | [] => True
  | choose :: rest =>
    x.Admits only (choose x.world) ∧ rule x (x.after (choose x.world)) ∧
      (x.after (choose x.world)).AdmitsAll only rule rest

theorem rule_along {rule : Scene → Scene → Prop} {path : List (World → Move)}
    (admitted : x.AdmitsAll only rule path) :
    Relation.ReflTransGen (fun x y => Step only x y ∧ rule x y) x (x.along path) := by
  induction path generalizing x with
  | nil => exact .refl
  | cons choose rest ih => exact .head ⟨admitted.1.step, admitted.2.1⟩ (ih admitted.2.2)

theorem run_along {path : List (World → Move)}
    (admitted : x.AdmitsAll only (fun _ _ => True) path) : Run only x (x.along path) :=
  Relation.ReflTransGen.mono (fun _ _ => And.left) _ _ (rule_along admitted)

instance [DecidablePred only] (x : Scene) (m : Move) : Decidable (x.Admits only m) :=
  inferInstanceAs (Decidable (if m.isSupervision then _ else _))

instance admitsAllDecidable [DecidablePred only] {rule : Scene → Scene → Prop} [DecidableRel rule]
    (x : Scene) : (path : List (World → Move)) → Decidable (x.AdmitsAll only rule path)
  | [] => .isTrue trivial
  | choose :: rest =>
    have : Decidable ((x.after (choose x.world)).AdmitsAll only rule rest) :=
      admitsAllDecidable _ rest
    inferInstanceAs (Decidable (_ ∧ _ ∧ _))

end Scene

namespace Scenario.Setup

def scene (s : Setup) : Scene := { world := s.build, scopes := [s.build.root] }

theorem scene_based (s : Setup) : s.scene.Based where
  sound := ⟨_, s.build_sound⟩
  proper := s.build_proper
  named := s.build_induct (p := fun c => c.Named [c.root]) (fun initial => initial.named)
    (fun effect named => effect.root ▸ effect.named (fun _ => False.elim) named)
    fun _ named => ⟨named.made, named.apart, named.calls, named.connections⟩

def Plays (s : Setup) (only : Move → Prop) (x : Scene) : Prop := Scene.Run only s.scene x

end Scenario.Setup

end Egress
