import Egress.Proofs.World.Chronicle
import Egress.Proofs.World.TearingDown

set_option autoImplicit false

namespace Egress

open Simulation

def IoFailure.ofTeardown : Option AbortReason → IoFailure
  | some reason => .aborted reason
  | none => .connectionClosed

@[simp]
theorem IoFailure.abortReason?_ofTeardown (reason : Option AbortReason) :
    (IoFailure.ofTeardown reason).abortReason? = reason := by
  cases reason <;> rfl

theorem IoFailure.kind_ofTeardown (reason : Option AbortReason) :
    (IoFailure.ofTeardown reason).kind =
      if reason.isSome then .connectionAborted else .notConnected := by
  cases reason <;> rfl

theorem Connection.gone_eq (c : Connection) : c.gone = .ofTeardown c.reason := by
  unfold gone IoFailure.ofTeardown
  cases c.reason <;> rfl

theorem Connection.surface_unharmed {c : Connection} (unharmed : c.reason = none) {α : Type}
    (result : Io α) : result.mapFailure c.surface = result := by
  cases result <;> simp [Io.mapFailure, surface, unharmed]

namespace World

variable {w next : World} {id : Nat} {c : Connection} {g : Connection → Connection}

theorem replace_alters (found : w.connection? c.id = some c) (same : (g c).id = c.id)
    (replaced : next.connections = w.traffic.replace (g c)) :
    Alters w.connection? c.id g next.connection? := by
  let put (o : Connection) : Connection := if o.id = c.id then g c else o
  have number (o : Connection) : (put o).id = o.id := by
    dsimp only [put]
    split
    next hit => rw [same, hit]
    next => rfl
  intro j
  have mapped : next.connection? j = (w.connection? j).map put := by
    unfold connection?
    rw [replaced, Traffic.replace, same, List.find?_map]
    simp only [Function.comp_def, number, put, traffic]
  rw [mapped]
  by_cases hit : j = c.id
  · simp [hit, found, put]
  · rw [if_neg hit]
    cases there : w.connection? j with
    | none => rfl
    | some o => simp [put, w.find_connection there, hit]

theorem loseStream_alters (w : World) (id : Nat) :
    Alters w.connection? id Connection.dropStream (w.loseStream id).connection? := by
  cases found : w.connection? id with
  | none =>
    have still : w.loseStream id = w := by simp [loseStream, found]
    rw [still]
    exact alters_absent found _
  | some c =>
    obtain rfl := w.find_connection found
    exact replace_alters found rfl (w.loseStream_parts found).1

theorem use_alters {α : Type} (w : World) (id : Nat) (f : Socket → Socket × Io α) :
    Alters w.connection? id Connection.touch (w.useConnection id f).1.connection? := by
  unfold useConnection
  split
  next absent => exact alters_absent absent _
  next c found =>
    obtain rfl := w.find_connection found
    have number : c.touch.id = c.id := by
      unfold Connection.touch
      split <;> rfl
    refine replace_alters found number ?_
    unfold putConnection Traffic.replace
    rw [number]
    dsimp only
    split <;> split <;> rfl

theorem tearDown_alters (w : World) (id : Nat) (reason : Option AbortReason) :
    Alters w.connection? id (fun c => (c.tearDown? reason).getD c)
      (w.tearDown id reason).1.connection? := by
  cases found : w.connection? id with
  | none =>
    rw [w.tearDown_vain (by simp [found])]
    exact alters_absent found _
  | some c =>
    obtain rfl := w.find_connection found
    cases torn? : c.tearDown? reason with
    | none =>
      rw [w.tearDown_vain (by simp [found, torn?])]
      intro j
      by_cases hit : j = c.id
      · simp [hit, found, torn?]
      · rw [if_neg hit]
    | some torn =>
      have replaced := (w.tearDown_parts found torn?).2.1
      obtain ⟨-, rfl⟩ := Connection.tearDown?_eq torn?
      exact replace_alters found (by simp [torn?]) (by rw [replaced, torn?]; rfl)

theorem close_alters (w : World) (id : Nat) (reason : Option AbortReason) :
    Alters w.connection? id (Connection.dropStream ∘ fun c => (c.tearDown? reason).getD c)
      (w.closeConnection id reason).connection? :=
  (w.tearDown_alters id reason).trans (loseStream_alters _ id)

theorem tearDown_took (found : w.connection? id = some c) (reason : Option AbortReason) :
    (w.tearDown id reason).2 = !c.closed := by
  unfold tearDown Connection.tearDown?
  rw [found]
  cases closed : c.closed <;> simp [closed]

theorem use_open (found : w.connection? id = some c) (opened : c.closed = false)
    (unharmed : c.reason = none) (stream : c.hasStream) {α : Type} (f : Socket → Socket × Io α) :
    (w.useConnection id f).2 = (w.network.run c.socket f).2 ∧
      (w.useConnection id f).1.network = (w.network.run c.socket f).1 := by
  have untouched : c.touch = c := by simp [Connection.touch, opened]
  have network : (w.putConnection c c).network = w.network := by simp [putConnection, updateConnection]
  unfold useConnection
  simp only [found, untouched, stream, network, if_true]
  exact ⟨c.surface_unharmed unharmed _, trivial⟩

theorem use_closed (found : w.connection? id = some c) (closed : c.closed) {α : Type}
    (f : Socket → Socket × Io α) :
    w.useConnection id f = (w.putConnection c c.touch, .failed c.gone) := by
  have lost : c.touch.hasStream = false := by simp [Connection.touch, closed, Connection.dropStream]
  unfold useConnection
  simp [found, lost]

end World

def Core.Torn (id : Nat) (reason : Option AbortReason) (c : Core) : Prop :=
  ∃ k ∈ c.traffic.connections, k.id = id ∧ k.closed ∧ k.reason = reason

section Torn

variable {only : Move → Prop} {id : Nat} {reason : Option AbortReason}

theorem Core.Effect.torn {terms : Terms} {c next : Core} (effect : c.Effect terms next)
    (minds : c.Minds) (torn : c.Torn id reason) : next.Torn id reason := by
  obtain ⟨k, member, rfl, closed, rfl⟩ := torn
  cases effect with
  | traffic step =>
    obtain ⟨j, there, same, stays⟩ := step.lasts minds.kept member
    exact ⟨j, there, congrArg Member.id same, stays closed⟩
  | _ => exact ⟨k, member, rfl, closed, rfl⟩

theorem World.Supervises.torn {w next : World} (step : w.Supervises next)
    (torn : w.core.Torn id reason) : next.core.Torn id reason := by
  have connections : next.core.traffic.connections = w.core.traffic.connections := step.leaves.1
  obtain ⟨k, member, torn⟩ := torn
  exact ⟨k, connections ▸ member, torn⟩

theorem Scene.Run.torn {x y : Scene} (run : Scene.Run only x y) (based : x.Based)
    (minds : x.world.core.Minds) (torn : x.world.core.Torn id reason) :
    y.world.core.Torn id reason := by
  induction run with
  | refl => exact torn
  | @tail y z before step ih =>
    have minded : y.world.core.Minds := Scene.Run.minds before based minds
    rcases step.effects (Scene.Run.based before based) with ⟨t, -, effects⟩ | supervises
    · have both : z.world.core.Minds ∧ z.world.core.Torn id reason :=
        effects.keeps (p := fun c => c.Minds ∧ c.Torn id reason)
          (fun effect kept => ⟨effect.minds kept.1, effect.torn kept.1 kept.2⟩) ⟨minded, ih⟩
      exact both.2
    · exact supervises.torn ih

end Torn

-- A connection that has been torn down fails in the same way from then on, whatever is done with
-- the program.
theorem Scenario.Setup.Plays.torn_fails {s : Scenario.Setup} {only : Move → Prop} {x y : Scene}
    (plays : s.Plays only x) (run : Scene.Run only x y) {c : Connection}
    (member : c ∈ x.world.connections) (closed : c.closed) :
    ∃ k, y.world.connection? c.id = some k ∧ k.closed ∧ k.reason = c.reason ∧
      ∀ (α : Type) (f : Socket → Socket × Io α),
        (y.world.useConnection c.id f).2 = .failed (.ofTeardown c.reason) := by
  have based : x.Based := Scene.Run.based plays s.scene_based
  have torn : x.world.core.Torn c.id c.reason := ⟨c, member, rfl, closed, rfl⟩
  obtain ⟨k, there, number, shut, same⟩ := Scene.Run.torn run based plays.minds torn
  have minds : y.world.core.Minds := Scene.Run.minds run based plays.minds
  have found : y.world.connection? c.id = some k := number ▸ minds.kept.find there
  refine ⟨k, found, shut, same, fun α f => ?_⟩
  rw [World.use_closed found shut, k.gone_eq, same]

structure Teardown where
  id : Nat
  reason : Option AbortReason
  took : Bool
  deriving DecidableEq

structure Docket where
  world : World
  calls : List Teardown := []

namespace Docket

variable {x y : Docket} {id : Nat} {c : Connection} {calls : List Teardown}

def callsOn (x : Docket) (id : Nat) : List Teardown := x.calls.filter (·.id = id)

def call (x : Docket) (id : Nat) (reason : Option AbortReason) (next : World) : Docket where
  world := next
  calls := x.calls ++ [{ id, reason, took := (x.world.tearDown id reason).2 }]

-- One operation on a connection: its owner uses it or closes it, or somebody else tears it down.
-- Whatever happens around that leaves the connections alone, or brings new ones.
inductive Step (x : Docket) : Docket → Prop
  | use {α : Type} (id : Nat) (f : Socket → Socket × Io α) :
    Step x { x with world := (x.world.useConnection id f).1 }
  | tearDown (id : Nat) (reason : Option AbortReason) (there : (x.world.connection? id).isSome) :
    Step x (x.call id reason (x.world.tearDown id reason).1)
  | close (id : Nat) (reason : Option AbortReason) (there : (x.world.connection? id).isSome) :
    Step x (x.call id reason (x.world.closeConnection id reason))
  | around (next : World) (more : List Connection)
    (connections : next.connections = x.world.connections ++ more)
    (opened : ∀ c ∈ more, c.closed = false ∧ c.reason = none ∧ c.hasStream) :
    Step x { x with world := next }

abbrev Run : Docket → Docket → Prop := Relation.ReflTransGen Step

-- What has become of a connection that has been called to be torn down so.
def Fate : List Teardown → Connection → Prop
  | [], c => c.closed = false ∧ c.reason = none ∧ c.hasStream
  | first :: rest, c =>
    first.took ∧ (∀ t ∈ rest, t.took = false) ∧ c.closed ∧ c.reason = first.reason

theorem Fate.touch (fate : Fate calls c) : Fate calls c.touch := by
  unfold Connection.touch
  cases calls with
  | nil =>
    rw [if_neg (by simp [fate.1])]
    exact fate
  | cons =>
    split <;> exact fate

theorem Fate.tearDown (fate : Fate calls c) (id : Nat) (reason : Option AbortReason) :
    Fate (calls ++ [{ id, reason, took := !c.closed }]) ((c.tearDown? reason).getD c) := by
  cases calls with
  | nil =>
    obtain ⟨opened, -⟩ := fate
    simp [Fate, Connection.tearDown?, opened]
  | cons first rest =>
    obtain ⟨took, vain, closed, decided⟩ := fate
    have again (t : Teardown) (member : t ∈ rest ++ [{ id, reason, took := !c.closed }]) :
        t.took = false := by
      rcases List.mem_append.mp member with older | newer
      · exact vain t older
      · rw [List.mem_singleton.mp newer, closed]
        rfl
    have still : (c.tearDown? reason).getD c = c := by simp [Connection.tearDown?, closed]
    rw [still]
    exact ⟨took, again, closed, decided⟩

theorem Fate.dropStream (fate : Fate calls c) (called : calls ≠ []) : Fate calls c.dropStream := by
  cases calls with
  | nil => exact absurd rfl called
  | cons => exact fate

structure Sound (x : Docket) : Prop where
  fate : ∀ id c, x.world.connection? id = some c → Fate (x.callsOn id) c
  unknown : ∀ id, x.world.connection? id = none → x.callsOn id = []

theorem callsOn_own (x : Docket) (id : Nat) (reason : Option AbortReason) (next : World) :
    (x.call id reason next).callsOn id =
      x.callsOn id ++ [{ id, reason, took := (x.world.tearDown id reason).2 }] := by
  simp [callsOn, call]

theorem callsOn_other {j : Nat} (other : j ≠ id) (x : Docket) (reason : Option AbortReason)
    (next : World) : (x.call id reason next).callsOn j = x.callsOn j := by
  simp [callsOn, call, Ne.symm other]

theorem Sound.alters {g : Connection → Connection} (sound : x.Sound)
    (alters : Alters x.world.connection? id g y.world.connection?)
    (own : ∀ c, x.world.connection? id = some c → Fate (y.callsOn id) (g c))
    (absent : x.world.connection? id = none → y.callsOn id = [])
    (others : ∀ j, j ≠ id → y.callsOn j = x.callsOn j) : y.Sound := by
  refine ⟨fun j c found => ?_, fun j unknown => ?_⟩
  · rw [alters j] at found
    by_cases hit : j = id
    next =>
      subst hit
      rw [if_pos rfl] at found
      obtain ⟨o, was, rfl⟩ := Option.map_eq_some_iff.mp found
      exact own o was
    next =>
      rw [if_neg hit] at found
      exact others j hit ▸ sound.fate j c found
  · rw [alters j] at unknown
    by_cases hit : j = id
    next =>
      subst hit
      rw [if_pos rfl] at unknown
      exact absent (Option.map_eq_none_iff.mp unknown)
    next =>
      rw [if_neg hit] at unknown
      exact others j hit ▸ sound.unknown j unknown

theorem Sound.call (sound : x.Sound) (reason : Option AbortReason) {next : World}
    {g : Connection → Connection} (there : (x.world.connection? id).isSome)
    (alters : Alters x.world.connection? id g next.connection?)
    (torn : ∀ c calls, Fate calls c →
      Fate (calls ++ [{ id, reason, took := !c.closed }]) (g c)) :
    (x.call id reason next).Sound := by
  refine sound.alters (y := x.call id reason next) alters (fun c found => ?_) (fun absent => ?_)
    fun j other => callsOn_other other x reason next
  · rw [callsOn_own, World.tearDown_took found reason]
    exact torn c _ (sound.fate id c found)
  · rw [absent] at there
    cases there

theorem Step.sound (step : Step x y) (sound : x.Sound) : y.Sound := by
  cases step with
  | use id f =>
    exact sound.alters (x.world.use_alters id f) (fun c found => (sound.fate id c found).touch)
      (sound.unknown id) fun _ _ => rfl
  | tearDown id reason there =>
    exact sound.call reason there (x.world.tearDown_alters id reason) fun c calls fate =>
      fate.tearDown id reason
  | close id reason there =>
    exact sound.call reason there (x.world.close_alters id reason) fun c calls fate =>
      (fate.tearDown id reason).dropStream (by simp)
  | around next more connections opened =>
    have found (j : Nat) :
        next.connection? j = (x.world.connection? j).or (more.find? (·.id = j)) := by
      unfold World.connection?
      rw [connections, List.find?_append]
    refine ⟨fun j c there => ?_, fun j unknown => ?_⟩
    · rw [found j] at there
      cases was : x.world.connection? j with
      | some o =>
        rw [was, Option.some_or] at there
        exact Option.some.inj there ▸ sound.fate j o was
      | none =>
        rw [was, Option.none_or] at there
        have uncalled : x.callsOn j = [] := sound.unknown j was
        have fresh := opened c (List.mem_of_find?_eq_some there)
        show Fate (x.callsOn j) c
        rw [uncalled]
        exact fresh
    · rw [found j, Option.or_eq_none_iff] at unknown
      exact sound.unknown j unknown.1

theorem Run.sound (run : Run x y) (sound : x.Sound) : y.Sound := by
  induction run with
  | refl => exact sound
  | tail _ step ih => exact step.sound ih

theorem Step.grows (step : Step x y) : x.calls <+: y.calls ∧
    ∀ id, (x.world.connection? id).isSome → (y.world.connection? id).isSome := by
  cases step with
  | use id f => exact ⟨List.prefix_refl _, fun _ => (x.world.use_alters id f).stays⟩
  | tearDown id reason =>
    exact ⟨List.prefix_append _ _, fun _ => (x.world.tearDown_alters id reason).stays⟩
  | close id reason =>
    exact ⟨List.prefix_append _ _, fun _ => (x.world.close_alters id reason).stays⟩
  | around next more connections =>
    refine ⟨List.prefix_refl _, fun id there => ?_⟩
    unfold World.connection? at there ⊢
    rw [connections, List.find?_append]
    simp [there]

theorem Run.grows (run : Run x y) : x.calls <+: y.calls ∧
    ∀ id, (x.world.connection? id).isSome → (y.world.connection? id).isSome := by
  induction run with
  | refl => exact ⟨List.prefix_refl _, fun _ there => there⟩
  | tail _ step ih =>
    obtain ⟨calls, stays⟩ := step.grows
    exact ⟨ih.1.trans calls, fun id there => stays id (ih.2 id there)⟩

def Decided (w : World) (id : Nat) (c : Connection) : List Teardown → Prop
  | [] => c.closed = false ∧ c.reason = none ∧ ∀ (α : Type) (f : Socket → Socket × Io α),
    (w.useConnection id f).2 = (w.network.run c.socket f).2 ∧
      (w.useConnection id f).1.network = (w.network.run c.socket f).1
  | first :: rest => first.took ∧ (∀ t ∈ rest, t.took = false) ∧ c.closed ∧ c.reason = first.reason ∧
    (∀ (α : Type) (f : Socket → Socket × Io α),
      w.useConnection id f = (w.putConnection c c.touch, .failed (.ofTeardown first.reason))) ∧
    ∀ reason, w.tearDown id reason = (w, false)

theorem Fate.decided {w : World} (fate : Fate calls c) (found : w.connection? id = some c) :
    Decided w id c calls := by
  cases calls with
  | nil =>
    obtain ⟨opened, unharmed, stream⟩ := fate
    exact ⟨opened, unharmed, fun _ f => World.use_open found opened unharmed stream f⟩
  | cons first rest =>
    obtain ⟨took, vain, closed, decided⟩ := fate
    refine ⟨took, vain, closed, decided, fun _ f => ?_, fun reason => w.tearDown_vain ?_⟩
    · rw [World.use_closed found closed, c.gone_eq, decided]
    · simp [found, Connection.tearDown?, closed]

-- Before the first teardown every use of a connection is one of its socket. Then every use fails,
-- with the reason of that teardown if it had one, and all later teardowns are in vain.
theorem first_teardown_decides {w : World} (begun : w.connections = []) (run : Run ⟨w, []⟩ x)
    (found : x.world.connection? id = some c) :
    Decided x.world id c (x.callsOn id) ∧ ∀ y, Run x y →
      ∃ d, y.world.connection? id = some d ∧ Decided y.world id d (y.callsOn id) ∧
        x.callsOn id <+: y.callsOn id := by
  have unknown : Sound ⟨w, []⟩ :=
    ⟨fun id c found => by simp [World.connection?, begun] at found, fun _ _ => rfl⟩
  have sound := run.sound unknown
  refine ⟨(sound.fate id c found).decided found, fun y later => ?_⟩
  obtain ⟨calls, stays⟩ := later.grows
  obtain ⟨d, there⟩ := Option.isSome_iff_exists.mp (stays id (by simp [found]))
  exact ⟨d, there, ((later.sound sound).fate id d there).decided there, calls.filter _⟩

def linked : Docket := ⟨Scenario.Setup.streaming, []⟩

def aborted : Docket :=
  linked.call 1 (some .netDisconnected) (linked.world.tearDown 1 (some .netDisconnected)).1

def flushed : Docket :=
  { aborted with world := (aborted.world.useConnection 1 fun s => (s, s.flush)).1 }

def abandoned : Docket := flushed.call 1 none (flushed.world.closeConnection 1 none)

theorem first_teardown_decides_abandoned :
    Scenario.Setup.small.build.connections = [] ∧
      abandoned.callsOn 1 = [⟨1, some .netDisconnected, true⟩, ⟨1, none, false⟩] ∧
      ∃ c d, aborted.world.connection? 1 = some c ∧ c.hasStream ∧
        Decided aborted.world 1 c (aborted.callsOn 1) ∧ abandoned.world.connection? 1 = some d ∧
        Decided abandoned.world 1 d (abandoned.callsOn 1) := by
  have begun : Scenario.Setup.small.build.connections = [] := by decide +kernel
  have arrives : Step ⟨Scenario.Setup.small.build, []⟩ linked :=
    .around Scenario.Setup.streaming Scenario.Setup.streaming.connections (by rw [begun]; rfl)
      (by decide +kernel)
  have aborts : Run ⟨Scenario.Setup.small.build, []⟩ aborted :=
    .tail (.tail .refl arrives) (.tearDown 1 _ (by decide +kernel))
  have rest : Run aborted abandoned :=
    .tail (.tail .refl (.use 1 _)) (.close 1 none (by decide +kernel))
  have kept : (aborted.world.connection? 1).map (·.hasStream) = some true := by decide +kernel
  obtain ⟨c, found, stream⟩ := Option.map_eq_some_iff.mp kept
  obtain ⟨decided, later⟩ := first_teardown_decides begun aborts found
  obtain ⟨d, there, still, -⟩ := later abandoned rest
  exact ⟨begun, by decide +kernel, c, d, found, stream, decided, there, still⟩

end Docket

end Egress
