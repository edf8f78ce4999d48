import Egress.Proofs.World.Validating

set_option autoImplicit false

namespace Egress

namespace AddressWatch

theorem tick_seen (a : AddressWatch) (now : Nat) (seen : Option LocalAddresses) :
    (a.tick now seen).2 = seen.any fun addresses => !addresses.same a.known := by
  unfold tick look
  cases seen with
  | none => rfl
  | some addresses =>
    dsimp only
    split
    next same => simp [same]
    next other => simp [other]

theorem tick_known {a : AddressWatch} {now : Nat} {seen : Option LocalAddresses}
    (quiet : (a.tick now seen).2 = false) : (a.tick now seen).1.known = a.known := by
  unfold tick look at *
  cases seen with
  | none => rfl
  | some addresses =>
    dsimp only at *
    split at quiet
    next same => rw [if_pos same]
    next => cases quiet

end AddressWatch

namespace Traffic

variable {view : Supervisor.View} {t next : Traffic}

-- The supervisor has heard of a change and could not see the addresses. The change is counted, and
-- that is all that comes of it.
structure Forgoes (t next : Traffic) : Prop where
  heard : next.bus = (t.bus.receive t.supervisor.inbox).1
  generation : next.supervisor.generation = t.supervisor.generation + 1
  registry : next.supervisor.registry = t.supervisor.registry
  connections : next.connections = t.connections
  fanOuts : next.fanOuts = t.fanOuts

theorem Supervises.forgoes (step : t.Supervises view next) (blind : view.addresses = none)
    (counted : next.supervisor.generation ≠ t.supervisor.generation) : t.Forgoes next := by
  cases step with
  | command c rest => exact absurd (Supervisor.handle_generation _ view c) counted
  | watch x verdict => exact absurd (t.supervisor.watchResolved_generation x verdict) counted
  | news =>
    have orders : (t.supervisor.addressesChanged view).2 = [] := by
      simp only [Supervisor.addressesChanged, Supervisor.revalidate, blind]
    exact ⟨rfl, rfl, rfl, rfl, by rw [orders, List.append_nil]⟩
  | silence => exact absurd rfl counted

theorem Supervises.overlooks (step : t.Supervises view next)
    (overlooks : view.addresses = none ∨ ¬t.Prompts next) {o : FanOut} (ordered : o ∈ next.fanOuts)
    (reason : o.reason = some .netDisconnected) : o ∈ t.fanOuts := by
  refine (step.orders ordered reason).resolve_right fun ⟨addresses, seen, _, _, prompts⟩ => ?_
  rcases overlooks with blind | idle
  · rw [blind] at seen
    cases seen
  · exact idle prompts

end Traffic

namespace World

variable {w : World} {t : WatchTask} {a : AddressWatch}

structure Looks (w : World) (t : WatchTask) (a : AddressWatch) : Prop where
  watch : w.watch = some t
  watching : t.stage = .watching a
  live : w.isCancelled t.scope = false
  due : a.isDue w.clock

theorem Looks.poll (looks : w.Looks t a) :
    w.pollAddressWatch =
      (let next := w.endWatch t (.watching (a.tick w.clock w.localAddresses).1)
       if (a.tick w.clock w.localAddresses).2 then next.raise .addrChanged else next) := by
  obtain ⟨watch, watching, live, due⟩ := looks
  unfold pollAddressWatch
  simp only [watch, watching, live, due, Bool.false_eq_true, if_false, if_true]

theorem Looks.finds (looks : w.Looks t a) {addresses : LocalAddresses}
    (sees : w.localAddresses = some addresses) (other : addresses.same a.known = false) :
    w.pollAddressWatch.bus = w.bus.raise .addrChanged ∧
      w.pollAddressWatch.supervisor = w.supervisor := by
  have changed : (a.tick w.clock w.localAddresses).2 = true := by
    rw [a.tick_seen, sees]
    simp [other]
  rw [looks.poll]
  simp only [changed, if_true]
  exact ⟨rfl, rfl⟩

theorem Looks.quiet (looks : w.Looks t a)
    (same : ∀ addresses, w.localAddresses = some addresses → addresses.same a.known) :
    ∃ next : AddressWatch, next.known = a.known ∧
      w.pollAddressWatch = w.endWatch t (.watching next) := by
  have quiet : (a.tick w.clock w.localAddresses).2 = false := by
    rw [a.tick_seen]
    cases sees : w.localAddresses with
    | none => rfl
    | some addresses => simp [same addresses sees]
  refine ⟨_, AddressWatch.tick_known quiet, ?_⟩
  rw [looks.poll]
  simp only [quiet, Bool.false_eq_true, if_false]

def Within (addresses : LocalAddresses) (w : World) : Prop :=
  ∀ c ∈ w.connections, c.closed = false → ∀ ip ∈ c.localIp, addresses.contains ip

instance (addresses : LocalAddresses) (w : World) : Decidable (w.Within addresses) :=
  inferInstanceAs (Decidable (∀ c ∈ w.connections, _ → _))

end World

namespace Scene

variable (there : World → LocalAddresses)

def BoundIn (x : Scene) : Command → Prop
  | .add m generation => ∀ ip ∈ m.localIp, ∃ u ∈ x.worlds,
    u.core.Connects m.scope generation ∧ (there u).contains ip
  | .remove _ => True

-- A connect binds an address that is there at the time, be it to be seen then or not.
def BindsIn (x y : Scene) : Prop :=
  ∀ c ∈ y.world.supervisor.queue, c ∉ x.world.supervisor.queue → x.BoundIn there c

instance (x : Scene) (c : Command) : Decidable (x.BoundIn there c) :=
  match c with
  | .add m _ => inferInstanceAs (Decidable (∀ ip ∈ m.localIp, ∃ u ∈ x.worlds, _ ∧ _))
  | .remove _ => .isTrue trivial

instance (x y : Scene) : Decidable (x.BindsIn there y) :=
  inferInstanceAs (Decidable (∀ c ∈ _, _ → _))

-- The addresses stay as they are, and the supervisor sees them whenever it moves.
def Rests (only : Move → Prop) (addresses : LocalAddresses) : Scene → Scene → Prop :=
  Relation.ReflTransGen fun x y => Step only x y ∧ x.BindsIn there y ∧
    there y.world = addresses ∧
    (x.world.Supervises y.world → x.world.localAddresses = some addresses)

variable {there} {only : Move → Prop} {addresses : LocalAddresses} {x : Scene}

-- Whenever the supervisor moves, it cannot see the addresses or has no cause to look for them.
def Passes (only : Move → Prop) : Scene → Scene → Prop :=
  Relation.ReflTransGen fun x y => Step only x y ∧
    (x.world.Supervises y.world →
      x.world.localAddresses = none ∨ ¬x.world.traffic.Prompts y.world.traffic)

theorem rests_along {path : List (World → Move)}
    (admitted : x.AdmitsAll only (fun x y => x.BindsIn there y ∧ there y.world = addresses ∧
      x.world.localAddresses = some addresses) path) :
    Rests there only addresses x (x.along path) :=
  Relation.ReflTransGen.mono
    (fun _ _ ⟨step, binds, now, sees⟩ => ⟨step, binds, now, fun _ => sees⟩) _ _
    (rule_along admitted)

end Scene

namespace Scenario.Setup

variable {s : Setup} {only : Move → Prop} {there : World → LocalAddresses} {x : Scene}

def Abides (s : Setup) (only : Move → Prop) (there : World → LocalAddresses) : Scene → Prop :=
  Relation.ReflTransGen (fun x y => Scene.Step only x y ∧ x.BindsIn there y) s.scene

theorem Abides.plays (abides : s.Abides only there x) : s.Plays only x :=
  Relation.ReflTransGen.mono (fun _ _ => And.left) _ _ abides

theorem Abides.dated (abides : s.Abides only there x) : x.Dated fun u => some (there u) := by
  induction abides with
  | refl => exact s.scene_dated _
  | tail before step ih =>
    have based := Scene.Run.based (Abides.plays before) s.scene_based
    refine step.1.dated based (fun m g new fresh ip has => ?_) ih
    obtain ⟨u, member, connects, here⟩ := step.2 _ new fresh ip has
    exact ⟨u, member, connects, there u, rfl, here⟩

theorem Abides.rests (abides : s.Abides only there x) {addresses : LocalAddresses} {y : Scene}
    (rests : Scene.Rests there only addresses x y) : s.Abides only there y :=
  Relation.ReflTransGen.trans abides
    (Relation.ReflTransGen.mono (fun _ _ step => ⟨step.1, step.2.1⟩) _ _ rests)

theorem Abides.answered (abides : s.Abides only there x) {addresses : LocalAddresses}
    (owed : x.Owed) {y : Scene} (rests : Scene.Rests there only addresses x y)
    (opened : y.world.bus.closed = false) :
    y.Owed ∨ y.Checked (fun u => some (there u)) addresses := by
  induction rests with
  | refl => exact .inl owed
  | tail earlier step ih =>
    obtain ⟨step, -, now, sees⟩ := step
    have abides := abides.rests earlier
    have based := Scene.Run.based abides.plays s.scene_based
    exact step.answered (congrArg some now) based abides.plays.minds abides.dated sees opened
      (ih (step.opened based abides.dated opened))

-- What the supervisor has not answered by now it does not answer later, until it has new cause to.
theorem Abides.passes (abides : s.Abides only there x) {y : Scene} (passes : Scene.Passes only x y)
    {o : FanOut} (ordered : o ∈ y.world.fanOuts) (reason : o.reason = some .netDisconnected) :
    o ∈ x.world.fanOuts := by
  have based := Scene.Run.based abides.plays s.scene_based
  suffices y.Based ∧ (o ∈ y.world.fanOuts → o ∈ x.world.fanOuts) from this.2 ordered
  clear ordered
  induction passes with
  | refl => exact ⟨based, id⟩
  | tail earlier step ih =>
    obtain ⟨step, passive⟩ := step
    obtain ⟨based, before⟩ := ih
    refine ⟨step.based based, fun ordered => before ?_⟩
    rcases step.effects based with ⟨t, -, effects⟩ | supervises
    · obtain ⟨fanOuts, -⟩ := effects.rest
      exact fanOuts ▸ ordered
    · exact supervises.traffic.1.overlooks (passive supervises) ordered reason

theorem Abides.within (abides : s.Abides only there x) {addresses : LocalAddresses}
    (owed : x.Owed) {y : Scene} (rests : Scene.Rests there only addresses x y)
    (opened : y.world.bus.closed = false) (settled : y.world.Settled) :
    y.world.Within addresses := by
  intro c member live ip has
  have later := abides.rests rests
  exact Scene.open_address later.plays.minds later.dated settled opened
    (abides.answered owed rests opened) (World.mem_openConnections.mpr ⟨member, live⟩) has

end Scenario.Setup

-- What can be relied on when looking for the addresses may fail. From here on the addresses are to
-- stay, and the supervisor is to see them. If it is still to hear of a change then, or the watch is
-- about to find other addresses than it knows, no connection is left open on an address that is not
-- there. If the watch finds what it knows, or nothing, it reports nothing. A change that the
-- supervisor hears of while it cannot see the addresses is lost on it: it aborts nothing for want
-- of its address until it hears of a further change, or of a connection that began before the last
-- one, and can see.
structure Scene.Notices (there : World → LocalAddresses) (only : Move → Prop) (x : Scene) :
    Prop where
  owed : x.Owed → ∀ addresses y, Rests there only addresses x y → y.world.bus.closed = false →
    y.world.Settled → y.world.Within addresses
  reported : ∀ t a addresses, x.world.Looks t a → x.world.localAddresses = some addresses →
    addresses.same a.known = false → ∀ y z, Step only x y →
      y.world = x.world.poll .addressWatch → Rests there only addresses y z →
        z.world.bus.closed = false → z.world.Settled → z.world.Within addresses
  quiet : ∀ t a, x.world.Looks t a →
    (∀ addresses, x.world.localAddresses = some addresses → addresses.same a.known) →
      ∃ next : AddressWatch, next.known = a.known ∧
        x.world.poll .addressWatch = x.world.endWatch t (.watching next)
  forgone : x.world.localAddresses = none → ∀ next, x.world.Supervises next →
    next.supervisor.generation ≠ x.world.supervisor.generation →
      x.world.traffic.Forgoes next.traffic
  unanswered : ∀ y, Passes only x y → ∀ o ∈ y.world.fanOuts,
    o.reason = some .netDisconnected → o ∈ x.world.fanOuts

namespace Scenario.Setup

theorem Abides.notices {s : Setup} {only : Move → Prop} {there : World → LocalAddresses} {x : Scene}
    (abides : s.Abides only there x) : x.Notices there only := by
  refine ⟨fun owed addresses y rests => abides.within owed rests,
    fun t a addresses looks sees other y z step polled rests => ?_, fun t a looks => looks.quiet,
    fun blind next step counted => step.traffic.1.forgoes blind counted,
    fun y passes o ordered reason => abides.passes passes ordered reason⟩
  obtain ⟨bus, supervisor⟩ := looks.finds sees other
  have binds : x.BindsIn there y := by
    intro c new fresh
    rw [polled] at new
    exact absurd (supervisor ▸ new) fresh
  have owed : y.Owed := by
    rw [Scene.Owed, polled]
    exact bus ▸ Event.Bus.owes_raise _ _ _
  exact Abides.within (Relation.ReflTransGen.tail abides ⟨step, binds⟩) owed rests

def roving : Setup := { roaming with runtime := some {} }

def bound : Scene :=
  roving.scene.along
    [fun _ => .poll .addressWatch,
      fun w => .dial "e" (.via .manager false) "tcp" "10.0.0.1:22" w.root,
      fun _ => .poll (.call "e"),
      fun w => .kernel (w.network.grant?.getD w.network),
      fun _ => .poll (.call "e"),
      fun _ => .poll .supervisor]

-- The second address goes while the watch cannot look. Later it can.
def blinded : Scene :=
  bound.along
    [fun _ => .addresses (.ofList [.loopback]) true,
      fun _ => .clock 5000000000,
      fun _ => .poll .addressWatch,
      fun _ => .addresses (.ofList [.loopback]) false,
      fun _ => .clock 5000000000]

def noticed : Scene :=
  (blinded.after (.poll .addressWatch)).along
    [fun _ => .poll .dispatcher,
      fun _ => .poll .supervisor,
      fun _ => .poll (.fanOut 0),
      fun _ => .poll .dispatcher,
      fun _ => .poll .supervisor,
      fun _ => .poll .supervisor]

theorem notices_late :
    (∃ c ∈ blinded.world.connections, c.closed = false) ∧
      noticed.world.Within (.ofList [.loopback]) := by
  have before : roving.Abides Move.Driven World.addresses blinded :=
    Relation.ReflTransGen.trans (b := bound) (Scene.rule_along (by decide +kernel))
      (Scene.rule_along (by decide +kernel))
  let a : AddressWatch :=
    { every := 5000000000, known := .ofList [.loopback, .v4 0x0a000002#32], next := 10000000000 }
  obtain ⟨t, watch⟩ := Option.isSome_iff_exists.mp
    (by decide +kernel : blinded.world.watch.isSome)
  have facts : blinded.world.watch.all fun t =>
      t.stage = .watching a && !blinded.world.isCancelled t.scope := by decide +kernel
  simp only [watch, Option.all_some, Bool.and_eq_true, decide_eq_true_eq,
    Bool.not_eq_true'] at facts
  have looks : blinded.world.Looks t a := ⟨watch, facts.1, facts.2, by decide +kernel⟩
  have admits : blinded.Admits Move.Driven (.poll .addressWatch) := by decide +kernel
  refine ⟨by decide +kernel, ?_⟩
  exact before.notices.reported t a _ looks (by decide +kernel) (by decide +kernel) _ noticed
    admits.step rfl (Scene.rests_along (by decide +kernel)) (by decide +kernel) (by decide +kernel)

-- The second address comes while the watch cannot look, and goes before it can.
def unseen : Scene :=
  ({ roving with addresses := [.loopback] } : Setup).scene.along
    [fun _ => .poll .addressWatch,
      fun _ => .addresses (.ofList [.loopback, .v4 0x0a000002#32]) true,
      fun w => .dial "e" (.via .manager false) "tcp" "10.0.0.1:22" w.root,
      fun _ => .poll (.call "e"),
      fun w => .kernel (w.network.grant?.getD w.network),
      fun _ => .poll (.call "e"),
      fun _ => .poll .supervisor,
      fun _ => .clock 5000000000,
      fun _ => .poll .addressWatch,
      fun _ => .addresses (.ofList [.loopback]) false,
      fun _ => .clock 5000000000]

-- The watch sees that the second address has gone. The supervisor cannot see when it hears of it.
def unheeded : Scene :=
  bound.along
    [fun _ => .addresses (.ofList [.loopback]) false,
      fun _ => .clock 5000000000,
      fun _ => .poll .addressWatch,
      fun _ => .poll .dispatcher,
      fun _ => .addresses (.ofList [.loopback]) true,
      fun _ => .poll .supervisor,
      fun _ => .poll .dispatcher,
      fun _ => .addresses (.ofList [.loopback]) false,
      fun _ => .clock 5000000000]

structure Stale (s : Setup) (x z : Scene) (seen addresses : LocalAddresses) : Prop where
  abides : s.Abides Move.Driven World.addresses x
  first : ∃ first ∈ x.past, first.connections = [] ∧ first.calls = [] ∧
    first.watch.any fun t =>
      t.stage = .watching { every := 5000000000, known := seen, next := 5000000000 }
  looks : x.Admits Move.Driven (.poll .addressWatch)
  sees : x.world.localAddresses = some addresses
  rests : Scene.Rests World.addresses Move.Driven addresses (x.after (.poll .addressWatch)) z
  opened : z.world.bus.closed = false
  settled : z.world.Settled
  stale : ¬z.world.Within addresses

-- Two ways in which an address is missed: the watch never sees it, or the supervisor cannot see
-- that it has gone when the watch reports it.
theorem missed_address_stays_bound :
    Stale { roving with addresses := [.loopback] } unseen
        ((unseen.after (.poll .addressWatch)).along [fun _ => .poll .dispatcher])
        (.ofList [.loopback]) (.ofList [.loopback]) ∧
      Stale roving unheeded (unheeded.after (.poll .addressWatch))
        (.ofList [.loopback, .v4 0x0a000002#32]) (.ofList [.loopback]) := by
  refine ⟨⟨Scene.rule_along (by decide +kernel), by decide +kernel, by decide +kernel,
    by decide +kernel, Scene.rests_along (by decide +kernel), by decide +kernel,
    by decide +kernel, by decide +kernel⟩, ⟨?_, by decide +kernel, by decide +kernel,
    by decide +kernel, .refl, by decide +kernel, by decide +kernel, by decide +kernel⟩⟩
  exact Relation.ReflTransGen.trans (b := bound) (Scene.rule_along (by decide +kernel))
    (Scene.rule_along (by decide +kernel))

end Scenario.Setup

end Egress
