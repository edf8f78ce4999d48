import Egress.Proofs.World.Dating

set_option autoImplicit false

namespace Egress

namespace Supervisor

variable {s : Supervisor} {view : View} {addresses : LocalAddresses}

theorem revalidate_finds (sound : s.registry.Sound) (sees : view.addresses = some addresses)
    {m : Member} (registered : m ∈ s.registry.members) {ip : Ip} (has : m.localIp = some ip)
    (gone : addresses.contains ip = false) :
    ∃ o ∈ s.revalidate view, o.reason = some .netDisconnected ∧ m.id ∈ o.ids := by
  have stranded : m.id ∈ s.registry.stranded addresses :=
    (Registry.mem_stranded sound addresses m.id).mpr ⟨m, registered, rfl, ip, has, gone⟩
  refine ⟨⟨s.registry.stranded addresses, some .netDisconnected⟩, ?_, rfl, stranded⟩
  rw [revalidate, sees]
  exact mem_order.mpr ⟨List.ne_nil_of_mem stranded, rfl⟩

end Supervisor

namespace Traffic

def Checked (addresses : LocalAddresses) (t : Traffic) : Prop :=
  ∀ m ∈ t.supervisor.registry.members, ∀ ip ∈ m.localIp, addresses.contains ip = false →
    ∃ o ∈ t.fanOuts, o.reason = some .netDisconnected ∧ m.id ∈ o.ids

variable {view : Supervisor.View} {addresses : LocalAddresses} {t next : Traffic}

theorem Checked.worked (checked : t.Checked addresses) {orders : List FanOut}
    (fanOuts : next.fanOuts = t.fanOuts ++ orders)
    (members : ∀ m ∈ next.supervisor.registry.members, ∀ ip ∈ m.localIp,
      addresses.contains ip = false → m ∈ t.supervisor.registry.members ∨
        ∃ o ∈ orders, o.reason = some .netDisconnected ∧ m.id ∈ o.ids) :
    next.Checked addresses := by
  intro m there ip has gone
  rw [fanOuts]
  rcases members m there ip has gone with old | ⟨o, new, rest⟩
  · obtain ⟨o, was, rest⟩ := checked m old ip has gone
    exact ⟨o, List.mem_append_left _ was, rest⟩
  · exact ⟨o, List.mem_append_right _ new, rest⟩

-- Once checked, always checked: an addition from an older generation is checked at once, and one
-- from the present generation has an address that is there.
theorem Supervises.checked (step : t.Supervises view next) (kept : t.Kept)
    (sees : view.addresses = some addresses)
    (present : ∀ m, .add m t.supervisor.generation ∈ t.supervisor.queue →
      ∀ ip ∈ m.localIp, addresses.contains ip)
    (checked : t.Checked addresses) : next.Checked addresses := by
  cases step with
  | command c rest queued =>
    cases c with
    | add m generation =>
      rcases Supervisor.handle_add { t.supervisor with queue := rest } view m generation with
        ⟨-, result⟩ | ⟨r, -, added, result⟩ <;> rw [result]
      · exact checked.worked rfl fun m old _ _ _ => .inl old
      · refine checked.worked rfl fun o there ip has gone => ?_
        rcases List.mem_append.mp (Registry.add?_members added ▸ there) with old | new
        · exact .inl old
        · obtain rfl := List.mem_singleton.mp new
          dsimp only
          split
          next same =>
            have here := present o (same ▸ queued ▸ List.mem_cons_self) ip has
            rw [gone] at here
            cases here
          next =>
            exact .inr (Supervisor.revalidate_finds (kept.sound.add added) sees there has gone)
    | remove id =>
      refine checked.worked rfl fun m there _ _ _ => .inl ?_
      exact List.mem_of_mem_filter (Registry.remove_members id ▸ there)
  | watch x verdict =>
    refine checked.worked rfl fun m there _ _ _ => .inl ?_
    cases verdict with
    | true => exact (Registry.scopeDone_rest x.number x.scope.id).1 ▸ there
    | false => exact there
  | news => exact checked.worked rfl fun m old _ _ _ => .inl old
  | silence => exact checked.worked (List.append_nil _).symm fun m old _ _ _ => .inl old

theorem Supervises.hears_or (step : t.Supervises view next) (kept : t.Kept) (hears : t.Hears)
    (opened : t.bus.closed = false) (sees : view.addresses = some addresses) :
    (next.bus = t.bus ∧ next.supervisor.inbox = t.supervisor.inbox ∧
      next.supervisor.generation = t.supervisor.generation) ∨
      next.supervisor.generation = t.supervisor.generation + 1 ∧ next.Checked addresses := by
  cases step with
  | command c rest =>
    exact .inl ⟨rfl, (Supervisor.handle_keeps { t.supervisor with queue := rest } view c).inbox,
      Supervisor.handle_generation { t.supervisor with queue := rest } view c⟩
  | watch x verdict =>
    exact .inl ⟨rfl, (t.supervisor.watchResolved_keeps x verdict).inbox,
      t.supervisor.watchResolved_generation x verdict⟩
  | news =>
    refine .inr ⟨rfl, fun m registered ip has gone => ?_⟩
    obtain ⟨o, ordered, rest⟩ := Supervisor.revalidate_finds
      (s := (t.supervisor.addressesChanged view).1) kept.sound sees registered has gone
    exact ⟨o, List.mem_append_right _ ordered, rest⟩
  | silence closed => exact absurd closed (hears.serves.receive_goes_on opened)

end Traffic

namespace World

variable {t : Terms} {w next : World}

theorem Effects.rest (effects : Effects t w next) :
    next.fanOuts = w.fanOuts ∧ next.supervisor.registry = w.supervisor.registry := by
  refine effects.keeps (p := fun c => c.traffic.fanOuts = w.fanOuts ∧
    c.traffic.supervisor.registry = w.supervisor.registry) (fun {c next} effect same => ?_) ⟨rfl, rfl⟩
  cases effect with
  | traffic step => exact ⟨step.rest.1.trans same.1, step.rest.2.trans same.2⟩
  | _ => exact same

theorem Effects.onward (effects : Effects t w next) (k : Event.Kind) :
    next.supervisor.inbox = w.supervisor.inbox ∧
      Event.Bus.Onward w.supervisor.inbox k w.bus next.bus := by
  refine effects.keeps (p := fun c => c.traffic.supervisor.inbox = w.supervisor.inbox ∧
    Event.Bus.Onward w.supervisor.inbox k w.bus c.traffic.bus) (fun {c next} effect same => ?_)
    ⟨rfl, .refl _⟩
  cases effect with
  | traffic step =>
    obtain ⟨inbox, onward⟩ := step.onward k
    exact ⟨inbox.trans same.1, same.2.trans (same.1 ▸ onward)⟩
  | _ => exact same

end World

namespace Scene

variable {only : Move → Prop} {there : World → Option LocalAddresses} {addresses : LocalAddresses}
  {x y : Scene}

def Owed (x : Scene) : Prop := x.world.bus.Owes x.world.supervisor.inbox .addrChanged

-- The supervisor knows of these addresses, and there have been no others since it does.
structure Checked (there : World → Option LocalAddresses) (addresses : LocalAddresses)
    (x : Scene) : Prop where
  present : ∀ u ∈ x.worlds, u.supervisor.generation = x.world.supervisor.generation →
    there u = some addresses
  checked : x.world.traffic.Checked addresses

theorem Step.opened (step : x.Step only y) (based : x.Based) (dated : x.Dated there)
    (opened : y.world.bus.closed = false) : x.world.bus.closed = false := by
  rcases step.effects based with ⟨t, -, effects⟩ | supervises
  · exact (effects.onward .addrChanged).2.opened opened
  · exact (supervises.traffic.1.hears dated.hears).2 ▸ opened

section Answers

variable (step : x.Step only y) (now : there y.world = some addresses)

include step now

theorem Checked.still_present (checked : x.Checked there addresses)
    (generation : y.world.supervisor.generation = x.world.supervisor.generation) :
    ∀ u ∈ y.worlds, u.supervisor.generation = y.world.supervisor.generation →
      there u = some addresses := by
  intro u member same
  rcases step.mem_worlds.mp member with old | rfl
  · exact checked.present u old (same.trans generation)
  · exact now

theorem Step.answered_effects {t : Terms} (effects : World.Effects t x.world y.world)
    (dated : x.Dated there) (opened : y.world.bus.closed = false)
    (answered : x.Owed ∨ x.Checked there addresses) : y.Owed ∨ y.Checked there addresses := by
  obtain ⟨inbox, onward⟩ := effects.onward .addrChanged
  obtain ⟨fanOuts, registry⟩ := effects.rest
  refine answered.imp (fun owed => ?_) fun checked =>
    ⟨checked.still_present step now effects.generation, fun m registered ip has gone => ?_⟩
  · rw [Owed, inbox]
    exact onward.owes dated.hears.serves opened owed
  · have registered : m ∈ y.world.supervisor.registry.members := registered
    rw [registry] at registered
    obtain ⟨o, ordered, rest⟩ := checked.checked m registered ip has gone
    have ordered : o ∈ x.world.fanOuts := ordered
    rw [← fanOuts] at ordered
    exact ⟨o, ordered, rest⟩

-- The supervisor hears of the change, or goes on. A connection that it hears of now began in an
-- older generation, or has bound one of these addresses.
theorem Step.answered_supervises (supervises : x.world.Supervises y.world)
    (minds : x.world.core.Minds) (dated : x.Dated there)
    (sees : x.world.localAddresses = some addresses) (opened : x.world.bus.closed = false)
    (answered : x.Owed ∨ x.Checked there addresses) : y.Owed ∨ y.Checked there addresses := by
  have supervises := supervises.traffic.1
  rcases supervises.hears_or minds.kept dated.hears opened sees with
    ⟨bus, inbox, generation⟩ | ⟨generation, checked⟩
  · refine answered.imp (fun owed => ?_) fun checked =>
      ⟨checked.still_present step now generation,
        supervises.checked minds.kept sees (fun m queued ip has => ?_) checked.checked⟩
    · have bus : y.world.bus = x.world.bus := bus
      have inbox : y.world.supervisor.inbox = x.world.supervisor.inbox := inbox
      rwa [Owed, bus, inbox]
    · obtain ⟨u, member, began, known, found, contained⟩ := dated.bound m _ queued ip has
      have same := Nat.le_antisymm (dated.grown u member) began
      rw [checked.present u member same] at found
      cases found
      exact contained
  · refine .inr ⟨fun u member same => ?_, checked⟩
    rcases step.mem_worlds.mp member with old | rfl
    · have older := dated.grown u old
      have later : y.world.supervisor.generation = x.world.supervisor.generation + 1 := generation
      omega
    · exact now

theorem Step.answered (based : x.Based) (minds : x.world.core.Minds) (dated : x.Dated there)
    (sees : x.world.Supervises y.world → x.world.localAddresses = some addresses)
    (opened : y.world.bus.closed = false)
    (answered : x.Owed ∨ x.Checked there addresses) : y.Owed ∨ y.Checked there addresses := by
  rcases step.effects based with ⟨t, -, effects⟩ | supervises
  · exact step.answered_effects now effects dated opened answered
  · exact step.answered_supervises now supervises minds dated (sees supervises)
      (step.opened based dated opened) answered

end Answers

-- Once nothing moves any more, what is open has an address that is there: had the supervisor still
-- to hear of a change, it would move.
theorem open_address (minds : x.world.core.Minds) (dated : x.Dated there)
    (settled : x.world.Settled) (opened : x.world.bus.closed = false)
    (answered : x.Owed ∨ x.Checked there addresses)
    {c : Connection} (live : c ∈ x.world.openConnections) {ip : Ip} (has : c.localIp = some ip) :
    addresses.contains ip := by
  have serves := dated.hears.serves
  have deaf : x.world.hasNews = false := (settled.supervisor_idle minds.kept.running).2.2.2
  rcases answered with owed | ⟨-, checked⟩
  · have idle : x.world.bus.canTurn = false := by
      cases alive : x.world.isAlive .dispatcher with
      | true => exact settled.idle .dispatcher alive
      | false =>
        have stopped : x.world.bus.stopped := by simpa [World.isAlive] using alive
        simp [Event.Bus.canTurn, stopped]
    obtain ⟨kind, heard⟩ := serves.delivered opened idle owed
    have heard : (x.world.bus.receive x.world.supervisor.inbox).2 = .kind kind := heard
    have listens : x.world.supervisor.busOpen := dated.hears.listens opened
    simp [World.hasNews, listens, heard] at deaf
  · by_contra gone
    have registered := (World.mem_members minds settled c.member).mpr ⟨c, live, rfl⟩
    obtain ⟨o, ordered, -, inside⟩ := checked c.member registered ip has (by simpa using gone)
    exact World.not_ordered minds settled live ordered inside

end Scene

namespace World

-- The supervisor looks for the local addresses, and this connection, which is registered by then,
-- is bound to one that is not there.
structure Strands (u v : World) (m : Member) : Prop where
  step : u.Supervises v
  registered : m ∈ v.supervisor.registry.members
  absent : ∃ addresses ∈ u.localAddresses,
    v.fanOuts =
      u.fanOuts ++ [⟨v.supervisor.registry.stranded addresses, some .netDisconnected⟩] ∧
    ∃ ip ∈ m.localIp, addresses.contains ip = false

end World

namespace Traffic

structure Fair (stranded : Member → Prop) (owners : Prop) (t : Traffic) : Prop where
  ordered : ∀ o ∈ t.fanOuts, o.reason = some .netDisconnected → ∀ id ∈ o.ids,
    ∃ c ∈ t.connections, c.id = id ∧ stranded c.member
  aborted : ∀ c ∈ t.connections, c.reason = some .netDisconnected → stranded c.member ∨ owners

variable {aborts : AbortReason → Prop} {asked : Scope → Nat → Prop} {view : Supervisor.View}
  {t next : Traffic} {stranded : Member → Prop} {owners : Prop}

theorem Fair.mono (fair : t.Fair stranded owners) {later : Member → Prop} {others : Prop}
    (still : ∀ m, stranded m → later m) (more : owners → others) : t.Fair later others where
  ordered o there reason id inside := by
    obtain ⟨c, member, number, seen⟩ := fair.ordered o there reason id inside
    exact ⟨c, member, number, still _ seen⟩
  aborted c member reason := (fair.aborted c member reason).imp (still _) more

theorem Step.fair (step : t.Step aborts asked next) (kept : t.Kept)
    (own : aborts .netDisconnected → owners) (fair : t.Fair stranded owners) :
    next.Fair stranded owners := by
  refine ⟨fun o there reason id inside => ?_, fun k there reason => ?_⟩
  · obtain ⟨c, was, rfl, seen⟩ := fair.ordered o (step.rest.1 ▸ there) reason id inside
    obtain ⟨k, now, same, -⟩ := step.lasts kept was
    exact ⟨k, now, congrArg Member.id same, same ▸ seen⟩
  · cases step with
    | establish c generation fresh opened unharmed =>
      rcases List.mem_append.mp there with old | new
      · exact fair.aborted k old reason
      · obtain rfl := List.mem_singleton.mp new
        rw [unharmed] at reason
        cases reason
    | use c changed found same =>
      rcases mem_replace there with old | rfl
      · exact fair.aborted k old reason
      · have before := fair.aborted c (List.mem_of_find?_eq_some found)
        rcases same with rfl | rfl
        · exact before reason
        · exact before reason
    | tearDown c torn why found torn? warranted =>
      rcases mem_replace there with old | rfl
      · exact fair.aborted k old reason
      · obtain ⟨-, rfl⟩ := Connection.tearDown?_eq torn?
        refine (warranted _ reason).symm.imp (fun ⟨o, ordered, same, inside⟩ => ?_) own
        obtain ⟨k, was, number, seen⟩ := fair.ordered o ordered same c.id inside
        exact eq_of_key kept.numbers was (List.mem_of_find?_eq_some found) number ▸ seen
    | _ => exact fair.aborted k there reason

-- The supervisor has cause to look for the addresses: it hears of a change, or of a connection that
-- began before the last one.
def Prompts (t next : Traffic) : Prop :=
  next.supervisor.generation = t.supervisor.generation + 1 ∨
    ∃ m generation rest, t.supervisor.queue = .add m generation :: rest ∧
      generation ≠ t.supervisor.generation

theorem Supervises.orders (step : t.Supervises view next) {o : FanOut} (ordered : o ∈ next.fanOuts)
    (reason : o.reason = some .netDisconnected) : o ∈ t.fanOuts ∨
      ∃ addresses ∈ view.addresses,
        o = ⟨next.supervisor.registry.stranded addresses, some .netDisconnected⟩ ∧
        next.fanOuts = t.fanOuts ++ [o] ∧ t.Prompts next := by
  have looked {s : Supervisor} {orders : List FanOut} (all : orders = s.revalidate view)
      (registry : next.supervisor.registry = s.registry)
      (fanOuts : next.fanOuts = t.fanOuts ++ orders) (prompts : t.Prompts next) :
      o ∈ t.fanOuts ∨
        ∃ addresses ∈ view.addresses,
          o = ⟨next.supervisor.registry.stranded addresses, some .netDisconnected⟩ ∧
          next.fanOuts = t.fanOuts ++ [o] ∧ t.Prompts next := by
    rw [fanOuts] at ordered
    refine (List.mem_append.mp ordered).imp id fun new => ?_
    obtain ⟨addresses, seen, same, only⟩ := Supervisor.revalidate_eq (all ▸ new)
    exact ⟨addresses, seen, registry ▸ same, by rw [fanOuts, all, only], prompts⟩
  have quiet {orders : List FanOut} (others : ∀ o ∈ orders, o.reason = none)
      (there : o ∈ t.fanOuts ++ orders) : o ∈ t.fanOuts := by
    refine (List.mem_append.mp there).resolve_right fun new => ?_
    rw [others o new] at reason
    cases reason
  cases step with
  | command c rest queued =>
    cases c with
    | add m generation =>
      rcases Supervisor.handle_add { t.supervisor with queue := rest } view m generation with
        ⟨-, result⟩ | ⟨r, -, -, result⟩
      · have orders := congrArg Prod.snd result
        exact .inl (quiet (fun _ there => (List.not_mem_nil (orders ▸ there)).elim) ordered)
      · have orders := congrArg Prod.snd result
        by_cases same : generation = t.supervisor.generation
        · have orders := orders.trans (if_pos same)
          exact .inl (quiet (fun _ there => (List.not_mem_nil (orders ▸ there)).elim) ordered)
        · exact looked (orders.trans (if_neg same)) (congrArg (·.1.registry) result) rfl
            (.inr ⟨m, generation, rest, queued, same⟩)
    | remove id => exact .inl (quiet (by simp [Supervisor.handle]) ordered)
  | watch x verdict =>
    refine .inl (quiet (fun o there => ?_) ordered)
    cases verdict with
    | true => rw [(Supervisor.mem_order.mp there).2]
    | false => cases there
  | news => exact looked rfl rfl rfl (.inl rfl)
  | silence => exact .inl ordered

end Traffic

theorem Core.Initial.fair {c : Core} (initial : c.Initial) :
    c.traffic.Fair (fun _ => False) False := by
  obtain ⟨bus, inbox, requests, traffic, -⟩ := initial.traffic
  rw [traffic]
  constructor <;> simp

theorem Core.Effect.fair {t : Terms} {c next : Core} {stranded : Member → Prop} {owners : Prop}
    (effect : c.Effect t next) (minds : c.Minds) (own : t.aborts .netDisconnected → owners)
    (fair : c.traffic.Fair stranded owners) : next.traffic.Fair stranded owners := by
  cases effect with
  | traffic step => exact step.fair minds.kept own fair
  | _ => exact fair

namespace World

variable {w next : World}

theorem Supervises.fair (step : w.Supervises next) (minds : next.core.Minds)
    {stranded later : Member → Prop} {owners : Prop} (fair : w.traffic.Fair stranded owners)
    (still : ∀ m, stranded m → later m) (strands : ∀ m, w.Strands next m → later m) :
    next.traffic.Fair later owners := by
  have supervises := step.traffic.1
  have connections : next.traffic.connections = w.traffic.connections := by
    generalize next.traffic = t at supervises
    cases supervises <;> rfl
  refine ⟨fun o there reason id inside => ?_, fun c member reason => ?_⟩
  · rcases supervises.orders there reason with old | ⟨addresses, seen, rfl, fanOuts, -⟩
    · obtain ⟨c, member, number, seen⟩ := fair.ordered o old reason id inside
      exact ⟨c, connections ▸ member, number, still _ seen⟩
    · obtain ⟨m, registered, rfl, ip, has, gone⟩ :=
        (Registry.mem_stranded minds.kept.sound addresses id).mp inside
      obtain ⟨c, member, rfl⟩ := minds.kept.members m registered
      exact ⟨c, member, rfl, strands _ ⟨step, registered, addresses, seen, fanOuts, ip, has, gone⟩⟩
  · exact (fair.aborted c (connections ▸ member) reason).imp (still _) id

end World

namespace Scene

variable {only : Move → Prop} {x y : Scene}

def Stranded (x : Scene) (m : Member) : Prop :=
  ∃ before u v after, x.worlds = before ++ u :: v :: after ∧ World.Strands u v m

theorem Step.stranded (step : x.Step only y) {m : Member} (stranded : x.Stranded m) :
    y.Stranded m := by
  obtain ⟨before, u, v, after, worlds, strands⟩ := stranded
  refine ⟨before, u, v, after ++ [y.world], ?_, strands⟩
  rw [Scene.worlds, step.past, worlds]
  simp

theorem Step.strands (step : x.Step only y) {m : Member} (strands : x.world.Strands y.world m) :
    y.Stranded m :=
  ⟨x.past, x.world, y.world, [], by simp [worlds, step.past], strands⟩

def Owners (only : Move → Prop) : Prop := ∃ m, only m ∧ m.terms.aborts .netDisconnected

theorem Step.fair (step : x.Step only y) (based : x.Based) (minds : x.world.core.Minds)
    (fair : x.world.traffic.Fair x.Stranded (Owners only)) :
    y.world.traffic.Fair y.Stranded (Owners only) := by
  rcases step.effects based with ⟨t, lets, effects⟩ | supervises
  · have later := fair.mono (fun _ => step.stranded) id
    exact (effects.keeps (p := fun c => c.Minds ∧ c.traffic.Fair y.Stranded (Owners only))
      (fun effect ⟨minds, fair⟩ => ⟨effect.minds minds, effect.fair minds (lets.aborts _) fair⟩)
      ⟨minds, later⟩).2
  · have minds := step.minds based minds
    exact supervises.fair minds fair (fun _ => step.stranded) fun _ => step.strands

def Steady (only : Move → Prop) (addresses : LocalAddresses) : Scene → Scene → Prop :=
  Relation.ReflTransGen fun x y =>
    Step only x y ∧ x.Binds y ∧ y.world.localAddresses = some addresses

end Scene

def Move.isAborting : Move → Bool
  | .abort _ _ | .abortByHandle _ _ => true
  | _ => false

namespace Scenario.Setup

variable {s : Setup} {only : Move → Prop} {x : Scene}

def Performs (s : Setup) (only : Move → Prop) : Scene → Prop :=
  Relation.ReflTransGen (fun x y => Scene.Step only x y ∧ x.Binds y) s.scene

theorem Performs.plays (performs : s.Performs only x) : s.Plays only x :=
  Relation.ReflTransGen.mono (fun _ _ => And.left) _ _ performs

theorem Performs.dated (performs : s.Performs only x) : x.Dated World.localAddresses := by
  induction performs with
  | refl => exact s.scene_dated _
  | tail before step ih =>
    have based := Scene.Run.based (Performs.plays before) s.scene_based
    exact step.1.dated based (fun _ _ => step.2 _) ih

theorem Plays.fair (plays : s.Plays only x) :
    x.world.traffic.Fair x.Stranded (Scene.Owners only) := by
  induction plays with
  | refl =>
    have start := s.build_induct (p := fun c => c.Minds ∧ c.traffic.Fair (fun _ => False) False)
      (fun initial => ⟨initial.minds, initial.fair⟩)
      (fun effect ⟨minds, fair⟩ => ⟨effect.minds minds, effect.fair minds id fair⟩)
      fun kinds ⟨minds, fair⟩ => ⟨minds.listen kinds, fair.ordered, fair.aborted⟩
    exact start.2.mono (fun _ => False.elim) False.elim
  | tail before step ih =>
    exact step.fair (Scene.Run.based before s.scene_based) (Plays.minds before) ih

theorem Performs.steady (performs : s.Performs only x) {addresses : LocalAddresses} {y : Scene}
    (steady : Scene.Steady only addresses x y) : s.Performs only y :=
  Relation.ReflTransGen.trans performs
    (Relation.ReflTransGen.mono (fun _ _ step => ⟨step.1, step.2.1⟩) _ _ steady)

theorem Performs.answered (performs : s.Performs only x) {addresses : LocalAddresses}
    (before : x.world.localAddresses = some addresses)
    (answered : x.Owed ∨ x.Checked World.localAddresses addresses) {y : Scene}
    (steady : Scene.Steady only addresses x y) (opened : y.world.bus.closed = false) :
    y.world.localAddresses = some addresses ∧
      (y.Owed ∨ y.Checked World.localAddresses addresses) := by
  induction steady with
  | refl => exact ⟨before, answered⟩
  | tail earlier step ih =>
    have performs := performs.steady earlier
    have based := Scene.Run.based performs.plays s.scene_based
    obtain ⟨before, answered⟩ := ih (step.1.opened based performs.dated opened)
    obtain ⟨step, -, now⟩ := step
    exact ⟨now, step.answered now based performs.plays.minds performs.dated (fun _ => before) opened answered⟩

-- A change of addresses reaches every connection. Whatever was raised last finds the supervisor,
-- and what is open once nothing moves any more has an address that is there, however its dial and
-- the change have crossed. What is aborted for its address was registered when the supervisor
-- looked for the address and did not find it.
theorem Performs.validates (performs : s.Performs only x) :
    (∀ addresses y, x.world.bus.raised.contains .addrChanged →
      x.world.localAddresses = some addresses → Scene.Steady only addresses x y →
      y.world.bus.closed = false → y.world.Settled →
      ∀ c ∈ y.world.connections, c.closed = false → ∀ ip ∈ c.localIp, addresses.contains ip) ∧
    (∀ o ∈ x.world.fanOuts, o.reason = some .netDisconnected → ∀ id ∈ o.ids,
      ∃ c ∈ x.world.connections, c.id = id ∧ x.Stranded c.member) ∧
    ((∀ m, only m → ¬ m.terms.aborts .netDisconnected) →
      ∀ c ∈ x.world.connections, c.reason = some .netDisconnected → x.Stranded c.member) := by
  refine ⟨fun addresses y raised before steady opened settled c member live ip has => ?_,
    performs.plays.fair.ordered, fun others c member reason => ?_⟩
  · have later := performs.steady steady
    have answered := (performs.answered before (.inl (.inl raised)) steady opened).2
    exact Scene.open_address later.plays.minds later.dated settled opened answered
      (World.mem_openConnections.mpr ⟨member, live⟩) has
  · have aborted := performs.plays.fair.aborted c member reason
    exact aborted.resolve_right fun ⟨m, allowed, aborts⟩ => others m allowed aborts

def roaming : Setup where
  listeners := [{ name := "A", address := { ip := .loopback, port := 22 } },
    { name := "B", address := { ip := .v4 0x0a000001#32, port := 22 } }]
  up := true
  locals := [(.v4 0x0a000001#32, .v4 0x0a000002#32)]
  addresses := [.loopback, .v4 0x0a000002#32]

def leaving : Scene :=
  roaming.scene.along
    [fun w => .dial "d" (.via .manager false) "tcp" "127.0.0.1:22" w.root,
      fun w => .dial "e" (.via .manager false) "tcp" "10.0.0.1:22" w.root,
      fun _ => .poll (.call "d"),
      fun w => .kernel (w.network.grant?.getD w.network),
      fun _ => .poll (.call "d"),
      fun _ => .poll .supervisor,
      fun _ => .poll (.call "e"),
      fun w => .kernel (w.network.grant?.getD w.network),
      fun _ => .addresses (.ofList [.loopback]) false,
      fun _ => .raise .addrChanged]

def left : Scene :=
  leaving.along
    [fun _ => .poll .dispatcher,
      fun _ => .poll .supervisor,
      fun _ => .poll (.call "e"),
      fun _ => .poll .supervisor,
      fun _ => .poll (.fanOut 0),
      fun _ => .poll .dispatcher,
      fun _ => .poll .supervisor]

theorem validates_left :
    (∀ c ∈ left.world.connections, c.closed = false →
      ∀ ip ∈ c.localIp, (LocalAddresses.ofList [.loopback]).contains ip) ∧
    ∃ c ∈ left.world.connections, c.reason = some .netDisconnected ∧ left.Stranded c.member := by
  have performs : roaming.Performs (fun m => m.isAborting = false) leaving :=
    Scene.rule_along (by decide +kernel)
  have steady : Scene.Steady (fun m => m.isAborting = false) (.ofList [.loopback]) leaving left :=
    Scene.rule_along (by decide +kernel)
  have open_ones := performs.validates.1 _ left (by decide +kernel) (by decide +kernel) steady
    (by decide +kernel) (by decide +kernel)
  have aborted : ∃ c ∈ left.world.connections, c.reason = some .netDisconnected := by
    decide +kernel
  obtain ⟨c, member, reason⟩ := aborted
  refine ⟨open_ones, c, member, reason, (performs.steady steady).validates.2.2 ?_ c member reason⟩
  rintro m quiet ⟨name, rfl | rfl⟩ <;> cases quiet

end Scenario.Setup

end Egress
