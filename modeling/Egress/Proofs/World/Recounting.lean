import Mathlib.Data.List.Induction
import Mathlib.Data.List.ReduceOption
import Egress.Proofs.World.Looking

set_option autoImplicit false

namespace Egress

namespace LocalAddresses

theorem same_iff {a b : LocalAddresses} : a.same b ↔ ∀ ip, a.contains ip = b.contains ip := by
  simp only [same, Bool.and_eq_true, List.all_eq_true]
  constructor
  · intro ⟨there, here⟩ ip
    exact Bool.eq_iff_iff.mpr
      ⟨fun has => there ip (List.contains_iff_mem.mp has),
        fun has => here ip (List.contains_iff_mem.mp has)⟩
  · intro alike
    exact ⟨fun ip has => alike ip ▸ List.contains_iff_mem.mpr has,
      fun ip has => alike ip ▸ List.contains_iff_mem.mpr has⟩

theorem other_iff {a b : LocalAddresses} :
    a.same b = false ↔ ∃ ip, a.contains ip ≠ b.contains ip := by
  rw [← Bool.not_eq_true, same_iff, not_forall]

end LocalAddresses

def lastSeen (before : List (Option LocalAddresses)) : LocalAddresses :=
  before.reduceOption.getLast?.getD {}

theorem lastSeen_failed (before : List (Option LocalAddresses)) :
    lastSeen (before ++ [none]) = lastSeen before := by
  simp [lastSeen, List.reduceOption_append]

theorem lastSeen_found (before : List (Option LocalAddresses)) (now : LocalAddresses) :
    lastSeen (before ++ [some now]) = now := by
  simp [lastSeen, List.reduceOption_append]

namespace AddressWatch

-- It knows what was seen last, in some order.
def Knows (a : AddressWatch) (before : List (Option LocalAddresses)) : Prop :=
  ∀ ip, a.known.contains ip = (lastSeen before).contains ip

theorem start_knows (every now : Nat) (first : Option LocalAddresses) :
    (start every now first).Knows [first] := by
  cases first <;> exact fun _ => rfl

theorem Knows.tick {a : AddressWatch} {before : List (Option LocalAddresses)}
    (knows : a.Knows before) (now : Nat) (found : Option LocalAddresses) :
    (a.tick now found).1.Knows (before ++ [found]) := by
  unfold AddressWatch.tick look
  cases found with
  | none =>
    intro ip
    rw [lastSeen_failed]
    exact knows ip
  | some addresses =>
    intro ip
    rw [lastSeen_found]
    dsimp only
    split
    next same => exact (LocalAddresses.same_iff.mp same ip).symm
    next => rfl

theorem Knows.reported {a : AddressWatch} {before : List (Option LocalAddresses)}
    (knows : a.Knows before) (now : Nat) (found : Option LocalAddresses) :
    (a.tick now found).2 = true ↔
      ∃ addresses ∈ found, ∃ ip, addresses.contains ip ≠ (lastSeen before).contains ip := by
  rw [a.tick_seen, Option.any_eq_true]
  refine exists_congr fun addresses => and_congr_right fun _ => ?_
  rw [Bool.not_eq_true', LocalAddresses.other_iff]
  exact exists_congr fun ip => by rw [knows ip]

end AddressWatch

namespace World

variable {w v : World} {before others : List (Option LocalAddresses)}

def isLooking (w : World) : Bool :=
  w.watch.any fun t => !w.isCancelled t.scope &&
    match t.stage with
    | .fresh => t.every != 0
    | .watching a => a.isDue w.clock
    | .ended | .panicked => false

def isReporting (w : World) : Bool :=
  w.watch.any fun t => !w.isCancelled t.scope &&
    match t.stage with
    | .watching a => a.isDue w.clock && (a.tick w.clock w.localAddresses).2
    | .fresh | .ended | .panicked => false

-- A watch begins to look at some time, and is polled at some later times. In between anything may
-- happen to its surroundings. The list says how each look came out, the first one included.
inductive Watches : World → List (Option LocalAddresses) → Prop
  | start {w : World} {t : WatchTask} (watch : w.watch = some t) (fresh : t.stage = .fresh) :
    Watches w []
  | elsewhere {w next : World} {before : List (Option LocalAddresses)}
    (watches : Watches w before) (same : next.watch = w.watch) : Watches next before
  | idle {w : World} {before : List (Option LocalAddresses)}
    (watches : Watches w before) (idle : w.isLooking = false) :
    Watches (w.poll .addressWatch) before
  | look {w : World} {before : List (Option LocalAddresses)} {found : Option LocalAddresses}
    (watches : Watches w before) (looking : w.isLooking) (comes : w.localAddresses = found) :
    Watches (w.poll .addressWatch) (before ++ [found])

def Recalls (w : World) (before : List (Option LocalAddresses)) : Prop :=
  ∀ t, w.watch = some t →
    match t.stage with
    | .fresh => before = []
    | .watching a => before ≠ [] ∧ a.Knows before
    | .ended | .panicked => True

theorem Looks.isLooking {t : WatchTask} {a : AddressWatch} (looks : w.Looks t a) : w.isLooking := by
  obtain ⟨watch, watching, live, due⟩ := looks
  simp [World.isLooking, watch, watching, live, due]

theorem Looks.isReporting {t : WatchTask} {a : AddressWatch} (looks : w.Looks t a) :
    w.isReporting = (a.tick w.clock w.localAddresses).2 := by
  obtain ⟨watch, watching, live, due⟩ := looks
  simp [World.isReporting, watch, watching, live, due]

structure Opens (w : World) (t : WatchTask) : Prop where
  watch : w.watch = some t
  fresh : t.stage = .fresh
  looking : w.isLooking
  silent : w.isReporting = false
  poll : w.pollAddressWatch =
    w.endWatch t (.watching (.start t.every w.clock w.localAddresses))

structure Rests (w : World) : Prop where
  idle : w.isLooking = false
  silent : w.isReporting = false
  bus : w.pollAddressWatch.bus = w.bus
  watch : ∀ t, w.pollAddressWatch.watch = some t →
    w.watch = some t ∨ t.stage = .ended ∨ t.stage = .panicked

theorem watch_cases (w : World) :
    (∃ t a, w.Looks t a) ∨ (∃ t, w.Opens t) ∨ w.Rests := by
  cases watch : w.watch with
  | none =>
    have poll : w.pollAddressWatch = w := by simp only [pollAddressWatch, watch]
    exact .inr (.inr ⟨by simp [isLooking, watch], by simp [isReporting, watch], by rw [poll],
      fun t => by rw [poll]; exact .inl⟩)
  | some t =>
    -- The watch is over, or has been, or only waits.
    have ends (stage : WatchStage) (poll : w.pollAddressWatch = w.endWatch t stage)
        (last : stage = .ended ∨ stage = .panicked) (idle : w.isLooking = false)
        (silent : w.isReporting = false) : w.Rests :=
      ⟨idle, silent, by rw [poll]; rfl, fun u is => by
        rw [poll] at is
        exact .inr (Option.some.inj is ▸ last)⟩
    have stays (poll : w.pollAddressWatch = w) (idle : w.isLooking = false)
        (silent : w.isReporting = false) : w.Rests :=
      ⟨idle, silent, by rw [poll], fun u is => .inl (poll ▸ is)⟩
    cases cancelled : w.isCancelled t.scope <;> cases stage : t.stage
    case false.fresh =>
      by_cases zero : t.every = 0
      next =>
        exact .inr (.inr (ends .panicked
          (by simp [pollAddressWatch, watch, stage, zero]) (.inr rfl)
          (by simp [isLooking, watch, stage, zero]) (by simp [isReporting, watch, stage])))
      next =>
        exact .inr (.inl ⟨t, watch, stage, by simp [isLooking, watch, stage, cancelled, zero],
          by simp [isReporting, watch, stage],
          by simp [pollAddressWatch, watch, stage, zero, cancelled]⟩)
    case true.fresh =>
      by_cases zero : t.every = 0
      next =>
        exact .inr (.inr (ends .panicked
          (by simp [pollAddressWatch, watch, stage, zero]) (.inr rfl)
          (by simp [isLooking, watch, cancelled]) (by simp [isReporting, watch, stage])))
      next =>
        exact .inr (.inr (ends .ended
          (by simp [pollAddressWatch, watch, stage, zero, cancelled]) (.inl rfl)
          (by simp [isLooking, watch, cancelled]) (by simp [isReporting, watch, stage])))
    case false.watching a =>
      cases due : a.isDue w.clock with
      | true => exact .inl ⟨t, a, watch, stage, cancelled, due⟩
      | false =>
        exact .inr (.inr (stays (by simp [pollAddressWatch, watch, stage, cancelled, due])
          (by simp [isLooking, watch, stage, due]) (by simp [isReporting, watch, stage, due])))
    case true.watching a =>
      exact .inr (.inr (ends .ended
        (by simp [pollAddressWatch, watch, stage, cancelled]) (.inl rfl)
        (by simp [isLooking, watch, cancelled]) (by simp [isReporting, watch, cancelled])))
    all_goals
      exact .inr (.inr (stays (by simp only [pollAddressWatch, watch, stage])
        (by simp [isLooking, watch, stage]) (by simp [isReporting, watch, stage])))

theorem pollAddressWatch_bus (w : World) :
    w.pollAddressWatch.bus = if w.isReporting then w.bus.raise .addrChanged else w.bus := by
  rcases w.watch_cases with ⟨t, a, looks⟩ | ⟨t, opens⟩ | rests
  · rw [looks.isReporting, looks.poll]
    dsimp only
    split <;> rfl
  · rw [opens.silent, opens.poll]
    rfl
  · rw [rests.silent, rests.bus]
    rfl

namespace Watches

theorem recalls (watches : Watches w before) : w.Recalls before := by
  induction watches with
  | start watch fresh =>
    intro t is
    obtain rfl := Option.some.inj (watch.symm.trans is)
    rw [fresh]
  | elsewhere _ same ih => exact fun t is => ih t (same ▸ is)
  | @idle w before _ idle ih =>
    intro t is
    rcases w.watch_cases with ⟨_, _, looks⟩ | ⟨_, opens⟩ | rests
    · exact absurd looks.isLooking (by simp [idle])
    · exact absurd opens.looking (by simp [idle])
    · rcases rests.watch t is with was | ended | panicked
      · exact ih t was
      · rw [ended]
        trivial
      · rw [panicked]
        trivial
  | @look w before found _ looking comes ih =>
    intro t is
    rw [poll] at is
    subst comes
    rcases w.watch_cases with ⟨s, a, looks⟩ | ⟨s, opens⟩ | rests
    · have knows := ih s looks.watch
      rw [looks.watching] at knows
      have known : t.stage = .watching (a.tick w.clock w.localAddresses).1 := by
        rw [looks.poll] at is
        dsimp only at is
        split at is <;> exact Option.some.inj is ▸ rfl
      rw [known]
      exact ⟨by simp, knows.2.tick _ _⟩
    · have none : before = [] := by
        have := ih s opens.watch
        rwa [opens.fresh] at this
      rw [opens.poll] at is
      obtain rfl := Option.some.inj is
      subst none
      exact ⟨by simp, AddressWatch.start_knows _ _ _⟩
    · exact absurd looking (by simp [rests.idle])

theorem later (watches : Watches w before) (addresses : LocalAddresses) (fail : Bool)
    (nanos : Nat) :
    Watches ((w.move (.addresses addresses fail)).move (.clock nanos)) before :=
  watches.elsewhere rfl

theorem first (watches : Watches w []) : w.isReporting = false := by
  rcases w.watch_cases with ⟨t, a, looks⟩ | ⟨t, opens⟩ | rests
  · have knows := watches.recalls t looks.watch
    rw [looks.watching] at knows
    exact absurd rfl knows.1
  · exact opens.silent
  · exact rests.silent

theorem reported (watches : Watches w before) (looking : w.isLooking) :
    w.isReporting ↔ before ≠ [] ∧ ∃ addresses ∈ w.localAddresses,
      ∃ ip, addresses.contains ip ≠ (lastSeen before).contains ip := by
  rcases w.watch_cases with ⟨t, a, looks⟩ | ⟨t, opens⟩ | rests
  · have knows := watches.recalls t looks.watch
    rw [looks.watching] at knows
    rw [looks.isReporting, knows.2.reported, and_iff_right knows.1]
  · have none : before = [] := by
      have := watches.recalls t opens.watch
      rwa [opens.fresh] at this
    simp [opens.silent, none]
  · exact absurd looking (by simp [rests.idle])

end Watches

structure GoesOn (w : World) (t : WatchTask) : Prop where
  watch : w.watch = some t
  every : t.every ≠ 0
  live : w.isCancelled t.scope = false
  stage : t.stage = .fresh ∨ ∃ a, t.stage = .watching a

def facing (w : World) (found : Option LocalAddresses) : World :=
  { w with
    wiring := { w.wiring with addresses := true }
    addresses := found.getD {}
    addressesFail := found.isNone
    clock := match w.watch with
      | some { stage := .watching a, .. } => a.next
      | _ => w.clock }

theorem facing_localAddresses (w : World) (found : Option LocalAddresses) :
    (w.facing found).localAddresses = found := by
  cases found <;> rfl

theorem GoesOn.facing {t : WatchTask} (goesOn : w.GoesOn t) (found : Option LocalAddresses) :
    (w.facing found).isLooking := by
  obtain ⟨watch, every, live, stage⟩ := goesOn
  have live : (w.facing found).isCancelled t.scope = false := live
  have watch' : (w.facing found).watch = some t := watch
  rcases stage with fresh | ⟨a, watching⟩
  · simp [isLooking, watch', live, fresh, every]
  · have clock : (w.facing found).clock = a.next := by
      simp only [World.facing, watch]
      obtain ⟨_, _, _⟩ := t
      subst watching
      rfl
    simp [isLooking, watch', live, watching, AddressWatch.isDue, clock]

theorem GoesOn.poll {t : WatchTask} (goesOn : w.GoesOn t) (looking : w.isLooking) :
    ∃ a, w.pollAddressWatch.GoesOn { t with stage := .watching a } := by
  have kept (a : AddressWatch) (next : World)
      (watch : next.watch = some { t with stage := .watching a }) (scopes : next.scopes = w.scopes) :
      next.GoesOn { t with stage := .watching a } :=
    ⟨watch, goesOn.every, by rw [isCancelled, scopes]; exact goesOn.live, .inr ⟨a, rfl⟩⟩
  rcases w.watch_cases with ⟨s, a, looks⟩ | ⟨s, opens⟩ | rests
  · obtain rfl := Option.some.inj (goesOn.watch.symm.trans looks.watch)
    refine ⟨(a.tick w.clock w.localAddresses).1, kept _ _ ?_ ?_⟩ <;>
      (rw [looks.poll]; dsimp only; split <;> rfl)
  · obtain rfl := Option.some.inj (goesOn.watch.symm.trans opens.watch)
    exact ⟨_, kept _ _ (by rw [opens.poll]; rfl) (by rw [opens.poll]; rfl)⟩
  · exact absurd looking (by simp [rests.idle])

theorem Watches.goes_on (before : List (Option LocalAddresses)) :
    ∃ (w : World) (t : WatchTask), Watches w before ∧ w.GoesOn t := by
  induction before using List.reverseRecOn with
  | nil =>
    let t : WatchTask := { scope := { id := 0, token := 0 }, every := 1 }
    exact ⟨{ watch := some t }, t, .start rfl rfl, rfl, Nat.one_ne_zero, rfl, .inl rfl⟩
  | append_singleton before found ih =>
    obtain ⟨w, t, watches, goesOn⟩ := ih
    have looking := goesOn.facing found
    have faces : Watches (w.facing found) before := watches.elsewhere rfl
    have looked := faces.look looking (w.facing_localAddresses found)
    have goesOn : (w.facing found).GoesOn t := { goesOn with }
    obtain ⟨a, later⟩ := goesOn.poll looking
    exact ⟨_, _, looked, later⟩

theorem Watches.comes (before : List (Option LocalAddresses)) (found : Option LocalAddresses) :
    ∃ w : World, Watches w before ∧ w.isLooking ∧ w.localAddresses = found := by
  obtain ⟨w, t, watches, goesOn⟩ := goes_on before
  exact ⟨w.facing found, watches.elsewhere rfl, goesOn.facing found, w.facing_localAddresses found⟩

-- What a look comes to after others that came out like this. One that fails is not reported, and
-- the first is not. Any other is reported exactly if it finds other addresses than the last one
-- that did not fail, or, if all have failed so far, any address at all. So if those that failed are
-- left out, the same looks are reported, save for the first that succeeds: with none before, it is
-- not.
structure Recounts (before : List (Option LocalAddresses)) (w : World) : Prop where
  raised : (w.poll .addressWatch).bus = if w.isReporting then w.bus.raise .addrChanged else w.bus
  failed : w.localAddresses = none → w.isReporting = false
  first : before = [] → w.isReporting = false
  compared : ∀ known now, before.reduceOption.getLast? = some known → w.localAddresses = some now →
    (w.isReporting ↔ ∃ ip, now.contains ip ≠ known.contains ip)
  recovered : before ≠ [] → before.reduceOption = [] → ∀ now, w.localAddresses = some now →
    (w.isReporting ↔ ∃ ip, now.contains ip)
  comparable : ∃ v, Watches v (before.reduceOption.map some) ∧ v.isLooking ∧
    v.localAddresses = w.localAddresses
  alike : ∀ v, Watches v (before.reduceOption.map some) → v.isLooking →
    v.localAddresses = w.localAddresses →
      (w.isReporting ↔ v.isReporting ∨ before ≠ [] ∧ before.reduceOption = [] ∧
        ∃ now ∈ w.localAddresses, ∃ ip, now.contains ip)

theorem lastSeen_reduced (before : List (Option LocalAddresses)) :
    lastSeen (before.reduceOption.map some) = lastSeen before := by
  simp [lastSeen, List.reduceOption, List.filterMap_map]

theorem Watches.recounts (watches : Watches w before) (looking : w.isLooking) :
    w.Recounts before := by
  have reported := watches.reported looking
  refine ⟨w.pollAddressWatch_bus, fun failed => ?_, fun none => ?_, fun known now last found => ?_,
    fun some none now found => ?_, comes _ _, fun v other looking' found => ?_⟩
  · rw [← Bool.not_eq_true, reported, failed]
    simp
  · exact (none ▸ watches).first
  · have seen : lastSeen before = known := by rw [lastSeen, last]; rfl
    have some : before ≠ [] := by
      rintro rfl
      cases last
    simp [reported, some, found, seen]
  · have seen : lastSeen before = {} := by rw [lastSeen, none]; rfl
    simp [reported, some, found, seen, LocalAddresses.contains]
  · have reported' := other.reported looking'
    rw [lastSeen_reduced, found] at reported'
    by_cases none : before.reduceOption = []
    · have seen : lastSeen before = {} := by rw [lastSeen, none]; rfl
      simp [reported, reported', none, seen, LocalAddresses.contains]
    · have some : before ≠ [] := by
        rintro rfl
        exact none rfl
      simp [reported, reported', none, some]

end World

namespace Scenario.Setup

def glimpsed : World :=
  roving.build.along
    [fun _ => .poll .addressWatch,
      fun _ => .addresses {} true,
      fun _ => .clock 5000000000,
      fun _ => .poll .addressWatch,
      fun _ => .addresses (.ofList [.loopback]) false,
      fun _ => .clock 5000000000]

theorem glimpsed_recounts :
    glimpsed.isReporting ∧
      glimpsed.Recounts [some (.ofList [.loopback, .v4 0x0a000002#32]), none] := by
  obtain ⟨t, watch⟩ := Option.isSome_iff_exists.mp
    (by decide +kernel : roving.build.watch.isSome)
  have fresh : roving.build.watch.all fun t => t.stage = .fresh := by decide +kernel
  rw [watch, Option.all_some, decide_eq_true_eq] at fresh
  have first : World.Watches _ [some (.ofList [.loopback, .v4 0x0a000002#32])] :=
    (World.Watches.start watch fresh).look (by decide +kernel) (by decide +kernel)
  have second : World.Watches _ [some (.ofList [.loopback, .v4 0x0a000002#32]), none] :=
    (first.later {} true 5000000000).look (by decide +kernel) (by decide +kernel)
  have third : World.Watches glimpsed _ := second.later (.ofList [.loopback]) false 5000000000
  exact ⟨by decide +kernel, third.recounts (by decide +kernel)⟩

def dazzled : World :=
  ({ roving with addressesFail := true } : Setup).build.along
    [fun _ => .poll .addressWatch,
      fun _ => .addresses (.ofList [.loopback]) false,
      fun _ => .clock 5000000000]

-- No look has succeeded so far, nothing has been seen that could have changed, and still the next
-- one is reported. Were the failed one left out, it would be the first, which is not.
theorem first_success_reported :
    ∃ w before, World.Watches w before ∧ before.reduceOption = [] ∧ w.isLooking ∧
      w.bus.raised.contains .addrChanged = false ∧
      (w.poll .addressWatch).bus.raised.contains .addrChanged ∧
      ∀ v, World.Watches v (before.reduceOption.map some) → v.isReporting = false := by
  obtain ⟨t, watch⟩ := Option.isSome_iff_exists.mp
    (by decide +kernel : ({ roving with addressesFail := true } : Setup).build.watch.isSome)
  have fresh : ({ roving with addressesFail := true } : Setup).build.watch.all fun t =>
    t.stage = .fresh := by decide +kernel
  rw [watch, Option.all_some, decide_eq_true_eq] at fresh
  have first : World.Watches _ [none] :=
    (World.Watches.start watch fresh).look (by decide +kernel) (by decide +kernel)
  have second : World.Watches dazzled _ := first.later (.ofList [.loopback]) false 5000000000
  exact ⟨dazzled, [none], second, rfl, by decide +kernel, by decide +kernel, by decide +kernel,
    fun v watches => watches.first⟩

end Scenario.Setup

end Egress
