import Egress.Proofs.World.Accounting
import Egress.Proofs.World.Queueing

set_option autoImplicit false

namespace Egress

open Simulation

-- A reconnect that goes past the store.
def Move.isReconnecting : Move → Bool
  | .reconnect _ _ => true
  | _ => false

namespace World

open Function (update)

variable {w next : World} {m : Move}

def isToldToStop (w : World) (subscription : Nat) : Bool :=
  (Signal.awaited w.signals).isSome || (w.bus.receive subscription).2 != .pending

def shutsDown (w : World) : Move → Bool
  | .poll (.call id) =>
    match w.call? id with
    | some (.run .fresh) => w.shutdownRequests.any w.isToldToStop
    | some (.run (.waiting subscription)) => w.isToldToStop subscription
    | some (.run _) => true
    | _ => false
  | _ => false

def stores? (w : World) : Move → Option Server.Params
  | .poll (.call id) =>
    match w.call? id with
    | some (.setParams params .fresh) => some params
    | _ => none
  | _ => none

def IsStoring (w : World) : Prop :=
  ∃ id params stage, w.call? id = some (.setParams params stage) ∧ stage ≠ .fresh

theorem isStoring_iff : w.IsStoring ↔ ∃ id, ((w.governing? id).bind Call.stored?).isSome := by
  constructor
  · rintro ⟨id, params, stage, found, begun⟩
    refine ⟨id, ?_⟩
    cases stage with
    | fresh => exact absurd rfl begun
    | locking | draining =>
      rw [governing_of_call found rfl]
      rfl
  · rintro ⟨id, some⟩
    obtain ⟨params, stored⟩ := Option.isSome_iff_exists.mp some
    obtain ⟨c, governing, stored⟩ := Option.bind_eq_some_iff.mp stored
    have found := call?_of_governing governing
    cases c with
    | setParams other stage =>
      refine ⟨id, other, stage, found, ?_⟩
      rintro rfl
      cases stored
    | _ => cases stored

theorem isStoring_iff_listed :
    w.IsStoring ↔ ∃ entry ∈ w.calls, ((w.governing? entry.1).bind Call.stored?).isSome := by
  rw [isStoring_iff]
  constructor
  · rintro ⟨id, some⟩
    obtain ⟨params, stored⟩ := Option.isSome_iff_exists.mp some
    obtain ⟨c, governing, -⟩ := Option.bind_eq_some_iff.mp stored
    obtain ⟨before, after, calls, -⟩ := List.lookup_eq_some_iff.mp (call?_of_governing governing)
    exact ⟨(id, c), by simp [calls], some⟩
  · rintro ⟨entry, -, some⟩
    exact ⟨entry.1, some⟩

instance (w : World) : Decidable w.IsStoring := decidable_of_iff' _ isStoring_iff_listed

structure Proceeds (w : World) (m : Move) (next : World) : Prop where
  queued : Queued next.tenure next.governing?
  stored : next.tenure.stored = (w.stores? m).getD w.tenure.stored
  known : (w.stores? m = none ∧ next.tenure.active = w.tenure.active ∧
      (w.IsStoring → next.IsStoring)) ∨
    next.IsStoring ∨ ∃ bus : Event.Bus, next.bus = bus.raise .serverParamsChanged

theorem Proceeds.same (queued : Queued w.tenure w.governing?) (none : w.stores? m = none)
    (tenure : next.tenure = w.tenure) (calls : next.governing? = w.governing?) :
    Proceeds w m next := by
  refine ⟨?_, by rw [tenure, none]; rfl, .inl ⟨none, by rw [tenure], ?_⟩⟩
  · rw [tenure, calls]
    exact queued
  · rw [isStoring_iff, isStoring_iff, calls]
    exact id

theorem Proceeds.aside (queued : Queued w.tenure w.governing?) (none : w.stores? m = none)
    (tenure : next.tenure = w.tenure) {id : String} {c : Option Call}
    (calls : next.governing? = update w.governing? id c)
    (before : (w.governing? id).bind Call.stored? = .none) (after : c.bind Call.stored? = .none)
    (calm : ∀ d, c = some d → d.isCalm) : Proceeds w m next := by
  have same := Queued.stored_update (after.trans before.symm)
  refine ⟨?_, by rw [tenure, none]; rfl, .inl ⟨none, by rw [tenure], ?_⟩⟩
  · rw [tenure, calls]
    exact queued.aside before after calm
  · rw [isStoring_iff, isStoring_iff, calls]
    simp only [same]
    exact fun storing => storing

theorem governing_setCall {id : String} {old c : Call} (found : w.call? id = some old)
    (governs : c.governs) : (w.setCall id c).governing? = update w.governing? id (some c) := by
  funext other
  rw [governing?_setCall]
  by_cases hit : other = id
  next => simp [hit, found, governs]
  next => simp [hit]

theorem governing_addCall {id : String} {c : Call} (governs : c.governs) :
    (w.addCall id c).governing? = update w.governing? id (some c) := by
  funext other
  rw [governing?_addCall]
  by_cases hit : other = id
  next => simp [hit, governs]
  next => simp [hit]

theorem governing_finish (w : World) (id : String) (f : Finish) :
    (w.finish id f).governing? = update w.governing? id none := by
  funext other
  rw [governing?_finish]
  by_cases hit : other = id
  next => simp [hit]
  next => simp [hit]

theorem awaitShutdown_waits {subscription : Nat} (untold : w.isToldToStop subscription = false)
    (id : String) :
    w.awaitShutdown id subscription = w.setCall id (.run (.waiting subscription)) := by
  simp only [isToldToStop, Bool.or_eq_false_iff, Option.isSome_eq_false_iff,
    Option.isNone_iff_eq_none, bne_eq_false_iff_eq] at untold
  obtain ⟨quiet, pending⟩ := untold
  have receipt : w.bus.receive subscription = (w.bus, .pending) := by
    have waits : w.bus.receive subscription = ((w.bus.receive subscription).1, .pending) :=
      Prod.ext rfl pending
    rw [waits, Event.Bus.receive_pending waits]
  unfold awaitShutdown
  rw [quiet]
  dsimp only
  rw [receipt]

theorem pollRun_proceeds {id : String} {stage : RunStage} (queued : Queued w.tenure w.governing?)
    (found : w.call? id = some (.run stage)) (goesOn : w.shutsDown (.poll (.call id)) = false) :
    Proceeds w (.poll (.call id)) (w.poll (.call id)) := by
  have none : w.stores? (.poll (.call id)) = none := by simp [stores?, found]
  have before : (w.governing? id).bind Call.stored? = .none := by
    rw [governing_of_call found rfl]
    rfl
  have polled : w.poll (.call id) = w.pollRun id stage := by simp [poll, pollCall, found]
  rw [polled]
  simp only [shutsDown, found] at goesOn
  cases stage with
  | fresh =>
    unfold pollRun
    dsimp only
    split
    · exact .aside queued none rfl (w.governing_finish id _) before rfl (by simp)
    next subscription asked =>
      have untold : w.isToldToStop subscription = false := by simpa [asked] using goesOn
      rw [awaitShutdown_waits (w := { w with shutdownRequests := .none }) untold]
      have calls : ({ w with shutdownRequests := .none } : World).call? id = some (.run .fresh) :=
        found
      refine .aside queued none rfl (governing_setCall calls rfl) before rfl fun d same => ?_
      cases same
      rfl
  | waiting subscription =>
    unfold pollRun
    dsimp only
    rw [awaitShutdown_waits goesOn]
    refine .aside queued none rfl (governing_setCall found rfl) before rfl fun d same => ?_
    cases same
    rfl
  | disconnecting | unwatching | joining => cases goesOn

theorem pollWorker_aside (w : World) (index : Nat) :
    (w.pollWorker index).tenure = w.tenure ∧ (w.pollWorker index).governing? = w.governing? := by
  unfold pollWorker
  induction List.range 3 generalizing w with
  | nil => exact ⟨rfl, rfl⟩
  | cons _ rest ih =>
    rw [List.foldl_cons]
    split
    · have step : (w.stepWorker index).tenure = w.tenure ∧
          (w.stepWorker index).governing? = w.governing? := by
        unfold stepWorker
        split <;> exact ⟨rfl, rfl⟩
      exact ⟨(ih _).1.trans step.1, (ih _).2.trans step.2⟩
    · exact ih w

theorem move_proceeds (queued : Queued w.tenure w.governing?) (allowed : w.allows m)
    (stored : m.isReconnecting = false) (goesOn : w.shutsDown m = false) :
    Proceeds w m (w.move m) := by
  by_cases light : w.IsLight m
  · have none : w.stores? m = none := by
      unfold stores?
      split
      next id =>
        have plain : w.governing? id = none := light
        split
        next found => simp [governing?, found, Call.governs] at plain
        next => rfl
      next => rfl
    have tells : Tells (fun _ => True) w (w.move m) :=
      move_tells allowed light trivial fun _ _ => trivial
    exact .same queued none tells.tenure (congrArg Posts.calls tells.posts)
  cases m with
  | poll task =>
    cases task with
    | dispatcher => exact .same queued rfl rfl rfl
    | worker j =>
      obtain ⟨tenure, calls⟩ := w.pollWorker_aside j
      exact .same queued rfl tenure calls
    | call id =>
      obtain ⟨c, governing⟩ := Option.ne_none_iff_exists'.mp light
      have found := call?_of_governing governing
      have heavy := (Option.filter_eq_some_iff.mp governing).2
      cases c with
      | dial | read | join => cases heavy
      | reconnect params stage => cases queued.calm id _ governing
      | setParams params stage =>
        have announces := pollSetParams_announces queued governing
        have polled : w.move (.poll (.call id)) = w.pollSetParams id params stage := by
          simp [move, poll, pollCall, found]
        rw [polled]
        refine ⟨announces.queued, ?_, .inr ?_⟩
        · rw [announces.stored]
          cases stage <;> simp [stores?, found]
        · rcases announces.announced with storing | raised
          · exact .inl (isStoring_iff.mpr ⟨id, storing⟩)
          · exact .inr raised
      | run stage => exact pollRun_proceeds queued found goesOn
    | supervisor | addressWatch | fanOut | sessionWatch | streamWatch => exact (light trivial).elim
  | reconnect id params => cases stored
  | setParams id params | run id =>
    have absent : w.call? id = none := allowed
    have before : (w.governing? id).bind Call.stored? = none := by simp [governing?, absent]
    refine .aside queued rfl rfl (governing_addCall rfl) before rfl fun d same => ?_
    cases same
    rfl
  | permit j n => exact .same queued rfl rfl rfl
  | _ => exact (light trivial).elim

end World

-- Somebody with a subscription, who may still have to look at what is in use since it last heard
-- that this has changed.
structure Onlooker where
  id : Nat
  -- How often parameters had been stored by calls when it came, if none was still at it.
  came : Option Nat
  due : Bool := false
  seen : Option Server.Params := none
  deriving DecidableEq, Repr

structure Course where
  world : World
  stored : List Server.Params := []
  onlooker : Option Onlooker := none

namespace Course

open Scenario.Stage (currentParams)

variable {x y : Course} {o : Onlooker} {start : Server.Params}

inductive Deed
  | move (m : Move)
  | subscribe (kinds : List Event.Kind)
  | receive
  | look

def act (x : Course) : Deed → Course
  | .move m => { x with world := x.world.move m, stored := x.stored ++ (x.world.stores? m).toList }
  | .subscribe kinds =>
    { x with
      world := x.world.move (.subscribe kinds)
      onlooker := some
        { id := x.world.bus.nextId
          came := if x.world.IsStoring then none else some x.stored.length } }
  | .receive =>
    match x.onlooker with
    | some o =>
      let news := (x.world.bus.receive o.id).2 == .kind .serverParamsChanged
      { x with
        world := x.world.move (.receive o.id)
        onlooker := some { o with due := o.due || news } }
    | none => x
  | .look =>
    { x with
      onlooker := x.onlooker.map fun o =>
        { o with due := false, seen := some (currentParams x.world) } }

-- Calls come and go on in any order, and the whole is not shut down. Nobody reconnects but through
-- the store, and the onlooker's subscription is its own.
def allows (x : Course) : Deed → Prop
  | .move m =>
    x.world.allows m ∧ m.isReconnecting = false ∧ x.world.shutsDown m = false ∧
      ∀ o ∈ x.onlooker, m.subscription? ≠ some o.id
  | .subscribe kinds => (Event.Mask.ofKinds kinds).contains .serverParamsChanged
  | .receive => True
  | .look => ∃ o ∈ x.onlooker, o.due

instance (x : Course) (d : Deed) : Decidable (x.allows d) :=
  match d with
  | .move _ => inferInstanceAs (Decidable (_ ∧ _ ∧ _ ∧ _))
  | .subscribe _ => inferInstanceAs (Decidable (_ = true))
  | .receive => .isTrue trivial
  | .look => inferInstanceAs (Decidable (∃ o ∈ x.onlooker, o.due = true))

def Goes (x y : Course) : Prop := ∃ d, x.allows d ∧ y = x.act d

abbrev Run : Course → Course → Prop := Relation.ReflTransGen Goes

def along (x : Course) : List Deed → Course
  | [] => x
  | d :: rest => (x.act d).along rest

def Admits (x : Course) : List Deed → Prop
  | [] => True
  | d :: rest => x.allows d ∧ (x.act d).Admits rest

instance admitsDecidable (x : Course) : (path : List Deed) → Decidable (x.Admits path)
  | [] => .isTrue trivial
  | d :: rest =>
    have := admitsDecidable (x.act d) rest
    inferInstanceAs (Decidable (_ ∧ _))

theorem run_along {x : Course} {path : List Deed} (admitted : x.Admits path) :
    Run x (x.along path) := by
  induction path generalizing x with
  | nil => exact .refl
  | cons d rest ih =>
    obtain ⟨allowed, later⟩ := admitted
    exact .head ⟨d, allowed, rfl⟩ (ih later)

-- Nothing is outstanding for the onlooker: not in its slot, not on its way, and it has looked since
-- it last heard.
structure IsInformed (x : Course) (o : Onlooker) : Prop where
  opened : x.world.bus.closed = false
  rests : x.world.bus.canTurn = false
  empty : (x.world.bus.receive o.id).2 = .pending
  looked : o.due = false

-- What is stored is what was stored last. Once every call that has stored something has returned,
-- it is in use as well; and then an informed onlooker has seen it, unless nothing has been stored
-- since it came and no call was at it then.
structure Agrees (start : Server.Params) (x : Course) : Prop where
  stored : x.world.storedParams = x.stored.getLastD start
  active : ¬x.world.IsStoring → currentParams x.world = x.world.storedParams
  seen : ¬x.world.IsStoring → ∀ o, x.onlooker = some o → x.IsInformed o →
    o.seen = some x.world.storedParams ∨ o.seen = none ∧ o.came = some x.stored.length

def Informs (x : Course) (o : Onlooker) : Prop :=
  x.world.IsStoring ∨ x.world.bus.Brings o.id .serverParamsChanged ∨ o.due

def Knows (x : Course) (o : Onlooker) : Prop :=
  o.seen = some x.world.tenure.active ∨ o.seen = none ∧ o.came = some x.stored.length

structure Watches (x : Course) (o : Onlooker) : Prop where
  own : ¬x.world.posts.Takes (fun _ => False) o.id
  listens : x.world.bus.Listens o.id .serverParamsChanged
  told : x.world.bus.closed = false → x.Informs o ∨ x.Knows o

structure Sound (start : Server.Params) (x : Course) : Prop where
  posted : x.world.Posted
  queued : Queued x.world.tenure x.world.governing?
  stored : x.world.tenure.stored = x.stored.getLastD start
  watches : ∀ o, x.onlooker = some o → x.Watches o

theorem getLastD_append (l : List Server.Params) (p : Option Server.Params) :
    (l ++ p.toList).getLastD start = p.getD (l.getLastD start) := by
  cases p <;> simp

theorem Watches.move (watches : x.Watches o) {m : Move} (allowed : x.world.allows m)
    (own : m.subscription? ≠ some o.id) :
    ¬(x.world.move m).posts.Takes (fun _ => False) o.id ∧
      (x.world.move m).bus.Listens o.id .serverParamsChanged ∧
      ((x.world.move m).bus.closed = false → x.world.bus.closed = false ∧
        (x.world.bus.Brings o.id .serverParamsChanged →
          (x.world.move m).bus.Brings o.id .serverParamsChanged)) := by
  have listens := watches.listens
  by_cases dispatches : m = .poll .dispatcher
  · subst dispatches
    obtain ⟨n, turns⟩ := listens.sane.turns
    refine ⟨watches.own, turns.listens listens, fun opened => ⟨turns.closed ▸ opened, ?_⟩⟩
    exact turns.brings listens ((turns.sane listens.sane).running opened)
  · have apart : ¬m.Concerns fun _ => False := by
      unfold Move.Concerns
      split
      · exact absurd rfl dispatches
      all_goals exact id
    have leaves : World.Leaves (· ≠ o.id) (fun _ => False) x.world (x.world.move m) := by
      refine World.move_leaves allowed apart (fun n takes same => ?_) fun n takes same => ?_
      · exact watches.own (same ▸ takes)
      · exact own (same ▸ takes)
    have spared : ¬(o.id ≠ o.id) := fun other => other rfl
    refine ⟨fun takes => watches.own (leaves.takes _ takes), leaves.bus.listens spared listens,
      fun opened => ⟨?_, leaves.bus.brings listens.sane spared⟩⟩
    by_contra was
    rw [leaves.bus.closed (by simpa using was)] at opened
    cases opened

theorem Sound.move (sound : x.Sound start) {m : Move} (allowed : x.allows (.move m)) :
    (x.act (.move m)).Sound start := by
  obtain ⟨posted, queued, stored, watches⟩ := sound
  obtain ⟨allowed, through, goesOn, own⟩ := allowed
  have proceeds := World.move_proceeds queued allowed through goesOn
  refine ⟨posted.move allowed, proceeds.queued, ?_, fun o there => ?_⟩
  · exact proceeds.stored.trans ((getLastD_append _ _).trans (stored ▸ rfl)).symm
  obtain ⟨apart, listens, keeps⟩ := (watches o there).move allowed (own o there)
  refine ⟨apart, listens, fun opened => ?_⟩
  obtain ⟨was, brings⟩ := keeps opened
  rcases proceeds.known with ⟨none, active, storing⟩ | storing | ⟨bus, raised⟩
  · rcases (watches o there).told was with (began | way | due) | knows
    · exact .inl (.inl (storing began))
    · exact .inl (.inr (.inl (brings way)))
    · exact .inl (.inr (.inr due))
    · refine .inr ?_
      simp only [Knows, act, active, none, Option.toList_none, List.append_nil]
      exact knows
  · exact .inl (.inl storing)
  · refine .inl (.inr (.inl ?_))
    change (x.world.move m).bus.Brings _ _
    rw [raised]
    exact Event.Bus.brings_raise bus _ _

theorem Watches.receive (watches : x.Watches o) (there : x.onlooker = some o) :
    ∀ p, (x.act .receive).onlooker = some p → (x.act .receive).Watches p := by
  obtain ⟨own, listens, told⟩ := watches
  intro p now
  simp only [act, there] at now ⊢
  cases now
  have closed := Event.Bus.receive_closed x.world.bus o.id
  rcases listens.receive_cases with ⟨k, hands, receipt⟩ | ⟨-, receipt⟩
  · have after : (x.world.move (.receive o.id)).bus = _ := congrArg Prod.fst receipt
    have heard : (x.world.bus.receive o.id).2 = .kind k := congrArg Prod.snd receipt
    refine ⟨own, ?_, fun opened => ?_⟩
    · rw [after]
      exact listens.take
    · rcases told (closed.symm.trans opened) with (storing | way | due) | knows
      · exact .inl (.inl storing)
      · by_cases news : k = .serverParamsChanged
        next => exact .inl (.inr (.inr (by simp [heard, news])))
        next =>
          refine .inl (.inr (.inl ?_))
          rw [after]
          exact listens.brings_take way hands news
      · exact .inl (.inr (.inr (by simp [due])))
      · exact .inr knows
  · have after : (x.world.move (.receive o.id)).bus = x.world.bus := by
      rcases receipt with pending | ⟨-, ended⟩
      · exact congrArg Prod.fst pending
      · exact congrArg Prod.fst ended
    refine ⟨own, after ▸ listens, fun opened => ?_⟩
    rcases told (closed.symm.trans opened) with (storing | way | due) | knows
    · exact .inl (.inl storing)
    · exact .inl (.inr (.inl (after ▸ way)))
    · exact .inl (.inr (.inr (by simp [due])))
    · exact .inr knows

theorem Sound.goes (sound : x.Sound start) (goes : x.Goes y) : y.Sound start := by
  have ⟨posted, queued, stored, watches⟩ := sound
  obtain ⟨d, allowed, rfl⟩ := goes
  cases d with
  | move m => exact sound.move allowed
  | subscribe kinds =>
    have tells : World.Tells (fun _ => False) x.world (x.world.move (.subscribe kinds)) :=
      .use (.subscribe kinds) rfl rfl rfl
    refine ⟨posted.leaves tells.leaves, queued, stored, fun o there => ?_⟩
    cases there
    refine ⟨fun takes => Nat.lt_irrefl _ (posted.below _ takes), posted.sane.listens allowed, ?_⟩
    intro _
    by_cases storing : x.world.IsStoring
    next => exact .inl (.inl storing)
    next => exact .inr (.inr ⟨rfl, if_neg storing⟩)
  | receive =>
    cases there : x.onlooker with
    | none => simpa only [act, there] using sound
    | some o =>
      have tells : World.Tells (fun _ => True) x.world (x.world.move (.receive o.id)) :=
        .use (.receive o.id trivial) rfl rfl rfl
      have receives := (watches o there).receive there
      simp only [act, there] at receives ⊢
      exact ⟨posted.leaves tells.leaves, queued, stored, receives⟩
  | look =>
    obtain ⟨o, there, due⟩ := allowed
    refine ⟨posted, queued, stored, fun p now => ?_⟩
    obtain ⟨own, listens, -⟩ := watches o there
    simp only [act, Option.mem_def.mp there, Option.map_some, Option.some.injEq] at now
    subst now
    exact ⟨own, listens, fun _ => .inr (.inl (congrArg some x.world.currentParams_eq))⟩

theorem Sound.agrees (sound : x.Sound start) : x.Agrees start := by
  obtain ⟨posted, queued, stored, watches⟩ := sound
  have active (idle : ¬x.world.IsStoring) : x.world.tenure.active = x.world.tenure.stored := by
    refine queued.agrees fun id => ?_
    by_contra some
    exact idle (World.isStoring_iff.mpr ⟨id, Option.isSome_iff_ne_none.mpr some⟩)
  refine ⟨stored, fun idle => x.world.currentParams_eq.trans (active idle),
    fun idle o there informed => ?_⟩
  obtain ⟨own, listens, told⟩ := watches o there
  obtain ⟨opened, rests, empty, looked⟩ := informed
  rcases told opened with (storing | way | due) | seen | never
  · exact absurd storing idle
  · obtain ⟨k, hands⟩ := listens.arrives (listens.sane.running opened) rests way
    rcases listens.receive_cases with ⟨j, -, receipt⟩ | ⟨nothing, -⟩
    · rw [receipt] at empty
      cases empty
    · exact absurd hands (nothing k)
  · rw [looked] at due
    cases due
  · exact .inl (seen.trans (congrArg some (active idle)))
  · exact .inr never

end Course

namespace Scenario.Setup

variable {s : Setup} {x : Course}

theorem build_queued (runtime : s.runtime.isSome) : Queued s.build.tenure s.build.governing? := by
  refine build_grows (p := fun _ w => Queued w.tenure w.governing?) runtime
    (fun {w} assembled => ?_) fun _ queued => queued
  have tunnel := assembled.tenure
  have inside : w.tenure.current < w.tenure.params.length := by simp [tunnel]
  obtain ⟨u, installed, swapped⟩ := w.swap_cases (by simpa [World.tenure] using inside) w.storedParams
  have after : (w.swap w.storedParams).1.tenure = w.tenure.install w.storedParams := by
    rcases swapped with through | ⟨g, drains⟩
    · have idle : u.tenure.reconnecting = [] := by simp [installed, tunnel]
      rw [through]
      exact (Tenure.release_idle idle).trans installed
    · rw [drains]
      exact installed
  have speaks : World.Speaks (fun _ => True) w (w.swap w.storedParams).1 := w.swap_speaks _
  have calls : (w.swap w.storedParams).1.governing? = fun _ => none :=
    (congrArg Posts.calls speaks.posts).trans (congrArg Posts.calls assembled.posts)
  rw [calls, after]
  refine ⟨Tenure.install_inside _ inside, ?_, by simp, fun id => ?_, by simp, ?_⟩
  · simp [tunnel]
  · simp [tunnel]
  · simp [tunnel]

-- However calls that change the parameters overlap, what they stored last is in use when all have
-- returned, and whoever looks at each announcement ends with it.
theorem params_agree (runtime : s.runtime.isSome) (run : Course.Run { world := s.build } x) :
    x.Agrees s.build.storedParams := by
  have sound : x.Sound s.build.storedParams := by
    induction run with
    | refl => exact ⟨s.build_staffed.toPosted, build_queued runtime, rfl, by simp⟩
    | tail _ goes ih => exact ih.goes goes
  exact sound.agrees

def moved : Server.Params := { addr := "127.0.0.1:23", login := "u", password := "p" }

def moving : Server.Params := { moved with addr := "127.0.0.1:24" }

-- A dial is under way through the old generation when the first call comes, and two more calls with
-- the same parameters queue up behind it.
def overlapping : Course :=
  Course.along { world := small.build } <|
    [.subscribe [.serverParamsChanged],
      .move (.dial "d" (.via .tunnel false) "tcp" "a.test:80" small.build.root),
      .move (.poll (.call "d")), .move (.setParams "a" moving), .move (.poll (.call "a")),
      .move (.setParams "b" moved), .move (.poll (.call "b")), .move (.setParams "c" moved),
      .move (.poll (.call "c")), .move (.poll (.call "d")), .move (.poll (.call "a")),
      .move (.poll .dispatcher), .receive, .look, .move (.poll (.call "b")),
      .move (.poll (.call "c")), .move (.poll .dispatcher), .receive, .look]

def onlooker : Onlooker where
  id := 3
  came := some 0
  seen := some moved

theorem overlapping_agrees :
    Course.Run { world := small.build } overlapping ∧ overlapping.onlooker = some onlooker ∧
      Stage.currentParams overlapping.world = moved ∧ onlooker.seen = some moved := by
  have run : Course.Run { world := small.build } overlapping :=
    Course.run_along (by decide +kernel)
  have agrees : overlapping.Agrees small.build.storedParams := params_agree (by decide) run
  have there : overlapping.onlooker = some onlooker := by decide +kernel
  have stored : overlapping.stored = [moving, moved, moved] := by decide +kernel
  have last : overlapping.world.storedParams = moved := by
    rw [agrees.stored, stored]
    rfl
  have idle : ¬overlapping.world.IsStoring := by
    have none : overlapping.world.calls = [] := by decide +kernel
    rintro ⟨id, params, stage, found, -⟩
    simp [World.call?, none] at found
  have informed : overlapping.IsInformed onlooker :=
    ⟨by decide +kernel, by decide +kernel, by decide +kernel, rfl⟩
  refine ⟨run, there, (agrees.active idle).trans last, ?_⟩
  rcases agrees.seen idle onlooker there informed with seen | ⟨never, -⟩
  · rw [seen, last]
  · cases never

end Scenario.Setup

end Egress
