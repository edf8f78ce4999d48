import Egress.Proofs.Event.Effort
import Egress.Scenario.OnSubscribers

set_option autoImplicit false

namespace Egress

open Event

namespace World

variable {w : World} {i k : Nat}

def staff (w : World) (subscribers : List Subscriber) : World := subscribers.foldl addWorker w

def dealsWith (w : World) (i : Nat) : List Kind :=
  match w.workers[i]?, (w.stepWorker i).workers[i]? with
  | some x, some y => x.handles y w.bus
  | _, _ => []

def comesTo (w : World) (next : Bus) (i : Nat) : List Kind :=
  match w.workers[i]? with
  | some x => w.bus.given next x.subscription
  | none => []

theorem stepWorker_does (can : w.canStepWorker i) : ∃ x y, w.workers[i]? = some x ∧
    x.ended = false ∧ x.Does w.bus w.surroundings y (w.stepWorker i).bus ∧
    w.dealsWith i = x.handles y w.bus ∧ (w.stepWorker i).workers = w.workers.set i y := by
  unfold canStepWorker at can
  cases found : w.workers[i]? with
  | none => simp [found] at can
  | some x =>
    simp only [found, Option.any_some] at can
    obtain ⟨running, does⟩ := Worker.step_does can w.surroundings
    obtain ⟨inside, there⟩ := List.getElem?_eq_some_iff.mp found
    refine ⟨x, (x.step w.surroundings w.bus).1, rfl, running, ?_, ?_, ?_⟩
    · simpa [stepWorker, found] using does
    · simp [dealsWith, stepWorker, inside, there]
    · simp [stepWorker, inside, there]

theorem stepWorker_surroundings (w : World) (i : Nat) :
    (w.stepWorker i).surroundings = w.surroundings := by
  unfold stepWorker
  split <;> rfl

theorem replaced {l : List Worker} {y z : Worker} (there : (l.set i y)[k]? = some z) :
    k = i ∧ z = y ∨ k ≠ i ∧ l[k]? = some z := by
  rw [List.getElem?_set] at there
  split at there
  next hit =>
    split at there
    next => exact .inl ⟨hit.symm, (Option.some.inj there).symm⟩
    next => cases there
  next other => exact .inr ⟨Ne.symm other, there⟩

-- Workers that serve their subscribers are each seated at a subscription of their own. Once the
-- dispatcher has stopped, the bus knows nobody any more.
structure Manned (w : World) : Prop where
  sane : w.bus.Sane
  deserted : w.bus.stopped → ∀ s ∈ w.bus.subscriptions, s.listed = false
  apart : ∀ (i k : Nat) x y, w.workers[i]? = some x → w.workers[k]? = some y →
    x.subscription = y.subscription → i = k
  seated : ∀ (i : Nat) x, w.workers[i]? = some x → x.Seated w.bus

namespace Manned

theorem turn (manned : w.Manned) {b : Bus} (turn : w.bus.Turn b) :
    World.Manned { w with bus := b } where
  sane := manned.sane.turn turn
  deserted stopped t member := by
    obtain ⟨s, -, -, -, unlisted⟩ := turn.origin member
    exact unlisted stopped
  apart := manned.apart
  seated i x found := (manned.seated i x found).turn manned.sane turn

theorem stepWorker (manned : w.Manned) (can : w.canStepWorker i) : (w.stepWorker i).Manned := by
  obtain ⟨x, y, found, running, does, -, workers⟩ := stepWorker_does can
  obtain ⟨sane, deserted, apart, seated⟩ := manned
  have number {k : Nat} {z : Worker} (there : (w.stepWorker i).workers[k]? = some z) :
      ∃ u, w.workers[k]? = some u ∧ u.subscription = z.subscription := by
    rcases replaced (workers ▸ there) with ⟨rfl, rfl⟩ | ⟨-, was⟩
    · exact ⟨x, found, does.subscription.symm⟩
    · exact ⟨z, was, rfl⟩
  refine ⟨does.uses.sane sane, fun stopped t member => ?_, fun k l u v one other same => ?_,
    fun k z there => ?_⟩
  · obtain ⟨s, was, listed, -⟩ := does.origin member
    obtain ⟨-, -, still⟩ := does.flags
    exact listed.trans (deserted (still ▸ stopped) s was)
  · obtain ⟨a, first, mine⟩ := number one
    obtain ⟨b, second, yours⟩ := number other
    exact apart k l a b first second (mine.trans (same.trans yours.symm))
  · rcases replaced (workers ▸ there) with ⟨rfl, rfl⟩ | ⟨other, was⟩
    · exact (seated k x found).own running does
    · refine (seated k z was).beside sane does fun same => other ?_
      exact apart k i z x was found same

theorem told (manned : w.Manned) {b : Bus} (sane : b.Sane)
    (subscriptions : b.subscriptions = w.bus.subscriptions) (stopped : b.stopped = w.bus.stopped) :
    World.Manned { w with bus := b } where
  sane := sane
  deserted still t member := manned.deserted (stopped ▸ still) t (subscriptions ▸ member)
  apart := manned.apart
  seated i x found := by
    obtain ⟨present, gone, asleep, awake⟩ := manned.seated i x found
    refine ⟨fun running => ?_, fun ended => ?_, asleep, awake⟩
    · rw [subscriptions, stopped]
      exact present running
    · rw [subscriptions]
      exact gone ended

end Manned

def toil (w : World) : Nat := 2 * w.bus.toil + (w.workers.map Worker.toil).sum

theorem toil_set {l : List Worker} {x : Worker} (found : l[i]? = some x) (y : Worker) :
    ((l.set i y).map Worker.toil).sum + x.toil = (l.map Worker.toil).sum + y.toil := by
  induction l generalizing i with
  | nil => simp at found
  | cons z rest ih =>
    cases i with
    | zero =>
      obtain rfl : z = x := by simpa using found
      simp only [List.set_cons_zero, List.map_cons, List.sum_cons]
      omega
    | succ i =>
      have later := ih (i := i) (by simpa using found)
      simp only [List.set_cons_succ, List.map_cons, List.sum_cons]
      omega

end World

-- The world, with what has been put into the slot of each worker and what each has dealt with.
structure Journal where
  world : World
  handed : Nat → List Kind := fun _ => []
  handled : Nat → List Kind := fun _ => []

namespace Journal

variable {j next last : Journal} {i : Nat}

def start (w : World) (subscribers : List Subscriber) : Journal := { world := w.staff subscribers }

def dispatch (j : Journal) (b : Bus) : Journal :=
  { j with
    world := { j.world with bus := b }
    handed := fun i => j.handed i ++ j.world.comesTo b i }

def work (j : Journal) (i : Nat) : Journal :=
  { j with
    world := j.world.stepWorker i
    handled := fun k => j.handled k ++ if k = i then j.world.dealsWith i else [] }

def raise (j : Journal) (k : Kind) : Journal := { j with world := j.world.raise k }

def release (j : Journal) (name : String) (permits : Nat) : Journal :=
  { j with world := { j.world with
      workers := j.world.workers.map (Scenario.OnSubscribers.Stage.release name permits) } }

def close (j : Journal) : Journal := { j with world := { j.world with bus := j.world.bus.close } }

-- Something happens by itself: a turn of the dispatcher, whomever it serves, or a step of a worker
-- that can take one.
inductive Moves (j : Journal) : Journal → Prop
  | turn {b : Bus} (turn : j.world.bus.Turn b) : Moves j (j.dispatch b)
  | work {i : Nat} (can : j.world.canStepWorker i) : Moves j (j.work i)

inductive Happens (j : Journal) : Journal → Prop
  | moves {next : Journal} (moves : j.Moves next) : Happens j next
  | raise (k : Kind) : Happens j (j.raise k)
  | release (name : String) (permits : Nat) : Happens j (j.release name permits)
  | close : Happens j j.close

def Still (j : Journal) : Prop := ∀ next, ¬j.Moves next

def Settles (j last : Journal) : Prop := Relation.ReflTransGen Moves j last ∧ last.Still

theorem Still.idle (still : j.Still) : j.world.bus.Idle := fun _ turn => still _ (.turn turn)

theorem Still.stuck (still : j.Still) {x : Worker} (found : j.world.workers[i]? = some x) :
    x.canStep j.world.bus = false := by
  by_contra can
  exact still _ (.work (i := i) (by simpa [World.canStepWorker, found] using can))

structure Kept (j : Journal) : Prop where
  manned : j.world.Manned
  heard : ∀ (i : Nat) x r, j.world.workers[i]? = some x → x.subscriber = .recorder r →
    x.heard = j.handled i
  accounts : ∀ (i : Nat) x, j.world.workers[i]? = some x → x.subscriber.IsCalm →
    j.handed i = j.handled i ++ (x.holding.toList ++ (j.world.bus.slotOf x.subscription).toList)

theorem Kept.dispatch (kept : j.Kept) {b : Bus} (turn : j.world.bus.Turn b) :
    (j.dispatch b).Kept where
  manned := kept.manned.turn turn
  heard := kept.heard
  accounts i x found calm := by
    have given := (kept.manned.seated i x found).given kept.manned.sane turn
    have comes : j.world.comesTo b i = j.world.bus.given b x.subscription := by
      simp only [World.comesTo, show j.world.workers[i]? = some x from found]
    change j.handed i ++ j.world.comesTo b i =
      j.handled i ++ (x.holding.toList ++ (b.slotOf x.subscription).toList)
    rw [comes, given, kept.accounts i x found calm]
    simp

theorem Kept.work (kept : j.Kept) (can : j.world.canStepWorker i) : (j.work i).Kept := by
  obtain ⟨x, y, found, running, does, deals, workers⟩ := World.stepWorker_does can
  have seated := kept.manned.seated i x found
  have mine : (j.work i).handled i = j.handled i ++ x.handles y j.world.bus := by
    simp [Journal.work, deals]
  have others {k : Nat} (other : k ≠ i) : (j.work i).handled k = j.handled k := by
    simp [Journal.work, other]
  refine ⟨kept.manned.stepWorker can, fun k z r there kind => ?heard, fun k z there calm => ?accounts⟩
  case heard =>
    rcases World.replaced (workers ▸ there) with ⟨rfl, rfl⟩ | ⟨other, was⟩
    · rw [does.subscriber] at kind
      rw [mine, Worker.Seated.heard kind running does, kept.heard k x r found kind]
    · rw [others other, kept.heard k z r was kind]
  case accounts =>
    rcases World.replaced (workers ▸ there) with ⟨rfl, rfl⟩ | ⟨other, was⟩
    · rw [does.subscriber] at calm
      have account := kept.accounts k x found calm
      rw [Worker.Seated.accounts calm running does] at account
      rw [mine, List.append_assoc]
      exact account
    · have apart (same : z.subscription = x.subscription) : k = i :=
        kept.manned.apart k i z x was found same
      have slot := (kept.manned.seated k z was).slot_beside kept.manned.sane does
        fun same => other (apart same)
      rw [others other, show (j.work i).world.bus.slotOf z.subscription = _ from slot]
      exact kept.accounts k z was calm

theorem Kept.told (kept : j.Kept) {b : Bus} (sane : b.Sane)
    (subscriptions : b.subscriptions = j.world.bus.subscriptions)
    (stopped : b.stopped = j.world.bus.stopped) :
    Kept { j with world := { j.world with bus := b } } where
  manned := kept.manned.told sane subscriptions stopped
  heard := kept.heard
  accounts i x found calm := by
    have slot : b.slotOf x.subscription = j.world.bus.slotOf x.subscription := by
      unfold Bus.slotOf Bus.find?
      rw [subscriptions]
    change j.handed i = j.handled i ++ (x.holding.toList ++ (b.slotOf x.subscription).toList)
    rw [slot]
    exact kept.accounts i x found calm

theorem Kept.raise (kept : j.Kept) (k : Kind) : (j.raise k).Kept := by
  obtain ⟨subscriptions, -, -, stopped⟩ := j.world.bus.raise_flags k
  exact kept.told (kept.manned.sane.raise k) subscriptions stopped

theorem Kept.close (kept : j.Kept) : j.close.Kept := kept.told kept.manned.sane.close rfl rfl

theorem release_worker {name : String} {permits : Nat} {x : Worker}
    (found : (j.release name permits).world.workers[i]? = some x) :
    ∃ z, j.world.workers[i]? = some z ∧
      (x = z ∧ z.subscriber.name ≠ name ∨ x = z.release permits ∧ z.subscriber.name = name) := by
  simp only [Journal.release, List.getElem?_map] at found
  obtain ⟨z, was, rfl⟩ := Option.map_eq_some_iff.mp found
  refine ⟨z, was, ?_⟩
  unfold Scenario.OnSubscribers.Stage.release
  split
  next named => exact .inr ⟨rfl, named⟩
  next other => exact .inl ⟨rfl, other⟩

theorem Kept.release (kept : j.Kept) (name : String) (permits : Nat) :
    (j.release name permits).Kept := by
  obtain ⟨⟨sane, deserted, apart, seated⟩, heard, accounts⟩ := kept
  refine ⟨⟨sane, deserted, fun k l u v one other same => ?_, fun k x found => ?_⟩,
    fun k x r found kind => ?_, fun k x found calm => ?_⟩
  · obtain ⟨a, first, mine⟩ := release_worker one
    obtain ⟨b, second, yours⟩ := release_worker other
    refine apart k l a b first second ?_
    rcases mine with ⟨rfl, -⟩ | ⟨rfl, -⟩ <;> rcases yours with ⟨rfl, -⟩ | ⟨rfl, -⟩ <;> exact same
  all_goals obtain ⟨z, was, ⟨rfl, -⟩ | ⟨rfl, -⟩⟩ := release_worker found
  · exact seated k x was
  · exact (seated k z was).release permits
  · exact heard k x r was kind
  · exact heard k z r was kind
  · exact accounts k x was calm
  · exact accounts k z was calm

theorem Moves.kept (moves : j.Moves next) (kept : j.Kept) : next.Kept := by
  cases moves with
  | turn turn => exact kept.dispatch turn
  | work can => exact kept.work can

theorem Happens.kept (happens : j.Happens next) (kept : j.Kept) : next.Kept := by
  cases happens with
  | moves moves => exact moves.kept kept
  | raise k => exact kept.raise k
  | release name permits => exact kept.release name permits
  | close => exact kept.close

theorem Kept.moved (kept : j.Kept) (moves : Relation.ReflTransGen Moves j next) : next.Kept := by
  induction moves with
  | refl => exact kept
  | tail _ moves ih => exact moves.kept ih

theorem turns_move {n : Nat} {b : Bus} (turns : Bus.Turns n j.world.bus b) :
    ∃ next, Relation.ReflTransGen Moves j next ∧ next.world = { j.world with bus := b } := by
  generalize start : j.world.bus = a at turns
  induction turns generalizing j with
  | none => exact ⟨j, .refl, by rw [← start]⟩
  | more first _ ih =>
    subst start
    obtain ⟨next, moves, same⟩ := ih (j := j.dispatch _) rfl
    exact ⟨next, .head (.turn first) moves, same⟩

theorem works_move (i : Nat) (rounds : List Nat) (j : Journal) :
    ∃ next, Relation.ReflTransGen Moves j next ∧ next.world = rounds.foldl
      (fun w _ => if w.canStepWorker i then w.stepWorker i else w) j.world := by
  induction rounds generalizing j with
  | nil => exact ⟨j, .refl, rfl⟩
  | cons round rest ih =>
    rw [List.foldl_cons]
    by_cases can : j.world.canStepWorker i
    next =>
      obtain ⟨next, moves, same⟩ := ih (j.work i)
      rw [if_pos can]
      exact ⟨next, .head (.work can) moves, same⟩
    next =>
      rw [if_neg can]
      exact ih j

-- A poll of the dispatcher or of a worker is a few moves, one after the other.
theorem Kept.polls (kept : j.Kept) (t : Task) (own : t = .dispatcher ∨ ∃ i, t = .worker i) :
    ∃ next, Relation.ReflTransGen Moves j next ∧ next.world = j.world.poll t := by
  rcases own with rfl | ⟨i, rfl⟩
  · obtain ⟨⟨n, turns⟩, -⟩ := (kept.manned.sane.rests.agrees _).mpr rfl
    exact turns_move turns
  · exact works_move i (List.range 3) j

theorem Kept.still_iff (kept : j.Kept) : j.Still ↔
    j.world.canPoll .dispatcher = false ∧ ∀ i, j.world.canPoll (.worker i) = false := by
  have idle : j.world.bus.Idle ↔ j.world.canPoll .dispatcher = false := kept.manned.sane.idle_iff
  rw [← idle]
  constructor
  · refine fun still => ⟨still.idle, fun i => ?_⟩
    by_contra can
    exact still _ (.work (by simpa [World.canPoll] using can))
  · rintro ⟨idle, waits⟩ next moves
    cases moves with
    | turn turn => exact idle _ turn
    | @work i can =>
      have stuck : j.world.canStepWorker i = false := waits i
      rw [stuck] at can
      cases can

theorem Moves.toil (moves : j.Moves next) (kept : j.Kept) : next.world.toil < j.world.toil := by
  cases moves with
  | @turn b turn =>
    have less : 2 * b.toil < 2 * j.world.bus.toil := by
      have less := turn.toil kept.manned.sane
      omega
    exact Nat.add_lt_add_right less _
  | @work i can =>
    obtain ⟨x, y, found, running, does, -, workers⟩ := World.stepWorker_does can
    have less := does.toil running
    have others := World.toil_set found y
    change 2 * (j.world.stepWorker i).bus.toil +
      ((j.world.stepWorker i).workers.map Worker.toil).sum < _
    rw [workers]
    unfold World.toil
    omega

theorem Kept.rests (kept : j.Kept) : Acc (fun next j => Moves j next) j := by
  generalize bound : j.world.toil = n
  induction n using Nat.strong_induction_on generalizing j with
  | _ n ih =>
    subst bound
    exact .intro j fun next moves => ih _ (moves.toil kept) (moves.kept kept) rfl

def turn? (j : Journal) : Option Journal :=
  match j.world.bus.turn? with
  | some b => some (j.dispatch b)
  | none => ((List.range j.world.workers.length).find? (j.world.canStepWorker ·)).map j.work

def settle : Nat → Journal → Journal
  | 0, j => j
  | n + 1, j =>
    match j.turn? with
    | some next => settle n next
    | none => j

theorem moves_of_turn? (turn : j.turn? = some next) : j.Moves next := by
  unfold turn? at turn
  split at turn
  next b found =>
    cases turn
    exact .turn (Bus.turn_of_turn? found)
  next =>
    obtain ⟨i, found, rfl⟩ := Option.map_eq_some_iff.mp turn
    exact .work (List.find?_some found)

theorem still_of_turn? (waits : j.turn? = none) : j.Still := by
  intro next moves
  unfold turn? at waits
  split at waits
  next => cases waits
  next idle =>
    cases moves with
    | turn turn => exact Bus.idle_of_turn? idle _ turn
    | @work i can =>
      obtain ⟨x, -, found, -⟩ := World.stepWorker_does can
      have inside := (List.getElem?_eq_some_iff.mp found).1
      have stuck := List.find?_eq_none.mp (Option.map_eq_none_iff.mp waits) i
        (List.mem_range.mpr inside)
      exact stuck can

theorem settles (fuel : Nat) (kept : j.Kept) (enough : j.world.toil < fuel) :
    j.Settles (settle fuel j) := by
  induction fuel generalizing j with
  | zero => omega
  | succ fuel ih =>
    unfold settle
    split
    next next turn =>
      have moves := moves_of_turn? turn
      have less := moves.toil kept
      obtain ⟨later, still⟩ := ih (moves.kept kept) (by omega)
      exact ⟨.head moves later, still⟩
    next waits => exact ⟨.refl, still_of_turn? waits⟩

theorem Settles.kept (settles : j.Settles last) (kept : j.Kept) : last.Kept :=
  kept.moved settles.1

end Journal

end Egress
