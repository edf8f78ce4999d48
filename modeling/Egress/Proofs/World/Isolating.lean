import Egress.Proofs.World.Staffing

set_option autoImplicit false

namespace Egress

open Event

namespace Event

structure Subscriber.IsLike (s t : Subscriber) : Prop where
  name : s.name = t.name
  mask : s.mask = t.mask
  waits : ∀ past around k, s.Waits past around k ↔ t.Waits past around k

namespace Subscriber

variable {s t : Subscriber} {around : Surroundings}

theorem IsLike.refl (s : Subscriber) : s.IsLike s := ⟨rfl, rfl, fun _ _ _ => .rfl⟩

theorem IsLike.serve (like : s.IsLike t) (line : List Kind) (past : List Stimulus)
    (handled : List Kind) : s.serve around line past handled = t.serve around line past handled := by
  induction line generalizing past handled with
  | nil => rfl
  | cons k line ih => simp only [Subscriber.serve, like.waits, ih]

theorem IsLike.fate (like : s.IsLike t) (d : Desk) : d.fate s around = d.fate t around := by
  simp only [Desk.fate, like.mask, like.waits, like.serve]

end Subscriber

def Outcome.steady : Outcome → Outcome
  | panics _ => returns
  | outcome => outcome

def Subscriber.steady (s : Subscriber) : Subscriber :=
  { s with
    call := fun _ _ => none
    poll := fun past around k =>
      let answer := s.poll past around k
      { answer with outcome := answer.outcome.steady } }

theorem Subscriber.steady_like (s : Subscriber) : s.steady.IsLike s := by
  refine ⟨rfl, rfl, fun past around k => ?_⟩
  change (s.poll past around k).outcome.steady = .waits ↔ (s.poll past around k).outcome = .waits
  cases (s.poll past around k).outcome <;> simp [Outcome.steady]

theorem Subscriber.steady_calm (s : Subscriber) : s.steady.IsCalm := fun _ _ => rfl

end Event

namespace World

variable {w : World} {i : Nat}

theorem joinFrom_through (room i : Nat) (w : World) (ended : ∀ x ∈ w.workers, x.ended) :
    (joinFrom room i w).2 = none := by
  induction room generalizing i w with
  | zero => rfl
  | succ room ih =>
    unfold joinFrom
    split
    next => rfl
    next x found =>
      have gone := ended x (List.mem_of_getElem? found)
      rw [if_neg (by simp [gone])]
      dsimp only
      split
      next => exact ih _ _ ended
      next => exact ih _ _ ended

end World

namespace Journal

variable {j next last l final : Journal} {i m : Nat}

inductive Deed
  | raise (k : Kind)
  | release (name : String) (permits : Nat)
  | settle
  deriving DecidableEq, Repr

def perform (j : Journal) : Deed → Journal
  | .raise k => j.raise k
  | .release name permits => j.release name permits
  | .settle => j.settle (j.world.toil + 1)

def run (j : Journal) (deeds : List Deed) : Journal := deeds.foldl perform j

-- A play of these deeds, in which all comes to rest in any order where it is left to itself.
inductive Plays : Journal → List Deed → Journal → Prop
  | nil (j : Journal) : Plays j [] j
  | settle {j next last : Journal} {deeds : List Deed} (settles : j.Settles next)
      (later : Plays next deeds last) : Plays j (.settle :: deeds) last
  | perform {j last : Journal} {deed : Deed} {deeds : List Deed} (other : deed ≠ .settle)
      (later : Plays (j.perform deed) deeds last) : Plays j (deed :: deeds) last

theorem Kept.plays (kept : j.Kept) (deeds : List Deed) : Plays j deeds (j.run deeds) := by
  induction deeds generalizing j with
  | nil => exact .nil j
  | cons deed rest ih =>
    cases deed with
    | raise k => exact .perform nofun (ih (kept.raise k))
    | release name permits => exact .perform nofun (ih (kept.release name permits))
    | settle =>
      have settles := settles (j.world.toil + 1) kept (by omega)
      exact .settle settles (ih (settles.kept kept))

theorem Moves.surroundings (moves : j.Moves next) :
    next.world.surroundings = j.world.surroundings := by
  cases moves with
  | turn => rfl
  | @work i => exact j.world.stepWorker_surroundings i

theorem Moves.closed (moves : j.Moves next) : next.world.bus.closed = j.world.bus.closed := by
  cases moves with
  | turn turn => exact turn.closed
  | work can =>
    obtain ⟨_, _, -, -, does, -⟩ := World.stepWorker_does can
    exact does.flags.2.1

structure Attends (j : Journal) (i : Nat) (subscriber : Subscriber) (around : Surroundings)
    (d : Desk) : Prop where
  kept : j.Kept
  opened : j.world.bus.closed = false
  amid : j.world.surroundings = around
  sits : ∃ x, j.world.workers[i]? = some x ∧ x.subscriber = subscriber ∧
    x.Sits j.world.bus (j.handled i) d

variable {subscriber : Subscriber} {around : Surroundings} {d e : Desk}

namespace Attends

theorem handled_eq (attends : j.Attends i subscriber around d) : j.handled i = d.handled := by
  obtain ⟨-, -, -, x, -, -, -, s, -, -, -, -, -, rfl⟩ := attends
  rfl

theorem moves (attends : j.Attends i subscriber around d) (calm : subscriber.IsCalm)
    (moves : j.Moves next) : ∃ e, next.Attends i subscriber around e ∧
      e.fate subscriber around = d.fate subscriber around := by
  obtain ⟨kept, opened, amid, x, found, rfl, sits⟩ := attends
  have sane := kept.manned.sane
  have later := moves.kept kept
  have still := moves.closed.trans opened
  have amid' := moves.surroundings.trans amid
  cases moves with
  | turn turn =>
    obtain ⟨e, sits, same⟩ := sits.turn sane opened turn
    exact ⟨e, ⟨later, still, amid', x, found, rfl, sits⟩, same⟩
  | @work k can =>
    obtain ⟨z, y, there, -, does, deals, workers⟩ := World.stepWorker_does can
    have inside := (List.getElem?_eq_some_iff.mp there).1
    by_cases mine : k = i
    next =>
      subst mine
      obtain rfl := Option.some.inj (there.symm.trans found)
      obtain ⟨e, sits, same⟩ := sits.own sane calm (amid ▸ does)
      refine ⟨e, ⟨later, still, amid', y, ?_, does.subscriber, ?_⟩, same⟩
      · change (j.world.stepWorker k).workers[k]? = some y
        simp [workers, inside]
      · simpa [Journal.work, deals] using sits
    next =>
      have apart : x.subscription ≠ z.subscription := fun same =>
        mine (kept.manned.apart i k x z found there same).symm
      refine ⟨d, ⟨later, still, amid', x, ?_, rfl, ?_⟩, rfl⟩
      · change (j.world.stepWorker k).workers[i]? = some x
        simp [workers, mine, found]
      · simpa [Journal.work, Ne.symm mine] using sits.beside sane does apart

theorem goesOn (attends : j.Attends i subscriber around d) (calm : subscriber.IsCalm)
    (moves : Relation.ReflTransGen Moves j last) :
    ∃ e, last.Attends i subscriber around e ∧
      e.fate subscriber around = d.fate subscriber around := by
  induction moves with
  | refl => exact ⟨d, attends, rfl⟩
  | tail _ moves ih =>
    obtain ⟨e, attends, first⟩ := ih
    obtain ⟨f, attends, later⟩ := attends.moves calm moves
    exact ⟨f, attends, later.trans first⟩

theorem settles (attends : j.Attends i subscriber around d) (calm : subscriber.IsCalm)
    (settles : j.Settles last) : ∃ e, last.Attends i subscriber around e ∧
      e.fate subscriber around = d.fate subscriber around ∧ e.Rests := by
  obtain ⟨moves, still⟩ := settles
  obtain ⟨e, attends, same⟩ := attends.goesOn calm moves
  have ⟨kept, opened, amid, x, found, subscriber, sits⟩ := attends
  have rests := sits.rests (kept.manned.seated i x found) kept.manned.sane opened still.idle
    (still.stuck found)
  exact ⟨e, attends, same, rests⟩

theorem raise (attends : j.Attends i subscriber around d) (k : Kind) :
    (j.raise k).Attends i subscriber around { d with word := d.word.union (.single k) } := by
  obtain ⟨kept, opened, amid, x, found, same, running, s, member, number, held, listed, mask, rfl⟩ :=
    attends
  obtain ⟨subscriptions, raised, closed, -⟩ := j.world.bus.raise_flags k
  have there : s ∈ (j.world.bus.raise k).subscriptions := subscriptions ▸ member
  refine ⟨kept.raise k, closed.trans opened, amid, x, found, same, running, s, there, number, held,
    listed, mask, ?_⟩
  rw [← raised]
  rfl

theorem release (attends : j.Attends i subscriber around d) (name : String) (permits : Nat) :
    (j.release name permits).Attends i subscriber around
      (if subscriber.name = name then d.release permits else d) := by
  obtain ⟨kept, opened, amid, x, found, rfl, sits⟩ := attends
  refine ⟨kept.release name permits, opened, amid,
    Scenario.OnSubscribers.Stage.release name permits x, ?_, ?_, ?_⟩
  · simp only [Journal.release, List.getElem?_map, found, Option.map_some]
  all_goals unfold Scenario.OnSubscribers.Stage.release
  · split <;> rfl
  · split
    next => exact sits.release permits
    next => exact sits

end Attends

-- Two plays of the same deeds, in each of which a worker has the same before it at the start and
-- its calls wait alike. Both come to handle the same.
theorem Plays.alike {other : Subscriber} {deeds : List Deed} (plays : Plays j deeds last)
    (plays' : Plays l deeds final) (calm : subscriber.IsCalm) (calm' : other.IsCalm)
    (like : other.IsLike subscriber) (attends : j.Attends i subscriber around d)
    (also : l.Attends m other around d) : last.handled i = final.handled m := by
  induction plays generalizing l d with
  | nil j =>
    cases plays'
    rw [attends.handled_eq, also.handled_eq]
  | settle settles later ih =>
    cases plays' with
    | perform never => exact absurd rfl never
    | settle settles' later' =>
      obtain ⟨e, attends, same, rests⟩ := attends.settles calm settles
      obtain ⟨f, also, same', rests'⟩ := also.settles calm' settles'
      rw [like.fate, like.fate] at same'
      obtain rfl := rests.unique rests' (same.trans same'.symm)
      exact ih later' attends also
  | @perform j last deed rest never later ih =>
    cases plays' with
    | settle => exact absurd rfl never
    | perform _ later' =>
      cases deed with
      | raise k => exact ih later' (attends.raise k) (also.raise k)
      | release name permits =>
        have also := also.release name permits
        rw [like.name] at also
        exact ih later' (attends.release name permits) also
      | settle => exact absurd rfl never

end Journal

namespace World

variable {raised : Mask} {subscribers : List Subscriber}

structure Fresh (w : World) (raised : Mask) (subscribers : List Subscriber) : Prop where
  sane : w.bus.Sane
  opened : w.bus.closed = false
  raised : w.bus.raised = raised
  roster : w.workers.map (·.subscriber) = subscribers
  seats : ∀ (i : Nat) x, w.workers[i]? = some x →
    x = { subscriber := x.subscriber, subscription := x.subscription } ∧
      { id := x.subscription, mask := x.subscriber.mask } ∈ w.bus.subscriptions
  apart : ∀ (i k : Nat) x y, w.workers[i]? = some x → w.workers[k]? = some y →
    x.subscription = y.subscription → i = k

variable {w : World}

theorem Fresh.addWorker (fresh : w.Fresh raised subscribers) (s : Subscriber) :
    (w.addWorker s).Fresh raised (subscribers ++ [s]) := by
  obtain ⟨sane, opened, raised, roster, seats, apart⟩ := fresh
  have cases {k : Nat} {x : Worker} (found : (w.addWorker s).workers[k]? = some x) :
      w.workers[k]? = some x ∧ x.subscription < w.bus.nextId ∨
        k = w.workers.length ∧ x = { subscriber := s, subscription := w.bus.nextId } := by
    change (w.workers ++ [_])[k]? = some x at found
    rw [List.getElem?_append, List.getElem?_singleton] at found
    split at found
    next => exact .inl ⟨found, sane.fresh _ (seats k x found).2⟩
    next outside =>
      split at found
      next last => exact .inr ⟨by omega, (Option.some.inj found).symm⟩
      next => cases found
  refine ⟨sane.subscribe s.kinds, opened, raised, ?_, fun k x found => ?_,
    fun k l x y one other same => ?_⟩
  · simpa [World.addWorker, spawn] using roster
  · rcases cases found with ⟨was, -⟩ | ⟨-, rfl⟩
    · obtain ⟨fresh, seat⟩ := seats k x was
      exact ⟨fresh, List.mem_append_left _ seat⟩
    · exact ⟨rfl, List.mem_append_right _ (List.mem_singleton_self _)⟩
  · rcases cases one with ⟨was, older⟩ | ⟨rfl, rfl⟩ <;>
      rcases cases other with ⟨was', older'⟩ | ⟨rfl, rfl⟩
    · exact apart k l x y was was' same
    · exact absurd same (Nat.ne_of_lt older)
    · exact absurd same.symm (Nat.ne_of_lt older')
    · rfl

theorem Fresh.staff (fresh : w.Fresh raised subscribers) (more : List Subscriber) :
    (w.staff more).Fresh raised (subscribers ++ more) := by
  induction more generalizing w subscribers with
  | nil => simpa [World.staff] using fresh
  | cons s rest ih => simpa [World.staff] using ih (fresh.addWorker s)

theorem staff_surroundings (w : World) (subscribers : List Subscriber) :
    (w.staff subscribers).surroundings = w.surroundings := by
  induction subscribers generalizing w with
  | nil => rfl
  | cons s rest ih => exact ih (w.addWorker s)

theorem unstaffed_fresh (unstaffed : w.workers = []) (sane : w.bus.Sane)
    (opened : w.bus.closed = false) : w.Fresh w.bus.raised [] := by
  refine ⟨sane, opened, rfl, ?_, ?_, ?_⟩ <;> simp [unstaffed]

end World

namespace Journal

variable {w : World} {raised : Mask} {subscribers : List Subscriber} {j next : Journal} {i : Nat}

theorem start_kept (fresh : (w.staff subscribers).Fresh raised subscribers) :
    (start w subscribers).Kept := by
  obtain ⟨sane, opened, -, -, seats, apart⟩ := fresh
  refine ⟨⟨sane, fun stopped => ?_, apart, fun k x found => ?_⟩, fun k x r found _ => ?_,
    fun k x found _ => ?_⟩
  · have running : (w.staff subscribers).bus.stopped = false := sane.running opened
    exact absurd (running.symm.trans stopped) Bool.false_ne_true
  all_goals obtain ⟨new, seat⟩ := seats k x found
  · rw [new]
    exact ⟨fun _ => ⟨_, seat, rfl, rfl, fun _ => rfl, rfl⟩, nofun, nofun, nofun⟩
  · rw [new]
    rfl
  · have slot : (w.staff subscribers).bus.slotOf x.subscription = none :=
      Bus.slotOf_of_mem sane seat
    rw [show (start w subscribers).world.bus.slotOf x.subscription = none from slot, new]
    rfl

theorem start_attends (fresh : (w.staff subscribers).Fresh raised subscribers) {s : Subscriber}
    (listed : subscribers[i]? = some s) :
    (start w subscribers).Attends i s w.surroundings { word := raised } := by
  have ⟨_, opened, word, roster, seats, _⟩ := fresh
  rw [← roster, List.getElem?_map] at listed
  obtain ⟨x, found, rfl⟩ := Option.map_eq_some_iff.mp listed
  obtain ⟨new, seat⟩ := seats i x found
  refine ⟨start_kept fresh, opened, w.staff_surroundings subscribers, x, found, rfl, ?_, _, seat, rfl,
    rfl, rfl, rfl, ?_⟩
  · rw [new]
  · rw [new, ← word]
    rfl

theorem Happens.roster (happens : j.Happens next) :
    next.world.workers.map (·.subscriber) = j.world.workers.map (·.subscriber) := by
  cases happens with
  | moves moves =>
    cases moves with
    | turn => rfl
    | @work i can =>
      obtain ⟨x, y, found, -, does, -, workers⟩ := World.stepWorker_does can
      have there : (j.world.workers.map (·.subscriber))[i]? = some x.subscriber := by simp [found]
      obtain ⟨inside, same⟩ := List.getElem?_eq_some_iff.mp there
      change (j.world.stepWorker i).workers.map (·.subscriber) = _
      rw [workers, List.map_set, does.subscriber, ← same, List.set_getElem_self]
  | raise | close => rfl
  | release name permits =>
    simp only [Journal.release, List.map_map]
    refine List.map_congr_left fun x _ => ?_
    simp only [Function.comp, Scenario.OnSubscribers.Stage.release]
    split <;> rfl

def Reached (w : World) (subscribers : List Subscriber) (j : Journal) : Prop :=
  Relation.ReflTransGen Happens (start w subscribers) j

section Reached

variable (fresh : (w.staff subscribers).Fresh raised subscribers) (reached : Reached w subscribers j)

include fresh reached

theorem Reached.kept : j.Kept := by
  induction reached with
  | refl => exact start_kept fresh
  | tail _ happens ih => exact happens.kept ih

theorem Reached.roster : j.world.workers.map (·.subscriber) = subscribers := by
  induction reached with
  | refl => exact fresh.roster
  | tail _ happens ih => exact happens.roster.trans ih

theorem Reached.attends (opened : j.world.bus.closed = false) {s : Subscriber}
    (listed : subscribers[i]? = some s) (calm : s.IsCalm) : ∃ d, j.Attends i s w.surroundings d := by
  induction reached with
  | refl => exact ⟨_, start_attends fresh listed⟩
  | tail _ happens ih =>
    cases happens with
    | moves moves =>
      obtain ⟨d, attends⟩ := ih (moves.closed.symm.trans opened)
      obtain ⟨e, attends, -⟩ := attends.moves calm moves
      exact ⟨e, attends⟩
    | raise k =>
      obtain ⟨-, -, closed, -⟩ := Bus.raise_flags _ k
      obtain ⟨d, attends⟩ := ih (closed.symm.trans opened)
      exact ⟨_, attends.raise k⟩
    | release name permits =>
      obtain ⟨d, attends⟩ := ih opened
      exact ⟨_, attends.release name permits⟩
    | close => cases opened

end Reached

-- What a worker was handed it has handled, each kind once and in that order, but for the one in its
-- hand and the one in its slot; and these too, where nothing moves and none of its calls waits. It
-- has handled all that it is owed by then, if the bus is open.
structure Served (j : Journal) (i : Nat) (x : Worker) : Prop where
  accounts : j.handed i =
    j.handled i ++ (x.holding.toList ++ (j.world.bus.slotOf x.subscription).toList)
  heard : ∀ r, x.subscriber = .recorder r → x.heard = j.handled i
  through : j.Still → x.holding = none → j.handled i = j.handed i
  goesOn : j.world.bus.closed = false → x.ended = false ∧ (j.Still → x.holding = none →
    ∃ s ∈ j.world.bus.subscriptions, s.id = x.subscription ∧ s.owed j.world.bus.raised = [])

theorem Kept.through (kept : j.Kept) (still : j.Still) {x : Worker}
    (found : j.world.workers[i]? = some x) (free : x.holding = none) :
    j.world.bus.slotOf x.subscription = none := by
  cases ended : x.ended with
  | true => exact (kept.manned.seated i x found).slot_gone ended
  | false => exact (Worker.Seated.waits (still.stuck found) ended free).1

theorem Reached.served (fresh : (w.staff subscribers).Fresh raised subscribers)
    (reached : Reached w subscribers j) {s : Subscriber} (listed : subscribers[i]? = some s)
    (calm : s.IsCalm) : ∃ x, j.world.workers[i]? = some x ∧ x.subscriber = s ∧ j.Served i x := by
  have kept := reached.kept fresh
  have roster := reached.roster fresh
  have worker := listed
  rw [← roster, List.getElem?_map] at worker
  obtain ⟨x, found, rfl⟩ := Option.map_eq_some_iff.mp worker
  have accounts := kept.accounts i x found calm
  refine ⟨x, found, rfl, accounts, fun r kind => kept.heard i x r found kind, fun still free => ?_,
    fun opened => ?_⟩
  · rw [accounts, free, kept.through still found free]
    simp
  · obtain ⟨d, -, -, -, y, there, -, sits⟩ := reached.attends fresh opened listed calm
    obtain rfl := Option.some.inj (there.symm.trans found)
    refine ⟨sits.1, fun still free => ?_⟩
    have rests := sits.rests (kept.manned.seated i y found) kept.manned.sane opened still.idle
      (still.stuck found)
    exact sits.nothing rests free

-- Each subscriber is left to itself. Whatever is raised and released, in a play with all the others
-- it handles what it handles as the only one, also if there its calls do not panic. It handles what
-- it is handed, wherever all has come to. A poll of the dispatcher or of a worker is some moves,
-- and nothing moves where there is nothing to poll. All comes to rest, whatever goes first; and
-- once the bus is closed, only those workers are left whose calls wait at their gates.
structure Isolates (w : World) (subscribers : List Subscriber) : Prop where
  played : ∀ deeds, ∃ last, Plays (start w subscribers) deeds last
  alone : ∀ (i : Nat) s, subscribers[i]? = some s → s.IsCalm → ∀ v : World, v.workers = [] →
    v.bus.Reaches → v.bus.closed = false → v.bus.raised = w.bus.raised →
    v.surroundings = w.surroundings → ∀ deeds last only,
    Plays (start w subscribers) deeds last → Plays (start v [s]) deeds only →
    last.handled i = only.handled 0
  unharmed : ∀ (i : Nat) s, subscribers[i]? = some s → s.IsCalm → ∀ v : World, v.workers = [] →
    v.bus.Reaches → v.bus.closed = false → v.bus.raised = w.bus.raised →
    v.surroundings = w.surroundings → ∀ deeds last only,
    Plays (start w subscribers) deeds last → Plays (start v [s.steady]) deeds only →
    last.handled i = only.handled 0
  served : ∀ j, Reached w subscribers j → ∀ (i : Nat) s, subscribers[i]? = some s → s.IsCalm →
    ∃ x, j.world.workers[i]? = some x ∧ x.subscriber = s ∧ j.Served i x
  polled : ∀ j, Reached w subscribers j → ∀ t : Task, (t = .dispatcher ∨ ∃ i, t = .worker i) →
    ∃ next, Relation.ReflTransGen Moves j next ∧ next.world = j.world.poll t
  still : ∀ j, Reached w subscribers j → (j.Still ↔
    j.world.canPoll .dispatcher = false ∧ ∀ i, j.world.canPoll (.worker i) = false)
  rests : ∀ j, Reached w subscribers j →
    Acc (fun next j => Moves j next) j ∧ ∃ last, j.Settles last
  ends : ∀ j, Reached w subscribers j → j.world.bus.closed → j.Still → ∀ x ∈ j.world.workers,
    x.ended ∨ ∃ k, x.holding = some k ∧ x.HasWaited k
  joined : ∀ j, Reached w subscribers j → j.world.bus.closed → j.Still →
    (∀ x ∈ j.world.workers, x.holding = none) → (j.world.join 0).2 = none

theorem Kept.ends (kept : j.Kept) (closed : j.world.bus.closed) (still : j.Still) {x : Worker}
    (member : x ∈ j.world.workers) :
    x.ended ∨ ∃ k, x.holding = some k ∧ x.HasWaited k := by
  obtain ⟨i, found⟩ := List.mem_iff_getElem?.mp member
  have stuck := still.stuck found
  cases holding : x.holding with
  | none => exact .inl (Worker.Seated.ends kept.manned.deserted closed still.idle stuck holding)
  | some k =>
    cases ended : x.ended with
    | true => exact .inl rfl
    | false =>
      exact .inr ⟨k, rfl, (kept.manned.seated i x found).stuck stuck ended holding⟩

theorem workers_isolated {w : World} (unstaffed : w.workers = []) (reached : w.bus.Reaches)
    (opened : w.bus.closed = false) (subscribers : List Subscriber) : Isolates w subscribers := by
  have staffed {v : World} (unstaffed : v.workers = []) (reached : v.bus.Reaches)
      (opened : v.bus.closed = false) (subscribers : List Subscriber) :
      (v.staff subscribers).Fresh v.bus.raised subscribers :=
    (World.unstaffed_fresh unstaffed reached.sane opened).staff subscribers
  have fresh := staffed unstaffed reached opened subscribers
  have like {i : Nat} {s t : Subscriber} (listed : subscribers[i]? = some s) (calm : s.IsCalm)
      (calm' : t.IsCalm) (like : t.IsLike s) {v : World} (unstaffed' : v.workers = [])
      (reached' : v.bus.Reaches) (opened' : v.bus.closed = false)
      (same : v.bus.raised = w.bus.raised) (amid : v.surroundings = w.surroundings)
      {deeds : List Deed} {last only : Journal} (plays : Plays (start w subscribers) deeds last)
      (lone : Plays (start v [t]) deeds only) :
      last.handled i = only.handled 0 := by
    have fresh' := staffed unstaffed' reached' opened' [t]
    rw [same] at fresh'
    exact plays.alike lone calm calm' like (start_attends fresh listed)
      (amid ▸ start_attends fresh' rfl)
  exact
    { played := fun deeds => ⟨_, (start_kept fresh).plays deeds⟩
      alone := fun i s listed calm v unstaffed' reached' opened' same amid deeds last only plays
          lone => like listed calm calm (.refl s) unstaffed' reached' opened' same amid plays lone
      unharmed := fun i s listed calm v unstaffed' reached' opened' same amid deeds last only plays
          lone => like listed calm s.steady_calm s.steady_like unstaffed' reached' opened' same amid
            plays lone
      served := fun j reached i s listed calm => reached.served fresh listed calm
      polled := fun j reached => (reached.kept fresh).polls
      still := fun j reached => (reached.kept fresh).still_iff
      rests := fun j reached =>
        ⟨(reached.kept fresh).rests, _, settles _ (reached.kept fresh) (Nat.lt_succ_self _)⟩
      ends := fun j reached closed still x member => (reached.kept fresh).ends closed still member
      joined := fun j reached closed still free => by
        refine World.joinFrom_through _ _ _ fun x member => ?_
        rcases (reached.kept fresh).ends closed still member with ended | ⟨k, holds, -⟩
        · exact ended
        · simp [free x member] at holds }

def flaky : Subscriber where
  name := "flaky"
  kinds := [.sitesChanged]
  poll past _ k :=
    let before := past.any fun | .polled .. => true | _ => false
    { outcome := if before then .returns else .panics (.text "blew up"), heard := [k] }

-- One never returns from its first call, one panics before it has begun with it, one panics and
-- waits for permits, and one panics only once. The last one is the writer of the log.
def crew : List Subscriber :=
  [.recorder { name := "stuck", gated := true },
   .recorder { name := "rash", early := true, panics := [(.keysChanged, .other)] },
   .recorder { name := "clerk", kinds := [.sitesChanged, .keysChanged], gated := true,
               panics := [(.keysChanged, .text "lost the key")] },
   flaky, .logWriter]

def shift : List Deed :=
  [.raise .keysChanged, .settle, .raise .keysChanged, .raise .sitesChanged, .release "clerk" 1,
   .settle, .raise .sitesChanged, .settle, .raise .keysChanged, .release "clerk" 3, .settle]

def ground : World := ({} : Scenario.Setup).base

theorem crew_isolated : ground.workers = [] ∧ ground.bus.Reaches ∧ ground.bus.closed = false ∧
    Isolates ground crew ∧ ((start ground crew).run shift).handled 0 = [] ∧
    ((start ground crew).run shift).handled 2 =
      [.keysChanged, .sitesChanged, .keysChanged, .sitesChanged] ∧
    ((start ground crew).run shift).handled 3 = [.sitesChanged, .sitesChanged] := by
  have reached : ground.bus.Reaches := .refl
  exact ⟨rfl, reached, rfl, workers_isolated rfl reached rfl crew, by decide +kernel,
    by decide +kernel, by decide +kernel⟩

end Journal

end Egress
