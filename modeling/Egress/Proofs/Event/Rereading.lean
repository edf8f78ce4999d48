import Egress.Proofs.Event.Delivering
import Egress.World.State

set_option autoImplicit false

namespace Egress.Event

open Happening Stats

-- Reads everything when it comes, and again what a kind that it hears is about. The counters are
-- read one by one.
structure Reader where
  id : Nat
  mask : Mask
  unread : List Counter := Counter.all
  unlooked : Bool := true
  counters : Counters := {}
  connectivity : Connectivity := {}
  deriving DecidableEq, Repr

def Reader.hear (r : Reader) : Kind → Reader
  | .countersChanged => { r with unread := Counter.all }
  | .connStateChanged => { r with unlooked := true }
  | _ => r

def Reader.read (r : Reader) (counters : Counters) (c : Counter) : Reader :=
  { r with
    counters := r.counters.set c (counters.get c)
    unread := r.unread.filter fun other => other != c }

def Reader.look (r : Reader) (connectivity : Connectivity) : Reader :=
  { r with connectivity, unlooked := false }

structure Board where
  exchange : Exchange := {}
  counters : Counters := {}
  connectivity : Connectivity := {}
  -- So many changes of a counter have still to be raised.
  adding : Nat := 0
  reader : Option Reader := none
  deriving DecidableEq, Repr

def Act.subscription? : Act → Option Nat
  | unsubscribe id | drop id | receive id => some id
  | _ => none

namespace Board

inductive Deed
  | other (a : Act)
  | add (c : Counter) (n : Int32)
  | announce
  | set (state : TunnelState) (info : String)
  | subscribe (kinds : List Kind)
  | receive
  | read (c : Counter)
  | look

def act (b : Board) : Deed → Board
  | .other a => { b with exchange := b.exchange.act a }
  | .add c n => { b with counters := b.counters.add c n, adding := b.adding + 1 }
  | .announce =>
    { b with exchange := b.exchange.act (.mark .countersChanged), adding := b.adding - 1 }
  | .set state info =>
    match b.connectivity.set? state info with
    | some connectivity =>
      { b with connectivity, exchange := b.exchange.act (.mark .connStateChanged) }
    | none => b
  | .subscribe kinds =>
    { b with
      exchange := b.exchange.act (.subscribe kinds)
      reader := some { id := b.exchange.bus.nextId, mask := .ofKinds kinds } }
  | .receive =>
    match b.reader with
    | some r =>
      { b with
        exchange := b.exchange.act (.receive r.id)
        reader :=
          match (b.exchange.bus.receive r.id).2 with
          | .kind k => some (r.hear k)
          | _ => some r }
    | none => b
  | .read c => { b with reader := b.reader.map (·.read b.counters c) }
  | .look => { b with reader := b.reader.map (·.look b.connectivity) }

def allows (b : Board) : Deed → Prop
  | .other a => b.exchange.allows a ∧ ∀ r ∈ b.reader, a.subscription? ≠ some r.id
  | .announce => 0 < b.adding
  | .subscribe _ => b.reader = none
  | .receive => ∃ r ∈ b.reader, b.exchange.bus.holds r.id
  | .add _ _ | .set _ _ | .read _ | .look => True

instance (b : Board) (d : Deed) : Decidable (b.allows d) :=
  match d with
  | .other _ => inferInstanceAs (Decidable (_ ∧ _))
  | .announce => inferInstanceAs (Decidable (0 < b.adding))
  | .subscribe _ => inferInstanceAs (Decidable (b.reader = none))
  | .receive => inferInstanceAs (Decidable (∃ r ∈ b.reader, b.exchange.bus.holds r.id = true))
  | .add _ _ | .set _ _ | .read _ | .look => .isTrue trivial

def Goes (b next : Board) : Prop := ∃ d, b.allows d ∧ next = b.act d

abbrev Run : Board → Board → Prop := Relation.ReflTransGen Goes

def Reaches (b : Board) : Prop := Run {} b

def along (b : Board) : List Deed → Board
  | [] => b
  | d :: rest => (b.act d).along rest

def Admits (b : Board) : List Deed → Prop
  | [] => True
  | d :: rest => b.allows d ∧ (b.act d).Admits rest

instance admitsDecidable (b : Board) : (path : List Deed) → Decidable (b.Admits path)
  | [] => .isTrue trivial
  | d :: rest =>
    have := admitsDecidable (b.act d) rest
    inferInstanceAs (Decidable (_ ∧ _))

theorem run_along {b : Board} {path : List Deed} (admitted : b.Admits path) :
    Run b (b.along path) := by
  induction path generalizing b with
  | nil => exact .refl
  | cons d rest ih =>
    obtain ⟨allowed, later⟩ := admitted
    exact .head ⟨d, allowed, rfl⟩ (ih later)

def Outstanding (b : Board) (r : Reader) (k : Kind) : Prop :=
  b.exchange.bus.raised.contains k ∨
    ∃ s ∈ b.exchange.bus.find? r.id, s.pending.contains k ∨ s.slot = some k

instance (b : Board) (r : Reader) (k : Kind) : Decidable (b.Outstanding r k) :=
  inferInstanceAs (Decidable (_ ∨ ∃ s ∈ _, _ ∨ _))

def Unanswered (b : Board) (r : Reader) (k : Kind) : Prop :=
  .raised k ∈ unanswered r.id k b.exchange.history

-- What the reader has not read anew is what it has read, or there is a raise that tells it so, or
-- there will be one.
structure Informs (b : Board) (r : Reader) : Prop where
  came : ∃ start, .subscribed r.id r.mask start ∈ b.exchange.history
  stays : .left r.id ∉ b.exchange.history
  counters : 0 < b.adding ∨ b.Unanswered r .countersChanged ∨
    ∀ c, c ∈ r.unread ∨ r.counters.get c = b.counters.get c
  connectivity : b.Unanswered r .connStateChanged ∨ r.unlooked ∨ r.connectivity = b.connectivity

variable {b next : Board} {r : Reader} {k : Kind}

def Quiet (id : Nat) (history later : List Happening) : Prop :=
  later = history ∨ ∃ e, later = e :: history ∧
    e.isComingOf id = false ∧ (∀ k, e ≠ .received id k) ∧ e ≠ .left id

theorem quiet_mark (x : Exchange) (k : Kind) (id : Nat) :
    Quiet id x.history (x.act (.mark k)).history :=
  .inr ⟨_, rfl, rfl, fun _ => Happening.noConfusion, Happening.noConfusion⟩

theorem quiet_other {x : Exchange} {a : Act} {id : Nat} (known : id < x.bus.nextId)
    (own : a.subscription? ≠ some id) :
    Quiet id x.history (x.act a).history := by
  cases a with
  | mark k => exact quiet_mark x k id
  | subscribe kinds =>
    refine .inr ⟨_, rfl, ?_, fun _ => Happening.noConfusion, Happening.noConfusion⟩
    simpa [isComingOf, Bus.subscribe] using Nat.ne_of_gt known
  | unsubscribe other =>
    exact .inr ⟨_, rfl, rfl, fun _ => Happening.noConfusion, fun same =>
      own (congrArg some (Happening.left.inj same))⟩
  | drop other =>
    exact .inr ⟨_, rfl, rfl, fun _ => Happening.noConfusion, fun same =>
      own (congrArg some (Happening.left.inj same))⟩
  | receive other =>
    unfold Exchange.act
    dsimp only
    split
    · exact .inr ⟨_, rfl, rfl, fun k same =>
        own (congrArg some (Happening.received.inj same).1), Happening.noConfusion⟩
    · exact .inl rfl
  | call | absorb | arm | wake | hand | forget | clear => exact .inl rfl

theorem Quiet.unanswered (quiet : Quiet r.id b.exchange.history next.exchange.history)
    (before : b.Unanswered r k) : next.Unanswered r k := by
  unfold Unanswered
  rcases quiet with same | ⟨e, more, later, receipt, -⟩
  · rw [same]
    exact before
  · rw [more, unanswered_cons later (receipt k)]
    exact List.mem_cons_of_mem _ before

theorem unanswered_mark (history : next.exchange.history = .raised k :: b.exchange.history) :
    next.Unanswered r k := by
  rw [Unanswered, history, unanswered_cons rfl Happening.noConfusion]
  exact List.mem_cons_self

theorem Quiet.informs (quiet : Quiet r.id b.exchange.history next.exchange.history)
    (informs : b.Informs r)
    (counters : (0 < b.adding ∨ ∀ c, c ∈ r.unread ∨ r.counters.get c = b.counters.get c) →
      0 < next.adding ∨ next.Unanswered r .countersChanged ∨
        ∀ c, c ∈ r.unread ∨ r.counters.get c = next.counters.get c)
    (connectivity : (r.unlooked ∨ r.connectivity = b.connectivity) →
      next.Unanswered r .connStateChanged ∨ r.unlooked ∨ r.connectivity = next.connectivity) :
    next.Informs r where
  came := by
    obtain ⟨start, came⟩ := informs.came
    refine ⟨start, ?_⟩
    rcases quiet with same | ⟨e, more, -⟩
    · exact same ▸ came
    · exact more ▸ List.mem_cons_of_mem _ came
  stays := by
    rcases quiet with same | ⟨e, more, -, -, left⟩
    · exact same ▸ informs.stays
    · rw [more, List.mem_cons]
      exact not_or.mpr ⟨left.symm, informs.stays⟩
  counters := by
    rcases informs.counters with soon | told | read
    · exact counters (.inl soon)
    · exact .inr (.inl (quiet.unanswered told))
    · exact counters (.inr read)
  connectivity := by
    rcases informs.connectivity with told | looked
    · exact .inl (quiet.unanswered told)
    · exact connectivity looked

theorem Informs.other {a : Act} (informs : b.Informs r) (known : r.id < b.exchange.bus.nextId)
    (own : a.subscription? ≠ some r.id) :
    (b.act (.other a)).Informs r :=
  (quiet_other known own).informs informs (.imp_right .inr) .inr

theorem Informs.add (informs : b.Informs r) (c : Counter) (n : Int32) :
    (b.act (.add c n)).Informs r :=
  Quiet.informs (b := b) (.inl rfl) informs (fun _ => .inl (Nat.succ_pos _)) .inr

theorem Informs.announce (informs : b.Informs r) : (b.act .announce).Informs r :=
  Quiet.informs (quiet_mark ..) informs (fun _ => .inr (.inl (unanswered_mark rfl))) .inr

theorem Informs.set (informs : b.Informs r) (state : TunnelState) (info : String) :
    (b.act (.set state info)).Informs r := by
  unfold Board.act
  dsimp only
  split
  · exact Quiet.informs (quiet_mark ..) informs (.imp_right .inr) fun _ => .inl (unanswered_mark rfl)
  · exact informs

theorem Informs.read (informs : b.Informs r) (c : Counter) :
    (b.act (.read c)).Informs (r.read b.counters c) := by
  refine ⟨informs.came, informs.stays, informs.counters.imp_right (.imp_right fun read other => ?_),
    informs.connectivity⟩
  by_cases same : other = c
  · exact .inr (by simp [Reader.read, same, act])
  · refine (read other).imp (fun unread => ?_) fun seen => ?_
    · simp [Reader.read, unread, same]
    · simpa [Reader.read, act, Ne.symm same] using seen

theorem Informs.look (informs : b.Informs r) : (b.act .look).Informs (r.look b.connectivity) :=
  ⟨informs.came, informs.stays, informs.counters, .inr (.inr rfl)⟩

theorem Informs.hear (informs : b.Informs r)
    (history : next.exchange.history = .received r.id k :: b.exchange.history)
    (counters : next.counters = b.counters) (connectivity : next.connectivity = b.connectivity)
    (adding : next.adding = b.adding) : next.Informs (r.hear k) := by
  have number : (r.hear k).id = r.id := by cases k <;> rfl
  have mask : (r.hear k).mask = r.mask := by cases k <;> rfl
  have kept {l : Kind} (other : k ≠ l) (before : b.Unanswered r l) :
      next.Unanswered (r.hear k) l := by
    rw [Unanswered, number, history, unanswered_cons rfl (by simp [other])]
    exact List.mem_cons_of_mem _ before
  constructor
  · obtain ⟨start, came⟩ := informs.came
    rw [number, mask, history]
    exact ⟨start, List.mem_cons_of_mem _ came⟩
  · rw [number, history, List.mem_cons]
    exact not_or.mpr ⟨Happening.noConfusion, informs.stays⟩
  · rw [counters, adding]
    by_cases heard : k = .countersChanged
    · subst heard
      exact .inr (.inr fun c => .inl c.mem_all)
    · refine informs.counters.imp_right (.imp (kept heard) fun read => ?_)
      have same : (r.hear k).unread = r.unread ∧ (r.hear k).counters = r.counters := by
        cases k <;> first | exact absurd rfl heard | exact ⟨rfl, rfl⟩
      rwa [same.1, same.2]
  · rw [connectivity]
    by_cases heard : k = .connStateChanged
    · subst heard
      exact .inr (.inl rfl)
    · refine informs.connectivity.imp (kept heard) fun looked => ?_
      have same : (r.hear k).unlooked = r.unlooked ∧
          (r.hear k).connectivity = r.connectivity := by
        cases k <;> first | exact absurd rfl heard | exact ⟨rfl, rfl⟩
      rwa [same.1, same.2]

structure Sound (b : Board) : Prop where
  reaches : b.exchange.Reaches
  informs : ∀ r, b.reader = some r → b.Informs r

theorem Sound.receive (sound : b.Sound) (allowed : b.allows .receive) :
    (b.act .receive).Sound := by
  obtain ⟨r, reader, holds⟩ := allowed
  have reader : b.reader = some r := reader
  have informs := sound.informs r reader
  have goes : Exchange.Goes b.exchange (b.exchange.act (.receive r.id)) :=
    ⟨.receive r.id, holds, rfl⟩
  have exchange : (b.act .receive).exchange = b.exchange.act (.receive r.id) := by
    simp [act, reader]
  have counters : (b.act .receive).counters = b.counters := by simp [act, reader]
  have connectivity : (b.act .receive).connectivity = b.connectivity := by simp [act, reader]
  have adding : (b.act .receive).adding = b.adding := by simp [act, reader]
  refine ⟨exchange ▸ sound.reaches.tail goes, fun after found => ?_⟩
  have nothing (same : (b.act .receive).exchange.history = b.exchange.history) :
      (b.act .receive).Informs r :=
    Quiet.informs (.inl same) informs (by rw [counters, adding]; exact .imp_right .inr)
      (by rw [connectivity]; exact .inr)
  cases receipt : b.exchange.bus.receive r.id with
  | mk bus answer =>
    cases answer with
    | kind k =>
      have history : (b.act .receive).exchange.history =
          .received r.id k :: b.exchange.history := by
        rw [exchange]
        simp [Exchange.act, receipt]
      obtain rfl : r.hear k = after := by simpa [act, reader, receipt] using found
      exact informs.hear history counters connectivity adding
    | pending | closed =>
      have history : (b.act .receive).exchange.history = b.exchange.history := by
        rw [exchange]
        simp [Exchange.act, receipt]
      obtain rfl : r = after := by simpa [act, reader, receipt] using found
      exact nothing history

theorem Sound.subscribe (sound : b.Sound) (kinds : List Kind) :
    (b.act (.subscribe kinds)).Sound := by
  have goes : Exchange.Goes b.exchange (b.exchange.act (.subscribe kinds)) :=
    ⟨.subscribe kinds, trivial, rfl⟩
  refine ⟨sound.reaches.tail goes, fun r found => ?_⟩
  obtain rfl := Option.some.inj found
  refine ⟨⟨_, List.mem_cons_self⟩, ?_, .inr (.inr fun c => .inl c.mem_all), .inr (.inl rfl)⟩
  intro left
  have before := (List.mem_cons.mp left).resolve_left Happening.noConfusion
  exact Nat.lt_irrefl _ (sound.reaches.sound.recorded.known _ before _ rfl)

theorem Sound.act {d : Deed} (sound : b.Sound) (allowed : b.allows d) : (b.act d).Sound := by
  -- Whoever marks a kind takes one step with the bus.
  have marks (k : Kind) : (b.exchange.act (.mark k)).Reaches :=
    sound.reaches.tail ⟨.mark k, trivial, rfl⟩
  cases d with
  | other a =>
    refine ⟨sound.reaches.tail ⟨a, allowed.1, rfl⟩, fun r found => ?_⟩
    have informs := sound.informs r found
    obtain ⟨start, came⟩ := informs.came
    exact informs.other (sound.reaches.sound.recorded.known _ came _ rfl) (allowed.2 r found)
  | add c n => exact ⟨sound.reaches, fun r found => (sound.informs r found).add c n⟩
  | announce => exact ⟨marks _, fun r found => (sound.informs r found).announce⟩
  | set state info =>
    constructor
    · unfold Board.act
      dsimp only
      split
      · exact marks _
      · exact sound.reaches
    · intro r found
      have same : (b.act (.set state info)).reader = b.reader := by
        unfold Board.act
        dsimp only
        split <;> rfl
      exact (sound.informs r (same ▸ found)).set state info
  | subscribe kinds => exact sound.subscribe kinds
  | receive => exact sound.receive allowed
  | read c =>
    refine ⟨sound.reaches, fun r found => ?_⟩
    obtain ⟨before, there, rfl⟩ := Option.map_eq_some_iff.mp found
    exact (sound.informs before there).read c
  | look =>
    refine ⟨sound.reaches, fun r found => ?_⟩
    obtain ⟨before, there, rfl⟩ := Option.map_eq_some_iff.mp found
    exact (sound.informs before there).look

theorem Reaches.sound (reached : b.Reaches) : b.Sound := by
  induction reached with
  | refl => exact ⟨.refl, fun _ none => nomatch none⟩
  | tail _ goes ih =>
    obtain ⟨d, allowed, rfl⟩ := goes
    exact ih.act allowed

structure Shows (b : Board) (w : World) : Prop where
  bus : b.exchange.bus = w.bus
  counters : b.counters = w.counters
  connectivity : b.connectivity = w.connectivity

theorem calls_run {k : Kind} (b : Board) (x : Exchange) (marked : b.exchange = x.act (.mark k)) :
    ∃ next, Run b next ∧ next.exchange.bus = x.bus.raise k ∧ next.counters = b.counters ∧
      next.connectivity = b.connectivity := by
  cases first : x.bus.raised.isEmpty with
  | true =>
    refine ⟨b.along [.other (.call x.raises)], run_along ⟨⟨?_, ?_⟩, trivial⟩, ?_, rfl, rfl⟩
    · simp [Exchange.allows, marked, Exchange.act, Bus.mark, first]
    · simp [Act.subscription?]
    · simp [along, act, marked, Exchange.act, Bus.raise, Bus.mark, first]
  | false =>
    refine ⟨b, .refl, ?_, rfl, rfl⟩
    simp [marked, Exchange.act, Bus.raise, Bus.mark, first]

variable {w : World}

theorem Shows.count (same : b.Shows w) (c : Counter) (n : Int32) :
    ∃ next, Run b next ∧ next.Shows (w.count c n) := by
  obtain ⟨bus, counters, connectivity⟩ := same
  let changed := b.along [.add c n, .announce]
  have changes : Run b changed := run_along ⟨trivial, Nat.succ_pos _, trivial⟩
  obtain ⟨next, calls, raised, counted, still⟩ :=
    calls_run (k := .countersChanged) changed b.exchange rfl
  refine ⟨next, changes.trans calls, ?_, ?_, ?_⟩
  · rw [raised, bus]
    rfl
  · rw [counted, World.count, World.raise, ← counters]
    rfl
  · exact still.trans connectivity

theorem Shows.setConnectivity (same : b.Shows w) (state : TunnelState) (info : String) :
    ∃ next, Run b next ∧ next.Shows (w.setConnectivity state info) := by
  obtain ⟨bus, counters, connectivity⟩ := same
  let changed := b.act (.set state info)
  have admitted : b.Admits [.set state info] := ⟨trivial, trivial⟩
  have changes : Run b changed := run_along admitted
  unfold World.setConnectivity
  cases new : w.connectivity.set? state info with
  | none => exact ⟨b, .refl, bus, counters, connectivity⟩
  | some c =>
    have set : changed =
        { b with connectivity := c, exchange := b.exchange.act (.mark .connStateChanged) } := by
      simp [changed, act, connectivity, new]
    obtain ⟨next, calls, raised, counted, still⟩ :=
      calls_run (k := .connStateChanged) changed b.exchange (by rw [set])
    refine ⟨next, changes.trans calls, ?_, ?_, ?_⟩
    · rw [raised, bus]
      rfl
    · rw [counted, set]
      exact counters
    · rw [still, set]
      rfl

-- What the reader has read of a kind is what holds now, if it reads after each receipt of it and no
-- such kind is outstanding. A change of a counter that is still to be raised may be missing.
structure Current (b : Board) (r : Reader) : Prop where
  counters : r.mask.contains .countersChanged → ¬b.Outstanding r .countersChanged →
    r.unread = [] → b.adding = 0 → r.counters = b.counters
  connectivity : r.mask.contains .connStateChanged → ¬b.Outstanding r .connStateChanged →
    r.unlooked = false → r.connectivity = b.connectivity

theorem Informs.answered (informs : b.Informs r) (reaches : b.exchange.Reaches)
    (asked : r.mask.contains k) (nothing : ¬b.Outstanding r k) : ¬b.Unanswered r k := by
  intro raised
  obtain ⟨start, came⟩ := informs.came
  rcases reaches.delivers.kept r.id r.mask start k came informs.stays asked raised with
    up | ⟨s, found, -, coming⟩
  · exact nothing (.inl up)
  · exact nothing (.inr ⟨s, found, coming⟩)

theorem Reaches.reads_current (reached : b.Reaches) (reader : b.reader = some r) : b.Current r := by
  obtain ⟨reaches, informs⟩ := reached.sound
  have informs := informs r reader
  constructor
  · intro asked nothing read settled
    have answered := informs.answered reaches asked nothing
    rcases informs.counters with soon | told | seen
    · omega
    · exact absurd told answered
    · refine Counters.eq_of_get fun c => (seen c).resolve_left fun unread => ?_
      rw [read] at unread
      cases unread
  · intro asked nothing looked
    have answered := informs.answered reaches asked nothing
    rcases informs.connectivity with told | unlooked | seen
    · exact absurd told answered
    · rw [looked] at unlooked
      cases unlooked
    · exact seen

-- The reader comes between a change and its raise. It hears of the tunnel first, and of the
-- counters once it has read that.
def busy : Board :=
  ({} : Board).along <|
    [.add .tunnelSessions 1, .subscribe [], .announce, .set .trying "dialing", .look] ++
    Counter.all.map .read ++
    [.add .tcpConnections 1, .other (.call 0), .other .absorb, .other .arm, .other .wake,
     .other .absorb, .announce, .other .absorb, .other .arm, .other (.hand 1 .connStateChanged),
     .other (.clear 1 .connStateChanged), .receive, .look, .other .absorb, .other .arm,
     .other (.hand 1 .countersChanged), .other (.clear 1 .countersChanged), .receive] ++
    Counter.all.map .read

def informed : Reader where
  id := 1
  mask := .full
  unread := []
  unlooked := false
  counters := { tunnelSessions := 1, tcpConnections := 1 }
  connectivity := { state := .trying, info := "dialing" }

theorem busy_current : busy.Reaches ∧ busy.reader = some informed ∧ busy.Current informed ∧
    ¬busy.Outstanding informed .countersChanged ∧ busy.adding = 0 :=
  have reached : busy.Reaches := run_along (by decide)
  ⟨reached, by decide, reached.reads_current (by decide), by decide, by decide⟩

end Board

end Egress.Event
