import Egress.Proofs.Event.Isolation

set_option autoImplicit false

namespace Egress.Event

namespace Mask

variable {m : Mask} {k : Kind}

theorem mem_kinds : k ∈ m.kinds ↔ m.contains k := by
  simp [kinds, k.mem_all]

theorem kinds_ascend (m : Mask) : m.kinds.Pairwise fun a b => a.index < b.index :=
  List.Pairwise.filter _ (by decide)

theorem kinds_empty : Mask.empty.kinds = [] := by
  simp [kinds]

theorem kinds_of_lowest (lowest : m.lowest = some k) : m.kinds = k :: (m.erase k).kinds := by
  obtain ⟨inside, before, after, all, outside⟩ := List.find?_eq_some_iff_append.mp lowest
  have once : (before ++ k :: after).Nodup := all ▸ by decide
  have away : k ∉ after := (List.nodup_cons.mp (List.nodup_append.mp once).2.1).1
  have skipped : before.filter m.contains = [] :=
    List.filter_eq_nil_iff.mpr fun j member => by simpa using outside j member
  have skipped' : before.filter (m.erase k).contains = [] :=
    List.filter_eq_nil_iff.mpr fun j member => by simp [List.filter_eq_nil_iff.mp skipped j member]
  have kept : after.filter (m.erase k).contains = after.filter m.contains :=
    List.filter_congr fun j member => by
      have other : k ≠ j := fun same => away (same ▸ member)
      simp [other]
  simp only [kinds, all, List.filter_append, skipped, skipped', List.nil_append,
    List.filter_cons_of_pos inside]
  rw [List.filter_cons_of_neg (by simp), kept]

theorem kinds_length (m : Mask) : m.kinds.length ≤ Kind.all.length := List.length_filter_le _ _

end Mask

namespace Subscription

variable {s : Subscription} {word : Mask}

def owed (s : Subscription) (word : Mask) : List Kind :=
  s.slot.toList ++ (s.pending.union (word.inter s.mask)).kinds

theorem owed_length (s : Subscription) (word : Mask) : (s.owed word).length ≤ Kind.all.length + 1 := by
  have waiting := (s.pending.union (word.inter s.mask)).kinds_length
  have slot : s.slot.toList.length ≤ 1 := by cases s.slot <;> simp
  rw [owed, List.length_append]
  omega

theorem owed_empty (s : Subscription) : s.owed .empty = s.slot.toList ++ s.pending.kinds := by
  simp [owed, Mask.union, Mask.inter, Mask.empty]

theorem hear_owed (listed : s.listed) : (s.hear word).owed .empty = s.owed word := by
  rw [owed_empty, hear, if_pos listed, owed]

theorem rest_owed (held : s.held) (listed : s.listed) :
    s.rest.owed .empty = s.owed .empty ∧ s.rest.slot = (s.owed .empty).head? := by
  rw [owed_empty, owed_empty]
  cases slot : s.slot with
  | some j =>
    have unready : s.isReady = false := by simp [isReady, slot, held]
    rw [rest_of_unready unready, slot]
    exact ⟨rfl, rfl⟩
  | none =>
    cases pending : s.pending.isEmpty with
    | true =>
      have unready : s.isReady = false := by simp [isReady, pending]
      rw [rest_of_unready unready, slot, Mask.eq_empty pending, Mask.kinds_empty]
      exact ⟨rfl, rfl⟩
    | false =>
      have ready : s.isReady := by simp [isReady, listed, pending, slot]
      obtain ⟨k, lowest⟩ := Mask.lowest_of_nonempty pending
      have served : s.rest = { s with slot := some k, pending := s.pending.erase k } := by
        simp [rest, ready, serve, held, lowest]
      rw [served, Mask.kinds_of_lowest lowest]
      exact ⟨rfl, rfl⟩

end Subscription

namespace Bus

variable {b c d last next : Bus} {s : Subscription} {id : Nat} {ks js : List Kind}

def Known (b : Bus) : Prop := b.stopped = false → ∀ s ∈ b.subscriptions, s.held → s.listed

theorem Known.change {f : Subscription → Subscription} (known : b.Known)
    (goesOn : next.stopped = false → b.stopped = false)
    (left : ∀ t ∈ next.subscriptions, ∃ s ∈ b.subscriptions, t = f s)
    (keeps : ∀ s, (s.held → s.listed) → (f s).held → (f s).listed) : next.Known := by
  intro running t member held
  obtain ⟨s, was, rfl⟩ := left t member
  exact keeps s (known (goesOn running) s was) held

theorem Known.update_sweep {f : Subscription → Subscription} (known : b.Known) (id : Nat)
    (keeps : ∀ s, (s.held → s.listed) → (f s).held → (f s).listed) :
    (b.update id f).sweep.Known := by
  refine known.change (f := fun s => if s.id = id then f s else s) (fun running => running)
    (fun t member => ?_) fun s listed => ?_
  · obtain ⟨s, was, rfl⟩ := List.mem_map.mp (List.mem_of_mem_filter member)
    exact ⟨s, was, rfl⟩
  · split
    · exact keeps s listed
    · exact listed

theorem Known.use {reach : Nat → Prop} (known : b.Known) (use : Use reach b next) : next.Known := by
  cases use with
  | raise k =>
    unfold Bus.raise Bus.mark Bus.call
    dsimp only
    split <;> exact known
  | subscribe kinds =>
    intro running s member held
    rcases List.mem_append.mp member with old | new
    · exact known running s old held
    · rw [List.mem_singleton.mp new]
  | receive id =>
    unfold Bus.receive
    split
    · exact known
    · split
      · exact known.update_sweep id fun _ listed => listed
      · exact known
  | abandon id => exact known.update_sweep id fun _ _ held => nomatch held
  | unsubscribe id => exact known.update_sweep id fun _ _ held => nomatch held
  | close => exact known

theorem Known.absorb (known : b.Known) : b.absorb.Known :=
  known.change (f := (·.hear b.raised)) (fun running => running)
    (fun t member => by
      obtain ⟨s, was, rfl⟩ := List.mem_map.mp member
      exact ⟨s, was, rfl⟩)
    fun s listed => by rw [s.hear_held, s.hear_listed]; exact listed

theorem Known.turn (known : b.Known) (turn : b.Turn next) : next.Known := by
  cases turn with
  | wake => exact known.absorb
  | stop => exact fun running => nomatch running
  | serve =>
    refine known.absorb.update_sweep _ fun s listed => ?_
    unfold Subscription.serve
    split
    · split <;> exact listed
    next gone => exact fun held => absurd held gone

theorem Reaches.known (reached : b.Reaches) : b.Known := by
  induction reached with
  | refl => exact fun _ s member => nomatch member
  | tail _ goes ih => exact goes.elim ih.use ih.turn

theorem Turns.goes {n : Nat} (turns : Turns n b last) : Relation.ReflTransGen Goes b last := by
  induction turns with
  | none => exact .refl
  | more first _ ih => exact .head (.inr first) ih

theorem Reaches.dispatch (reached : b.Reaches) : b.dispatch.Reaches := by
  obtain ⟨⟨n, turns⟩, -⟩ := (reached.sane.rests.agrees _).mpr rfl
  exact reached.trans turns.goes

theorem Reaches.raise (reached : b.Reaches) (k : Kind) : (b.raise k).Reaches :=
  reached.tail (.inl (.raise k))

theorem Reaches.subscribe (reached : b.Reaches) (kinds : List Kind) : (b.subscribe kinds).1.Reaches :=
  reached.tail (.inl (.subscribe kinds))

structure Owing (b : Bus) (id : Nat) (ks : List Kind) : Prop where
  sane : b.Sane
  opened : b.closed = false
  present : ∃ s ∈ b.subscriptions, s.id = id ∧ s.held ∧ s.listed ∧ s.owed b.raised = ks

-- Dispatching and receiving in turn until there is nothing to receive. The dispatcher serves in any
-- order.
inductive Drains (id : Nat) : Bus → List Kind → Bus → Prop
  | more {b c d last : Bus} {k : Kind} {ks : List Kind} (settles : b.Settles c)
      (receipt : c.receive id = (d, .kind k)) (later : Drains id d ks last) :
      Drains id b (k :: ks) last
  | done {b c d : Bus} (settles : b.Settles c) (receipt : c.receive id = (d, .pending)) :
      Drains id b [] d

theorem Sane.settled (sane : b.Sane) : b.settled.Sane := by
  obtain ⟨⟨n, turns⟩, -⟩ := (sane.rests.agrees _).mpr rfl
  exact sane.dispatch ▸ (turns.approach sane).2.2

theorem Owing.settled (owing : b.Owing id ks) : b.settled.Owing id ks ∧
    ∃ s, b.settled.find? id = some s ∧ s.listed ∧ s.slot = ks.head? := by
  obtain ⟨sane, opened, s, member, rfl, held, listed, rfl⟩ := owing
  have known : (s.hear b.raised).listed := s.hear_listed _ ▸ listed
  have holds : (s.hear b.raised).held := s.hear_held _ ▸ held
  obtain ⟨stays, same⟩ := Subscription.rest_held holds
  obtain ⟨owed, slot⟩ := Subscription.rest_owed holds known
  rw [Subscription.hear_owed listed] at owed slot
  have number : (s.hear b.raised).rest.id = s.id := by simp
  have there := sane.mem_settled opened member held
  have rested := sane.settled_opened opened
  have still : b.settled.closed = false := rested ▸ opened
  have heard : b.settled.raised = .empty := rested ▸ rfl
  refine ⟨⟨sane.settled, still, _, there, number, stays, same.trans known, heard ▸ owed⟩, _, ?_,
    same.trans known, slot⟩
  exact number ▸ sane.settled.find there

theorem Owing.drained (owing : b.Owing id []) :
    b.settled.receive id = (b.settled, .pending) ∧ b.settled.Owing id [] := by
  obtain ⟨after, s, found, listed, slot⟩ := owing.settled
  exact ⟨by simp [Bus.receive, found, slot, listed], after⟩

theorem Owing.advances {k : Kind} (owing : b.Owing id (k :: ks)) :
    ∃ d, b.settled.receive id = (d, .kind k) ∧ d.Owing id ks := by
  obtain ⟨⟨sane, opened, s, member, rfl, held, listed, owed⟩, t, found, -, slot⟩ := owing.settled
  rw [sane.find member] at found
  obtain rfl := Option.some.inj found
  refine ⟨(b.settled.update s.id fun s => { s with slot := none }).sweep, ?_,
    sane.update_sweep (fun _ => by rfl) s.id, opened, { s with slot := none }, ?_, rfl, held, listed,
    ?_⟩
  · simp only [Bus.receive, sane.find member, slot, List.head?_cons]
  · exact List.mem_filter.mpr ⟨List.mem_map.mpr ⟨s, member, if_pos rfl⟩, by simp [held]⟩
  · rw [Subscription.owed, slot] at owed
    exact (List.cons.inj owed).2

theorem Owing.emptied (owing : b.Owing id ks) :
    ∃ last, Drains id b ks last ∧ last.Owing id [] := by
  induction ks generalizing b with
  | nil =>
    obtain ⟨receipt, after⟩ := owing.drained
    have settles := (owing.sane.rests.agrees _).mpr owing.sane.dispatch.symm
    exact ⟨_, .done settles receipt, after⟩
  | cons k rest ih =>
    obtain ⟨d, receipt, after⟩ := owing.advances
    obtain ⟨last, drains, nothing⟩ := ih after
    have settles := (owing.sane.rests.agrees _).mpr owing.sane.dispatch.symm
    exact ⟨last, .more settles receipt drains, nothing⟩

theorem Drains.owed (drains : Drains id b js last) (owing : b.Owing id ks) :
    js = ks ∧ last.Owing id [] := by
  induction drains generalizing ks with
  | more settles receipt later ih =>
    obtain rfl := settles.eq_settled owing.sane
    cases ks with
    | nil =>
      rw [owing.drained.1] at receipt
      cases receipt
    | cons k rest =>
      obtain ⟨d, first, after⟩ := owing.advances
      rw [first] at receipt
      cases receipt
      obtain ⟨rfl, nothing⟩ := ih after
      exact ⟨rfl, nothing⟩
  | done settles receipt =>
    obtain rfl := settles.eq_settled owing.sane
    cases ks with
    | nil =>
      obtain ⟨waits, after⟩ := owing.drained
      rw [waits] at receipt
      cases receipt
      exact ⟨rfl, after⟩
    | cons k rest =>
      obtain ⟨d, first, -⟩ := owing.advances
      rw [first] at receipt
      cases receipt

end Bus

end Egress.Event

namespace Egress.Scenario.OnBus

open Event

namespace Stage

variable {s : Stage} {name : String} {id : Nat} {ks : List Kind}

theorem drain_owed {room : Nat} (owing : s.bus.Owing id ks) (known : s.named.lookup name = some id)
    (enough : ks.length < room) : (drain room s name).2 = (ks, false) := by
  induction room generalizing s ks with
  | zero => omega
  | succ room ih =>
    unfold drain Stage.receive
    simp only [known, owing.sane.dispatch]
    cases ks with
    | nil => simp only [owing.drained.1]
    | cons k rest =>
      obtain ⟨d, receipt, after⟩ := owing.advances
      have later := ih (s := { s with bus := d }) after known (by simpa using enough)
      simp only [receipt]
      exact congrArg (fun r : List Kind × Bool => (k :: r.1, r.2)) later

end Stage

-- A subscriber that receives until there is nothing gets what it is owed, and afterwards there is
-- nothing to get. The kinds that are not in the slot come in their order, each once.
structure Drained (b : Bus) (s : Subscription) (waiting : List Kind) : Prop where
  owed : s.owed b.raised = s.slot.toList ++ waiting
  ascends : waiting.Pairwise fun j k => j.index < k.index
  complete : ∀ k, k ∈ waiting ↔ s.pending.contains k ∨ b.raised.contains k ∧ s.mask.contains k
  drains : ∃ last, Bus.Drains s.id b (s.owed b.raised) last
  exact : ∀ ks last, Bus.Drains s.id b ks last → ks = s.owed b.raised ∧
    (∃ t ∈ last.subscriptions, t.id = s.id ∧ t.owed last.raised = []) ∧
    ∀ more final, Bus.Drains s.id last more final → more = []
  played : ∀ (stage : Stage) name, stage.bus = b → stage.named.lookup name = some s.id →
    (stage.perform (.drain name)).2 = .drained (s.owed b.raised) false

-- Wherever an open bus has come to, whoever holds a subscription receives from it what is in its
-- slot and then what is pending or raised for it, and nothing more.
theorem owed_drained {b : Bus} (reached : b.Reaches) (opened : b.closed = false) {s : Subscription}
    (member : s ∈ b.subscriptions) (held : s.held) :
    Drained b s (s.pending.union (b.raised.inter s.mask)).kinds := by
  have sane := reached.sane
  have listed : s.listed := reached.known (sane.running opened) s member held
  have owing : b.Owing s.id (s.owed b.raised) := ⟨sane, opened, s, member, rfl, held, listed, rfl⟩
  obtain ⟨last, drains, -⟩ := owing.emptied
  refine ⟨rfl, Mask.kinds_ascend _, fun k => ?_, ⟨last, drains⟩, fun ks last drains => ?_,
    fun stage name same known => ?_⟩
  · rw [Mask.mem_kinds]
    simp
  · obtain ⟨rfl, nothing⟩ := drains.owed owing
    have ⟨_, _, t, there, number, _, _, rest⟩ := nothing
    exact ⟨rfl, ⟨t, there, number, rest⟩, fun more final again => (again.owed nothing).1⟩
  · subst same
    have bound := s.owed_length stage.bus.raised
    have enough : (s.owed stage.bus.raised).length < Stage.room := by
      unfold Stage.room
      omega
    have drained := Stage.drain_owed owing known enough
    exact congrArg (fun r : List Kind × Bool => Reply.drained r.1 r.2) drained

-- Two subscribers, the first of which has not received for a while: a kind in its slot is pending
-- again, and another one has just been raised.
def laden : Bus :=
  ((((((({} : Bus).subscribe [.sitesChanged, .countersChanged, .keysChanged]).1.subscribe []).1.raise
    .keysChanged).dispatch.raise .keysChanged).raise .sitesChanged).dispatch.raise .countersChanged)

def late : Subscription :=
  { id := 1
    mask := .ofKinds [.sitesChanged, .countersChanged, .keysChanged]
    pending := .ofKinds [.sitesChanged, .keysChanged]
    slot := some .keysChanged }

theorem laden_drained : laden.Reaches ∧ laden.closed = false ∧ late ∈ laden.subscriptions ∧
    late.held ∧
    late.owed laden.raised = [.keysChanged, .countersChanged, .sitesChanged, .keysChanged] ∧
    Drained laden late (late.pending.union (laden.raised.inter late.mask)).kinds := by
  have reached : laden.Reaches :=
    (((((((show Bus.Reaches {} from .refl).subscribe _).subscribe _).raise _).dispatch.raise _).raise
      _).dispatch.raise _)
  have member : late ∈ laden.subscriptions := by decide
  exact ⟨reached, rfl, member, rfl, by decide, owed_drained reached rfl member rfl⟩

end Egress.Scenario.OnBus
