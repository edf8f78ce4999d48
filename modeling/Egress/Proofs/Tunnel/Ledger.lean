import Mathlib.Algebra.GroupWithZero.Nat
import Mathlib.Data.Multiset.AddSub
import Mathlib.Data.Multiset.Count
import Mathlib.Data.Multiset.Filter
import Mathlib.Data.Multiset.Replicate
import Mathlib.Logic.Relation
import Egress.Proofs.Tunnel.Pool

set_option autoImplicit false

namespace Egress.Tunnel

inductive Stake
  | waiting (ticket : Nat)
  | creating
  | leasing (slot : Nat)
  deriving DecidableEq

def Admission.stake : Admission → Stake
  | .ready lease => .leasing lease.slot
  | .create => .creating
  | .wait ticket => .waiting ticket

def Slot.lease (s : Slot) : Lease := { slot := s.id, session := s.session }

structure Ledger where
  pool : Pool
  stakes : Multiset Stake
  watched : Multiset Lease

namespace Ledger

-- One change of a pool, together with the stake it is made for.
inductive Step (cap : Nat) : Ledger → Ledger → Prop
  | enter (p : Pool) (m : Multiset Stake) (v : Multiset Lease) :
      Step cap ⟨p, m, v⟩ ⟨(p.acquire cap true).1, (p.acquire cap true).2.stake ::ₘ m, v⟩
  | retry (p : Pool) (ticket : Nat) (m : Multiset Stake) (v : Multiset Lease) :
      Step cap ⟨p, .waiting ticket ::ₘ m, v⟩
        ⟨(p.acquire cap false).1, (p.acquire cap false).2.stake ::ₘ m, v⟩
  | withdraw (p : Pool) (ticket : Nat) (m : Multiset Stake) (v : Multiset Lease) :
      Step cap ⟨p, .waiting ticket ::ₘ m, v⟩ ⟨p.withdraw, m, v⟩
  | fail (p : Pool) (m : Multiset Stake) (v : Multiset Lease) :
      Step cap ⟨p, .creating ::ₘ m, v⟩ ⟨p.creationFailed, m, v⟩
  | insert (p : Pool) (session : Nat) (m : Multiset Stake) (v : Multiset Lease) :
      Step cap ⟨p, .creating ::ₘ m, v⟩
        ⟨(p.insert session).1, .leasing (p.insert session).2.slot ::ₘ m,
          (p.insert session).2 ::ₘ v⟩
  | release (p : Pool) (slot : Nat) (m : Multiset Stake) (v : Multiset Lease) :
      Step cap ⟨p, .leasing slot ::ₘ m, v⟩ ⟨p.release slot, m, v⟩
  | remove (p : Pool) (lease : Lease) (m : Multiset Stake) (v : Multiset Lease) :
      Step cap ⟨p, m, lease ::ₘ v⟩ ⟨(p.remove lease.slot).1, m, v⟩

abbrev Steps (cap : Nat) : Ledger → Ledger → Prop := Relation.ReflTransGen (Step cap)

structure Balanced (cap : Nat) (p : Pool) (stakes : Multiset Stake) (watched : Multiset Lease) :
    Prop where
  planned : p.planned = stakes.card
  sessions : p.sessions = p.slots.length + stakes.count .creating
  refs : ∀ s ∈ p.slots, s.refs = stakes.count (.leasing s.id)
  within : ∀ s ∈ p.slots, s.refs ≤ cap
  distinct : (p.slots.map (·.id)).Nodup
  numbered : ∀ s ∈ p.slots, s.id ≤ p.nextId
  leased : ∀ slot, Stake.leasing slot ∈ stakes → slot ≤ p.nextId
  ticketed : ∀ ticket, Stake.waiting ticket ∈ stakes → ticket < p.tickets
  called : p.called ≤ p.tickets
  watched : watched = Multiset.ofList (p.slots.map (·.lease))

-- Either everybody who waits has been called, or there is nothing they could do.
def Quiet (cap : Nat) (p : Pool) : Prop :=
  p.called = p.tickets ∨ p.spare cap = none ∧ p.planned ≤ p.sessions * cap

variable {cap : Nat} {p : Pool} {m : Multiset Stake} {v : Multiset Lease}

def new : Ledger := ⟨{}, 0, 0⟩

theorem balanced_empty : Balanced cap {} 0 0 := by
  constructor <;> simp

theorem quiet_empty : Quiet cap {} := .inl rfl

namespace Balanced

theorem slot_eq (h : Balanced cap p m v) {s t : Slot} (hs : s ∈ p.slots) (ht : t ∈ p.slots)
    (same : s.id = t.id) : s = t :=
  List.inj_on_of_nodup_map h.distinct hs ht same

theorem updateSlot (h : Balanced cap p m v) (id : Nat) (f : Nat → Nat) {m' : Multiset Stake}
    {planned called : Nat} {history : List Operation}
    (hit : ∀ s ∈ p.slots, s.id = id →
      f s.refs = m'.count (.leasing id) ∧ m'.count (.leasing id) ≤ cap)
    (miss : ∀ slot, slot ≠ id → m.count (.leasing slot) = m'.count (.leasing slot))
    (creating : m.count .creating = m'.count .creating)
    (hplanned : planned = m'.card)
    (leased : ∀ slot, Stake.leasing slot ∈ m' → slot ≤ p.nextId)
    (ticketed : ∀ ticket, Stake.waiting ticket ∈ m' → ticket < p.tickets)
    (hcalled : called ≤ p.tickets) :
    Balanced cap
      { (p.updateSlot id fun s => { s with refs := f s.refs }) with planned, called, history }
      m' v := by
  have each (t : Slot) (was : t ∈ p.slots) (s : Slot)
      (now : (if t.id = id then { t with refs := f t.refs } else t) = s) :
      s.id = t.id ∧ s.refs = m'.count (.leasing s.id) ∧ s.refs ≤ cap := by
    subst now
    by_cases same : t.id = id
    · have ⟨moved, room⟩ := hit t was same
      simp [same, moved, room]
    · simp only [same, if_false, true_and]
      exact ⟨(h.refs t was).trans (miss t.id same), h.within t was⟩
  have ids := p.updateSlot_ids id (fun s => { s with refs := f s.refs }) fun _ => rfl
  constructor
  case planned => exact hplanned
  case sessions =>
    have sessions := h.sessions
    rw [creating] at sessions
    simpa using sessions
  case refs =>
    intro s member
    obtain ⟨t, was, now⟩ := List.mem_map.mp member
    exact (each t was s now).2.1
  case within =>
    intro s member
    obtain ⟨t, was, now⟩ := List.mem_map.mp member
    exact (each t was s now).2.2
  case distinct => exact ids ▸ h.distinct
  case numbered =>
    intro s member
    obtain ⟨t, was, now⟩ := List.mem_map.mp member
    exact (each t was s now).1 ▸ h.numbered t was
  case leased => exact leased
  case ticketed => exact ticketed
  case called => exact hcalled
  case watched =>
    have leases : p.slots.map (·.lease) =
        (p.updateSlot id fun s => { s with refs := f s.refs }).slots.map (·.lease) := by
      rw [Pool.updateSlot, List.map_map]
      apply List.map_congr_left
      intro s _
      by_cases same : s.id = id <;> simp [same, Slot.lease]
    exact h.watched.trans (congrArg _ leases)

-- The slots stay, and so do the leases on them.
theorem unmoved {q : Pool} {m' : Multiset Stake} (h : Balanced cap p m v)
    (slots : q.slots = p.slots) (numbers : q.nextId = p.nextId)
    (leasing : ∀ slot, m'.count (.leasing slot) = m.count (.leasing slot))
    (planned : q.planned = m'.card) (sessions : q.sessions = p.slots.length + m'.count .creating)
    (ticketed : ∀ ticket, Stake.waiting ticket ∈ m' → ticket < q.tickets)
    (called : q.called ≤ q.tickets) : Balanced cap q m' v where
  planned := planned
  sessions := slots ▸ sessions
  refs s member := (h.refs s (slots ▸ member)).trans (leasing s.id).symm
  within s member := h.within s (slots ▸ member)
  distinct := slots ▸ h.distinct
  numbered s member := numbers ▸ h.numbered s (slots ▸ member)
  leased slot member := by
    have held : Stake.leasing slot ∈ m :=
      Multiset.count_pos.mp (leasing slot ▸ Multiset.count_pos.mpr member)
    exact numbers ▸ h.leased slot held
  ticketed := ticketed
  called := called
  watched := slots ▸ h.watched

-- `m` are the stakes of the others; the dial itself had at most the stake of one who waits.
theorem acquire {first : Bool} {before : Multiset Stake}
    (h : Balanced cap p before v) (card : before.card + first.toNat = m.card + 1)
    (sub : m ⊆ before)
    (same : ∀ x, (∀ ticket, x ≠ .waiting ticket) → before.count x = m.count x) :
    Balanced cap (p.acquire cap first).1 ((p.acquire cap first).2.stake ::ₘ m) v := by
  have planned : p.planned + first.toNat = m.card + 1 := by
    have := h.planned
    omega
  have creating : before.count .creating = m.count .creating := same _ (by simp)
  have leasing (slot : Nat) : before.count (.leasing slot) = m.count (.leasing slot) :=
    same _ (by simp)
  have leased (slot : Nat) (member : Stake.leasing slot ∈ m) : slot ≤ p.nextId :=
    h.leased slot (sub member)
  have ticketed (ticket : Nat) (member : Stake.waiting ticket ∈ m) : ticket < p.tickets :=
    h.ticketed ticket (sub member)
  rcases p.acquire_cases cap first with
    ⟨s, member, room, result⟩ | ⟨_, _, result⟩ | ⟨_, _, result⟩ <;> rw [result]
  case inl =>
    refine h.updateSlot s.id (· + 1) ?hit ?miss ?creating ?planned ?leased ?ticketed h.called
    case hit =>
      intro t was same
      obtain rfl := h.slot_eq was member same
      have refs := h.refs t was
      rw [leasing] at refs
      simp only [Admission.stake, Multiset.count_cons_self]
      omega
    case miss =>
      intro slot other
      simp [Admission.stake, leasing, other]
    case creating => simp [Admission.stake, creating]
    case planned => simpa using planned
    case leased =>
      intro slot held
      rcases Multiset.mem_cons.mp held with own | others
      · cases own
        exact h.numbered s member
      · exact leased slot others
    case ticketed =>
      intro ticket held
      rcases Multiset.mem_cons.mp held with own | others
      · cases own
      · exact ticketed ticket others
  case inr.inl =>
    have sessions := h.sessions
    refine h.unmoved rfl rfl (fun slot => ?_) (by simpa using planned) ?_ ?_ h.called
    · simp [Admission.stake, leasing]
    · simp [Admission.stake, sessions, creating, Nat.add_assoc]
    · simpa [Admission.stake] using ticketed
  case inr.inr =>
    have sessions := h.sessions
    refine h.unmoved rfl rfl (fun slot => ?_) (by simpa using planned) ?_ (fun ticket held => ?_)
      (Nat.le_succ_of_le h.called)
    · simp [Admission.stake, leasing]
    · simp [Admission.stake, sessions, creating]
    · rcases Multiset.mem_cons.mp held with own | others
      · cases own
        exact Nat.lt_succ_self _
      · exact Nat.lt_succ_of_lt (ticketed ticket others)

theorem withdraw {ticket : Nat} (h : Balanced cap p (.waiting ticket ::ₘ m) v) :
    Balanced cap p.withdraw m v := by
  have planned := h.planned
  have sessions := h.sessions
  simp only [Multiset.card_cons] at planned
  refine h.unmoved rfl rfl (fun slot => by simp) ?_ ?_
    (fun other member => h.ticketed other (Multiset.mem_cons_of_mem member)) (Nat.le_refl _)
  · simp [Pool.withdraw, Pool.notify, planned]
  · simpa [Pool.withdraw, Pool.notify] using sessions

theorem creationFailed (h : Balanced cap p (.creating ::ₘ m) v) :
    Balanced cap p.creationFailed m v := by
  have planned := h.planned
  have sessions := h.sessions
  simp only [Multiset.card_cons] at planned
  simp only [Multiset.count_cons_self] at sessions
  refine h.unmoved rfl rfl (fun slot => by simp) ?_ ?_
    (fun other member => h.ticketed other (Multiset.mem_cons_of_mem member)) (Nat.le_refl _)
  · simp [Pool.creationFailed, Pool.notify, planned]
  · simp only [Pool.creationFailed, Pool.notify, Pool.note]
    omega

theorem insert (positive : 1 ≤ cap) (session : Nat) (h : Balanced cap p (.creating ::ₘ m) v) :
    Balanced cap (p.insert session).1 (.leasing (p.insert session).2.slot ::ₘ m)
      ((p.insert session).2 ::ₘ v) := by
  have planned := h.planned
  have sessions := h.sessions
  simp only [Multiset.card_cons] at planned
  simp only [Multiset.count_cons_self] at sessions
  -- Nobody can hold a lease on a slot whose number has not been given yet.
  have unleased : m.count (.leasing (p.nextId + 1)) = 0 := by
    apply Multiset.count_eq_zero.mpr
    intro member
    have := h.leased _ (Multiset.mem_cons_of_mem member)
    omega
  constructor <;> simp only [Pool.insert, Pool.notify, Pool.note]
  case planned => simpa using planned
  case sessions =>
    simp
    omega
  case refs =>
    intro s member
    rcases List.mem_append.mp member with old | new
    · have numbered := h.numbered s old
      have other : s.id ≠ p.nextId + 1 := by omega
      simpa [other] using h.refs s old
    · obtain rfl := List.mem_singleton.mp new
      simp [unleased]
  case within =>
    intro s member
    rcases List.mem_append.mp member with old | new
    · exact h.within s old
    · obtain rfl := List.mem_singleton.mp new
      exact positive
  case distinct =>
    rw [List.map_append, List.nodup_append]
    refine ⟨h.distinct, by simp, ?_⟩
    intro a old b new
    obtain ⟨s, member, rfl⟩ := List.mem_map.mp old
    have numbered := h.numbered s member
    simp at new
    omega
  case numbered =>
    intro s member
    rcases List.mem_append.mp member with old | new
    · exact Nat.le_succ_of_le (h.numbered s old)
    · obtain rfl := List.mem_singleton.mp new
      exact Nat.le_refl _
  case leased =>
    intro slot member
    rcases Multiset.mem_cons.mp member with own | others
    · cases own
      exact Nat.le_refl _
    · exact Nat.le_succ_of_le (h.leased slot (Multiset.mem_cons_of_mem others))
  case ticketed =>
    intro ticket member
    rcases Multiset.mem_cons.mp member with own | others
    · cases own
    · exact h.ticketed ticket (Multiset.mem_cons_of_mem others)
  case called => exact Nat.le_refl _
  case watched =>
    simp only [h.watched, List.map_append, List.map_cons, List.map_nil]
    rw [← Multiset.coe_add, Multiset.add_comm]
    exact (Multiset.singleton_add _ _).symm

theorem release {slot : Nat} (h : Balanced cap p (.leasing slot ::ₘ m) v) :
    Balanced cap (p.release slot) m v := by
  have planned := h.planned
  simp only [Multiset.card_cons] at planned
  refine h.updateSlot slot (· - 1) ?hit ?miss ?creating ?planned ?leased ?ticketed
    (Nat.le_refl _)
  case hit =>
    intro s member same
    have refs := h.refs s member
    have within := h.within s member
    rw [same, Multiset.count_cons_self] at refs
    omega
  case miss =>
    intro other different
    simp [different]
  case creating => simp
  case planned => simp [planned]
  case leased => exact fun slot member => h.leased slot (Multiset.mem_cons_of_mem member)
  case ticketed => exact fun ticket member => h.ticketed ticket (Multiset.mem_cons_of_mem member)

theorem mem_watched (h : Balanced cap p m v) {lease : Lease} :
    lease ∈ v ↔ ∃ s ∈ p.slots, s.lease = lease := by
  rw [h.watched]
  simp

theorem watched_filter {lease : Lease} (h : Balanced cap p m (lease ::ₘ v)) :
    v = Multiset.ofList ((p.slots.filter (·.id != lease.slot)).map (·.lease)) := by
  obtain ⟨s, member, rfl⟩ := h.mem_watched.mp (Multiset.mem_cons_self lease v)
  have distinct : (p.slots.map (·.lease)).Nodup := by
    refine List.Nodup.of_map (·.slot) ?_
    simpa [Slot.lease, Function.comp_def] using h.distinct
  have erased : (p.slots.filter (·.id != s.id)).map (·.lease) =
      (p.slots.map (·.lease)).erase s.lease := by
    rw [distinct.erase_eq_filter, List.filter_map]
    refine congrArg _ (List.filter_congr fun t was => ?_)
    by_cases same : t.id = s.id
    · simp [h.slot_eq was member same]
    · have different : t.lease ≠ s.lease := fun leases => same (congrArg (·.slot) leases)
      rw [bne_iff_ne.mpr same]
      exact (bne_iff_ne.mpr different).symm
  rw [show s.lease.slot = s.id from rfl, erased, ← Multiset.coe_erase, ← h.watched,
    Multiset.erase_cons_head]

theorem remove {lease : Lease} (h : Balanced cap p m (lease ::ₘ v)) :
    Balanced cap (p.remove lease.slot).1 m v := by
  have watched := h.watched_filter
  have before := congrArg Multiset.card h.watched
  have after := congrArg Multiset.card watched
  simp only [Multiset.card_cons, Multiset.coe_card, List.length_map] at before after
  have kept {s : Slot} (member : s ∈ p.slots.filter (·.id != lease.slot)) : s ∈ p.slots :=
    (List.mem_filter.mp member).1
  have sessions := h.sessions
  constructor <;> simp only [Pool.remove, Pool.notify, Pool.note]
  case planned => exact h.planned
  case sessions => omega
  case refs => exact fun s member => h.refs s (kept member)
  case within => exact fun s member => h.within s (kept member)
  case distinct => exact (List.filter_sublist.map _).nodup h.distinct
  case numbered => exact fun s member => h.numbered s (kept member)
  case leased => exact h.leased
  case ticketed => exact h.ticketed
  case called => exact Nat.le_refl _
  case watched => exact watched

end Balanced

theorem Step.balanced {l l' : Ledger} (positive : 1 ≤ cap) (step : Step cap l l')
    (h : Balanced cap l.pool l.stakes l.watched) : Balanced cap l'.pool l'.stakes l'.watched := by
  cases step with
  | enter => exact h.acquire rfl (Multiset.Subset.refl _) fun _ _ => rfl
  | retry p ticket m v =>
    apply h.acquire (by simp) (Multiset.subset_cons _ _)
    intro x other
    simp [Multiset.count_cons_of_ne (other ticket)]
  | withdraw => exact h.withdraw
  | fail => exact h.creationFailed
  | insert p session => exact h.insert positive session
  | release => exact h.release
  | remove => exact h.remove

theorem Steps.balanced {l l' : Ledger} (positive : 1 ≤ cap) (steps : Steps cap l l')
    (h : Balanced cap l.pool l.stakes l.watched) : Balanced cap l'.pool l'.stakes l'.watched := by
  induction steps with
  | refl => exact h
  | tail _ step ih => exact step.balanced positive ih

theorem Step.performs {l l' : Ledger} (step : Step cap l l')
    (h : Balanced cap l.pool l.stakes l.watched) :
    ∃ o, l'.pool = l.pool.perform o ∧ l.pool.Covers o := by
  cases step with
  | enter => exact ⟨.ask cap true, rfl, trivial⟩
  | retry => exact ⟨.ask cap false, rfl, trivial⟩
  | withdraw p =>
    have planned := h.planned
    simp only [Multiset.card_cons] at planned
    exact ⟨.withdraw, rfl, show 0 < p.planned by omega⟩
  | fail p =>
    have planned := h.planned
    have sessions := h.sessions
    simp only [Multiset.card_cons, Multiset.count_cons_self] at planned sessions
    exact ⟨.creationFailed, rfl, show 0 < p.sessions by omega, show 0 < p.planned by omega⟩
  | insert p session => exact ⟨.insert session, rfl, trivial⟩
  | release p slot =>
    have planned := h.planned
    simp only [Multiset.card_cons] at planned
    refine ⟨.release slot, rfl, show 0 < p.planned by omega, fun s member same => ?_⟩
    have refs := h.refs s member
    simp only [same, Multiset.count_cons_self] at refs
    omega
  | remove p lease m v =>
    obtain ⟨s, member, -⟩ := h.mem_watched.mp (Multiset.mem_cons_self lease v)
    have sessions : p.sessions = p.slots.length + _ := h.sessions
    have filled : 0 < p.slots.length := List.length_pos_of_mem member
    exact ⟨.remove lease.slot, rfl, show 0 < p.sessions by omega⟩

theorem Steps.accountable {l : Ledger} (positive : 1 ≤ cap) (steps : Steps cap .new l) :
    l.pool.Accountable := by
  induction steps with
  | refl => exact Pool.accountable_empty
  | tail before step ih =>
    obtain ⟨o, performed, covers⟩ := step.performs (Steps.balanced positive before balanced_empty)
    exact performed ▸ ih.perform covers

theorem quiet_acquire (positive : 1 ≤ cap) (first : Bool) (h : Quiet cap p) :
    Quiet cap (p.acquire cap first).1 := by
  have one : first.toNat ≤ 1 := Bool.toNat_le first
  rcases p.acquire_cases cap first with
    ⟨s, member, room, result⟩ | ⟨full, short, result⟩ | ⟨full, covered, result⟩ <;> rw [result]
  case inl =>
    rcases h with called | ⟨full, _⟩
    · exact .inl called
    · have := Pool.spare_eq_none.mp full s member
      omega
  case inr.inl =>
    rcases h with called | ⟨_, covered⟩
    · exact .inl called
    · refine .inr ⟨full, ?_⟩
      simp only [Pool.asked, Pool.note, Nat.add_mul, Nat.one_mul]
      omega
  case inr.inr => exact .inr ⟨full, covered⟩

theorem Step.quiet {l l' : Ledger} (positive : 1 ≤ cap) (step : Step cap l l')
    (h : Quiet cap l.pool) : Quiet cap l'.pool := by
  cases step with
  | enter => exact quiet_acquire positive true h
  | retry => exact quiet_acquire positive false h
  | withdraw | fail | insert | release | remove => exact .inl rfl

theorem Steps.quiet {l l' : Ledger} (positive : 1 ≤ cap) (steps : Steps cap l l')
    (h : Quiet cap l.pool) : Quiet cap l'.pool := by
  induction steps with
  | refl => exact h
  | tail _ step ih => exact step.quiet positive ih

theorem sum_leases_le (ids : List Nat) (distinct : ids.Nodup) (m : Multiset Stake) :
    (ids.map fun id => m.count (.leasing id)).sum ≤ m.card := by
  induction ids generalizing m with
  | nil => simp
  | cons id rest ih =>
    obtain ⟨fresh, distinct⟩ := List.nodup_cons.mp distinct
    -- The leases on the first slot are set aside; the others are still counted in full.
    let others := m.filter (· ≠ .leasing id)
    have split : m.card = m.count (.leasing id) + others.card := by
      rw [Multiset.card_eq_countP_add_countP (· = .leasing id), Multiset.countP_eq_card_filter,
        Multiset.countP_eq_card_filter, Multiset.filter_eq', Multiset.card_replicate]
    have same : rest.map (fun id => others.count (.leasing id)) =
        rest.map fun id => m.count (.leasing id) := by
      apply List.map_congr_left
      intro other member
      have different : Stake.leasing other ≠ .leasing id := by
        rintro ⟨⟩
        exact fresh member
      exact Multiset.count_filter_of_pos different
    have bound := ih distinct others
    rw [same] at bound
    simp only [List.map_cons, List.sum_cons]
    omega

theorem Balanced.creating_mem (h : Balanced cap p m v) (full : p.spare cap = none)
    (covered : p.planned ≤ p.sessions * cap) {ticket : Nat} (waits : .waiting ticket ∈ m) :
    .creating ∈ m := by
  by_contra none
  obtain ⟨others, rfl⟩ := Multiset.exists_cons_of_mem waits
  have sessions := h.sessions
  rw [Multiset.count_eq_zero.mpr none, Nat.add_zero] at sessions
  have loads : p.slots.map (fun s => (Stake.waiting ticket ::ₘ others).count (.leasing s.id)) =
      p.slots.map fun _ => cap := by
    apply List.map_congr_left
    intro s member
    have refs := h.refs s member
    have within := h.within s member
    have := Pool.spare_eq_none.mp full s member
    omega
  have bound := sum_leases_le (p.slots.map (·.id)) h.distinct others
  have sum : ((p.slots.map (·.id)).map fun id => others.count (.leasing id)).sum =
      p.slots.length * cap := by
    simp only [ne_eq, reduceCtorEq, not_false_eq_true, Multiset.count_cons_of_ne] at loads
    rw [List.map_map, Function.comp_def, loads]
    simp
  have planned := h.planned
  simp only [Multiset.card_cons] at planned
  rw [sessions] at covered
  omega

end Ledger

end Egress.Tunnel
