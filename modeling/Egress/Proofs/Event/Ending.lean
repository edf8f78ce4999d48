import Egress.Proofs.Event.Seating

set_option autoImplicit false

namespace Egress.Event

def Receipt.kind? : Receipt → Option Kind
  | kind k => some k
  | pending | closed => none

namespace Bus

variable {b c d next p q : Bus} {s t : Subscription} {id n : Nat}
  {new rs : List (Nat × Receipt)}

def Holds (b : Bus) (id : Nat) : Prop := ∃ s ∈ b.subscriptions, s.id = id ∧ s.held

instance (b : Bus) (id : Nat) : Decidable (b.Holds id) :=
  inferInstanceAs (Decidable (∃ s ∈ b.subscriptions, s.id = id ∧ s.held))

-- One step, and what is received in it and by whom. Only a subscription that is held can be
-- received from.
inductive Yields (b : Bus) : List (Nat × Receipt) → Bus → Prop
  | turn {next : Bus} (turn : b.Turn next) : Yields b [] next
  | receive (id : Nat) (held : b.Holds id) : Yields b [(id, (b.receive id).2)] (b.receive id).1
  | raise (k : Kind) : Yields b [] (b.raise k)
  | subscribe (kinds : List Kind) : Yields b [] (b.subscribe kinds).1
  | abandon (id : Nat) : Yields b [] (b.abandon id)
  | unsubscribe (id : Nat) : Yields b [] (b.unsubscribe id)
  | close : Yields b [] b.close

inductive Run (b : Bus) : List (Nat × Receipt) → Bus → Prop
  | none : Run b [] b
  | more {rs new : List (Nat × Receipt)} {c d : Bus} (before : Run b rs c) (step : Yields c new d) :
      Run b (rs ++ new) d

def receiptsOf (id : Nat) (rs : List (Nat × Receipt)) : List Receipt :=
  rs.filterMap fun (who, r) => if who = id then some r else none

def kindsOf (id : Nat) (rs : List (Nat × Receipt)) : List Kind :=
  (receiptsOf id rs).filterMap Receipt.kind?

@[simp]
theorem receiptsOf_append (id : Nat) (rs new : List (Nat × Receipt)) :
    receiptsOf id (rs ++ new) = receiptsOf id rs ++ receiptsOf id new :=
  List.filterMap_append

@[simp]
theorem kindsOf_append (id : Nat) (rs new : List (Nat × Receipt)) :
    kindsOf id (rs ++ new) = kindsOf id rs ++ kindsOf id new := by
  simp [kindsOf]

theorem receiptsOf_own (id : Nat) (r : Receipt) : receiptsOf id [(id, r)] = [r] := by
  simp [receiptsOf]

theorem receiptsOf_other {who : Nat} (other : who ≠ id) (r : Receipt) :
    receiptsOf id [(who, r)] = [] := by
  simp [receiptsOf, other]

theorem kindsOf_own (id : Nat) (r : Receipt) : kindsOf id [(id, r)] = r.kind?.toList := by
  rw [kindsOf, receiptsOf_own]
  cases r <;> rfl

theorem kindsOf_other {who : Nat} (other : who ≠ id) (r : Receipt) : kindsOf id [(who, r)] = [] := by
  rw [kindsOf, receiptsOf_other other]
  rfl

theorem Yields.goes (step : Yields b new next) : b.Goes next := by
  cases step with
  | turn turn => exact .inr turn
  | receive id => exact .inl (.receive id trivial)
  | raise k => exact .inl (.raise k)
  | subscribe kinds => exact .inl (.subscribe kinds)
  | abandon id => exact .inl (.abandon id trivial)
  | unsubscribe id => exact .inl (.unsubscribe id trivial)
  | close => exact .inl .close

theorem Run.goes (run : Run b rs c) : Relation.ReflTransGen Goes b c := by
  induction run with
  | none => exact .refl
  | more _ step ih => exact ih.tail step.goes

theorem Run.trans (first : Run b rs c) (second : Run c new d) : Run b (rs ++ new) d := by
  induction second with
  | none => simpa using first
  | more _ step ih => exact List.append_assoc .. ▸ ih.more step

theorem Run.sane (run : Run b rs c) (sane : b.Sane) : c.Sane := by
  induction run with
  | none => exact sane
  | more _ step ih => exact step.goes.elim ih.use ih.turn

def Origin (b : Bus) (t : Subscription) : Prop :=
  (∃ s ∈ b.subscriptions, s.id = t.id ∧ s.listed = t.listed ∧ (t.slot = none ∨ t.slot = s.slot)) ∨
    t.id = b.nextId ∧ t.listed ∧ t.slot = none

theorem origin_of_mem (member : s ∈ b.subscriptions) : b.Origin s :=
  .inl ⟨s, member, rfl, rfl, .inr rfl⟩

theorem origin_update {f : Subscription → Subscription}
    (member : t ∈ (b.update id f).sweep.subscriptions)
    (emptied : ∀ s, (f s).id = s.id ∧ (f s).slot = none)
    (kept : ∀ s, (f s).isNeeded → (f s).listed = s.listed) : b.Origin t := by
  obtain ⟨updated, needed⟩ := List.mem_filter.mp member
  obtain ⟨s, was, rfl⟩ := List.mem_map.mp updated
  refine .inl ⟨s, was, (update_same (fun s => (emptied s).1) s).symm, ?_⟩
  split at needed
  next hit =>
    rw [if_pos hit]
    exact ⟨(kept s needed).symm, .inl (emptied s).2⟩
  next other =>
    rw [if_neg other]
    exact ⟨rfl, .inr rfl⟩

theorem Use.origin {reach : Nat → Prop} (use : Use reach b next) (member : t ∈ next.subscriptions) :
    b.Origin t := by
  cases use with
  | raise k => exact origin_of_mem ((b.raise_flags k).1 ▸ member)
  | subscribe kinds =>
    rcases List.mem_append.mp member with old | new
    · exact origin_of_mem old
    · rw [List.mem_singleton.mp new]
      exact .inr ⟨rfl, rfl, rfl⟩
  | receive id =>
    cases slot : b.slotOf id with
    | none =>
      rw [(receive_free slot).1] at member
      exact origin_of_mem member
    | some k =>
      rw [receive_slot slot] at member
      exact origin_update member (fun _ => ⟨rfl, rfl⟩) fun _ _ => rfl
  | abandon id => exact origin_update member (fun _ => ⟨rfl, rfl⟩) fun _ _ => rfl
  | unsubscribe id => exact origin_update member (fun _ => ⟨rfl, rfl⟩) fun _ needed => nomatch needed
  | close => exact origin_of_mem member

theorem Turn.slot_closed (turn : b.Turn next) (closed : b.closed) (member : t ∈ next.subscriptions) :
    ∃ s ∈ b.subscriptions, s.id = t.id ∧ t.slot = s.slot := by
  cases turn with
  | wake =>
    obtain ⟨s, was, rfl⟩ := List.mem_map.mp member
    exact ⟨s, was, (s.hear_id b.raised).symm, s.hear_slot b.raised⟩
  | stop =>
    obtain ⟨u, heard, rfl⟩ := List.mem_map.mp (List.mem_of_mem_filter member)
    obtain ⟨s, was, rfl⟩ := List.mem_map.mp heard
    exact ⟨s, was, (s.hear_id b.raised).symm, s.hear_slot b.raised⟩
  | serve _ _ opened => simp [opened] at closed

theorem Goes.slot_closed (goes : b.Goes next) (closed : b.closed) (member : t ∈ next.subscriptions)
    {k : Kind} (filled : t.slot = some k) :
    ∃ s ∈ b.subscriptions, s.id = t.id ∧ s.slot = some k := by
  rcases goes with use | turn
  · rcases use.origin member with ⟨s, was, same, -, none | kept⟩ | ⟨-, -, none⟩
    · simp [none] at filled
    · exact ⟨s, was, same, kept ▸ filled⟩
    · simp [none] at filled
  · obtain ⟨s, was, same, kept⟩ := turn.slot_closed closed member
    exact ⟨s, was, same, kept ▸ filled⟩

theorem Goes.closed (goes : b.Goes next) (closed : b.closed) : next.closed :=
  goes.elim (fun use => use.closed closed) fun turn => turn.closed ▸ closed

theorem Goes.slot_prefix (goes : b.Goes next) (sane : b.Sane) (closed : b.closed) (id : Nat) :
    (next.slotOf id).toList <+: (b.slotOf id).toList := by
  cases slot : next.slotOf id with
  | none => exact List.nil_prefix
  | some k =>
    obtain ⟨t, found, filled⟩ := Option.bind_eq_some_iff.mp slot
    have number : t.id = id := by simpa using List.find?_some found
    obtain ⟨s, was, same, before⟩ :=
      goes.slot_closed closed (List.mem_of_find?_eq_some found) filled
    have kept : b.slotOf id = some k := by
      rw [← number, ← same, slotOf_of_mem sane was, before]
    exact kept ▸ List.prefix_refl _

theorem Yields.once (step : Yields b new next) (sane : b.Sane) (closed : b.closed) (id : Nat) :
    kindsOf id new ++ (next.slotOf id).toList <+: (b.slotOf id).toList := by
  have left := step.goes.slot_prefix sane closed id
  cases step with
  | receive who held =>
    by_cases own : who = id
    · subst own
      cases slot : b.slotOf who with
      | none =>
        have free := (receive_free slot).2
        have nothing : kindsOf who [(who, (b.receive who).2)] = [] := by
          rw [kindsOf_own]
          rcases free with ⟨receipt, -⟩ | ⟨receipt, -⟩ <;> rw [receipt] <;> rfl
        rw [nothing]
        exact slot ▸ left
      | some k =>
        rw [receive_slot slot, slotOf_take, kindsOf_own]
        exact List.prefix_refl _
    · rw [kindsOf_other own]
      exact left
  | turn | raise | subscribe | abandon | unsubscribe | close => exact left

theorem Run.closed (run : Run b rs c) (closed : b.closed) : c.closed := by
  induction run with
  | none => exact closed
  | more _ step ih => exact step.goes.closed ih

theorem Run.once (run : Run b rs c) (sane : b.Sane) (closed : b.closed) (id : Nat) :
    kindsOf id rs ++ (c.slotOf id).toList <+: (b.slotOf id).toList := by
  induction run with
  | none => exact List.prefix_refl _
  | more before step ih =>
    have one := step.once (before.sane sane) (before.closed closed) id
    rw [kindsOf_append, List.append_assoc]
    exact ((List.prefix_append_right_inj _).mpr one).trans ih

def Stops (b next : Bus) : Prop := b.Turn next ∧ next.stopped

-- The dispatcher has stopped, and has let go of the subscriptions with lower numbers than this. It
-- never heard of the others.
structure Severed (n : Nat) (b : Bus) : Prop where
  stopped : b.stopped
  numbers : n ≤ b.nextId
  before : ∀ s ∈ b.subscriptions, s.id < n → s.listed = false
  since : ∀ s ∈ b.subscriptions, n ≤ s.id → s.listed ∧ s.slot = none

theorem Turn.running (turn : b.Turn next) : b.stopped = false := by
  cases turn with
  | wake running | stop running | serve running => exact running

theorem Stops.severed (stops : b.Stops next) (sane : b.Sane) : next.Severed b.nextId := by
  obtain ⟨turn, stopped⟩ := stops
  have numbers := turn.nextId
  refine ⟨stopped, numbers ▸ Nat.le_refl _, fun s member _ => ?_, fun s member late => ?_⟩
  · obtain ⟨-, -, -, -, forgotten⟩ := turn.origin member
    exact forgotten stopped
  · have fresh := (sane.turn turn).fresh s member
    omega

theorem Severed.goes (severed : b.Severed n) (goes : b.Goes next) : next.Severed n := by
  rcases goes with use | turn
  · refine ⟨use.stopped ▸ severed.stopped, Nat.le_trans severed.numbers use.nextId,
      fun t member early => ?_, fun t member late => ?_⟩
    · rcases use.origin member with ⟨s, was, same, listed, -⟩ | ⟨fresh, -⟩
      · exact listed ▸ severed.before s was (same ▸ early)
      · have numbers := severed.numbers
        omega
    · rcases use.origin member with ⟨s, was, same, listed, slot⟩ | ⟨-, listed, none⟩
      · have since := severed.since s was (same ▸ late)
        exact ⟨listed ▸ since.1, slot.elim id fun kept => kept.trans since.2⟩
      · exact ⟨listed, none⟩
  · have running := turn.running
    rw [severed.stopped] at running
    cases running

theorem Severed.run (severed : b.Severed n) (run : Run b rs c) : c.Severed n := by
  induction run with
  | none => exact severed
  | more _ step ih => exact ih.goes step.goes

theorem Severed.receive_early (severed : b.Severed n) (early : id < n)
    (free : b.slotOf id = none) : (b.receive id).2 = .closed := by
  rcases (receive_free free).2 with ⟨receipt, -⟩ | ⟨-, s, member, rfl, listed⟩
  · exact receipt
  · rw [severed.before s member early] at listed
    cases listed

theorem Severed.receive_late (severed : b.Severed n) (late : n ≤ id) (sane : b.Sane)
    (held : b.Holds id) : (b.receive id).2 = .pending := by
  obtain ⟨s, member, rfl, -⟩ := held
  have ⟨listed, empty⟩ := severed.since s member late
  simp [Bus.receive, sane.find member, empty, listed]

theorem Severed.early (severed : b.Severed n) (sane : b.Sane) (early : id < n) (run : Run b rs c) :
    ∃ m, receiptsOf id rs = (kindsOf id rs).map .kind ++ List.replicate m .closed ∧
      (m = 0 ∨ c.slotOf id = none) := by
  induction run with
  | none => exact ⟨0, rfl, .inl rfl⟩
  | @more rs new c d before step ih =>
    obtain ⟨m, receipts, emptied⟩ := ih
    have here := severed.run before
    have closed : c.closed := (before.sane sane).stops here.stopped
    have left := step.goes.slot_prefix (before.sane sane) closed id
    have stays (free : c.slotOf id = none) : d.slotOf id = none := by
      rw [free] at left
      simpa using List.prefix_nil.mp left
    rw [receiptsOf_append, kindsOf_append, receipts]
    cases step with
    | receive who held =>
      by_cases own : who = id
      · subst own
        cases slot : c.slotOf who with
        | none =>
          refine ⟨m + 1, ?_, .inr (stays slot)⟩
          rw [receiptsOf_own, kindsOf_own, here.receive_early early slot, List.replicate_succ']
          simp [Receipt.kind?]
        | some k =>
          obtain rfl : m = 0 := emptied.resolve_right (by simp [slot])
          refine ⟨0, ?_, .inl rfl⟩
          rw [receive_slot slot, receiptsOf_own, kindsOf_own]
          simp [Receipt.kind?]
      · refine ⟨m, ?_, emptied.imp_right stays⟩
        simp [receiptsOf_other own, kindsOf_other own]
    | turn | raise | subscribe | abandon | unsubscribe | close =>
      refine ⟨m, ?_, emptied.imp_right stays⟩
      simp [kindsOf, receiptsOf]

theorem Severed.late (severed : b.Severed n) (sane : b.Sane) (late : n ≤ id) (run : Run b rs c) :
    ∀ r ∈ receiptsOf id rs, r = .pending := by
  induction run with
  | none => exact fun r none => nomatch none
  | @more rs new c d before step ih =>
    intro r member
    rw [receiptsOf_append] at member
    rcases List.mem_append.mp member with older | newer
    · exact ih r older
    · cases step with
      | receive who held =>
        by_cases own : who = id
        · subst own
          rw [receiptsOf_own, List.mem_singleton] at newer
          exact newer.trans ((severed.run before).receive_late late (before.sane sane) held)
        · simp [receiptsOf_other own] at newer
      | turn | raise | subscribe | abandon | unsubscribe | close => cases newer

theorem Run.split (run : Run b rs c) (running : b.stopped = false) (stopped : c.stopped) :
    ∃ early p q late, Run b early p ∧ p.Stops q ∧ Run q late c ∧ rs = early ++ late := by
  induction run with
  | none =>
    rw [running] at stopped
    cases stopped
  | @more rs new c d before step ih =>
    cases halted : c.stopped with
    | true =>
      obtain ⟨early, p, q, late, first, stops, second, rfl⟩ := ih halted
      exact ⟨early, p, q, late ++ new, first, stops, second.more step, List.append_assoc ..⟩
    | false =>
      have goesOn {e : Bus} (use : Use (fun _ => True) c e) : e.stopped = false :=
        use.stopped.trans halted
      cases step with
      | turn turn => exact ⟨rs, c, d, [], before, ⟨turn, stopped⟩, .none, rfl⟩
      | receive id => simp [goesOn (.receive id trivial)] at stopped
      | raise k => simp [goesOn (.raise k)] at stopped
      | subscribe kinds => simp [goesOn (.subscribe kinds)] at stopped
      | abandon id => simp [goesOn (.abandon id trivial)] at stopped
      | unsubscribe id => simp [goesOn (.unsubscribe id trivial)] at stopped
      | close => simp [goesOn .close] at stopped

-- What becomes of a bus that is closed here. No subscription receives more than what was in its
-- slot. Whoever had subscribed before the dispatcher stopped is told from then on that there is
-- nothing more, and whoever has subscribed since waits for as long as they hold on.
structure Ends (b : Bus) : Prop where
  once : ∀ rs c, Run b.close rs c → ∀ id, kindsOf id rs <+: (b.slotOf id).toList
  rests : ∀ rs c, Run b.close rs c → c.Rests ∧ (c.Idle ↔ c.stopped)
  told : ∀ rs c, Run b.close rs c → c.Idle → ∃ early p q late,
    Run {} early p ∧ p.Stops q ∧ Run q late c ∧ ∀ more d, Run c more d → ∀ id,
      (id < p.nextId → ∃ m,
        receiptsOf id more = (kindsOf id more).map .kind ++ List.replicate m .closed ∧
          (m = 0 ∨ d.slotOf id = none)) ∧
      (p.nextId ≤ id → ∀ r ∈ receiptsOf id more, r = .pending)

theorem idle_of_stopped (stopped : b.stopped) : b.Idle := by
  intro next turn
  rw [turn.running] at stopped
  cases stopped

theorem Idle.stopped (idle : b.Idle) (closed : b.closed) : b.stopped := by
  by_contra running
  rw [idle.opened (by simpa using running)] at closed
  cases closed

theorem closing_ends (begun : Run {} rs b) : b.Ends := by
  have sane : b.Sane := begun.sane sane_new
  have closing : Run {} rs b.close := by simpa using begun.more .close
  refine ⟨fun new c run id => ?_, fun new c run => ?_, fun new c run idle => ?_⟩
  · exact (List.prefix_append _ _).trans (run.once sane.close rfl id)
  · exact ⟨(run.sane sane.close).rests, fun idle => idle.stopped (run.closed rfl), idle_of_stopped⟩
  · have stopped := idle.stopped (run.closed rfl)
    obtain ⟨early, p, q, late, first, stops, second, -⟩ := (closing.trans run).split rfl stopped
    have severed : c.Severed p.nextId := (stops.severed (first.sane sane_new)).run second
    exact ⟨early, p, q, late, first, stops, second, fun more d later id =>
      ⟨fun before => severed.early (run.sane sane.close) before later,
        fun since => severed.late (run.sane sane.close) since later⟩⟩

theorem Run.turns (run : Run b rs c) (turns : Turns n c d) : Run b rs d := by
  induction turns with
  | none => exact run
  | more first _ ih => exact ih (by simpa using run.more (.turn first))

theorem Run.dispatch (run : Run b rs c) (sane : b.Sane) : Run b rs c.dispatch := by
  obtain ⟨⟨_, turns⟩, -⟩ := ((run.sane sane).rests.agrees _).mpr rfl
  exact run.turns turns

def told : Bus := ((({} : Bus).subscribe []).1.raise .keysChanged).dispatch.raise .sitesChanged

def tooLate : Bus := (told.close.dispatch.subscribe []).1

theorem run_told : Run {} [] told := by
  have first : Run {} [] (({} : Bus).subscribe []).1 := .more .none (.subscribe [])
  have raised := (Run.more first (.raise .keysChanged)).dispatch sane_new
  exact raised.more (.raise .sitesChanged)

theorem run_tooLate : Run told.close [] tooLate :=
  (Run.none.dispatch (run_told.sane sane_new).close).more (.subscribe [])

def receipts : List (Nat × Receipt) :=
  [(1, .kind .keysChanged), (2, .pending), (1, .closed), (2, .pending)]

theorem closing_ends_told : told.Ends ∧ tooLate.Idle ∧ (∃ d, Run tooLate receipts d) ∧
    kindsOf 1 receipts <+: (told.slotOf 1).toList ∧
    ∃ early p q late, Run {} early p ∧ p.Stops q ∧ Run q late tooLate ∧ p.nextId = 2 := by
  have ends := closing_ends run_told
  have idle : tooLate.Idle := (ends.rests _ _ run_tooLate).2.mpr rfl
  have run : Run tooLate receipts _ := (((Run.none.more (.receive 1 (by decide))).more
    (.receive 2 (by decide))).more (.receive 1 (by decide))).more (.receive 2 (by decide))
  have once := ends.once _ _ (run_tooLate.trans run) 1
  obtain ⟨early, p, q, late, first, stops, second, tells⟩ := ends.told _ _ run_tooLate idle
  have served : 1 < p.nextId := by
    by_contra late
    have pending := (tells _ _ run 1).2 (by omega) (.kind .keysChanged) (by decide)
    cases pending
  have unheard : p.nextId ≤ 2 := by
    by_contra early
    obtain ⟨m, same, -⟩ := (tells _ _ run 2).1 (by omega)
    have pending : Receipt.pending ∈ receiptsOf 2 receipts := by decide
    rw [same] at pending
    simp at pending
  exact ⟨ends, idle, ⟨_, run⟩, once, early, p, q, late, first, stops, second, by omega⟩

-- A subscription that comes too late is never told that there is nothing more.
theorem late_subscription_waits : ∃ c : Bus, Run ({} : Bus).close [] c ∧ c.Idle ∧ c.Holds 1 ∧
    (c.receive 1).2 = .pending ∧ ∀ more d, Run c more d → ∀ r ∈ receiptsOf 1 more, r = .pending := by
  have run : Run ({} : Bus).close [] (({} : Bus).close.dispatch.subscribe []).1 :=
    (Run.none.dispatch sane_new.close).more (.subscribe [])
  have severed : (({} : Bus).close.dispatch.subscribe []).1.Severed 1 := by
    constructor <;> decide
  exact ⟨_, run, idle_of_stopped rfl, by decide, by decide, fun more d later =>
    severed.late (run.sane sane_new.close) (Nat.le_refl 1) later⟩

end Bus

end Egress.Event
