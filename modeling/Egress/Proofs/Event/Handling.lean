import Egress.Proofs.Event.Seating

set_option autoImplicit false

namespace Egress.Event

namespace Worker

-- A poll of the subscriber has brought its call for the kind to the end, and all that has come of
-- it is there.
def Handled (x : Worker) (log : List LogLine) (k : Kind) : Prop :=
  ∃ past around, .polled k around :: past <:+ x.past ∧ ¬x.subscriber.Waits past around k ∧
    (x.subscriber.poll past around k).heard ⊆ x.heard ∧
    (x.subscriber.poll past around k).lines ⊆ log

def Owes (x : Worker) (b : Bus) (k : Kind) : Prop :=
  x.ended = false ∧ (x.holding = some k ∨ b.Hands x.subscription k ∨
    b.stopped = false ∧ b.Brings x.subscription k)

-- Unless it has failed, the worker listens to its subscription, and ends only after the dispatcher.
structure Serving (x : Worker) (b : Bus) (k : Kind) : Prop where
  asked : (Mask.ofKinds x.subscriber.kinds).contains k
  listens : x.failure = none → x.ended = false → b.Listens x.subscription k
  last : x.failure = none → x.ended → b.stopped

variable {x y : Worker} {b c : Bus} {k : Kind} {lines log later : List LogLine}

theorem Handled.mono (handled : x.Handled log k) (subscriber : y.subscriber = x.subscriber)
    (past : x.past <:+ y.past) (heard : x.heard <+: y.heard) (more : log ⊆ later) :
    y.Handled later k := by
  obtain ⟨before, around, polled, awake, mine, lines⟩ := handled
  refine ⟨before, around, polled.trans past, ?_⟩
  rw [subscriber]
  exact ⟨awake, fun _ member => heard.subset (mine member), fun _ member => more (lines member)⟩

theorem Handled.recorded {r : Recorder} (handled : x.Handled log k)
    (recorder : x.subscriber = .recorder r) : k ∈ x.heard := by
  obtain ⟨past, around, -, awake, mine, -⟩ := handled
  rw [recorder] at awake mine
  rw [r.poll_heard, if_neg awake] at mine
  exact mine (List.mem_singleton_self k)

theorem Handled.written (handled : x.Handled log k) (writer : x.subscriber = .logWriter) :
    ∃ counters connectivity, LogLine.changed counters connectivity k ∈ log := by
  obtain ⟨past, around, -, -, -, lines⟩ := handled
  rw [writer] at lines
  exact ⟨around.counters, around.connectivity, lines (List.mem_singleton_self _)⟩

structure Takes (x : Worker) (j : Kind) (y : Worker) (lines : List LogLine) : Prop where
  subscriber : y.subscriber = x.subscriber
  subscription : y.subscription = x.subscription
  past : x.past <:+ y.past
  heard : x.heard <+: y.heard
  outcome : y.ended = x.ended ∧ y.failure = x.failure ∧ (y.holding = some j ∨ y.Handled lines j) ∨
    y.ended ∧ y.failure ≠ none

variable (x) (around : Surroundings) (j : Kind)

theorem poll_takes : x.Takes j (x.polled around j) (x.poll around j).2 := by
  refine ⟨rfl, rfl, List.suffix_cons _ _, List.prefix_append _ _, .inl ⟨rfl, rfl, ?_⟩⟩
  by_cases waits : x.subscriber.Waits x.past around j
  next => exact .inl (if_pos waits)
  next =>
    refine .inr ⟨x.past, around, List.suffix_rfl, waits, List.subset_append_right _ _, ?_⟩
    change (x.subscriber.poll x.past around j).lines ⊆ (x.poll around j).2
    unfold poll
    dsimp only
    split
    · exact List.subset_append_left _ _
    · exact List.Subset.refl _

theorem start_takes : x.Takes j (x.start around j).1 (x.start around j).2 := by
  unfold start
  split
  · exact ⟨rfl, rfl, List.suffix_rfl, List.prefix_rfl, .inr ⟨rfl, nofun⟩⟩
  · obtain ⟨subscriber, subscription, past, heard, outcome⟩ := (x.called j).poll_takes around j
    exact ⟨subscriber, subscription, (List.suffix_cons _ _).trans past, heard, outcome⟩

variable {x}

theorem Takes.kind (takes : x.Takes k y lines) (running : x.ended = false) (sound : y.failure = none) :
    y.ended = false ∧ (y.holding = some k ∨ y.Handled lines k) := by
  rcases takes.outcome with ⟨ended, -, rest⟩ | ⟨-, failed⟩
  · exact ⟨ended.trans running, rest⟩
  · exact absurd sound failed

theorem Takes.failure (takes : x.Takes k y lines) (sound : y.failure = none) : x.failure = none := by
  rcases takes.outcome with ⟨-, same, -⟩ | ⟨-, failed⟩
  · exact same.symm.trans sound
  · exact absurd sound failed

structure Follows (x : Worker) (b : Bus) (k : Kind) (y : Worker) (c : Bus) (lines : List LogLine) :
    Prop where
  subscriber : y.subscriber = x.subscriber
  subscription : y.subscription = x.subscription
  failure : y.failure = none → x.failure = none
  past : x.past <:+ y.past
  heard : x.heard <+: y.heard
  serving : y.Serving c k
  owes : y.failure = none → x.Owes b k → y.Handled lines k ∨ y.Owes c k

theorem Follows.refl (serving : x.Serving b k) : x.Follows b k x b [] :=
  ⟨rfl, rfl, id, List.suffix_rfl, List.prefix_rfl, serving, fun _ owes => .inr owes⟩

theorem Follows.trans {z : Worker} {d : Bus} {more : List LogLine} (h : x.Follows b k y c lines)
    (g : y.Follows c k z d more) : x.Follows b k z d (lines ++ more) where
  subscriber := g.subscriber.trans h.subscriber
  subscription := g.subscription.trans h.subscription
  failure := h.failure ∘ g.failure
  past := h.past.trans g.past
  heard := h.heard.trans g.heard
  serving := g.serving
  owes sound owes := by
    rcases h.owes (g.failure sound) owes with handled | later
    · exact .inl (handled.mono g.subscriber g.past g.heard (List.subset_append_left _ _))
    · rcases g.owes sound later with handled | latest
      · exact .inl (handled.mono rfl List.suffix_rfl List.prefix_rfl (List.subset_append_right _ _))
      · exact .inr latest

-- Once it has taken something up, what else it owes must be where it was.
theorem Takes.follows {j : Kind} (takes : x.Takes j y lines) (serving : x.Serving b k)
    (running : x.ended = false)
    (listens : y.failure = none → b.Listens x.subscription k → c.Listens x.subscription k)
    (owes : y.failure = none → b.Listens x.subscription k → x.Owes b k →
      j = k ∨ c.Hands x.subscription k ∨ c.stopped = false ∧ c.Brings x.subscription k) :
    x.Follows b k y c lines := by
  have before (sound : y.failure = none) : b.Listens x.subscription k :=
    serving.listens (takes.failure sound) running
  have taken (sound : y.failure = none) : y.ended = false ∧ (y.holding = some j ∨ y.Handled lines j) :=
    takes.kind running sound
  refine ⟨takes.subscriber, takes.subscription, takes.failure, takes.past, takes.heard, ⟨?_, ?_, ?_⟩,
    fun sound owed => ?_⟩
  · rw [takes.subscriber]
    exact serving.asked
  · intro sound _
    rw [takes.subscription]
    exact listens sound (before sound)
  · intro sound ended
    rw [(taken sound).1] at ended
    cases ended
  · obtain ⟨goesOn, hand⟩ := taken sound
    rcases owes sound (before sound) owed with rfl | way
    · rcases hand with holding | handled
      · exact .inr ⟨goesOn, .inl holding⟩
      · exact .inl handled
    · refine .inr ⟨goesOn, .inr ?_⟩
      rw [takes.subscription]
      exact way

theorem kind_follows {j : Kind} (serving : x.Serving b k) (running : x.ended = false)
    (free : x.holding = none) (around : Surroundings)
    (receipt : b.receive x.subscription = (c, .kind j)) :
    x.Follows b k (x.start around j).1
      (if (x.start around j).1.ended then c.abandon (x.start around j).1.subscription else c)
      (x.start around j).2 := by
  have takes := x.start_takes around j
  -- Only a subscriber that has failed gives its subscription up.
  have kept (sound : (x.start around j).1.failure = none) :
      (if (x.start around j).1.ended then c.abandon (x.start around j).1.subscription else c) = c :=
    if_neg (by simp [(takes.kind running sound).1])
  refine takes.follows serving running (fun sound listens => ?_) fun sound listens owed => ?_
  · rw [kept sound, (listens.took receipt).2]
    exact listens.take
  · rw [kept sound]
    obtain ⟨hands, rfl⟩ := listens.took receipt
    by_cases same : j = k
    next => exact .inl same
    next =>
      refine .inr ?_
      rcases owed.2 with hand | slot | ⟨running, way⟩
      · rw [free] at hand
        cases hand
      · exact absurd (listens.hands_unique hands slot) same
      · exact .inr ⟨running, listens.brings_take way hands same⟩

theorem closed_follows (serving : x.Serving b k) (running : x.ended = false)
    (free : x.holding = none) (receipt : b.receive x.subscription = (c, .closed)) :
    x.Follows b k { x with ended := true } (c.abandon x.subscription) [] := by
  have ends (sound : x.failure = none) : b.stopped ∧ ∀ j, ¬b.Hands x.subscription j :=
    (serving.listens sound running).dismissed receipt
  refine ⟨rfl, rfl, id, List.suffix_rfl, List.prefix_rfl, ⟨serving.asked, nofun, fun sound _ => ?_⟩,
    fun sound owed => ?_⟩
  · have use : Bus.Use (fun _ => True) b (b.receive x.subscription).1 := .receive _ trivial
    rw [receipt] at use
    exact use.stopped.trans (ends sound).1
  · obtain ⟨stopped, nothing⟩ := ends sound
    rcases owed.2 with hand | slot | ⟨goesOn, -⟩
    · rw [free] at hand
      cases hand
    · exact absurd slot (nothing k)
    · rw [goesOn] at stopped
      cases stopped

theorem step_follows (serving : x.Serving b k) (around : Surroundings) :
    x.Follows b k (x.step around b).1 (x.step around b).2.1 (x.step around b).2.2 := by
  cases finished : x.ended with
  | true => simpa [step, finished] using Follows.refl serving
  | false =>
    cases holding : x.holding with
    | some j =>
      have step : x.step around b = (x.polled around j, b, (x.poll around j).2) := by
        simp [step, finished, holding, polled]
      rw [step]
      refine (x.poll_takes around j).follows serving finished (fun _ => id) fun _ _ owed => ?_
      rcases owed.2 with hand | way
      · exact .inl (Option.some.inj (holding.symm.trans hand))
      · exact .inr way
    | none =>
      generalize receipt : b.receive x.subscription = result
      obtain ⟨after, heard⟩ := result
      cases heard with
      | kind j =>
        have step : x.step around b = ((x.start around j).1,
            if (x.start around j).1.ended then after.abandon (x.start around j).1.subscription
            else after, (x.start around j).2) := by
          simp [step, finished, holding, receipt]
        rw [step]
        exact kind_follows serving finished holding around receipt
      | pending =>
        have step : x.step around b = (x, after, []) := by simp [step, finished, holding, receipt]
        rw [step, Bus.receive_pending receipt]
        exact .refl serving
      | closed =>
        have step : x.step around b =
            ({ x with ended := true }, after.abandon x.subscription, []) := by
          simp [step, finished, holding, receipt]
        rw [step]
        exact closed_follows serving finished holding receipt

end Worker

end Egress.Event
