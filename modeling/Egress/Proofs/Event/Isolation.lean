import Egress.Proofs.Event.Settling
import Egress.Scenario.OnBus

set_option autoImplicit false

namespace Egress.Event

namespace Subscription

variable {s : Subscription} {word : Mask}

theorem rest_held (held : s.held) : s.rest.held ∧ s.rest.listed = s.listed := by
  have kept : s.serve.held ∧ s.serve.listed = s.listed := by
    rw [serve, if_pos held]
    split <;> exact ⟨held, rfl⟩
  unfold rest
  split
  · exact kept
  · exact ⟨held, rfl⟩

def unnumbered (s : Subscription) : Subscription := { s with id := 0 }

theorem unnumbered_settles (s : Subscription) (word : Mask) :
    ((s.hear word).rest).unnumbered = (s.unnumbered.hear word).rest := by
  have heard : (s.unnumbered.hear word) = (s.hear word).unnumbered := by
    unfold hear unnumbered
    split <;> rfl
  have serves (t : Subscription) : t.unnumbered.serve = t.serve.unnumbered := by
    unfold serve unnumbered
    dsimp only
    split
    · split <;> rfl
    · rfl
  rw [heard, rest, rest]
  change _ = if (s.hear word).isReady then _ else _
  rw [serves]
  split <;> rfl

end Subscription

namespace Bus

variable {b : Bus} {s : Subscription} {id : Nat}

theorem Sane.find (sane : b.Sane) (member : s ∈ b.subscriptions) : b.find? s.id = some s :=
  find_of_key sane.numbers member

theorem Sane.settled_opened (sane : b.Sane) (opened : b.closed = false) :
    b.settled = sweep { b.absorb with
      wake := false
      subscriptions := b.absorb.subscriptions.map Subscription.rest } := by
  rw [settled, if_neg (by simp [sane.running opened]), if_neg (by simp [opened])]

theorem Sane.mem_settled (sane : b.Sane) (opened : b.closed = false) (member : s ∈ b.subscriptions)
    (held : s.held) : (s.hear b.raised).rest ∈ b.settled.subscriptions := by
  rw [sane.settled_opened opened]
  have stays := (Subscription.rest_held (s := s.hear b.raised) (s.hear_held _ ▸ held)).1
  exact List.mem_filter.mpr
    ⟨List.mem_map_of_mem (List.mem_map_of_mem (f := (·.hear b.raised)) member), by simp [stays]⟩

end Bus

end Egress.Event

namespace Egress.Scenario.OnBus

open Event

namespace Step

def owner? : Step → Option String
  | subscribe name _ | unsubscribe name | drop name | tryReceive name | receive name
  | drain name => some name
  | raise _ | settle | close | describe => none

def concerns (name : String) (step : Step) : Bool := step.owner?.all (· == name)

-- The steps that a bus is used with while it is open.
def isPlain : Step → Bool
  | drain _ | close | describe => false
  | _ => true

def isReading : Step → Bool
  | tryReceive _ | receive _ => true
  | _ => false

end Step

-- Steps on a stage, with what each is answered. The dispatcher serves in any order.
inductive Plays : Stage → List Step → List Reply → Prop
  | nil (s : Stage) : Plays s [] []
  | settle {s : Stage} {bus : Bus} {rest : List Step} {replies : List Reply}
      (settles : s.bus.Settles bus) (later : Plays { s with bus } rest replies) :
      Plays s (.settle :: rest) (.nothing :: replies)
  | step {s : Stage} {step : Step} {rest : List Step} {replies : List Reply}
      (other : step ≠ .settle) (later : Plays (s.perform step).1 rest replies) :
      Plays s (step :: rest) ((s.perform step).2 :: replies)

def received (name : String) (steps : List Step) (replies : List Reply) : List Reply :=
  (steps.zip replies).filterMap fun (step, reply) =>
    if step.concerns name && step.isReading then some reply else none

-- What one subscriber has of the bus.
structure Lone where
  word : Mask := .empty
  own : Option Subscription := none

namespace Lone

def receipt (l : Lone) : Receipt :=
  match l.own with
  | some s => s.slot.elim .pending .kind
  | none => .closed

def perform (l : Lone) : Step → Lone
  | .subscribe _ kinds => { l with own := some { id := 0, mask := .ofKinds kinds } }
  | .unsubscribe _ | .drop _ => { l with own := none }
  | .raise kinds => { l with word := kinds.foldl (fun m k => m.union (.single k)) l.word }
  | .settle => { word := .empty, own := l.own.map fun s => (s.hear l.word).rest }
  | .tryReceive _ | .receive _ => { l with own := l.own.map fun s => { s with slot := none } }
  | .drain _ | .close | .describe => l

def reply (l : Lone) : Step → Reply
  | .tryReceive _ =>
    match l.receipt with
    | .kind k => .receipt (.kind k)
    | _ => .nothing
  | _ => .receipt l.receipt

def receives : Lone → List Step → List Reply
  | _, [] => []
  | l, step :: rest =>
    if step.isReading then l.reply step :: (l.perform step).receives rest
    else (l.perform step).receives rest

end Lone

namespace Stage

def alone (s : Stage) (name : String) : Lone where
  word := s.bus.raised
  own := (s.named.lookup name).bind fun id => (s.bus.find? id).map Subscription.unnumbered

structure Tidy (s : Stage) : Prop where
  sane : s.bus.Sane
  opened : s.bus.closed = false
  present : ∀ name id, s.named.lookup name = some id →
    ∃ o ∈ s.bus.subscriptions, o.id = id ∧ o.held ∧ o.listed
  apart : ∀ name other id, s.named.lookup name = some id → s.named.lookup other = some id →
    name = other

variable {s : Stage} {name : String} {o : Subscription}

theorem alone_of_member (sane : s.bus.Sane) (known : s.named.lookup name = some o.id)
    (member : o ∈ s.bus.subscriptions) :
    s.alone name = { word := s.bus.raised, own := some o.unnumbered } := by
  simp [alone, known, sane.find member]

theorem alone_of_unknown (unknown : s.named.lookup name = none) :
    s.alone name = { word := s.bus.raised } := by
  simp [alone, unknown]

theorem Tidy.change {t : Stage} {f : Subscription → Subscription} (tidy : s.Tidy)
    (sane : t.bus.Sane) (opened : t.bus.closed = false) (same : ∀ o, (f o).id = o.id)
    (names : ∀ name id, t.named.lookup name = some id → s.named.lookup name = some id)
    (keeps : ∀ name, ∀ o ∈ s.bus.subscriptions, t.named.lookup name = some o.id → o.held →
      o.listed → f o ∈ t.bus.subscriptions ∧ (f o).held ∧ (f o).listed) : t.Tidy where
  sane := sane
  opened := opened
  present name id known := by
    obtain ⟨o, member, rfl, held, listed⟩ := tidy.present name id (names name id known)
    obtain ⟨there, stays⟩ := keeps name o member known held listed
    exact ⟨f o, there, same o, stays⟩
  apart name other id known too :=
    tidy.apart name other id (names name id known) (names other id too)

theorem Tidy.alone_change {t : Stage} {g : Subscription → Subscription} (tidy : s.Tidy)
    (sane : t.bus.Sane) (named : t.named.lookup name = s.named.lookup name)
    (becomes : ∀ o ∈ s.bus.subscriptions, s.named.lookup name = some o.id → o.held → o.listed →
      ∃ after ∈ t.bus.subscriptions, after.id = o.id ∧ after.unnumbered = g o.unnumbered) :
    t.alone name = { word := t.bus.raised, own := (s.alone name).own.map g } := by
  cases known : s.named.lookup name with
  | none => rw [alone_of_unknown known, alone_of_unknown (named.trans known), Option.map_none]
  | some id =>
    obtain ⟨o, member, rfl, held, listed⟩ := tidy.present name id known
    obtain ⟨after, there, number, unnumbered⟩ := becomes o member known held listed
    rw [alone_of_member tidy.sane known member,
      alone_of_member sane ((named.trans known).trans (congrArg some number.symm)) there,
      Option.map_some, unnumbered]

theorem raises_kept (kinds : List Kind) (b : Bus) :
    (kinds.foldl Bus.raise b).subscriptions = b.subscriptions ∧
      (kinds.foldl Bus.raise b).closed = b.closed ∧
      (kinds.foldl Bus.raise b).raised =
        kinds.foldl (fun m k => m.union (.single k)) b.raised := by
  induction kinds generalizing b with
  | nil => exact ⟨rfl, rfl, rfl⟩
  | cons k rest ih =>
    obtain ⟨subscriptions, closed, raised⟩ := ih (b.raise k)
    rw [List.foldl_cons, List.foldl_cons, subscriptions, closed, raised]
    unfold Bus.raise Bus.mark Bus.call
    dsimp only
    split <;> exact ⟨rfl, rfl, rfl⟩

theorem Tidy.raise (tidy : s.Tidy) (kinds : List Kind) :
    (s.perform (.raise kinds)).1.Tidy ∧ ∀ name, (s.perform (.raise kinds)).1.alone name =
      (s.alone name).perform (.raise kinds) := by
  obtain ⟨subscriptions, closed, raised⟩ := raises_kept kinds s.bus
  have sane : (kinds.foldl Bus.raise s.bus).Sane := by
    clear subscriptions closed raised
    have sane := tidy.sane
    generalize s.bus = b at sane
    induction kinds generalizing b with
    | nil => exact sane
    | cons k rest ih => exact ih _ (sane.raise k)
  constructor
  · refine tidy.change (f := fun o => o) sane (closed.trans tidy.opened) (fun _ => rfl)
      (fun _ _ known => known) fun name o member _ held listed => ?_
    exact ⟨subscriptions.symm ▸ member, held, listed⟩
  · intro name
    refine (tidy.alone_change (t := { s with bus := kinds.foldl Bus.raise s.bus })
      (g := fun o => o) sane rfl fun o member _ _ _ =>
        ⟨o, subscriptions.symm ▸ member, rfl, rfl⟩).trans ?_
    simp only [Lone.perform, raised, Option.map_id']
    rfl

theorem Tidy.settle {bus : Bus} (tidy : s.Tidy) (settles : s.bus.Settles bus) :
    ({ s with bus } : Stage).Tidy ∧ ∀ name,
      ({ s with bus } : Stage).alone name = (s.alone name).perform .settle := by
  obtain ⟨n, turns⟩ := settles.1
  obtain ⟨-, -, sane⟩ := turns.approach tidy.sane
  obtain rfl := settles.eq_settled tidy.sane
  have opened : s.bus.settled.closed = false := by
    rw [tidy.sane.settled_opened tidy.opened]
    exact tidy.opened
  have empty : s.bus.settled.raised = .empty := by rw [tidy.sane.settled_opened tidy.opened]; rfl
  constructor
  · refine tidy.change (f := fun o => (o.hear s.bus.raised).rest) sane opened (fun o => by simp)
      (fun _ _ known => known) fun name o member _ held listed => ?_
    have heard : (o.hear s.bus.raised).held := o.hear_held _ ▸ held
    obtain ⟨stays, same⟩ := Subscription.rest_held heard
    exact ⟨tidy.sane.mem_settled tidy.opened member held, stays,
      same.trans ((o.hear_listed _).trans listed)⟩
  · intro name
    rw [tidy.alone_change (t := { s with bus := s.bus.settled })
      (g := fun o => (o.hear s.bus.raised).rest) sane rfl fun o member _ held _ =>
      ⟨_, tidy.sane.mem_settled tidy.opened member held, by simp, o.unnumbered_settles _⟩]
    exact congrArg (Lone.mk · _) empty

section Leaving

variable (leave : Bus → Nat → Bus) {f : Subscription → Subscription}
  (leaves : ∀ b id, leave b id = (b.update id f).sweep) (same : ∀ o, (f o).id = o.id)

include leaves same

theorem Tidy.forget_bus (tidy : s.Tidy) (name : String) : (s.forget name leave).bus.Sane ∧
    (s.forget name leave).bus.raised = s.bus.raised ∧
    (s.forget name leave).bus.closed = s.bus.closed ∧
    ∀ o ∈ s.bus.subscriptions, s.named.lookup name ≠ some o.id → o.held →
      o ∈ (s.forget name leave).bus.subscriptions := by
  unfold forget
  split
  next id known =>
    rw [leaves, known]
    refine ⟨tidy.sane.update_sweep same id, rfl, rfl, fun o member other held => ?_⟩
    have other : o.id ≠ id := fun hit => other (congrArg some hit.symm)
    exact List.mem_filter.mpr ⟨List.mem_map.mpr ⟨o, member, if_neg other⟩, by simp [held]⟩
  next => exact ⟨tidy.sane, rfl, rfl, fun _ member _ _ => member⟩

omit leaves same in
theorem forget_named (s : Stage) (name other : String) (leave : Bus → Nat → Bus) :
    (s.forget name leave).named.lookup other =
      if other = name then none else s.named.lookup other := by
  unfold forget
  split
  · exact lookup_filter_ne name s.named other
  next unknown =>
    split
    next same => rw [same, unknown]
    next => rfl

theorem Tidy.forget (tidy : s.Tidy) (name : String) : (s.forget name leave).Tidy ∧
    ∀ other, (s.forget name leave).alone other =
      if other = name then { s.alone name with own := none } else s.alone other := by
  obtain ⟨sane, raised, closed, stays⟩ := tidy.forget_bus leave leaves same name
  have away {other : String} {id : Nat} (different : other ≠ name)
      (known : s.named.lookup other = some id) : s.named.lookup name ≠ some id :=
    fun too => different (tidy.apart other name id known too)
  constructor
  · refine tidy.change (f := fun o => o) sane (closed.trans tidy.opened) (fun _ => rfl)
      (fun other id known => ?_) fun other o member known held listed => ?_
    · rw [forget_named] at known
      split at known
      · cases known
      · exact known
    · rw [forget_named] at known
      split at known
      next => cases known
      next different => exact ⟨stays o member (away different known) held, held, listed⟩
  · intro other
    have named := forget_named s name other leave
    split at named
    next gone =>
      rw [alone_of_unknown named, if_pos gone, raised]
      rfl
    next different =>
      rw [if_neg different, tidy.alone_change (g := fun o => o) sane named fun o member known held _ =>
        ⟨o, stays o member (away different known) held, rfl, rfl⟩, raised, Option.map_id']
      rfl

end Leaving

theorem Tidy.hold {new : Subscription} (tidy : s.Tidy) (free : s.named.lookup name = none)
    (member : new ∈ s.bus.subscriptions) (held : new.held) (listed : new.listed)
    (unused : ∀ other, s.named.lookup other ≠ some new.id) :
    ({ s with named := s.named ++ [(name, new.id)] } : Stage).Tidy ∧
      ∀ other, ({ s with named := s.named ++ [(name, new.id)] } : Stage).alone other =
        if other = name then { word := s.bus.raised, own := some new.unnumbered }
        else s.alone other := by
  have named (other : String) : (s.named ++ [(name, new.id)]).lookup other =
      if other = name then some new.id else s.named.lookup other := by
    rw [List.lookup_append]
    split
    next hit => simp [hit, free]
    next different => simp [List.lookup_cons, beq_eq_false_iff_ne.mpr different]
  constructor
  · refine ⟨tidy.sane, tidy.opened, fun other id known => ?_, fun one other id known too => ?_⟩
    · rw [named] at known
      split at known
      · cases known
        exact ⟨new, member, rfl, held, listed⟩
      · exact tidy.present other id known
    · rw [named] at known too
      split at known <;> split at too
      next one other => rw [one, other]
      next => exact absurd (known ▸ too) (unused other)
      next => exact absurd (too ▸ known) (unused one)
      next => exact tidy.apart one other id known too
  · intro other
    by_cases hit : other = name
    · rw [if_pos hit]
      exact alone_of_member (s := { s with named := s.named ++ [(name, new.id)] }) tidy.sane
        ((named other).trans (if_pos hit)) member
    · rw [if_neg hit]
      unfold alone
      rw [named, if_neg hit]

theorem Tidy.subscribe (tidy : s.Tidy) (name : String) (kinds : List Kind) :
    (s.subscribe name kinds).1.Tidy ∧ ∀ other, (s.subscribe name kinds).1.alone other =
      if other = name then (s.alone name).perform (.subscribe name kinds) else s.alone other := by
  let new : Subscription := { id := s.bus.nextId, mask := .ofKinds kinds }
  let joined : Stage := { s with bus := (s.bus.subscribe kinds).1 }
  have older (other : String) : s.named.lookup other ≠ some new.id := by
    intro known
    obtain ⟨o, member, number, -⟩ := tidy.present other _ known
    exact Nat.ne_of_lt (tidy.sane.fresh o member) number
  have sane : joined.bus.Sane := tidy.sane.subscribe kinds
  have joins : joined.Tidy := by
    refine tidy.change (f := fun o => o) sane tidy.opened (fun _ => rfl) (fun _ _ known => known)
      fun other o member _ held listed => ⟨List.mem_append_left _ member, held, listed⟩
  have same (other : String) : joined.alone other = s.alone other := by
    refine (tidy.alone_change (t := joined) (g := fun o => o) sane rfl fun o member _ _ _ =>
      ⟨o, List.mem_append_left _ member, rfl, rfl⟩).trans ?_
    rw [Option.map_id']
    rfl
  -- The older subscription of that name is dropped before the new one takes its place.
  obtain ⟨-, raised, -, stays⟩ :=
    joins.forget_bus Bus.abandon (fun _ _ => rfl) (fun _ => by rfl) name
  obtain ⟨left, lone⟩ := joins.forget Bus.abandon (fun _ _ => rfl) (fun _ => by rfl) name
  have member := stays new (List.mem_append_right _ (List.mem_singleton_self _)) (older name) rfl
  have free : (joined.forget name Bus.abandon).named.lookup name = none :=
    (forget_named ..).trans (if_pos rfl)
  obtain ⟨tidied, holds⟩ := left.hold free member rfl rfl fun other => by
    rw [forget_named]
    split
    · exact nofun
    · exact older other
  refine ⟨tidied, fun other => (holds other).trans ?_⟩
  by_cases hit : other = name
  · rw [if_pos hit, if_pos hit, raised]
    rfl
  · rw [if_neg hit, if_neg hit, lone, if_neg hit, same]

def take (s : Stage) (id : Nat) : Stage :=
  { s with bus := (s.bus.update id fun o => { o with slot := none }).sweep }

theorem Tidy.take (tidy : s.Tidy) (known : s.named.lookup name = some o.id) :
    (s.take o.id).Tidy ∧ ∀ other, (s.take o.id).alone other =
      if other = name then (s.alone name).perform (.receive name) else s.alone other := by
  have sane : (s.take o.id).bus.Sane := tidy.sane.update_sweep (fun _ => by rfl) o.id
  have becomes {t : Subscription} (there : t ∈ s.bus.subscriptions) (held : t.held) :
      (if t.id = o.id then { t with slot := none } else t) ∈ (s.take o.id).bus.subscriptions := by
    refine List.mem_filter.mpr ⟨List.mem_map_of_mem there, ?_⟩
    split <;> simp [held]
  constructor
  · refine tidy.change (f := fun t => if t.id = o.id then { t with slot := none } else t) sane
      tidy.opened (fun t => by split <;> rfl) (fun _ _ known => known)
      fun other t there _ held listed => ⟨becomes there held, ?_⟩
    split <;> exact ⟨held, listed⟩
  · intro other
    by_cases hit : other = name
    next =>
      rw [if_pos hit, hit]
      refine (tidy.alone_change (t := s.take o.id) (g := fun t => { t with slot := none }) sane rfl
        fun t there mine held _ => ⟨_, becomes there held, ?_, ?_⟩).trans rfl
      · split <;> rfl
      · rw [known] at mine
        rw [if_pos (Option.some.inj mine).symm]
        rfl
    next =>
      rw [if_neg hit]
      refine (tidy.alone_change (t := s.take o.id) (g := fun t => t) sane rfl
        fun t there its held _ => ⟨t, ?_, rfl, rfl⟩).trans ?_
      · have away : t.id ≠ o.id := fun same => hit (tidy.apart other name t.id its (same ▸ known))
        have there := becomes there held
        rwa [if_neg away] at there
      · rw [Option.map_id']
        rfl

theorem Tidy.receive (tidy : s.Tidy) (name : String) :
    (s.receive name).1.Tidy ∧ (s.receive name).2 = (s.alone name).receipt ∧
      ∀ other, (s.receive name).1.alone other =
        if other = name then (s.alone name).perform (.receive name) else s.alone other := by
  -- Without anything in the slot, all stays as it is.
  have stays (same : (s.alone name).perform (.receive name) = s.alone name) (other : String) :
      s.alone other =
        if other = name then (s.alone name).perform (.receive name) else s.alone other := by
    by_cases hit : other = name
    next => rw [if_pos hit, hit, same]
    next => rw [if_neg hit]
  cases known : s.named.lookup name with
  | none =>
    have answer : s.receive name = (s, .closed) := by simp [Stage.receive, known]
    have mine := alone_of_unknown known
    rw [answer]
    refine ⟨tidy, ?_, stays ?_⟩
    · rw [mine]
      rfl
    · rw [mine]
      rfl
  | some id =>
    obtain ⟨o, member, rfl, held, listed⟩ := tidy.present name id known
    have found := tidy.sane.find member
    have mine := alone_of_member tidy.sane known member
    cases slot : o.slot with
    | none =>
      have answer : s.receive name = (s, .pending) := by
        simp [Stage.receive, known, Bus.receive, found, slot, listed]
      rw [answer]
      refine ⟨tidy, ?_, stays ?_⟩
      · simp [mine, Lone.receipt, Subscription.unnumbered, slot]
      · simp [mine, Lone.perform, Subscription.unnumbered, slot]
    | some k =>
      have answer : s.receive name = (s.take o.id, .kind k) := by
        simp [Stage.receive, known, Bus.receive, found, slot, Stage.take]
      obtain ⟨taken, alone⟩ := tidy.take known
      rw [answer]
      refine ⟨taken, ?_, alone⟩
      simp [mine, Lone.receipt, Subscription.unnumbered, slot]

theorem Tidy.perform {step : Step} (tidy : s.Tidy) (plain : step.isPlain) (other : step ≠ .settle) :
    (s.perform step).1.Tidy ∧ ∀ name, (s.perform step).1.alone name =
      if step.concerns name then (s.alone name).perform step else s.alone name := by
  have own {t : Stage} (act : Lone → Lone) (one : String)
      (alone : ∀ name, t.alone name = if name = one then act (s.alone one) else s.alone name)
      (name : String) :
      t.alone name = if (some one).all (· == name) then act (s.alone name) else s.alone name := by
    rw [alone]
    by_cases hit : name = one
    · simp [hit]
    · rw [if_neg hit, if_neg (by simpa using Ne.symm hit)]
  have reads (one : String) : (s.receive one).1.Tidy ∧ ∀ name, (s.receive one).1.alone name =
      if (some one).all (· == name) then (s.alone name).perform (.receive one)
      else s.alone name := by
    obtain ⟨tidied, -, alone⟩ := tidy.receive one
    exact ⟨tidied, own (Lone.perform · (.receive one)) one alone⟩
  cases step with
  | settle => exact absurd rfl other
  | drain | close | describe => cases plain
  | raise kinds => exact tidy.raise kinds
  | subscribe one kinds =>
    obtain ⟨tidied, alone⟩ := tidy.subscribe one kinds
    exact ⟨tidied, own (Lone.perform · (.subscribe one kinds)) one alone⟩
  | unsubscribe one =>
    obtain ⟨tidied, alone⟩ :=
      tidy.forget Bus.unsubscribe (fun _ _ => rfl) (fun _ => by rfl) one
    exact ⟨tidied, own (Lone.perform · (.unsubscribe one)) one alone⟩
  | drop one =>
    obtain ⟨tidied, alone⟩ := tidy.forget Bus.abandon (fun _ _ => rfl) (fun _ => by rfl) one
    exact ⟨tidied, own (Lone.perform · (.drop one)) one alone⟩
  | tryReceive one =>
    have stage : (s.perform (.tryReceive one)).1 = (s.receive one).1 := by
      unfold Stage.perform
      dsimp only
      split
      next found => rw [found]
      next found => rw [found]
    rw [stage]
    exact reads one
  | receive one => exact reads one

theorem Tidy.reply {step : Step} (tidy : s.Tidy) (reading : step.isReading)
    (concerned : step.concerns name) : (s.perform step).2 = (s.alone name).reply step := by
  cases step with
  | receive one =>
    obtain rfl : one = name := by simpa [Step.concerns, Step.owner?] using concerned
    obtain ⟨-, receipt, -⟩ := tidy.receive one
    exact congrArg Reply.receipt receipt
  | tryReceive one =>
    obtain rfl : one = name := by simpa [Step.concerns, Step.owner?] using concerned
    obtain ⟨-, receipt, -⟩ := tidy.receive one
    unfold Lone.reply Stage.perform
    rw [← receipt]
    dsimp only
    rcases s.receive one with ⟨t, _ | _ | _⟩ <;> rfl
  | subscribe | unsubscribe | drop | raise | settle | drain | close | describe => cases reading

theorem Tidy.plays {steps : List Step} {replies : List Reply} (tidy : s.Tidy)
    (plays : Plays s steps replies) (plain : ∀ step ∈ steps, step.isPlain) :
    received name steps replies =
      (s.alone name).receives (steps.filter (·.concerns name)) := by
  induction plays with
  | nil => rfl
  | settle settles later ih =>
    obtain ⟨tidied, alone⟩ := tidy.settle settles
    have ih := ih tidied fun step member => plain step (List.mem_cons_of_mem _ member)
    rw [alone] at ih
    exact ih
  | @step s step rest replies other later ih =>
    obtain ⟨tidied, alone⟩ := tidy.perform (plain step List.mem_cons_self) other
    have ih := ih tidied fun step member => plain step (List.mem_cons_of_mem _ member)
    rw [alone] at ih
    cases concerned : step.concerns name with
    | false =>
      rw [List.filter_cons_of_neg (by simp [concerned])]
      simpa [received, concerned] using ih
    | true =>
      rw [List.filter_cons_of_pos concerned]
      cases reading : step.isReading with
      | false => simpa [received, concerned, reading, Lone.receives] using ih
      | true =>
        have answer := tidy.reply reading concerned
        simpa [received, concerned, reading, Lone.receives, answer] using ih

theorem Tidy.run {steps : List Step} (tidy : s.Tidy) (plain : ∀ step ∈ steps, step.isPlain) :
    Plays s steps ((s.run steps).map (·.reply)) := by
  induction steps generalizing s with
  | nil => exact .nil s
  | cons step rest ih =>
    have plainer (step : Step) (member : step ∈ rest) := plain step (List.mem_cons_of_mem _ member)
    by_cases settle : step = .settle
    · subst settle
      have settles : s.bus.Settles s.bus.dispatch := (tidy.sane.rests.agrees _).mpr rfl
      exact .settle settles (ih (tidy.settle settles).1 plainer)
    · exact .step settle (ih (tidy.perform (plain step List.mem_cons_self) settle).1 plainer)

theorem tidy_new : ({} : Stage).Tidy :=
  ⟨Bus.sane_new, rfl, (fun _ _ known => nomatch known), fun _ _ _ known => nomatch known⟩

end Stage

-- What a subscriber receives does not depend on the others. The steps can be played, as the
-- dispatcher does it and in any other order of service. Each subscriber then receives what it
-- receives if nobody else takes a step.
structure Isolates (steps : List Step) : Prop where
  played : Plays {} steps ((play steps).map (·.reply))
  apart : ∀ name replies others, Plays {} steps replies →
    Plays {} (steps.filter (·.concerns name)) others →
    received name steps replies = received name (steps.filter (·.concerns name)) others
  lonely : ∀ name, Plays {} (steps.filter (·.concerns name))
    ((play (steps.filter (·.concerns name))).map (·.reply))

-- While the bus is open, whatever happens on it leaves each subscriber to itself; and wherever the
-- bus has come to, the dispatcher comes to rest, in the same state for every order of service.
theorem subscribers_isolated {steps : List Step} (plain : ∀ step ∈ steps, step.isPlain) :
    Isolates steps ∧ ∀ b, Bus.Reaches b → b.Rests := by
  have fewer (name : String) : ∀ step ∈ steps.filter (·.concerns name), step.isPlain :=
    fun step member => plain step (List.mem_of_mem_filter member)
  refine ⟨⟨Stage.tidy_new.run plain, fun name replies others plays alone => ?_, fun name =>
    Stage.tidy_new.run (fewer name)⟩, fun b reached => reached.sane.rests⟩
  rw [Stage.tidy_new.plays plays plain, Stage.tidy_new.plays alone (fewer name),
    List.filter_filter]
  simp

-- One reads slowly, one never reads and is dropped with its slot full, one leaves while it is still
-- to get something.
def crowded : List Step :=
  [.subscribe "slow" [.sitesChanged, .keysChanged], .subscribe "deaf" [], .subscribe "gone" [],
   .raise [.keysChanged, .sitesChanged], .settle, .receive "slow", .raise [.sitesChanged],
   .drop "deaf", .settle, .unsubscribe "gone", .receive "slow", .settle, .tryReceive "slow",
   .tryReceive "slow"]

theorem crowded_isolated : (∀ step ∈ crowded, step.isPlain) ∧
    received "slow" crowded ((play crowded).map (·.reply)) =
      [.receipt (.kind .sitesChanged), .receipt (.kind .sitesChanged),
       .receipt (.kind .keysChanged), .nothing] ∧
    Isolates crowded ∧ ∀ b, Bus.Reaches b → b.Rests :=
  ⟨by decide, rfl, subscribers_isolated (by decide)⟩

end Egress.Scenario.OnBus
