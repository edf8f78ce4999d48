import Egress.Proofs.World.Accounting

set_option autoImplicit false

namespace Egress

open Tunnel

def TunnelDial.isWaiting (d : TunnelDial) : Bool :=
  match d.stage with
  | .waiting _ => true
  | _ => false

theorem TunnelDial.isWaiting_iff (d : TunnelDial) :
    d.isWaiting ↔ ∃ ticket, d.stage = .waiting ticket := by
  unfold isWaiting
  cases d.stage <;> simp

namespace World

def tunnelDial? (w : World) (id : String) : Option TunnelDial :=
  (w.call? id).bind (·.tunnelDial?)

def Waits (w : World) (id : String) (g : Nat) : Prop :=
  ∃ t ∈ w.tunnelDial? id, t.generation = g ∧ t.isWaiting

def Creates (w : World) (id : String) (g : Nat) : Prop :=
  ∃ t ∈ w.tunnelDial? id, t.generation = g ∧ t.isCreating

def MayCreate (w : World) (id : String) (g : Nat) : Prop := ∃ c ∈ w.call? id, c.MayCreate g

instance (w : World) (id : String) (g : Nat) : Decidable (w.Waits id g) :=
  inferInstanceAs (Decidable (∃ t ∈ w.tunnelDial? id, t.generation = g ∧ t.isWaiting))

instance (w : World) (id : String) (g : Nat) : Decidable (w.Creates id g) :=
  inferInstanceAs (Decidable (∃ t ∈ w.tunnelDial? id, t.generation = g ∧ t.isCreating))

variable {w next : World} {id : String} {g : Nat}

theorem tunnelDial?_eq_some {t : TunnelDial} (found : w.tunnelDial? id = some t) :
    ∃ d boxed, w.call? id = some (.dial d) ∧ d.stage = .tunneling t boxed := by
  obtain ⟨c, call, dial⟩ := Option.bind_eq_some_iff.mp found
  unfold Call.tunnelDial? at dial
  split at dial
  next =>
    cases dial
    exact ⟨_, _, call, rfl⟩
  next => cases dial

theorem Creates.mem (creates : w.Creates id g) : ∃ c, (id, c) ∈ w.calls := by
  obtain ⟨t, found, -⟩ := creates
  obtain ⟨c, call, -⟩ := Option.bind_eq_some_iff.mp found
  obtain ⟨front, back, same, -⟩ := List.lookup_eq_some_iff.mp call
  exact ⟨c, by simp [same]⟩

theorem Creates.mayCreate (creates : w.Creates id g) : w.MayCreate id g := by
  obtain ⟨t, found, generation, creating⟩ := creates
  obtain ⟨⟨scope, network, address, _⟩, boxed, call, rfl⟩ := tunnelDial?_eq_some found
  refine ⟨_, call, generation, ?_⟩
  unfold TunnelDial.isCreating at creating
  unfold TunnelDial.isOpening
  split at creating <;> simp_all

theorem mem_dialStakes (regular : w.Regular) {x : Stake} :
    x ∈ w.dialStakes g ↔
      ∃ id t, w.tunnelDial? id = some t ∧ t.generation = g ∧ t.stage.stake = x := by
  simp only [dialStakes, Multiset.mem_coe, List.mem_filterMap, Option.bind_eq_some_iff, Prod.exists,
    mem_calls regular.frame.names, tunnelDial?, TunnelDial.stakeIn?, Option.ite_none_right_eq_some,
    Option.some.injEq]
  constructor
  · rintro ⟨id, c, call, t, dial, generation, stake⟩
    exact ⟨id, t, ⟨c, call, dial⟩, generation, stake⟩
  · rintro ⟨id, t, ⟨c, call, dial⟩, generation, stake⟩
    exact ⟨id, c, call, t, dial, generation, stake⟩

theorem Settled.uncalled (settled : w.Settled) {t : TunnelDial} {ticket : Nat}
    (found : w.tunnelDial? id = some t) (stage : t.stage = .waiting ticket) :
    (w.pool t.generation).called ≤ ticket := by
  obtain ⟨d, boxed, call, tunneling⟩ := tunnelDial?_eq_some found
  have idle := settled.idle (.call id) (by simp [isAlive, call])
  simp only [canPoll, canPollCall, call, canPollDial, tunneling, canPollTunnelDial, stage,
    Bool.or_eq_false_iff] at idle
  simpa [Pool.isCalled] using idle.2

-- In a settled world, whoever waits in a generation waits for a session that another dial creates,
-- or that a dial created when it was dropped, and for nothing less.
theorem Sound.waits {lost : Nat → Multiset Stake} (sound : Sound lost w) (settled : w.Settled)
    (waits : w.Waits id g) :
    ((∃ other, other ≠ id ∧ w.Creates other g) ∨ .creating ∈ lost g) ∧
      (∀ s ∈ (w.pool g).slots, w.settings.sessionCap ≤ s.refs) ∧
      (w.pool g).planned ≤ (w.pool g).sessions * w.settings.sessionCap := by
  obtain ⟨t, found, rfl, waiting⟩ := waits
  obtain ⟨ticket, stage⟩ := t.isWaiting_iff.mp waiting
  have balanced := sound.balanced t.generation
  have stake : Stake.waiting ticket ∈ w.dialStakes t.generation :=
    (mem_dialStakes sound.regular).mpr ⟨id, t, found, rfl, by rw [stage]; rfl⟩
  have member : Stake.waiting ticket ∈
      lost t.generation + (w.dialStakes t.generation + w.streamStakes t.generation) := by
    simp [stake]
  have drawn := balanced.ticketed ticket member
  have uncalled := settled.uncalled found stage
  -- Not everybody has been called, so there is nothing to be had.
  rcases sound.quiet t.generation with all | ⟨full, covered⟩
  · omega
  · refine ⟨?_, Pool.spare_eq_none.mp full, covered⟩
    have creating := balanced.creating_mem full covered member
    rw [Multiset.mem_add, Multiset.mem_add] at creating
    rcases creating with gone | dial | stream
    · exact .inr gone
    · obtain ⟨other, u, found', generation, creating⟩ := (mem_dialStakes sound.regular).mp dial
      refine .inl ⟨other, ?_, u, found', generation, (isCreating_iff u).mpr creating⟩
      rintro rfl
      obtain rfl := Option.some.inj (found.symm.trans found')
      rw [stage] at creating
      cases creating
    · simp [streamStakes_eq_map] at stream

theorem advance_absent (absent : w.call? id = none)
    (f : TunnelDial → World × Progress TunnelDial) : w.advance id f = w := by
  simp [advance, absent]

theorem move_begins {m : Move} (continues : m.Continues) (allowed : w.allows m)
    (about : m.call? = some id) (absent : w.call? id = none) {c : Call}
    (now : (w.move m).call? id = some c) : c.mayTunnel = false := by
  have unchanged (same : w.move m = w) : c.mayTunnel = false := by
    rw [same, absent] at now
    cases now
  have added (u : World) (call : Call) (plain : call.mayTunnel = false)
      (same : w.move m = u.addCall id call) : c.mayTunnel = false := by
    rw [same, call?_addCall, if_pos rfl] at now
    exact Option.some.inj now ▸ plain
  cases m with
  | poll task =>
    cases task with
    | call other =>
      cases about
      have alive : (w.call? id).isSome := allowed
      simp [absent] at alive
    | _ => cases about
  | withdraw other =>
    cases about
    exact unchanged (advance_absent absent _)
  | answer other mode =>
    cases about
    exact unchanged (advance_absent absent _)
  | reconnect | setParams | run =>
    cases about
    exact added w _ rfl rfl
  | startRead other name n =>
    cases about
    cases handle : w.handles.lookup name with
    | none => exact unchanged (by simp [move, owner, handle])
    | some h => exact added (w.removeHandle name) (.read h name n) rfl (by simp [move, owner, handle])
  | dial => cases continues.2
  | abandon => cases continues.1
  | _ => cases about

theorem move_mayCreate (regular : w.Regular) {m : Move} (continues : m.Continues)
    (allowed : w.allows m) (may : (w.move m).MayCreate id g) : w.MayCreate id g := by
  obtain ⟨later, now, may⟩ := may
  by_cases about : m.call? = some id
  · have polls := move_polls regular continues.1 allowed about
    cases was : w.call? id with
    | some c => exact ⟨c, was, polls.creates c later was now g may⟩
    | none =>
      have never := move_begins continues allowed about was now
      rw [may.mayTunnel] at never
      cases never
  · rw [(move_others regular continues.1 allowed about).1] at now
    exact ⟨later, now, may⟩

theorem Run.driven (run : Run Move.Continues w next) : Run Move.Driven w next := by
  apply run.lift id
  intro u v goes
  obtain ⟨m, continues, rest⟩ := goes
  exact ⟨m, continues.1, rest⟩

theorem Run.mayCreate (run : Run Move.Continues w next) (regular : w.Regular)
    (may : next.MayCreate id g) : w.MayCreate id g := by
  suffices both : next.Regular ∧ (next.MayCreate id g → w.MayCreate id g) from both.2 may
  clear may
  induction run with
  | refl => exact ⟨regular, fun may => may⟩
  | tail _ goes ih =>
    obtain ⟨m, continues, allowed, rfl⟩ := goes
    exact ⟨(move_passes ih.1 continues.1 allowed).regular,
      ih.2 ∘ move_mayCreate ih.1 continues allowed⟩

def IsFresh (w : World) (id : String) : Prop :=
  ∃ d carrier, w.call? id = some (.dial d) ∧ d.stage = .fresh carrier

theorem MayCreate.cases (may : w.MayCreate id g) :
    w.Waits id g ∨ w.Creates id g ∨ w.IsFresh id := by
  obtain ⟨c, found, may⟩ := may
  unfold Call.MayCreate at may
  split at may
  next => exact .inr (.inr ⟨_, _, found, rfl⟩)
  next t boxed =>
    obtain ⟨generation, unopened⟩ := may
    have dial : t ∈ w.tunnelDial? id := by
      simp only [tunnelDial?, Option.mem_def.mp found]
      rfl
    unfold TunnelDial.isOpening at unopened
    cases stage : t.stage with
    | waiting ticket => exact .inl ⟨t, dial, generation, t.isWaiting_iff.mpr ⟨ticket, stage⟩⟩
    | linking link => exact .inr (.inl ⟨t, dial, generation, by simp [TunnelDial.isCreating, stage]⟩)
    | shaking link ticket =>
      exact .inr (.inl ⟨t, dial, generation, by simp [TunnelDial.isCreating, stage]⟩)
    | opening lease ticket => simp [stage] at unopened
  next => exact may.elim

end World

namespace Scenario.Setup

variable {s : Setup} {w : World}

-- Nobody waits in vain. In a settled world another dial is at work on the session that is waited
-- for, and there is no room left without it. When such a dial fails, and all has settled again,
-- either nobody waits or yet another dial has taken its place: one that had been waiting, or was at
-- work as well, or had not begun.
theorem Reaches.attended (reached : s.Reaches Move.Driven w) :
    (w.Settled → ∀ id g, w.Waits id g →
      (∃ other, other ≠ id ∧ w.Creates other g) ∧
      (∀ slot ∈ (w.pool g).slots, w.settings.sessionCap ≤ slot.refs) ∧
      (w.pool g).planned ≤ (w.pool g).sessions * w.settings.sessionCap) ∧
    ∀ (m : Move) (id : String) (g : Nat) (f : DialFailure), m.Driven → w.allows m →
      w.Creates id g → w.endOf? (w.move m) id = some (.failed f) →
      ∀ later, World.Run Move.Continues (w.move m) later → later.Settled →
        (∀ waiter, ¬ later.Waits waiter g) ∨
          ∃ other, other ≠ id ∧ later.Creates other g ∧
            ((w.move m).Waits other g ∨ (w.move m).Creates other g ∨ (w.move m).IsFresh other) := by
  have attended {u : World} (sound : World.Sound (fun _ => 0) u) (settled : u.Settled) {id : String}
      {g : Nat} (waits : u.Waits id g) : ∃ other, other ≠ id ∧ u.Creates other g := by
    simpa using (sound.waits settled waits).1
  refine ⟨fun settled id g waits => ⟨attended reached.sound settled waits,
    (reached.sound.waits settled waits).2⟩, ?_⟩
  intro m id g f driven allowed creates ended later run settled
  by_cases idle : ∀ waiter, ¬ later.Waits waiter g
  · exact .inl idle
  · right
    obtain ⟨waiter, waits⟩ := not_forall_not.mp idle
    have after := World.move_sound reached.sound driven allowed
    have onwards : World.Run Move.Driven (w.move m) later := run.driven
    obtain ⟨other, -, at_work⟩ := attended (onwards.sound after) settled waits
    have before := run.mayCreate after.regular at_work.mayCreate
    refine ⟨other, ?_, at_work, before.cases⟩
    rintro rfl
    -- The dial that has failed is gone.
    obtain ⟨t, found, -⟩ := creates
    obtain ⟨d, boxed, call, -⟩ := World.tunnelDial?_eq_some found
    obtain ⟨u, gone, -⟩ := (World.move_fails reached.sound.regular driven allowed call ended).ends
    obtain ⟨c, still, -⟩ := before
    rw [gone, World.call?_finish, if_pos rfl] at still
    cases still

def crowded : World :=
  small.build.along
    [fun w => .dial "a" (.via .tunnel false) "tcp" "a.test:80" w.root,
      fun w => .dial "b" (.via .tunnel false) "tcp" "b.test:80" w.root,
      fun _ => .poll (.call "a"),
      fun _ => .poll (.call "b"),
      fun _ => .poll .dispatcher,
      fun _ => .poll .addressWatch,
      fun _ => .poll .dispatcher]

def refused : World :=
  crowded.along
    [fun w => .script { w.script with handshakeMode := .fail (.protocol "refused") },
      fun w => .kernel (w.network.grant?.getD w.network)]

def recovered : World :=
  (refused.move (.poll (.call "a"))).along
    [fun _ => .poll (.call "b"), fun _ => .poll .dispatcher, fun _ => .poll .supervisor]

theorem attended_crowded :
    (∃ other, other ≠ "b" ∧ crowded.Creates other 1) ∧
      ((∀ waiter, ¬ recovered.Waits waiter 1) ∨
        ∃ other, other ≠ "a" ∧ recovered.Creates other 1 ∧
          ((refused.move (.poll (.call "a"))).Waits other 1 ∨
            (refused.move (.poll (.call "a"))).Creates other 1 ∨
            (refused.move (.poll (.call "a"))).IsFresh other)) := by
  have reached : small.Reaches Move.Driven crowded := World.run_along (by decide +kernel)
  have reached' : small.Reaches Move.Driven refused :=
    reached.trans (World.run_along (by decide +kernel))
  have waits : crowded.Waits "b" 1 := by decide +kernel
  have settled : crowded.Settled := by decide +kernel
  have creates : refused.Creates "a" 1 := by decide +kernel
  have ended : refused.endOf? (refused.move (.poll (.call "a"))) "a" =
      some (.failed (.handshake "127.0.0.1:22" (.protocol "refused"))) := by decide +kernel
  have onwards : World.Run Move.Continues (refused.move (.poll (.call "a"))) recovered :=
    World.run_along (by decide +kernel)
  have settled' : recovered.Settled := by decide +kernel
  exact ⟨(reached.attended.1 settled "b" 1 waits).1,
    reached'.attended.2 (.poll (.call "a")) "a" 1 _ rfl (by decide +kernel) creates ended recovered
      onwards settled'⟩

end Scenario.Setup

end Egress
