import Egress.Proofs.World.Runs

set_option autoImplicit false

namespace Egress

open Tunnel

def TunnelDial.isCreating (d : TunnelDial) : Bool :=
  match d.stage with
  | .linking _ | .shaking _ _ => true
  | _ => false

def TunnelDial.leases (slot : Nat) (d : TunnelDial) : Bool :=
  match d.stage with
  | .opening lease _ => lease.slot = slot
  | _ => false

namespace World

def dialsOf (w : World) (g : Nat) : List TunnelDial :=
  (w.calls.filterMap (·.2.tunnelDial?)).filter (·.generation = g)

def openStreams (w : World) (g : Nat) : List Stream :=
  w.streams.filter fun s => s.held && s.generation = g

structure Accounts (w : World) : Prop where
  sessions : ∀ g, (w.pool g).sessions =
    (w.pool g).slots.length + (w.dialsOf g).countP (·.isCreating)
  planned : ∀ g, (w.pool g).planned = (w.dialsOf g).length + (w.openStreams g).length
  refs : ∀ g, ∀ s ∈ (w.pool g).slots,
    s.refs = (w.dialsOf g).countP (·.leases s.id) + (w.openStreams g).countP (·.slot = s.id) ∧
      s.refs ≤ w.settings.sessionCap
  gauge : w.counters.get .tunnelConnections = Int32.ofNat (w.streams.countP (·.held))

-- A call has ended, and what it had put into the books is out of them again. Only sessions stay
-- that it brought to a pool.
structure Refunds (w next : World) (id : String) : Prop where
  streams : next.streams = w.streams
  gauge : next.counters.get .tunnelConnections = w.counters.get .tunnelConnections
  planned : ∀ g, (next.pool g).planned + (w.stakesOf id g).card = (w.pool g).planned
  refs : ∀ g, ∀ s ∈ (w.pool g).slots, ∃ t ∈ (next.pool g).slots, t.id = s.id ∧
    t.refs + (w.stakesOf id g).count (.leasing s.id) = s.refs
  sessions : ∀ g, (next.pool g).sessions + (w.stakesOf id g).count .creating =
    (w.pool g).sessions +
      (next.sessionWatches.drop w.sessionWatches.length).countP (·.generation = g)

variable {w : World}

theorem dialStakes_eq_map (g : Nat) :
    w.dialStakes g = ↑((w.dialsOf g).map fun d => d.stage.stake) := by
  unfold dialStakes dialsOf
  congr 1
  induction w.calls with
  | nil => rfl
  | cons c rest ih =>
    cases dial : c.2.tunnelDial? with
    | none => simpa [dial] using ih
    | some d =>
      have head : d.stakeIn? g = if d.generation = g then some d.stage.stake else none := rfl
      by_cases same : d.generation = g <;> simp [dial, head, same, ih]

theorem streamStakes_eq_map (g : Nat) :
    w.streamStakes g = ↑((w.openStreams g).map fun s => Stake.leasing s.slot) := by
  unfold streamStakes openStreams
  congr 1
  induction w.streams with
  | nil => rfl
  | cons s rest ih =>
    have head : s.stakeIn? g =
        if s.held ∧ s.generation = g then some (.leasing s.slot) else none := rfl
    by_cases held : s.held <;> by_cases same : s.generation = g <;> simp [head, held, same, ih]

theorem isCreating_iff (d : TunnelDial) : d.isCreating ↔ d.stage.stake = .creating := by
  unfold TunnelDial.isCreating
  cases d.stage <;> simp [TunnelStage.stake]

theorem leases_iff (d : TunnelDial) (slot : Nat) :
    d.leases slot ↔ d.stage.stake = .leasing slot := by
  unfold TunnelDial.leases
  cases d.stage <;> simp [TunnelStage.stake]

theorem dialStakes_count_creating (g : Nat) :
    (w.dialStakes g).count .creating = (w.dialsOf g).countP (·.isCreating) := by
  rw [dialStakes_eq_map, Multiset.coe_count, List.count, List.countP_map]
  apply List.countP_congr
  intro d _
  simp [isCreating_iff]

theorem dialStakes_count_leasing (g slot : Nat) :
    (w.dialStakes g).count (.leasing slot) = (w.dialsOf g).countP (·.leases slot) := by
  rw [dialStakes_eq_map, Multiset.coe_count, List.count, List.countP_map]
  apply List.countP_congr
  intro d _
  simp [leases_iff]

theorem streamStakes_count_leasing (g slot : Nat) :
    (w.streamStakes g).count (.leasing slot) = (w.openStreams g).countP (·.slot = slot) := by
  rw [streamStakes_eq_map, Multiset.coe_count, List.count, List.countP_map]
  apply List.countP_congr
  intro s _
  simp

theorem streamStakes_count_creating (g : Nat) : (w.streamStakes g).count .creating = 0 := by
  simp [streamStakes_eq_map]

section Counts

variable {lost : Nat → Multiset Stake} (sound : Sound lost w) (g : Nat)

include sound

theorem Sound.sessions : (w.pool g).sessions =
    (w.pool g).slots.length + (w.dialsOf g).countP (·.isCreating) + (lost g).count .creating := by
  have sessions := (sound.balanced g).sessions
  simp only [Multiset.count_add, dialStakes_count_creating, streamStakes_count_creating] at sessions
  omega

theorem Sound.planned : (w.pool g).planned =
    (w.dialsOf g).length + (w.openStreams g).length + (lost g).card := by
  have planned := (sound.balanced g).planned
  simp only [Multiset.card_add, dialStakes_eq_map, streamStakes_eq_map, Multiset.coe_card,
    List.length_map] at planned
  omega

theorem Sound.refs {s : Slot} (member : s ∈ (w.pool g).slots) :
    s.refs = (w.dialsOf g).countP (·.leases s.id) + (w.openStreams g).countP (·.slot = s.id) +
      (lost g).count (.leasing s.id) := by
  have refs := (sound.balanced g).refs s member
  simp only [Multiset.count_add, dialStakes_count_leasing, streamStakes_count_leasing] at refs
  omega

end Counts

theorem Sound.accounts (sound : Sound (fun _ => 0) w) : w.Accounts where
  sessions := sound.sessions
  planned := sound.planned
  refs g s member := ⟨sound.refs g member, (sound.balanced g).within s member⟩
  gauge := sound.regular.even

theorem exists_dial (id : String) (tunneling : (w.call? id).any (·.tunnelDial?.isSome)) :
    ∃ d, w.call? id = some (.dial d) := by
  cases found : w.call? id with
  | none => simp [found] at tunneling
  | some c =>
    cases c with
    | dial d => exact ⟨d, rfl⟩
    | _ => simp [found, Call.tunnelDial?] at tunneling

section Ends

variable {u : World} {id : String} (same : u.finished = w.finished)

include same

theorem endOf?_setCall (c : Call) : w.endOf? (u.setCall id c) id = none := by
  simp [endOf?, setCall, same]

theorem endOf?_finish (f : Finish) : w.endOf? (u.finish id f) id = some f := by
  simp [endOf?, finish, same]

end Ends

structure Fails (id : String) (f : DialFailure) (w next : World) : Prop where
  ends : ∃ u : World, next = u.finish id (.failed f) ∧ u.frame = w.frame ∧
    u.streams = w.streams ∧ ∃ new, u.sessionWatches = w.sessionWatches ++ new ∧
      ∀ x ∈ new, x.ended = false

section Fails

variable {id : String} {d : Dial} {f : DialFailure} {u next : World}

theorem putHandle_finished (regular : u.Regular) (name : String) (h : Handle) :
    (u.putHandle name h).finished = u.finished :=
  congrArg (·.finished) (putHandle_travels regular name h).frame

theorem connectionDialed_ends (id : String) (regular : u.Regular) (connection : Nat) (boxed : Bool) :
    ∃ (v : World) (g : Finish), u.connectionDialed id connection boxed = v.finish id g ∧
      v.finished = u.finished ∧ ∀ failure, g ≠ .failed failure := by
  have put := putHandle_finished regular id (.connection connection boxed)
  have noted (v : World) : (v.notePeer id connection boxed).finished = v.finished := by
    unfold notePeer
    dsimp only
    split <;> rfl
  unfold connectionDialed
  dsimp only
  split
  · exact ⟨_, _, rfl, (noted _).trans put, by simp⟩
  · split
    · exact ⟨_, _, rfl, (noted _).trans put, by simp⟩
    · exact ⟨_, _, rfl, (noted _).trans put, by simp⟩

theorem streamDialed_ends (id : String) (regular : u.Regular) (stream : Nat) (boxed : Bool) :
    ∃ (v : World) (g : Finish), u.streamDialed id stream boxed = v.finish id g ∧
      v.finished = u.finished ∧ ∀ failure, g ≠ .failed failure := by
  have put := putHandle_finished regular id (.stream stream boxed)
  unfold streamDialed
  dsimp only
  split
  · exact ⟨_, _, rfl, put, by simp⟩
  · split <;> exact ⟨_, _, rfl, put, by simp⟩

theorem connectProgress_fails (regular : w.Regular) (beside : Beside w u) {boxed : Bool}
    {progress : Progress Connecting}
    (ended : w.endOf? (u.connectProgress id d boxed progress) id = some (.failed f)) :
    Fails id f w (u.connectProgress id d boxed progress) := by
  have frame := beside.level.frame
  have finished : u.finished = w.finished := congrArg (·.finished) frame
  cases progress with
  | waiting c =>
    simp only [connectProgress, endOf?_setCall finished] at ended
    cases ended
  | failed failure =>
    simp only [connectProgress, endOf?_finish finished] at ended
    cases ended
    exact ⟨u, rfl, frame, beside.level.streams, [], by simp [beside.level.sessionWatches], by simp⟩
  | done connection =>
    obtain ⟨v, g, dialed, before, succeeds⟩ :=
      connectionDialed_ends id (beside.passes regular).regular connection boxed
    simp only [connectProgress, dialed, endOf?_finish (before.trans finished)] at ended
    exact absurd (Option.some.inj ended) (succeeds f)

theorem tunnelProgress_fails (regular : w.Regular) {t : TunnelDial} {a : Hand} {boxed : Bool}
    {r : World × Progress TunnelDial} (serves : Serves t a w r)
    (inside : t.generation < w.generations.length)
    (ended : w.endOf? (r.1.tunnelProgress id d boxed r.2) id = some (.failed f)) :
    Fails id f w (r.1.tunnelProgress id d boxed r.2) := by
  obtain ⟨u, progress⟩ := r
  have frame : u.frame = w.frame := serves.turn.frame
  have finished : u.finished = w.finished := congrArg (·.finished) frame
  cases progress with
  | waiting c =>
    simp only [tunnelProgress, endOf?_setCall finished] at ended
    cases ended
  | failed failure =>
    simp only [tunnelProgress, endOf?_finish finished] at ended
    cases ended
    obtain ⟨new, watches, fresh⟩ := serves.turn.grows.sessionWatches
    exact ⟨u, rfl, frame, serves.streamless (by simp), new, watches, fun x member => (fresh x member).1⟩
  | done stream =>
    obtain ⟨v, g, dialed, before, succeeds⟩ :=
      streamDialed_ends id (serves.turn.regular regular inside) stream boxed
    simp only [tunnelProgress, dialed, endOf?_finish (before.trans finished)] at ended
    exact absurd (Option.some.inj ended) (succeeds f)

theorem dialVia_fails (regular : w.Regular) {via : Via} {boxed : Bool}
    (ended : w.endOf? (w.dialVia id d via boxed) id = some (.failed f)) :
    Fails id f w (w.dialVia id d via boxed) := by
  have current := regular.current_lt
  cases via with
  | manager => exact connectProgress_fails regular (w.beginConnect_beside _) ended
  | direct => exact connectProgress_fails regular (w.beginConnect_beside _) ended
  | tunnel =>
    exact tunnelProgress_fails regular
      (w.beginTunnelDial_serves current d.scope d.network d.address) current ended

theorem pollDial_fails (regular : w.Regular) (found : w.call? id = some (.dial d))
    (ended : w.endOf? (w.pollDial id d) id = some (.failed f)) : Fails id f w (w.pollDial id d) := by
  obtain ⟨scope, network, address, stage⟩ := d
  cases stage with
  | fresh carrier =>
    cases carrier with
    | via via boxed => exact dialVia_fails regular ended
    | route host =>
      simp only [pollDial] at ended ⊢
      split at ended
      next bypass => exact dialVia_fails regular ended
      next forward => exact dialVia_fails regular ended
      next block =>
        rw [endOf?_finish rfl] at ended
        cases ended
  | connecting c boxed =>
    have fits := regular.frame.calls _ ((mem_calls regular.frame.names).mpr found)
    have counter : c.request.counter ≠ .tunnelConnections := by
      have counter : c.request.counter = .tcpConnections := fits
      simp [counter]
    exact connectProgress_fails regular (w.pollConnect_beside c counter) ended
  | tunneling t boxed =>
    obtain ⟨fits, inside⟩ := regular.tunnelDial_fits found rfl
    exact tunnelProgress_fails regular (w.pollTunnelDial_serves t fits) inside ended

theorem advance_fails (regular : w.Regular) (found : w.call? id = some (.dial d))
    {g : TunnelDial → World × Progress TunnelDial}
    (serves : ∀ t : TunnelDial, t.Fits w.frame → Serves t (.stake t.stage.stake) w (g t))
    (ended : w.endOf? (w.advance id g) id = some (.failed f)) :
    Fails id f w (w.advance id g) := by
  obtain ⟨scope, network, address, stage⟩ := d
  simp only [advance, found] at ended ⊢
  cases stage with
  | tunneling t boxed =>
    obtain ⟨fits, inside⟩ := regular.tunnelDial_fits found rfl
    exact tunnelProgress_fails regular (serves t fits) inside ended
  | fresh carrier =>
    rw [endOf?_self] at ended
    cases ended
  | connecting c boxed =>
    rw [endOf?_self] at ended
    cases ended

theorem move_fails (regular : w.Regular) {m : Move} (driven : m.Driven) (allowed : w.allows m)
    (found : w.call? id = some (.dial d))
    (ended : w.endOf? (w.move m) id = some (.failed f)) : Fails id f w (w.move m) := by
  have about : m.call? = some id := by
    by_contra other
    rw [(move_others regular driven allowed other).2] at ended
    cases ended
  cases m with
  | poll task =>
    cases task with
    | call other =>
      cases about
      have polled : w.move (.poll (.call id)) = w.pollDial id d := by
        simp only [move, poll, pollCall, found]
      rw [polled] at ended ⊢
      exact pollDial_fails regular found ended
    | _ => cases about
  | withdraw other =>
    cases about
    exact advance_fails regular found w.withdraw_serves ended
  | answer other mode =>
    cases about
    exact advance_fails regular found (fun t fits => w.answer_serves t fits mode) ended
  | dial other | reconnect other | setParams other | run other | startRead other =>
    -- The name is taken.
    cases about
    have absent : w.call? id = none := allowed
    rw [absent] at found
    cases found
  | abandon other => cases driven
  | _ => cases about

theorem Fails.refunds (fails : Fails id f w next) (before : Sound (fun _ => 0) w)
    (after : Sound (fun _ => 0) next) (found : w.call? id = some (.dial d)) :
    Refunds w next id := by
  obtain ⟨u, rfl, frame, streams, new, watches, fresh⟩ := fails.ends
  have calls : u.calls = w.calls := calls_of_frame frame
  have dials (g : Nat) : w.dialStakes g = w.stakesOf id g + (u.finish id (.failed f)).dialStakes g := by
    rw [dialStakes_of_call g before.regular.frame.names found]
    simp only [stakesOf, found, Option.map_some, Option.getD_some, otherStakes, dialStakes, finish,
      calls]
  have kept (g : Nat) : (u.finish id (.failed f)).streamStakes g = w.streamStakes g := by
    simp only [streamStakes, finish, streams]
  have slots (g : Nat) : (u.finish id (.failed f)).watched g =
      w.watched g + ↑(new.filterMap (·.leaseIn? g)) := by
    simp only [watched, finish, watches, List.filterMap_append, Multiset.coe_add]
  refine ⟨streams, ?gauge, fun g => ?planned, fun g s member => ?refs, fun g => ?sessions⟩
  case gauge =>
    have gauge : w.counters.get .tunnelConnections = _ := before.regular.even
    have gauge' : (u.finish id (.failed f)).counters.get .tunnelConnections = _ :=
      after.regular.even
    rw [gauge, gauge']
    simp only [finish, streams]
  case planned =>
    have planned := (before.balanced g).planned
    have planned' := (after.balanced g).planned
    rw [dials g] at planned
    rw [kept g] at planned'
    simp only [Multiset.card_add, Multiset.card_zero] at planned planned'
    omega
  case refs =>
    -- A session that was watched still is.
    have still : s.lease ∈ (u.finish id (.failed f)).watched g := by
      rw [slots g]
      exact Multiset.mem_add.mpr (.inl ((before.balanced g).mem_watched.mpr ⟨s, member, rfl⟩))
    obtain ⟨t, member', leases⟩ := (after.balanced g).mem_watched.mp still
    have same : t.id = s.id := congrArg (·.slot) leases
    have refs := (before.balanced g).refs s member
    have refs' := (after.balanced g).refs t member'
    rw [dials g] at refs
    rw [kept g, same] at refs'
    simp only [Multiset.count_add, Multiset.count_zero] at refs refs'
    exact ⟨t, member', same, by omega⟩
  case sessions =>
    have sessions := (before.balanced g).sessions
    have sessions' := (after.balanced g).sessions
    have filled := congrArg Multiset.card (before.balanced g).watched
    have filled' := congrArg Multiset.card (after.balanced g).watched
    have arrived : (new.filterMap (·.leaseIn? g)).length = new.countP (·.generation = g) := by
      rw [List.length_filterMap_eq_countP]
      apply List.countP_congr
      intro x member
      simp [SessionWatch.leaseIn?, fresh x member]
    have dropped : (u.finish id (.failed f)).sessionWatches.drop w.sessionWatches.length = new := by
      simp [finish, watches]
    rw [slots g] at filled'
    rw [dials g] at sessions
    rw [kept g] at sessions'
    simp only [Multiset.card_add, Multiset.count_add, Multiset.count_zero, Multiset.coe_card,
      List.length_map] at sessions sessions' filled filled'
    rw [dropped]
    omega

end Fails

end World

namespace Scenario.Setup

variable {s : Setup} {w : World}

theorem Reaches.accountable (reached : s.Reaches Move.Driven w) (g : Nat) :
    (w.pool g).Accountable :=
  Ledger.Steps.accountable (World.sessionCap_pos _) (reached.ledger g)

-- The books of every pool are right in every world. None of the operations that have been performed
-- took anything from a number that was zero. A dial that fails leaves nothing behind but a session
-- it has brought.
theorem Reaches.accounted (reached : s.Reaches Move.Driven w) :
    w.Accounts ∧ (∀ g, (w.pool g).Accountable) ∧
      ∀ m : Move, m.Driven → w.allows m → ∀ id d f, w.call? id = some (.dial d) →
        w.endOf? (w.move m) id = some (.failed f) → w.Refunds (w.move m) id := by
  have sound := reached.sound
  refine ⟨sound.accounts, reached.accountable, fun m driven allowed id d f found ended => ?_⟩
  have fails := World.move_fails sound.regular driven allowed found ended
  exact fails.refunds sound (World.move_sound sound driven allowed) found

def small : Setup where
  listeners := [{ name := "A", address := { ip := .loopback, port := 22 } }]
  up := true
  settings := { maxStreamsPerSession := 2 }
  store := { params := { addr := "127.0.0.1:22", login := "u", password := "p" } }
  runtime := some {}

def youngest (w : World) : Scope := ⟨w.scopes.made, w.scopes.forest.nodes.length - 1⟩

def streaming : World :=
  small.build.along
    [fun w => .dial "d" (.via .tunnel false) "tcp" "a.test:80" w.root,
      fun _ => .poll (.call "d"),
      fun w => .kernel (w.network.grant?.getD w.network),
      fun _ => .poll (.call "d")]

def refusing : List (World → Move) :=
  [fun w => .dial "e" (.via .tunnel false) "tcp" "a.test:80" w.root,
    fun _ => .poll (.call "e"),
    fun w => .kernel (w.network.grant?.getD w.network),
    fun w => .script { w.script with streamMode := .fail (.protocol "refused") }]

theorem accounted_refusing :
    (small.build.along refusing).Accounts ∧ ((small.build.along refusing).pool 1).Accountable ∧
      (small.build.along refusing).Refunds
        ((small.build.along refusing).move (.poll (.call "e"))) "e" := by
  have reached : small.Reaches Move.Driven (small.build.along refusing) :=
    World.run_along (by decide +kernel)
  have ⟨accounts, accountable, moves⟩ := reached.accounted
  obtain ⟨d, found⟩ := World.exists_dial (w := small.build.along refusing) "e" (by decide +kernel)
  have refused : (small.build.along refusing).endOf?
      ((small.build.along refusing).move (.poll (.call "e"))) "e" =
        some (.failed (.stream "a.test:80" (.protocol "refused"))) := by decide +kernel
  exact ⟨accounts, accountable 1, moves (.poll (.call "e")) rfl (by decide +kernel) "e" d _ found
    refused⟩

-- A dial that fails may leave more than it found: the session it brought stays in the pool.
theorem refused_dial_leaves_session :
    ∃ w, small.Reaches Move.Driven w ∧ w.calls = [] ∧ w.streams = [] ∧
      w.finished = [("e", .failed (.stream "a.test:80" (.protocol "refused")))] ∧
      (small.build.pool 1).sessions = 0 ∧ (w.pool 1).sessions = 1 := by
  let refused := refusing ++ [fun _ => .poll (.call "e")]
  refine ⟨small.build.along refused, World.run_along ?_, ?_⟩
  · decide +kernel
  · decide +kernel

end Scenario.Setup

end Egress
