import Egress.Proofs.World.Linking

set_option autoImplicit false

namespace Egress

open Simulation Tunnel

namespace World

variable {w : World} {id : String} {d : Dial}

def via? (w : World) : Carrier → Option Via
  | .via v _ => some v
  | .route host =>
    match Site.route w.sites host with
    | .bypass => some .direct
    | .forward => some .tunnel
    | .block => none

def isBoxed : Carrier → Bool
  | .via _ boxed => boxed
  | .route _ => true

theorem pollDial_fresh {carrier : Carrier} (stage : d.stage = .fresh carrier) {v : Via}
    (goes : w.via? carrier = some v) : w.pollDial id d = w.dialVia id d v (isBoxed carrier) := by
  unfold pollDial
  rw [stage]
  cases carrier with
  | via u boxed =>
    cases goes
    rfl
  | route host =>
    simp only [via?] at goes
    cases routed : Site.route w.sites host <;> rw [routed] at goes <;> cases goes <;>
      simp [isBoxed, routed]

theorem pollDial_blocked {carrier : Carrier} (stage : d.stage = .fresh carrier)
    (goes : w.via? carrier = none) : w.pollDial id d = w.finish id .blocked := by
  unfold pollDial
  rw [stage]
  cases carrier with
  | via u boxed => cases goes
  | route host =>
    simp only [via?] at goes
    cases routed : Site.route w.sites host <;> rw [routed] at goes <;> cases goes
    simp [routed]

theorem own_moves (found : w.call? id = some (.dial d)) {m : Move} (driven : m.Driven)
    (allowed : w.allows m) (about : m.call? = some id) :
    m = .poll (.call id) ∨ m = .withdraw id ∨ ∃ mode, m = .answer id mode := by
  cases m with
  | poll task =>
    cases task with
    | call other =>
      cases about
      exact .inl rfl
    | _ => cases about
  | withdraw other =>
    cases about
    exact .inr (.inl rfl)
  | answer other mode =>
    cases about
    exact .inr (.inr ⟨mode, rfl⟩)
  | dial other | reconnect other | setParams other | run other | startRead other =>
    -- The name is taken.
    cases about
    have absent : w.call? id = none := allowed
    rw [absent] at found
    cases found
  | abandon other => cases driven
  | _ => cases about

theorem Regular.connecting_counter (regular : w.Regular) (found : w.call? id = some (.dial d))
    {c : Connecting} {boxed : Bool} (stage : d.stage = .connecting c boxed) :
    c.request.counter = .tcpConnections := by
  obtain ⟨scope, network, address, place⟩ := d
  obtain rfl : place = .connecting c boxed := stage
  exact regular.frame.calls _ ((mem_calls regular.frame.names).mpr found)

theorem connecting_scope (regular : w.Regular) (proper : w.core.Proper)
    (found : w.call? id = some (.dial d)) {c : Connecting} {boxed : Bool}
    (stage : d.stage = .connecting c boxed) : c.request.scope = d.scope := by
  obtain ⟨scope, network, address, place⟩ := d
  obtain rfl : place = .connecting c boxed := stage
  exact proper.calls _ ((mem_calls regular.frame.names).mpr found)

theorem move_poll (found : w.call? id = some (.dial d)) :
    w.move (.poll (.call id)) = w.pollDial id d := by
  simp only [move, poll, pollCall, found]

theorem move_cancelled {lost : Nat → Multiset Stake} (sound : Sound lost w) (proper : w.core.Proper)
    {m : Move} (allowed : w.allows m) {scope : Scope} (cancelled : w.isCancelled scope) :
    (w.move m).isCancelled scope := by
  by_cases supervises : m = .poll .supervisor
  · subst supervises
    have scopes : w.supervise.scopes = w.scopes := congrArg (·.scopes) w.supervise_beside.side
    change w.supervise.scopes.isCancelled scope
    rwa [scopes]
  · exact (move_effects sound proper allowed supervises).keeps
      (p := fun c => c.scopes.isCancelled scope) (fun effect => effect.cancelled) cancelled

theorem call?_setCall_own {u : World} {old : Call} (found : u.call? id = some old) (c : Call) :
    (u.setCall id c).call? id = some c := by
  rw [call?_setCall, if_pos rfl, found, Option.map_some]

theorem connectProgress_waits {u : World} (regular : u.Regular) {boxed : Bool}
    {progress : Progress Connecting}
    (goesOn : ((u.connectProgress id d boxed progress).call? id).isSome) :
    ∃ c, progress = .waiting c := by
  cases progress with
  | waiting c => exact ⟨c, rfl⟩
  | failed failure => simp [connectProgress, call?_finish] at goesOn
  | done connection =>
    obtain ⟨v, f, dialed, -⟩ := connectionDialed_ends id regular connection boxed
    simp [connectProgress, dialed, call?_finish] at goesOn

theorem tunnelProgress_waits {u : World} (regular : u.Regular) {boxed : Bool}
    {progress : Progress TunnelDial}
    (goesOn : ((u.tunnelProgress id d boxed progress).call? id).isSome) :
    ∃ t, progress = .waiting t := by
  cases progress with
  | waiting t => exact ⟨t, rfl⟩
  | failed failure => simp [tunnelProgress, call?_finish] at goesOn
  | done stream =>
    obtain ⟨v, f, dialed, -⟩ := streamDialed_ends id regular stream boxed
    simp [tunnelProgress, dialed, call?_finish] at goesOn

-- What is known of a dial in progress that has had these turns. It is at the handshake on what
-- links have come of them, as far as these have not been placed.
structure Held (w : World) (id : String) (scope : Scope) (turns : List (World × World)) (d : Dial) :
    Prop where
  found : w.call? id = some (.dial d)
  caller : d.scope = scope
  own : ∀ t boxed, d.stage = .tunneling t boxed → t.scope = scope
  apart : (∀ t boxed, d.stage ≠ .tunneling t boxed) → ∀ x ∈ turns, Unconnected x.1 x.2
  shaking : ∀ link, d.shaking? = some link → w.traffic.Has (·.counter = .tunnelSessions) link
  links : ∀ x ∈ turns, ∀ link ∈ x.1.arrivals x.2, d.shaking? = some link ∨ w.Placed link

theorem each_turn {p : World × World → Prop} {turns : List (World × World)} {x : World × World}
    (before : ∀ y ∈ turns, p y) (now : p x) : ∀ y ∈ turns ++ [x], p y :=
  List.forall_mem_append.mpr ⟨before, List.forall_mem_singleton.mpr now⟩

namespace Held

variable {scope : Scope} {turns : List (World × World)} {lost : Nat → Multiset Stake}
  (held : Held w id scope turns d) (sound : Sound lost w) (proper : w.core.Proper)

include held sound proper

theorem links_move {m : Move} (driven : m.Driven) (allowed : w.allows m) {x : World × World}
    (member : x ∈ turns) {link : Nat} (arrived : link ∈ x.1.arrivals x.2) :
    d.shaking? = some link ∨ (w.move m).Placed link :=
  (held.links x member link arrived).imp_right fun placed => placed.move sound proper driven allowed

theorem other {m : Move} (driven : m.Driven) (allowed : w.allows m) (other : m.call? ≠ some id) :
    Held (w.move m) id scope turns d where
  found := (move_others sound.regular driven allowed other).1.trans held.found
  caller := held.caller
  own := held.own
  apart := held.apart
  shaking link hand := move_counter sound proper allowed (held.shaking link hand)
  links _ member _ arrived := held.links_move sound proper driven allowed member arrived

section Turn

variable {m : Move} (driven : m.Driven) (allowed : w.allows m)
  (goesOn : ((w.move m).call? id).isSome)

include driven allowed goesOn

theorem connects {u : World} {boxed : Bool} {progress : Progress Connecting}
    (apart : ∀ t boxed, d.stage ≠ .tunneling t boxed) (beside : Beside w u)
    (asks : progress.isDone = false → ∃ network, u = { w with network })
    (moved : w.move m = u.connectProgress id d boxed progress) :
    ∃ next, Held (w.move m) id scope (turns ++ [(w, w.move m)]) next := by
  obtain ⟨c, rfl⟩ := connectProgress_waits (beside.passes sound.regular).regular (moved ▸ goesOn)
  obtain ⟨network, rfl⟩ := asks rfl
  have unconnected : Unconnected w (w.move m) := by
    rw [moved]
    exact ⟨rfl, rfl, rfl⟩
  have idle := Dial.shaking?_eq_none apart
  refine ⟨{ d with stage := .connecting c boxed }, ?_, held.caller, by simp,
    fun _ => each_turn (held.apart apart) unconnected, by simp [Dial.shaking?],
    each_turn (fun x member link arrived => .inr ?_) fun link arrived => ?_⟩
  · rw [moved]
    exact call?_setCall_own held.found _
  · have placed := held.links_move sound proper driven allowed member arrived
    simpa [idle] using placed
  · rw [w.arrivals_none (by rw [unconnected.connections])] at arrived
    exact absurd arrived List.not_mem_nil

theorem tunnels {t : TunnelDial} {a : Hand} {boxed : Bool} {r : World × Progress TunnelDial}
    (own : t.scope = scope) (inside : t.generation < w.generations.length)
    (serves : Serves t a w r) (tends : Tends d.shaking? w r)
    (moved : w.move m = r.1.tunnelProgress id d boxed r.2) :
    ∃ next, Held (w.move m) id scope (turns ++ [(w, w.move m)]) next := by
  obtain ⟨u, progress⟩ := r
  have calls : u.calls = w.calls := calls_of_frame serves.turn.frame
  obtain ⟨next, rfl⟩ :=
    tunnelProgress_waits (serves.turn.regular sound.regular inside) (moved ▸ goesOn)
  have moved : w.move m = u.setCall id (.dial { d with stage := .tunneling next boxed }) := moved
  obtain ⟨-, same, -⟩ := serves.waits next rfl
  refine ⟨{ d with stage := .tunneling next boxed }, ?_, held.caller, ?_, fun apart => ?_, ?_,
    each_turn (fun x member link arrived => ?_) fun link arrived => ?_⟩
  · rw [moved]
    exact call?_setCall_own ((congrArg (List.lookup id) calls).trans held.found) _
  · rintro t' boxed' ⟨⟩
    exact same.trans own
  · exact absurd rfl (apart next boxed)
  · rw [moved]
    exact tends.held
  · rcases held.links_move sound proper driven allowed member arrived with shaking | placed
    · rw [moved]
      exact tends.each link (.inl shaking)
    · exact .inr placed
  · rw [moved] at arrived ⊢
    exact tends.each link (.inr arrived)

theorem sets_out (moved : w.move m = w.pollDial id d) {carrier : Carrier}
    (stage : d.stage = .fresh carrier) :
    ∃ next, Held (w.move m) id scope (turns ++ [(w, w.move m)]) next := by
  cases goes : w.via? carrier with
  | none =>
    rw [moved, pollDial_blocked stage goes] at goesOn
    simp [call?_finish] at goesOn
  | some v =>
    rw [pollDial_fresh stage goes] at moved
    let request : ConnectRequest :=
      { scope := d.scope, network := d.network, address := d.address, counter := .tcpConnections }
    have direct (moved : w.move m = (w.beginConnect request).1.connectProgress id d
        (isBoxed carrier) (w.beginConnect request).2) :=
      held.connects sound proper driven allowed goesOn (by simp [stage])
        (w.beginConnect_beside request) (fun _ => (w.beginConnect_asks request).1) moved
    cases v with
    | manager | direct => exact direct moved
    | tunnel =>
      have current := sound.regular.current_lt
      have idle : d.shaking? = none := by simp [Dial.shaking?, stage]
      have tends := (w.beginTunnelDial_unlinked d.scope d.network d.address).tends
      exact held.tunnels sound proper driven allowed goesOn held.caller current
        (w.beginTunnelDial_serves current d.scope d.network d.address) (idle ▸ tends) moved

theorem polls (numbered : w.traffic.Numbered) (moved : w.move m = w.pollDial id d) :
    ∃ next, Held (w.move m) id scope (turns ++ [(w, w.move m)]) next := by
  have regular := sound.regular
  cases stage : d.stage with
  | fresh carrier => exact held.sets_out sound proper driven allowed goesOn moved stage
  | connecting c boxed =>
    simp only [pollDial, stage] at moved
    have counter := regular.connecting_counter held.found stage
    refine held.connects sound proper driven allowed goesOn (by simp [stage])
      (w.pollConnect_beside c (by simp [counter])) (fun undone => ?_) moved
    rcases w.pollConnect_cases c with ⟨-, asks⟩ | ⟨network, socket, -, made⟩
    · exact asks.1
    · rw [made] at undone
      cases undone
  | tunneling t boxed =>
    simp only [pollDial, stage] at moved
    obtain ⟨fits, inside⟩ := regular.tunnelDial_fits held.found stage
    have hand := Dial.shaking?_tunneling stage
    have tends := pollTunnelDial_tends (hand ▸ held.shaking) numbered fits
    exact held.tunnels sound proper driven allowed goesOn (held.own t boxed stage) inside
      (w.pollTunnelDial_serves t fits) (hand ▸ tends) moved

end Turn

theorem stays {u : World} (same : u = w) : Held u id scope (turns ++ [(w, u)]) d := by
  subst same
  refine ⟨held.found, held.caller, held.own,
    fun apart => each_turn (held.apart apart) ⟨rfl, rfl, rfl⟩, held.shaking,
    each_turn held.links fun link arrived => ?_⟩
  rw [u.arrivals_none rfl] at arrived
  exact absurd arrived List.not_mem_nil

theorem advances {m : Move} (driven : m.Driven) (allowed : w.allows m)
    (goesOn : ((w.move m).call? id).isSome) {f : TunnelDial → World × Progress TunnelDial}
    (moved : w.move m = w.advance id f)
    (serves : ∀ t : TunnelDial, t.Fits w.frame → Serves t (.stake t.stage.stake) w (f t))
    (tends : ∀ t : TunnelDial,
      (∀ link, t.shaking? = some link → w.traffic.Has (·.counter = .tunnelSessions) link) →
        Tends t.shaking? w (f t)) :
    ∃ next, Held (w.move m) id scope (turns ++ [(w, w.move m)]) next := by
  simp only [advance, held.found] at moved
  split at moved
  next t boxed stage =>
    obtain ⟨fits, inside⟩ := sound.regular.tunnelDial_fits held.found stage
    have hand := Dial.shaking?_tunneling stage
    exact held.tunnels sound proper driven allowed goesOn (held.own t boxed stage) inside
      (serves t fits) (hand ▸ tends t (hand ▸ held.shaking)) moved
  next => exact ⟨d, held.stays sound proper moved⟩

theorem turn (numbered : w.traffic.Numbered) {m : Move} (driven : m.Driven) (allowed : w.allows m)
    (about : m.call? = some id) (goesOn : ((w.move m).call? id).isSome) :
    ∃ next, Held (w.move m) id scope (turns ++ [(w, w.move m)]) next := by
  rcases own_moves held.found driven allowed about with rfl | rfl | ⟨mode, rfl⟩
  · exact held.polls sound proper driven allowed goesOn numbered (move_poll held.found)
  · exact held.advances sound proper driven allowed goesOn rfl (fun t => w.withdraw_serves t)
      fun t => withdraw_tends
  · exact held.advances sound proper driven allowed goesOn rfl
      (fun t fits => w.answer_serves t fits mode) fun t shaking => answer_tends shaking mode

end Held

def NoDial (w : World) (id : String) : Prop := ∀ d, w.call? id ≠ some (.dial d)

theorem setCall_noDial (u : World) {c : Call} (other : ∀ d, c ≠ .dial d) :
    (u.setCall id c).NoDial id := by
  intro d dials
  rw [call?_setCall, if_pos rfl, Option.map_eq_some_iff] at dials
  obtain ⟨-, -, same⟩ := dials
  exact other d same

theorem addCall_noDial (u : World) {c : Call} (other : ∀ d, c ≠ .dial d) :
    (u.addCall id c).NoDial id := by
  intro d dials
  rw [call?_addCall, if_pos rfl] at dials
  exact other d (Option.some.inj dials)

theorem finish_noDial (u : World) (f : Finish) : (u.finish id f).NoDial id := by
  intro d dials
  simp [call?_finish] at dials

theorem joinWorkers_noDial (w : World) (worker : Nat) : (w.joinWorkers id worker).NoDial id := by
  unfold joinWorkers
  split
  · exact setCall_noDial _ (by simp)
  · exact finish_noDial _ _

theorem awaitWatch_noDial (w : World) : (w.awaitWatch id).NoDial id := by
  unfold awaitWatch
  split
  · exact joinWorkers_noDial _ 0
  · exact setCall_noDial _ (by simp)

theorem runDisconnect_noDial (w : World) (stage : ReconnectStage) :
    (w.runDisconnect id stage).NoDial id := by
  unfold runDisconnect
  split
  · exact setCall_noDial _ (by simp)
  · exact awaitWatch_noDial _

theorem awaitShutdown_noDial (w : World) (subscription : Nat) :
    (w.awaitShutdown id subscription).NoDial id := by
  unfold awaitShutdown
  split
  · exact runDisconnect_noDial _ _
  · split
    · exact setCall_noDial _ (by simp)
    · exact runDisconnect_noDial _ _

theorem pollRun_noDial (w : World) (stage : RunStage) : (w.pollRun id stage).NoDial id := by
  unfold pollRun
  split
  next =>
    split
    · exact finish_noDial _ _
    · exact awaitShutdown_noDial _ _
  next => exact awaitShutdown_noDial _ _
  next => exact runDisconnect_noDial _ _
  next => exact awaitWatch_noDial _
  next => exact joinWorkers_noDial _ _

theorem setParamsProgress_noDial (params : Server.Params) (r : Reconnected) :
    (setParamsProgress id params r).NoDial id := by
  unfold setParamsProgress
  split
  · exact setCall_noDial _ (by simp)
  · exact finish_noDial _ _

theorem pollCall_noDial (regular : w.Regular) (noDial : w.NoDial id) :
    (w.pollCall id).NoDial id := by
  unfold pollCall
  split
  next => exact noDial
  next d found => exact absurd found (noDial d)
  next h name n found =>
    have calls := calls_of_frame (read_travels regular h n).frame
    unfold pollRead
    split
    next u read =>
      intro d
      rw [read] at calls
      exact (congrArg (List.lookup id) calls).trans_ne (noDial d)
    next => exact finish_noDial _ _
    next => exact finish_noDial _ _
  next =>
    unfold pollReconnectCall
    split
    · exact setCall_noDial _ (by simp)
    · exact finish_noDial _ _
  next =>
    unfold pollSetParams
    exact setParamsProgress_noDial _ _
  next => exact pollRun_noDial _ _
  next =>
    unfold pollJoin
    split
    · exact setCall_noDial _ (by simp)
    · exact finish_noDial _ _

theorem advance_noDial (noDial : w.NoDial id) (f : TunnelDial → World × Progress TunnelDial) :
    (w.advance id f).NoDial id := by
  unfold advance
  split
  next d found => exact absurd found (noDial d)
  next => exact noDial

theorem move_noDial (regular : w.Regular) {m : Move} (driven : m.Driven)
    (about : m.call? = some id) (noDial : w.NoDial id)
    (starts : ∀ carrier network address scope, m ≠ .dial id carrier network address scope) :
    (w.move m).NoDial id := by
  cases m with
  | poll task =>
    cases task with
    | call other =>
      cases about
      exact pollCall_noDial regular noDial
    | _ => cases about
  | withdraw other =>
    cases about
    exact advance_noDial noDial w.withdraw
  | answer other mode =>
    cases about
    exact advance_noDial noDial (w.answer mode)
  | dial other carrier network address scope =>
    cases about
    exact absurd rfl (starts carrier network address scope)
  | reconnect | setParams | run =>
    cases about
    exact addCall_noDial w (by simp)
  | startRead other name n =>
    cases about
    simp only [move, owner]
    split
    · exact addCall_noDial _ (by simp)
    · exact noDial
  | abandon other => cases driven
  | _ => cases about

end World

namespace Scenario.Setup

-- A dial in progress, from its beginning on, with the worlds before and after each of its turns.
inductive Dialing (s : Setup) (id : String) (scope : Scope) : List (World × World) → World → Prop
  | begins {w : World} (carrier : Carrier) (network address : String)
    (reached : s.Reaches Move.Driven w) (absent : w.call? id = none) :
    Dialing s id scope [] (w.move (.dial id carrier network address scope))
  | waits {turns : List (World × World)} {w : World} (m : Move)
    (before : Dialing s id scope turns w) (driven : m.Driven) (allowed : w.allows m)
    (other : m.call? ≠ some id) : Dialing s id scope turns (w.move m)
  | turn {turns : List (World × World)} {w : World} (m : Move)
    (before : Dialing s id scope turns w) (driven : m.Driven) (allowed : w.allows m)
    (about : m.call? = some id) (goesOn : ((w.move m).call? id).isSome) :
    Dialing s id scope (turns ++ [(w, w.move m)]) (w.move m)

variable {s : Setup} {id : String} {scope : Scope} {turns : List (World × World)} {w : World}

theorem Dialing.reaches (dialing : s.Dialing id scope turns w) : s.Reaches Move.Driven w := by
  induction dialing with
  | begins carrier network address reached absent => exact reached.move rfl absent
  | waits m _ driven allowed _ ih => exact ih.move driven allowed
  | turn m _ driven allowed _ _ ih => exact ih.move driven allowed

theorem Dialing.held (dialing : s.Dialing id scope turns w) :
    ∃ d, World.Held w id scope turns d := by
  induction dialing with
  | begins carrier network address reached absent =>
    refine ⟨⟨scope, network, address, .fresh carrier⟩, ?_, rfl, by simp, fun _ _ member => ?_,
      by simp [Dial.shaking?], fun _ member => ?_⟩
    · simp [World.move, World.call?_addCall]
    · exact absurd member List.not_mem_nil
    · exact absurd member List.not_mem_nil
  | waits m before driven allowed other ih =>
    obtain ⟨d, held⟩ := ih
    exact ⟨d, held.other before.reaches.sound before.reaches.loses.proper driven allowed other⟩
  | turn m before driven allowed about goesOn ih =>
    obtain ⟨d, held⟩ := ih
    have reached := before.reaches
    exact held.turn reached.sound reached.loses.proper reached.numbered driven allowed about goesOn

theorem Dialing.scope_eq (dialing : s.Dialing id scope turns w) {d : Dial}
    (found : w.call? id = some (.dial d)) : d.scope = scope := by
  obtain ⟨d', held⟩ := dialing.held
  obtain rfl : d' = d := by simpa using held.found.symm.trans found
  exact held.caller

theorem Reaches.dialing (reached : s.Reaches Move.Driven w) {d : Dial}
    (found : w.call? id = some (.dial d)) : ∃ turns, s.Dialing id d.scope turns w := by
  induction reached generalizing d with
  | refl => simp [World.call?, s.build_calls] at found
  | @tail u _ before goes ih =>
    obtain ⟨m, driven, allowed, rfl⟩ := goes
    have before : s.Reaches Move.Driven u := before
    by_cases about : m.call? = some id
    · by_cases dials : ∃ old, u.call? id = some (.dial old)
      · obtain ⟨old, was⟩ := dials
        obtain ⟨turns, dialing⟩ := ih was
        have dialing := dialing.turn m driven allowed about (by simp [found])
        exact ⟨_, dialing.scope_eq found ▸ dialing⟩
      · have noDial : u.NoDial id := fun old was => dials ⟨old, was⟩
        have starts : ∃ carrier network address scope,
            m = .dial id carrier network address scope := by
          by_contra other
          refine World.move_noDial before.sound.regular driven about noDial ?_ d found
          exact fun carrier network address scope same =>
            other ⟨carrier, network, address, scope, same⟩
        obtain ⟨carrier, network, address, scope, rfl⟩ := starts
        have dialing : s.Dialing id scope [] _ := .begins carrier network address before allowed
        obtain rfl := dialing.scope_eq found
        exact ⟨_, dialing⟩
    · have same := (World.move_others before.sound.regular driven allowed about).1
      obtain ⟨turns, dialing⟩ := ih (same.symm.trans found)
      exact ⟨turns, dialing.waits m driven allowed about⟩

end Scenario.Setup

end Egress
