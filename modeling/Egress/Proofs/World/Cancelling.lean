import Egress.Proofs.World.Dialing

set_option autoImplicit false

namespace Egress

open Simulation Tunnel

theorem Tunnel.Pool.acquire_uncalled {p : Pool} {cap ticket : Nat} {first : Bool}
    (called : p.called ≤ p.tickets) (waits : (p.acquire cap first).2 = .wait ticket) :
    (p.acquire cap first).1.isCalled ticket = false := by
  rcases p.acquire_cases cap first with ⟨s, -, -, same⟩ | ⟨-, -, same⟩ | ⟨-, -, same⟩ <;>
    rw [same] at waits ⊢ <;> cases waits
  exact decide_eq_false (Nat.not_lt.mpr called)

namespace World

variable {w : World} {id : String}

def tunnel? (w : World) (d : Dial) : Option Nat :=
  match d.stage with
  | .tunneling t _ => some t.generation
  | .fresh carrier => if w.via? carrier = some .tunnel then some w.current else none
  | .connecting _ _ => none

def heeds (w : World) (d : Dial) : List Scope :=
  d.scope :: ((w.tunnel? d).bind w.generation?).toList.map (·.scope)

def Serviceable (w : World) (d : Dial) : Prop :=
  ∀ carrier, d.stage = .fresh carrier → ∃ v, w.via? carrier = some v ∧
    (v = .tunnel → ((w.generation? w.current).bind (·.credentials)).isSome)

-- A dial with this link in hand leaves nothing behind. No stream and no session has come of the
-- turn, no connection either, and the link is closed.
structure Undoes (hand : Option Nat) (w next : World) : Prop where
  streams : next.streams = w.streams
  sessionWatches : next.sessionWatches = w.sessionWatches
  apart : hand = none → Unconnected w next
  closes : ∀ link, hand = some link →
    ∃ c, c.id = link ∧ c.counter = .tunnelSessions ∧ Closes c w next

structure GivesUp {suspended : Type} (hand : Option Nat) (w : World)
    (r : World × Progress suspended) : Prop where
  result : r.2 = .failed .canceled
  finished : r.1.finished = w.finished
  undoes : Undoes hand w r.1

theorem Undoes.finish {hand : Option Nat} {u : World} (undoes : Undoes hand w u) (f : Finish) :
    Undoes hand w (u.finish id f) := by
  obtain ⟨streams, sessionWatches, apart, closes⟩ := undoes
  refine ⟨streams, sessionWatches, fun idle => ?_, fun link hand => ?_⟩
  · obtain ⟨connections, counters, supervisor⟩ := apart idle
    exact ⟨connections, counters, supervisor⟩
  · obtain ⟨c, number, counter, found, closed, others, numbers, opened, before⟩ := closes link hand
    exact ⟨c, number, counter, found, closed, others, numbers, opened, before⟩

theorem Undoes.numbers {hand : Option Nat} {u : World} (undoes : Undoes hand w u) :
    u.connections.map (·.id) = w.connections.map (·.id) := by
  cases idle : hand with
  | none => rw [(undoes.apart idle).connections]
  | some own =>
    obtain ⟨c, -, -, closes⟩ := undoes.closes own idle
    exact closes.numbers

def traces (w : World) :=
  (w.finished, w.streams, w.sessionWatches, w.connections, w.counters, w.supervisor)

theorem givesUp_apart {suspended : Type} {u : World} (same : u.traces = w.traces) :
    GivesUp none w ((u, .failed .canceled) : World × Progress suspended) := by
  simp only [traces, Prod.mk.injEq] at same
  obtain ⟨finished, streams, sessionWatches, connections, counters, supervisor⟩ := same
  exact ⟨rfl, finished, streams, sessionWatches, fun _ => ⟨connections, counters, supervisor⟩,
    fun _ hand => absurd hand (by simp)⟩

theorem GivesUp.pooled {suspended : Type} {g : Nat} {f : Pool → Pool}
    {r : World × Progress suspended} (givesUp : GivesUp none (w.updatePool g f) r) :
    GivesUp none w r := by
  obtain ⟨result, finished, streams, sessionWatches, apart, -⟩ := givesUp
  obtain ⟨connections, counters, supervisor⟩ := apart rfl
  exact ⟨result, finished, streams, sessionWatches,
    fun _ => ⟨connections, counters, supervisor⟩, fun _ hand => absurd hand (by simp)⟩

section Stages

variable {d : TunnelDial} (cancelled : w.isDialCancelled d)

theorem isDialCancelled_of_frame {u : World} (same : u.frame = w.frame) (d : TunnelDial) :
    u.isDialCancelled d = w.isDialCancelled d := by
  have scopes : u.scopes = w.scopes := congrArg (·.scopes) same
  simp only [isDialCancelled, isCancelled, scopes, isGenerationCancelled_of_frame same]

include cancelled

theorem openStream_givesUp (lease : Lease) : GivesUp none w (w.openStream d lease) := by
  rw [openStream, if_pos cancelled]
  exact givesUp_apart rfl

theorem createSession_givesUp : GivesUp none w (w.createSession d) := by
  unfold createSession
  split
  next => exact givesUp_apart rfl
  next live =>
    split
    next => exact givesUp_apart rfl
    next gen found =>
      -- The caller still wants the dial, so it is the generation that is over.
      have gone : w.isCancelled gen.scope := by
        simpa [isDialCancelled, live, isGenerationCancelled, found] using cancelled
      rw [beginConnect, if_pos gone]
      exact givesUp_apart rfl

theorem acquire_givesUp (first : Bool) : GivesUp none w (w.acquire d first) := by
  have cancelled' := (isDialCancelled_of_frame (w.updatePool_frame d.generation fun _ =>
    ((w.pool d.generation).acquire w.settings.sessionCap first).1) d).trans cancelled
  unfold acquire
  dsimp only
  split
  next lease _ => exact (openStream_givesUp cancelled' lease).pooled
  next => exact (createSession_givesUp cancelled').pooled
  next =>
    rw [if_pos cancelled']
    exact givesUp_apart rfl

theorem pollAdmission_givesUp (ticket : Nat) : GivesUp none w (w.pollAdmission d ticket) := by
  unfold pollAdmission
  split
  next => exact acquire_givesUp cancelled false
  next => exact givesUp_apart rfl

theorem pollLinking_givesUp (fits : d.Fits w.frame) {link : Connecting}
    (stage : d.stage = .linking link) : GivesUp none w (w.pollLinking d link) := by
  obtain ⟨gen, found, -, linking⟩ := fits
  obtain ⟨-, scope⟩ := linking link stage
  unfold pollLinking
  split
  next => exact givesUp_apart rfl
  next live =>
    -- The link heeds the generation.
    have gone : w.isCancelled link.request.scope := by
      have gone : w.isGenerationCancelled d.generation := by
        simpa [isDialCancelled, live] using cancelled
      rw [isGenerationCancelled_eq, found] at gone
      rw [scope]
      exact gone
    rw [pollConnect, if_pos gone]
    exact givesUp_apart rfl

theorem pollShaking_givesUp {link : Nat}
    (held : w.traffic.Has (·.counter = .tunnelSessions) link) (ticket : Nat) :
    GivesUp (some link) w (w.pollShaking d link ticket) := by
  obtain ⟨c, found, counter⟩ := held
  obtain rfl := w.find_connection found
  let left : World := { w with script := w.script.leaveShaking ticket }
  have found : left.connection? c.id = some c := found
  have level := (left.closeConnection_beside c.id none).level
  obtain ⟨found, closed, others, numbers, opened, before⟩ := closeConnection_closes found
  rw [pollShaking, if_pos cancelled]
  refine ⟨rfl, congrArg (·.finished) level.frame, level.streams, level.sessionWatches,
    (fun idle => absurd idle (by simp)), fun other hand => ?_⟩
  obtain rfl := Option.some.inj hand
  exact ⟨c, rfl, counter, found, closed, others, numbers, opened, before⟩

theorem pollTunnelDial_givesUp (fits : d.Fits w.frame)
    (held : ∀ link, d.shaking? = some link → w.traffic.Has (·.counter = .tunnelSessions) link) :
    GivesUp d.shaking? w (w.pollTunnelDial d) := by
  unfold pollTunnelDial TunnelDial.shaking?
  cases stage : d.stage with
  | waiting ticket => exact pollAdmission_givesUp cancelled ticket
  | linking link => exact pollLinking_givesUp cancelled fits stage
  | shaking link ticket =>
    exact pollShaking_givesUp cancelled (held link (by simp [TunnelDial.shaking?, stage])) ticket
  | opening lease ticket =>
    dsimp only
    rw [pollOpening, if_pos cancelled]
    exact givesUp_apart rfl

theorem withdraw_givesUp : GivesUp d.shaking? w (w.withdraw d) ∨ w.withdraw d = (w, .waiting d) := by
  unfold withdraw
  split
  next ticket stage =>
    have idle : d.shaking? = none := by simp [TunnelDial.shaking?, stage]
    rw [if_pos cancelled, idle]
    exact .inl (givesUp_apart rfl)
  next => exact .inr rfl

theorem answer_cancelled (mode : Mode) : w.answer mode d = (w, .waiting d) := by
  unfold answer
  split
  next => rw [if_pos cancelled]
  next => rfl

end Stages

theorem beginConnect_givesUp {request : ConnectRequest} (cancelled : w.isCancelled request.scope) :
    GivesUp none w (w.beginConnect request) := by
  rw [beginConnect, if_pos cancelled]
  exact givesUp_apart rfl

theorem pollConnect_givesUp {c : Connecting} (cancelled : w.isCancelled c.request.scope) :
    GivesUp none w (w.pollConnect c) := by
  rw [pollConnect, if_pos cancelled]
  exact givesUp_apart rfl

def entering (w : World) (d : Dial) : TunnelDial :=
  { generation := w.current, scope := d.scope, network := d.network, address := d.address,
    stage := .waiting 0 }

theorem beginTunnelDial_eq {d : Dial}
    (configured : ((w.generation? w.current).bind (·.credentials)).isSome) :
    w.beginTunnelDial d.scope d.network d.address = w.acquire (w.entering d) true := by
  have configured := Option.isSome_iff_ne_none.mp configured
  rw [beginTunnelDial, if_neg fun missing => configured (Option.isNone_iff_eq_none.mp missing)]
  rfl

theorem heeds_cases {d : Dial} {scope : Scope} (heeds : scope ∈ w.heeds d)
    (cancelled : w.isCancelled scope) :
    w.isCancelled d.scope ∨ ∃ g, w.tunnel? d = some g ∧ w.isGenerationCancelled g := by
  rcases List.mem_cons.mp heeds with rfl | own
  · exact .inl cancelled
  · obtain ⟨gen, there, rfl⟩ := List.mem_map.mp own
    obtain ⟨g, goes, found⟩ := Option.bind_eq_some_iff.mp (Option.mem_toList.mp there)
    exact .inr ⟨g, goes, by simpa [isGenerationCancelled, found] using cancelled⟩

section Turn

variable {d : Dial} {scope heeded : Scope} {turns : List (World × World)}
  (held : Held w id scope turns d) (heeds : heeded ∈ w.heeds d) (cancelled : w.isCancelled heeded)

include heeds cancelled

theorem caller_cancelled (direct : w.tunnel? d = none) : w.isCancelled d.scope := by
  rcases heeds_cases heeds cancelled with caller | ⟨g, goes, -⟩
  · exact caller
  · rw [direct] at goes
    cases goes

theorem tunnel_cancelled {t : TunnelDial} (goes : w.tunnel? d = some t.generation)
    (same : t.scope = d.scope) : w.isDialCancelled t := by
  rcases heeds_cases heeds cancelled with caller | ⟨g, goes', gone⟩
  · simp [isDialCancelled, same, caller]
  · obtain rfl := Option.some.inj (goes.symm.trans goes')
    simp [isDialCancelled, gone]

include held

theorem tunneling_cancelled {t : TunnelDial} {boxed : Bool} (stage : d.stage = .tunneling t boxed) :
    w.isDialCancelled t :=
  tunnel_cancelled heeds cancelled (by simp [tunnel?, stage])
    ((held.own t boxed stage).trans held.caller.symm)

variable (regular : w.Regular) (proper : w.core.Proper)

include regular proper

theorem connecting_cancelled {c : Connecting} {boxed : Bool} (stage : d.stage = .connecting c boxed) :
    w.isCancelled c.request.scope := by
  rw [connecting_scope regular proper held.found stage]
  exact caller_cancelled heeds cancelled (by simp [tunnel?, stage])

theorem canPoll_cancelled : w.canPoll (.call id) := by
  simp only [canPoll, canPollCall, held.found, canPollDial]
  split
  next => rfl
  next c boxed stage =>
    simp [canPollConnect, connecting_cancelled held heeds cancelled regular proper stage]
  next t boxed stage =>
    simp [canPollTunnelDial, tunneling_cancelled held heeds cancelled stage]

end Turn

structure CallsOff (id : String) (d : Dial) (w next : World) : Prop where
  ended : w.endOf? next id = some (.failed .canceled)
  gone : next.call? id = none
  undoes : Undoes d.shaking? w next

section CallsOff

variable {d : Dial} {boxed : Bool}

theorem GivesUp.callsOff {suspended : Type} {r : World × Progress suspended}
    (givesUp : GivesUp d.shaking? w r) :
    CallsOff id d w (r.1.finish id (.failed .canceled)) where
  ended := endOf?_finish givesUp.finished _
  gone := by simp [call?_finish]
  undoes := givesUp.undoes.finish _

theorem GivesUp.connectProgress {r : World × Progress Connecting}
    (givesUp : GivesUp d.shaking? w r) :
    CallsOff id d w (r.1.connectProgress id d boxed r.2) := by
  rw [givesUp.result]
  exact givesUp.callsOff

theorem GivesUp.tunnelProgress {r : World × Progress TunnelDial}
    (givesUp : GivesUp d.shaking? w r) :
    CallsOff id d w (r.1.tunnelProgress id d boxed r.2) := by
  rw [givesUp.result]
  exact givesUp.callsOff

end CallsOff

section Turn

variable {d : Dial} {scope heeded : Scope} {turns : List (World × World)}
  {lost : Nat → Multiset Stake} (held : Held w id scope turns d) (sound : Sound lost w)
  (heeds : heeded ∈ w.heeds d) (cancelled : w.isCancelled heeded)

include held sound heeds cancelled

omit held sound in
theorem fresh_callsOff {carrier : Carrier} (stage : d.stage = .fresh carrier)
    (serviceable : w.Serviceable d) : CallsOff id d w (w.pollDial id d) := by
  have idle : d.shaking? = none := by simp [Dial.shaking?, stage]
  obtain ⟨v, goes, configured⟩ := serviceable carrier stage
  rw [pollDial_fresh stage goes]
  have direct (other : v ≠ .tunnel) : w.isCancelled d.scope :=
    caller_cancelled heeds cancelled (by simp [tunnel?, stage, goes, other])
  cases v with
  | manager | direct =>
    exact (idle ▸ beginConnect_givesUp (direct (by simp)) :
      GivesUp d.shaking? w (w.beginConnect ⟨d.scope, d.network, d.address, .tcpConnections⟩)
      ).connectProgress
  | tunnel =>
    have gone : w.isDialCancelled (w.entering d) :=
      tunnel_cancelled heeds cancelled (by simp [tunnel?, stage, goes, entering]) rfl
    have begun := beginTunnelDial_eq (d := d) (configured rfl)
    have givesUp : GivesUp d.shaking? w (w.beginTunnelDial d.scope d.network d.address) := by
      rw [begun, idle]
      exact acquire_givesUp gone true
    exact givesUp.tunnelProgress

theorem pollDial_callsOff (proper : w.core.Proper) (serviceable : w.Serviceable d) :
    CallsOff id d w (w.pollDial id d) := by
  cases stage : d.stage with
  | fresh carrier => exact fresh_callsOff heeds cancelled stage serviceable
  | connecting c boxed =>
    have idle : d.shaking? = none := by simp [Dial.shaking?, stage]
    have gone := connecting_cancelled held heeds cancelled sound.regular proper stage
    have givesUp : GivesUp d.shaking? w (w.pollConnect c) := idle ▸ pollConnect_givesUp gone
    simp only [pollDial, stage]
    exact givesUp.connectProgress
  | tunneling t boxed =>
    have hand := Dial.shaking?_tunneling stage
    obtain ⟨fits, -⟩ := sound.regular.tunnelDial_fits held.found stage
    have gone := tunneling_cancelled held heeds cancelled stage
    have givesUp : GivesUp d.shaking? w (w.pollTunnelDial t) :=
      hand ▸ pollTunnelDial_givesUp gone fits (hand ▸ held.shaking)
    simp only [pollDial, stage]
    exact givesUp.tunnelProgress

omit sound in
theorem advance_callsOff {f : TunnelDial → World × Progress TunnelDial}
    (either : ∀ t, w.isDialCancelled t → GivesUp t.shaking? w (f t) ∨ f t = (w, .waiting t)) :
    CallsOff id d w (w.advance id f) ∨ w.endOf? (w.advance id f) id = none := by
  simp only [advance, held.found]
  split
  next t boxed stage =>
    have hand := Dial.shaking?_tunneling stage
    rcases either t (tunneling_cancelled held heeds cancelled stage) with givesUp | still
    · exact .inl (hand ▸ givesUp).tunnelProgress
    · rw [still]
      exact .inr (endOf?_setCall rfl _)
  next => exact .inr (w.endOf?_self id)

theorem move_callsOff (proper : w.core.Proper) (serviceable : w.Serviceable d) {m : Move}
    (driven : m.Driven) (allowed : w.allows m) {f : Finish}
    (ended : w.endOf? (w.move m) id = some f) : CallsOff id d w (w.move m) := by
  have about : m.call? = some id := by
    by_contra other
    rw [(move_others sound.regular driven allowed other).2] at ended
    cases ended
  have off {g : TunnelDial → World × Progress TunnelDial} (moved : w.move m = w.advance id g)
      (either : ∀ t, w.isDialCancelled t → GivesUp t.shaking? w (g t) ∨ g t = (w, .waiting t)) :
      CallsOff id d w (w.move m) := by
    rw [moved] at ended ⊢
    rcases advance_callsOff held heeds cancelled either with off | goesOn
    · exact off
    · rw [goesOn] at ended
      cases ended
  rcases own_moves held.found driven allowed about with rfl | rfl | ⟨mode, rfl⟩
  · rw [move_poll held.found]
    exact pollDial_callsOff held sound heeds cancelled proper serviceable
  · exact off rfl fun t gone => withdraw_givesUp gone
  · exact off rfl fun t gone => .inr (answer_cancelled gone mode)

end Turn

def ask (w : World) (t : TunnelDial) (first : Bool) : World × Admission :=
  let (pool, admission) := (w.pool t.generation).acquire w.settings.sessionCap first
  (w.updatePool t.generation fun _ => pool, admission)

-- In a poll of the dial `d` the loop has asked `n` times, and stands in `u` with this answer.
inductive Inquires (w : World) (d : Dial) : TunnelDial → Bool → Nat → World → Admission → Prop
  | parked {t : TunnelDial} {boxed : Bool} {ticket : Nat} (stage : d.stage = .tunneling t boxed)
    (waits : t.stage = .waiting ticket) : Inquires w d t boxed 0 w (.wait ticket)
  | first {carrier : Carrier} (stage : d.stage = .fresh carrier)
    (goes : w.via? carrier = some .tunnel) :
    Inquires w d (w.entering d) (isBoxed carrier) 1 (w.ask (w.entering d) true).1
      (w.ask (w.entering d) true).2
  | again {t : TunnelDial} {boxed : Bool} {n : Nat} {u : World} {ticket : Nat}
    (before : Inquires w d t boxed n u (.wait ticket))
    (called : (u.pool t.generation).isCalled ticket) :
    Inquires w d t boxed (n + 1) (u.ask t false).1 (u.ask t false).2

-- The dial leaves the loop of admission: it has been let in, or sees that it is cancelled, or
-- waits.
inductive Emerges (t : TunnelDial) (u : World) : Admission → World × Progress TunnelDial → Prop
  | ready (lease : Lease) : Emerges t u (.ready lease) (u.openStream t lease)
  | create : Emerges t u .create (u.createSession t)
  | givesUp (ticket : Nat) (cancelled : u.isDialCancelled t) :
    Emerges t u (.wait ticket) (u.updatePool t.generation Pool.withdraw, .failed .canceled)
  | waits (ticket : Nat) (uncalled : (u.pool t.generation).isCalled ticket = false)
    (live : u.isDialCancelled t = false) :
    Emerges t u (.wait ticket) (u, .waiting { t with stage := .waiting ticket })

section Loop

variable {d : Dial} {t : TunnelDial} {boxed : Bool} {n : Nat} {u : World} {a : Admission}
  {lost : Nat → Multiset Stake}

theorem ask_frame (t : TunnelDial) (first : Bool) : (w.ask t first).1.frame = w.frame :=
  w.updatePool_frame t.generation _

theorem ask_uncalled (sound : Sound lost w) (inside : t.generation < w.generations.length)
    {first : Bool} {ticket : Nat} (waits : (w.ask t first).2 = .wait ticket) :
    ((w.ask t first).1.pool t.generation).isCalled ticket = false := by
  have pool : (w.ask t first).1.pool t.generation =
      ((w.pool t.generation).acquire w.settings.sessionCap first).1 :=
    w.pool_updatePool inside _
  rw [pool]
  exact Pool.acquire_uncalled (sound.balanced t.generation).called waits

theorem Inquires.once (inquires : w.Inquires d t boxed n u a) (sound : Sound lost w)
    (found : w.call? id = some (.dial d)) :
    t.generation < w.generations.length ∧ u.frame = w.frame ∧ w.tunnel? d = some t.generation ∧
      (n = 0 ∧ u = w ∨ n = 1 ∧ ∀ ticket, a = .wait ticket →
        (u.pool t.generation).isCalled ticket = false) := by
  induction inquires with
  | parked stage waits =>
    obtain ⟨-, inside⟩ := sound.regular.tunnelDial_fits found stage
    exact ⟨inside, rfl, by simp [tunnel?, stage], .inl ⟨rfl, rfl⟩⟩
  | first stage goes =>
    have inside : (w.entering d).generation < w.generations.length := sound.regular.current_lt
    exact ⟨inside, w.ask_frame _ true, by simp [tunnel?, stage, goes, entering],
      .inr ⟨rfl, fun ticket waits => ask_uncalled sound inside waits⟩⟩
  | again before called ih =>
    obtain ⟨inside, frame, goes, ⟨rfl, rfl⟩ | ⟨rfl, uncalled⟩⟩ := ih
    · exact ⟨inside, ask_frame _ false, goes,
        .inr ⟨rfl, fun ticket waits => ask_uncalled sound inside waits⟩⟩
    · rw [uncalled _ rfl] at called
      cases called

theorem Inquires.caller {scope : Scope} {turns : List (World × World)}
    (inquires : w.Inquires d t boxed n u a) (held : Held w id scope turns d) : t.scope = d.scope := by
  induction inquires with
  | parked stage => exact (held.own _ _ stage).trans held.caller.symm
  | first => rfl
  | again _ _ ih => exact ih

theorem acquire_emerges {first : Bool} (uncalled : ∀ ticket, (w.ask t first).2 = .wait ticket →
    ((w.ask t first).1.pool t.generation).isCalled ticket = false) :
    Emerges t (w.ask t first).1 (w.ask t first).2 (w.acquire t first) := by
  unfold acquire
  dsimp only
  split
  next lease answer =>
    have answer : (w.ask t first).2 = .ready lease := answer
    rw [answer]
    exact .ready lease
  next answer =>
    have answer : (w.ask t first).2 = .create := answer
    rw [answer]
    exact .create
  next ticket answer =>
    have answer : (w.ask t first).2 = .wait ticket := answer
    have uncalled := uncalled ticket answer
    rw [answer]
    split
    next gone => exact .givesUp ticket gone
    next live => exact .waits ticket uncalled (Bool.eq_false_of_not_eq_true live)

theorem Inquires.polled (inquires : w.Inquires d t boxed n u a) (sound : Sound lost w)
    (found : w.call? id = some (.dial d)) (serviceable : w.Serviceable d) :
    ∃ n u a r, w.Inquires d t boxed n u a ∧ Emerges t u a r ∧
      w.pollDial id d = r.1.tunnelProgress id d boxed r.2 := by
  have uncalled {n : Nat} {u : World} {a : Admission} (inquires : w.Inquires d t boxed (n + 1) u a)
      (ticket : Nat) (waits : a = .wait ticket) : (u.pool t.generation).isCalled ticket = false := by
    obtain ⟨-, -, -, ⟨none, -⟩ | ⟨-, uncalled⟩⟩ := inquires.once sound found
    · cases none
    · exact uncalled ticket waits
  induction inquires with
  | again before called ih => exact ih uncalled
  | @parked t boxed ticket stage waits =>
    have parked := Inquires.parked (w := w) stage waits
    have polled : w.pollDial id d = (w.pollAdmission t ticket).1.tunnelProgress id d boxed
        (w.pollAdmission t ticket).2 := by
      simp only [pollDial, stage, pollTunnelDial, waits]
    unfold pollAdmission at polled
    split at polled
    next called =>
      have again := parked.again called
      exact ⟨_, _, _, _, again, acquire_emerges (uncalled again), polled⟩
    next uncalled =>
      have uncalled := Bool.eq_false_of_not_eq_true uncalled
      split at polled
      next gone => exact ⟨_, _, _, _, parked, .givesUp ticket gone, polled⟩
      next live =>
        have live := Bool.eq_false_of_not_eq_true live
        have same : { t with stage := .waiting ticket } = t := by rw [← waits]
        exact ⟨_, _, _, _, parked, .waits ticket uncalled live, by rw [polled, same]⟩
  | @first carrier stage goes =>
    obtain ⟨v, goes', configured⟩ := serviceable carrier stage
    obtain rfl := Option.some.inj (goes.symm.trans goes')
    have first := Inquires.first (w := w) stage goes
    refine ⟨_, _, _, _, first, acquire_emerges (uncalled first), ?_⟩
    rw [pollDial_fresh stage goes, dialVia, beginTunnelDial_eq (configured rfl)]

theorem Emerges.canceled {r : World × Progress TunnelDial} (emerges : Emerges t u a r)
    (cancelled : u.isDialCancelled t) : r.2 = .failed .canceled := by
  cases emerges with
  | ready lease => exact (openStream_givesUp cancelled lease).result
  | create => exact (createSession_givesUp cancelled).result
  | givesUp => rfl
  | waits ticket uncalled live =>
    rw [cancelled] at live
    cases live

end Loop

-- A dial has failed as cancelled, and nothing is left of it or of its turns before. If it went
-- through the tunnel, its pool has got back what it had standing there, and its links are placed.
-- If it connected itself, no connection, counter or supervisor has ever known of it.
structure Retracts (id : String) (d : Dial) (turns : List (World × World)) (w next : World) : Prop
    extends CallsOff id d w next where
  refunds : w.Refunds next id
  apart : w.tunnel? d = none → ∀ x ∈ turns ++ [(w, next)], Unconnected x.1 x.2
  links : ∀ x ∈ turns ++ [(w, next)], ∀ link ∈ x.1.arrivals x.2, next.Placed link

-- What becomes of a dial that is cancelled. It need not wait any more, and is called off when it is
-- polled, or whenever else it ends. The poll asks the pool once at most, and comes to the same
-- however its loop goes.
structure Cancels (id : String) (d : Dial) (turns : List (World × World)) (w : World) : Prop where
  ready : w.canPoll (.call id)
  polled : Retracts id d turns w (w.move (.poll (.call id)))
  ends : ∀ m : Move, m.Driven → w.allows m → ∀ f, w.endOf? (w.move m) id = some f →
    Retracts id d turns w (w.move m)
  asks : ∀ t boxed n u a, w.Inquires d t boxed n u a →
    n ≤ 1 ∧ ∀ r, Emerges t u a r → r.2 = .failed .canceled
  loops : ∀ t boxed n u a, w.Inquires d t boxed n u a →
    ∃ n u a r, w.Inquires d t boxed n u a ∧ Emerges t u a r ∧
      w.move (.poll (.call id)) = r.1.tunnelProgress id d boxed r.2

section Retracts

variable {d : Dial} {scope : Scope} {turns : List (World × World)} (held : Held w id scope turns d)
  (sound : Sound (fun _ => 0) w) (proper : w.core.Proper) {m : Move} (driven : m.Driven)
  (allowed : w.allows m) (callsOff : CallsOff id d w (w.move m))

include held sound proper driven allowed callsOff

theorem CallsOff.links :
    ∀ x ∈ turns ++ [(w, w.move m)], ∀ link ∈ x.1.arrivals x.2, (w.move m).Placed link := by
  refine each_turn (fun x member link arrived => ?_) fun link arrived => ?_
  · rcases held.links_move sound proper driven allowed member arrived with shaking | placed
    · obtain ⟨c, rfl, -, closes⟩ := callsOff.undoes.closes link shaking
      exact closes.placed
    · exact placed
  · rw [w.arrivals_none callsOff.undoes.numbers] at arrived
    exact absurd arrived List.not_mem_nil

theorem CallsOff.retracts : Retracts id d turns w (w.move m) where
  toCallsOff := callsOff
  refunds :=
    (move_fails sound.regular driven allowed held.found callsOff.ended).refunds sound
      (move_sound sound driven allowed) held.found
  apart direct := by
    have apart : ∀ t boxed, d.stage ≠ .tunneling t boxed := by
      rintro t boxed stage
      simp [tunnel?, stage] at direct
    exact each_turn (held.apart apart) (callsOff.undoes.apart (Dial.shaking?_eq_none apart))
  links := callsOff.links held sound proper driven allowed

end Retracts

theorem Run.cancelled {s : Scenario.Setup} {v : World} (reached : s.Reaches Move.Driven v)
    (run : Run Move.Driven v w) {scope : Scope} (cancelled : v.isCancelled scope) :
    w.isCancelled scope := by
  induction run with
  | refl => exact cancelled
  | tail before goes ih =>
    have reached : s.Reaches Move.Driven _ := reached.trans before
    obtain ⟨m, -, allowed, rfl⟩ := goes
    exact move_cancelled reached.sound reached.loses.proper allowed ih

end World

namespace Scenario.Setup

variable {s : Setup} {id : String} {scope heeded : Scope} {turns : List (World × World)}
  {v w : World} {d : Dial}

-- A dial whose scope has been cancelled, or that of its generation, is called off at its next turn:
-- before it has begun, while it waits to be let in, while its link is connected, at the handshake
-- and while its stream is opened.
theorem Dialing.called_off (dialing : s.Dialing id scope turns w)
    (reached : s.Reaches Move.Driven v) (since : World.Run Move.Driven v w)
    (found : w.call? id = some (.dial d)) (serviceable : w.Serviceable d)
    (heeds : heeded ∈ w.heeds d) (cancelled : v.isCancelled heeded) : World.Cancels id d turns w := by
  have sound := dialing.reaches.sound
  have proper := dialing.reaches.loses.proper
  have cancelled := World.Run.cancelled reached since cancelled
  obtain ⟨d, held⟩ := dialing.held
  obtain rfl : d = _ := by simpa using held.found.symm.trans found
  have alive : w.allows (.poll (.call id)) := by
    change (w.call? id).isSome
    simp [found]
  have polled : World.CallsOff id d w (w.move (.poll (.call id))) := by
    rw [World.move_poll found]
    exact World.pollDial_callsOff held sound heeds cancelled proper serviceable
  refine
    { ready := World.canPoll_cancelled held heeds cancelled sound.regular proper
      polled := polled.retracts held sound proper rfl alive
      ends := fun m driven allowed f ended => ?_
      asks := fun t boxed n u a inquires => ?_
      loops := fun t boxed n u a inquires => ?_ }
  · exact (World.move_callsOff held sound heeds cancelled proper serviceable driven allowed
      ended).retracts held sound proper driven allowed
  · obtain ⟨-, frame, goes, often⟩ := inquires.once sound found
    have gone : u.isDialCancelled t := by
      rw [World.isDialCancelled_of_frame frame]
      exact World.tunnel_cancelled heeds cancelled goes (inquires.caller held)
    refine ⟨?_, fun r emerges => emerges.canceled gone⟩
    rcases often with ⟨rfl, -⟩ | ⟨rfl, -⟩
    · exact Nat.zero_le 1
    · exact Nat.le_refl 1
  · rw [World.move_poll found]
    exact inquires.polled sound found serviceable

-- The far side leaves a dial waiting at the handshake, and its scope is cancelled.
def greeting : World :=
  small.build.along
    [fun w => .childScope w.root,
      fun w => .script { w.script with handshakeMode := .stall },
      fun w => .dial "d" (.via .tunnel false) "tcp" "a.test:80" (youngest w),
      fun _ => .poll (.call "d"),
      fun w => .kernel (w.network.grant?.getD w.network),
      fun _ => .poll (.call "d"),
      fun w => .cancel (youngest w)]

def greeted : Dial where
  scope := youngest greeting
  network := "tcp"
  address := "a.test:80"
  stage := .tunneling
    { generation := 1, scope := youngest greeting, network := "tcp", address := "a.test:80",
      stage := .shaking 1 0 } false

theorem greeting_called_off : ∃ turns, World.Cancels "d" greeted turns greeting := by
  have reached : small.Reaches Move.Driven greeting := World.run_along (by decide +kernel)
  have found : greeting.call? "d" = some (.dial greeted) := by decide +kernel
  have cancelled : greeting.isCancelled greeted.scope := by decide +kernel
  have serviceable : greeting.Serviceable greeted := by
    rintro carrier ⟨⟩
  obtain ⟨turns, dialing⟩ := reached.dialing found
  exact ⟨turns, dialing.called_off reached .refl found serviceable List.mem_cons_self cancelled⟩

end Scenario.Setup

end Egress
