import Egress.Proofs.World.Connecting
import Egress.Proofs.World.Severing
import Egress.Proofs.World.Tallying

set_option autoImplicit false

namespace Egress

open Simulation Tunnel

namespace Traffic

def Has (t : Traffic) (p : Connection → Prop) (id : Nat) : Prop :=
  ∃ c, t.connections.find? (·.id = id) = some c ∧ p c

def Numbered (t : Traffic) : Prop := ∀ c ∈ t.connections, c.id < t.supervisor.nextId

variable {aborts : AbortReason → Prop} {asked : Scope → Nat → Prop} {t next : Traffic}
  {p : Connection → Prop} {id : Nat}

theorem find_replace {c changed : Connection} (number : changed.id = c.id)
    (found : t.connections.find? (·.id = c.id) = some c) :
    (t.replace changed).find? (·.id = id) =
      if id = c.id then some changed else t.connections.find? (·.id = id) := by
  let put (o : Connection) : Connection := if o.id = c.id then changed else o
  have same (o : Connection) : (put o).id = o.id := by
    dsimp only [put]
    split
    next hit => rw [number, hit]
    next => rfl
  have mapped : (t.replace changed).find? (·.id = id) =
      (t.connections.find? (·.id = id)).map put := by
    simp only [replace, number, List.find?_map, Function.comp_def, same, put]
  rw [mapped]
  split
  next hit => simp [hit, found, put]
  next other =>
    cases there : t.connections.find? (·.id = id) with
    | none => rfl
    | some o =>
      have own : o.id = id := by simpa using List.find?_some there
      simp [put, own, other]

theorem Has.replace {c changed : Connection} (has : t.Has p id) (number : changed.id = c.id)
    (found : t.connections.find? (·.id = c.id) = some c) (keeps : p c → p changed)
    (connections : next.connections = t.replace changed) : next.Has p id := by
  obtain ⟨o, there, holds⟩ := has
  rw [Has, connections, find_replace number found]
  split
  next hit =>
    obtain rfl := Option.some.inj ((hit ▸ there).symm.trans found)
    exact ⟨changed, rfl, keeps holds⟩
  next => exact ⟨o, there, holds⟩

-- What the loss of a stream and a teardown leave, lasts.
theorem Step.has (dropStream : ∀ c, p c → p c.dropStream)
    (tearDown : ∀ c torn reason, c.tearDown? reason = some torn → p c → p torn)
    (step : t.Step aborts asked next) (has : t.Has p id) : next.Has p id := by
  cases step with
  | establish c generation =>
    obtain ⟨o, there, holds⟩ := has
    exact ⟨o, by rw [List.find?_append, there, Option.some_or], holds⟩
  | use c changed found same =>
    rcases same with rfl | rfl
    · exact has.replace rfl found (fun holds => holds) rfl
    · have number : c.dropStream.id = c.id := rfl
      exact has.replace number found (dropStream c) rfl
  | tearDown c torn reason found torn? =>
    exact has.replace (Connection.tearDown?_id torn?) found (tearDown c torn reason torn?) rfl
  | _ => exact has

theorem Numbered.replace {c changed : Connection} (numbered : t.Numbered)
    (number : changed.id = c.id) (member : c ∈ t.connections)
    (connections : next.connections = t.replace changed)
    (nextId : next.supervisor.nextId = t.supervisor.nextId) : next.Numbered := by
  intro o there
  rw [nextId]
  rcases replaced (connections ▸ there) with rfl | ⟨was, -⟩
  · exact number ▸ numbered c member
  · exact numbered o was

theorem Step.numbered (step : t.Step aborts asked next) (numbered : t.Numbered) :
    next.Numbered := by
  cases step with
  | establish c generation fresh =>
    intro o member
    rw [Supervisor.send_nextId]
    rcases List.mem_append.mp member with was | new
    · exact Nat.lt_succ_of_lt (fresh ▸ numbered o was)
    · rw [List.mem_singleton.mp new]
      exact Nat.lt_succ_self _
  | use c changed found same =>
    have number : changed.id = c.id := by
      rcases same with rfl | rfl <;> rfl
    exact numbered.replace number (List.mem_of_find?_eq_some found) rfl rfl
  | tearDown c torn reason found torn? =>
    exact numbered.replace (Connection.tearDown?_id torn?) (List.mem_of_find?_eq_some found) rfl
      (Supervisor.send_nextId _ _)
  | _ => exact numbered

end Traffic

namespace World

variable {w next : World} {lost : Nat → Multiset Stake}

theorem move_traffic {q : Traffic → Prop}
    (step : ∀ {aborts : AbortReason → Prop} {asked : Scope → Nat → Prop} {t next : Traffic},
      t.Step aborts asked next → q t → q next)
    (still : ∀ {t next : Traffic}, next.connections = t.connections →
      next.supervisor.nextId = t.supervisor.nextId → q t → q next)
    (sound : Sound lost w) (proper : w.core.Proper) {m : Move} (allowed : w.allows m)
    (holds : q w.traffic) : q (w.move m).traffic := by
  have effect {terms : Terms} {c next : Core} (effect : c.Effect terms next) (holds : q c.traffic) :
      q next.traffic := by
    cases effect with
    | traffic taken => exact step taken holds
    | _ => exact holds
  by_cases supervises : m = .poll .supervisor
  · subst supervises
    refine supervise_keeps (p := fun w => q w.traffic) (fun taken => ?_) (fun {u} _ holds => ?_)
      holds
    · exact still taken.leaves.1 taken.leaves.2.1
    · rw [u.stopSupervisor_eq]
      have ended : q u.endSupervisor.traffic := still (t := u.traffic) rfl rfl holds
      exact (u.endSupervisor.tearDownAll_effects (t := .any) _ none (by simp)).keeps effect ended
  · exact (move_effects sound proper allowed supervises).keeps effect holds

theorem move_has {p : Connection → Prop} {id : Nat} (dropStream : ∀ c, p c → p c.dropStream)
    (tearDown : ∀ c torn reason, Connection.tearDown? c reason = some torn → p c → p torn)
    (sound : Sound lost w) (proper : w.core.Proper) {m : Move} (allowed : w.allows m)
    (has : w.traffic.Has p id) : (w.move m).traffic.Has p id := by
  refine move_traffic (fun step => step.has dropStream tearDown) (fun connections _ has => ?_) sound
    proper allowed has
  rwa [Traffic.Has, connections]

theorem move_counter {id : Nat} (sound : Sound lost w) (proper : w.core.Proper) {m : Move}
    (allowed : w.allows m) (has : w.traffic.Has (·.counter = .tunnelSessions) id) :
    (w.move m).traffic.Has (·.counter = .tunnelSessions) id := by
  refine move_has (fun c holds => holds) (fun c torn reason torn? holds => ?_) sound proper allowed
    has
  obtain ⟨-, rfl⟩ := Connection.tearDown?_eq torn?
  exact holds

end World

theorem Scenario.Setup.Reaches.numbered {s : Scenario.Setup} {w : World}
    (reached : s.Reaches Move.Driven w) : w.traffic.Numbered := by
  have still {t next : Traffic} (connections : next.connections = t.connections)
      (nextId : next.supervisor.nextId = t.supervisor.nextId) (numbered : t.Numbered) :
      next.Numbered := by
    rwa [Traffic.Numbered, connections, nextId]
  induction reached with
  | refl =>
    refine s.build_induct (p := fun c => c.traffic.Numbered) (fun initial => ?_) (fun effect => ?_)
      fun _ numbered => still rfl rfl numbered
    · obtain ⟨bus, inbox, requests, traffic, -⟩ := initial.traffic
      rw [traffic]
      exact fun c member => (List.not_mem_nil member).elim
    · intro numbered
      cases effect with
      | traffic step => exact step.numbered numbered
      | _ => exact numbered
  | tail before goes ih =>
    have before : s.Reaches Move.Driven _ := before
    obtain ⟨m, -, allowed, rfl⟩ := goes
    exact World.move_traffic (fun step => step.numbered) still before.sound before.loses.proper
      allowed ih

namespace World

def Underlies (w : World) (link : Nat) : Prop :=
  ∃ x ∈ w.sessionWatches, (w.script.session? x.session).map (·.link) = some link

-- The link is closed, or a session goes by it.
def Placed (w : World) (link : Nat) : Prop :=
  w.traffic.Has (fun c => c.closed) link ∨ w.Underlies link

def arrivals (w next : World) : List Nat :=
  (next.connections.map (·.id)).drop w.connections.length

variable {w next : World} {lost : Nat → Multiset Stake} {link : Nat}

theorem Underlies.later (underlies : w.Underlies link) (script : w.script.Keeps next.script)
    (watches : ∀ x ∈ w.sessionWatches, ∃ y ∈ next.sessionWatches, y.session = x.session) :
    next.Underlies link := by
  obtain ⟨x, member, rides⟩ := underlies
  obtain ⟨y, there, same⟩ := watches x member
  obtain ⟨before, found, rfl⟩ := Option.map_eq_some_iff.mp rides
  obtain ⟨after, found', same', -⟩ := script x.session before found
  have found' : next.script.session? y.session = some after := same ▸ found'
  exact ⟨y, there, by rw [found', Option.map_some, same']⟩

theorem Grows.underlies {g : Nat} (grows : Grows g w next) (underlies : w.Underlies link) :
    next.Underlies link := by
  obtain ⟨new, watches, -⟩ := grows.sessionWatches
  refine underlies.later grows.script fun x member => ⟨x, ?_, rfl⟩
  rw [watches]
  exact List.mem_append_left _ member

theorem Placed.move (placed : w.Placed link) (sound : Sound lost w) (proper : w.core.Proper)
    {m : Move} (driven : m.Driven) (allowed : w.allows m) : (w.move m).Placed link := by
  rcases placed with closed | underlies
  · refine .inl (move_has (fun c holds => holds) (fun c torn reason torn? _ => ?_) sound proper
      allowed closed)
    obtain ⟨-, rfl⟩ := Connection.tearDown?_eq torn?
    rfl
  · have lasts := (move_passes sound.regular driven allowed).lasts
    refine .inr (underlies.later lasts.script fun x member => ?_)
    obtain ⟨y, there, -, lease⟩ := lasts.watches x member
    exact ⟨y, there, congrArg (·.session) lease⟩

theorem arrivals_append {new : List Nat}
    (numbers : next.connections.map (·.id) = w.connections.map (·.id) ++ new) :
    w.arrivals next = new := by
  rw [arrivals, numbers]
  exact List.drop_left' (List.length_map _)

theorem arrivals_none (numbers : next.connections.map (·.id) = w.connections.map (·.id)) :
    w.arrivals next = [] :=
  arrivals_append (by rw [numbers, List.append_nil])

theorem tearDown_numbers (w : World) (id : Nat) (reason : Option AbortReason) :
    (w.tearDown id reason).1.connections.map (·.id) = w.connections.map (·.id) := by
  by_cases vain : ∀ c, w.connection? id = some c → c.tearDown? reason = none
  · rw [w.tearDown_vain vain]
  · push Not at vain
    obtain ⟨c, found, took⟩ := vain
    obtain ⟨torn, torn?⟩ := Option.ne_none_iff_exists'.mp took
    obtain rfl := w.find_connection found
    rw [(w.tearDown_parts found torn?).2.1]
    exact Traffic.replace_numbers

theorem closeConnection_numbers (w : World) (id : Nat) (reason : Option AbortReason) :
    (w.closeConnection id reason).connections.map (·.id) = w.connections.map (·.id) := by
  rw [← w.tearDown_numbers id reason, closeConnection]
  generalize (w.tearDown id reason).1 = u
  cases found : u.connection? id with
  | none => simp [loseStream, found]
  | some c =>
    obtain rfl := u.find_connection found
    rw [(u.loseStream_parts found).1]
    exact Traffic.replace_numbers

structure Closes (c : Connection) (w next : World) : Prop where
  found : w.connection? c.id = some c
  closed : ∃ k, next.connection? c.id = some k ∧ k.closed ∧ k.hasStream = false
  others : ∀ id, id ≠ c.id → next.connection? id = w.connection? id
  numbers : next.connections.map (·.id) = w.connections.map (·.id)
  opened : c.closed = false → next.counters = w.counters.add c.counter (-1) ∧
    next.supervisor = w.supervisor.send (.remove c.id)
  before : c.closed → next.counters = w.counters ∧ next.supervisor = w.supervisor

theorem closeConnection_closes {c : Connection} (found : w.connection? c.id = some c) :
    Closes c w (w.closeConnection c.id none) := by
  have alters := w.close_alters c.id none
  have kept (u : World) : (u.loseStream c.id).counters = u.counters ∧
      (u.loseStream c.id).supervisor = u.supervisor := by
    cases there : u.connection? c.id with
    | none => simp [loseStream, there]
    | some o =>
      have number := u.find_connection there
      obtain ⟨-, supervisor, counters⟩ := u.loseStream_parts (number ▸ there)
      exact number ▸ ⟨counters, supervisor⟩
  refine ⟨found, ?closed, fun id other => ?others, w.closeConnection_numbers c.id none,
    fun opened => ?opened, fun closed => ?before⟩
  case closed =>
    refine ⟨((c.tearDown? none).getD c).dropStream, ?_, ?_, rfl⟩
    · rw [alters c.id, if_pos rfl, found]
      rfl
    · unfold Connection.tearDown? Connection.dropStream
      cases closed : c.closed <;> simp [closed]
  case others => rw [alters id, if_neg other]
  case opened =>
    obtain ⟨torn, torn?⟩ : ∃ torn, c.tearDown? none = some torn := by
      simp [Connection.tearDown?, opened]
    obtain ⟨-, -, supervisor, counters⟩ := w.tearDown_parts found torn?
    obtain ⟨counters', supervisor'⟩ := kept (w.tearDown c.id none).1
    exact ⟨counters'.trans counters, supervisor'.trans supervisor⟩
  case before =>
    have vain : w.tearDown c.id none = (w, false) := by
      refine w.tearDown_vain fun o there => ?_
      obtain rfl := Option.some.inj (found.symm.trans there)
      simp [Connection.tearDown?, closed]
    rw [closeConnection, vain]
    exact kept w

theorem Closes.placed {c : Connection} (closes : Closes c w next) : next.Placed c.id := by
  obtain ⟨k, found, closed, -⟩ := closes.closed
  exact .inl ⟨k, found, closed⟩

end World

def TunnelDial.shaking? (d : TunnelDial) : Option Nat :=
  match d.stage with
  | .shaking link _ => some link
  | _ => none

def Dial.shaking? (d : Dial) : Option Nat :=
  match d.stage with
  | .tunneling t _ => t.shaking?
  | _ => none

theorem Dial.shaking?_tunneling {d : Dial} {t : TunnelDial} {boxed : Bool}
    (stage : d.stage = .tunneling t boxed) : d.shaking? = t.shaking? := by
  rw [shaking?, stage]

theorem Dial.shaking?_eq_none {d : Dial} (apart : ∀ t boxed, d.stage ≠ .tunneling t boxed) :
    d.shaking? = none := by
  unfold shaking?
  split
  next t boxed stage => exact absurd stage (apart t boxed)
  next => rfl

def Progress.shaking? : Progress TunnelDial → Option Nat
  | .waiting d => d.shaking?
  | .failed _ | .done _ => none

namespace World

structure Unlinked (w : World) (r : World × Progress TunnelDial) : Prop where
  connections : r.1.connections = w.connections
  linkless : r.2.shaking? = none

structure Handles (link : Nat) (w : World) (r : World × Progress TunnelDial) : Prop where
  numbers : r.1.connections.map (·.id) = w.connections.map (·.id)
  fate : r.2.shaking? = some link ∧ r.1.connections = w.connections ∨
    r.2.shaking? = none ∧ r.1.Placed link

-- A step of a dial with what it has in hand. It is at the handshake on every link that has been in
-- its hand, or the link is placed.
structure Tends (hand : Option Nat) (w : World) (r : World × Progress TunnelDial) : Prop where
  each : ∀ link, hand = some link ∨ link ∈ w.arrivals r.1 →
    r.2.shaking? = some link ∨ r.1.Placed link
  held : ∀ link, r.2.shaking? = some link → r.1.traffic.Has (·.counter = .tunnelSessions) link

variable {w : World} {r : World × Progress TunnelDial} {link : Nat}

theorem Unlinked.after {u : World} (unlinked : Unlinked u r)
    (same : u.connections = w.connections) : Unlinked w r :=
  ⟨unlinked.connections.trans same, unlinked.linkless⟩

theorem Handles.after {u : World} (handles : Handles link u r)
    (same : u.connections = w.connections) : Handles link w r where
  numbers := handles.numbers.trans (congrArg (List.map _) same)
  fate := handles.fate.imp_left fun ⟨hand, kept⟩ => ⟨hand, kept.trans same⟩

theorem Unlinked.tends (unlinked : Unlinked w r) : Tends none w r where
  each link either := by
    rw [w.arrivals_none (by rw [unlinked.connections])] at either
    simp at either
  held link shaking := by
    rw [unlinked.linkless] at shaking
    cases shaking

theorem Handles.held (handles : Handles link w r)
    (has : w.traffic.Has (·.counter = .tunnelSessions) link) (other : Nat)
    (shaking : r.2.shaking? = some other) :
    r.1.traffic.Has (·.counter = .tunnelSessions) other := by
  rcases handles.fate with ⟨same, connections⟩ | ⟨none, -⟩
  · obtain rfl := Option.some.inj (same.symm.trans shaking)
    obtain ⟨c, found, counter⟩ := has
    exact ⟨c, (congrArg (List.find? _) connections).trans found, counter⟩
  · rw [none] at shaking
    cases shaking

theorem Handles.tends (handles : Handles link w r)
    (has : w.traffic.Has (·.counter = .tunnelSessions) link) : Tends (some link) w r where
  each other either := by
    rw [w.arrivals_none handles.numbers] at either
    obtain rfl : link = other := by simpa using either
    exact handles.fate.imp And.left And.right
  held := handles.held has

variable (w) (d : TunnelDial)

theorem tends_still
    (held : ∀ link, d.shaking? = some link → w.traffic.Has (·.counter = .tunnelSessions) link) :
    Tends d.shaking? w (w, .waiting d) where
  each link either := by
    rw [w.arrivals_none rfl] at either
    exact .inl (by simpa [Progress.shaking?] using either)
  held := held

theorem answerOpen_unlinked (lease : Lease) (mode : Mode) : Unlinked w (w.answerOpen d lease mode) := by
  cases mode <;> exact ⟨rfl, rfl⟩

theorem openStream_unlinked (lease : Lease) : Unlinked w (w.openStream d lease) := by
  unfold openStream
  split_ifs
  · exact ⟨rfl, rfl⟩
  · exact ⟨rfl, rfl⟩
  · exact (answerOpen_unlinked _ d lease _).after rfl

theorem pollOpening_unlinked (lease : Lease) (ticket : Nat) (stage : d.stage = .opening lease ticket) :
    Unlinked w (w.pollOpening d lease ticket) := by
  unfold pollOpening
  dsimp only
  split_ifs
  · exact ⟨rfl, rfl⟩
  · exact ⟨rfl, rfl⟩
  · split
    next mode _ => exact (answerOpen_unlinked _ d lease mode).after rfl
    next => exact ⟨rfl, by simp [Progress.shaking?, TunnelDial.shaking?, stage]⟩

theorem linked_unlinked {progress : Progress Connecting} (undone : progress.isDone = false) :
    Unlinked w (w.linked d progress) := by
  cases progress with
  | waiting | failed => exact ⟨rfl, rfl⟩
  | done => cases undone

theorem createSession_unlinked : Unlinked w (w.createSession d) := by
  unfold createSession
  split_ifs
  · exact ⟨rfl, rfl⟩
  · split
    · exact ⟨rfl, rfl⟩
    next gen _ =>
      let request : ConnectRequest :=
        { scope := gen.scope, network := "tcp", address := gen.serverAddr,
          counter := .tunnelSessions }
      obtain ⟨⟨network, same⟩, undone⟩ := w.beginConnect_asks request
      exact (linked_unlinked (w.beginConnect request).1 d undone).after
        (congrArg (·.connections) same)

theorem acquire_unlinked (first : Bool) : Unlinked w (w.acquire d first) := by
  unfold acquire
  dsimp only
  split
  · exact (openStream_unlinked _ d _).after rfl
  · exact (createSession_unlinked _ d).after rfl
  · split_ifs <;> exact ⟨rfl, rfl⟩

theorem pollAdmission_unlinked (ticket : Nat) (stage : d.stage = .waiting ticket) :
    Unlinked w (w.pollAdmission d ticket) := by
  unfold pollAdmission
  split_ifs
  · exact w.acquire_unlinked d false
  · exact ⟨rfl, rfl⟩
  · exact ⟨rfl, by simp [Progress.shaking?, TunnelDial.shaking?, stage]⟩

theorem beginTunnelDial_unlinked (scope : Scope) (network address : String) :
    Unlinked w (w.beginTunnelDial scope network address) := by
  unfold beginTunnelDial
  dsimp only
  split_ifs
  · exact ⟨rfl, rfl⟩
  · exact w.acquire_unlinked _ true

theorem publish_connections (g : Nat) (state : Stats.TunnelState) (info : String) :
    (w.publish g state info).connections = w.connections := by
  unfold publish setConnectivity
  split
  · split <;> rfl
  · rfl

variable {w d}

theorem dropLink_handles {p : Connection → Prop} (has : w.traffic.Has p link)
    (failure : DialFailure) : Handles link w (w.dropLink d link failure) := by
  obtain ⟨c, found, -⟩ := has
  obtain rfl := w.find_connection found
  have placed := (closeConnection_closes found).placed
  exact ⟨w.closeConnection_numbers c.id none, .inr ⟨rfl, placed⟩⟩

theorem sessionArrived_handles (fits : d.Fits w.frame) (link : Nat) :
    Handles link w (w.sessionArrived d link) := by
  let session := w.script.sessions.length
  let scripted : World := { w with script := (w.script.addSession link).1 }
  let inserted := (w.pool d.generation).insert session
  let filled := scripted.updatePool d.generation fun _ => inserted.1
  let watch : SessionWatch := { generation := d.generation, slot := inserted.2.slot, session }
  let spawned := filled.spawn (.sessionWatch filled.sessionWatches.length)
  let ready : World := { spawned with sessionWatches := spawned.sessionWatches ++ [watch] }
  have frame : ready.frame = w.frame := scripted.updatePool_frame d.generation fun _ => inserted.1
  have published := ready.publish_level d.generation .established ""
  have serves := openStream_serves (ready.publish d.generation .established "") d
    (published.frame.trans frame ▸ fits) inserted.2
  have underlies : ready.Underlies link := by
    refine ⟨watch, List.mem_append_right _ (List.mem_singleton_self _), ?_⟩
    change ((w.script.sessions ++ [{ link := link }])[session]?).map (·.link) = some link
    simp [session]
  have underlies := underlies.later published.script fun x member =>
    ⟨x, published.sessionWatches ▸ member, rfl⟩
  have unlinked := openStream_unlinked (ready.publish d.generation .established "") d inserted.2
  have connections : (w.sessionArrived d link).1.connections = w.connections :=
    unlinked.connections.trans (ready.publish_connections d.generation .established "")
  exact ⟨congrArg (List.map _) connections,
    .inr ⟨unlinked.linkless, .inr (serves.turn.grows.underlies underlies)⟩⟩

theorem answerHandshake_handles {p : Connection → Prop} (fits : d.Fits w.frame)
    (has : w.traffic.Has p link) (mode : Mode) : Handles link w (w.answerHandshake d link mode) := by
  cases mode with
  | ok => exact sessionArrived_handles fits link
  | fail failure => exact dropLink_handles has _
  | stall => exact ⟨rfl, .inl ⟨rfl, rfl⟩⟩

theorem shake_handles {p : Connection → Prop} (fits : d.Fits w.frame) (has : w.traffic.Has p link) :
    Handles link w (w.shake d link) := by
  unfold shake
  split
  · exact dropLink_handles has _
  next gen _ =>
    split
    · exact dropLink_handles has _
    next credentials _ =>
      split_ifs
      · exact dropLink_handles has _
      · let noted : World :=
          { w with script := w.script.note (.handshake gen.serverAddr gen.params.login credentials) }
        have fits : d.Fits noted.frame := fits
        have has : noted.traffic.Has p link := has
        exact (answerHandshake_handles fits has noted.script.handshakeMode).after rfl
      · exact answerHandshake_handles fits has _

theorem pollShaking_handles {p : Connection → Prop} (fits : d.Fits w.frame)
    (has : w.traffic.Has p link) {ticket : Nat} (stage : d.stage = .shaking link ticket) :
    Handles link w (w.pollShaking d link ticket) := by
  let left : World := { w with script := w.script.leaveShaking ticket }
  have has : left.traffic.Has p link := has
  have fits : d.Fits left.frame := fits
  unfold pollShaking
  dsimp only
  split_ifs
  · exact (dropLink_handles has .canceled).after rfl
  · split
    next mode _ => exact (answerHandshake_handles fits has mode).after rfl
    next => exact ⟨rfl, .inl ⟨by simp [Progress.shaking?, TunnelDial.shaking?, stage], rfl⟩⟩

theorem has_arrived (numbered : w.traffic.Numbered) {k : Connection} {next : World}
    (number : k.id = w.supervisor.nextId) (connections : next.connections = w.connections ++ [k])
    {p : Connection → Prop} (holds : p k) : next.traffic.Has p k.id := by
  refine ⟨k, ?_, holds⟩
  have absent : w.connections.find? (·.id = k.id) = none := by
    rw [List.find?_eq_none]
    intro c member
    have older : c.id < w.supervisor.nextId := numbered c member
    simpa [number] using Nat.ne_of_lt older
  change next.connections.find? (·.id = k.id) = some k
  rw [connections, List.find?_append, absent]
  simp

theorem pollLinking_tends (numbered : w.traffic.Numbered) (fits : d.Fits w.frame)
    {link : Connecting} (stage : d.stage = .linking link) : Tends none w (w.pollLinking d link) := by
  obtain ⟨gen, -, -, linking⟩ := id fits
  obtain ⟨counter, -⟩ := linking link stage
  unfold pollLinking
  split_ifs
  · exact Unlinked.tends ⟨rfl, rfl⟩
  · rcases w.pollConnect_cases link with ⟨-, ⟨network, same⟩, undone⟩ | ⟨network, socket, -, made⟩
    · have unlinked := linked_unlinked (w.pollConnect link).1 d undone
      exact (unlinked.after (congrArg (·.connections) same)).tends
    · let asked : World := { w with network }
      let made' := (asked.establish link socket).1
      obtain ⟨-, k, _, number, -, -, own, -, connections, -⟩ := asked.establish_connects link socket
      have has : made'.traffic.Has (·.counter = .tunnelSessions) k.id :=
        has_arrived (w := w) numbered number connections (own.trans counter)
      have frame : made'.frame = w.frame := by
        have beside := w.pollConnect_beside link (by simp [counter])
        rw [made] at beside
        exact beside.level.frame
      have handles : Handles k.id made' (made'.shake d k.id) := shake_handles (frame ▸ fits) has
      have shaken : (asked.establish link socket).1.linked d (asked.establish link socket).2 =
          made'.shake d k.id := by
        rw [number]
        rfl
      change Tends none w ((w.pollConnect link).1.linked d (w.pollConnect link).2)
      rw [made, shaken]
      have arrived : w.arrivals (made'.shake d k.id).1 = [k.id] := by
        refine w.arrivals_append (handles.numbers.trans ?_)
        rw [connections, List.map_append, List.map_singleton]
      refine ⟨fun other either => ?_, handles.held has⟩
      rw [arrived] at either
      obtain rfl : other = k.id := by simpa using either
      exact handles.fate.imp And.left And.right

variable (held : ∀ link, d.shaking? = some link → w.traffic.Has (·.counter = .tunnelSessions) link)

include held

theorem pollTunnelDial_tends (numbered : w.traffic.Numbered) (fits : d.Fits w.frame) :
    Tends d.shaking? w (w.pollTunnelDial d) := by
  unfold pollTunnelDial TunnelDial.shaking?
  cases stage : d.stage with
  | waiting ticket => exact (w.pollAdmission_unlinked d ticket stage).tends
  | linking link => exact pollLinking_tends numbered fits stage
  | shaking link ticket =>
    have has := held link (by simp [TunnelDial.shaking?, stage])
    exact (pollShaking_handles fits has stage).tends has
  | opening lease ticket => exact (w.pollOpening_unlinked d lease ticket stage).tends

theorem withdraw_tends : Tends d.shaking? w (w.withdraw d) := by
  unfold withdraw
  split
  next ticket stage =>
    split_ifs
    · have none : d.shaking? = none := by simp [TunnelDial.shaking?, stage]
      rw [none]
      exact Unlinked.tends ⟨rfl, rfl⟩
    · exact w.tends_still d held
  next => exact w.tends_still d held

theorem answer_tends (mode : Mode) : Tends d.shaking? w (w.answer mode d) := by
  unfold answer
  split
  next lease ticket stage =>
    split_ifs
    · exact w.tends_still d held
    · have none : d.shaking? = none := by simp [TunnelDial.shaking?, stage]
      rw [none]
      exact Unlinked.tends ((answerOpen_unlinked _ d lease mode).after rfl)
  next => exact w.tends_still d held

end World

end Egress
