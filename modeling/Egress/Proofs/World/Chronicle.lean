import Egress.Proofs.World.Registering

set_option autoImplicit false

namespace Egress

open Simulation

namespace World

def listening (w : World) : World := { w with supervisor := { w.supervisor with running := true } }

def sends (w : World) (f : World → World) : List Command :=
  (f w.listening).supervisor.queue.drop w.supervisor.queue.length

def endSupervisor (w : World) : World :=
  { w with
    supervisor := { w.supervisor with running := false, queue := [], registry := {} }
    bus := w.bus.abandon w.supervisor.inbox }

theorem stopSupervisor_eq (w : World) : w.stopSupervisor =
    w.endSupervisor.tearDownAll (w.supervisor.registry.members.map (·.id)) none := rfl

end World

-- What is done to connections by those who dial them, hold them or have orders to close them. An
-- owner that closes a connection tears it down and loses the stream.
inductive Deed
  | begin (request : ConnectRequest)
  | poll (c : Connecting)
  | giveUp (c : Connecting)
  | tearDown (id : Nat) (reason : Option AbortReason)
  | lose (id : Nat)

namespace Deed

def run : Deed → World → World
  | begin request, w => (w.beginConnect request).1
  | poll c, w => (w.pollConnect c).1
  | giveUp c, w => w.dropConnect c
  | tearDown id reason, w => (w.tearDown id reason).1
  | lose id, w => w.loseStream id

def returns : Deed → World → List (Nat × Bool)
  | tearDown id reason, w => [(id, (w.tearDown id reason).2)]
  | _, _ => []

end Deed

structure Chronicle where
  world : World
  calls : List (Nat × Bool) := []
  sent : List Command := []
  -- What the supervisor had still to close when it ended, and what it had not taken up.
  sweep : List Nat := []
  unheard : List Command := []

namespace Chronicle

def after (x : Chronicle) (d : Deed) : Chronicle :=
  { x with
    world := d.run x.world
    calls := x.calls ++ d.returns x.world
    sent := x.sent ++ x.world.sends d.run }

def stop (x : Chronicle) : Chronicle :=
  { x with world := { x.world with supervisor := { x.world.supervisor with stopping := true } } }

def finish (x : Chronicle) : Chronicle :=
  { x with
    world := x.world.endSupervisor
    sweep := x.world.supervisor.registry.members.map (·.id)
    unheard := x.world.supervisor.queue }

-- One step of anybody. Whatever else happens leaves the connections and the supervisor alone, and
-- the counters of those who dial.
inductive Step (mine : Stats.Counter → Prop) (x : Chronicle) : Chronicle → Prop
  | deed (d : Deed) : Step mine x (x.after d)
  | supervise (next : World) (step : x.world.Supervises next) : Step mine x { x with world := next }
  | stop : Step mine x x.stop
  | finish (running : x.world.supervisor.running) (stopping : x.world.supervisor.stopping) :
    Step mine x x.finish
  | around (next : World) (connections : next.connections = x.world.connections)
    (supervisor : next.supervisor = x.world.supervisor)
    (counters : ∀ k, mine k → next.counters.get k = x.world.counters.get k) :
    Step mine x { x with world := next }

abbrev Run (mine : Stats.Counter → Prop) : Chronicle → Chronicle → Prop :=
  Relation.ReflTransGen (Step mine)

variable {mine : Stats.Counter → Prop}

theorem run_tearDownAll (x : Chronicle) (ids : List Nat) (reason : Option AbortReason) :
    ∃ y, Run mine x y ∧ y.world = x.world.tearDownAll ids reason := by
  induction ids generalizing x with
  | nil => exact ⟨x, .refl, rfl⟩
  | cons id rest ih =>
    obtain ⟨y, run, world⟩ := ih (x.after (.tearDown id reason))
    exact ⟨y, .head (.deed _) run, world⟩

theorem run_closeConnection (x : Chronicle) (id : Nat) (reason : Option AbortReason) :
    ∃ y, Run mine x y ∧ y.world = x.world.closeConnection id reason :=
  ⟨(x.after (.tearDown id reason)).after (.lose id), .head (.deed _) (.single (.deed _)), rfl⟩

theorem run_supervise (x : Chronicle) : ∃ y, Run mine x y ∧ y.world = x.world.supervise := by
  unfold World.supervise
  generalize 2 * x.world.supervisor.queue.length + x.world.supervisor.registry.watches.length + 3 =
    turns
  induction turns generalizing x with
  | zero => exact ⟨x, .refl, rfl⟩
  | succ turns ih =>
    unfold World.superviseFor
    split
    next next taken =>
      have running : x.world.supervisor.running := by
        by_contra ended
        simp [World.superviseStep?, ended] at taken
      obtain ⟨y, run, world⟩ : ∃ y, Run mine x y ∧ y.world = next := by
        rcases World.superviseStep?_cases taken with ⟨stopping, rfl⟩ | ⟨-, step⟩
        · obtain ⟨y, run, world⟩ := run_tearDownAll x.finish _ none
          exact ⟨y, .head (.finish running stopping) run,
            world.trans x.world.stopSupervisor_eq.symm⟩
        · exact ⟨_, .single (.supervise next step), rfl⟩
      obtain ⟨z, later, same⟩ := ih y
      exact ⟨z, run.trans later, world ▸ same⟩
    next => exact ⟨x, .refl, rfl⟩

end Chronicle

@[simp]
theorem Supervisor.send_nextId (s : Supervisor) (c : Command) : (s.send c).nextId = s.nextId := by
  unfold send
  split <;> rfl

inductive World.Deals (w next : World) : List Command → List (Nat × Bool) → Prop
  | nothing (calls : List (Nat × Bool)) (vain : ∀ id, (id, true) ∉ calls)
    (connections : next.connections = w.connections) (supervisor : next.supervisor = w.supervisor)
    (counters : next.counters = w.counters) : Deals w next [] calls
  | opens (c : Connection) (generation : Nat) (fresh : c.id = w.supervisor.nextId)
    (opened : c.closed = false) (connections : next.connections = w.connections ++ [c])
    (supervisor : next.supervisor =
      { w.supervisor with nextId := c.id + 1 }.send (.add c.member generation))
    (counters : next.counters = w.counters.add c.counter 1) :
    Deals w next [.add c.member generation] []
  | uses (c : Connection) (found : w.connection? c.id = some c)
    (connections : next.connections = w.traffic.replace c.dropStream)
    (supervisor : next.supervisor = w.supervisor) (counters : next.counters = w.counters) :
    Deals w next [] []
  | closes (c torn : Connection) (reason : Option AbortReason)
    (found : w.connection? c.id = some c) (torn? : c.tearDown? reason = some torn)
    (connections : next.connections = w.traffic.replace torn)
    (supervisor : next.supervisor = w.supervisor.send (.remove c.id))
    (counters : next.counters = w.counters.add c.counter (-1)) :
    Deals w next [.remove c.id] [(c.id, true)]

def Progress.isDone {suspended : Type} : Progress suspended → Bool
  | done _ => true
  | _ => false

namespace World

variable (w : World)

def Asks {suspended : Type} (w : World) (result : World × Progress suspended) : Prop :=
  (∃ network, result.1 = { w with network }) ∧ result.2.isDone = false

theorem attempt_asks (request : ConnectRequest) (generation : Nat) (targets : List Endpoint)
    (last : Option String) : w.Asks (attempt request generation targets last w) := by
  induction targets generalizing last with
  | nil => exact ⟨⟨w.network, rfl⟩, rfl⟩
  | cons target rest ih =>
    unfold attempt
    split
    · exact ⟨⟨_, rfl⟩, rfl⟩
    · exact ih _

theorem attemptAll_asks (request : ConnectRequest) (generation : Nat) (family : Option Bool)
    (found : List Endpoint) : w.Asks (w.attemptAll request generation family found) := by
  unfold attemptAll
  split
  · exact ⟨⟨w.network, rfl⟩, rfl⟩
  · exact w.attempt_asks request generation _ none

theorem beginConnect_asks (request : ConnectRequest) : w.Asks (w.beginConnect request) := by
  unfold beginConnect
  split
  · exact ⟨⟨w.network, rfl⟩, rfl⟩
  · split
    · exact ⟨⟨w.network, rfl⟩, rfl⟩
    · dsimp only
      split
      · exact w.attemptAll_asks request _ _ _
      · exact ⟨⟨_, rfl⟩, rfl⟩

theorem Asks.after {suspended : Type} {w : World} {network : Network}
    {result : World × Progress suspended} (asks : ({ w with network } : World).Asks result) :
    w.Asks result := by
  obtain ⟨⟨last, same⟩, undone⟩ := asks
  exact ⟨⟨last, same⟩, undone⟩

def connected? (c : Connecting) : Option (Network × Nat) :=
  if w.isCancelled c.request.scope || !w.network.isGranted (work c.stage) then none
  else
    match c.stage with
    | .resolving _ => none
    | .attempting _ target _ =>
      match (w.network.endWork (work c.stage)).connect target with
      | (network, .ok socket) => some (network, socket)
      | (_, .error _) => none

theorem pollConnect_cases (c : Connecting) :
    w.connected? c = none ∧ w.Asks (w.pollConnect c) ∨
      ∃ network socket, w.connected? c = some (network, socket) ∧
        w.pollConnect c = ({ w with network } : World).establish c socket := by
  obtain ⟨request, generation, stage⟩ := c
  unfold pollConnect connected?
  cases lapsed : w.isCancelled request.scope with
  | true => exact .inl ⟨rfl, ⟨_, rfl⟩, rfl⟩
  | false =>
    cases granted : w.network.isGranted (work stage) with
    | false => exact .inl ⟨rfl, ⟨w.network, rfl⟩, rfl⟩
    | true =>
      cases stage with
      | resolving job =>
        cases got : (w.network.endWork job).lookup request.address with
        | mk network found =>
          refine .inl ⟨rfl, ?_⟩
          simp only [dropConnect, work, got]
          cases found with
          | error source => exact ⟨⟨network, rfl⟩, rfl⟩
          | ok found => exact (attemptAll_asks { w with network } _ _ _ _).after
      | attempting job target rest =>
        cases got : (w.network.endWork job).connect target with
        | mk network outcome =>
          simp only [dropConnect, work, got]
          cases outcome with
          | error source => exact .inl ⟨rfl, (attempt_asks { w with network } _ _ _ _).after⟩
          | ok socket => exact .inr ⟨network, socket, rfl, rfl⟩

theorem establish_parts (c : Connecting) (socket : Nat) : ∃ k : Connection,
    (k.id = w.supervisor.nextId ∧ k.closed = false) ∧
      ((w.establish c socket).1.connections = w.connections ++ [k] ∧
        (w.establish c socket).1.supervisor =
          { w.supervisor with nextId := k.id + 1 }.send (.add k.member c.generation) ∧
        (w.establish c socket).1.counters = w.counters.add k.counter 1) ∧
      (w.listening.establish c socket).1.supervisor =
        { w.listening.supervisor with nextId := k.id + 1 }.send (.add k.member c.generation) :=
  ⟨{ id := w.supervisor.nextId, scope := c.request.scope, localAddr := _, peer := _,
     counter := c.request.counter, socket, hasCopy := _ }, ⟨rfl, rfl⟩, ⟨rfl, rfl, rfl⟩, rfl⟩

theorem tearDown_parts {c torn : Connection} {reason : Option AbortReason}
    (found : w.connection? c.id = some c) (torn? : c.tearDown? reason = some torn) :
    (w.tearDown c.id reason).2 = true ∧
      (w.tearDown c.id reason).1.connections = w.traffic.replace torn ∧
      (w.tearDown c.id reason).1.supervisor = w.supervisor.send (.remove c.id) ∧
      (w.tearDown c.id reason).1.counters = w.counters.add c.counter (-1) := by
  simp only [tearDown, found, torn?, Traffic.replace, Connection.tearDown?_id torn?]
  exact ⟨trivial, rfl, rfl, rfl⟩

theorem tearDown_vain {id : Nat} {reason : Option AbortReason}
    (vain : ∀ c, w.connection? id = some c → c.tearDown? reason = none) :
    w.tearDown id reason = (w, false) := by
  unfold tearDown
  split
  next => rfl
  next c found => simp [vain c found]

theorem sends_nothing {f : World → World}
    (silent : (f w.listening).supervisor = w.listening.supervisor) : w.sends f = [] := by
  rw [sends, silent]
  exact List.drop_length

theorem sends_one {f : World → World} {c : Command} (nextId : Nat)
    (sent : (f w.listening).supervisor = { w.listening.supervisor with nextId }.send c) :
    w.sends f = [c] := by
  have running : { w.listening.supervisor with nextId }.running := rfl
  rw [sends, sent, Supervisor.send_eq running]
  exact List.drop_left

theorem loseStream_parts {c : Connection} (found : w.connection? c.id = some c) :
    (w.loseStream c.id).connections = w.traffic.replace c.dropStream ∧
      (w.loseStream c.id).supervisor = w.supervisor ∧
      (w.loseStream c.id).counters = w.counters := by
  simp only [loseStream, found, putConnection]
  split <;> exact ⟨rfl, rfl, rfl⟩

section Deeds

variable {f : World → World} {w : World}

theorem deals_nothing {calls : List (Nat × Bool)} (vain : ∀ id, (id, true) ∉ calls)
    (still : ∀ u, u = w ∨ u = w.listening → (f u).connections = u.connections ∧
      (f u).supervisor = u.supervisor ∧ (f u).counters = u.counters) :
    w.Deals (f w) (w.sends f) calls := by
  obtain ⟨connections, supervisor, counters⟩ := still w (.inl rfl)
  rw [w.sends_nothing (still w.listening (.inr rfl)).2.1]
  exact .nothing calls vain connections supervisor counters

theorem pollConnect_asks {c : Connecting} (idle : w.connected? c = none) {u : World}
    (either : u = w ∨ u = w.listening) : u.Asks (u.pollConnect c) := by
  have idle : u.connected? c = none := by
    rcases either with rfl | rfl <;> exact idle
  rcases u.pollConnect_cases c with ⟨-, asks⟩ | ⟨_, _, got, -⟩
  · exact asks
  · rw [idle] at got
    cases got

theorem poll_deals (c : Connecting) :
    w.Deals (w.pollConnect c).1 (w.sends fun w => (w.pollConnect c).1) [] := by
  rcases w.pollConnect_cases c with ⟨idle, -⟩ | ⟨network, socket, got, made⟩
  · refine deals_nothing (f := fun w => (w.pollConnect c).1) (fun _ => List.not_mem_nil) ?_
    intro u either
    obtain ⟨⟨_, same⟩, -⟩ := pollConnect_asks idle either
    simp [same]
  · rcases w.listening.pollConnect_cases c with ⟨idle, -⟩ | ⟨_, _, got', made'⟩
    · rw [show w.listening.connected? c = w.connected? c from rfl, got] at idle
      cases idle
    · rw [show w.listening.connected? c = w.connected? c from rfl, got] at got'
      cases got'
      obtain ⟨k, ⟨fresh, opened⟩, ⟨connections, supervisor, counters⟩, sent⟩ :=
        ({ w with network } : World).establish_parts c socket
      rw [w.sends_one (k.id + 1) (c := .add k.member c.generation)
        ((congrArg (·.1.supervisor) made').trans sent), made]
      exact .opens k c.generation fresh opened connections supervisor counters

theorem tearDown_deals (id : Nat) (reason : Option AbortReason) :
    w.Deals (w.tearDown id reason).1 (w.sends fun w => (w.tearDown id reason).1)
      [(id, (w.tearDown id reason).2)] := by
  by_cases vain : ∀ c, w.connection? id = some c → c.tearDown? reason = none
  · have kept (u : World) (either : u = w ∨ u = w.listening) :
        u.tearDown id reason = (u, false) := by
      rcases either with rfl | rfl
      · exact tearDown_vain _ vain
      · exact tearDown_vain _ vain
    refine deals_nothing (f := fun w => (w.tearDown id reason).1) (fun _ => ?_) fun u either => ?_
    · simp [kept w (.inl rfl)]
    · simp [kept u either]
  · push Not at vain
    obtain ⟨c, found, some⟩ := vain
    obtain ⟨torn, torn?⟩ := Option.ne_none_iff_exists'.mp some
    obtain rfl := w.find_connection found
    obtain ⟨took, connections, supervisor, counters⟩ := w.tearDown_parts found torn?
    rw [w.sends_one w.supervisor.nextId (w.listening.tearDown_parts found torn?).2.2.1, took]
    exact .closes c torn reason found torn? connections supervisor counters

theorem lose_deals (id : Nat) :
    w.Deals (w.loseStream id) (w.sends fun w => w.loseStream id) [] := by
  cases found : w.connection? id with
  | none =>
    refine deals_nothing (f := fun w => w.loseStream id) (fun _ => List.not_mem_nil) ?_
    intro u either
    have absent : u.connection? id = none := by
      rcases either with rfl | rfl <;> exact found
    simp [loseStream, absent]
  | some c =>
    obtain rfl := w.find_connection found
    obtain ⟨connections, supervisor, counters⟩ := w.loseStream_parts found
    rw [w.sends_nothing (w.listening.loseStream_parts found).2.1]
    exact .uses c found connections supervisor counters

end Deeds

end World

namespace World

variable {w next : World}

theorem launch_counters (w : World) (orders : List FanOut) :
    (w.launch orders).counters = w.counters := by
  unfold launch
  induction orders generalizing w with
  | nil => rfl
  | cons o rest ih => exact ih _

theorem Supervises.leaves (step : w.Supervises next) : next.connections = w.connections ∧
    next.supervisor.nextId = w.supervisor.nextId ∧ next.counters = w.counters := by
  have counters : next.counters = w.counters := by
    cases step with
    | silence => rfl
    | _ => exact launch_counters _ _
  obtain ⟨supervises, -⟩ := step.traffic
  change next.traffic.connections = _ ∧ next.traffic.supervisor.nextId = _ ∧ _
  generalize next.traffic = t at supervises
  cases supervises with
  | command c rest => exact ⟨rfl, (Supervisor.handle_keeps _ _ c).nextId, counters⟩
  | watch x verdict => exact ⟨rfl, (w.supervisor.watchResolved_keeps x verdict).nextId, counters⟩
  | news => exact ⟨rfl, rfl, counters⟩
  | silence => exact ⟨rfl, rfl, counters⟩

end World

theorem Deed.deals (d : Deed) (w : World) : w.Deals (d.run w) (w.sends d.run) (d.returns w) := by
  cases d with
  | begin request =>
    refine World.deals_nothing (fun _ => List.not_mem_nil) fun u _ => ?_
    obtain ⟨⟨network, same⟩, -⟩ := u.beginConnect_asks request
    simp [run, same]
  | poll c => exact World.poll_deals c
  | giveUp c => exact World.deals_nothing (fun _ => List.not_mem_nil) fun _ _ => ⟨rfl, rfl, rfl⟩
  | tearDown id reason => exact World.tearDown_deals id reason
  | lose id => exact World.lose_deals id

end Egress
