import Egress.Proofs.World.Dating
import Egress.Proofs.World.Tallying

set_option autoImplicit false

namespace Egress

namespace Supervisor

variable (s : Supervisor) (c : Command)

@[simp]
theorem send_running : (s.send c).running = s.running := by
  unfold send
  split <;> rfl

@[simp]
theorem send_stopping : (s.send c).stopping = s.stopping := by
  unfold send
  split <;> rfl

end Supervisor

theorem Traffic.Kept.same {t next : Traffic} (kept : t.Kept)
    (connections : next.connections = t.connections) (supervisor : next.supervisor = t.supervisor) :
    next.Kept := by
  refine kept.worked connections ?_ ?_ ?_ ?_ ?_ ?_ ?_ <;> rw [supervisor]
  · exact kept.running
  · exact fun _ => id
  · exact kept.sound
  · exact kept.members
  · exact kept.awaited
  · exact kept.dismissed

namespace World

variable {w next : World} {sent : List Command} {calls : List (Nat × Bool)}

theorem Deals.kept (deals : w.Deals next sent calls) (kept : w.traffic.Kept) :
    next.traffic.Kept := by
  cases deals with
  | nothing _ _ connections supervisor => exact kept.same connections supervisor
  | opens c generation fresh opened connections supervisor =>
    let numbered : Supervisor := { w.supervisor with nextId := c.id + 1 }
    have running : numbered.running := kept.running
    exact kept.establish generation fresh opened connections
      (supervisor.trans (Supervisor.send_eq running _))
  | uses c found connections supervisor =>
    have queue : next.supervisor =
        { w.supervisor with queue := w.supervisor.queue ++ [] } := by
      rw [supervisor, List.append_nil]
    have same : c.dropStream.member = c.member := rfl
    exact kept.replace [] found same id connections queue .inl (by simp)
  | closes c torn reason found torn? connections supervisor =>
    obtain ⟨-, rfl⟩ := Connection.tearDown?_eq torn?
    let torn : Connection := { c with closed := true, reason, hasCopy := false }
    have same : torn.member = c.member := rfl
    exact kept.replace [.remove c.id] found same (fun _ => rfl) connections
      (supervisor.trans (Supervisor.send_eq kept.running _))
      (fun _ => .inr (List.mem_singleton_self _)) fun m new => ⟨List.mem_singleton.mp new, rfl⟩

theorem Deals.supervisor (deals : w.Deals next sent calls) :
    next.supervisor.running = w.supervisor.running ∧
      next.supervisor.stopping = w.supervisor.stopping ∧
      w.supervisor.nextId ≤ next.supervisor.nextId := by
  cases deals with
  | nothing _ _ _ supervisor => simp [supervisor]
  | opens c _ fresh _ _ supervisor => simp [supervisor, fresh]
  | uses _ _ _ supervisor => simp [supervisor]
  | closes _ _ _ _ _ _ supervisor => simp [supervisor]

theorem Deals.origin (deals : w.Deals next sent calls) {d : Connection}
    (there : d ∈ next.connections) :
    w.supervisor.nextId ≤ d.id ∨ ∃ c ∈ w.connections, c.member = d.member ∧
      (c.closed → d.closed) := by
  have replaced {c changed : Connection} (found : w.connection? c.id = some c)
      (connections : next.connections = w.traffic.replace changed)
      (same : changed.member = c.member) (closed : c.closed → changed.closed) :
      ∃ c ∈ w.connections, c.member = d.member ∧ (c.closed → d.closed) := by
    rcases Traffic.replaced (connections ▸ there) with rfl | ⟨was, -⟩
    · exact ⟨c, List.mem_of_find?_eq_some found, same.symm, closed⟩
    · exact ⟨d, was, rfl, id⟩
  cases deals with
  | nothing _ _ connections => exact .inr ⟨d, connections ▸ there, rfl, id⟩
  | opens c _ fresh _ connections =>
    rcases List.mem_append.mp (connections ▸ there) with was | new
    · exact .inr ⟨d, was, rfl, id⟩
    · exact .inl (by rw [List.mem_singleton.mp new, fresh])
  | uses c found connections => exact .inr (replaced found connections rfl id)
  | closes c torn reason found torn? connections =>
    obtain ⟨-, rfl⟩ := Connection.tearDown?_eq torn?
    exact .inr (replaced found connections rfl fun _ => rfl)

theorem Supervises.works (step : w.Supervises next) :
    w.supervisor.running ∧ w.supervisor.stopping = false := by
  cases step <;> exact ⟨‹_›, ‹_›⟩

end World

namespace Chronicle

-- While the supervisor runs, it has what is open registered or in its queue. Once it has ended,
-- what is open of the connections with a number below `n` is still to be closed, or was in the
-- queue when it ended.
structure Closing (n : Nat) (x : Chronicle) : Prop where
  kept : x.world.supervisor.running → x.world.traffic.Kept
  ended : x.world.supervisor.running = false → x.world.supervisor.stopping
  later : n ≤ x.world.supervisor.nextId
  left : x.world.supervisor.running = false →
    ∀ c ∈ x.world.connections, c.closed = false → c.id < n →
      c.id ∈ x.sweep ∨ ∃ generation, .add c.member generation ∈ x.unheard

variable {mine : Stats.Counter → Prop} {x y u : Chronicle} {n : Nat}

theorem Step.closing (step : Step mine x y) (closing : x.Closing n) : y.Closing n := by
  obtain ⟨kept, ended, later, left⟩ := closing
  cases step with
  | deed d =>
    have deals := d.deals x.world
    obtain ⟨running, stopping, numbers⟩ := deals.supervisor
    refine ⟨fun runs => deals.kept (kept (running ▸ runs)),
      fun gone => stopping ▸ ended (running ▸ gone), Nat.le_trans later numbers,
      fun gone c member opened older => ?_⟩
    rcases deals.origin member with new | ⟨o, was, same, closed⟩
    · omega
    · have before : o.closed = false := by
        by_contra shut
        rw [closed (by simpa using shut)] at opened
        cases opened
      have number : o.id = c.id := congrArg Member.id same
      have waits := left (running ▸ gone) o was before (number ▸ older)
      rwa [number, same] at waits
  | supervise next step =>
    have kept : next.traffic.Kept := step.traffic.1.kept rfl (kept step.works.1)
    have ended {p : Prop} (gone : next.supervisor.running = false) : p := by
      have running : next.supervisor.running := kept.running
      rw [gone] at running
      cases running
    exact ⟨fun _ => kept, ended, step.leaves.2.1 ▸ later, ended⟩
  | stop => exact ⟨fun runs => { kept runs with }, fun _ => rfl, later, left⟩
  | finish running stopping =>
    refine ⟨fun runs => Bool.noConfusion runs, fun _ => stopping, later,
      fun _ c member opened _ => ?_⟩
    -- What is open is registered, and so to be closed, or in the queue.
    exact ((kept running).awaited c member opened).imp (List.mem_map.mpr ⟨c.member, ·, rfl⟩) id
  | around next connections supervisor =>
    refine ⟨fun runs => (kept (supervisor ▸ runs)).same connections supervisor, ?_, ?_, ?_⟩ <;>
      simp only [supervisor, connections] <;> assumption

theorem Run.closing (run : Run mine x y) (closing : x.Closing n) : y.Closing n := by
  induction run with
  | refl => exact closing
  | tail _ step ih => exact step.closing ih

theorem Run.stopping (run : Run mine x y) (stopping : x.world.supervisor.stopping) :
    y.world.supervisor.stopping := by
  induction run with
  | refl => exact stopping
  | tail _ step ih =>
    cases step with
    | deed d => exact (d.deals _).supervisor.2.1.trans ih
    | supervise next step => exact absurd (step.works.2.symm.trans ih) (by decide)
    | stop => rfl
    | finish => exact ih
    | around next _ supervisor => exact supervisor ▸ ih

theorem closing_start (s : Scenario.Setup) : ({ world := s.build } : Chronicle).Closing 0 := by
  obtain ⟨⟨inbox, supervisor⟩, -⟩ := s.build_rest
  refine ⟨fun _ => s.scene_minds.kept, fun gone => ?_, Nat.zero_le _, fun _ _ _ _ => by simp⟩
  rw [supervisor] at gone
  cases gone

structure Settles (x : Chronicle) : Prop where
  idle : x.world.canSupervise = false
  swept : ∀ id ∈ x.sweep, x.world.isConnectionClosed id

-- What can be relied on when the supervisor has been told to stop after `u`. Whatever had been
-- dialed by then is closed, unless the supervisor had not heard of it when it ended; nothing else
-- is left open but what has been dialed since; and the counters show what is open.
structure Closes (start : World) (mine : Stats.Counter → Prop) (u x : Chronicle) : Prop where
  closed : ∀ c ∈ u.world.connections, (∀ generation, .add c.member generation ∉ x.unheard) →
    ∃ d ∈ x.world.connections, d.member = c.member ∧ d.counter = c.counter ∧ d.closed
  left : ∀ d ∈ x.world.connections, d.closed = false →
    u.world.supervisor.nextId ≤ d.id ∨ ∃ generation, .add d.member generation ∈ x.unheard
  counted : ∀ k, mine k →
    x.world.counters.get k = start.counters.get k + .ofNat (x.world.openOn k)

theorem Run.closing_stop {s : Scenario.Setup} (before : Run mine { world := s.build } u)
    (goesOn : u.world.supervisor.stopping = false) :
    u.stop.Closing u.world.supervisor.nextId := by
  have closing := Run.closing before (closing_start s)
  have running : u.world.supervisor.running := by
    by_contra gone
    have stopping := closing.ended (by simpa using gone)
    rw [goesOn] at stopping
    cases stopping
  have told : Step mine u u.stop := .stop
  exact ⟨(told.closing closing).kept, fun _ => rfl, Nat.le_refl _,
    fun gone => absurd running (Bool.not_eq_true _ ▸ gone)⟩

theorem Run.ends (after : Run mine u.stop x) (settled : x.Settles) :
    x.world.supervisor.running = false := by
  have idle := settled.idle
  rw [World.canSupervise, Run.stopping after rfl] at idle
  simpa using idle

theorem Closing.left_open (closing : x.Closing n) (gone : x.world.supervisor.running = false)
    (settled : x.Settles) (numbers : (x.world.connections.map (·.id)).Nodup) {d : Connection}
    (there : d ∈ x.world.connections) (opened : d.closed = false) :
    n ≤ d.id ∨ ∃ generation, .add d.member generation ∈ x.unheard := by
  by_cases older : d.id < n
  · refine .inr ((closing.left gone d there opened older).resolve_left fun swept => ?_)
    have shut : x.world.traffic.isClosed d.id := settled.swept d.id swept
    rw [x.world.traffic.isClosed_own numbers there, opened] at shut
    cases shut
  · exact .inl (Nat.le_of_not_lt older)

theorem Run.shuts_down {s : Scenario.Setup} (before : Run mine { world := s.build } u)
    (goesOn : u.world.supervisor.stopping = false) (after : Run mine u.stop x)
    (settled : x.Settles) : u.Closes s.build mine x := by
  have tallied : Tallied s.build mine u := Run.tallied before (tallied_start s.build_rest.2)
  have told : Step mine u u.stop := .stop
  have later : Tallied s.build mine x := Run.tallied after (told.tallied tallied)
  have closing := Run.closing after (Run.closing_stop before goesOn)
  have left (d : Connection) (there : d ∈ x.world.connections) (opened : d.closed = false) :
      u.world.supervisor.nextId ≤ d.id ∨ ∃ generation, .add d.member generation ∈ x.unheard :=
    closing.left_open (Run.ends after settled) settled later.numbers there opened
  refine ⟨fun c member heard => ?_, left, later.counted⟩
  obtain ⟨d, there, same, counter, -⟩ := Run.endures after (told.tallied tallied) (c := c) member
  refine ⟨d, there, same, counter, ?_⟩
  by_contra opened
  rcases left d there (by simpa using opened) with new | ⟨g, waits⟩
  · have number : d.id = c.id := congrArg Member.id same
    have := tallied.fresh c member
    omega
  · exact heard g (same ▸ waits)

def hearing (x : Chronicle) : Chronicle :=
  match x.world.supervisor.queue with
  | c :: rest =>
    let (supervisor, orders) := { x.world.supervisor with queue := rest }.handle x.world.view c
    { x with world := ({ x.world with supervisor }.launch orders) }
  | [] => x

theorem run_hearing (run : Run mine x y) (running : y.world.supervisor.running)
    (goesOn : y.world.supervisor.stopping = false) : Run mine x y.hearing := by
  unfold hearing
  split
  next c rest queued => exact run.tail (.supervise _ (.command c rest queued running goesOn))
  next => exact run

-- Three connections are dialed, and the supervisor has heard of two of them.
def informed : Chronicle := paired.hearing.hearing.dialing (connecting .httpPending 2)

def dismissed : Chronicle :=
  ((informed.stop.finish).after (.tearDown 1 none)).after (.tearDown 2 none)

theorem closes_informed :
    dismissed.unheard.length = 1 ∧
      informed.Closes Scenario.Setup.small.build (fun _ => True) dismissed := by
  have two : Run (fun _ => True) { world := Scenario.Setup.small.build } paired :=
    run_dialing (run_dialing .refl _) _
  have one := run_hearing two (by decide +kernel) (by decide +kernel)
  have before : Run (fun _ => True) { world := Scenario.Setup.small.build } informed :=
    run_dialing (run_hearing one (by decide +kernel) (by decide +kernel)) _
  have ended : Run (fun _ => True) informed.stop informed.stop.finish :=
    .single (.finish (by decide +kernel) rfl)
  have after : Run (fun _ => True) informed.stop dismissed :=
    (ended.tail (.deed (.tearDown 1 none))).tail (.deed (.tearDown 2 none))
  exact ⟨by decide +kernel,
    Run.shuts_down before (by decide +kernel) after ⟨by decide +kernel, by decide +kernel⟩⟩

end Chronicle

namespace Scenario.Setup

def arrived : World :=
  small.build.along
    [fun w => .dial "d" (.via .manager false) "tcp" "127.0.0.1:22" w.root,
      fun _ => .poll (.call "d"),
      fun w => .kernel (w.network.grant?.getD w.network),
      fun _ => .poll (.call "d")]

-- The dial has come back with a connection, and then the supervisor is told to stop. Nothing is
-- left to do in the end, and still the connection is open and counts.
theorem stop_leaves_connection_open :
    ∃ w, small.Reaches Move.Driven arrived ∧
      World.Run Move.Driven (arrived.move .stopSupervisor) w ∧
      (arrived.calls = [] ∧ arrived.dialed.lookup "d" = some 1 ∧ arrived.supervisor.running ∧
        arrived.supervisor.stopping = false) ∧
      w.Settled ∧ w.supervisor.running = false ∧ w.isConnectionClosed 1 = false ∧
      w.counters.get .tcpConnections = 1 := by
  let rest : List (World → Move) :=
    [fun _ => .poll .supervisor, fun _ => .poll .dispatcher, fun _ => .poll .addressWatch]
  refine ⟨(arrived.move .stopSupervisor).along rest, World.run_along (by decide +kernel),
    World.run_along (by decide +kernel), by decide +kernel, by decide +kernel, by decide +kernel,
    by decide +kernel, by decide +kernel⟩

end Scenario.Setup

end Egress
