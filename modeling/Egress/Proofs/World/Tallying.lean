import Egress.Proofs.World.Accounting
import Egress.Proofs.World.Chronicle

set_option autoImplicit false

namespace Egress

def World.openOn (w : World) (k : Stats.Counter) : Nat :=
  w.connections.countP fun c => !c.closed && c.counter = k

def Command.about : Command → Nat
  | add m _ => m.id
  | remove id => id

@[simp]
theorem Command.about_add (m : Member) (generation : Nat) : (add m generation).about = m.id := rfl

@[simp]
theorem Command.about_remove (id : Nat) : (remove id).about = id := rfl

theorem Traffic.replaced {t : Traffic} {next o : Connection} (member : o ∈ t.replace next) :
    o = next ∨ o ∈ t.connections ∧ o.id ≠ next.id := by
  obtain ⟨c, was, rfl⟩ := List.mem_map.mp member
  split
  next => exact .inl rfl
  next other => exact .inr ⟨was, other⟩

theorem Traffic.stays {t : Traffic} {o next c : Connection}
    (numbers : (t.connections.map (·.id)).Nodup) (was : o ∈ t.connections) (same : next.id = o.id)
    (member : c ∈ t.connections) : c ∈ t.replace next ∨ c = o ∧ next ∈ t.replace next := by
  by_cases hit : c.id = next.id
  · refine .inr ⟨eq_of_key numbers member was (hit.trans same), ?_⟩
    exact List.mem_map.mpr ⟨c, member, if_pos hit⟩
  · exact .inl (List.mem_map.mpr ⟨c, member, if_neg hit⟩)

-- Whatever is counted, replacing a connection changes the count by that connection alone.
theorem Traffic.countP_replace {t : Traffic} {c next : Connection} (p : Connection → Bool)
    (numbers : (t.connections.map (·.id)).Nodup) (member : c ∈ t.connections)
    (same : next.id = c.id) :
    (t.replace next).countP p + (p c).toNat = t.connections.countP p + (p next).toNat := by
  rw [replace, same]
  generalize t.connections = l at numbers member
  induction l with
  | nil => cases member
  | cons o rest ih =>
    rw [List.map_cons, List.nodup_cons] at numbers
    obtain ⟨new, numbers⟩ := numbers
    rcases List.mem_cons.mp member with rfl | later
    · have others : (rest.map fun o => if o.id = c.id then next else o) = rest := by
        refine (List.map_congr_left fun o there => if_neg fun hit => ?_).trans (List.map_id' _)
        exact new (hit ▸ List.mem_map_of_mem there)
      rw [List.map_cons, if_pos rfl, others, List.countP_cons, List.countP_cons]
      cases p next <;> cases p c <;> simp
    · have other : o.id ≠ c.id := fun hit => new (hit ▸ List.mem_map_of_mem later)
      rw [List.map_cons, if_neg other, List.countP_cons, List.countP_cons]
      have := ih numbers later
      omega

theorem Traffic.replace_numbers {t : Traffic} {next : Connection} :
    (t.replace next).map (·.id) = t.connections.map (·.id) := by
  rw [replace, List.map_map]
  refine List.map_congr_left fun o _ => ?_
  dsimp only [Function.comp]
  split
  next hit => exact hit.symm
  next => rfl

namespace World

variable {w next : World} {c : Connection} (k : Stats.Counter)

theorem openOn_opens (opened : c.closed = false)
    (connections : next.connections = w.connections ++ [c]) :
    next.openOn k = w.openOn k + (decide (c.counter = k)).toNat := by
  rw [openOn, openOn, connections, List.countP_append]
  by_cases hit : c.counter = k <;> simp [opened, hit]

theorem openOn_uses (numbers : (w.connections.map (·.id)).Nodup) (member : c ∈ w.connections)
    (connections : next.connections = w.traffic.replace c.dropStream) :
    next.openOn k = w.openOn k := by
  have number : c.dropStream.id = c.id := rfl
  have count := Traffic.countP_replace (t := w.traffic) (fun c => !c.closed && c.counter = k)
    numbers member number
  rw [openOn, connections]
  exact Nat.add_right_cancel count

theorem openOn_closes (numbers : (w.connections.map (·.id)).Nodup) (member : c ∈ w.connections)
    (opened : c.closed = false) {reason : Option AbortReason}
    (connections : next.connections =
      w.traffic.replace { c with closed := true, reason, hasCopy := false }) :
    w.openOn k = next.openOn k + (decide (c.counter = k)).toNat := by
  have number : { c with closed := true, reason, hasCopy := false }.id = c.id := rfl
  have count := Traffic.countP_replace (t := w.traffic) (fun c => !c.closed && c.counter = k)
    numbers member number
  rw [← connections] at count
  simp only [opened, Bool.not_false, Bool.true_and, Bool.not_true, Bool.false_and,
    Bool.toNat_false, Nat.add_zero] at count
  exact count.symm

end World

namespace Chronicle

-- The books are in order: the counters say how many connections are open, the calls that took
-- effect which are not, and what has been sent says both.
structure Tallied (start : World) (mine : Stats.Counter → Prop) (x : Chronicle) : Prop where
  numbers : (x.world.connections.map (·.id)).Nodup
  fresh : ∀ c ∈ x.world.connections, c.id < x.world.supervisor.nextId
  counted : ∀ k, mine k →
    x.world.counters.get k = start.counters.get k + .ofNat (x.world.openOn k)
  took : ∀ c ∈ x.world.connections, x.calls.count (c.id, true) = c.closed.toNat
  told : ∀ c ∈ x.world.connections, ∃ generation,
    x.sent.filter (·.about = c.id) =
      .add c.member generation :: if c.closed then [.remove c.id] else []
  taken : ∀ id, (id, true) ∈ x.calls → id < x.world.supervisor.nextId
  known : ∀ m ∈ x.sent, m.about ∈ x.world.connections.map (·.id)

variable {start : World} {mine : Stats.Counter → Prop} {x y : Chronicle}

theorem tallied_start (bare : start.connections = []) : Tallied start mine { world := start } := by
  constructor <;> simp [bare, World.openOn]

theorem Tallied.keep {next : World} {calls : List (Nat × Bool)} (tallied : Tallied start mine x)
    (vain : ∀ id, (id, true) ∉ calls) (connections : next.connections = x.world.connections)
    (nextId : next.supervisor.nextId = x.world.supervisor.nextId)
    (counters : ∀ k, mine k → next.counters.get k = x.world.counters.get k) :
    Tallied start mine { x with world := next, calls := x.calls ++ calls } := by
  obtain ⟨numbers, fresh, counted, took, told, taken, known⟩ := tallied
  refine ⟨connections ▸ numbers, nextId ▸ connections ▸ fresh, fun k own => ?_, fun c member => ?_,
    connections ▸ told, fun id member => ?_, connections ▸ known⟩
  · rw [counters k own, counted k own, World.openOn, World.openOn, connections]
  · rw [List.count_append, List.count_eq_zero_of_not_mem (vain c.id)]
    exact took c (connections ▸ member)
  · rw [nextId]
    exact taken id ((List.mem_append.mp member).resolve_right (vain id))

theorem Tallied.opens {next : World} {c : Connection} {generation : Nat}
    (tallied : Tallied start mine x) (number : c.id = x.world.supervisor.nextId)
    (opened : c.closed = false) (connections : next.connections = x.world.connections ++ [c])
    (nextId : next.supervisor.nextId = c.id + 1)
    (counters : next.counters = x.world.counters.add c.counter 1) :
    Tallied start mine
      { x with world := next, sent := x.sent ++ [.add c.member generation] } := by
  obtain ⟨numbers, fresh, counted, took, told, taken, known⟩ := tallied
  have older {o : Connection} (was : o ∈ x.world.connections) : o.id < c.id := number ▸ fresh o was
  have either {o : Connection} (member : o ∈ next.connections) :
      o ∈ x.world.connections ∨ o = c := by
    rw [connections] at member
    exact (List.mem_append.mp member).imp id List.mem_singleton.mp
  refine ⟨?_, fun o member => ?_, fun k own => ?_, fun o member => ?_, fun o member => ?_,
    fun id member => ?_, fun m member => ?_⟩
  · rw [connections]
    exact nodup_append numbers fun o was => Nat.ne_of_lt (older was)
  · rw [nextId]
    rcases either member with was | rfl
    · exact Nat.lt_succ_of_lt (older was)
    · exact Nat.lt_succ_self _
  · rw [counters, Stats.Counters.get_add, counted k own, World.openOn_opens k opened connections]
    by_cases hit : c.counter = k
    · simp [hit, Int32.ofNat_add, Int32.add_assoc]
    · simp [hit]
  · rcases either member with was | rfl
    · exact took o was
    · rw [opened]
      exact List.count_eq_zero_of_not_mem fun member => Nat.lt_irrefl _ (number ▸ taken o.id member)
  · rcases either member with was | rfl
    · obtain ⟨g, filtered⟩ := told o was
      have other : c.id ≠ o.id := Nat.ne_of_gt (older was)
      exact ⟨g, by simp [filtered, other]⟩
    · have unheard : x.sent.filter (·.about = o.id) = [] := by
        refine List.filter_eq_nil_iff.mpr fun m there => ?_
        obtain ⟨k, was, same⟩ := List.mem_map.mp (known m there)
        simpa [← same] using Nat.ne_of_lt (older was)
      exact ⟨generation, by simp [unheard, opened]⟩
  · rw [nextId]
    exact Nat.lt_succ_of_lt (number ▸ taken id member)
  · rw [connections, List.map_append]
    rcases List.mem_append.mp member with old | new
    · exact List.mem_append_left _ (known m old)
    · rw [List.mem_singleton.mp new]
      exact List.mem_append_right _ (List.mem_singleton_self c.id)

theorem Tallied.uses {next : World} {c : Connection} (tallied : Tallied start mine x)
    (member : c ∈ x.world.connections)
    (connections : next.connections = x.world.traffic.replace c.dropStream)
    (nextId : next.supervisor.nextId = x.world.supervisor.nextId)
    (counters : next.counters = x.world.counters) :
    Tallied start mine { x with world := next } := by
  obtain ⟨numbers, fresh, counted, took, told, taken, known⟩ := tallied
  have keys : next.connections.map (·.id) = x.world.connections.map (·.id) :=
    connections ▸ Traffic.replace_numbers
  have same {p : Connection → Prop} (holds : ∀ o ∈ x.world.connections, p o)
      (own : p c.dropStream) : ∀ o ∈ next.connections, p o := by
    intro o there
    rw [connections] at there
    rcases Traffic.replaced there with rfl | ⟨was, -⟩
    · exact own
    · exact holds o was
  refine ⟨keys ▸ numbers, nextId ▸ same fresh (fresh c member), fun k own => ?_,
    same took (took c member), same told (told c member), nextId ▸ taken, keys.symm ▸ known⟩
  rw [counters, counted k own, World.openOn_uses k numbers member connections]

theorem Tallied.closes {next : World} {c torn : Connection} {reason : Option AbortReason}
    (tallied : Tallied start mine x) (member : c ∈ x.world.connections)
    (torn? : c.tearDown? reason = some torn)
    (connections : next.connections = x.world.traffic.replace torn)
    (nextId : next.supervisor.nextId = x.world.supervisor.nextId)
    (counters : next.counters = x.world.counters.add c.counter (-1)) :
    Tallied start mine
      { x with
        world := next
        calls := x.calls ++ [(c.id, true)]
        sent := x.sent ++ [.remove c.id] } := by
  obtain ⟨numbers, fresh, counted, took, told, taken, known⟩ := tallied
  obtain ⟨opened, rfl⟩ := Connection.tearDown?_eq torn?
  have keys : next.connections.map (·.id) = x.world.connections.map (·.id) :=
    connections ▸ Traffic.replace_numbers
  have either {o : Connection} (there : o ∈ next.connections) :
      o = { c with closed := true, reason, hasCopy := false } ∨
        o ∈ x.world.connections ∧ o.id ≠ c.id := by
    rw [connections] at there
    exact Traffic.replaced there
  refine ⟨keys ▸ numbers, fun o there => ?_, fun k own => ?_, fun o there => ?_, fun o there => ?_,
    fun id there => ?_, fun m there => ?_⟩
  · rw [nextId]
    rcases either there with rfl | ⟨was, -⟩
    · exact fresh c member
    · exact fresh o was
  · rw [counters, Stats.Counters.get_add, counted k own,
      World.openOn_closes k numbers member opened connections]
    by_cases hit : c.counter = k
    · simp [hit, Int32.ofNat_add, Int32.add_assoc]
    · simp [hit]
  · rcases either there with rfl | ⟨was, other⟩
    · simp [took c member, opened]
    · simp [took o was, Ne.symm other]
  · rcases either there with rfl | ⟨was, other⟩
    · obtain ⟨g, filtered⟩ := told c member
      refine ⟨g, ?_⟩
      change (x.sent ++ [Command.remove c.id]).filter (fun m => m.about = c.id) =
        [.add c.member g, .remove c.id]
      simp [filtered, opened]
    · obtain ⟨g, filtered⟩ := told o was
      exact ⟨g, by simp [filtered, Ne.symm other]⟩
  · rw [nextId]
    rcases List.mem_append.mp there with old | new
    · exact taken id old
    · cases List.mem_singleton.mp new
      exact fresh c member
  · rw [keys]
    rcases List.mem_append.mp there with old | new
    · exact known m old
    · rw [List.mem_singleton.mp new]
      exact List.mem_map_of_mem member

theorem Tallied.deals {next : World} {sent : List Command} {calls : List (Nat × Bool)}
    (tallied : Tallied start mine x) (deals : x.world.Deals next sent calls) :
    Tallied start mine
      { x with world := next, calls := x.calls ++ calls, sent := x.sent ++ sent } := by
  cases deals with
  | nothing _ vain connections supervisor counters =>
    rw [List.append_nil]
    exact tallied.keep vain connections (congrArg (·.nextId) supervisor) fun k _ => by rw [counters]
  | opens c generation fresh opened connections supervisor counters =>
    rw [List.append_nil]
    refine tallied.opens fresh opened connections ?_ counters
    rw [supervisor, Supervisor.send_nextId]
  | uses c found connections supervisor counters =>
    rw [List.append_nil, List.append_nil]
    exact tallied.uses (List.mem_of_find?_eq_some found) connections
      (congrArg (·.nextId) supervisor) counters
  | closes c torn reason found torn? connections supervisor counters =>
    refine tallied.closes (List.mem_of_find?_eq_some found) torn? connections ?_ counters
    rw [supervisor, Supervisor.send_nextId]

theorem Step.tallied (step : Step mine x y) (tallied : Tallied start mine x) :
    Tallied start mine y := by
  have keep (next : World) (connections : next.connections = x.world.connections)
      (nextId : next.supervisor.nextId = x.world.supervisor.nextId)
      (counters : ∀ k, mine k → next.counters.get k = x.world.counters.get k) :
      Tallied start mine { x with world := next } := by
    have vain (id : Nat) : (id, true) ∉ ([] : List (Nat × Bool)) := List.not_mem_nil
    have kept := tallied.keep vain connections nextId counters
    rwa [List.append_nil] at kept
  cases step with
  | deed d => exact tallied.deals (d.deals x.world)
  | supervise next step =>
    obtain ⟨connections, nextId, counters⟩ := step.leaves
    exact keep next connections nextId fun k _ => by rw [counters]
  | stop => exact keep _ rfl rfl fun _ _ => rfl
  | finish => exact { keep x.world.endSupervisor rfl rfl fun _ _ => rfl with }
  | around next connections supervisor counters =>
    exact keep next connections (congrArg (·.nextId) supervisor) counters

def Endures (c : Connection) (w : World) : Prop :=
  ∃ d ∈ w.connections, d.member = c.member ∧ d.counter = c.counter ∧ (c.closed → d.closed)

theorem Endures.still {c : Connection} {w : World} (member : c ∈ w.connections) : Endures c w :=
  ⟨c, member, rfl, rfl, id⟩

theorem endures_replace {w next : World} {c o changed : Connection}
    (numbers : (w.connections.map (·.id)).Nodup) (member : c ∈ w.connections)
    (found : w.connection? o.id = some o)
    (connections : next.connections = w.traffic.replace changed)
    (same : changed.member = o.member) (counter : changed.counter = o.counter)
    (closed : o.closed → changed.closed) : Endures c next := by
  have was := List.mem_of_find?_eq_some found
  rcases Traffic.stays (t := w.traffic) numbers was (congrArg Member.id same) member with
    stays | ⟨rfl, there⟩
  · exact .still (connections ▸ stays)
  · exact ⟨changed, connections ▸ there, same, counter, closed⟩

theorem endures_deals {w next : World} {sent : List Command} {calls : List (Nat × Bool)}
    {c : Connection} (deals : w.Deals next sent calls) (numbers : (w.connections.map (·.id)).Nodup)
    (member : c ∈ w.connections) : Endures c next := by
  cases deals with
  | nothing _ _ connections => exact .still (connections ▸ member)
  | opens k _ _ _ connections => exact .still (connections ▸ List.mem_append_left _ member)
  | uses o found connections => exact endures_replace numbers member found connections rfl rfl id
  | closes o torn reason found torn? connections =>
    obtain ⟨-, rfl⟩ := Connection.tearDown?_eq torn?
    refine endures_replace numbers member found connections rfl rfl fun _ => ?_
    rfl

theorem Step.endures (step : Step mine x y) (tallied : Tallied start mine x) {c : Connection}
    (member : c ∈ x.world.connections) : Endures c y.world := by
  cases step with
  | deed d => exact endures_deals (d.deals x.world) tallied.numbers member
  | supervise next step => exact .still (step.leaves.1 ▸ member)
  | stop => exact .still member
  | finish => exact .still member
  | around next connections => exact .still (connections ▸ member)

theorem Run.tallied (run : Run mine x y) (tallied : Tallied start mine x) :
    Tallied start mine y := by
  induction run with
  | refl => exact tallied
  | tail _ step ih => exact step.tallied ih

theorem Run.endures (run : Run mine x y) (tallied : Tallied start mine x) {c : Connection}
    (member : c ∈ x.world.connections) : Endures c y.world := by
  induction run with
  | refl => exact .still member
  | tail before step ih =>
    obtain ⟨d, there, same, counter, shut⟩ := ih
    obtain ⟨e, now, same', counter', shut'⟩ := step.endures (Run.tallied before tallied) there
    exact ⟨e, now, same'.trans same, counter'.trans counter, fun h => shut' (shut h)⟩

end Chronicle

-- A poll of a dial that does not end with a connection, and the end of a dial that is given up.
def Deed.failsToDial : Deed → World → Bool
  | begin request, w => !(w.beginConnect request).2.isDone
  | poll c, w => !(w.pollConnect c).2.isDone
  | giveUp _, _ => true
  | _, _ => false

-- What can be relied on at any moment: the counters show what is open, as numbers that wrap around;
-- of the calls on a connection that is closed exactly one has taken effect, and of those on an open
-- one none; the supervisor has been sent one addition for each connection, and then one removal if
-- it is closed, and nothing else; a connection stays the one it is, and does not open again; and a
-- dial that fails leaves all of this as it is.
structure Chronicle.Accounts (start : World) (mine : Stats.Counter → Prop) (x : Chronicle) :
    Prop where
  apart : (x.world.connections.map (·.id)).Nodup
  counted : ∀ k, mine k →
    x.world.counters.get k = start.counters.get k + .ofNat (x.world.openOn k)
  took : ∀ c ∈ x.world.connections, x.calls.count (c.id, true) = if c.closed then 1 else 0
  told : ∀ c ∈ x.world.connections, ∃ generation,
    x.sent.filter (·.about = c.id) =
      .add c.member generation :: if c.closed then [.remove c.id] else []
  known : ∀ m ∈ x.sent, ∃ c ∈ x.world.connections, c.id = m.about
  lasts : ∀ y, Run mine x y → ∀ c ∈ x.world.connections, ∃ d ∈ y.world.connections,
    d.member = c.member ∧ d.counter = c.counter ∧ (c.closed → d.closed)
  failed : ∀ d : Deed, d.failsToDial x.world →
    (d.run x.world).counters = x.world.counters ∧
      (d.run x.world).connections = x.world.connections ∧
      (d.run x.world).supervisor = x.world.supervisor ∧ x.world.sends d.run = []

theorem Deed.fails_in_vain {d : Deed} {w : World} (fails : d.failsToDial w) :
    (d.run w).counters = w.counters ∧ (d.run w).connections = w.connections ∧
      (d.run w).supervisor = w.supervisor ∧ w.sends d.run = [] := by
  cases d with
  | begin request =>
    obtain ⟨⟨_, same⟩, -⟩ := w.beginConnect_asks request
    obtain ⟨⟨_, same'⟩, -⟩ := w.listening.beginConnect_asks request
    refine ⟨?_, ?_, ?_, w.sends_nothing ?_⟩ <;> simp [run, same, same']
  | poll c =>
    rcases w.pollConnect_cases c with ⟨idle, -⟩ | ⟨_, _, -, made⟩
    · obtain ⟨⟨_, same⟩, -⟩ := World.pollConnect_asks idle (.inl rfl)
      obtain ⟨⟨_, same'⟩, -⟩ := World.pollConnect_asks idle (.inr rfl)
      refine ⟨?_, ?_, ?_, w.sends_nothing ?_⟩ <;> simp [run, same, same']
    · rw [failsToDial, made] at fails
      cases fails
  | giveUp c => exact ⟨rfl, rfl, rfl, w.sends_nothing rfl⟩
  | tearDown id reason => cases fails
  | lose id => cases fails

theorem Chronicle.Run.keeps_accounts {start : World} {mine : Stats.Counter → Prop} {x : Chronicle}
    (run : Run mine { world := start } x) (bare : start.connections = []) :
    x.Accounts start mine := by
  have tallied := Run.tallied run (tallied_start bare)
  refine ⟨tallied.numbers, tallied.counted, fun c member => ?_, tallied.told,
    fun m there => List.mem_map.mp (tallied.known m there),
    fun y later c member => Run.endures later tallied member, fun d fails => d.fails_in_vain fails⟩
  rw [tallied.took c member]
  cases c.closed <;> rfl

namespace Chronicle

def connecting (counter : Stats.Counter) (job : Nat) : Connecting where
  request :=
    { scope := { id := 1, token := 0 }, network := "tcp", address := "127.0.0.1:22", counter }
  generation := 0
  stage := .attempting job { ip := .loopback, port := 22 } []

def granting (x : Chronicle) : Chronicle :=
  { x with world := { x.world with network := x.world.network.grant?.getD x.world.network } }

def dialing (x : Chronicle) (c : Connecting) : Chronicle :=
  ((x.after (.begin c.request)).granting).after (.poll c)

theorem run_dialing {mine : Stats.Counter → Prop} {x y : Chronicle} (run : Run mine x y)
    (c : Connecting) : Run mine x (y.dialing c) := by
  have granted : Step mine (y.after (.begin c.request)) (y.after (.begin c.request)).granting :=
    .around _ rfl rfl fun _ _ => rfl
  exact ((run.tail (.deed _)).tail granted).tail (.deed _)

def paired : Chronicle :=
  (({ world := Scenario.Setup.small.build } : Chronicle).dialing
    (connecting .tcpConnections 0)).dialing (connecting .httpPending 1)

-- One is aborted and then dropped, the other one is closed when the supervisor is gone.
def parted : Chronicle :=
  let told := ((paired.after (.tearDown 1 (some .netDisconnected))).after (.tearDown 1 none)).stop
  told.finish.after (.tearDown 2 none)

theorem accounts_parted :
    parted.calls = [(1, true), (1, false), (2, true)] ∧ parted.sent.length = 4 ∧
      parted.Accounts Scenario.Setup.small.build fun _ => True := by
  refine ⟨by decide +kernel, by decide +kernel, Run.keeps_accounts ?_ (by decide +kernel)⟩
  have two : Run (fun _ => True) { world := Scenario.Setup.small.build } paired :=
    run_dialing (run_dialing .refl _) _
  have stopped := ((two.tail (.deed (.tearDown 1 (some .netDisconnected)))).tail
    (.deed (.tearDown 1 none))).tail .stop
  exact (stopped.tail (.finish (by decide +kernel) rfl)).tail (.deed _)

end Chronicle

end Egress
