import Egress.Proofs.World.CallPolls
import Egress.Proofs.World.Watches

set_option autoImplicit false

namespace Egress

open Simulation Tunnel

namespace World

variable {w : World}

theorem keepsSessions_keeps {s t : Script} (keeps : keepsSessions s t) : s.Keeps t := by
  intro i x found
  have same := congrArg (·[i]?) keeps.2
  simp only [List.getElem?_map, found, Option.map_some] at same
  obtain ⟨y, found', pair⟩ := Option.map_eq_some_iff.mp same
  obtain ⟨link, closed⟩ := Prod.mk.inj pair
  exact ⟨y, found', link, fun was => closed ▸ was⟩

theorem owner_attends (regular : w.Regular) (name : String) {f : Handle → World}
    (each : ∀ h, Attends w (f h)) : Attends w (w.owner name f) := by
  unfold owner
  split
  next h _ => exact each h
  next => exact .start regular

theorem move_attends (regular : w.Regular) {m : Move} (allowed : w.allows m)
    (quiet : m.call? = none) : Attends w (w.move m) := by
  have start := Attends.start regular
  cases m with
  | poll task =>
    cases task with
    | dispatcher => exact start.beside (.of_eq rfl rfl rfl)
    | supervisor => exact start.beside w.supervise_beside
    | addressWatch => exact start.beside w.pollAddressWatch_beside
    | worker i => exact start.beside (w.pollWorker_beside i)
    | fanOut i => exact start.beside (w.runFanOut_beside i)
    | sessionWatch i => exact start.travels (pollSessionWatch_travels regular allowed)
    | streamWatch i => exact start.travels (pollStreamWatch_travels regular i)
    | call id => cases quiet
  | disconnect watch => exact start.travels (disconnect_travels regular watch)
  | read name n => exact owner_attends regular name fun h => start.travels (read_travels regular h n)
  | write name bytes =>
    exact owner_attends regular name fun h => start.travels (write_travels regular h bytes)
  | flush name => exact owner_attends regular name fun h => start.travels (flush_travels regular h)
  | shutdown name =>
    exact owner_attends regular name fun h => start.travels (shutdown_travels regular h)
  | close name => exact owner_attends regular name fun h => start.travels (close_travels regular h)
  | drop name =>
    exact owner_attends regular name fun h =>
      (start.travels (drop_travels regular h)).beside (handles_beside _ _)
  | abort name reason =>
    apply owner_attends regular name
    intro h
    split
    · exact start.beside (w.closeConnection_beside _ _)
    · exact start
  | abortByHandle name reason =>
    simp only [move]
    split
    · exact start.beside (w.tearDown_beside _ _)
    · exact start
  | newScope => exact .still (newScope_passes regular) rfl rfl rfl
  | childScope parent => exact .still (childScope_passes regular parent) rfl rfl rfl
  | cancel scope => exact .still (cancel_passes regular scope) rfl rfl rfl
  | script script =>
    exact start.travels ((w.script_level script (keepsSessions_keeps allowed)).travels regular _)
  | count counter n =>
    refine start.beside (w.count_beside counter n ?_)
    rintro rfl
    cases allowed
  | kernel | addresses | clock | signal | store | raise | subscribe | receive | unsubscribe
  | permit | closeBus | stopSupervisor => exact start.beside (.of_eq rfl rfl rfl)
  | withdraw | answer | dial | reconnect | setParams | run | startRead | abandon => cases quiet

theorem addCall_polls (regular : w.Regular) {id : String} {c : Call} (absent : w.call? id = none)
    (plain : c.tunnelDial? = none) (fits : c.Fits w.frame) (fresh : dialGeneration? c = none) :
    Polls id w (w.addCall id c) where
  passes := addCall_passes regular absent plain fits fresh
  others other different := by rw [call?_addCall, if_neg different]
  creates old _ was := by
    rw [absent] at was
    cases was
  replaces changed := absurd rfl changed
  finished := ⟨[], by simp [addCall]⟩

theorem move_polls (regular : w.Regular) {m : Move} (driven : m.Driven) (allowed : w.allows m)
    {id : String} (about : m.call? = some id) : Polls id w (w.move m) := by
  cases m with
  | poll task =>
    cases task with
    | call other =>
      cases about
      exact pollCall_polls regular id
    | _ => cases about
  | withdraw call =>
    cases about
    exact withdraw_polls regular id
  | answer call mode =>
    cases about
    exact answer_polls regular id mode
  | dial | reconnect | setParams | run =>
    cases about
    exact addCall_polls regular allowed rfl trivial rfl
  | startRead call name n =>
    cases about
    simp only [move, owner]
    split
    · have removed := (Attends.start regular).beside
        (w.handles_beside (w.handles.filter (·.1 != name)))
      exact removed.andThen (addCall_polls removed.passes.regular allowed rfl trivial rfl)
        fun changed => absurd rfl changed
    · exact (Attends.start regular).polls rfl _
  | abandon call => cases driven
  | _ => cases about

theorem move_passes (regular : w.Regular) {m : Move} (driven : m.Driven) (allowed : w.allows m) :
    Passes w (w.move m) := by
  cases about : m.call? with
  | none => exact (move_attends regular allowed about).passes
  | some id => exact (move_polls regular driven allowed about).passes

theorem endOf?_eq_none {ends : List (String × Finish)} {id : String} {next : World}
    (same : next.finished = w.finished ++ ends) (others : ∀ e ∈ ends, e.1 ≠ id) :
    w.endOf? next id = none := by
  rw [endOf?, same, List.drop_left, List.lookup_eq_none_iff]
  intro e member
  simpa using (others e member).symm

theorem move_others (regular : w.Regular) {m : Move} (driven : m.Driven) (allowed : w.allows m)
    {id : String} (other : m.call? ≠ some id) :
    (w.move m).call? id = w.call? id ∧ w.endOf? (w.move m) id = none := by
  cases about : m.call? with
  | none =>
    have attends := move_attends regular allowed about
    have same : (w.move m).finished = w.finished ++ [] := by simpa using attends.finished
    exact ⟨congrArg (List.lookup id) attends.calls, endOf?_eq_none same (by simp)⟩
  | some subject =>
    have different : id ≠ subject := fun same => other (same ▸ about)
    have polls := move_polls regular driven allowed about
    obtain ⟨ends, same⟩ := polls.finished
    refine ⟨polls.others id different, endOf?_eq_none same fun e member => ?_⟩
    obtain ⟨f, -, rfl⟩ := List.mem_map.mp member
    exact different.symm

-- The books of every generation are in balance once what was `lost` with dials that were dropped is
-- counted in.
structure Sound (lost : Nat → Multiset Stake) (w : World) : Prop where
  regular : w.Regular
  balanced : ∀ g, Ledger.Balanced w.settings.sessionCap (w.pool g)
    (lost g + (w.dialStakes g + w.streamStakes g)) (w.watched g)
  quiet : ∀ g, Ledger.Quiet w.settings.sessionCap (w.pool g)
  tidy : w.Tidy

theorem sessionCap_pos (s : Settings) : 1 ≤ s.sessionCap := Nat.le_max_right _ _

variable {lost : Nat → Multiset Stake} {next : World}

theorem Passes.sound (passes : Passes w next) (sound : Sound lost w) : Sound lost next where
  regular := passes.regular
  balanced g := by
    have steps := (passes.steps g).join ⟨lost g, 0⟩
    have balanced := Ledger.Steps.balanced (sessionCap_pos _) steps
      (by simpa [Ledger.join, ledger] using sound.balanced g)
    rw [passes.lasts.settings]
    simpa [Ledger.join, ledger] using balanced
  quiet g := by
    rw [passes.lasts.settings]
    exact Ledger.Steps.quiet (sessionCap_pos _) (passes.steps g) (sound.quiet g)
  tidy := passes.lasts.tidy sound.tidy

theorem move_sound (sound : Sound lost w) {m : Move} (driven : m.Driven) (allowed : w.allows m) :
    Sound lost (w.move m) :=
  (move_passes sound.regular driven allowed).sound sound

theorem Run.sound (run : Run Move.Driven w next) (sound : Sound lost w) : Sound lost next := by
  induction run with
  | refl => exact sound
  | tail _ goes ih =>
    obtain ⟨m, driven, allowed, rfl⟩ := goes
    exact move_sound ih driven allowed

theorem Run.lasts (run : Run Move.Driven w next) (regular : w.Regular) : Lasts w next := by
  suffices both : next.Regular ∧ Lasts w next from both.2
  induction run with
  | refl => exact ⟨regular, .refl w⟩
  | tail _ goes ih =>
    obtain ⟨m, driven, allowed, rfl⟩ := goes
    have passes := move_passes ih.1 driven allowed
    exact ⟨passes.regular, ih.2.trans passes.lasts⟩

theorem dropDial_level (d : Dial) : Level w (w.dropDial d) := by
  have left (script : Script) (sessions : script.sessions = w.script.sessions) :
      Level w { w with script } := w.script_level script (.of_sessions sessions)
  unfold dropDial
  split
  · exact (Beside.refl w).level
  · exact (w.dropConnect_beside _).level
  · split
    · exact (Beside.refl w).level
    · exact (w.dropConnect_beside _).level
    · exact (left (w.script.leaveShaking _) rfl).trans (closeConnection_beside _ _ none).level
    · exact left (w.script.leaveOpening _) rfl

def stakesOf (w : World) (id : String) (g : Nat) : Multiset Stake :=
  ((w.call? id).map fun c => (c.hands g).stakes).getD 0

-- What is lost with a move.
def forfeit (w : World) : Move → Nat → Multiset Stake
  | .abandon id, g => w.stakesOf id g
  | _, _ => 0

theorem forfeit_driven {m : Move} (driven : m.Driven) (g : Nat) : w.forfeit m g = 0 := by
  cases m with
  | abandon id => cases driven
  | _ => rfl

theorem abandon_sound (sound : Sound lost w) (id : String) :
    Sound (fun g => lost g + w.forfeit (.abandon id) g) (w.abandon id) := by
  unfold abandon
  split
  next d found =>
    have dropped := dropDial_level d (w := w)
    let next : World :=
      { w.dropDial d with
        calls := (w.dropDial d).calls.filter (·.1 != id)
        held := (w.dropDial d).held.filter (· != id) }
    have regular := (dropped.travels sound.regular bare).regular
    have calls : (w.dropDial d).calls = w.calls := calls_of_frame dropped.frame
    have standing (g : Nat) : next.standing g = w.standing g := dropped.standing g
    have names := sound.regular.frame.names
    have dials (g : Nat) : w.dialStakes g = ((Call.dial d).hands g).stakes + next.dialStakes g := by
      rw [dialStakes_of_call g names found]
      simp only [otherStakes, dialStakes, next, calls]
    have settings : next.settings = w.settings := congrArg (·.settings) dropped.frame
    refine ⟨?regular, fun g => ?balanced, fun g => ?quiet, ?tidy⟩
    case regular =>
      exact
        { regular with
          frame :=
            { regular.frame with
              names := (List.filter_sublist.map _).nodup regular.frame.names
              calls := fun entry member =>
                regular.frame.calls entry (List.mem_of_mem_filter member) } }
    case balanced =>
      have balanced := sound.balanced g
      have pool : next.pool g = w.pool g := congrArg (·.pool) (standing g)
      have streams : next.streamStakes g = w.streamStakes g := congrArg (·.stakes) (standing g)
      have watched : next.watched g = w.watched g := congrArg (·.watched) (standing g)
      rw [dials] at balanced
      rw [settings, pool, streams, watched]
      simpa only [forfeit, stakesOf, found, Option.map_some, Option.getD_some, Multiset.add_assoc] using
        balanced
    case quiet =>
      have pool : next.pool g = w.pool g := congrArg (·.pool) (standing g)
      rw [settings, pool]
      exact sound.quiet g
    case tidy => exact (dropped.turn 0 .empty).grows.tidy sound.tidy
  next other =>
    have nothing (g : Nat) : w.forfeit (.abandon id) g = 0 := by
      cases found : w.call? id with
      | none => simp [forfeit, stakesOf, found]
      | some c =>
        cases c with
        | dial d => exact absurd found (other d)
        | _ => simp [forfeit, stakesOf, found, Call.hands, Call.tunnelDial?, Hand.empty]
    simpa only [nothing, Multiset.add_zero] using sound

theorem move_sound_or_lost (sound : Sound lost w) (m : Move) (allowed : w.allows m) :
    Sound (fun g => lost g + w.forfeit m g) (w.move m) := by
  by_cases driven : m.Driven
  · simpa only [forfeit_driven driven, Multiset.add_zero] using move_sound sound driven allowed
  · cases m with
    | abandon id => exact abandon_sound sound id
    | _ => exact absurd rfl driven

structure Blank (w : World) : Prop where
  calls : w.calls = []
  generations : w.generations = []
  streams : w.streams = []
  sessionWatches : w.sessionWatches = []
  streamWatches : w.streamWatches = []
  connections : w.connections = []
  counters : w.counters = {}
  root : w.root.token < w.scopes.forest.nodes.length

theorem Blank.addTunnel (blank : Blank w) : Sound (fun _ => 0) w.addTunnel := by
  have pool (g : Nat) : w.addTunnel.pool g = {} := by
    cases g <;> simp [World.addTunnel, World.pool, generation?]
  have balance (g : Nat) : 0 + (w.addTunnel.dialStakes g + w.addTunnel.streamStakes g) = 0 ∧
      w.addTunnel.watched g = 0 := by
    simp [World.addTunnel, dialStakes, streamStakes, watched, blank.calls, blank.streams,
      blank.sessionWatches]
  refine ⟨?regular, fun g => ?balanced, fun g => ?quiet, ?tidy⟩
  case regular =>
    have generations : w.addTunnel.frame.generations =
        [{ scope := (w.scopes.child w.root).2 }] := rfl
    refine ⟨⟨?names, ?current, ?calls, ?root, ?scopes, ?past⟩, ?streams, ?numbers, ?watchers,
      ?watches, ?apart, ?even⟩
    case names => simp [frame, TunnelSide.frame, tunnelSide, World.addTunnel, blank.calls]
    case current => simp [frame, TunnelSide.frame, tunnelSide, World.addTunnel]
    case calls => simp [frame, TunnelSide.frame, tunnelSide, World.addTunnel, blank.calls]
    case root =>
      refine Nat.lt_of_lt_of_le blank.root ?_
      simp [frame, TunnelSide.frame, tunnelSide, World.addTunnel, Scopes.child, Scopes.onToken,
        Forest.branch]
    case scopes =>
      intro gen member
      rw [generations] at member
      obtain rfl := List.mem_singleton.mp member
      simp [frame, TunnelSide.frame, tunnelSide, World.addTunnel, Scopes.child, Scopes.onToken,
        Forest.branch]
    case past =>
      intro g gen found past
      rw [generations] at found
      cases g with
      | zero => exact absurd rfl past
      | succ g => simp at found
    case streams => simp [World.addTunnel, blank.streams]
    case numbers => simp [World.addTunnel, blank.streams]
    case watchers => simp [World.addTunnel, blank.streams, blank.streamWatches]
    case watches => simp [World.addTunnel, blank.sessionWatches]
    case apart => simp [Apart, World.addTunnel, blank.connections]
    case even => simp [gauge, World.addTunnel, blank.counters, blank.streams, Stats.Counters.get]
  case balanced =>
    rw [pool, (balance g).1, (balance g).2]
    exact Ledger.balanced_empty
  case quiet =>
    rw [pool]
    exact Ledger.quiet_empty
  case tidy =>
    intro x member
    simp [World.addTunnel, blank.sessionWatches] at member

theorem Blank.addTunnel_ledger (blank : w.Blank) (g : Nat) : w.addTunnel.ledger g = .new := by
  have pool : w.addTunnel.pool g = {} := by
    cases g <;> simp [World.addTunnel, World.pool, World.generation?]
  simp only [World.ledger, pool, World.dialStakes, World.streamStakes, World.watched]
  simp [World.addTunnel, blank.calls, blank.streams, blank.sessionWatches, Ledger.new]

theorem Blank.addSupervisor (blank : Blank w) : Blank w.addSupervisor := { blank with }

theorem Blank.addWatch (blank : Blank w) (every : Duration) : Blank (w.addWatch every) :=
  { blank with
    root := Nat.lt_of_lt_of_le blank.root
      (by simp [World.addWatch, spawn, Scopes.child, Scopes.onToken, Forest.branch]) }

theorem addWorkers_beside (subscribers : List Event.Subscriber) :
    Beside w (subscribers.foldl World.addWorker w) := by
  induction subscribers generalizing w with
  | nil => exact .refl w
  | cons subscriber rest ih =>
    have first : Beside w (w.addWorker subscriber) := .of_eq rfl rfl rfl
    exact first.trans ih

end World

namespace Scenario.Setup

variable (s : Setup)

theorem base_blank : World.Blank s.base := by
  constructor <;> simp [base, World.spawn, Scopes.new, Scopes.onToken, Forest.plant]

theorem build_attends : ∃ w : World, w.Blank ∧ w.settings = s.settings ∧
    World.Attends w.addTunnel s.build := by
  unfold build
  split
  · have attends (u : World) (blank : u.Blank) : World.Attends u.addTunnel
        (s.roster.foldl World.addWorker (u.addTunnel.swap u.addTunnel.storedParams).1) :=
      (World.swap_attends blank.addTunnel.regular u.addTunnel.storedParams).beside
        (World.addWorkers_beside s.roster)
    unfold buildRuntime
    dsimp only
    have first : World.Blank
        { s.base with
          bus := (s.base.bus.subscribe [.shutdownRequested]).1
          shutdownRequests := some (s.base.bus.subscribe [.shutdownRequested]).2 } :=
      { s.base_blank with }
    split
    · exact ⟨_, first.addSupervisor.addWatch _, rfl, attends _ (first.addSupervisor.addWatch _)⟩
    · exact ⟨_, first.addSupervisor, rfl, attends _ first.addSupervisor⟩
  · have blank := s.base_blank.addSupervisor
    exact ⟨_, blank, rfl, .start blank.addTunnel.regular⟩

theorem build_passes : ∃ w : World, w.Blank ∧ w.settings = s.settings ∧
    World.Passes w.addTunnel s.build := by
  obtain ⟨w, blank, settings, attends⟩ := s.build_attends
  exact ⟨w, blank, settings, attends.passes⟩

theorem build_calls : s.build.calls = [] := by
  obtain ⟨w, blank, -, attends⟩ := s.build_attends
  exact attends.calls.trans blank.calls

theorem build_sound : World.Sound (fun _ => 0) s.build := by
  obtain ⟨w, blank, -, passes⟩ := s.build_passes
  exact passes.sound blank.addTunnel

-- The worlds that a setup can come to by any moves at all, with what has been lost on the way.
inductive Loses (s : Setup) : (Nat → Multiset Stake) → World → Prop
  | start : Loses s (fun _ => 0) s.build
  | move {lost : Nat → Multiset Stake} {w : World} (m : Move) (before : Loses s lost w)
      (allowed : w.allows m) : Loses s (fun g => lost g + w.forfeit m g) (w.move m)

variable {s} {w : World}

theorem Loses.sound {lost : Nat → Multiset Stake} (loses : s.Loses lost w) :
    World.Sound lost w := by
  induction loses with
  | start => exact s.build_sound
  | move m _ allowed ih => exact World.move_sound_or_lost ih m allowed

theorem Reaches.loses (reached : s.Reaches Move.Driven w) : s.Loses (fun _ => 0) w := by
  induction reached with
  | refl => exact .start
  | tail _ goes ih =>
    obtain ⟨m, driven, allowed, rfl⟩ := goes
    simpa only [World.forfeit_driven driven, Multiset.add_zero] using ih.move m allowed

theorem Reaches.sound (reached : s.Reaches Move.Driven w) : World.Sound (fun _ => 0) w :=
  World.Run.sound reached s.build_sound

theorem Reaches.settings (reached : s.Reaches Move.Driven w) : w.settings = s.settings := by
  induction reached with
  | refl =>
    obtain ⟨w, -, settings, passes⟩ := s.build_passes
    exact passes.lasts.settings.trans settings
  | tail before goes ih =>
    obtain ⟨m, driven, allowed, rfl⟩ := goes
    have sound := Reaches.sound before
    exact (World.move_passes sound.regular driven allowed).lasts.settings.trans ih

theorem Reaches.steps {u : World} (before : s.Reaches Move.Driven u)
    (run : World.Run Move.Driven u w) (g : Nat) :
    Ledger.Steps s.settings.sessionCap (u.ledger g) (w.ledger g) := by
  induction run with
  | refl => exact .refl
  | tail earlier goes ih =>
    obtain ⟨m, driven, allowed, rfl⟩ := goes
    have reached : s.Reaches Move.Driven _ := Relation.ReflTransGen.trans before earlier
    have passes := World.move_passes reached.sound.regular driven allowed
    exact ih.trans (reached.settings ▸ passes.steps g)

theorem Reaches.ledger (reached : s.Reaches Move.Driven w) (g : Nat) :
    Ledger.Steps s.settings.sessionCap .new (w.ledger g) := by
  obtain ⟨blank, isBlank, settings, passes⟩ := s.build_passes
  have built := passes.steps g
  rw [isBlank.addTunnel_ledger, show blank.addTunnel.settings = s.settings from settings] at built
  exact built.trans (Reaches.steps .start reached g)

end Scenario.Setup

end Egress
