import Egress.Proofs.World.Accounting
import Egress.Proofs.World.Supervising

set_option autoImplicit false

namespace Egress

open Simulation Tunnel

namespace Tunnel.Generation

def report (gen : Generation) : Stats.Connectivity :=
  if gen.pool.slots.isEmpty then
    if gen.credentials.isSome then ⟨.trying, (gen.lost.getLast?.map (·.2)).getD ""⟩
    else ⟨.notConfigured, ""⟩
  else ⟨.established, ""⟩

structure Tidy (gen : Generation) : Prop where
  slots : ∀ s ∈ gen.pool.slots, s.id ≤ gen.pool.nextId
  lost : ∀ e ∈ gen.lost, e.1 ≤ gen.pool.nextId ∧ ∀ s ∈ gen.pool.slots, s.id ≠ e.1
  configured : gen.pool.slots ≠ [] ∨ gen.lost ≠ [] → gen.credentials.isSome

theorem tidy_empty (gen : Generation) (pool : gen.pool = {}) (lost : gen.lost = []) :
    gen.Tidy := by
  constructor <;> simp [pool, lost]

theorem report_empty (gen : Generation) (pool : gen.pool = {}) (lost : gen.lost = []) :
    gen.report = ⟨if gen.credentials.isSome then .trying else .notConfigured, ""⟩ := by
  cases credentials : gen.credentials <;> simp [report, pool, lost, credentials]

variable {gen : Generation}

theorem report_slots {next : Generation}
    (slots : next.pool.slots.map (·.id) = gen.pool.slots.map (·.id))
    (credentials : next.credentials = gen.credentials) (lost : next.lost = gen.lost) :
    next.report = gen.report := by
  have same : next.pool.slots.isEmpty = gen.pool.slots.isEmpty := by
    simpa using congrArg List.isEmpty slots
  rw [report, report, same, credentials, lost]

theorem Tidy.repool (tidy : gen.Tidy) {pool : Pool}
    (slots : pool.slots.map (·.id) = gen.pool.slots.map (·.id))
    (nextId : pool.nextId = gen.pool.nextId) : { gen with pool }.Tidy := by
  have known {s : Slot} (member : s ∈ pool.slots) : ∃ o ∈ gen.pool.slots, o.id = s.id :=
    List.mem_map.mp (slots ▸ List.mem_map_of_mem member)
  refine ⟨fun s member => ?_, fun e member => ⟨?_, fun s inside => ?_⟩, fun filled => ?_⟩
  · obtain ⟨o, inside, same⟩ := known member
    exact same ▸ nextId ▸ tidy.slots o inside
  · exact nextId ▸ (tidy.lost e member).1
  · obtain ⟨o, inside, same⟩ := known inside
    exact same ▸ (tidy.lost e member).2 o inside
  · refine tidy.configured (filled.imp_left fun filled empty => filled ?_)
    simpa [empty] using slots

theorem Tidy.insert (tidy : gen.Tidy) (configured : gen.credentials.isSome) (session : Nat) :
    { gen with pool := (gen.pool.insert session).1 }.Tidy := by
  refine ⟨fun s member => ?_, fun e member => ?_, fun _ => configured⟩
  · rcases List.mem_append.mp member with old | new
    · exact (tidy.slots s old).trans (Nat.le_succ _)
    · rw [List.mem_singleton.mp new]
      exact Nat.le_refl _
  · obtain ⟨below, apart⟩ := tidy.lost e member
    refine ⟨below.trans (Nat.le_succ _), fun s inside => ?_⟩
    rcases List.mem_append.mp inside with old | new
    · exact apart s old
    · rw [List.mem_singleton.mp new]
      exact (Nat.lt_succ_of_le below).ne'

theorem Tidy.trip_lost (tidy : gen.Tidy) {slot : Nat} (leased : slot ∈ gen.pool.slots.map (·.id))
    (text : String) : (gen.trip slot text).lost = gen.lost ++ [(slot, text)] := by
  have unknown : gen.lostText? slot = none := by
    refine List.lookup_eq_none_iff.mpr fun e member => ?_
    obtain ⟨s, inside, rfl⟩ := List.mem_map.mp leased
    simpa using (tidy.lost e member).2 s inside
  simp [trip, unknown]

theorem Tidy.retire (tidy : gen.Tidy) {slot : Nat} (leased : slot ∈ gen.pool.slots.map (·.id))
    (text : String) :
    { gen.trip slot text with pool := (gen.pool.remove slot).1 }.Tidy := by
  have credentials : (gen.trip slot text).credentials = gen.credentials := by
    unfold trip
    split <;> rfl
  have left {s : Slot} (member : s ∈ (gen.pool.remove slot).1.slots) :
      s ∈ gen.pool.slots ∧ s.id ≠ slot := by
    simpa [Pool.remove, Pool.notify] using member
  refine ⟨fun s member => tidy.slots s (left member).1, fun e member => ?_, fun _ => ?_⟩
  · rw [tidy.trip_lost leased] at member
    rcases List.mem_append.mp member with old | new
    · exact ⟨(tidy.lost e old).1, fun s inside => (tidy.lost e old).2 s (left inside).1⟩
    · obtain ⟨s, inside, same⟩ := List.mem_map.mp leased
      rw [List.mem_singleton.mp new]
      exact ⟨same ▸ tidy.slots s inside, fun s inside => (left inside).2⟩
  · obtain ⟨s, inside, -⟩ := List.mem_map.mp leased
    exact credentials ▸ tidy.configured (.inl (List.ne_nil_of_mem inside))

theorem Tidy.report_retire (tidy : gen.Tidy) {slot : Nat}
    (leased : slot ∈ gen.pool.slots.map (·.id)) (text : String) :
    { gen.trip slot text with pool := (gen.pool.remove slot).1 }.report =
      if (gen.pool.remove slot).2 then ⟨.trying, text⟩ else gen.report := by
  have filled : gen.pool.slots ≠ [] := by
    obtain ⟨s, inside, -⟩ := List.mem_map.mp leased
    exact List.ne_nil_of_mem inside
  have credentials : (gen.trip slot text).credentials = gen.credentials := by
    unfold trip
    split <;> rfl
  have last : (gen.pool.remove slot).2 = (gen.pool.remove slot).1.slots.isEmpty := rfl
  simp [report, tidy.trip_lost leased, credentials, tidy.configured (.inl filled), filled, last]

end Tunnel.Generation

namespace Tunnels

-- A current generation that is not cancelled is spoken of as it is.
structure Truthful (t : Tunnels) (scopes : Scopes) : Prop where
  tidy : ∀ gen ∈ t.generations, gen.Tidy
  told : ∀ gen, t.generation? t.current = some gen → scopes.isCancelled gen.scope = false →
    t.connectivity = gen.report

variable {works : Nat → Prop} {scopes : Scopes} {t next : Tunnels}

theorem initial_truthful (scope : Scope) : (initial scope).Truthful scopes := by
  constructor
  · intro gen member
    obtain rfl := List.mem_singleton.mp member
    exact Generation.tidy_empty _ rfl rfl
  · intro gen found _
    cases found
    rfl

theorem said_current {gen : Generation} (found : t.generation? t.current = some gen)
    (alive : scopes.isCancelled gen.scope = false) (state : Stats.TunnelState) (info : String) :
    t.said scopes t.current state info = ⟨state, info⟩ := by
  simp [said, speaks, isCancelled, found, alive]

theorem said_other {g : Nat} (other : g ≠ t.current) (state : Stats.TunnelState) (info : String) :
    t.said scopes g state info = t.connectivity := by
  simp [said, speaks, other]

theorem Truthful.set (truthful : t.Truthful scopes) {g : Nat} {gen fresh : Generation}
    {connectivity : Stats.Connectivity} (found : t.generation? g = some gen)
    (scope : fresh.scope = gen.scope) (tidy : gen.Tidy → fresh.Tidy)
    (other : g ≠ t.current → connectivity = t.connectivity)
    (told : g = t.current → scopes.isCancelled gen.scope = false →
      (gen.Tidy → t.connectivity = gen.report → connectivity = fresh.report)) :
    { t with generations := t.generations.set g fresh, connectivity }.Truthful scopes := by
  have inside : g < t.generations.length := (List.getElem?_eq_some_iff.mp found).1
  have before := truthful.tidy gen (List.mem_of_getElem? found)
  constructor
  · intro o member
    rcases List.mem_or_eq_of_mem_set member with old | rfl
    · exact truthful.tidy o old
    · exact tidy before
  · intro o current alive
    simp only [generation?, List.getElem?_set] at current
    by_cases same : g = t.current
    · simp only [same, if_pos, same ▸ inside] at current
      cases current
      rw [scope] at alive
      exact told same alive before (truthful.told gen (same ▸ found) alive)
    · simp only [if_neg same] at current
      rw [other same]
      exact truthful.told o current alive

theorem Step.truthful (step : t.Step works scopes next) (truthful : t.Truthful scopes) :
    next.Truthful scopes := by
  cases step with
  | repool g gen pool found slots nextId =>
    have report : { gen with pool }.report = gen.report := Generation.report_slots slots rfl rfl
    exact truthful.set found rfl (·.repool slots nextId) (fun _ => rfl)
      fun _ _ _ told => told.trans report.symm
  | arrive g gen session found _ configured =>
    refine truthful.set found rfl (·.insert configured session) (said_other · _ _) ?_
    rintro rfl alive - -
    rw [said_current found alive]
    simp [Generation.report, Pool.insert, Pool.notify]
  | retire g gen slot text found _ leased =>
    refine truthful.set found (World.trip_keeps gen slot text).1 (·.retire leased text) ?_ ?_
    · intro other
      rw [said_other other, ite_self]
    · rintro rfl alive tidy told
      rw [tidy.report_retire leased, said_current found alive, told]
  | openStream => exact ⟨truthful.tidy, truthful.told⟩
  | changeStream => exact ⟨truthful.tidy, truthful.told⟩
  | endWatch => exact ⟨truthful.tidy, truthful.told⟩

end Tunnels

namespace Core.Effect

variable {terms : Terms} {c next : Core}

theorem truthful (effect : c.Effect terms next) (truthful : c.tunnels.Truthful c.scopes) :
    next.tunnels.Truthful next.scopes := by
  cases effect with
  | traffic => exact truthful
  | tunnels step => exact step.truthful truthful
  | scopes next _ cancelled =>
    refine ⟨truthful.tidy, fun gen found alive => truthful.told gen found ?_⟩
    by_contra gone
    rw [cancelled _ (by simpa using gone)] at alive
    cases alive
  | replace gen fresh found work scope pool lost =>
    constructor
    · intro o member
      rcases List.mem_append.mp member with old | new
      · exact truthful.tidy o old
      · rw [List.mem_singleton.mp new]
        exact fresh.tidy_empty pool lost
    · intro o current _
      obtain rfl : fresh = o := by simpa [Tunnels.generation?] using current
      exact (fresh.report_empty pool lost).symm
  | addCall => exact truthful
  | setCall => exact truthful
  | endCall => exact truthful

theorem unheard (effect : c.Effect terms next) {g : Nat} (work : ∀ o, terms.works o → o = g)
    (inside : g < c.tunnels.generations.length)
    (silent : c.tunnels.speaks c.scopes g = false) :
    next.tunnels.connectivity = c.tunnels.connectivity ∧
      g < next.tunnels.generations.length ∧ next.tunnels.speaks next.scopes g = false := by
  have set {gen fresh : Generation} {o : Nat} {connectivity : Stats.Connectivity}
      (found : c.tunnels.generation? o = some gen) (scope : fresh.scope = gen.scope) :
      g < (c.tunnels.generations.set o fresh).length ∧
        Tunnels.speaks
          { c.tunnels with generations := c.tunnels.generations.set o fresh, connectivity }
          c.scopes g = false :=
    ⟨by simpa using inside, (Tunnels.speaks_set found scope connectivity g).trans silent⟩
  cases effect with
  | traffic => exact ⟨rfl, inside, silent⟩
  | tunnels step =>
    cases step with
    | repool o gen pool found => exact ⟨rfl, set found rfl⟩
    | arrive o gen session found working =>
      obtain rfl := work o working
      refine ⟨?_, set found rfl⟩
      simp [Tunnels.said, silent]
    | retire o gen slot text found working =>
      obtain rfl := work o working
      refine ⟨?_, set found (World.trip_keeps gen slot text).1⟩
      simp [Tunnels.said, silent]
    | openStream => exact ⟨rfl, inside, silent⟩
    | changeStream => exact ⟨rfl, inside, silent⟩
    | endWatch => exact ⟨rfl, inside, silent⟩
  | scopes later _ cancelled =>
    refine ⟨rfl, inside, ?_⟩
    simp only [Tunnels.speaks, Bool.and_eq_false_imp] at silent ⊢
    intro current
    have gone := silent current
    simp only [Tunnels.isCancelled, Bool.not_eq_false', Option.all_eq_true] at gone ⊢
    exact fun gen found => cancelled gen.scope (gone gen found)
  | replace gen fresh found working =>
    exact absurd (work _ working) inside.ne'
  | addCall => exact ⟨rfl, inside, silent⟩
  | setCall => exact ⟨rfl, inside, silent⟩
  | endCall => exact ⟨rfl, inside, silent⟩

end Core.Effect

namespace World

def dialFor? (w : World) (id : String) : Option Nat :=
  match w.call? id with
  | some (.dial d) => some ((dialGeneration? (.dial d)).getD w.current)
  | _ => none

-- The generation that a move is a step for: the watch of one of its sessions takes it, or a dial
-- through it.
def worksFor? (w : World) : Move → Option Nat
  | .poll (.sessionWatch i) | .disconnect i => (w.sessionWatches[i]?).map (·.generation)
  | .poll (.call id) | .withdraw id | .answer id _ | .abandon id => w.dialFor? id
  | _ => none

variable {lost : Nat → Multiset Stake} {w next : World} {terms : Terms} {g : Nat}

theorem exists_dialFor {id : String} (works : w.dialFor? id = some g) :
    ∃ d, w.call? id = some (.dial d) ∧ (dialGeneration? (.dial d)).getD w.current = g := by
  unfold dialFor? at works
  split at works
  next d found => exact ⟨d, found, Option.some.inj works⟩
  next => cases works

theorem lt_of_dialFor (regular : w.Regular) {id : String} (works : w.dialFor? id = some g) :
    g < w.generations.length := by
  obtain ⟨⟨scope, network, address, stage⟩, found, rfl⟩ := exists_dialFor works
  cases stage with
  | fresh carrier => exact regular.current_lt
  | connecting c boxed => exact regular.current_lt
  | tunneling t boxed => exact (regular.tunnelDial_fits found rfl).2

theorem lt_of_worksFor (regular : w.Regular) {m : Move} (works : w.worksFor? m = some g) :
    g < w.generations.length := by
  have watched {i : Nat} (works : (w.sessionWatches[i]?).map (·.generation) = some g) :
      g < w.generations.length := by
    obtain ⟨watch, found, rfl⟩ := Option.map_eq_some_iff.mp works
    exact (regular.watches watch (List.mem_of_getElem? found)).1
  unfold worksFor? at works
  split at works
  · exact watched works
  · exact watched works
  · exact lt_of_dialFor regular works
  · exact lt_of_dialFor regular works
  · exact lt_of_dialFor regular works
  · exact lt_of_dialFor regular works
  · cases works

theorem worksFor_effects (sound : Sound lost w) (proper : w.core.Proper) {m : Move}
    (allowed : w.allows m) (works : w.worksFor? m = some g) :
    Effects ⟨fun _ => False, (· = g), fun _ => False⟩ w (w.move m) := by
  have regular := sound.regular
  have watched {i : Nat} (works : (w.sessionWatches[i]?).map (·.generation) = some g)
      (watch : SessionWatch) (found : w.sessionWatches[i]? = some watch) : watch.generation = g := by
    simpa [found] using works
  unfold worksFor? at works
  split at works
  next i => exact pollSessionWatch_effects sound (watched works) allowed
  next i => exact disconnect_effects sound (watched works)
  next id =>
    obtain ⟨d, found, same⟩ := exists_dialFor works
    have polled : w.move (.poll (.call id)) = w.pollDial id d := by
      simp only [move, poll, pollCall, found]
    rw [polled]
    exact pollDial_effects found regular proper same
  next id =>
    exact advance_effects regular id _ (fun d fits => w.withdraw_serves d fits)
      w.withdraw_dial_effects fun d _ => w.withdraw_link d
  next id mode =>
    exact advance_effects regular id _ (fun d fits => w.answer_serves d fits mode)
      (fun d => w.answer_effects d mode) fun d _ => w.answer_link d mode
  next id => exact abandon_effects id
  next => cases works

theorem Effects.unheard (effects : Effects terms w next) (work : ∀ o, terms.works o → o = g)
    (inside : g < w.generations.length) (silent : w.tunnels.speaks w.scopes g = false) :
    next.connectivity = w.connectivity := by
  have all := effects.keeps
    (p := fun c => c.tunnels.connectivity = w.connectivity ∧ g < c.tunnels.generations.length ∧
      c.tunnels.speaks c.scopes g = false)
    (fun effect ⟨same, inside, silent⟩ =>
      have ⟨still, inside, silent⟩ := effect.unheard work inside silent
      ⟨still.trans same, inside, silent⟩)
    ⟨rfl, inside, silent⟩
  exact all.1

theorem closeSession_tunnels (session : Nat) :
    (w.closeSession session).tunnels = w.tunnels ∧
      (w.closeSession session).scopes = w.scopes := by
  unfold closeSession
  dsimp only
  split
  next x _ =>
    have side := (w.closeConnection_beside x.link none).side
    have tunnels : (w.closeConnection x.link none).tunnels = w.tunnels := tunnels_of_side side
    have scopes : (w.closeConnection x.link none).scopes = w.scopes := congrArg (·.scopes) side
    exact ⟨tunnels, scopes⟩
  next => exact ⟨rfl, rfl⟩

theorem endSession_told {index : Nat} {watch : SessionWatch} {text : String}
    (current : watch.generation = w.current)
    (alive : w.isGenerationCancelled w.current = false)
    (last : ((w.endSession index watch text).pool w.current).slots = []) :
    (w.endSession index watch text).connectivity = ⟨.trying, text⟩ := by
  obtain ⟨tunnels, scopes⟩ := w.closeSession_tunnels watch.session
  rw [endSession_eq] at last ⊢
  generalize w.closeSession watch.session = closed at last tunnels scopes ⊢
  obtain ⟨gen, found, alive⟩ :
      ∃ gen, w.generation? w.current = some gen ∧ w.isCancelled gen.scope = false := by
    cases found : w.generation? w.current with
    | none => simp [isGenerationCancelled, found] at alive
    | some gen => exact ⟨gen, rfl, by simpa [isGenerationCancelled, found] using alive⟩
  have found' : closed.tunnels.generation? watch.generation = some gen := by
    rw [tunnels, current]
    exact found
  have inside : watch.generation < closed.generations.length :=
    (List.getElem?_eq_some_iff.mp found').1
  obtain ⟨bus, core, -⟩ := closed.retire_core index text found'
  have generations : (closed.retire index watch text).generations = _ :=
    congrArg (·.tunnels.generations) core
  have connectivity : (closed.retire index watch text).connectivity = _ :=
    congrArg (·.tunnels.connectivity) core
  have empty : (gen.pool.remove watch.slot).2 := by
    rw [World.pool, generation?, generations, ← current] at last
    simpa [inside, Pool.remove, Pool.notify] using last
  rw [connectivity, if_pos empty, tunnels, scopes, current]
  exact Tunnels.said_current (t := w.tunnels) found alive .trying text

theorem pollSessionWatch_ends {index : Nat} {watch : SessionWatch} {text : String}
    (found : w.sessionWatches[index]? = some watch)
    (ended : w.sessionEnd? watch.session = some text) :
    w.poll (.sessionWatch index) = w.endSession index watch text := by
  simp only [poll, pollSessionWatch, found, ended]

-- What the tunnel is said to be like is what this generation is like.
structure Reports (w : World) (gen : Generation) : Prop where
  notConfigured : w.connectivity.state = .notConfigured ↔ gen.credentials = none
  established : w.connectivity.state = .established ↔ gen.pool.slots ≠ []
  trying : w.connectivity.state = .trying ↔ gen.credentials.isSome ∧ gen.pool.slots = []
  -- Without a session, the text is that of the last one to end.
  info : gen.pool.slots = [] → ∀ slot text, gen.lost.getLast? = some (slot, text) →
    w.connectivity = ⟨.trying, text⟩

theorem reports_of_eq {gen : Generation} (tidy : gen.Tidy) (told : w.connectivity = gen.report) :
    w.Reports gen := by
  have configured := tidy.configured
  unfold Generation.report at told
  cases slots : gen.pool.slots with
  | cons s rest =>
    have credentials : gen.credentials.isSome := configured (.inl (by simp [slots]))
    have told : w.connectivity = ⟨.established, ""⟩ := by simpa [slots] using told
    constructor <;> simp [told, slots, Option.isSome_iff_ne_none.mp credentials]
  | nil =>
    cases credentials : gen.credentials with
    | none =>
      have told : w.connectivity = ⟨.notConfigured, ""⟩ := by
        simpa [slots, credentials] using told
      have lost : gen.lost = [] := by simpa [slots, credentials] using configured
      constructor <;> simp [told, slots, credentials, lost]
    | some known =>
      have told : w.connectivity = ⟨.trying, (gen.lost.getLast?.map (·.2)).getD ""⟩ := by
        simpa [slots, credentials] using told
      constructor <;> simp +contextual [told, slots, credentials]

end World

namespace Scenario.Setup

variable {s : Setup} {only : Move → Prop} {w : World}

-- What the tunnel is said to be like is what the pool of its current generation is like, as long as
-- that generation is not cancelled. Why its last session ended is told when it does, and nobody who
-- works for a generation that is cancelled or has been replaced is heard.
theorem Reaches.reports (reached : s.Reaches only w) :
    (∀ gen, w.generation? w.current = some gen → w.isCancelled gen.scope = false →
      w.Reports gen) ∧
    (∀ index watch text, w.sessionWatches[index]? = some watch → watch.generation = w.current →
      w.isGenerationCancelled w.current = false → w.sessionEnd? watch.session = some text →
      ((w.poll (.sessionWatch index)).pool w.current).slots = [] →
      (w.poll (.sessionWatch index)).connectivity = ⟨.trying, text⟩) ∧
    ∀ m g, w.allows m → w.worksFor? m = some g →
      g ≠ w.current ∨ w.isGenerationCancelled g →
      (w.move m).connectivity = w.connectivity := by
  obtain ⟨lost, loses⟩ := reached.anyhow
  have truthful : w.tunnels.Truthful w.scopes :=
    loses.keeps (p := fun scopes t => t.Truthful scopes)
      (fun _ scope => Tunnels.initial_truthful scope) fun effect => effect.truthful
  refine ⟨fun gen found alive => ?_, fun index watch text found current alive ended last => ?_,
    fun m g allowed works gone => ?_⟩
  · have tidy := truthful.tidy gen (List.mem_of_getElem? found)
    exact World.reports_of_eq tidy (truthful.told gen found alive)
  · rw [World.pollSessionWatch_ends found ended] at last ⊢
    exact World.endSession_told current alive last
  · have effects := World.worksFor_effects loses.sound loses.proper allowed works
    refine effects.unheard (fun _ same => same) (World.lt_of_worksFor loses.sound.regular works) ?_
    have speaks : w.tunnels.speaks w.scopes g =
        (decide (g = w.current) && !w.isGenerationCancelled g) := rfl
    rw [speaks]
    rcases gone with replaced | cancelled
    · simp [replaced]
    · simp [cancelled]

def deserted : World :=
  streaming.along
    [fun w => .script
        { w.script with
          sessions := w.script.sessions.map fun s => { s with killed := some "gone" } }]

def outpaced : World :=
  deserted.along
    [fun _ => .reconnect "r" { addr := "127.0.0.1:23", login := "u", password := "p" },
      fun _ => .poll (.call "r")]

theorem reports_deserted :
    deserted.connectivity.state = .established ∧
      (deserted.poll (.sessionWatch 0)).connectivity = ⟨.trying, "gone"⟩ ∧
      outpaced.connectivity = ⟨.trying, ""⟩ ∧
      (outpaced.move (.poll (.sessionWatch 0))).connectivity = ⟨.trying, ""⟩ := by
  have before : small.Reaches Move.Driven streaming := World.run_along (by decide +kernel)
  have reached : small.Reaches Move.Driven deserted :=
    before.trans (World.run_along (by decide +kernel))
  have later : small.Reaches Move.Driven outpaced :=
    reached.trans (World.run_along (by decide +kernel))
  obtain ⟨gen, found⟩ := Option.isSome_iff_exists.mp
    (by decide +kernel : (deserted.generation? deserted.current).isSome)
  obtain ⟨watch, watched⟩ := Option.isSome_iff_exists.mp
    (by decide +kernel : deserted.sessionWatches[0]?.isSome)
  have facts : (deserted.generation? deserted.current).all (fun g =>
        !deserted.isCancelled g.scope && !g.pool.slots.isEmpty) ∧
      deserted.sessionWatches[0]?.all (fun x => x.generation = deserted.current &&
        deserted.sessionEnd? x.session = some "gone") := by decide +kernel
  simp only [found, watched, Option.all_some, Bool.and_eq_true, Bool.not_eq_true',
    decide_eq_true_eq, List.isEmpty_eq_false_iff] at facts
  obtain ⟨⟨alive, filled⟩, current, ended⟩ := facts
  have reports := reached.reports
  refine ⟨(reports.1 gen found alive).established.mpr filled, ?_, by decide +kernel, ?_⟩
  · exact reports.2.1 0 watch "gone" watched current (by decide +kernel) ended (by decide +kernel)
  · have trying : outpaced.connectivity = ⟨.trying, ""⟩ := by decide +kernel
    rw [← trying]
    exact later.reports.2.2 (.poll (.sessionWatch 0)) 1 (by decide +kernel) (by decide +kernel)
      (.inl (by decide +kernel))

end Scenario.Setup

end Egress
