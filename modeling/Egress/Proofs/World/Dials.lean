import Egress.Proofs.World.Turns

set_option autoImplicit false

namespace Egress

open Simulation Tunnel

def Progress.hand : Progress TunnelDial → Hand
  | .waiting d => .stake d.stage.stake
  | .failed _ | .done _ => .empty

def TunnelDial.isOpening (d : TunnelDial) : Bool :=
  match d.stage with
  | .opening _ _ => true
  | _ => false

theorem TunnelDial.Fits.goesOn {f : Frame} {d : TunnelDial} (fits : d.Fits f) (stage : TunnelStage)
    (unlinked : ∀ link, stage ≠ .linking link) : ({ d with stage } : TunnelDial).Fits f := by
  obtain ⟨gen, found, credentials, -⟩ := fits
  exact ⟨gen, found, credentials, fun link same => absurd same (unlinked link)⟩

namespace World

-- A step of the dial `d` that has `a` in hand at first. A dial that goes on is still the same dial,
-- and no stream comes but with success.
structure Serves (d : TunnelDial) (a : Hand) (w : World) (r : World × Progress TunnelDial) :
    Prop where
  turn : Turn d.generation a r.2.hand w r.1
  waits : ∀ next, r.2 = .waiting next →
    next.generation = d.generation ∧ next.scope = d.scope ∧ next.Fits w.frame
  streamless : (∀ id, r.2 ≠ .done id) → r.1.streams = w.streams

namespace Serves

variable {d : TunnelDial} {a b : Hand} {u w : World} {r : World × Progress TunnelDial}

theorem after (turn : Turn d.generation a b w u) (streams : u.streams = w.streams)
    (h : Serves d b u r) : Serves d a w r where
  turn := turn.trans h.turn
  waits next same := turn.frame ▸ h.waits next same
  streamless unfinished := (h.streamless unfinished).trans streams

theorem level (level : Level w u) (h : Serves d a u r) : Serves d a w r :=
  h.after (level.turn _ a) level.streams

theorem waiting (stage : TunnelStage) (level : Level w u)
    (fits : ({ d with stage } : TunnelDial).Fits w.frame) :
    Serves d (.stake stage.stake) w (u, .waiting { d with stage }) where
  turn := level.turn _ _
  waits := by
    rintro _ ⟨⟩
    exact ⟨rfl, rfl, fits⟩
  streamless _ := level.streams

theorem still (fits : d.Fits w.frame) : Serves d (.stake d.stage.stake) w (w, .waiting d) :=
  waiting d.stage (Beside.refl w).level fits

theorem failed {failure : DialFailure} (turn : Turn d.generation a .empty w u)
    (streams : u.streams = w.streams) : Serves d a w (u, .failed failure) where
  turn := turn
  waits := by simp
  streamless _ := streams

end Serves

variable (w : World) (d : TunnelDial)

theorem endLease_serves (lease : Lease) (failure : DialFailure) :
    Serves d (.stake (.leasing lease.slot)) w (w.endLease d lease failure) :=
  .failed (w.release_turn d.generation lease.slot) rfl

theorem answerOpen_serves (fits : d.Fits w.frame) (lease : Lease) (mode : Mode) :
    Serves d (.stake (.leasing lease.slot)) w (w.answerOpen d lease mode) := by
  cases mode with
  | ok =>
    refine ⟨w.streamOpened_turn d lease, by simp [answerOpen, streamOpened], ?_⟩
    intro unfinished
    exact absurd rfl (unfinished w.streams.length)
  | fail failure => exact w.endLease_serves d lease _
  | stall =>
    have stalled := w.script_level w.script.waitToOpen.1 (.of_sessions rfl)
    exact .waiting (.opening lease w.script.waitToOpen.2) stalled (fits.goesOn _ (by simp))

theorem openStream_serves (fits : d.Fits w.frame) (lease : Lease) :
    Serves d (.stake (.leasing lease.slot)) w (w.openStream d lease) := by
  unfold openStream
  split_ifs
  · exact w.endLease_serves d lease _
  · exact w.endLease_serves d lease _
  · have noted := w.script_level
      (w.script.note (.opened lease.session d.network d.address)) (.of_sessions rfl)
    exact (answerOpen_serves _ d (noted.frame ▸ fits) lease _).level noted

theorem pollOpening_serves (fits : d.Fits w.frame) (lease : Lease) (ticket : Nat)
    (stage : d.stage = .opening lease ticket) :
    Serves d (.stake (.leasing lease.slot)) w (w.pollOpening d lease ticket) := by
  have left := w.script_level (w.script.leaveOpening ticket) (.of_sessions rfl)
  unfold pollOpening
  dsimp only
  split_ifs
  · exact (endLease_serves _ d lease _).level left
  · exact (endLease_serves _ d lease _).level left
  · split
    · exact (answerOpen_serves _ d (left.frame ▸ fits) lease _).level left
    · simpa only [stage, TunnelStage.stake] using Serves.still fits

theorem answerOpen_opening (lease : Lease) (mode : Mode) {next : TunnelDial}
    (waits : (w.answerOpen d lease mode).2 = .waiting next) : next.isOpening := by
  cases mode with
  | ok => cases waits
  | fail failure => cases waits
  | stall =>
    cases waits
    rfl

theorem pollTunnelDial_opening (opening : d.isOpening) {next : TunnelDial}
    (waits : (w.pollTunnelDial d).2 = .waiting next) : next.isOpening := by
  unfold pollTunnelDial at waits
  split at waits
  case h_4 lease ticket stage =>
    unfold pollOpening at waits
    dsimp only at waits
    split_ifs at waits
    · cases waits
    · cases waits
    · split at waits
      · exact answerOpen_opening _ d lease _ waits
      · cases waits
        exact opening
  all_goals
    rename_i stage
    simp [TunnelDial.isOpening, stage] at opening

theorem withdraw_opening (opening : d.isOpening) {next : TunnelDial}
    (waits : (w.withdraw d).2 = .waiting next) : next.isOpening := by
  unfold withdraw at waits
  split at waits
  next ticket stage => simp [TunnelDial.isOpening, stage] at opening
  next =>
    cases waits
    exact opening

theorem answer_opening (mode : Mode) (opening : d.isOpening) {next : TunnelDial}
    (waits : (w.answer mode d).2 = .waiting next) : next.isOpening := by
  unfold answer at waits
  split at waits
  next lease ticket stage =>
    split_ifs at waits
    · cases waits
      exact opening
    · exact answerOpen_opening _ d lease mode waits
  next =>
    cases waits
    exact opening

theorem endCreation_serves (failure : DialFailure) :
    Serves d (.stake .creating) w (w.endCreation d failure) :=
  .failed (w.creationFailed_turn d.generation) rfl

theorem dropLink_serves (link : Nat) (failure : DialFailure) :
    Serves d (.stake .creating) w (w.dropLink d link failure) :=
  (endCreation_serves _ d failure).level (w.closeConnection_beside link none).level

theorem sessionArrived_serves (fits : d.Fits w.frame) (link : Nat) :
    Serves d (.stake .creating) w (w.sessionArrived d link) := by
  let g := d.generation
  let scripted : World := { w with script := (w.script.addSession link).1 }
  have added : Level w scripted := w.script_level _ (w.script.addSession_keeps link)
  let lease := ((w.pool g).insert (w.script.addSession link).2).2
  let filled := scripted.updatePool g fun _ =>
    ((w.pool g).insert (w.script.addSession link).2).1
  have inserted := scripted.insert_turn g (w.script.addSession link).2
  let spawned := filled.spawn (.sessionWatch filled.sessionWatches.length)
  have spawn := filled.spawn_beside (.sessionWatch filled.sessionWatches.length)
  let watch : SessionWatch :=
    { generation := g, slot := lease.slot, session := (w.script.addSession link).2 }
  have known : watch.session < spawned.script.sessions.length := by
    simp [watch, spawned, filled, scripted, World.spawn, updatePool, updateGeneration,
      Script.addSession]
  have watched := spawned.watchSession_turn watch rfl known {.leasing lease.slot}
  let ready : World := { spawned with sessionWatches := spawned.sessionWatches ++ [watch] }
  have published := ready.publish_level g .established ""
  have turn : Turn g (.stake .creating) (.stake (.leasing lease.slot)) w
      (ready.publish g .established "") :=
    ((((added.turn g _).trans inserted).trans (spawn.turn g _)).trans watched).trans
      (published.turn g _)
  have opened := (ready.publish g .established "").openStream_serves d (turn.frame ▸ fits) lease
  exact opened.after turn published.streams

theorem answerHandshake_serves (fits : d.Fits w.frame) (link : Nat) (mode : Mode) :
    Serves d (.stake .creating) w (w.answerHandshake d link mode) := by
  cases mode with
  | ok => exact w.sessionArrived_serves d fits link
  | fail failure => exact w.dropLink_serves d link _
  | stall =>
    have stalled := w.script_level w.script.waitToShake.1 (.of_sessions rfl)
    exact .waiting (.shaking link w.script.waitToShake.2) stalled (fits.goesOn _ (by simp))

theorem shake_serves (fits : d.Fits w.frame) (link : Nat) :
    Serves d (.stake .creating) w (w.shake d link) := by
  unfold shake
  split
  · exact w.dropLink_serves d link _
  next gen _ =>
    split
    · exact w.dropLink_serves d link _
    next credentials _ =>
      split_ifs
      · exact w.dropLink_serves d link _
      · have noted := w.script_level
          (w.script.note (.handshake gen.serverAddr gen.params.login credentials))
          (.of_sessions rfl)
        exact (answerHandshake_serves _ d (noted.frame ▸ fits) link _).level noted
      · exact w.answerHandshake_serves d fits link _

theorem pollShaking_serves (fits : d.Fits w.frame) (link ticket : Nat)
    (stage : d.stage = .shaking link ticket) :
    Serves d (.stake .creating) w (w.pollShaking d link ticket) := by
  have left := w.script_level (w.script.leaveShaking ticket) (.of_sessions rfl)
  unfold pollShaking
  dsimp only
  split_ifs
  · exact (dropLink_serves _ d link _).level left
  · split
    · exact (answerHandshake_serves _ d (left.frame ▸ fits) link _).level left
    · simpa only [stage, TunnelStage.stake] using Serves.still fits

theorem linked_serves (fits : d.Fits w.frame) (r : Progress Connecting)
    (request : ∀ link, r = .waiting link → ∀ gen, w.frame.generations[d.generation]? = some gen →
      link.request.counter = .tunnelSessions ∧ link.request.scope = gen.scope) :
    Serves d (.stake .creating) w (w.linked d r) := by
  cases r with
  | waiting link =>
    obtain ⟨gen, found, credentials, -⟩ := fits
    have goesOn : ({ d with stage := .linking link } : TunnelDial).Fits w.frame := by
      refine ⟨gen, found, credentials, ?_⟩
      rintro _ ⟨⟩
      exact request link rfl gen found
    exact .waiting (.linking link) (Beside.refl w).level goesOn
  | failed failure => exact w.endCreation_serves d failure
  | done link => exact w.shake_serves d fits link

theorem generation?_bare {g : Nat} {gen : Generation} (found : w.generation? g = some gen) :
    w.frame.generations[g]? = some gen.bare := by
  simp only [generation?] at found
  simp [frame, TunnelSide.frame, tunnelSide, found]

theorem createSession_serves (fits : d.Fits w.frame) :
    Serves d (.stake .creating) w (w.createSession d) := by
  unfold createSession
  split_ifs
  · exact w.endCreation_serves d _
  · split
    · exact w.endCreation_serves d _
    next gen found =>
      let request : ConnectRequest :=
        { scope := gen.scope, network := "tcp", address := gen.serverAddr,
          counter := .tunnelSessions }
      have begun := (w.beginConnect_beside request).level
      refine (linked_serves _ d (begun.frame ▸ fits) _ ?_).level begun
      intro link waits bare same
      rw [begun.frame, w.generation?_bare found] at same
      obtain rfl := Option.some.inj same
      rw [(w.beginConnect_waits waits).1]
      exact ⟨rfl, rfl⟩

theorem pollLinking_serves (fits : d.Fits w.frame) (link : Connecting)
    (stage : d.stage = .linking link) :
    Serves d (.stake .creating) w (w.pollLinking d link) := by
  obtain ⟨gen, found, -, linking⟩ := id fits
  obtain ⟨counter, scope⟩ := linking link stage
  unfold pollLinking
  split_ifs
  · exact (endCreation_serves _ d _).level (w.dropConnect_beside link).level
  · have polled := (w.pollConnect_beside link (by simp [counter])).level
    refine (linked_serves _ d (polled.frame ▸ fits) _ ?_).level polled
    intro next waits bare same
    rw [polled.frame, found] at same
    obtain rfl := Option.some.inj same
    rw [(w.pollConnect_waits waits).1]
    exact ⟨counter, scope⟩

theorem acquire_serves (fits : d.Fits w.frame) (first : Bool) {a : Hand}
    (admitted : Turn d.generation a
      (.stake ((w.pool d.generation).acquire w.settings.sessionCap first).2.stake) w
      (w.updatePool d.generation fun _ =>
        ((w.pool d.generation).acquire w.settings.sessionCap first).1)) :
    Serves d a w (w.acquire d first) := by
  have fits' := admitted.frame ▸ fits
  unfold acquire
  dsimp only
  cases admission : ((w.pool d.generation).acquire w.settings.sessionCap first).2 with
  | ready lease =>
    rw [admission] at admitted
    exact (openStream_serves _ d fits' lease).after admitted rfl
  | create =>
    rw [admission] at admitted
    exact (createSession_serves _ d fits').after admitted rfl
  | wait ticket =>
    rw [admission] at admitted
    split_ifs
    · exact .failed (admitted.trans (withdraw_turn _ d.generation ticket)) rfl
    · have waits := Serves.waiting (.waiting ticket) (Beside.refl _).level (fits'.goesOn _ (by simp))
      exact waits.after admitted rfl

theorem pollAdmission_serves (fits : d.Fits w.frame) (ticket : Nat)
    (stage : d.stage = .waiting ticket) :
    Serves d (.stake (.waiting ticket)) w (w.pollAdmission d ticket) := by
  unfold pollAdmission
  split_ifs
  · exact w.acquire_serves d fits false (w.retry_turn d.generation ticket)
  · exact .failed (w.withdraw_turn d.generation ticket) rfl
  · simpa only [stage, TunnelStage.stake] using Serves.still fits

theorem pollTunnelDial_serves (fits : d.Fits w.frame) :
    Serves d (.stake d.stage.stake) w (w.pollTunnelDial d) := by
  unfold pollTunnelDial
  cases stage : d.stage with
  | waiting ticket => exact w.pollAdmission_serves d fits ticket stage
  | linking link => exact w.pollLinking_serves d fits link stage
  | shaking link ticket => exact w.pollShaking_serves d fits link ticket stage
  | opening lease ticket => exact w.pollOpening_serves d fits lease ticket stage

theorem withdraw_serves (fits : d.Fits w.frame) :
    Serves d (.stake d.stage.stake) w (w.withdraw d) := by
  unfold withdraw
  split
  next ticket stage =>
    split_ifs
    · rw [stage]
      exact .failed (w.withdraw_turn d.generation ticket) rfl
    · simpa only [stage, TunnelStage.stake] using Serves.still fits
  next => exact .still fits

theorem answer_serves (fits : d.Fits w.frame) (mode : Mode) :
    Serves d (.stake d.stage.stake) w (w.answer mode d) := by
  unfold answer
  split
  next lease ticket stage =>
    rw [stage]
    split_ifs
    · simpa only [stage, TunnelStage.stake] using Serves.still fits
    · have left := w.script_level (w.script.leaveOpening ticket) (.of_sessions rfl)
      exact (answerOpen_serves _ d (left.frame ▸ fits) lease mode).level left
  next => exact .still fits

theorem beginTunnelDial_serves (current : w.current < w.generations.length) (scope : Scope)
    (network address : String) :
    Serves { generation := w.current, scope, network, address, stage := .waiting 0 } .empty w
      (w.beginTunnelDial scope network address) := by
  unfold beginTunnelDial
  dsimp only
  split_ifs with configured
  · exact .failed (.refl _ _ w) rfl
  · refine w.acquire_serves _ ?_ true (w.enter_turn w.current)
    have found : w.generation? w.current = some w.generations[w.current] :=
      List.getElem?_eq_getElem current
    refine ⟨_, w.generation?_bare found, ?_, by simp⟩
    simpa [found, Generation.bare, Option.isSome_iff_ne_none] using configured

theorem isGenerationCancelled_eq (g : Nat) : w.isGenerationCancelled g =
    (w.frame.generations[g]?).all fun gen => w.frame.scopes.isCancelled gen.scope := by
  simp [isGenerationCancelled, generation?, frame, TunnelSide.frame, tunnelSide, Option.all_map,
    isCancelled, Generation.bare]

theorem isGenerationCancelled_of_frame {w next : World} (same : next.frame = w.frame) (g : Nat) :
    next.isGenerationCancelled g = w.isGenerationCancelled g := by
  rw [isGenerationCancelled_eq, isGenerationCancelled_eq, same]

section Over

variable {w d} (gone : w.isGenerationCancelled d.generation)

include gone

theorem isDialCancelled_of_over : w.isDialCancelled d := by
  simp [isDialCancelled, gone]

theorem openStream_over (lease : Lease) : (w.openStream d lease).2 = .failed .canceled := by
  simp [openStream, isDialCancelled_of_over gone, endLease]

theorem createSession_over : (w.createSession d).2 = .failed .canceled := by
  unfold createSession
  split
  · rfl
  · split
    · rfl
    next gen found =>
      have cancelled : w.isCancelled gen.scope := by
        simpa [isGenerationCancelled, found] using gone
      simp [beginConnect, cancelled, linked, endCreation]

theorem acquire_over (first : Bool) : (w.acquire d first).2 = .failed .canceled := by
  unfold acquire
  dsimp only
  have gone' : (w.updatePool d.generation fun _ =>
      ((w.pool d.generation).acquire w.settings.sessionCap first).1).isGenerationCancelled
        d.generation :=
    (isGenerationCancelled_of_frame (w.updatePool_frame _ _) _).trans gone
  split
  · exact openStream_over gone' _
  · exact createSession_over gone'
  · simp [isDialCancelled_of_over gone']

theorem pollAdmission_over (ticket : Nat) : (w.pollAdmission d ticket).2 = .failed .canceled := by
  unfold pollAdmission
  split
  · exact acquire_over gone false
  · simp [isDialCancelled_of_over gone]

theorem pollLinking_over {link : Connecting} (fits : d.Fits w.frame)
    (stage : d.stage = .linking link) : (w.pollLinking d link).2 = .failed .canceled := by
  obtain ⟨gen, found, -, linking⟩ := fits
  obtain ⟨-, scope⟩ := linking link stage
  unfold pollLinking
  split
  · rfl
  · have cancelled : w.isCancelled link.request.scope := by
      rw [isGenerationCancelled_eq, found] at gone
      rw [scope]
      exact gone
    simp [pollConnect, cancelled, linked, endCreation]

theorem pollTunnelDial_over (fits : d.Fits w.frame) :
    (w.pollTunnelDial d).2 = .failed .canceled := by
  have cancelled := isDialCancelled_of_over gone
  unfold pollTunnelDial
  cases stage : d.stage with
  | waiting ticket => exact pollAdmission_over gone ticket
  | linking link => exact pollLinking_over gone fits stage
  | shaking link ticket => simp [pollShaking, cancelled, dropLink, endCreation]
  | opening lease ticket => simp [pollOpening, cancelled, endLease]

end Over

end World

end Egress
