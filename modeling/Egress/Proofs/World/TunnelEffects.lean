import Egress.Proofs.World.Effects

set_option autoImplicit false

namespace Egress

open Simulation Tunnel

namespace World

def Configured (w : World) (g : Nat) : Prop :=
  ∃ gen, w.generation? g = some gen ∧ gen.credentials.isSome

theorem configured_of_fits {w : World} {d : TunnelDial} (fits : d.Fits w.frame) :
    w.Configured d.generation := by
  obtain ⟨bare, found, credentials, -⟩ := fits
  simp only [frame, TunnelSide.frame, tunnelSide, List.getElem?_map,
    Option.map_eq_some_iff] at found
  obtain ⟨gen, found, rfl⟩ := found
  exact ⟨gen, found, credentials⟩

section Dials

variable {terms : Terms} (w : World) (d : TunnelDial)

theorem script_effects (script : Script) : Effects terms w { w with script } := .plain rfl

theorem endLease_effects (lease : Lease) (failure : DialFailure) :
    Effects terms w (w.endLease d lease failure).1 :=
  w.release_effects d.generation lease.slot

theorem streamOpened_effects (lease : Lease) : Effects terms w (w.streamOpened d lease).1 := by
  let stream : Stream :=
    { id := w.streams.length, address := d.address, generation := d.generation, slot := lease.slot,
      scope := d.scope, pipe := (w.script.addPipe lease.session d.address).2 }
  exact (w.raise_effects .countersChanged).trans
    (.tunnels (w := w.raise .countersChanged)
      (.openStream stream rfl (by simp [Stream.Orderly, stream])) rfl)

theorem answerOpen_effects (lease : Lease) (mode : Mode) :
    Effects terms w (w.answerOpen d lease mode).1 := by
  cases mode with
  | ok => exact w.streamOpened_effects d lease
  | fail failure => exact w.endLease_effects d lease _
  | stall => exact w.script_effects _

theorem openStream_effects (lease : Lease) : Effects terms w (w.openStream d lease).1 := by
  unfold openStream
  split_ifs
  · exact w.endLease_effects d lease _
  · exact w.endLease_effects d lease _
  · exact (w.script_effects _).trans (answerOpen_effects _ d lease _)

theorem pollOpening_effects (lease : Lease) (ticket : Nat) :
    Effects terms w (w.pollOpening d lease ticket).1 := by
  have left : Effects terms w _ := w.script_effects (w.script.leaveOpening ticket)
  unfold pollOpening
  dsimp only
  split_ifs
  · exact left.trans (endLease_effects _ d lease _)
  · exact left.trans (endLease_effects _ d lease _)
  · split
    · exact left.trans (answerOpen_effects _ d lease _)
    · exact .refl w

theorem endCreation_effects (failure : DialFailure) :
    Effects terms w (w.endCreation d failure).1 :=
  w.creationFailed_effects d.generation

theorem dropLink_effects (link : Nat) (failure : DialFailure) :
    Effects terms w (w.dropLink d link failure).1 :=
  (w.closeConnection_effects link none (by simp)).trans (endCreation_effects _ d failure)

section Working

variable (work : terms.works d.generation)

include work

theorem sessionArrived_effects (configured : w.Configured d.generation) (link : Nat) :
    Effects terms w (w.sessionArrived d link).1 := by
  obtain ⟨gen, found, credentials⟩ := configured
  have pool : w.pool d.generation = gen.pool := by simp [World.pool, found]
  let session := (w.script.addSession link).2
  let filled : World :=
    { w with script := (w.script.addSession link).1 }.updatePool d.generation fun _ =>
      ((w.pool d.generation).insert session).1
  let watch : SessionWatch :=
    { generation := d.generation, slot := ((w.pool d.generation).insert session).2.slot, session }
  let ready : World :=
    { filled.spawn (.sessionWatch filled.sessionWatches.length) with
      sessionWatches := filled.sessionWatches ++ [watch] }
  obtain ⟨bus, published, heard⟩ := ready.publish_eq d.generation .established ""
  have generations : ready.generations =
      w.generations.set d.generation { gen with pool := (gen.pool.insert session).1 } := by
    rw [← pool]
    exact modify_found found _
  have tunnels : ready.tunnels = { w.tunnels with generations := ready.generations } := rfl
  have arrived : Effects terms w
      { ready with connectivity := ready.tunnels.said ready.scopes d.generation .established "" } := by
    refine .tunnels (.arrive d.generation gen session found work credentials) ?_
    have said : ready.tunnels.said ready.scopes d.generation .established "" =
        w.tunnels.said w.scopes d.generation .established "" := by
      rw [tunnels, generations]
      exact Tunnels.said_set (t := w.tunnels) found rfl
    have core (connectivity : Stats.Connectivity) : { ready with connectivity }.core =
        { w.core with
          tunnels := { w.tunnels with generations := ready.generations, connectivity } } := rfl
    rw [core, said, generations]
    rfl
  have all := arrived.trans (heard_effects _ heard)
  rw [← published] at all
  exact all.trans (openStream_effects _ d _)

theorem answerHandshake_effects (configured : w.Configured d.generation) (link : Nat) (mode : Mode) :
    Effects terms w (w.answerHandshake d link mode).1 := by
  cases mode with
  | ok => exact w.sessionArrived_effects d work configured link
  | fail failure => exact w.dropLink_effects d link _
  | stall => exact w.script_effects _

theorem shake_effects (link : Nat) : Effects terms w (w.shake d link).1 := by
  unfold shake
  split
  · exact w.dropLink_effects d link _
  next gen found =>
    split
    · exact w.dropLink_effects d link _
    next credentials known =>
      have configured : w.Configured d.generation := ⟨gen, found, by simp [known]⟩
      let noted : World :=
        { w with script := w.script.note (.handshake gen.serverAddr gen.params.login credentials) }
      split_ifs
      · exact w.dropLink_effects d link _
      · exact (w.script_effects _).trans (noted.answerHandshake_effects d work configured link _)
      · exact w.answerHandshake_effects d work configured link _

theorem pollShaking_effects (configured : w.Configured d.generation) (link ticket : Nat) :
    Effects terms w (w.pollShaking d link ticket).1 := by
  let left : World := { w with script := w.script.leaveShaking ticket }
  have leaves : Effects terms w left := w.script_effects _
  unfold pollShaking
  dsimp only
  split_ifs
  · exact leaves.trans (left.dropLink_effects d link _)
  · split
    · exact leaves.trans (left.answerHandshake_effects d work configured link _)
    · exact .refl w

theorem linked_effects (r : Progress Connecting) : Effects terms w (w.linked d r).1 := by
  cases r with
  | waiting link => exact .refl w
  | failed failure => exact w.endCreation_effects d failure
  | done link => exact w.shake_effects d work link

theorem createSession_effects : Effects terms w (w.createSession d).1 := by
  unfold createSession
  split_ifs
  · exact w.endCreation_effects d _
  · split
    · exact w.endCreation_effects d _
    · exact (w.beginConnect_effects _).trans (linked_effects _ d work _)

theorem pollLinking_effects (link : Connecting)
    (wanted : w.core.Asks link.request.scope link.generation) :
    Effects terms w (w.pollLinking d link).1 := by
  unfold pollLinking
  split_ifs
  · exact (w.network_effects _).trans (endCreation_effects _ d _)
  · exact (w.pollConnect_effects link wanted).trans (linked_effects _ d work _)

theorem acquire_effects (first : Bool) : Effects terms w (w.acquire d first).1 := by
  have admitted : Effects terms w _ := w.admit_effects d.generation first
  unfold acquire
  dsimp only
  split
  · exact admitted.trans (openStream_effects _ d _)
  · exact admitted.trans (createSession_effects _ d work)
  · split_ifs
    · exact admitted.trans (withdraw_effects _ d.generation)
    · exact admitted

theorem pollAdmission_effects (ticket : Nat) :
    Effects terms w (w.pollAdmission d ticket).1 := by
  unfold pollAdmission
  split_ifs
  · exact w.acquire_effects d work false
  · exact w.withdraw_effects d.generation
  · exact .refl w

omit work in
theorem asks_of_fits {d : TunnelDial} {w : World} (fits : d.Fits w.frame) {link : Connecting}
    (stage : d.stage = .linking link)
    (connects : w.core.Connects link.request.scope link.generation) :
    w.core.Asks link.request.scope link.generation := by
  obtain ⟨bare, found, -, linking⟩ := fits
  obtain ⟨-, scope⟩ := linking link stage
  simp only [frame, TunnelSide.frame, tunnelSide, List.getElem?_map,
    Option.map_eq_some_iff] at found
  obtain ⟨gen, found, rfl⟩ := found
  exact ⟨connects, .inr ⟨gen, List.mem_of_getElem? found, scope.symm⟩⟩

theorem pollTunnelDial_effects (fits : d.Fits w.frame)
    (connects : ∀ link, d.link? = some link →
      w.core.Connects link.request.scope link.generation) :
    Effects terms w (w.pollTunnelDial d).1 := by
  unfold pollTunnelDial
  cases stage : d.stage with
  | waiting ticket => exact w.pollAdmission_effects d work ticket
  | linking link =>
    have connects := connects link (by simp [TunnelDial.link?, stage])
    exact w.pollLinking_effects d work link (asks_of_fits fits stage connects)
  | shaking link ticket => exact w.pollShaking_effects d work (configured_of_fits fits) link ticket
  | opening lease ticket => exact w.pollOpening_effects d lease ticket

end Working

theorem withdraw_dial_effects : Effects terms w (w.withdraw d).1 := by
  unfold withdraw
  split
  · split_ifs
    · exact w.withdraw_effects d.generation
    · exact .refl w
  · exact .refl w

theorem answer_effects (mode : Mode) : Effects terms w (w.answer mode d).1 := by
  unfold answer
  split
  · split_ifs
    · exact .refl w
    · exact (w.script_effects _).trans (answerOpen_effects _ d _ mode)
  · exact .refl w

theorem beginTunnelDial_effects (work : terms.works w.current) (scope : Scope)
    (network address : String) : Effects terms w (w.beginTunnelDial scope network address).1 := by
  unfold beginTunnelDial
  dsimp only
  split_ifs
  · exact .refl w
  · exact w.acquire_effects _ work true

end Dials

section Links

variable (w : World) (d : TunnelDial)

def linkOf? : Progress TunnelDial → Option Connecting
  | .waiting d => d.link?
  | _ => none

theorem answerOpen_link (lease : Lease) (mode : Mode) :
    linkOf? (w.answerOpen d lease mode).2 = none := by
  cases mode <;> rfl

theorem openStream_link (lease : Lease) : linkOf? (w.openStream d lease).2 = none := by
  unfold openStream
  split_ifs
  · rfl
  · rfl
  · exact answerOpen_link _ d lease _

theorem answerHandshake_link (link : Nat) (mode : Mode) :
    linkOf? (w.answerHandshake d link mode).2 = none := by
  cases mode with
  | ok => exact openStream_link _ d _
  | fail => rfl
  | stall => rfl

theorem shake_link (link : Nat) : linkOf? (w.shake d link).2 = none := by
  unfold shake
  split
  · rfl
  · split
    · rfl
    · split_ifs
      · rfl
      · exact answerHandshake_link _ d link _
      · exact answerHandshake_link _ d link _

theorem linked_link (r : Progress Connecting) {k : Connecting}
    (links : linkOf? (w.linked d r).2 = some k) : r = .waiting k := by
  cases r with
  | waiting link => rw [Option.some.inj links]
  | failed failure => cases links
  | done link =>
    have none := w.shake_link d link
    rw [linked, none] at links
    cases links

theorem createSession_link {k : Connecting} (links : linkOf? (w.createSession d).2 = some k) :
    k.generation = w.supervisor.generation := by
  unfold createSession at links
  split_ifs at links
  · cases links
  · split at links
    · cases links
    · exact (w.beginConnect_waits (linked_link _ d _ links)).2

theorem acquire_link (first : Bool) {k : Connecting}
    (links : linkOf? (w.acquire d first).2 = some k) : k.generation = w.supervisor.generation := by
  unfold acquire at links
  dsimp only at links
  split at links
  · rw [openStream_link] at links
    cases links
  · have begun := createSession_link _ d links
    exact begun
  · split_ifs at links <;> cases links

-- The connect that a dial awaits after a poll has just begun, or is the one it awaited before.
theorem pollTunnelDial_link {k : Connecting}
    (links : linkOf? (w.pollTunnelDial d).2 = some k) :
    k.generation = w.supervisor.generation ∨
      ∃ o, d.link? = some o ∧ o.generation = k.generation := by
  unfold pollTunnelDial at links
  cases stage : d.stage with
  | waiting ticket =>
    simp only [stage, pollAdmission] at links
    split_ifs at links
    · exact .inl (acquire_link w d false links)
    · cases links
    · simp [linkOf?, TunnelDial.link?, stage] at links
  | linking link =>
    simp only [stage, pollLinking] at links
    split_ifs at links
    · cases links
    · have same := (w.pollConnect_waits (linked_link _ d _ links)).2
      exact .inr ⟨link, by simp [TunnelDial.link?, stage], same.symm⟩
  | shaking link ticket =>
    simp only [stage, pollShaking] at links
    split_ifs at links
    · cases links
    · split at links
      · rw [answerHandshake_link] at links
        cases links
      · simp [linkOf?, TunnelDial.link?, stage] at links
  | opening lease ticket =>
    simp only [stage, pollOpening] at links
    split_ifs at links
    · cases links
    · cases links
    · split at links
      · rw [answerOpen_link] at links
        cases links
      · simp [linkOf?, TunnelDial.link?, stage] at links

theorem withdraw_link {k : Connecting} (links : linkOf? (w.withdraw d).2 = some k) :
    d.link? = some k := by
  unfold withdraw at links
  split at links
  · split_ifs at links
    · cases links
    · exact links
  · exact links

theorem answer_link (mode : Mode) {k : Connecting} (links : linkOf? (w.answer mode d).2 = some k) :
    d.link? = some k := by
  unfold answer at links
  split at links
  · split_ifs at links
    · exact links
    · rw [answerOpen_link] at links
      cases links
  · exact links

theorem beginTunnelDial_link (scope : Scope) (network address : String) {k : Connecting}
    (links : linkOf? (w.beginTunnelDial scope network address).2 = some k) :
    k.generation = w.supervisor.generation := by
  unfold beginTunnelDial at links
  dsimp only at links
  split_ifs at links
  · cases links
  · exact acquire_link w _ true links

end Links

section Sessions

variable {terms : Terms} (w : World)

theorem closeSession_effects (session : Nat) : Effects terms w (w.closeSession session) := by
  unfold closeSession
  dsimp only
  split
  · exact (w.closeConnection_effects _ none (by simp)).trans (script_effects _ _)
  · exact w.script_effects _

def retire (w : World) (index : Nat) (watch : SessionWatch) (text : String) : World :=
  let w := w.updateGeneration watch.generation (·.trip watch.slot text)
  let sessionWatches := w.sessionWatches.modify index fun s => { s with ended := true }
  let w := { w with sessionWatches }
  let (pool, last) := (w.pool watch.generation).remove watch.slot
  let w := w.updatePool watch.generation fun _ => pool
  if last then w.publish watch.generation .trying text else w

theorem endSession_eq (index : Nat) (watch : SessionWatch) (text : String) :
    w.endSession index watch text = (w.closeSession watch.session).retire index watch text := rfl

theorem trip_keeps (gen : Generation) (slot : Nat) (text : String) :
    (gen.trip slot text).scope = gen.scope ∧ (gen.trip slot text).pool = gen.pool := by
  unfold Generation.trip
  split <;> exact ⟨rfl, rfl⟩

theorem updatePool_updateGeneration {g : Nat} {gen : Generation} (found : w.generation? g = some gen)
    (f : Generation → Generation) (pool : Pool) :
    ((w.updateGeneration g f).updatePool g fun _ => pool).generations =
      w.generations.set g { f gen with pool } := by
  have first : (w.updateGeneration g f).generations = w.generations.set g (f gen) :=
    modify_found found f
  have found' : (w.updateGeneration g f).generations[g]? = some (f gen) := by
    refine (w.generation?_updateGeneration g f g).trans ?_
    simp [found]
  refine (modify_found found' _).trans ?_
  rw [first, List.set_set]

theorem retire_core {watch : SessionWatch} {gen : Generation} (index : Nat) (text : String)
    (found : w.generation? watch.generation = some gen) : ∃ bus,
    (w.retire index watch text).core =
      { w.core with
        traffic := { w.traffic with bus }
        tunnels :=
          { w.tunnels with
            generations :=
              w.generations.set watch.generation
                { gen.trip watch.slot text with pool := (gen.pool.remove watch.slot).1 }
            connectivity :=
              if (gen.pool.remove watch.slot).2 then
                w.tunnels.said w.scopes watch.generation .trying text
              else w.connectivity } } ∧
      (bus = w.bus ∨ bus = w.bus.raise .connStateChanged) := by
  let tripped : World :=
    { w.updateGeneration watch.generation (·.trip watch.slot text) with
      sessionWatches := w.sessionWatches.modify index fun s => { s with ended := true } }
  have own : tripped.pool watch.generation = gen.pool := by
    have found' : tripped.generation? watch.generation = some (gen.trip watch.slot text) := by
      refine (w.generation?_updateGeneration watch.generation _ _).trans ?_
      simp [found]
    rw [World.pool, found', Option.map_some, Option.getD_some, (trip_keeps gen _ _).2]
  let removed := tripped.updatePool watch.generation fun _ => (gen.pool.remove watch.slot).1
  have generations : removed.generations = _ :=
    w.updatePool_updateGeneration found (·.trip watch.slot text) (gen.pool.remove watch.slot).1
  have said : removed.tunnels.said removed.scopes watch.generation .trying text =
      w.tunnels.said w.scopes watch.generation .trying text := by
    have tunnels : removed.tunnels = { w.tunnels with generations := removed.generations } := rfl
    rw [tunnels, generations]
    exact Tunnels.said_set (t := w.tunnels) found (trip_keeps gen _ _).1
  have core (connectivity : Stats.Connectivity) (bus : Event.Bus) :
      { removed with connectivity, bus }.core =
        { w.core with
          traffic := { w.traffic with bus }
          tunnels := { w.tunnels with generations := removed.generations, connectivity } } := rfl
  have retired : w.retire index watch text =
      if (gen.pool.remove watch.slot).2 then removed.publish watch.generation .trying text
      else removed := by
    let outcome (pool : Pool) : World :=
      let left := tripped.updatePool watch.generation fun _ => (pool.remove watch.slot).1
      if (pool.remove watch.slot).2 then left.publish watch.generation .trying text else left
    exact congrArg outcome own
  rw [retired, ← generations]
  split
  · obtain ⟨bus, published, heard⟩ := removed.publish_eq watch.generation .trying text
    refine ⟨bus, ?_, heard⟩
    rw [published, core, said]
  · exact ⟨w.bus, core w.connectivity w.bus, .inl rfl⟩

theorem retire_effects (index : Nat) (watch : SessionWatch) (text : String)
    (work : terms.works watch.generation)
    (leased : watch.slot ∈ (w.pool watch.generation).slots.map (·.id)) :
    Effects terms w (w.retire index watch text) := by
  obtain ⟨gen, found⟩ : ∃ gen, w.generation? watch.generation = some gen := by
    cases found : w.generation? watch.generation with
    | some gen => exact ⟨gen, rfl⟩
    | none =>
      rw [World.pool, found] at leased
      cases leased
  have own : w.pool watch.generation = gen.pool := by rw [World.pool, found]; rfl
  rw [own] at leased
  obtain ⟨bus, core, heard⟩ := w.retire_core index text found
  have gone : Core.Effect terms w.core _ :=
    .tunnels (.retire watch.generation gen watch.slot text found work leased)
  unfold Effects
  rw [core]
  refine .trans (.single gone) ?_
  rcases heard with rfl | rfl
  · exact .refl
  · exact .single (.traffic (.raise .connStateChanged))

theorem endSession_effects (index : Nat) (watch : SessionWatch) (text : String)
    (work : terms.works watch.generation)
    (leased : watch.slot ∈ (w.pool watch.generation).slots.map (·.id)) :
    Effects terms w (w.endSession index watch text) := by
  have pool : (w.closeSession watch.session).pool watch.generation = w.pool watch.generation :=
    congrArg (·.pool) ((closeSession_level watch.session).standing watch.generation)
  rw [← pool] at leased
  rw [endSession_eq]
  exact (w.closeSession_effects watch.session).trans (retire_effects _ index watch text work leased)

end Sessions

theorem releaseStream_watches (w : World) (id : Nat) (streamWatches : List StreamWatch) :
    { w with streamWatches }.releaseStream id = { w.releaseStream id with streamWatches } := by
  simp only [releaseStream, stream?]
  split
  · simp only [putStream, updateStream]
    split_ifs <;> rfl
  · rfl

theorem over_of_cancelled {w : World} {g : Nat} (known : g < w.generations.length)
    (cancelled : w.isGenerationCancelled g) : w.tunnels.Over w.scopes g := by
  have found : w.generation? g = some w.generations[g] := List.getElem?_eq_getElem known
  refine ⟨_, found, ?_⟩
  simpa [isGenerationCancelled, isCancelled, found] using cancelled

theorem pollStreamWatch_effects {terms : Terms} {w : World} (regular : w.Regular) (index : Nat) :
    Effects terms w (w.pollStreamWatch index) := by
  unfold pollStreamWatch
  split
  · exact .refl w
  next watch found =>
    split
    · exact .refl w
    next s there =>
      -- Whatever the watch does, it may end then.
      have ended (u : World) (watches : u.streamWatches = w.streamWatches)
          (lapsed : ∀ t, u.stream? watch.stream = some t → t.held → t.owned → t.done = false →
            u.tunnels.Over u.scopes t.generation) :
          Effects terms u
            { u with
              streamWatches := u.streamWatches.modify index fun t => { t with ended := true } } := by
        refine .tunnels (.endWatch index fun x at_index t at_stream => ?_) rfl
        obtain rfl := Option.some.inj (at_index.symm.trans (watches ▸ found))
        exact lapsed t at_stream
      split
      · dsimp only
        split
        next lapsed =>
          refine ended w rfl fun t again _ _ undone => ?_
          obtain rfl := Option.some.inj (again.symm.trans there)
          have lapsed : t.done || w.isGenerationCancelled t.generation := lapsed
          have known := regular.streams t (List.mem_of_getElem? there)
          exact over_of_cancelled known (by simpa [undone] using lapsed)
        next =>
          split
          · have number := regular.stream_id w there
            have released := stream?_releaseStream regular there
            have watches : (w.releaseStream s.id).streamWatches = w.streamWatches :=
              (w.releaseStream_still s.id).streamWatches
            rw [releaseStream_watches, ← watches]
            refine (releaseStream_effects regular s.id).trans (ended _ watches fun t again held => ?_)
            rw [number, released] at again
            obtain rfl := Option.some.inj again
            cases held
          next unowned =>
            refine ended w rfl fun t again _ owned => ?_
            obtain rfl := Option.some.inj (again.symm.trans there)
            exact absurd owned unowned
      · exact .refl w

end World

end Egress
