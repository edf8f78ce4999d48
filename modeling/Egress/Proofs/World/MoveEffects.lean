import Egress.Proofs.World.CallEffects
import Egress.Proofs.World.Runs

set_option autoImplicit false

namespace Egress

open Simulation Tunnel

namespace World

section Tasks

variable {t : Terms} (w : World)

theorem tearDown_fanOuts (id : Nat) (reason : Option AbortReason) :
    (w.tearDown id reason).1.fanOuts = w.fanOuts := by
  unfold tearDown
  split
  · rfl
  · split <;> rfl

theorem tearDownAll_effects (ids : List Nat) (reason : Option AbortReason)
    (warranted : ∀ id ∈ ids, ∀ r, reason = some r → w.traffic.Warrants t.aborts id r) :
    Effects t w (w.tearDownAll ids reason) := by
  unfold tearDownAll
  induction ids generalizing w with
  | nil => exact .refl w
  | cons id rest ih =>
    refine (w.tearDown_effects id reason (warranted id (by simp))).trans (ih _ ?_)
    intro other member r same
    have warranted := warranted other (List.mem_cons_of_mem _ member) r same
    have same : (w.tearDown id reason).1.traffic.fanOuts = w.traffic.fanOuts :=
      tearDown_fanOuts w id reason
    rwa [Traffic.Warrants, same]

theorem runFanOut_effects (index : Nat) : Effects t w (w.runFanOut index) := by
  unfold runFanOut
  split
  next o found =>
    refine w.tearDownAll_effects o.ids o.reason fun id member r same => .inr ⟨o, ?_, same, member⟩
    exact List.mem_of_getElem? found
  next => exact .refl w

theorem pollAddressWatch_effects : Effects t w w.pollAddressWatch := by
  have ended (task : WatchTask) (stage : WatchStage) : Effects t w (w.endWatch task stage) :=
    .plain rfl
  unfold pollAddressWatch
  split
  · exact .refl w
  · split
    · split_ifs <;> exact ended _ _
    · split_ifs
      · exact ended _ _
      · dsimp only
        split
        · exact (ended _ _).trans (raise_effects _ _)
        · exact ended _ _
      · exact .refl w
    · exact .refl w
    · exact .refl w

end Tasks

end World

namespace Event.Worker

variable (x : Worker) (around : Surroundings)

@[simp]
theorem release_subscription (permits : Nat) : (x.release permits).subscription = x.subscription :=
  rfl

theorem start_subscription (k : Kind) : (x.start around k).1.subscription = x.subscription := by
  unfold start
  split <;> rfl

theorem step_subscription (b : Bus) : (x.step around b).1.subscription = x.subscription := by
  unfold step
  split
  · rfl
  · split
    · rfl
    · split
      · exact x.start_subscription around _
      · rfl
      · rfl

theorem step_bus (b : Bus) :
    (x.step around b).2.1 = b ∨ (x.step around b).2.1 = (b.receive x.subscription).1 ∨
      (x.step around b).2.1 = (b.receive x.subscription).1.abandon x.subscription := by
  unfold step
  split
  · exact .inl rfl
  · split
    · exact .inl rfl
    · split
      next result =>
        rw [result]
        dsimp only
        split
        · exact .inr (.inr (congrArg _ (x.start_subscription around _)))
        · exact .inr (.inl rfl)
      next result => exact .inr (.inl (by rw [result]))
      next result => exact .inr (.inr (by rw [result]))

end Event.Worker

namespace World

section Workers

variable {t : Terms} (w : World)

theorem stepWorker_listeners (index : Nat) :
    (w.stepWorker index).workers.map (·.subscription) = w.workers.map (·.subscription) := by
  unfold stepWorker
  split
  · rfl
  next worker found =>
    have same := worker.step_subscription w.surroundings w.bus
    obtain ⟨inside, rfl⟩ := List.getElem?_eq_some_iff.mp found
    apply List.ext_getElem?
    intro i
    simp only [List.getElem?_map, List.getElem?_set]
    by_cases hit : index = i
    · subst hit
      simp [inside, same]
    · simp [hit]

theorem stepWorker_effects (index : Nat)
    (others : w.supervisor.inbox ∉ w.workers.map (·.subscription)) :
    Effects t w (w.stepWorker index) := by
  have listeners := w.stepWorker_listeners index
  unfold stepWorker at listeners ⊢
  split at listeners
  next missing => exact .refl w
  next worker found =>
    have other : worker.subscription ≠ w.supervisor.inbox := by
      rintro same
      exact others (List.mem_map.mpr ⟨worker, List.mem_of_getElem? found, same⟩)
    have heard : Effects t w { w with bus := (worker.step w.surroundings w.bus).2.1 } := by
      let received : World := { w with bus := (w.bus.receive worker.subscription).1 }
      have receives : Effects t w received := .traffic (.receive worker.subscription other) rfl
      rcases worker.step_bus w.surroundings w.bus with same | same | same <;> rw [same]
      · exact .refl w
      · exact receives
      · exact receives.trans (.traffic (.abandon worker.subscription other) rfl)
    revert listeners heard
    generalize worker.step w.surroundings w.bus = r
    obtain ⟨x, bus, lines⟩ := r
    intro listeners heard
    refine heard.trans (.plain ?_)
    simp only [core, traffic, listeners]
    rfl

theorem pollWorker_effects (index : Nat)
    (others : w.supervisor.inbox ∉ w.workers.map (·.subscription)) :
    Effects t w (w.pollWorker index) := by
  have inbox (u : World) : (u.stepWorker index).supervisor = u.supervisor := by
    unfold stepWorker
    split <;> rfl
  unfold pollWorker
  induction List.range 3 generalizing w with
  | nil => exact .refl w
  | cons _ rest ih =>
    simp only [List.foldl_cons]
    split
    · refine (w.stepWorker_effects index others).trans (ih _ ?_)
      rwa [inbox, w.stepWorker_listeners index]
    · exact ih w others

end Workers

end World

namespace Move

-- What a move brings in from outside.
def terms (m : Move) : Terms where
  aborts reason := ∃ name, m = .abort name reason ∨ m = .abortByHandle name reason
  works _ := True
  hands scope := ∃ id carrier network address, m = .dial id carrier network address scope

end Move

namespace World

section Moves

variable {t : Terms} {lost : Nat → Multiset Stake} {w : World}

theorem Sound.leased (sound : Sound lost w) {watch : SessionWatch}
    (member : watch ∈ w.sessionWatches) (alive : watch.ended = false) :
    watch.slot ∈ (w.pool watch.generation).slots.map (·.id) := by
  have watched : watch.lease ∈ w.watched watch.generation := by
    refine Multiset.mem_coe.mpr (List.mem_filterMap.mpr ⟨watch, member, ?_⟩)
    simp [SessionWatch.leaseIn?, alive]
  rw [(sound.balanced watch.generation).watched] at watched
  obtain ⟨slot, inside, same⟩ := List.mem_map.mp (Multiset.mem_coe.mp watched)
  exact List.mem_map.mpr ⟨slot, inside, congrArg (·.slot) same⟩

theorem pollSessionWatch_effects (sound : Sound lost w) {index : Nat}
    (work : ∀ watch, w.sessionWatches[index]? = some watch → t.works watch.generation)
    (alive : w.isAlive (.sessionWatch index)) : Effects t w (w.pollSessionWatch index) := by
  unfold pollSessionWatch
  split
  · exact .refl w
  next watch found =>
    have alive : watch.ended = false := by simpa [isAlive, found] using alive
    have leased := sound.leased (List.mem_of_getElem? found) alive
    dsimp only
    split
    · exact .refl w
    · exact w.endSession_effects index watch _ (work watch found) leased

theorem disconnect_effects (sound : Sound lost w) {index : Nat}
    (work : ∀ watch, w.sessionWatches[index]? = some watch → t.works watch.generation) :
    Effects t w (w.disconnect index) := by
  unfold disconnect
  split
  · exact .refl w
  next watch found =>
    split
    · exact .refl w
    next ends =>
      have alive : watch.ended = false := by
        by_contra ended
        simp [Bool.eq_true_of_not_eq_false ended] at ends
      have leased := sound.leased (List.mem_of_getElem? found) alive
      exact w.endSession_effects index watch _ (work watch found) leased

theorem owner_effects (name : String) {f : Handle → World} (each : ∀ h, Effects t w (f h)) :
    Effects t w (w.owner name f) := by
  unfold owner
  split
  next h _ => exact each h
  next => exact .refl w

theorem dropDial_effects (d : Dial) : Effects t w (w.dropDial d) := by
  unfold dropDial
  split
  · exact .refl w
  · exact .plain rfl
  · split
    · exact .refl w
    · exact .plain rfl
    next link ticket _ =>
      let left : World := { w with script := w.script.leaveShaking ticket }
      exact Effects.trans (w := left) (.plain rfl) (left.closeConnection_effects link none (by simp))
    · exact .plain rfl

theorem abandon_effects (id : String) : Effects t w (w.abandon id) := by
  unfold abandon
  split
  next d _ => exact (dropDial_effects d).trans (.one (.endCall id))
  next => exact .refl w

theorem permit_listeners (workers : List Event.Worker) (index n : Nat) :
    (workers.modify index (·.release n)).map (·.subscription) =
      workers.map (·.subscription) := by
  apply List.ext_getElem?
  intro i
  simp only [List.getElem?_map, List.getElem?_modify]
  cases workers[i]? with
  | none => rfl
  | some x => by_cases hit : index = i <;> simp [hit]

-- What a move does, but for a poll of the supervisor.
theorem move_effects (sound : Sound lost w) (proper : w.core.Proper) {m : Move}
    (allowed : w.allows m) (other : m ≠ .poll .supervisor) : Effects m.terms w (w.move m) := by
  have regular := sound.regular
  have elsewhere {subscription : Nat} (outside : w.isOwnSubscription subscription = false) :
      subscription ≠ w.supervisor.inbox := by
    rintro rfl
    simp [isOwnSubscription] at outside
  cases m with
  | poll task =>
    cases task with
    | dispatcher => exact w.turns_effects _
    | supervisor => exact absurd rfl other
    | addressWatch => exact w.pollAddressWatch_effects
    | worker i => exact w.pollWorker_effects i proper.listeners
    | fanOut i => exact w.runFanOut_effects i
    | sessionWatch i => exact pollSessionWatch_effects sound (fun _ _ => trivial) allowed
    | streamWatch i => exact pollStreamWatch_effects regular i
    | call id => exact pollCall_effects regular proper (fun _ => trivial) id
  | withdraw call =>
    exact advance_effects regular call _ (fun d fits => w.withdraw_serves d fits)
      w.withdraw_dial_effects fun d _ => w.withdraw_link d
  | answer call mode =>
    exact advance_effects regular call _ (fun d fits => w.answer_serves d fits mode)
      (fun d => w.answer_effects d mode) fun d _ => w.answer_link d mode
  | disconnect watch => exact disconnect_effects sound fun _ _ => trivial
  | dial id carrier network address scope =>
    refine .one (.addCall id _ trivial (fun _ same => ⟨id, carrier, network, address, ?_⟩) rfl)
    cases same
    rfl
  | reconnect id params => exact .one (.addCall id _ trivial (by simp [Call.scope?]) rfl)
  | setParams id params => exact .one (.addCall id _ trivial (by simp [Call.scope?]) rfl)
  | run id => exact .one (.addCall id _ trivial (by simp [Call.scope?]) rfl)
  | startRead id name n =>
    exact owner_effects name fun h => .one (.addCall id _ trivial (by simp [Call.scope?]) rfl)
  | abandon id => exact abandon_effects id
  | read name n => exact owner_effects name fun h => read_effects regular h n
  | write name bytes => exact owner_effects name fun h => write_effects regular h bytes
  | flush name => exact owner_effects name fun h => flush_effects regular h
  | shutdown name => exact owner_effects name fun h => shutdown_effects regular h
  | close name => exact owner_effects name fun h => close_effects regular h
  | drop name =>
    exact owner_effects name fun h => (drop_effects regular h).trans (.plain rfl)
  | abort name reason =>
    refine owner_effects name fun h => ?_
    split
    · refine w.closeConnection_effects _ _ fun r same => .inl ⟨name, .inl ?_⟩
      rw [Option.some.inj same]
    · exact .refl w
  | abortByHandle name reason =>
    simp only [move]
    split
    · refine w.tearDown_effects _ _ fun r same => .inl ⟨name, .inr ?_⟩
      rw [Option.some.inj same]
    · exact .refl w
  | newScope =>
    exact .one (.scopes _ (Nat.le_succ _) fun _ => w.scopes.forest.isCancelled_append _)
  | childScope parent =>
    exact .one (.scopes _ (Nat.le_succ _) fun _ => w.scopes.forest.isCancelled_append _)
  | cancel scope => exact .one (.scopes _ (Nat.le_refl _) fun _ => w.scopes.forest.cancel_keeps _)
  | kernel network => exact .plain rfl
  | script script => exact .plain rfl
  | addresses addresses fail => exact .plain rfl
  | clock nanos => exact .plain rfl
  | signal s => exact .plain rfl
  | store store => exact .plain rfl
  | count counter n => exact w.count_effects counter n
  | raise kind => exact w.raise_effects kind
  | subscribe kinds => exact .traffic (.subscribe kinds) rfl
  | receive subscription => exact .traffic (.receive subscription (elsewhere allowed)) rfl
  | unsubscribe subscription => exact .traffic (.unsubscribe subscription (elsewhere allowed)) rfl
  | permit worker n =>
    refine .plain ?_
    simp only [core, traffic, move, permit_listeners]
    rfl
  | closeBus => exact .traffic .closeBus rfl
  | stopSupervisor => exact .traffic .stop rfl

end Moves

end World

end Egress
