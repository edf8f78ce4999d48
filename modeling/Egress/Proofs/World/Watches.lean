import Egress.Proofs.World.Polls

set_option autoImplicit false

namespace Egress

open Simulation Tunnel

namespace World

variable {w : World}

theorem closeSession_level (session : Nat) : Level w (w.closeSession session) := by
  unfold closeSession
  dsimp only
  have closed (u : World) (before : Level w u) :
      Level w { u with script := u.script.close session } :=
    before.trans (u.script_level _ (u.script.close_keeps session))
  split
  · exact closed _ (w.closeConnection_beside _ none).level
  · exact closed w (Beside.refl w).level

theorem closeSession_closes {session : Nat} (known : session < w.script.sessions.length) :
    (w.closeSession session).isSessionClosed session := by
  have closed (u : World) (script : u.script = w.script) :
      ((u.script.close session).session? session).any (·.closed) :=
    Script.close_closes _ (script ▸ known)
  unfold closeSession isSessionClosed
  dsimp only
  split
  next s _ =>
    exact closed _ (congrArg (·.script) (w.closeConnection_beside s.link none).side)
  next => exact closed w rfl

section Sessions

variable {index : Nat} {watch : SessionWatch} (regular : w.Regular)
  (found : w.sessionWatches[index]? = some watch) (alive : watch.ended = false)

section Marked

include found

theorem mem_of_marked {x : SessionWatch}
    (member : x ∈ w.sessionWatches.modify index fun s => { s with ended := true }) :
    x ∈ w.sessionWatches ∨ x = { watch with ended := true } := by
  obtain ⟨front, back, before, after⟩ := modify_split found fun s => { s with ended := true }
  rw [after] at member
  rw [before]
  rcases List.mem_append.mp member with old | rest
  · exact .inl (List.mem_append_left _ old)
  · rcases List.mem_cons.mp rest with rfl | old
    · exact .inr rfl
    · exact .inl (List.mem_append_right _ (List.mem_cons_of_mem _ old))

theorem marked_of_mem {x : SessionWatch} (member : x ∈ w.sessionWatches) :
    ∃ y ∈ w.sessionWatches.modify index fun s => { s with ended := true },
      y.generation = x.generation ∧ y.lease = x.lease := by
  obtain ⟨front, back, before, after⟩ := modify_split found fun s => { s with ended := true }
  rw [before] at member
  rw [after]
  rcases List.mem_append.mp member with old | rest
  · exact ⟨x, List.mem_append_left _ old, rfl, rfl⟩
  · rcases List.mem_cons.mp rest with rfl | old
    · exact ⟨{ x with ended := true }, by simp, rfl, rfl⟩
    · exact ⟨x, List.mem_append_right _ (List.mem_cons_of_mem _ old), rfl, rfl⟩

include alive

theorem marked_watched (g : Nat) : w.watched g =
    ((Hand.watch watch.lease).within watch.generation g).watched +
      World.watched { w with
        sessionWatches := w.sessionWatches.modify index fun s => { s with ended := true } } g := by
  obtain ⟨front, back, before, after⟩ := modify_split found fun s => { s with ended := true }
  simp only [World.watched, after]
  rw [before]
  simp only [List.filterMap_append, List.filterMap_cons, SessionWatch.leaseIn?, alive, Hand.within]
  by_cases same : watch.generation = g
  · simp [same, Hand.watch, ← Multiset.coe_add, ← Multiset.cons_coe]
  · simp [same, Ne.symm same, Hand.empty]

end Marked

include regular found alive

-- The watch of a session that is closed and known to be lost is over. Its slot is still to be taken
-- out.
theorem markSession_travels (closed : w.isSessionClosed watch.session)
    (tripped : w.isTripped watch.generation watch.slot) :
    Travels bare ((Hand.watch watch.lease).within watch.generation) w
      { w with
        sessionWatches := w.sessionWatches.modify index fun s => { s with ended := true } } := by
  refine ⟨rfl, ?regular, fun g => ?steps, ?lasts⟩
  case regular =>
    refine { regular with watches := fun x member => ?_ }
    rcases mem_of_marked found member with old | rfl
    · exact regular.watches x old
    · exact regular.watches watch (List.mem_of_getElem? found)
  case steps =>
    have stakes : ((Hand.watch watch.lease).within watch.generation g).stakes = 0 := by
      unfold Hand.within
      split <;> rfl
    rw [Ledger.join_empty, Ledger.join, stakes, Multiset.zero_add, standing,
      marked_watched found alive]
    exact .refl
  case lasts =>
    exact
      { Lasts.refl w with
        watches := fun x => marked_of_mem found
        tidy := fun tidy x member ended => by
          rcases mem_of_marked found member with old | rfl
          · exact tidy x old ended
          · exact ⟨closed, tripped⟩
        drained := fun g _ drained => by
          obtain ⟨dials, sessions, streams⟩ := (w.isDrained_iff g).mp drained
          refine (isDrained_iff _ g).mpr ⟨dials, fun x member same => ?_, streams⟩
          rcases mem_of_marked found member with old | rfl
          · exact sessions x old same
          · rfl
        drains := fun g _ call draining => .inl draining }

theorem endSession_travels (text : String) :
    Travels bare bare w (w.endSession index watch text) := by
  obtain ⟨inside, known⟩ := regular.watches watch (List.mem_of_getElem? found)
  let closed := w.closeSession watch.session
  have closing : Level w closed := closeSession_level watch.session
  let tripped := closed.updateGeneration watch.generation (·.trip watch.slot text)
  have tripping := closed.trip_turn watch.generation watch.slot text .empty
  have first : Travels bare bare w tripped :=
    ((closing.turn _ _).trans tripping).serene regular inside
      ⟨congrArg _ closing.streams, closing.sessionWatches, closing.streamWatches⟩
  have found' : tripped.sessionWatches[index]? = some watch := closing.sessionWatches ▸ found
  have length : closed.generations.length = w.generations.length :=
    congrArg _ closing.generations
  have marked := markSession_travels first.regular found' alive (closeSession_closes known)
    (closed.trip_trips (length ▸ inside) watch.slot text)
  let gone : World := { tripped with
    sessionWatches := tripped.sessionWatches.modify index fun s => { s with ended := true } }
  have inside' : watch.generation < gone.generations.length :=
    (generations_length_of_frame (first.trans marked).frame).symm ▸ inside
  have removed := (gone.remove_turn watch.generation watch.lease).travels marked.regular inside'
    fun _ => ⟨rfl, fun _ => ⟨rfl, rfl⟩⟩
  rw [within_empty] at removed
  have all := (first.trans marked).trans removed
  simp only [endSession]
  split
  · exact all.trans ((publish_level _ _ _ _).travels all.regular _)
  · exact all

end Sessions

theorem pollSessionWatch_travels (regular : w.Regular) {index : Nat}
    (alive : w.isAlive (.sessionWatch index)) : Travels bare bare w (w.pollSessionWatch index) := by
  unfold pollSessionWatch
  split
  · exact .refl _ regular
  next watch found =>
    have alive : watch.ended = false := by simpa [isAlive, found] using alive
    dsimp only
    split
    · exact .refl _ regular
    · exact endSession_travels regular found alive _

theorem disconnect_travels (regular : w.Regular) (index : Nat) :
    Travels bare bare w (w.disconnect index) := by
  unfold disconnect
  split
  · exact .refl _ regular
  next watch found =>
    split
    · exact .refl _ regular
    next ends =>
      have alive : watch.ended = false := by
        by_contra ended
        simp [Bool.eq_true_of_not_eq_false ended] at ends
      exact endSession_travels regular found alive _

theorem markStreamWatch_travels (regular : w.Regular) (index : Nat) :
    Travels bare bare w
      { w with streamWatches := w.streamWatches.modify index fun t => { t with ended := true } } := by
  have streams : (w.streamWatches.modify index fun t => { t with ended := true }).map (·.stream) =
      w.streamWatches.map (·.stream) := by
    apply List.ext_getElem?
    intro i
    simp only [List.getElem?_map, List.getElem?_modify]
    split <;> simp [Function.comp_def]
  have drained (g : Nat) (was : w.isDrained g) :
      isDrained { w with
        streamWatches := w.streamWatches.modify index fun t => { t with ended := true } } g := by
    obtain ⟨dials, sessions, streams⟩ := (w.isDrained_iff g).mp was
    refine (isDrained_iff _ g).mpr ⟨dials, sessions, fun x member s found same => ?_⟩
    obtain ⟨i, at_i⟩ := List.getElem?_of_mem member
    rw [List.getElem?_modify] at at_i
    obtain ⟨y, known, rfl⟩ := Option.map_eq_some_iff.mp at_i
    by_cases hit : index = i
    · simp [hit]
    · simp only [hit, if_false] at found ⊢
      exact streams y (List.mem_of_getElem? known) s found same
  exact
    ⟨rfl, { regular with watchers := streams.trans regular.watchers }, fun _ => .refl,
      { Lasts.refl w with
        drained := fun g _ => drained g
        drains := fun _ _ _ => .inl }⟩

theorem pollStreamWatch_travels (regular : w.Regular) (index : Nat) :
    Travels bare bare w (w.pollStreamWatch index) := by
  unfold pollStreamWatch
  split
  · exact .refl _ regular
  next watch _ =>
    split
    · exact .refl _ regular
    next s _ =>
      have marked := markStreamWatch_travels regular index
      split
      · dsimp only
        split
        · exact marked
        · split
          · exact marked.trans (releaseStream_travels marked.regular s.id)
          · exact marked
      · exact .refl _ regular

end World

end Egress
