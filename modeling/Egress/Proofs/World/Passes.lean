import Egress.Proofs.Connection.Filing
import Egress.Proofs.World.Lasting
import Egress.Proofs.World.Dials

set_option autoImplicit false

namespace Egress

open Tunnel

-- What a call has in hand: the stake of a dial in its generation.
def Call.hands (c : Call) (g : Nat) : Hand :=
  ((c.tunnelDial?.bind (·.stakeIn? g)).map Hand.stake).getD .empty

def Call.mayTunnel : Call → Bool
  | .dial { stage := .fresh _, .. } | .dial { stage := .tunneling _ _, .. } => true
  | _ => false

-- A dial that may yet come to create a session in this generation: it has not begun, or has got no
-- lease so far.
def Call.MayCreate (g : Nat) : Call → Prop
  | .dial { stage := .fresh _, .. } => True
  | .dial { stage := .tunneling t _, .. } => t.generation = g ∧ t.isOpening = false
  | _ => False

namespace Call

variable {c : Call}

theorem hands_plain (plain : c.tunnelDial? = none) : c.hands = fun _ => .empty := by
  funext g
  simp [hands, plain]

theorem hands_tunnelDial {t : TunnelDial} (dial : c.tunnelDial? = some t) :
    c.hands = (Hand.stake t.stage.stake).within t.generation := by
  funext g
  by_cases same : t.generation = g
  · simp [hands, dial, TunnelDial.stakeIn?, Hand.within, same]
  · simp [hands, dial, TunnelDial.stakeIn?, Hand.within, same, Ne.symm same]

theorem dialGeneration?_eq (c : Call) :
    World.dialGeneration? c = c.tunnelDial?.map (·.generation) := by
  cases c with
  | dial d =>
    obtain ⟨scope, network, address, stage⟩ := d
    cases stage <;> rfl
  | _ => rfl

theorem tunnelDial?_of_mayTunnel (never : c.mayTunnel = false) : c.tunnelDial? = none := by
  unfold tunnelDial?
  split
  · cases never
  · rfl

theorem MayCreate.mayTunnel {g : Nat} (may : c.MayCreate g) : c.mayTunnel := by
  unfold MayCreate at may
  split at may
  · rfl
  · rfl
  · exact may.elim

theorem hands_watched (g : Nat) : (c.hands g).watched = 0 := by
  unfold hands
  cases c.tunnelDial?.bind (·.stakeIn? g) <;> rfl

end Call

namespace World

section Names

variable (w : World) (id : String) (c : Call)

theorem call?_setCall (other : String) :
    (w.setCall id c).call? other =
      if other = id then (w.call? id).map fun _ => c else w.call? other := by
  simp only [call?, setCall]
  induction w.calls with
  | nil => simp
  | cons entry rest ih =>
    obtain ⟨name, old⟩ := entry
    simp only [List.map_cons, List.lookup_cons]
    by_cases same : other = name
    · subst same
      by_cases hit : other = id <;> simp [hit]
    · have miss : (other == name) = false := by simpa using same
      rw [miss]
      by_cases hit : other = id
      · subst hit
        simpa [miss] using ih
      · simpa [hit] using ih

theorem call?_finish (f : Finish) (other : String) :
    (w.finish id f).call? other = if other = id then none else w.call? other :=
  lookup_filter_ne id w.calls other

theorem call?_addCall (other : String) :
    (w.addCall id c).call? other = if other = id then some c else w.call? other := by
  simp only [call?, addCall, List.lookup_append, lookup_filter_ne]
  by_cases same : other = id
  · simp [same]
  · have miss : (other == id) = false := by simpa using same
    simp [same, List.lookup_cons, miss]

variable {w id c}

theorem mem_calls (names : (w.calls.map (·.1)).Nodup) : (id, c) ∈ w.calls ↔ w.call? id = some c := by
  simp only [call?, List.lookup_eq_some_iff]
  constructor
  · intro member
    obtain ⟨front, back, same⟩ := List.append_of_mem member
    refine ⟨front, back, same, fun p before => ?_⟩
    rw [same, List.map_append, List.nodup_append] at names
    have different := names.2.2 p.1 (List.mem_map_of_mem before) id (by simp)
    simpa using different.symm
  · rintro ⟨front, back, same, -⟩
    simp [same]

theorem isDialing_iff (names : (w.calls.map (·.1)).Nodup) {g : Nat} :
    w.IsDialing id g ↔ ∃ c, w.call? id = some c ∧ dialGeneration? c = some g :=
  exists_congr fun _ => and_congr_left fun _ => mem_calls names

theorem isDraining_iff (names : (w.calls.map (·.1)).Nodup) {g : Nat} :
    w.IsDraining id g ↔ ∃ c, w.call? id = some c ∧ c.draining? = some g :=
  exists_congr fun _ => and_congr_left fun _ => mem_calls names

end Names

-- A step in which calls stay as they are, and tasks take what they have in hand from `a` to `b`,
-- generation by generation.
structure Travels (a b : Nat → Hand) (w next : World) : Prop where
  frame : next.frame = w.frame
  regular : next.Regular
  steps : ∀ g, Ledger.Steps w.settings.sessionCap ((w.standing g).join (a g))
    ((next.standing g).join (b g))
  lasts : Lasts w next

structure Passes (w next : World) : Prop where
  regular : next.Regular
  steps : ∀ g, Ledger.Steps w.settings.sessionCap (w.ledger g) (next.ledger g)
  lasts : Lasts w next

structure Polls (id : String) (w next : World) : Prop where
  passes : Passes w next
  others : ∀ other, other ≠ id → next.call? other = w.call? other
  creates : ∀ c later, w.call? id = some c → next.call? id = some later →
    ∀ g, later.MayCreate g → c.MayCreate g
  replaces : next.current ≠ w.current → next.IsDraining id w.current ∨ next.isDrained w.current
  finished : ∃ ends : List Finish, next.finished = w.finished ++ ends.map fun f => (id, f)

namespace Travels

variable {a b c : Nat → Hand} {u w next : World}

theorem refl (a : Nat → Hand) (regular : w.Regular) : Travels a a w w :=
  ⟨rfl, regular, fun _ => .refl, .refl w⟩

theorem trans (h : Travels a b u w) (k : Travels b c w next) : Travels a c u next where
  frame := k.frame.trans h.frame
  regular := k.regular
  steps g := (h.steps g).trans (h.lasts.settings ▸ k.steps g)
  lasts := h.lasts.trans k.lasts

end Travels

theorem Passes.refl {w : World} (regular : w.Regular) : Passes w w :=
  ⟨regular, fun _ => .refl, .refl w⟩

theorem Passes.trans {u w next : World} (h : Passes u w) (k : Passes w next) : Passes u next where
  regular := k.regular
  steps g := (h.steps g).trans (h.lasts.settings ▸ k.steps g)
  lasts := h.lasts.trans k.lasts

theorem Turn.travels {g : Nat} {a b : Hand} {w next : World} (turn : Turn g a b w next)
    (regular : w.Regular) (inside : g < w.generations.length)
    (idle : w.IsPast g → next.streams.length = w.streams.length ∧
      (w.isDrained g → next.sessionWatches = w.sessionWatches ∧
        next.streamWatches = w.streamWatches)) :
    Travels (a.within g) (b.within g) w next where
  frame := turn.frame
  regular := turn.regular regular inside
  steps other := by
    by_cases same : other = g
    · subst same
      simpa [Hand.within] using turn.own regular inside
    · simp only [Hand.within, same, if_false, Ledger.join_empty, turn.others other same]
      exact .refl
  lasts := turn.lasts regular inside idle

theorem Level.travels {w next : World} (level : Level w next) (regular : w.Regular)
    (a : Nat → Hand) : Travels a a w next where
  frame := level.frame
  regular := (level.turn w.current .empty).regular regular regular.current_lt
  steps g := by
    rw [level.standing]
  lasts := by
    refine (level.turn w.current .empty).lasts regular regular.current_lt ?_
    exact fun _ => ⟨congrArg _ level.streams, fun _ => ⟨level.sessionWatches, level.streamWatches⟩⟩

theorem Beside.travels {w next : World} (beside : Beside w next) (regular : w.Regular)
    (a : Nat → Hand) : Travels a a w next :=
  beside.level.travels regular a

theorem Travels.passes {w next : World} (h : Travels (fun _ => .empty) (fun _ => .empty) w next) :
    Passes w next where
  regular := h.regular
  steps g := by
    have calls := calls_of_frame h.frame
    have steps := (h.steps g).join ⟨w.dialStakes g, 0⟩
    have same : next.dialStakes g = w.dialStakes g := by rw [dialStakes, calls, dialStakes]
    simp only [Ledger.join_empty] at steps
    simpa [Ledger.join, standing, ledger, same] using steps
  lasts := h.lasts

theorem Beside.passes {w next : World} (beside : Beside w next) (regular : w.Regular) :
    Passes w next :=
  (beside.travels regular _).passes

section Edits

variable (w : World) (id : String) (c : Call) (g : Nat)

def otherStakes : Multiset Stake :=
  ↑((w.calls.filter (·.1 != id)).filterMap fun c => c.2.tunnelDial?.bind (·.stakeIn? g))

theorem setCall_others : (w.setCall id c).calls.filter (·.1 != id) = w.calls.filter (·.1 != id) := by
  simp only [setCall]
  induction w.calls with
  | nil => rfl
  | cons entry rest ih =>
    by_cases hit : entry.1 = id <;> simp [hit, ih]

theorem setCall_names : (w.setCall id c).calls.map (·.1) = w.calls.map (·.1) := by
  simp [setCall, Function.comp_def]

theorem finish_names (names : (w.calls.map (·.1)).Nodup) (f : Finish) :
    ((w.finish id f).calls.map (·.1)).Nodup :=
  (List.filter_sublist.map _).nodup names

variable {w id c}

theorem dialStakes_of_call (names : (w.calls.map (·.1)).Nodup) (found : w.call? id = some c) :
    w.dialStakes g = (c.hands g).stakes + w.otherStakes id g := by
  obtain ⟨front, back, same, before⟩ := List.lookup_eq_some_iff.mp found
  have after : ∀ p ∈ back, p.1 != id := by
    intro p member
    rw [same, List.map_append, List.map_cons, List.nodup_append, List.nodup_cons] at names
    have absent := names.2.1.1
    simp only [bne_iff_ne]
    rintro rfl
    exact absent (List.mem_map.mpr ⟨p, member, rfl⟩)
  have before : ∀ p ∈ front, p.1 != id := fun p member => bne_comm.trans (before p member)
  have others : w.calls.filter (·.1 != id) = front ++ back := by
    rw [same, List.filter_append, List.filter_eq_self.mpr before, List.filter_cons_of_neg (by simp),
      List.filter_eq_self.mpr after]
  rw [dialStakes, otherStakes, others, same]
  simp only [List.filterMap_append, List.filterMap_cons, Call.hands]
  cases c.tunnelDial?.bind (·.stakeIn? g) with
  | none => simp [Hand.empty]
  | some x => simp [Hand.stake, ← Multiset.coe_add, ← Multiset.cons_coe]

theorem dialStakes_setCall (names : (w.calls.map (·.1)).Nodup) (found : w.call? id = some c)
    (next : Call) :
    (w.setCall id next).dialStakes g = (next.hands g).stakes + w.otherStakes id g := by
  have now : (w.setCall id next).call? id = some next := by
    simp [call?_setCall, found]
  rw [dialStakes_of_call g (w.setCall_names id next ▸ names) now, otherStakes, setCall_others,
    otherStakes]

theorem dialStakes_addCall (absent : w.call? id = none) :
    (w.addCall id c).dialStakes g = (c.hands g).stakes + w.dialStakes g := by
  have others : w.calls.filter (·.1 != id) = w.calls := by
    exact List.filter_eq_self.mpr fun p member =>
      bne_comm.trans (List.lookup_eq_none_iff.mp absent p member)
  simp only [dialStakes, addCall, others, List.filterMap_append, Call.hands]
  cases stake : c.tunnelDial?.bind (·.stakeIn? g) with
  | none => simp [stake, Hand.empty]
  | some x => simp [stake, Hand.stake, ← Multiset.coe_add, Multiset.add_comm]

theorem ledger_join {h : Hand} (unwatched : h.watched = 0) (others : Multiset Stake)
    (dials : w.dialStakes g = h.stakes + others) :
    w.ledger g = ((w.standing g).join h).join ⟨others, 0⟩ := by
  simp only [ledger, standing, Ledger.join, dials, unwatched, Multiset.zero_add]
  rw [← Multiset.add_assoc, Multiset.add_comm others]

section Lasting

variable (regular : w.Regular) (found : w.call? id = some c)

include regular found

theorem setCall_lasts {next : Call}
    (dials : ∀ g, w.IsPast g → (dialGeneration? next = some g ↔ dialGeneration? c = some g))
    (drains : ∀ g, w.IsPast g → c.draining? = some g →
      next.draining? = some g ∨ w.isDrained g) : Lasts w (w.setCall id next) := by
  have names := regular.frame.names
  have names' : ((w.setCall id next).calls.map (·.1)).Nodup := w.setCall_names id next ▸ names
  have now (other : String) : (w.setCall id next).call? other =
      if other = id then some next else w.call? other := by
    simp [call?_setCall, found]
  have dialing (g : Nat) (past : w.IsPast g) (call : String) :
      (w.setCall id next).IsDialing call g ↔ w.IsDialing call g := by
    rw [isDialing_iff names, isDialing_iff names', now]
    by_cases hit : call = id
    · subst hit
      simp [found, dials g past]
    · simp [hit]
  have drained (g : Nat) (past : w.IsPast g) (was : w.isDrained g) :
      (w.setCall id next).isDrained g := by
    obtain ⟨quiet, sessions, streams⟩ := (w.isDrained_iff g).mp was
    exact (isDrained_iff _ g).mpr
      ⟨fun call => quiet call ∘ (dialing g past call).mp, sessions, streams⟩
  exact
    { Lasts.refl w with
      drained := drained
      dials := fun g past call => (dialing g past call).mp
      ends := fun g past call was => .inl ⟨(dialing g past call).mpr was, w.endOf?_self call⟩
      drains := by
        intro g past call draining
        rw [isDraining_iff names', now]
        obtain ⟨old, foundOld, same⟩ := (isDraining_iff names).mp draining
        by_cases hit : call = id
        · subst hit
          obtain rfl := Option.some.inj (foundOld.symm.trans found)
          rcases drains g past same with still | gone
          · exact .inl ⟨next, by simp, still⟩
          · exact .inr (drained g past gone)
        · exact .inl ⟨old, by simpa [hit] using foundOld, same⟩ }

theorem finish_lasts {f : Finish}
    (dials : ∀ g, w.IsPast g → dialGeneration? c = some g → f = .failed .canceled)
    (drains : ∀ g, w.IsPast g → c.draining? = some g → w.isDrained g) :
    Lasts w (w.finish id f) := by
  have names := regular.frame.names
  have names' := w.finish_names id names f
  have dialing (g : Nat) (call : String) (still : (w.finish id f).IsDialing call g) :
      w.IsDialing call g := by
    rw [isDialing_iff names', call?_finish] at still
    obtain ⟨old, now, same⟩ := still
    by_cases hit : call = id
    · simp [hit] at now
    · exact (isDialing_iff names).mpr ⟨old, by simpa [hit] using now, same⟩
  have drained (g : Nat) (was : w.isDrained g) : (w.finish id f).isDrained g := by
    obtain ⟨quiet, sessions, streams⟩ := (w.isDrained_iff g).mp was
    exact (isDrained_iff _ g).mpr ⟨fun call => quiet call ∘ dialing g call, sessions, streams⟩
  have ended (call : String) : w.endOf? (w.finish id f) call = [(id, f)].lookup call := by
    simp [endOf?, finish]
  exact
    { Lasts.refl w with
      finished := List.prefix_append _ _
      drained := fun g _ => drained g
      dials := fun g _ => dialing g
      ends := by
        intro g past call was
        obtain ⟨old, foundOld, same⟩ := (isDialing_iff names).mp was
        by_cases hit : call = id
        · subst hit
          obtain rfl := Option.some.inj (foundOld.symm.trans found)
          exact .inr ((ended call).trans (by simp [dials g past same]))
        · refine .inl ⟨(isDialing_iff names').mpr ⟨old, ?_, same⟩, ?_⟩
          · simpa [call?_finish, hit] using foundOld
          · have miss : (call == id) = false := by simpa using hit
            simp [ended, List.lookup_cons, miss]
      drains := by
        intro g past call draining
        obtain ⟨old, foundOld, same⟩ := (isDraining_iff names).mp draining
        by_cases hit : call = id
        · subst hit
          obtain rfl := Option.some.inj (foundOld.symm.trans found)
          exact .inr (drained g (drains g past same))
        · exact .inl ((isDraining_iff names').mpr
            ⟨old, by simpa [call?_finish, hit] using foundOld, same⟩) }

end Lasting

section Ends

variable {u : World} (regular : w.Regular) (found : w.call? id = some c)

include regular found

theorem Travels.setCall {next : Call} (h : Travels c.hands next.hands w u) (fits : next.Fits w.frame)
    (dials : ∀ g, w.IsPast g → (dialGeneration? next = some g ↔ dialGeneration? c = some g))
    (drains : ∀ g, w.IsPast g → c.draining? = some g →
      next.draining? = some g ∨ u.isDrained g)
    (creates : ∀ g, next.MayCreate g → c.MayCreate g) : Polls id w (u.setCall id next) := by
  have calls := calls_of_frame h.frame
  have found' : u.call? id = some c := (congrArg (List.lookup id) calls).trans found
  have past (g : Nat) : u.IsPast g → w.IsPast g := by
    have current : u.current = w.current := congrArg (·.current) h.frame
    simp only [IsPast, generations_length_of_frame h.frame, current, imp_self]
  have finished : u.finished = w.finished := congrArg (·.finished) h.frame
  refine ⟨⟨?regular, fun g => ?steps, h.lasts.trans ?lasts⟩, fun other different => ?others,
    fun old later was now => ?creates, fun changed => absurd (congrArg (·.current) h.frame) changed,
    [], by simpa [World.setCall] using finished⟩
  case others =>
    rw [call?_setCall, if_neg different]
    exact congrArg (List.lookup other) calls
  case creates =>
    simp only [call?_setCall, found', if_true, Option.map_some, Option.some.injEq] at now
    obtain rfl := Option.some.inj (was.symm.trans found)
    exact now ▸ creates
  case regular =>
    refine { h.regular with frame := { h.regular.frame with names := ?_, calls := ?_ } }
    · exact u.setCall_names id next ▸ h.regular.frame.names
    · intro entry member
      obtain ⟨⟨name, old⟩, was, rfl⟩ := List.mem_map.mp member
      have fits : next.Fits u.frame := h.frame ▸ fits
      dsimp only
      split
      · exact fits
      · exact h.regular.frame.calls (name, old) was
  case steps =>
    have others : u.otherStakes id g = w.otherStakes id g := by rw [otherStakes, calls, otherStakes]
    rw [ledger_join g (c.hands_watched g) _ (dialStakes_of_call g regular.frame.names found),
      ledger_join g (next.hands_watched g) _
        (dialStakes_setCall g h.regular.frame.names found' next), others]
    exact (h.steps g).join _
  case lasts =>
    exact setCall_lasts h.regular found' (fun g => dials g ∘ past g) fun g => drains g ∘ past g

theorem Travels.finish {f : Finish} (h : Travels c.hands (fun _ => .empty) w u)
    (dials : ∀ g, w.IsPast g → dialGeneration? c = some g → f = .failed .canceled)
    (drains : ∀ g, w.IsPast g → c.draining? = some g → u.isDrained g) :
    Polls id w (u.finish id f) := by
  have calls := calls_of_frame h.frame
  have found' : u.call? id = some c := (congrArg (List.lookup id) calls).trans found
  have past (g : Nat) : u.IsPast g → w.IsPast g := by
    have current : u.current = w.current := congrArg (·.current) h.frame
    simp only [IsPast, generations_length_of_frame h.frame, current, imp_self]
  have finished : u.finished = w.finished := congrArg (·.finished) h.frame
  refine ⟨⟨?regular, fun g => ?steps, h.lasts.trans ?lasts⟩, fun other different => ?others,
    fun old later was now => ?creates, fun changed => absurd (congrArg (·.current) h.frame) changed,
    [f], by simp [World.finish, finished]⟩
  case others =>
    rw [call?_finish, if_neg different]
    exact congrArg (List.lookup other) calls
  case creates => simp [call?_finish] at now
  case regular =>
    exact
      { h.regular with
        frame :=
          { h.regular.frame with
            names := u.finish_names id h.regular.frame.names f
            calls := fun entry member =>
              h.regular.frame.calls entry (List.mem_of_mem_filter member) } }
  case steps =>
    have others : (u.finish id f).dialStakes g = (Hand.empty).stakes + w.otherStakes id g := by
      simp only [dialStakes, World.finish, calls, otherStakes, Hand.empty, Multiset.zero_add]
    rw [ledger_join g (c.hands_watched g) _ (dialStakes_of_call g regular.frame.names found),
      ledger_join g rfl _ others]
    exact (h.steps g).join _
  case lasts =>
    exact finish_lasts h.regular found' (fun g => dials g ∘ past g) fun g => drains g ∘ past g

end Ends

theorem addCall_passes (regular : w.Regular) (absent : w.call? id = none)
    (plain : c.tunnelDial? = none) (fits : c.Fits w.frame) (fresh : dialGeneration? c = none) :
    Passes w (w.addCall id c) := by
  have names := regular.frame.names
  have others : w.calls.filter (·.1 != id) = w.calls :=
    List.filter_eq_self.mpr fun p member =>
      bne_comm.trans (List.lookup_eq_none_iff.mp absent p member)
  have calls : (w.addCall id c).calls = w.calls ++ [(id, c)] := by
    simp only [addCall, others]
  have names' : ((w.addCall id c).calls.map (·.1)).Nodup := by
    rw [calls, List.map_append, List.nodup_append]
    refine ⟨names, by simp, ?_⟩
    rintro _ old _ new rfl
    obtain ⟨p, member, same⟩ := List.mem_map.mp old
    have different := List.lookup_eq_none_iff.mp absent p member
    simp_all
  have dialing (g : Nat) (call : String) : (w.addCall id c).IsDialing call g ↔ w.IsDialing call g := by
    simp only [IsDialing, calls, List.mem_append, List.mem_singleton, Prod.mk.injEq]
    constructor
    · rintro ⟨x, old | ⟨rfl, rfl⟩, same⟩
      · exact ⟨x, old, same⟩
      · simp [fresh] at same
    · rintro ⟨x, old, same⟩
      exact ⟨x, .inl old, same⟩
  have drained (g : Nat) (was : w.isDrained g) : (w.addCall id c).isDrained g := by
    obtain ⟨quiet, sessions, streams⟩ := (w.isDrained_iff g).mp was
    exact (isDrained_iff _ g).mpr
      ⟨fun call => quiet call ∘ (dialing g call).mp, sessions, streams⟩
  refine ⟨?regular, fun g => ?steps, ?lasts⟩
  case regular =>
    refine { regular with frame := { regular.frame with names := names', calls := ?_ } }
    intro entry member
    have member : entry ∈ w.calls ++ [(id, c)] := calls ▸ member
    rcases List.mem_append.mp member with old | new
    · exact regular.frame.calls entry old
    · obtain rfl := List.mem_singleton.mp new
      exact fits
  case steps =>
    have dials : (w.addCall id c).dialStakes g = _ := dialStakes_addCall g absent
    rw [c.hands_plain plain] at dials
    have same : (w.addCall id c).ledger g = w.ledger g := by
      simp only [ledger, dials, Hand.empty, Multiset.zero_add]
      rfl
    rw [same]
  case lasts =>
    exact
      { Lasts.refl w with
        drained := fun g _ => drained g
        dials := fun g _ call => (dialing g call).mp
        ends := fun g _ call was => .inl ⟨(dialing g call).mpr was, w.endOf?_self call⟩
        drains := by
          intro g past call draining
          obtain ⟨old, member, same⟩ := draining
          exact .inl ⟨old, by rw [calls]; exact List.mem_append_left _ member, same⟩ }

end Edits

end World

end Egress
