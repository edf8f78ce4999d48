import Egress.Proofs.Scope
import Egress.Proofs.World.Passes

set_option autoImplicit false

namespace Egress

open Simulation Tunnel

namespace World

abbrev bare : Nat → Hand := fun _ => .empty

theorem within_empty (g : Nat) : Hand.empty.within g = bare := by
  funext other
  simp [Hand.within]

-- No stream comes, and no watch.
structure Still (w next : World) : Prop where
  streams : next.streams.length = w.streams.length
  sessionWatches : next.sessionWatches = w.sessionWatches
  streamWatches : next.streamWatches = w.streamWatches

theorem Still.trans {u w next : World} (h : Still u w) (k : Still w next) : Still u next :=
  ⟨k.streams.trans h.streams, k.sessionWatches.trans h.sessionWatches,
    k.streamWatches.trans h.streamWatches⟩

variable (w : World)

theorem updateStream_still (id : Nat) (f : Stream → Stream) : Still w (w.updateStream id f) :=
  ⟨by simp [updateStream], rfl, rfl⟩

theorem putStream_still (s next : Stream) : Still w (w.putStream s next) := by
  have updated := w.updateStream_still s.id fun _ => next
  unfold putStream
  dsimp only
  split_ifs <;> exact ⟨updated.streams, rfl, rfl⟩

theorem releaseStream_still (id : Nat) : Still w (w.releaseStream id) := by
  unfold releaseStream
  split
  · exact w.putStream_still _ _
  · exact ⟨rfl, rfl, rfl⟩

theorem closeStream_still (id : Nat) : Still w (w.closeStream id) :=
  (w.releaseStream_still id).trans (updateStream_still _ _ _)

theorem dropStream_still (id : Nat) : Still w (w.dropStream id) :=
  (w.closeStream_still id).trans (updateStream_still _ _ _)

theorem useStream_still {α : Type} (id : Nat) (f : Pipe → Pipe × Io α) :
    Still w (w.useStream id f).1 := by
  unfold useStream
  split
  · exact ⟨rfl, rfl, rfl⟩
  · dsimp only
    split <;> exact (w.putStream_still _ _).trans ⟨rfl, rfl, rfl⟩

theorem absent_stream {id : Nat} (missing : w.stream? id = none) :
    w.releaseStream id = w ∧ w.closeStream id = w ∧ w.dropStream id = w := by
  have updated (f : Stream → Stream) : w.updateStream id f = w := by
    have beyond : w.streams.length ≤ id := List.getElem?_eq_none_iff.mp missing
    simp only [updateStream, List.modify_eq_self beyond]
  have released : w.releaseStream id = w := by simp only [releaseStream, missing]
  have closed : w.closeStream id = w := by rw [closeStream, released, updated]
  exact ⟨released, closed, by rw [dropStream, closed, updated]⟩

variable {w} (regular : w.Regular)

include regular

theorem Turn.serene {g : Nat} {next : World} (turn : Turn g .empty .empty w next)
    (inside : g < w.generations.length) (still : Still w next) : Travels bare bare w next := by
  have travels := turn.travels regular inside
    fun _ => ⟨still.streams, fun _ => ⟨still.sessionWatches, still.streamWatches⟩⟩
  rwa [within_empty] at travels

theorem stream_inside {id : Nat} {s : Stream} (found : w.stream? id = some s) :
    s.generation < w.generations.length :=
  regular.streams s (List.mem_of_getElem? found)

theorem releaseStream_travels (id : Nat) : Travels bare bare w (w.releaseStream id) := by
  cases found : w.stream? id with
  | none => exact (w.absent_stream found).1.symm ▸ .refl _ regular
  | some s =>
    exact (w.releaseStream_turn regular found).serene regular (stream_inside regular found)
      (w.releaseStream_still id)

theorem closeStream_travels (id : Nat) : Travels bare bare w (w.closeStream id) := by
  cases found : w.stream? id with
  | none => exact (w.absent_stream found).2.1.symm ▸ .refl _ regular
  | some s =>
    exact (w.closeStream_turn regular found).serene regular (stream_inside regular found)
      (w.closeStream_still id)

theorem dropStream_travels (id : Nat) : Travels bare bare w (w.dropStream id) := by
  cases found : w.stream? id with
  | none => exact (w.absent_stream found).2.2.symm ▸ .refl _ regular
  | some s =>
    exact (w.dropStream_turn regular found).serene regular (stream_inside regular found)
      (w.dropStream_still id)

theorem useStream_travels {α : Type} (id : Nat) (f : Pipe → Pipe × Io α) :
    Travels bare bare w (w.useStream id f).1 := by
  cases found : w.stream? id with
  | none =>
    simp only [useStream, found]
    exact .refl _ regular
  | some s =>
    exact (w.useStream_turn regular found f).serene regular (stream_inside regular found)
      (w.useStream_still id f)

theorem read_travels (h : Handle) (n : Nat) : Travels bare bare w (w.read h n).1 := by
  cases h with
  | connection id boxed => exact (w.useConnection_beside id _).travels regular _
  | stream id boxed => exact useStream_travels regular id _

theorem write_travels (h : Handle) (bytes : List UInt8) :
    Travels bare bare w (w.write h bytes).1 := by
  cases h with
  | connection id boxed => exact (w.useConnection_beside id _).travels regular _
  | stream id boxed => exact useStream_travels regular id _

theorem flush_travels (h : Handle) : Travels bare bare w (w.flush h).1 := by
  cases h with
  | connection id boxed => exact (w.useConnection_beside id _).travels regular _
  | stream id boxed => exact useStream_travels regular id _

theorem shutdown_travels (h : Handle) : Travels bare bare w (w.shutdown h).1 := by
  cases h with
  | connection id boxed => exact (w.useConnection_beside id _).travels regular _
  | stream id boxed => exact useStream_travels regular id _

theorem drop_travels (h : Handle) : Travels bare bare w (w.drop h) := by
  cases h with
  | connection id boxed => exact (w.closeConnection_beside id none).travels regular _
  | stream id boxed => exact dropStream_travels regular id

theorem close_travels (h : Handle) : Travels bare bare w (w.close h) := by
  cases h with
  | connection id boxed => exact (w.closeConnection_beside id none).travels regular _
  | stream id boxed => exact closeStream_travels regular id

theorem putHandle_travels (name : String) (h : Handle) :
    Travels bare bare w (w.putHandle name h) := by
  unfold putHandle
  dsimp only
  split
  next old _ =>
    have dropped := drop_travels regular old
    exact dropped.trans ((handles_beside _ _).travels dropped.regular _)
  next => exact (handles_beside _ _).travels regular _

theorem scopes_passes (scopes : Scopes)
    (more : w.scopes.forest.nodes.length ≤ scopes.forest.nodes.length)
    (cancelled : ∀ token, w.scopes.forest.isCancelled token → scopes.forest.isCancelled token) :
    Passes w { w with scopes } where
  regular :=
    { regular with
      frame :=
        { regular.frame with
          root := Nat.lt_of_lt_of_le regular.frame.root more
          scopes := fun gen member => Nat.lt_of_lt_of_le (regular.frame.scopes gen member) more
          past := fun g gen found past => cancelled _ (regular.frame.past g gen found past) } }
  steps _ := .refl
  lasts := { Lasts.refl w with }

theorem newScope_passes : Passes w { w with scopes := w.scopes.new.1 } :=
  scopes_passes regular _ (by simp [Scopes.new, Scopes.onToken, Forest.plant])
    fun _ => w.scopes.forest.isCancelled_append _

theorem childScope_passes (parent : Scope) :
    Passes w { w with scopes := (w.scopes.child parent).1 } :=
  scopes_passes regular _ (by simp [Scopes.child, Scopes.onToken, Forest.branch])
    fun _ => w.scopes.forest.isCancelled_append _

theorem cancel_passes (scope : Scope) : Passes w { w with scopes := w.scopes.cancel scope } :=
  scopes_passes regular _ (Nat.le_of_eq (w.scopes.forest.cancel_length _).symm)
    fun _ => w.scopes.forest.cancel_keeps _

-- A new generation takes over.
def succeededBy (w : World) (fresh : Generation) : World :=
  { w with generations := w.generations ++ [fresh], current := w.generations.length }

section Succession

variable {fresh : Generation}

omit regular

theorem succeededBy_old {g : Nat} (inside : g < w.generations.length) :
    (w.succeededBy fresh).generation? g = w.generation? g := by
  simp [generation?, succeededBy, List.getElem?_append_left inside]

theorem succeededBy_generations :
    (w.succeededBy fresh).frame.generations = w.frame.generations ++ [fresh.bare] := by
  simp [frame, TunnelSide.frame, tunnelSide, succeededBy]

theorem succeededBy_pool (unused : fresh.pool = {}) (g : Nat) :
    (w.succeededBy fresh).pool g = w.pool g := by
  rcases Nat.lt_trichotomy g w.generations.length with inside | rfl | beyond
  · simp only [pool, succeededBy_old inside]
  · simp [pool, generation?, succeededBy, unused]
  · have missing : (w.generations ++ [fresh])[g]? = none := by
      rw [List.getElem?_eq_none_iff, List.length_append]
      exact Nat.succ_le_of_lt beyond
    have missing' : w.generations[g]? = none := by
      simpa using Nat.le_of_lt beyond
    simp [pool, generation?, succeededBy, missing, missing']

theorem succeededBy_lost {g slot : Nat} (tripped : w.isTripped g slot) :
    (w.succeededBy fresh).isTripped g slot := by
  have inside : g < w.generations.length := by
    obtain ⟨gen, found, -⟩ := Option.any_eq_true _ _ |>.mp tripped
    exact (List.getElem?_eq_some_iff.mp found).1
  rw [isTripped] at tripped
  rwa [isTripped, succeededBy_old inside]

variable {gen : Generation} (found : w.generation? w.current = some gen)
  (gone : w.isCancelled gen.scope) (rooted : fresh.scope.token < w.scopes.forest.nodes.length)

include found gone rooted

theorem succeededBy_frame (regular : w.frame.Regular) : (w.succeededBy fresh).frame.Regular where
  names := regular.names
  current := by
    change w.generations.length < _
    rw [succeededBy_generations, List.length_append, w.frame_generations_length]
    exact Nat.lt_succ_self _
  calls entry member :=
    (regular.calls entry member).more (succeededBy_generations ▸ List.prefix_append _ _)
  root := regular.root
  scopes := by
    intro g member
    rw [succeededBy_generations] at member
    rcases List.mem_append.mp member with known | new
    · exact regular.scopes g known
    · obtain rfl := List.mem_singleton.mp new
      exact rooted
  past := by
    intro g other at_g past
    have past : g ≠ w.generations.length := past
    have inside : g < w.frame.generations.length := by
      have below := (List.getElem?_eq_some_iff.mp at_g).1
      rw [succeededBy_generations, List.length_append, List.length_singleton] at below
      rw [← w.frame_generations_length] at past
      omega
    rw [succeededBy_generations, List.getElem?_append_left inside] at at_g
    by_cases same : g = w.current
    · subst same
      rw [w.generation?_bare found] at at_g
      obtain rfl := Option.some.inj at_g
      exact gone
    · exact regular.past g other at_g same

theorem succeededBy_passes (regular : w.Regular) (unused : fresh.pool = {}) :
    Passes w (w.succeededBy fresh) := by
  refine ⟨?regular, fun g => ?steps, ?lasts⟩
  case regular =>
    exact
      { regular with
        frame := succeededBy_frame found gone rooted regular.frame
        streams := fun s member =>
          Nat.lt_of_lt_of_le (regular.streams s member) (by simp [succeededBy])
        watches := fun x member =>
          ⟨Nat.lt_of_lt_of_le (regular.watches x member).1 (by simp [succeededBy]),
            (regular.watches x member).2⟩ }
  case steps =>
    have same : (w.succeededBy fresh).ledger g = w.ledger g := by
      simp only [ledger, succeededBy_pool unused]
      rfl
    exact same ▸ .refl
  case lasts =>
    exact
      { Lasts.refl w with
        generations := by simp [succeededBy]
        current := .inr (Nat.le_refl _)
        lost := fun _ _ => succeededBy_lost
        tidy := fun tidy x member ended =>
          ⟨(tidy x member ended).1, succeededBy_lost (tidy x member ended).2⟩ }

end Succession

omit regular in
theorem isDrained_of_beside {next : World} (beside : Beside w next) (g : Nat) :
    next.isDrained g = w.isDrained g := by
  have calls := congrArg (·.calls) beside.side
  have sessions := congrArg (·.sessionWatches) beside.side
  have watches := congrArg (·.streamWatches) beside.side
  have streams := congrArg (·.streams) beside.side
  simp only [tunnelSide] at calls sessions watches streams
  simp only [isDrained, stream?, calls, sessions, watches, streams]

structure Attends (w u : World) : Prop where
  passes : Passes w u
  calls : u.calls = w.calls
  finished : u.finished = w.finished
  past : u.current ≠ w.current → u.IsPast w.current

-- What whoever attends to the call `c` has to drain: a generation that was to be drained before, or
-- one that has been replaced meanwhile.
def Owes (c : Call) (w u : World) (g : Nat) : Prop :=
  c.draining? = some g ∨ w.current = g ∧ u.current ≠ g

section Owes

variable {c : Call} {u next : World}

omit regular

theorem unowed (idle : c.draining? = none) (kept : u.current = w.current) {p : Nat → Prop} :
    ∀ g, Owes c w u g → p g := by
  rintro g (draining | ⟨rfl, changed⟩)
  · rw [idle] at draining
    cases draining
  · exact absurd kept changed

theorem Owes.kept {g : Nat} (owes : Owes c w next g)
    (same : next.current = u.current) : Owes c w u g :=
  owes.imp id fun ⟨now, changed⟩ => ⟨now, same ▸ changed⟩

end Owes

namespace Attends

variable {id : String} {c : Call} {u next : World}

omit regular in
theorem still (passes : Passes w u) (calls : u.calls = w.calls) (finished : u.finished = w.finished)
    (kept : u.current = w.current) : Attends w u :=
  ⟨passes, calls, finished, fun changed => absurd kept changed⟩

theorem start : Attends w w := .still (.refl regular) rfl rfl rfl

omit regular

theorem trans (h : Attends w u) (k : Attends u next) : Attends w next where
  passes := h.passes.trans k.passes
  calls := k.calls.trans h.calls
  finished := k.finished.trans h.finished
  past changed := by
    by_cases kept : u.current = w.current
    · exact kept ▸ k.past (kept ▸ changed)
    · exact k.passes.lasts.past (h.past kept)

theorem travels (h : Attends w u) (travels : Travels bare bare u next) : Attends w next :=
  h.trans (.still travels.passes (calls_of_frame travels.frame)
    (congrArg (·.finished) travels.frame) (congrArg (·.current) travels.frame))

theorem beside (h : Attends w u) (beside : Beside u next) : Attends w next :=
  h.travels (beside.travels h.passes.regular _)

theorem andThen (h : Attends w u) (later : Polls id u next)
    (replaces : next.current ≠ w.current →
      next.IsDraining id w.current ∨ next.isDrained w.current) : Polls id w next where
  passes := h.passes.trans later.passes
  others other different :=
    (later.others other different).trans (congrArg (List.lookup other) h.calls)
  creates c next was := later.creates c next ((congrArg (List.lookup id) h.calls).trans was)
  replaces := replaces
  finished := h.finished ▸ later.finished

theorem polls (h : Attends w u) (kept : u.current = w.current) (id : String) : Polls id w u := by
  refine ⟨h.passes, fun other _ => congrArg (List.lookup other) h.calls, ?_,
    fun changed => absurd kept changed, [], by simp [h.finished]⟩
  intro c later was now
  have same : u.call? id = w.call? id := congrArg (List.lookup id) h.calls
  obtain rfl := Option.some.inj (was.symm.trans (same.symm.trans now))
  exact fun _ still => still

variable (found : w.call? id = some c) (plain : c.tunnelDial? = none)

include found plain

theorem setCall {next : Call} (h : Attends w u) (never : next.mayTunnel = false)
    (fits : next.Fits u.frame)
    (drains : ∀ g, Owes c w u g → next.draining? = some g ∨ u.isDrained g) :
    Polls id w (u.setCall id next) := by
  have plain' := Call.tunnelDial?_of_mayTunnel never
  have still : Travels c.hands next.hands u u := by
    rw [c.hands_plain plain, next.hands_plain plain']
    exact .refl _ h.passes.regular
  have found' : u.call? id = some c := (congrArg (List.lookup id) h.calls).trans found
  have later : Polls id u (u.setCall id next) := by
    refine still.setCall h.passes.regular found' fits (fun g _ => ?_) (fun g _ => drains g ∘ .inl)
      fun g may => absurd may.mayTunnel (by simp [never])
    rw [next.dialGeneration?_eq, c.dialGeneration?_eq, plain, plain']
  apply h.andThen later
  intro changed
  refine (drains w.current (.inr ⟨rfl, changed⟩)).imp (fun draining => ?_)
    (later.passes.lasts.drained _ (h.past changed))
  exact (isDraining_iff later.passes.regular.frame.names).mpr
    ⟨next, by simp [call?_setCall, found'], draining⟩

theorem finish {f : Finish} (h : Attends w u)
    (drains : ∀ g, Owes c w u g → u.isDrained g) : Polls id w (u.finish id f) := by
  have still : Travels c.hands (fun _ => .empty) u u := by
    rw [c.hands_plain plain]
    exact .refl _ h.passes.regular
  have found' : u.call? id = some c := (congrArg (List.lookup id) h.calls).trans found
  have later : Polls id u (u.finish id f) := by
    refine still.finish h.passes.regular found' (fun g _ dials => ?_) fun g _ => drains g ∘ .inl
    rw [c.dialGeneration?_eq, plain] at dials
    cases dials
  refine h.andThen later fun changed => .inr ?_
  exact later.passes.lasts.drained _ (h.past changed) (drains w.current (.inr ⟨rfl, changed⟩))

end Attends

theorem awaitDrain_attends (g : Nat) : Attends w (w.awaitDrain g).1 := by
  unfold awaitDrain
  split
  · exact (Attends.start regular).beside (w.reconnecting_beside _)
  · exact .start regular

theorem replace_passes (gen : Generation) (found : w.generation? w.current = some gen)
    (fresh : Generation) (unused : fresh.pool = {})
    (scope : fresh.scope = (w.scopes.child w.root).2) :
    Passes w { w with
      scopes := (w.scopes.child w.root).1.cancel gen.scope
      generations := w.generations ++ [fresh]
      current := w.generations.length } := by
  have branched := childScope_passes regular w.root
  have cancelled := branched.trans (cancel_passes branched.regular gen.scope)
  have inside : gen.scope.token < w.scopes.forest.nodes.length :=
    regular.frame.scopes gen.bare (List.mem_of_getElem? (w.generation?_bare found))
  have gone : ((w.scopes.child w.root).1.cancel gen.scope).isCancelled gen.scope := by
    refine Forest.cancel_self _ (Nat.lt_of_lt_of_le inside ?_)
    simp [Scopes.child, Scopes.onToken, Forest.branch]
  have rooted : fresh.scope.token <
      ((w.scopes.child w.root).1.cancel gen.scope).forest.nodes.length := by
    rw [scope, Scopes.cancel, Forest.cancel_length]
    simp [Scopes.child, Scopes.onToken, Forest.branch]
  exact cancelled.trans (succeededBy_passes found gone rooted cancelled.regular unused)

theorem swap_attends (params : Server.Params) : Attends w (w.swap params).1 := by
  have unlocked : Attends w w.unlock := (Attends.start regular).beside (w.reconnecting_beside _)
  unfold swap
  dsimp only
  split
  · exact unlocked
  next gen found =>
    split
    · exact unlocked
    · let fresh :=
        Generation.make (w.scopes.child w.root).2 params w.keys w.settings.defaultServerPort
      let state : Stats.TunnelState :=
        if fresh.credentials.isSome then .trying else .notConfigured
      let next : World := { w with
        scopes := (w.scopes.child w.root).1.cancel gen.scope
        generations := w.generations ++ [fresh]
        current := w.generations.length }
      have current := regular.current_lt
      have past : next.IsPast w.current := by
        constructor
        · simpa [next] using Nat.lt_succ_of_lt current
        · exact Nat.ne_of_lt current
      have replaced : Attends w next :=
        ⟨replace_passes regular gen found fresh rfl rfl, rfl, rfl, fun _ => past⟩
      have published := (next.setConnectivity_level state "").travels replaced.passes.regular bare
      have announced := replaced.travels published
      exact announced.trans (awaitDrain_attends announced.passes.regular w.current)

theorem pollReconnect_attends (call : String) (params : Server.Params) (stage : ReconnectStage) :
    Attends w (w.pollReconnect call params stage).1 := by
  cases stage with
  | fresh =>
    have asked := (Attends.start regular).beside (w.reconnecting_beside (w.reconnecting ++ [call]))
    simp only [pollReconnect]
    split
    · exact asked.trans (swap_attends asked.passes.regular params)
    · exact asked
  | locking =>
    simp only [pollReconnect]
    split
    · exact swap_attends regular params
    · exact .start regular
  | draining g => exact awaitDrain_attends regular g

omit regular

def Reconnected.Drains (r : Reconnected) (g : Nat) : Prop :=
  match r.2 with
  | some next => next.draining? = some g
  | none => r.1.isDrained g

theorem awaitDrain_drains (g : Nat) : (w.awaitDrain g).Drains g := by
  simp only [awaitDrain]
  by_cases drained : w.isDrained g <;> simp only [drained]
  · exact drained
  · rfl

theorem swap_drains (params : Server.Params) (changed : (w.swap params).1.current ≠ w.current) :
    (w.swap params).Drains w.current := by
  unfold swap at changed ⊢
  dsimp only at changed ⊢
  split at changed
  · exact absurd rfl changed
  · split at changed
    · exact absurd rfl changed
    next same =>
      rw [if_neg same]
      exact awaitDrain_drains w.current

theorem pollReconnect_drains (call : String) (params : Server.Params) {stage : ReconnectStage}
    {g : Nat}
    (owes : stage.draining? = some g ∨
      w.current = g ∧ (w.pollReconnect call params stage).1.current ≠ g) :
    (w.pollReconnect call params stage).Drains g := by
  cases stage with
  | fresh =>
    obtain ⟨rfl, changed⟩ := owes.resolve_left (by simp [ReconnectStage.draining?])
    simp only [pollReconnect] at changed ⊢
    split at changed
    next holds =>
      rw [if_pos holds]
      exact swap_drains params changed
    next => exact absurd rfl changed
  | locking =>
    obtain ⟨rfl, changed⟩ := owes.resolve_left (by simp [ReconnectStage.draining?])
    simp only [pollReconnect] at changed ⊢
    split at changed
    next holds =>
      rw [if_pos holds]
      exact swap_drains params changed
    next => exact absurd rfl changed
  | draining other =>
    rcases owes with draining | ⟨rfl, changed⟩
    · cases draining
      exact awaitDrain_drains g
    · refine absurd ?_ changed
      simp only [pollReconnect, awaitDrain]
      split <;> rfl

end World

end Egress
