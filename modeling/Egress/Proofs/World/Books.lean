import Egress.Proofs.Tunnel.Ledger
import Egress.Proofs.World.Beside

set_option autoImplicit false

namespace Egress

open Tunnel

def TunnelStage.stake : TunnelStage → Stake
  | .waiting ticket => .waiting ticket
  | .linking _ | .shaking _ _ => .creating
  | .opening lease _ => .leasing lease.slot

def Call.tunnelDial? : Call → Option TunnelDial
  | .dial { stage := .tunneling d _, .. } => some d
  | _ => none

def TunnelDial.stakeIn? (d : TunnelDial) (g : Nat) : Option Stake :=
  if d.generation = g then some d.stage.stake else none

def Tunnel.Stream.stakeIn? (s : Stream) (g : Nat) : Option Stake :=
  if s.held ∧ s.generation = g then some (.leasing s.slot) else none

def SessionWatch.lease (x : SessionWatch) : Lease := { slot := x.slot, session := x.session }

def SessionWatch.leaseIn? (x : SessionWatch) (g : Nat) : Option Lease :=
  if x.ended = false ∧ x.generation = g then some x.lease else none

namespace World

def dialStakes (w : World) (g : Nat) : Multiset Stake :=
  ↑(w.calls.filterMap fun c => c.2.tunnelDial?.bind (·.stakeIn? g))

def streamStakes (w : World) (g : Nat) : Multiset Stake := ↑(w.streams.filterMap (·.stakeIn? g))

def watched (w : World) (g : Nat) : Multiset Lease := ↑(w.sessionWatches.filterMap (·.leaseIn? g))

def standing (w : World) (g : Nat) : Ledger := ⟨w.pool g, w.streamStakes g, w.watched g⟩

def ledger (w : World) (g : Nat) : Ledger :=
  ⟨w.pool g, w.dialStakes g + w.streamStakes g, w.watched g⟩

end World

def Tunnel.Generation.bare (g : Generation) : Generation := { g with pool := {}, lost := [] }

structure Frame where
  settings : Settings
  scopes : Scopes
  root : Scope
  generations : List Generation
  current : Nat
  calls : List (String × Call)
  finished : List (String × Finish)

def TunnelSide.frame (t : TunnelSide) : Frame where
  settings := t.settings
  scopes := t.scopes
  root := t.root
  generations := t.generations.map (·.bare)
  current := t.current
  calls := t.calls
  finished := t.finished

def TunnelDial.Fits (f : Frame) (d : TunnelDial) : Prop :=
  ∃ gen, f.generations[d.generation]? = some gen ∧ gen.credentials.isSome ∧
    ∀ link, d.stage = .linking link →
      link.request.counter = .tunnelSessions ∧ link.request.scope = gen.scope

def Call.Fits (f : Frame) : Call → Prop
  | .dial { stage := .tunneling d _, .. } => d.Fits f
  | .dial { stage := .connecting c _, .. } => c.request.counter = .tcpConnections
  | _ => True

theorem TunnelDial.Fits.more {f next : Frame} {d : TunnelDial} (fits : d.Fits f)
    (more : f.generations <+: next.generations) : d.Fits next := by
  obtain ⟨gen, found, rest⟩ := fits
  obtain ⟨new, same⟩ := more
  have inside := (List.getElem?_eq_some_iff.mp found).1
  exact ⟨gen, by rw [← same, List.getElem?_append_left inside, found], rest⟩

theorem Call.Fits.more {f next : Frame} {c : Call} (fits : c.Fits f)
    (more : f.generations <+: next.generations) : c.Fits next := by
  unfold Call.Fits at fits ⊢
  split
  · exact TunnelDial.Fits.more fits more
  · exact fits
  · trivial

structure Frame.Regular (f : Frame) : Prop where
  names : (f.calls.map (·.1)).Nodup
  current : f.current < f.generations.length
  calls : ∀ c ∈ f.calls, c.2.Fits f
  root : f.root.token < f.scopes.forest.nodes.length
  scopes : ∀ gen ∈ f.generations, gen.scope.token < f.scopes.forest.nodes.length
  -- Only the current generation goes on.
  past : ∀ (g : Nat) (gen : Generation), f.generations[g]? = some gen → g ≠ f.current →
    f.scopes.isCancelled gen.scope

namespace World

def frame (w : World) : Frame := w.tunnelSide.frame

-- What every step of a world keeps, and every step relies on.
structure Regular (w : World) : Prop where
  frame : w.frame.Regular
  streams : ∀ s ∈ w.streams, s.generation < w.generations.length
  numbers : w.streams.map (·.id) = List.range w.streams.length
  watchers : w.streamWatches.map (·.stream) = List.range w.streams.length
  watches : ∀ x ∈ w.sessionWatches,
    x.generation < w.generations.length ∧ x.session < w.script.sessions.length
  apart : w.Apart
  even : w.gauge = Int32.ofNat (w.streams.countP (·.held))

theorem frame_generations_length (w : World) :
    w.frame.generations.length = w.generations.length := by
  simp [frame, TunnelSide.frame, tunnelSide]

theorem Regular.current_lt {w : World} (regular : w.Regular) : w.current < w.generations.length :=
  w.frame_generations_length ▸ regular.frame.current

end World

def Simulation.Script.Keeps (s t : Simulation.Script) : Prop :=
  ∀ (i : Nat) (x : Simulation.Session), s.sessions[i]? = some x →
    ∃ y : Simulation.Session, t.sessions[i]? = some y ∧ y.link = x.link ∧ (x.closed → y.closed)

structure Tunnel.Stream.Becomes (s t : Stream) : Prop where
  id : t.id = s.id
  generation : t.generation = s.generation
  slot : t.slot = s.slot
  scope : t.scope = s.scope
  held : t.held → s.held

namespace World

def isTripped (w : World) (g slot : Nat) : Bool :=
  (w.generation? g).any fun gen => (gen.lostText? slot).isSome

-- What comes new during a turn in generation `g` is of that generation, and nothing goes.
structure Grows (g : Nat) (w next : World) : Prop where
  script : w.script.Keeps next.script
  lost : ∀ other slot, w.isTripped other slot → next.isTripped other slot
  sessionWatches : ∃ new, next.sessionWatches = w.sessionWatches ++ new ∧
    ∀ x ∈ new, x.ended = false ∧ x.generation = g
  streamWatches : ∃ new, next.streamWatches = w.streamWatches ++ new ∧
    ∀ x ∈ new, x.ended = false
  streams : ∀ (i : Nat) (s : Stream), w.streams[i]? = some s →
    ∃ t, next.streams[i]? = some t ∧ s.Becomes t
  arrivals : ∀ (i : Nat) (t : Stream), next.streams[i]? = some t → w.streams.length ≤ i →
    t.generation = g

end World

namespace Simulation.Script.Keeps

theorem refl (s : Script) : s.Keeps s := fun _ x found => ⟨x, found, rfl, id⟩

theorem trans {s t u : Script} (h : s.Keeps t) (k : t.Keeps u) : s.Keeps u := by
  intro i x found
  obtain ⟨y, foundY, linkY, closedY⟩ := h i x found
  obtain ⟨z, foundZ, linkZ, closedZ⟩ := k i y foundY
  exact ⟨z, foundZ, linkZ.trans linkY, closedZ ∘ closedY⟩

theorem length_le {s t : Script} (h : s.Keeps t) : s.sessions.length ≤ t.sessions.length := by
  by_contra fewer
  obtain ⟨y, found, -⟩ := h t.sessions.length s.sessions[t.sessions.length] (by simp)
  simp at found

end Simulation.Script.Keeps

namespace Tunnel.Stream.Becomes

theorem refl (s : Stream) : s.Becomes s := ⟨rfl, rfl, rfl, rfl, fun held => held⟩

theorem trans {s t u : Stream} (h : s.Becomes t) (k : t.Becomes u) : s.Becomes u :=
  ⟨k.id.trans h.id, k.generation.trans h.generation, k.slot.trans h.slot, k.scope.trans h.scope,
    h.held ∘ k.held⟩

end Tunnel.Stream.Becomes

namespace World.Grows

variable {g : Nat} {u w next : World}

theorem refl (g : Nat) (w : World) : Grows g w w where
  script := .refl _
  lost _ _ := id
  sessionWatches := ⟨[], by simp⟩
  streamWatches := ⟨[], by simp⟩
  streams _ s found := ⟨s, found, .refl s⟩
  arrivals i t found beyond := by
    rw [List.getElem?_eq_none beyond] at found
    cases found

theorem trans (h : Grows g u w) (k : Grows g w next) : Grows g u next where
  script := h.script.trans k.script
  lost other slot := k.lost other slot ∘ h.lost other slot
  sessionWatches := by
    obtain ⟨first, same, fresh⟩ := h.sessionWatches
    obtain ⟨second, same', fresh'⟩ := k.sessionWatches
    refine ⟨first ++ second, by rw [same', same, List.append_assoc], fun x member => ?_⟩
    exact (List.mem_append.mp member).elim (fresh x) (fresh' x)
  streamWatches := by
    obtain ⟨first, same, fresh⟩ := h.streamWatches
    obtain ⟨second, same', fresh'⟩ := k.streamWatches
    refine ⟨first ++ second, by rw [same', same, List.append_assoc], fun x member => ?_⟩
    exact (List.mem_append.mp member).elim (fresh x) (fresh' x)
  streams i s found := by
    obtain ⟨t, foundT, becomes⟩ := h.streams i s found
    obtain ⟨r, foundR, becomes'⟩ := k.streams i t foundT
    exact ⟨r, foundR, becomes.trans becomes'⟩
  arrivals i t found beyond := by
    by_cases known : i < w.streams.length
    · have foundS := List.getElem?_eq_getElem known
      obtain ⟨r, foundR, becomes⟩ := k.streams i _ foundS
      obtain rfl : r = t := Option.some.inj (foundR.symm.trans found)
      exact becomes.generation.trans (h.arrivals i _ foundS beyond)
    · exact k.arrivals i t found (Nat.le_of_not_lt known)

end World.Grows

structure Hand where
  stakes : Multiset Stake := 0
  watched : Multiset Lease := 0

namespace Hand

def empty : Hand := {}

def stake (x : Stake) : Hand := { stakes := {x} }

def watch (lease : Lease) : Hand := { watched := {lease} }

def within (h : Hand) (g : Nat) : Nat → Hand := fun other => if other = g then h else .empty

end Hand

namespace Tunnel.Ledger

def join (l : Ledger) (h : Hand) : Ledger := ⟨l.pool, h.stakes + l.stakes, h.watched + l.watched⟩

@[simp]
theorem join_empty (l : Ledger) : l.join .empty = l := by
  simp [join, Hand.empty]

theorem Step.join {cap : Nat} {l l' : Ledger} (step : Step cap l l') (h : Hand) :
    Step cap (l.join h) (l'.join h) := by
  cases step <;> simp only [Ledger.join, Multiset.add_cons] <;> constructor

theorem Steps.join {cap : Nat} {l l' : Ledger} (steps : Steps cap l l') (h : Hand) :
    Steps cap (l.join h) (l'.join h) :=
  steps.lift _ fun _ _ step => step.join h

end Tunnel.Ledger

namespace World

-- A turn in generation `g` that takes the hand from `a` to `b`.
structure Turn (g : Nat) (a b : Hand) (w next : World) : Prop where
  frame : next.frame = w.frame
  grows : Grows g w next
  regular : w.Regular → g < w.generations.length → next.Regular
  own : w.Regular → g < w.generations.length →
    Ledger.Steps w.settings.sessionCap ((w.standing g).join a) ((next.standing g).join b)
  others : ∀ other, other ≠ g → next.standing other = w.standing other

theorem generations_length_of_frame {w next : World} (same : next.frame = w.frame) :
    next.generations.length = w.generations.length := by
  rw [← next.frame_generations_length, ← w.frame_generations_length, same]

namespace Turn

variable {g : Nat} {a b c : Hand} {u w next : World}

theorem refl (g : Nat) (a : Hand) (w : World) : Turn g a a w w :=
  ⟨rfl, .refl g w, fun regular _ => regular, fun _ _ => .refl, fun _ _ => rfl⟩

theorem trans (h : Turn g a b u w) (k : Turn g b c w next) : Turn g a c u next where
  frame := k.frame.trans h.frame
  grows := h.grows.trans k.grows
  regular regular inside :=
    k.regular (h.regular regular inside) (generations_length_of_frame h.frame ▸ inside)
  own regular inside := by
    have second := k.own (h.regular regular inside) (generations_length_of_frame h.frame ▸ inside)
    have settings : w.settings = u.settings := congrArg (·.settings) h.frame
    rw [settings] at second
    exact (h.own regular inside).trans second
  others other different := (k.others other different).trans (h.others other different)

end Turn

structure Level (w next : World) : Prop where
  frame : next.frame = w.frame
  generations : next.generations = w.generations
  streams : next.streams = w.streams
  sessionWatches : next.sessionWatches = w.sessionWatches
  streamWatches : next.streamWatches = w.streamWatches
  script : w.script.Keeps next.script
  apart : w.Apart → next.Apart
  gauge : w.Apart → next.gauge = w.gauge

theorem Beside.level {w next : World} (h : Beside w next) : Level w next where
  frame := congrArg TunnelSide.frame h.side
  generations := congrArg (·.generations) h.side
  streams := congrArg (·.streams) h.side
  sessionWatches := congrArg (·.sessionWatches) h.side
  streamWatches := congrArg (·.streamWatches) h.side
  script := (congrArg (·.script) h.side : next.script = w.script) ▸ .refl _
  apart := h.apart
  gauge := h.gauge

theorem Level.trans {u w next : World} (h : Level u w) (k : Level w next) : Level u next where
  frame := k.frame.trans h.frame
  generations := k.generations.trans h.generations
  streams := k.streams.trans h.streams
  sessionWatches := k.sessionWatches.trans h.sessionWatches
  streamWatches := k.streamWatches.trans h.streamWatches
  script := h.script.trans k.script
  apart := k.apart ∘ h.apart
  gauge apart := (k.gauge (h.apart apart)).trans (h.gauge apart)

theorem Level.standing {w next : World} (h : Level w next) (g : Nat) :
    next.standing g = w.standing g := by
  simp only [World.standing, streamStakes, watched, pool, generation?, h.generations,
    h.streams, h.sessionWatches]

theorem Level.turn {w next : World} (h : Level w next) (g : Nat) (a : Hand) :
    Turn g a a w next := by
  refine ⟨h.frame, ?grows, fun regular _ => ?regular, fun _ _ => ?own, fun other _ =>
    h.standing other⟩
  case grows =>
    constructor
    case script => exact h.script
    case lost =>
      intro other slot tripped
      simpa only [isTripped, generation?, h.generations] using tripped
    case sessionWatches => exact ⟨[], by simp [h.sessionWatches]⟩
    case streamWatches => exact ⟨[], by simp [h.streamWatches]⟩
    case streams =>
      rw [h.streams]
      exact fun i s found => ⟨s, found, .refl s⟩
    case arrivals =>
      rw [h.streams]
      exact (Grows.refl g w).arrivals
  case regular =>
    constructor
    case frame => exact h.frame ▸ regular.frame
    case streams => exact h.streams ▸ h.generations ▸ regular.streams
    case numbers => exact h.streams ▸ regular.numbers
    case watchers => exact h.streamWatches ▸ h.streams ▸ regular.watchers
    case watches =>
      intro x member
      rw [h.sessionWatches] at member
      have ⟨inside, known⟩ := regular.watches x member
      exact ⟨h.generations ▸ inside, Nat.lt_of_lt_of_le known h.script.length_le⟩
    case apart => exact h.apart regular.apart
    case even => exact (h.gauge regular.apart).trans (h.streams ▸ regular.even)
  case own => rw [h.standing]

theorem Beside.turn {w next : World} (h : Beside w next) (g : Nat) (a : Hand) :
    Turn g a a w next :=
  h.level.turn g a

end World

end Egress
