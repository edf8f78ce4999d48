import Egress.Proofs.World.Books

set_option autoImplicit false

namespace Egress

open Simulation Tunnel

namespace Simulation.Script

variable (s : Script)

theorem Keeps.of_sessions {s t : Script} (same : t.sessions = s.sessions) : s.Keeps t := by
  intro i x found
  exact ⟨x, same ▸ found, rfl, id⟩

theorem updateSession_keeps (session : Nat) (f : Session → Session)
    (link : ∀ x, (f x).link = x.link) (closed : ∀ x : Session, x.closed → (f x).closed) :
    s.Keeps (s.updateSession session f) := by
  intro i x found
  refine ⟨if session = i then f x else x, ?found, ?link, ?closed⟩
  case found =>
    simp only [updateSession, List.getElem?_modify, found, Option.map_eq_map, Option.map_some]
  case link =>
    split
    · exact link x
    · rfl
  case closed =>
    intro was
    split
    · exact closed x was
    · exact was

theorem addSession_keeps (link : Nat) : s.Keeps (s.addSession link).1 := by
  intro i x found
  have inside : i < s.sessions.length := (List.getElem?_eq_some_iff.mp found).1
  exact ⟨x, by simp [addSession, List.getElem?_append_left inside, found], rfl, id⟩

theorem updatePipe_keeps (pipe : Nat) (f : Pipe → Pipe) : s.Keeps (s.updatePipe pipe f) :=
  .of_sessions rfl

theorem addPipe_keeps (session : Nat) (address : String) :
    s.Keeps (s.addPipe session address).1 := by
  unfold addPipe
  refine .trans ?_ (updateSession_keeps _ _ _ (fun _ => rfl) fun _ => id)
  apply Keeps.of_sessions
  split <;> rfl

theorem updatePipes_sessions (ends : List (String × Nat)) :
    (ends.foldl (fun s e => s.updatePipe e.2 Pipe.drop) s).sessions = s.sessions := by
  induction ends generalizing s with
  | nil => rfl
  | cons e rest ih => exact ih _

theorem close_keeps (session : Nat) : s.Keeps (s.close session) :=
  .trans (.of_sessions (updatePipes_sessions s _))
    (updateSession_keeps _ _ _ (fun _ => rfl) fun _ _ => rfl)

theorem close_closes {session : Nat} (inside : session < s.sessions.length) :
    ((s.close session).session? session).any (·.closed) := by
  simp [close, session?, updateSession, updatePipes_sessions, inside]

end Simulation.Script

namespace Tunnel.Generation

theorem trip_lost (gen : Generation) (slot : Nat) (text : String) :
    ((gen.trip slot text).lostText? slot).isSome := by
  unfold trip
  split
  · assumption
  · simp [lostText?, List.lookup_append]

end Tunnel.Generation

namespace Tunnel.Stream

theorem release_becomes (s : Stream) : s.Becomes s.release :=
  ⟨rfl, rfl, rfl, rfl, by simp [release]⟩

theorem touch_eq (s : Stream) (cancelled : Bool) (lost : Option String) :
    s.touch cancelled lost = if !s.hasPipe then s else if cancelled then s.release
      else if lost.isSome then s.dropPipe else s := by
  unfold touch asks
  split_ifs with gone stopped ended
  · rfl
  · rfl
  · rw [ended]
    rfl
  · have going : lost.isSome = false := by simpa using ended
    rw [going]
    rfl

theorem touch_becomes (s : Stream) (cancelled : Bool) (lost : Option String) :
    s.Becomes (s.touch cancelled lost) := by
  rw [touch_eq]
  split_ifs
  · exact .refl s
  · exact s.release_becomes
  · exact ⟨rfl, rfl, rfl, rfl, fun held => held⟩
  · exact .refl s

end Tunnel.Stream

namespace World

variable (w : World)

theorem script_level (script : Script) (keeps : w.script.Keeps script) :
    Level w { w with script } :=
  ⟨rfl, rfl, rfl, rfl, rfl, keeps, id, fun _ => rfl⟩

theorem setConnectivity_level (state : Stats.TunnelState) (info : String) :
    Level w (w.setConnectivity state info) := by
  unfold setConnectivity
  split
  · exact ⟨rfl, rfl, rfl, rfl, rfl, .refl _, id, fun _ => rfl⟩
  · exact (Beside.refl w).level

theorem publish_level (generation : Nat) (state : Stats.TunnelState) (info : String) :
    Level w (w.publish generation state info) := by
  unfold publish
  split
  · exact w.setConnectivity_level state info
  · exact (Beside.refl w).level

section Generations

variable (g : Nat) (f : Generation → Generation)

theorem generation?_updateGeneration (other : Nat) :
    (w.updateGeneration g f).generation? other =
      (w.generation? other).map fun gen => if g = other then f gen else gen := by
  simp only [generation?, updateGeneration, List.getElem?_modify, Option.map_eq_map]

theorem updateGeneration_frame (bare : ∀ gen, (f gen).bare = gen.bare) :
    (w.updateGeneration g f).frame = w.frame := by
  have same : (w.generations.modify g f).map (·.bare) = w.generations.map (·.bare) := by
    apply List.ext_getElem?
    intro i
    simp only [List.getElem?_map, List.getElem?_modify, Option.map_eq_map, Option.map_map]
    congr 1
    funext gen
    simp only [Function.comp]
    split
    · exact bare gen
    · rfl
  simp only [frame, TunnelSide.frame, tunnelSide, updateGeneration, same]

theorem updateGeneration_standing {other : Nat} (different : other ≠ g) :
    (w.updateGeneration g f).standing other = w.standing other := by
  have same : (w.updateGeneration g f).pool other = w.pool other := by
    simp [pool, generation?_updateGeneration, different.symm]
  simp only [standing, same]
  rfl

theorem updateGeneration_turn {a b : Hand} (bare : ∀ gen, (f gen).bare = gen.bare)
    (lost : ∀ gen slot, (gen.lostText? slot).isSome → ((f gen).lostText? slot).isSome)
    (own : g < w.generations.length → Ledger.Steps w.settings.sessionCap ((w.standing g).join a)
      (((w.updateGeneration g f).standing g).join b)) :
    Turn g a b w (w.updateGeneration g f) := by
  have frame := w.updateGeneration_frame g f bare
  refine ⟨frame, ?grows, ?regular, fun _ => own, fun _ => w.updateGeneration_standing g f⟩
  case grows =>
    constructor
    case script => exact .refl _
    case lost =>
      intro other slot tripped
      rw [isTripped, generation?_updateGeneration]
      rw [isTripped] at tripped
      cases found : w.generation? other with
      | none => simp [found] at tripped
      | some gen =>
        simp only [found, Option.any_some, Option.map_some] at tripped ⊢
        split
        · exact lost gen slot tripped
        · exact tripped
    case sessionWatches => exact ⟨[], by simp [updateGeneration]⟩
    case streamWatches => exact ⟨[], by simp [updateGeneration]⟩
    case streams => exact fun i s found => ⟨s, found, .refl s⟩
    case arrivals => exact (Grows.refl g w).arrivals
  case regular =>
    intro regular _
    have length : (w.updateGeneration g f).generations.length = w.generations.length :=
      generations_length_of_frame frame
    exact
      { frame := frame ▸ regular.frame
        streams := length ▸ regular.streams
        numbers := regular.numbers
        watchers := regular.watchers
        watches := length ▸ regular.watches
        apart := regular.apart
        even := regular.even }

end Generations

theorem updatePool_frame (g : Nat) (f : Pool → Pool) : (w.updatePool g f).frame = w.frame :=
  w.updateGeneration_frame g _ fun _ => rfl

theorem pool_updatePool {g : Nat} (inside : g < w.generations.length) (f : Pool → Pool) :
    (w.updatePool g f).pool g = f (w.pool g) := by
  have found : w.generation? g = some w.generations[g] := List.getElem?_eq_getElem inside
  simp [updatePool, pool, generation?_updateGeneration, found]

theorem updatePool_turn {g : Nat} {a b : Hand} (f : Pool → Pool)
    (step : ∀ m v, Ledger.Step w.settings.sessionCap ⟨w.pool g, a.stakes + m, a.watched + v⟩
      ⟨f (w.pool g), b.stakes + m, b.watched + v⟩) :
    Turn g a b w (w.updatePool g f) := by
  refine w.updateGeneration_turn g _ (fun _ => rfl) (fun _ _ => id) fun inside => .single ?_
  have same : (w.updatePool g f).standing g = { w.standing g with pool := f (w.pool g) } := by
    rw [← w.pool_updatePool inside f]
    rfl
  exact same ▸ step _ _

theorem enter_turn (g : Nat) :
    Turn g .empty (.stake ((w.pool g).acquire w.settings.sessionCap true).2.stake) w
      (w.updatePool g fun _ => ((w.pool g).acquire w.settings.sessionCap true).1) := by
  apply w.updatePool_turn _
  intro m v
  simpa [Hand.empty, Hand.stake, Hand.watch] using Ledger.Step.enter (w.pool g) m v

theorem retry_turn (g ticket : Nat) :
    Turn g (.stake (.waiting ticket)) (.stake ((w.pool g).acquire w.settings.sessionCap false).2.stake) w
      (w.updatePool g fun _ => ((w.pool g).acquire w.settings.sessionCap false).1) := by
  apply w.updatePool_turn _
  intro m v
  simpa [Hand.empty, Hand.stake, Hand.watch] using Ledger.Step.retry (w.pool g) ticket m v

theorem withdraw_turn (g ticket : Nat) :
    Turn g (.stake (.waiting ticket)) .empty w
      (w.updatePool g Pool.withdraw) := by
  apply w.updatePool_turn _
  intro m v
  simpa [Hand.empty, Hand.stake, Hand.watch] using Ledger.Step.withdraw (w.pool g) ticket m v

theorem creationFailed_turn (g : Nat) :
    Turn g (.stake .creating) .empty w
      (w.updatePool g Pool.creationFailed) := by
  apply w.updatePool_turn _
  intro m v
  simpa [Hand.empty, Hand.stake, Hand.watch] using Ledger.Step.fail (w.pool g) m v

theorem release_turn (g slot : Nat) :
    Turn g (.stake (.leasing slot)) .empty w
      (w.updatePool g (·.release slot)) := by
  apply w.updatePool_turn _
  intro m v
  simpa [Hand.empty, Hand.stake, Hand.watch] using Ledger.Step.release (w.pool g) slot m v

theorem insert_turn (g session : Nat) :
    Turn g (.stake .creating) ⟨{.leasing ((w.pool g).insert session).2.slot}, {((w.pool g).insert session).2}⟩ w
      (w.updatePool g fun _ => ((w.pool g).insert session).1) := by
  apply w.updatePool_turn _
  intro m v
  simpa [Hand.empty, Hand.stake, Hand.watch] using Ledger.Step.insert (w.pool g) session m v

theorem remove_turn (g : Nat) (lease : Lease) :
    Turn g (.watch lease) .empty w
      (w.updatePool g fun _ => ((w.pool g).remove lease.slot).1) := by
  apply w.updatePool_turn _
  intro m v
  simpa [Hand.empty, Hand.stake, Hand.watch] using Ledger.Step.remove (w.pool g) lease m v

theorem trip_turn (g slot : Nat) (text : String) (a : Hand) :
    Turn g a a w (w.updateGeneration g (·.trip slot text)) := by
  have trip (gen : Generation) : (gen.trip slot text).bare = gen.bare ∧
      (gen.trip slot text).pool = gen.pool := by
    unfold Generation.trip
    split <;> exact ⟨rfl, rfl⟩
  refine w.updateGeneration_turn g _ (fun gen => (trip gen).1) ?lost fun inside => ?own
  case lost =>
    intro gen other some
    unfold Generation.trip
    split
    · exact some
    · simp only [Generation.lostText?, List.lookup_append, Option.isSome_or] at some ⊢
      simp [some]
  case own =>
    have found : w.generation? g = some w.generations[g] := List.getElem?_eq_getElem inside
    have same : (w.updateGeneration g (·.trip slot text)).pool g = w.pool g := by
      simp [pool, generation?_updateGeneration, found, trip]
    have standing : (w.updateGeneration g (·.trip slot text)).standing g = w.standing g := by
      simp only [World.standing, same]
      rfl
    rw [standing]

theorem trip_trips {g : Nat} (inside : g < w.generations.length) (slot : Nat) (text : String) :
    (w.updateGeneration g (·.trip slot text)).isTripped g slot := by
  have found : w.generation? g = some w.generations[g] := List.getElem?_eq_getElem inside
  simp [isTripped, generation?_updateGeneration, found, Generation.trip_lost]

theorem watchSession_turn (watch : SessionWatch) (fresh : watch.ended = false)
    (known : watch.session < w.script.sessions.length) (stakes : Multiset Stake) :
    Turn watch.generation ⟨stakes, {watch.lease}⟩ ⟨stakes, 0⟩ w
      { w with sessionWatches := w.sessionWatches ++ [watch] } := by
  refine ⟨rfl, ?grows, fun regular inside => ?regular, fun _ _ => ?own, fun other different => ?others⟩
  case grows =>
    refine { Grows.refl watch.generation w with sessionWatches := ⟨[watch], rfl, ?_⟩ }
    intro x member
    obtain rfl := List.mem_singleton.mp member
    exact ⟨fresh, rfl⟩
  case regular =>
    refine { regular with watches := ?_ }
    intro x member
    rcases List.mem_append.mp member with old | new
    · exact regular.watches x old
    · obtain rfl := List.mem_singleton.mp new
      exact ⟨inside, known⟩
  case own =>
    suffices same : (w.standing watch.generation).join ⟨stakes, {watch.lease}⟩ =
        (standing { w with sessionWatches := w.sessionWatches ++ [watch] }
          watch.generation).join ⟨stakes, 0⟩ by
      rw [same]
    simp [Ledger.join, standing, World.watched, SessionWatch.leaseIn?, fresh, ← Multiset.coe_add,
      Multiset.add_comm, pool, streamStakes, generation?]
  case others =>
    simp [standing, World.watched, SessionWatch.leaseIn?, fresh, different.symm, pool,
      streamStakes, generation?]

section Added

variable {w} (stream : Stream) (t : Task)

-- A dial has come to its stream, and somebody watches over it.
def addStream (w : World) (stream : Stream) (t : Task) : World :=
  { (w.count .tunnelConnections 1).spawn t with
    streams := w.streams ++ [stream]
    streamWatches := w.streamWatches ++ [{ stream := stream.id }] }

theorem addStream_grows : Grows stream.generation w (w.addStream stream t) where
  script := .refl _
  lost _ _ tripped := tripped
  sessionWatches := ⟨[], by simp [addStream, spawn, count, raise]⟩
  streamWatches := ⟨_, rfl, by simp⟩
  streams := by
    intro i s found
    have inside : i < w.streams.length := (List.getElem?_eq_some_iff.mp found).1
    exact ⟨s, by simp [addStream, List.getElem?_append_left inside, found], .refl s⟩
  arrivals := by
    intro i t found beyond
    simp only [addStream, List.getElem?_append_right beyond] at found
    obtain rfl := List.mem_singleton.mp (List.mem_of_getElem? found)
    rfl

variable {stream} (held : stream.held = true) (number : stream.id = w.streams.length)

include held number in
theorem addStream_regular (regular : w.Regular)
    (inside : stream.generation < w.generations.length) :
    (w.addStream stream t).Regular where
  frame := regular.frame
  streams := by
    intro s member
    rcases List.mem_append.mp member with old | new
    · exact regular.streams s old
    · obtain rfl := List.mem_singleton.mp new
      exact inside
  numbers := by simp [addStream, regular.numbers, number, List.range_succ]
  watchers := by simp [addStream, regular.watchers, number, List.range_succ]
  watches := regular.watches
  apart := regular.apart
  even := by
    have even := regular.even
    simp only [gauge] at even
    simp [addStream, gauge, spawn, count, raise, even, held]

include held number in
theorem addStream_turn : Turn stream.generation (.stake (.leasing stream.slot)) .empty w
    (w.addStream stream t) := by
  refine ⟨rfl, addStream_grows stream t,
    fun regular inside => addStream_regular t held number regular inside, fun _ _ => ?own,
    fun other different => ?others⟩
  case own =>
    suffices same : (w.standing stream.generation).join (.stake (.leasing stream.slot)) =
        Ledger.join ((w.addStream stream t).standing stream.generation) .empty by
      rw [same]
    simp [Ledger.join, Hand.stake, Hand.empty, standing, World.watched, streamStakes,
      Stream.stakeIn?, held, ← Multiset.coe_add, Multiset.add_comm, pool, generation?, addStream,
      spawn, count, raise]
  case others =>
    simp [standing, World.watched, streamStakes, Stream.stakeIn?, different.symm, pool,
      generation?, addStream, spawn, count, raise]

end Added

theorem streamOpened_turn (d : TunnelDial) (lease : Lease) :
    Turn d.generation (.stake (.leasing lease.slot)) .empty w (w.streamOpened d lease).1 := by
  have scripted := w.script_level _ (w.script.addPipe_keeps lease.session d.address)
  let stream : Tunnel.Stream :=
    { id := w.streams.length, address := d.address, generation := d.generation, slot := lease.slot,
      scope := d.scope, pipe := (w.script.addPipe lease.session d.address).2 }
  have added := addStream_turn
    (w := { w with script := (w.script.addPipe lease.session d.address).1 })
    (.streamWatch w.streamWatches.length) (rfl : stream.held = true) rfl
  exact (scripted.turn d.generation _).trans added

theorem modify_split {α : Type} {l : List α} {i : Nat} {x : α} (found : l[i]? = some x)
    (f : α → α) : ∃ front back, l = front ++ x :: back ∧ l.modify i f = front ++ f x :: back := by
  obtain ⟨inside, rfl⟩ := List.getElem?_eq_some_iff.mp found
  exact ⟨l.take i, l.drop (i + 1), by simp, List.modify_eq_take_cons_drop inside⟩

theorem Regular.stream_id (regular : w.Regular) {id : Nat} {s : Stream}
    (found : w.stream? id = some s) : s.id = id := by
  have number : (w.streams.map (·.id))[id]? = some s.id := by
    simpa using ⟨s, found, rfl⟩
  rw [regular.numbers] at number
  simpa using (List.getElem?_eq_some_iff.mp number).2.symm

-- What a stream that becomes another one gives out of its hands.
def handedBack (s next : Stream) : Hand :=
  if s.held && !next.held then .stake (.leasing s.slot) else .empty

section Replaced

variable {w} {id : Nat} {s : Stream} {f : Stream → Stream} (found : w.stream? id = some s)
  (becomes : s.Becomes (f s)) (bus : Event.Bus) {counters : Stats.Counters}

include found becomes

theorem updateStream_grows (g : Nat) : Grows g w { w.updateStream id f with bus, counters } where
  script := .refl _
  lost _ _ tripped := tripped
  sessionWatches := ⟨[], by simp [updateStream]⟩
  streamWatches := ⟨[], by simp [updateStream]⟩
  streams := by
    intro i t foundT
    refine ⟨if id = i then f t else t, ?_, ?_⟩
    · simp [updateStream, List.getElem?_modify, foundT]
    · split
      next same =>
        obtain rfl : s = t := Option.some.inj (found.symm.trans (same ▸ foundT))
        exact becomes
      next => exact .refl t
  arrivals := by
    intro i t foundT beyond
    have missing : w.streams[i]? = none := List.getElem?_eq_none beyond
    simp [updateStream, List.getElem?_modify, missing] at foundT

theorem updateStream_even (regular : w.Regular) (counted : counters.get .tunnelConnections =
    w.gauge + if s.held && !(f s).held then -1 else 0) :
    counters.get .tunnelConnections =
      Int32.ofNat ((w.updateStream id f).streams.countP (·.held)) := by
  obtain ⟨front, back, before, after⟩ := modify_split found f
  have after : (w.updateStream id f).streams = front ++ f s :: back := after
  have even := regular.even
  have held := becomes.held
  have one : (1 : Int32) + -1 = 0 := rfl
  rw [counted, even]
  simp only [after, before, List.countP_append, List.countP_cons, Int32.ofNat_add]
  cases was : s.held <;> cases now : (f s).held
  case false.true => simp [was, now] at held
  all_goals simp [Int32.add_assoc, one]

theorem updateStream_regular (regular : w.Regular) (counted : counters.get .tunnelConnections =
    w.gauge + if s.held && !(f s).held then -1 else 0) :
    ({ w.updateStream id f with bus, counters } : World).Regular := by
  obtain ⟨front, back, before, after⟩ := modify_split found f
  have after : (w.updateStream id f).streams = front ++ f s :: back := after
  have length : (w.updateStream id f).streams.length = w.streams.length := by
    simp [updateStream]
  have ids : (w.updateStream id f).streams.map (·.id) = w.streams.map (·.id) := by
    simp only [after, before, List.map_append, List.map_cons, becomes.id]
  constructor
  case frame => exact regular.frame
  case streams =>
    intro t member
    have member : t ∈ (w.updateStream id f).streams := member
    have inside := regular.streams
    simp only [after, before, List.mem_append, List.mem_cons] at member inside
    rcases member with old | rfl | old
    · exact inside t (.inl old)
    · exact becomes.generation ▸ inside s (.inr (.inl rfl))
    · exact inside t (.inr (.inr old))
  case numbers => exact ids.trans (length ▸ regular.numbers)
  case watchers => exact regular.watchers.trans (congrArg _ length.symm)
  case watches => exact regular.watches
  case apart => exact regular.apart
  case even => exact updateStream_even found becomes regular counted

theorem updateStream_stakes : w.streamStakes s.generation =
    (handedBack s (f s)).stakes + (w.updateStream id f).streamStakes s.generation := by
  obtain ⟨front, back, before, after⟩ := modify_split found f
  have after : (w.updateStream id f).streams = front ++ f s :: back := after
  have held := becomes.held
  simp only [streamStakes, after, before, List.filterMap_append, List.filterMap_cons,
    Stream.stakeIn?, becomes.generation, becomes.slot, handedBack]
  cases was : s.held <;> cases now : (f s).held <;>
    simp_all [Hand.empty, Hand.stake, ← Multiset.coe_add, ← Multiset.cons_coe]

theorem updateStream_stakes_other {g : Nat} (different : g ≠ s.generation) :
    (w.updateStream id f).streamStakes g = w.streamStakes g := by
  obtain ⟨front, back, before, after⟩ := modify_split found f
  have after : (w.updateStream id f).streams = front ++ f s :: back := after
  simp [streamStakes, after, before, Stream.stakeIn?, becomes.generation, different.symm]

end Replaced

theorem replaceStream_turn {id : Nat} {s : Stream} (found : w.stream? id = some s)
    (f : Stream → Stream) (becomes : s.Becomes (f s)) (bus : Event.Bus) (counters : Stats.Counters)
    (counted : counters.get .tunnelConnections =
      w.gauge + if s.held && !(f s).held then -1 else 0) :
    Turn s.generation .empty (handedBack s (f s)) w
      { w.updateStream id f with bus, counters } := by
  have standing (g : Nat) : standing { w.updateStream id f with bus, counters } g =
      ⟨w.pool g, (w.updateStream id f).streamStakes g, w.watched g⟩ := rfl
  refine ⟨rfl, updateStream_grows found becomes bus s.generation,
    fun regular _ => updateStream_regular found becomes bus regular counted, fun _ _ => ?own,
    fun other different => ?others⟩
  case own =>
    have watched : (handedBack s (f s)).watched = 0 := by
      unfold handedBack
      split <;> rfl
    rw [standing, Ledger.join_empty, Ledger.join, watched, Multiset.zero_add,
      ← updateStream_stakes found becomes]
    rfl
  case others =>
    rw [standing, updateStream_stakes_other found becomes different]
    rfl

theorem putStream_turn {s next : Stream} (found : w.stream? s.id = some s)
    (becomes : s.Becomes next) :
    Turn s.generation .empty .empty w (w.putStream s next) := by
  have piped (w : World) (a : Hand) : Turn s.generation a a w
      (if s.hasPipe && !next.hasPipe then
        { w with script := w.script.updatePipe s.pipe Pipe.drop } else w) := by
    split
    · exact (w.script_level _ (w.script.updatePipe_keeps _ _)).turn _ a
    · exact .refl _ a w
  unfold putStream
  by_cases lost : s.held && !next.held
  · have replaced := w.replaceStream_turn found (fun _ => next) becomes
      (w.bus.raise .countersChanged) (w.counters.add .tunnelConnections (-1)) (by simp [lost, gauge])
    have released := (replaced.trans (piped _ _))
    simp only [handedBack, lost, if_true] at released ⊢
    have all := released.trans (release_turn _ s.generation s.slot)
    cases piped : s.hasPipe && !next.hasPipe <;> simp only [piped] at all ⊢ <;> exact all
  · have replaced := w.replaceStream_turn found (fun _ => next) becomes w.bus w.counters
      (by simp [lost, gauge])
    have all := replaced.trans (piped _ _)
    simp only [handedBack, lost, Bool.false_eq_true, if_false] at all ⊢
    exact all

variable {id : Nat} {s : Stream}

theorem releaseStream_turn (regular : w.Regular) (found : w.stream? id = some s) :
    Turn s.generation .empty .empty w (w.releaseStream id) := by
  have number := regular.stream_id w found
  simp only [releaseStream, found]
  exact w.putStream_turn (number ▸ found) s.release_becomes

theorem markStream_turn (found : w.stream? id = some s) (f : Stream → Stream)
    (becomes : s.Becomes (f s)) (held : (f s).held = s.held) :
    Turn s.generation .empty .empty w (w.updateStream id f) := by
  have replaced := w.replaceStream_turn found f becomes w.bus w.counters (by simp [held, gauge])
  have nothing : handedBack s (f s) = .empty := by simp [handedBack, held]
  exact nothing ▸ replaced

theorem closeStream_turn (regular : w.Regular) (found : w.stream? id = some s) :
    Turn s.generation .empty .empty w (w.closeStream id) := by
  have released := w.releaseStream_turn regular found
  obtain ⟨t, there, becomes⟩ := released.grows.streams id s found
  have marked := markStream_turn _ there (fun s => { s with done := true })
    ⟨rfl, rfl, rfl, rfl, fun held => held⟩ rfl
  exact released.trans (becomes.generation ▸ marked)

theorem dropStream_turn (regular : w.Regular) (found : w.stream? id = some s) :
    Turn s.generation .empty .empty w (w.dropStream id) := by
  have closed := w.closeStream_turn regular found
  obtain ⟨t, there, becomes⟩ := closed.grows.streams id s found
  have marked := markStream_turn _ there (fun s => { s with owned := false })
    ⟨rfl, rfl, rfl, rfl, fun held => held⟩ rfl
  exact closed.trans (becomes.generation ▸ marked)

theorem useStream_turn {α : Type} (regular : w.Regular) (found : w.stream? id = some s)
    (f : Pipe → Pipe × Io α) : Turn s.generation .empty .empty w (w.useStream id f).1 := by
  have number := regular.stream_id w found
  have put := w.putStream_turn (number ▸ found)
    (s.touch_becomes (w.isCancelled s.scope) (w.lostText? s))
  simp only [useStream, found]
  split
  · exact put
  · exact put.trans ((script_level _ _ (Script.updatePipe_keeps _ _ _)).turn _ _)

end World

end Egress
