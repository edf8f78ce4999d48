import Egress.Proofs.World.Accounting
import Egress.Proofs.World.TunnelEffects

set_option autoImplicit false

namespace Egress

open Simulation Tunnel

namespace Tunnel

namespace Stream

variable {s t u : Stream} {cancelled : Bool} {lost : Option String}

theorem asks_once (s : Stream) (cancelled : Bool) (lost : Option String) :
    (s.asks cancelled lost).Pairwise fun a b => a.1 ≠ b.1 := by
  unfold asks
  split_ifs <;> simp

theorem asks_piped {a : Wait × Bool} (asked : a ∈ s.asks cancelled lost) : s.hasPipe := by
  unfold asks at asked
  split_ifs at asked with gone
  · cases asked
  all_goals simpa using gone

theorem asks_over {wait : Wait} (ready : (wait, true) ∈ s.asks cancelled lost) :
    (s.touch cancelled lost).hasPipe = false := by
  unfold asks at ready
  rw [touch_eq]
  split_ifs at ready ⊢ with gone stopped ended
  · cases ready
  · rfl
  · rfl
  next => simp [ended] at ready

theorem touch_lost (gone : (s.touch cancelled lost).hasPipe = false) :
    s.hasPipe = false ∨ cancelled ∨ lost.isSome := by
  rw [touch_eq] at gone
  split_ifs at gone with gone' stopped ended
  · exact .inl (by simpa using gone')
  · exact .inr (.inl stopped)
  · exact .inr (.inr ended)
  · exact .inl gone

@[simp]
theorem touch_done (s : Stream) (cancelled : Bool) (lost : Option String) :
    (s.touch cancelled lost).done = s.done := by
  rw [touch_eq]
  split_ifs <;> rfl

def finish (s : Stream) : Stream := { s.release with done := true }

def disown (s : Stream) : Stream := { s.finish with owned := false }

-- A later state of a stream. A data path that is gone does not come back.
structure Ages (s t : Stream) : Prop extends s.Becomes t where
  pipe : t.pipe = s.pipe
  gone : s.hasPipe = false → t.hasPipe = false

theorem Ages.refl (s : Stream) : s.Ages s := ⟨.refl s, rfl, fun gone => gone⟩

theorem Ages.trans (first : s.Ages t) (second : t.Ages u) : s.Ages u :=
  ⟨first.toBecomes.trans second.toBecomes, second.pipe.trans first.pipe, second.gone ∘ first.gone⟩

theorem release_ages (s : Stream) : s.Ages s.release := ⟨s.release_becomes, rfl, fun _ => rfl⟩

theorem finish_ages (s : Stream) : s.Ages s.finish :=
  ⟨⟨rfl, rfl, rfl, rfl, nofun⟩, rfl, fun _ => rfl⟩

theorem disown_ages (s : Stream) : s.Ages s.disown :=
  ⟨⟨rfl, rfl, rfl, rfl, nofun⟩, rfl, fun _ => rfl⟩

theorem touch_ages (s : Stream) (cancelled : Bool) (lost : Option String) :
    s.Ages (s.touch cancelled lost) := by
  refine ⟨s.touch_becomes cancelled lost, ?_, fun gone => ?_⟩
  · rw [touch_eq]
    split_ifs <;> rfl
  · rw [touch_eq]
    rw [if_pos (by simp [gone])]
    exact gone

end Stream

theorem Generation.lostText?_trip (gen : Generation) (k slot : Nat) (text : String) :
    (gen.trip k text).lostText? slot =
      (gen.lostText? slot).or (if slot = k then some text else none) := by
  unfold trip
  split
  next known =>
    by_cases hit : slot = k
    · obtain ⟨first, before⟩ := Option.isSome_iff_exists.mp known
      simp [hit, before]
    · simp [hit]
  next =>
    have last : [(k, text)].lookup slot = if slot = k then some text else none := by
      by_cases hit : slot = k
      · simp [hit]
      · simp [List.lookup_cons, beq_false_of_ne hit, hit]
    rw [lostText?, lostText?, List.lookup_append, last]

end Tunnel

namespace World

variable {w next last : World} {i : Nat} {s : Stream} {g h : Stream → Stream}

def lostAt (w : World) (generation slot : Nat) : Option String :=
  (w.generation? generation).bind (·.lostText? slot)

structure Unmoved (w next : World) : Prop where
  streams : next.streams = w.streams
  lost : ∀ generation slot, next.lostAt generation slot = w.lostAt generation slot
  scopes : next.scopes = w.scopes
  pipes : next.script.pipes.length = w.script.pipes.length

theorem Unmoved.refl (w : World) : Unmoved w w := ⟨rfl, fun _ _ => rfl, rfl, rfl⟩

structure Touches (w : World) (i : Nat) (g : Stream → Stream) (next : World) : Prop where
  streams : Alters w.stream? i g next.stream?
  lost : ∀ generation slot, next.lostAt generation slot = w.lostAt generation slot
  scopes : next.scopes = w.scopes
  pipes : next.script.pipes.length = w.script.pipes.length

namespace Touches

theorem absent (none : w.stream? i = none) (g : Stream → Stream) : w.Touches i g w :=
  ⟨alters_absent none g, fun _ _ => rfl, rfl, rfl⟩

theorem trans (first : w.Touches i g next) (second : next.Touches i h last) :
    w.Touches i (h ∘ g) last :=
  ⟨first.streams.trans second.streams, fun _ _ => (second.lost _ _).trans (first.lost _ _),
    second.scopes.trans first.scopes, second.pipes.trans first.pipes⟩

theorem beside (touches : w.Touches i g next) (unmoved : next.Unmoved last) :
    w.Touches i g last := by
  refine ⟨fun j => ?_, fun generation slot => ?_, unmoved.scopes.trans touches.scopes,
    unmoved.pipes.trans touches.pipes⟩
  · rw [← touches.streams j, stream?, stream?, unmoved.streams]
  · rw [unmoved.lost, touches.lost]

theorem update (w : World) (i : Nat) (g : Stream → Stream) :
    w.Touches i g (w.updateStream i g) := by
  refine ⟨fun j => ?_, fun _ _ => rfl, rfl, rfl⟩
  simp only [stream?, updateStream, List.getElem?_modify]
  by_cases hit : j = i
  · simp [hit]
  · simp [hit, Ne.symm hit]

theorem congr (touches : w.Touches i g next) (same : ∀ s, w.stream? i = some s → h s = g s) :
    w.Touches i h next :=
  ⟨touches.streams.congr same, touches.lost, touches.scopes, touches.pipes⟩

end Touches

theorem updatePool_unmoved (w : World) (k : Nat) (f : Pool → Pool) :
    w.Unmoved (w.updatePool k f) := by
  refine ⟨rfl, fun generation slot => ?_, rfl, rfl⟩
  simp only [lostAt, generation?, updatePool, updateGeneration, List.getElem?_modify]
  by_cases hit : k = generation
  · cases w.generations[generation]? <;> simp [hit, Generation.lostText?]
  · simp [hit]

theorem updatePipe_unmoved (w : World) (pipe : Nat) (f : Pipe → Pipe) :
    w.Unmoved { w with script := w.script.updatePipe pipe f } :=
  ⟨rfl, fun _ _ => rfl, rfl, by simp [Script.updatePipe]⟩

theorem count_unmoved (w : World) (c : Stats.Counter) (n : Int32) : w.Unmoved (w.count c n) :=
  ⟨rfl, fun _ _ => rfl, rfl, rfl⟩

theorem putStream_touches (found : w.stream? i = some s) (number : s.id = i) :
    w.Touches i g (w.putStream s (g s)) := by
  have updated : w.Touches i g (w.updateStream s.id fun _ => g s) := by
    rw [number]
    exact (Touches.update w i fun _ => g s).congr fun t there => by
      rw [found] at there
      rw [Option.some.inj there]
  have piped (u : World) : u.Unmoved (if s.hasPipe && !(g s).hasPipe then
      { u with script := u.script.updatePipe s.pipe Pipe.drop } else u) := by
    split
    · exact u.updatePipe_unmoved _ _
    · exact .refl u
  unfold putStream
  dsimp only
  split
  · exact ((updated.beside (piped _)).beside (updatePool_unmoved _ _ _)).beside
      (count_unmoved _ _ _)
  · exact updated.beside (piped _)

section Numbered

variable (numbered : ∀ s, w.stream? i = some s → s.id = i)

include numbered

theorem releaseStream_touches : w.Touches i Stream.release (w.releaseStream i) := by
  cases found : w.stream? i with
  | none =>
    have still : w.releaseStream i = w := by simp [releaseStream, found]
    rw [still]
    exact .absent found _
  | some s =>
    have released : w.releaseStream i = w.putStream s s.release := by simp [releaseStream, found]
    rw [released]
    exact putStream_touches found (numbered s found)

theorem closeStream_touches : w.Touches i Stream.finish (w.closeStream i) :=
  (releaseStream_touches numbered).trans (.update _ i fun s => { s with done := true })

theorem dropStream_touches : w.Touches i Stream.disown (w.dropStream i) :=
  (closeStream_touches numbered).trans (.update _ i fun s => { s with owned := false })

theorem useStream_touches {α : Type} (f : Pipe → Pipe × Io α) :
    w.Touches i (fun s => s.touch (w.isCancelled s.scope) (w.lostText? s)) (w.useStream i f).1 := by
  cases found : w.stream? i with
  | none =>
    have still : (w.useStream i f).1 = w := by simp [useStream, found]
    rw [still]
    exact .absent found _
  | some s =>
    have put := putStream_touches (g := fun s => s.touch (w.isCancelled s.scope) (w.lostText? s))
      found (numbered s found)
    unfold useStream
    simp only [found]
    split
    · exact put
    · exact put.beside (updatePipe_unmoved _ _ _)

end Numbered

theorem pollStreamWatch_touches (numbered : ∀ i s, w.stream? i = some s → s.id = i) (index : Nat) :
    ∃ i g, w.Touches i g (w.pollStreamWatch index) ∧ ∀ s, w.stream? i = some s →
      g s = s ∨ w.isCancelled s.scope ∧ g s = s.release := by
  have idle : w.Touches 0 id w := by
    refine ⟨fun j => ?_, fun _ _ => rfl, rfl, rfl⟩
    split <;> simp
  have watched (u : World) (streamWatches : List StreamWatch) : u.Unmoved { u with streamWatches } :=
    ⟨rfl, fun _ _ => rfl, rfl, rfl⟩
  unfold pollStreamWatch
  split
  next => exact ⟨0, id, idle, fun s _ => .inl rfl⟩
  next watch _ =>
    split
    next => exact ⟨0, id, idle, fun s _ => .inl rfl⟩
    next s found =>
      split
      next can =>
        dsimp only
        split
        next => exact ⟨0, id, idle.beside (watched w _), fun s _ => .inl rfl⟩
        next going =>
          split
          next =>
            have number : s.id = watch.stream := numbered _ s found
            have released := releaseStream_touches (numbered watch.stream)
            refine ⟨watch.stream, Stream.release, ?_, fun t there => .inr ⟨?_, rfl⟩⟩
            · rw [number, w.releaseStream_watches]
              exact released.beside (watched _ _)
            · rw [found] at there
              obtain rfl := Option.some.inj there
              have going : ¬(s.done || w.isGenerationCancelled s.generation) := going
              simp only [Bool.or_eq_true, not_or, Bool.not_eq_true] at going
              simpa [canPollStreamWatch, found, going] using can
          next => exact ⟨0, id, idle.beside (watched w _), fun s _ => .inl rfl⟩
      next => exact ⟨0, id, idle, fun s _ => .inl rfl⟩

theorem lostAt_trip {k : Nat} (there : (w.generation? k).isSome) (slot : Nat) (text : String)
    (generation slot' : Nat) :
    (w.updateGeneration k (·.trip slot text)).lostAt generation slot' =
      (w.lostAt generation slot').or
        (if generation = k ∧ slot' = slot then some text else none) := by
  obtain ⟨gen, found⟩ := Option.isSome_iff_exists.mp there
  simp only [lostAt, generation?, updateGeneration, List.getElem?_modify] at found ⊢
  by_cases hit : generation = k
  · simp [hit, found, Generation.lostText?_trip]
  · simp [hit, Ne.symm hit]

structure Around (w next : World) : Prop where
  streams : ∃ more, next.streams = w.streams ++ more ∧ ∀ j s, more[j]? = some s →
    s.id = w.streams.length + j ∧ s.hasPipe ∧ s.done = false ∧ s.pipe < next.script.pipes.length
  lost : ∀ generation slot, next.lostAt generation slot = w.lostAt generation slot
  scopes : ∀ scope, w.isCancelled scope → next.isCancelled scope
  pipes : w.script.pipes.length ≤ next.script.pipes.length

theorem addPipe_pipes (s : Script) (session : Nat) (address : String) :
    (s.addPipe session address).2 = s.pipes.length ∧
      (s.addPipe session address).1.pipes.length = s.pipes.length + 1 := by
  unfold Script.addPipe
  dsimp only
  split <;> simp [Script.updateSession, Script.updatePipe]

theorem streamOpened_around (w : World) (d : TunnelDial) (lease : Lease) :
    w.Around (w.streamOpened d lease).1 := by
  obtain ⟨pipe, pipes⟩ := addPipe_pipes w.script lease.session d.address
  have more : (w.streamOpened d lease).1.script.pipes.length = w.script.pipes.length + 1 := pipes
  refine ⟨⟨[_], rfl, fun j s found => ?_⟩, fun _ _ => rfl, fun _ cancelled => cancelled, by omega⟩
  cases j with
  | zero =>
    obtain rfl := Option.some.inj found
    exact ⟨rfl, rfl, rfl, by rw [more]; exact pipe ▸ Nat.lt_succ_self _⟩
  | succ j => simp at found

end World

structure Trip where
  generation : Nat
  slot : Nat
  text : String

structure Ask where
  stream : Nat
  wait : Wait
  ready : Bool
  deriving DecidableEq

-- A world, and what has happened to its streams so far: which were closed by their owners, which
-- sessions have ended, and what the uses have asked.
structure Ride where
  world : World
  closes : List Nat := []
  trips : List Trip := []
  asked : List Ask := []

namespace Ride

variable {x y z : Ride} {i : Nat} {s t : Stream}

def endOf (x : Ride) (generation slot : Nat) : Option String :=
  (x.trips.find? fun t => t.generation = generation && t.slot = slot).map (·.text)

def IsOver (x : Ride) (i : Nat) (s : Stream) : Prop :=
  i ∈ x.closes ∨ x.world.isCancelled s.scope ∨ (x.endOf s.generation s.slot).isSome

instance (x : Ride) (i : Nat) (s : Stream) : Decidable (x.IsOver i s) :=
  inferInstanceAs (Decidable (_ ∨ _ ∨ _))

def asksOf (w : World) (i : Nat) : List Ask :=
  ((w.stream? i).elim [] fun s => s.asks (w.isCancelled s.scope) (w.lostText? s)).map
    fun (wait, ready) => ⟨i, wait, ready⟩

def use {α : Type} (x : Ride) (i : Nat) (f : Pipe → Pipe × Io α) : Ride :=
  { x with world := (x.world.useStream i f).1, asked := x.asked ++ asksOf x.world i }

def finish (x : Ride) (i : Nat) (next : World) : Ride :=
  { x with world := next, closes := x.closes ++ [i] }

def trip (x : Ride) (t : Trip) : Ride :=
  { x with
    world := x.world.updateGeneration t.generation (·.trip t.slot t.text)
    trips := x.trips ++ [t] }

def move (x : Ride) (next : World) : Ride := { x with world := next }

-- One step: a stream is used, closed or dropped, the watch of one takes a turn, or a session ends.
inductive Step (x : Ride) : Ride → Prop
  | use {α : Type} (i : Nat) (f : Pipe → Pipe × Io α) : Step x (x.use i f)
  | close (i : Nat) (there : (x.world.stream? i).isSome) :
    Step x (x.finish i (x.world.closeStream i))
  | drop (i : Nat) (there : (x.world.stream? i).isSome) :
    Step x (x.finish i (x.world.dropStream i))
  | watch (index : Nat) : Step x (x.move (x.world.pollStreamWatch index))
  | trip (t : Trip) (there : (x.world.generation? t.generation).isSome) : Step x (x.trip t)
  | around (next : World) (around : x.world.Around next) : Step x (x.move next)

abbrev Run : Ride → Ride → Prop := Relation.ReflTransGen Step

structure Onward (x y : Ride) : Prop where
  closes : ∀ i, i ∈ x.closes → i ∈ y.closes
  ends : ∀ generation slot text, x.endOf generation slot = some text →
    y.endOf generation slot = some text
  scopes : ∀ scope, x.world.isCancelled scope → y.world.isCancelled scope
  streams : ∀ i s, x.world.stream? i = some s → ∃ t, y.world.stream? i = some t ∧ s.Ages t

theorem Onward.refl (x : Ride) : Onward x x :=
  ⟨fun _ h => h, fun _ _ _ h => h, fun _ h => h, fun _ s found => ⟨s, found, .refl s⟩⟩

theorem Onward.trans (first : Onward x y) (second : Onward y z) : Onward x z where
  closes i h := second.closes i (first.closes i h)
  ends g slot text h := second.ends g slot text (first.ends g slot text h)
  scopes scope h := second.scopes scope (first.scopes scope h)
  streams i s found := by
    obtain ⟨t, there, ages⟩ := first.streams i s found
    obtain ⟨u, later, on⟩ := second.streams i t there
    exact ⟨u, later, ages.trans on⟩

theorem Onward.isOver (onward : Onward x y) (ages : s.Ages t) (lapsed : x.IsOver i s) :
    y.IsOver i t := by
  unfold IsOver
  rw [ages.scope, ages.generation, ages.slot]
  refine lapsed.imp (onward.closes i) (Or.imp (onward.scopes _) fun ended => ?_)
  obtain ⟨text, first⟩ := Option.isSome_iff_exists.mp ended
  simp [onward.ends _ _ _ first]

-- What is known of each stream.
structure Fate (x : Ride) (i : Nat) (s : Stream) : Prop where
  number : s.id = i
  closed : s.done ↔ i ∈ x.closes
  ended : s.done → s.hasPipe = false
  piped : s.pipe < x.world.script.pipes.length
  lapsed : s.hasPipe = false → x.IsOver i s
  asked : ∀ wait, ⟨i, wait, true⟩ ∈ x.asked → s.hasPipe = false

structure Sound (x : Ride) : Prop where
  fate : ∀ i s, x.world.stream? i = some s → Fate x i s
  lost : ∀ generation slot, x.world.lostAt generation slot = x.endOf generation slot
  closes : ∀ i ∈ x.closes, (x.world.stream? i).isSome
  asked : ∀ a ∈ x.asked, (x.world.stream? a.stream).isSome
  once : x.asked.Pairwise fun a b => a.stream = b.stream → a.wait = b.wait → a.ready = false

theorem Fate.onward (fate : Fate x i s) (onward : Onward x y) (closes : i ∈ y.closes ↔ i ∈ x.closes)
    (pipes : x.world.script.pipes.length ≤ y.world.script.pipes.length)
    (asked : ∀ wait, ⟨i, wait, true⟩ ∈ y.asked → ⟨i, wait, true⟩ ∈ x.asked) : Fate y i s where
  number := fate.number
  closed := fate.closed.trans closes.symm
  ended := fate.ended
  piped := Nat.lt_of_lt_of_le fate.piped pipes
  lapsed gone := onward.isOver (.refl s) (fate.lapsed gone)
  asked wait ready := fate.asked wait (asked wait ready)

section Touched

variable {g : Stream → Stream} (touches : x.world.Touches i g y.world) (trips : y.trips = x.trips)

include touches trips

theorem onward_of_touches (closes : ∀ j ∈ x.closes, j ∈ y.closes)
    (ages : ∀ s, x.world.stream? i = some s → s.Ages (g s)) : Onward x y := by
  refine ⟨closes, fun _ _ _ first => ?_, fun scope cancelled => ?_, fun j s found => ?_⟩
  · rw [endOf, trips]
    exact first
  · rw [World.isCancelled, touches.scopes]
    exact cancelled
  · rw [touches.streams j, found]
    by_cases hit : j = i
    · subst hit
      exact ⟨g s, if_pos rfl, ages s found⟩
    · exact ⟨s, if_neg hit, .refl s⟩

theorem Sound.touched (sound : x.Sound) (onward : Onward x y)
    (closes : ∀ j, j ≠ i → (j ∈ y.closes ↔ j ∈ x.closes))
    (asked : ∀ a ∈ y.asked, a ∈ x.asked ∨ a.stream = i)
    (known : (i ∈ y.closes → i ∉ x.closes → (x.world.stream? i).isSome) ∧
      ∀ a ∈ y.asked, a ∉ x.asked → (x.world.stream? a.stream).isSome)
    (own : ∀ s, x.world.stream? i = some s → Fate x i s → Fate y i (g s))
    (once : y.asked.Pairwise fun a b => a.stream = b.stream → a.wait = b.wait → a.ready = false) :
    y.Sound := by
  have present {j : Nat} (there : (x.world.stream? j).isSome) : (y.world.stream? j).isSome := by
    obtain ⟨s, found⟩ := Option.isSome_iff_exists.mp there
    obtain ⟨t, later, -⟩ := onward.streams j s found
    simp [later]
  refine ⟨fun j t found => ?_, fun generation slot => ?_, fun j member => ?_, fun a member => ?_, once⟩
  · rw [touches.streams j] at found
    by_cases hit : j = i
    next =>
      subst hit
      rw [if_pos rfl] at found
      obtain ⟨s, was, rfl⟩ := Option.map_eq_some_iff.mp found
      exact own s was (sound.fate j s was)
    next =>
      rw [if_neg hit] at found
      refine (sound.fate j t found).onward onward (closes j hit) (Nat.le_of_eq touches.pipes.symm)
        fun wait member => ?_
      exact (asked _ member).resolve_right hit
  · rw [touches.lost, sound.lost, endOf, endOf, trips]
  · by_cases was : j ∈ x.closes
    · exact present (sound.closes j was)
    · by_cases hit : j = i
      · subst hit
        exact present (known.1 member was)
      · exact absurd ((closes j hit).mp member) was
  · by_cases was : a ∈ x.asked
    · exact present (sound.asked a was)
    · exact present (known.2 a member was)

end Touched

theorem Sound.numbered (sound : x.Sound) (i : Nat) (s : Stream) (found : x.world.stream? i = some s) :
    s.id = i := (sound.fate i s found).number

theorem Fate.touch (fate : Fate x i s) (sound : x.Sound) (found : x.world.stream? i = some s)
    {α : Type} (f : Pipe → Pipe × Io α) (onward : Onward x (x.use i f))
    (pipes : (x.use i f).world.script.pipes.length = x.world.script.pipes.length) :
    Fate (x.use i f) i (s.touch (x.world.isCancelled s.scope) (x.world.lostText? s)) := by
  have ages := s.touch_ages (x.world.isCancelled s.scope) (x.world.lostText? s)
  refine ⟨ages.id.trans fate.number, ?_, fun done => ?_, ?_, fun gone => ?_, fun wait ready => ?_⟩
  · rw [Stream.touch_done]
    exact fate.closed
  · rw [Stream.touch_done] at done
    exact ages.gone (fate.ended done)
  · rw [ages.pipe, pipes]
    exact fate.piped
  · rcases Stream.touch_lost gone with before | cancelled | lost
    · exact onward.isOver ages (fate.lapsed before)
    · exact onward.isOver ages (.inr (.inl cancelled))
    · have ended : (x.endOf s.generation s.slot).isSome := sound.lost _ _ ▸ lost
      exact onward.isOver ages (.inr (.inr ended))
  · rcases List.mem_append.mp ready with older | newer
    · exact ages.gone (fate.asked wait older)
    · rw [asksOf, found] at newer
      obtain ⟨⟨_, _⟩, asks, same⟩ := List.mem_map.mp newer
      cases same
      exact Stream.asks_over asks

theorem Sound.use (sound : x.Sound) (i : Nat) {α : Type} (f : Pipe → Pipe × Io α) :
    Onward x (x.use i f) ∧ (x.use i f).Sound := by
  have touches := World.useStream_touches (sound.numbered i) f
  have onward : Onward x (x.use i f) := onward_of_touches (y := x.use i f) touches rfl
    (fun _ h => h) fun s _ => s.touch_ages _ _
  have own (a : Ask) (member : a ∈ asksOf x.world i) :
      a.stream = i ∧ ∃ s, x.world.stream? i = some s ∧ s.hasPipe ∧
        (a.wait, a.ready) ∈ s.asks (x.world.isCancelled s.scope) (x.world.lostText? s) := by
    obtain ⟨asked, there, rfl⟩ := List.mem_map.mp member
    cases found : x.world.stream? i with
    | none =>
      rw [found] at there
      cases there
    | some s =>
      rw [found] at there
      exact ⟨rfl, s, rfl, Stream.asks_piped there, there⟩
  refine ⟨onward, sound.touched (y := x.use i f) touches rfl onward (fun _ _ => .rfl)
    (fun a member => ?_) ⟨fun member away => absurd member away, fun a member away => ?_⟩
    (fun s found fate => fate.touch sound found f onward touches.pipes) ?_⟩
  · exact (List.mem_append.mp member).imp_right fun newer => (own a newer).1
  · have newer := (List.mem_append.mp member).resolve_left away
    obtain ⟨rfl, s, found, -⟩ := own a newer
    simp [found]
  · refine List.pairwise_append.mpr ⟨sound.once, ?_, fun a older b newer same _ => ?_⟩
    · refine List.pairwise_map.mpr (List.Pairwise.imp (fun apart _ same => absurd same apart) ?_)
      cases x.world.stream? i with
      | none => exact .nil
      | some s => exact s.asks_once _ _
    · obtain ⟨here, s, found, piped, -⟩ := own b newer
      by_contra ready
      have again : (⟨i, a.wait, true⟩ : Ask) ∈ x.asked := by
        rw [← here, ← same, ← Bool.eq_true_of_not_eq_false ready]
        exact older
      rw [(sound.fate i s found).asked a.wait again] at piped
      cases piped

theorem Sound.finish (sound : x.Sound) {next : World} {g : Stream → Stream}
    (there : (x.world.stream? i).isSome) (touches : x.world.Touches i g next)
    (ages : ∀ s : Stream, s.Ages (g s)) (finished : ∀ s, (g s).done ∧ (g s).hasPipe = false) :
    Onward x (x.finish i next) ∧ (x.finish i next).Sound := by
  have onward : Onward x (x.finish i next) :=
    onward_of_touches (y := x.finish i next) touches rfl (fun _ => List.mem_append_left _)
      fun s _ => ages s
  have closed : i ∈ (x.finish i next).closes := List.mem_append_right _ List.mem_cons_self
  refine ⟨onward, sound.touched (y := x.finish i next) touches rfl onward
    (fun j other => by simp [Ride.finish, other]) (fun _ => .inl)
    ⟨fun _ _ => there, fun a member away => absurd member away⟩ (fun s found fate => ?_) sound.once⟩
  obtain ⟨done, gone⟩ := finished s
  have piped : (g s).pipe < next.script.pipes.length := by
    rw [(ages s).pipe, touches.pipes]
    exact fate.piped
  exact ⟨(ages s).id.trans fate.number, by simp [done, closed], fun _ => gone, piped,
    fun _ => .inl closed, fun _ _ => gone⟩

theorem Sound.watch (sound : x.Sound) (index : Nat) :
    Onward x (x.move (x.world.pollStreamWatch index)) ∧
      (x.move (x.world.pollStreamWatch index)).Sound := by
  obtain ⟨i, g, touches, either⟩ := World.pollStreamWatch_touches sound.numbered index
  let y : Ride := x.move (x.world.pollStreamWatch index)
  have ages (s : Stream) (found : x.world.stream? i = some s) : s.Ages (g s) := by
    rcases either s found with same | ⟨-, released⟩
    · rw [same]
      exact .refl s
    · rw [released]
      exact s.release_ages
  have onward : Onward x y := onward_of_touches (y := y) touches rfl (fun _ h => h) ages
  refine ⟨onward, sound.touched (y := y) touches rfl onward (fun _ _ => .rfl) (fun _ => .inl)
    ⟨fun member away => absurd member away, fun a member away => absurd member away⟩
    (fun s found fate => ?_) sound.once⟩
  rcases either s found with same | ⟨cancelled, released⟩
  · rw [same]
    exact fate.onward onward .rfl (Nat.le_of_eq touches.pipes.symm) fun _ h => h
  · rw [released]
    have piped : s.pipe < y.world.script.pipes.length := touches.pipes.symm ▸ fate.piped
    exact ⟨fate.number, fate.closed, fun _ => rfl, piped,
      fun _ => onward.isOver s.release_ages (.inr (.inl cancelled)), fun _ _ => rfl⟩

theorem Sound.trip (sound : x.Sound) (t : Trip)
    (there : (x.world.generation? t.generation).isSome) :
    Onward x (x.trip t) ∧ (x.trip t).Sound := by
  have ends (generation slot : Nat) : (x.trip t).endOf generation slot =
      (x.endOf generation slot).or
        (if generation = t.generation ∧ slot = t.slot then some t.text else none) := by
    unfold endOf Ride.trip
    rw [List.find?_append, Option.map_or]
    by_cases hit : generation = t.generation ∧ slot = t.slot
    · simp [hit]
    · have other : ¬(t.generation = generation ∧ t.slot = slot) :=
        fun same => hit ⟨same.1.symm, same.2.symm⟩
      simp [hit, other]
  have onward : Onward x (x.trip t) := by
    refine ⟨fun _ h => h, fun generation slot text first => ?_, fun _ h => h,
      fun i s found => ⟨s, found, .refl s⟩⟩
    rw [ends, first, Option.some_or]
  refine ⟨onward, fun i s found => ?_, fun generation slot => ?_, sound.closes, sound.asked,
    sound.once⟩
  · exact (sound.fate i s found).onward onward .rfl (Nat.le_refl _) fun _ h => h
  · rw [ends, ← sound.lost]
    exact World.lostAt_trip there t.slot t.text generation slot

theorem Sound.around (sound : x.Sound) {next : World} (around : x.world.Around next) :
    Onward x (x.move next) ∧ (x.move next).Sound := by
  obtain ⟨more, streams, fresh⟩ := around.streams
  have older (i : Nat) (s : Stream) (found : x.world.stream? i = some s) :
      next.stream? i = some s := by
    have inside : i < x.world.streams.length := (List.getElem?_eq_some_iff.mp found).1
    rw [World.stream?, streams, List.getElem?_append_left inside]
    exact found
  have present {i : Nat} (there : (x.world.stream? i).isSome) :
      i < x.world.streams.length ∧ (next.stream? i).isSome := by
    obtain ⟨s, found⟩ := Option.isSome_iff_exists.mp there
    exact ⟨(List.getElem?_eq_some_iff.mp found).1, by simp [older i s found]⟩
  have onward : Onward x (x.move next) :=
    ⟨fun _ h => h, fun _ _ _ h => h, around.scopes, fun i s found => ⟨s, older i s found, .refl s⟩⟩
  refine ⟨onward, fun i s found => ?_, fun generation slot => ?_, fun i closed => ?_,
    fun a asked => ?_, sound.once⟩
  · rcases Nat.lt_or_ge i x.world.streams.length with inside | beyond
    · have found : x.world.stream? i = some s := by
        have found : next.streams[i]? = some s := found
        rwa [streams, List.getElem?_append_left inside] at found
      exact (sound.fate i s found).onward onward .rfl around.pipes fun _ h => h
    · have found : more[i - x.world.streams.length]? = some s := by
        have found : next.streams[i]? = some s := found
        rwa [streams, List.getElem?_append_right beyond] at found
      obtain ⟨number, piped, going, inside⟩ := fresh _ s found
      have absent (there : (x.world.stream? i).isSome) : False := by
        have inside : i < x.world.streams.length := (present there).1
        omega
      have unclosed : i ∉ x.closes := fun closed => absent (sound.closes i closed)
      have unasked (wait : Wait) : ⟨i, wait, true⟩ ∉ x.asked := fun asked =>
        absent (sound.asked _ asked)
      exact ⟨by omega, by simp [going, Ride.move, unclosed], by simp [going], inside,
        by simp [piped], fun wait asked => absurd asked (unasked wait)⟩
  · exact (around.lost generation slot).trans (sound.lost generation slot)
  · exact (present (sound.closes i closed)).2
  · exact (present (sound.asked a asked)).2

theorem Step.sound (step : Step x y) (sound : x.Sound) : Onward x y ∧ y.Sound := by
  cases step with
  | use i f => exact sound.use i f
  | close i there =>
    exact sound.finish there (World.closeStream_touches (sound.numbered i)) Stream.finish_ages
      fun _ => ⟨rfl, rfl⟩
  | drop i there =>
    exact sound.finish there (World.dropStream_touches (sound.numbered i)) Stream.disown_ages
      fun _ => ⟨rfl, rfl⟩
  | watch index => exact sound.watch index
  | trip t there => exact sound.trip t there
  | around next around => exact sound.around around

theorem Run.sound (run : Run x y) (sound : x.Sound) : Onward x y ∧ y.Sound := by
  induction run with
  | refl => exact ⟨.refl x, sound⟩
  | tail _ step ih =>
    obtain ⟨onward, sound⟩ := step.sound ih.2
    exact ⟨ih.1.trans onward, sound⟩

structure Answers (x : Ride) (i : Nat) (s : Stream) : Prop where
  waits : s.touch (x.world.isCancelled s.scope) (x.world.lostText? s) =
    (s.asks (x.world.isCancelled s.scope) (x.world.lostText? s)).foldl Stream.told s
  forwards : ¬x.IsOver i s → ∃ pipe, x.world.script.pipes[s.pipe]? = some pipe ∧
    ∀ (α : Type) (f : Pipe → Pipe × Io α), (x.world.useStream i f).2 = (f pipe).2 ∧
      (x.world.useStream i f).1.script = x.world.script.updatePipe s.pipe fun _ => (f pipe).1
  fails : x.IsOver i s → ∀ (α : Type) (f : Pipe → Pipe × Io α),
    x.world.useStream i f =
      (x.world.putStream s (s.touch (x.world.isCancelled s.scope) (x.world.lostText? s)),
        .failed (match x.endOf s.generation s.slot with
          | some text => .aborted (.sessionLost text)
          | none => .connectionClosed))
  stays : x.IsOver i s → ∀ (α : Type) (f : Pipe → Pipe × Io α) (y : Ride), Run (x.use i f) y →
    ∃ t, y.world.stream? i = some t ∧ t.hasPipe = false ∧ y.IsOver i t ∧
      ∀ text, x.endOf s.generation s.slot = some text → y.endOf t.generation t.slot = some text

theorem Sound.lostText? (sound : x.Sound) (s : Stream) :
    x.world.lostText? s = x.endOf s.generation s.slot := sound.lost s.generation s.slot

theorem Fate.going (fate : Fate x i s) (sound : x.Sound) (goesOn : ¬x.IsOver i s) :
    s.hasPipe ∧ s.touch (x.world.isCancelled s.scope) (x.world.lostText? s) = s := by
  have piped : s.hasPipe := by
    by_contra gone
    exact goesOn (fate.lapsed (by simpa using gone))
  simp only [IsOver, not_or, Bool.not_eq_true] at goesOn
  obtain ⟨-, uncancelled, running⟩ := goesOn
  rw [sound.lostText? s]
  exact ⟨piped, by simp [Stream.touch_eq, piped, uncancelled, running]⟩

theorem Fate.gone (fate : Fate x i s) (sound : x.Sound) (lapsed : x.IsOver i s) :
    (s.touch (x.world.isCancelled s.scope) (x.world.lostText? s)).hasPipe = false := by
  rw [sound.lostText? s]
  cases piped : s.hasPipe with
  | false => exact (s.touch_ages _ _).gone piped
  | true =>
    rw [Stream.touch_eq]
    rcases lapsed with closed | cancelled | ended
    · rw [fate.ended (fate.closed.mpr closed)] at piped
      cases piped
    · simp [piped, cancelled, Stream.release]
    · cases cancelled : x.world.isCancelled s.scope <;>
        simp [piped, ended, Stream.release, Stream.dropPipe]

theorem Sound.answers (sound : x.Sound) (found : x.world.stream? i = some s) : x.Answers i s := by
  have fate := sound.fate i s found
  refine ⟨rfl, fun goesOn => ?_, fun lapsed α f => ?_, fun lapsed α f y later => ?_⟩
  · obtain ⟨piped, same⟩ := fate.going sound goesOn
    refine ⟨_, List.getElem?_eq_getElem fate.piped, fun α f => ?_⟩
    have script : (x.world.putStream s s).script = x.world.script := by
      simp [World.putStream, World.updateStream]
    unfold World.useStream
    simp [found, same, piped, script, List.getElem?_eq_getElem fate.piped]
  · have gone := fate.gone sound lapsed
    unfold World.useStream
    simp only [found, gone, Bool.false_eq_true, if_false]
    rw [sound.lostText? s]
    rfl
  · obtain ⟨used, after⟩ := sound.use i f
    obtain ⟨onward, -⟩ := later.sound after
    have touched : (x.use i f).world.stream? i =
        some (s.touch (x.world.isCancelled s.scope) (x.world.lostText? s)) := by
      have touches := World.useStream_touches (sound.numbered i) f
      refine (touches.streams i).trans ?_
      rw [if_pos rfl, found, Option.map_some]
    obtain ⟨t, there, ages⟩ := onward.streams i _ touched
    have all := (s.touch_ages _ _).trans ages
    refine ⟨t, there, ages.gone (fate.gone sound lapsed), (used.trans onward).isOver all lapsed, ?_⟩
    rw [all.generation, all.slot]
    exact (used.trans onward).ends _ _

-- A stream is used as its data path answers for as long as its owner has not closed it, its scope
-- is not cancelled and its session has not ended. From then on every use fails, and says why the
-- session has ended if it has. A wait that is over is never asked again.
theorem stream_answers {w : World} (begun : w.streams = [])
    (running : ∀ generation slot, w.lostAt generation slot = none) (run : Run ⟨w, [], [], []⟩ x) :
    (∀ i s, x.world.stream? i = some s → x.Answers i s) ∧
      x.asked.Pairwise fun a b => a.stream = b.stream → a.wait = b.wait → a.ready = false := by
  have nothing : Sound ⟨w, [], [], []⟩ :=
    ⟨fun i s found => by simp [World.stream?, begun] at found, running, nofun, nofun, .nil⟩
  have sound := (run.sound nothing).2
  exact ⟨fun i s found => sound.answers found, sound.once⟩

section Late

open Scenario.Setup (small)

def lease : Lease := ⟨1, 0⟩

def dial (address : String) : TunnelDial :=
  ⟨1, small.build.root, "tcp", address, .opening lease 0⟩

def wait (p : Pipe) : Pipe × Io Unit := (p, .pending)

def early : Ride :=
  (Ride.mk small.build [] [] []).move (small.build.streamOpened (dial "a.test:80") lease).1

def reset : Ride := ((early.use 0 wait).trip ⟨1, 1, "reset"⟩).use 0 wait

def late : Ride := reset.move (reset.world.streamOpened (dial "b.test:80") lease).1

theorem stream_answers_late : small.build.streams = [] ∧
    (∀ generation slot, small.build.lostAt generation slot = none) ∧
    (late.use 1 wait).asked = [⟨0, .scope, false⟩, ⟨0, .session, false⟩, ⟨0, .scope, false⟩,
      ⟨0, .session, true⟩, ⟨1, .scope, false⟩, ⟨1, .session, true⟩] ∧
    (late.use 1 wait).asked.Pairwise
      (fun a b => a.stream = b.stream → a.wait = b.wait → a.ready = false) ∧
    (early.world.useStream 0 wait).2 = .pending ∧
    (reset.world.useStream 0 wait).2 = .failed (.aborted (.sessionLost "reset")) ∧
    (late.world.useStream 1 wait).2 = .failed (.aborted (.sessionLost "reset")) := by
  have begun : small.build.streams = [] := by decide +kernel
  have untripped : ∀ gen ∈ small.build.generations, gen.lost = [] := by decide +kernel
  have running (generation slot : Nat) : small.build.lostAt generation slot = none := by
    unfold World.lostAt World.generation?
    cases found : small.build.generations[generation]? with
    | none => rfl
    | some gen =>
      simp [Generation.lostText?, untripped gen (List.mem_of_getElem? found)]
  have first : Run ⟨small.build, [], [], []⟩ early :=
    .tail .refl (.around _ (World.streamOpened_around _ _ _))
  have ended : Run ⟨small.build, [], [], []⟩ reset :=
    .tail (.tail (.tail first (.use 0 wait)) (.trip _ (by decide +kernel))) (.use 0 wait)
  have last : Run ⟨small.build, [], [], []⟩ late :=
    .tail ended (.around _ (World.streamOpened_around _ _ _))
  have once := (stream_answers begun running (.tail last (.use 1 wait))).2
  obtain ⟨s, opened, going⟩ := (Option.any_eq_true _ _).mp
    (by decide +kernel : (early.world.stream? 0).any (fun s => ¬early.IsOver 0 s) = true)
  obtain ⟨t, kept, lost⟩ := (Option.any_eq_true _ _).mp
    (by decide +kernel : (reset.world.stream? 0).any (fun s =>
      reset.IsOver 0 s ∧ reset.endOf s.generation s.slot = some "reset") = true)
  obtain ⟨u, came, dead⟩ := (Option.any_eq_true _ _).mp
    (by decide +kernel : (late.world.stream? 1).any (fun s =>
      late.IsOver 1 s ∧ late.endOf s.generation s.slot = some "reset") = true)
  obtain ⟨pipe, -, answer⟩ :=
    ((stream_answers begun running first).1 0 s opened).forwards (by simpa using going)
  simp only [decide_eq_true_eq] at lost dead
  have fails := ((stream_answers begun running ended).1 0 t kept).fails lost.1 _ wait
  have refuses := ((stream_answers begun running last).1 1 u came).fails dead.1 _ wait
  rw [lost.2] at fails
  rw [dead.2] at refuses
  exact ⟨begun, running, by decide +kernel, once, (answer _ wait).1, congrArg Prod.snd fails,
    congrArg Prod.snd refuses⟩

end Late

end Ride

end Egress
