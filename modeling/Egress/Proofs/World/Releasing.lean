import Egress.Proofs.World.Accounting
import Egress.Proofs.World.Supervising

set_option autoImplicit false

namespace Egress

open Tunnel

namespace Tunnels

-- A stream that counts is somebody's, and its generation is over if nobody watches it any more.
structure Minded (t : Tunnels) (scopes : Scopes) : Prop where
  orderly : ∀ s ∈ t.streams, s.Orderly
  known : ∀ x ∈ t.streamWatches, x.stream < t.streams.length
  unwatched : ∀ x ∈ t.streamWatches, x.ended → ∀ s, t.streams[x.stream]? = some s → s.held →
    t.Over scopes s.generation

variable {works : Nat → Prop} {scopes later : Scopes} {t next : Tunnels}

theorem Over.set {o g : Nat} {gen fresh : Generation} {connectivity : Stats.Connectivity}
    (lapsed : t.Over scopes g) (found : t.generation? o = some gen) (scope : fresh.scope = gen.scope) :
    Over { t with generations := t.generations.set o fresh, connectivity } scopes g := by
  obtain ⟨old, there, cancelled⟩ := lapsed
  by_cases same : o = g
  · subst same
    obtain rfl := Option.some.inj (there.symm.trans found)
    have inside : o < t.generations.length := (List.getElem?_eq_some_iff.mp found).1
    exact ⟨fresh, by simp [generation?, inside], scope ▸ cancelled⟩
  · exact ⟨old, by simpa [generation?, same] using there, cancelled⟩

theorem Over.append {g : Nat} {fresh : Generation} {current : Nat}
    {connectivity : Stats.Connectivity} (lapsed : t.Over scopes g) :
    Over { t with generations := t.generations ++ [fresh], current, connectivity } scopes g := by
  obtain ⟨old, there, cancelled⟩ := lapsed
  have inside : g < t.generations.length := (List.getElem?_eq_some_iff.mp there).1
  exact ⟨old, (List.getElem?_append_left inside).trans there, cancelled⟩

theorem Over.mono {g : Nat} (lapsed : t.Over scopes g)
    (cancelled : ∀ scope, scopes.isCancelled scope → later.isCancelled scope) :
    t.Over later g := by
  obtain ⟨gen, found, was⟩ := lapsed
  exact ⟨gen, found, cancelled _ was⟩

theorem initial_minded (scope : Scope) : (initial scope).Minded scopes := by
  constructor <;> simp [initial]

theorem Minded.still (minded : t.Minded scopes) (streams : next.streams = t.streams)
    (watches : next.streamWatches = t.streamWatches)
    (lapsed : ∀ g, t.Over scopes g → next.Over later g) : next.Minded later := by
  constructor
  · exact streams ▸ minded.orderly
  · exact streams ▸ watches ▸ minded.known
  · rw [streams, watches]
    exact fun x member ended s found held => lapsed _ (minded.unwatched x member ended s found held)

theorem Step.minded (step : t.Step works scopes next) (minded : t.Minded scopes) :
    next.Minded scopes := by
  cases step with
  | repool g gen pool found => exact minded.still rfl rfl fun _ lapsed => lapsed.set found rfl
  | arrive g gen session found => exact minded.still rfl rfl fun _ lapsed => lapsed.set found rfl
  | retire g gen slot text found =>
    exact minded.still rfl rfl fun _ lapsed => lapsed.set found (World.trip_keeps gen slot text).1
  | openStream s number orderly =>
    refine ⟨fun o member => ?_, fun x member => ?_, fun x member ended o found held => ?_⟩
    · rcases List.mem_append.mp member with old | new
      · exact minded.orderly o old
      · exact List.mem_singleton.mp new ▸ orderly
    · rw [List.length_append]
      rcases List.mem_append.mp member with old | new
      · exact Nat.lt_add_right _ (minded.known x old)
      · rw [List.mem_singleton.mp new, number]
        exact Nat.lt_succ_self _
    · rcases List.mem_append.mp member with old | new
      · rw [List.getElem?_append_left (minded.known x old)] at found
        exact minded.unwatched x old ended o found held
      · rw [List.mem_singleton.mp new] at ended
        cases ended
  | changeStream i s changed found becomes orderly =>
    refine ⟨fun o member => ?_, fun x member => ?_, fun x member ended o there held => ?_⟩
    · rcases List.mem_or_eq_of_mem_set member with old | rfl
      · exact minded.orderly o old
      · exact orderly (minded.orderly s (List.mem_of_getElem? found))
    · simpa using minded.known x member
    · rw [List.getElem?_set] at there
      split at there
      next same =>
        obtain ⟨-, rfl⟩ : i < t.streams.length ∧ changed = o := by
          simpa [Option.ite_none_right_eq_some] using there
        rw [becomes.generation]
        exact minded.unwatched x member ended s (same ▸ found) (becomes.held held)
      next => exact minded.unwatched x member ended o there held
  | endWatch i lapsed =>
    refine ⟨minded.orderly, fun x member => ?_, fun x member ended s found held => ?_⟩
    all_goals
      obtain ⟨j, there⟩ := List.mem_iff_getElem?.mp member
      rw [List.getElem?_modify] at there
      obtain ⟨old, before, rfl⟩ := Option.map_eq_some_iff.mp there
      have known := List.mem_of_getElem? before
    · split <;> exact minded.known old known
    · by_cases hit : i = j
      · have found : t.streams[old.stream]? = some s := by simpa [hit] using found
        obtain ⟨owned, undone⟩ := minded.orderly s (List.mem_of_getElem? found) held
        exact lapsed old (hit ▸ before) s found held owned undone
      · rw [if_neg hit] at ended found
        exact minded.unwatched old known ended s found held

end Tunnels

theorem Core.Effect.minded {terms : Terms} {c next : Core} (effect : c.Effect terms next)
    (minded : c.tunnels.Minded c.scopes) : next.tunnels.Minded next.scopes := by
  cases effect with
  | traffic => exact minded
  | tunnels step => exact step.minded minded
  | scopes later _ cancelled => exact minded.still rfl rfl fun _ lapsed => lapsed.mono cancelled
  | replace gen fresh found work scope pool lost =>
    exact minded.still rfl rfl fun _ lapsed =>
      .append (lapsed.mono fun _ => (Effect.replace gen fresh found work scope pool lost).cancelled)
  | addCall => exact minded
  | setCall => exact minded
  | endCall => exact minded

namespace World

variable {w : World}

theorem cancelled_of_over {g : Nat} (lapsed : w.tunnels.Over w.scopes g) :
    w.isGenerationCancelled g := by
  obtain ⟨gen, found, cancelled⟩ := lapsed
  have found : w.generation? g = some gen := found
  simpa [isGenerationCancelled, isCancelled, found] using cancelled

theorem Regular.watch (regular : w.Regular) {index : Nat} {s : Stream}
    (found : w.stream? index = some s) :
    ∃ x, w.streamWatches[index]? = some x ∧ x.stream = index := by
  have inside : index < w.streams.length := (List.getElem?_eq_some_iff.mp found).1
  have stream : (w.streamWatches.map (·.stream))[index]? = some index := by
    rw [regular.watchers, List.getElem?_range inside]
  simpa using stream

structure GivesBack (s : Stream) (w next : World) : Prop where
  pool : next.pool s.generation = (w.pool s.generation).release s.slot
  others : ∀ g, g ≠ s.generation → next.pool g = w.pool g
  gauge : next.counters.get .tunnelConnections = w.counters.get .tunnelConnections - 1

theorem releaseStream_givesBack (regular : w.Regular) {id : Nat} {s : Stream}
    (found : w.stream? id = some s) (held : s.held) : GivesBack s w (w.releaseStream id) := by
  have inside := regular.streams s (List.mem_of_getElem? found)
  have less : (w.counters.add .tunnelConnections (-1)).get .tunnelConnections =
      w.counters.get .tunnelConnections - 1 := by
    rw [Stats.Counters.get_add, if_pos rfl, Int32.sub_eq_add_neg]
  have released (u : World) (generations : u.generations = w.generations)
      (counters : u.counters = w.counters) :
      GivesBack s w
        ((u.updatePool s.generation (·.release s.slot)).count .tunnelConnections (-1)) := by
    have pool (g : Nat) : u.pool g = w.pool g := by simp only [World.pool, generation?, generations]
    refine ⟨?_, fun g other => ?_, ?_⟩
    · rw [← pool]
      exact u.pool_updatePool (generations ▸ inside) (·.release s.slot)
    · rw [← pool]
      exact congrArg (·.pool) (u.updateGeneration_standing s.generation _ other)
    · have counted : ((u.updatePool s.generation (·.release s.slot)).count .tunnelConnections
          (-1)).counters = u.counters.add .tunnelConnections (-1) := rfl
      rw [counted, counters, less]
  simp only [releaseStream, found, putStream, Stream.release, held, Bool.not_false, Bool.and_self,
    if_true]
  split <;> exact released _ rfl rfl

section Watched

variable {index : Nat} {s : Stream} (regular : w.Regular) (minded : w.tunnels.Minded w.scopes)
  (found : w.stream? index = some s)

include regular minded found

theorem released_of_settled (settled : w.Settled) (cancelled : w.isCancelled s.scope)
    (held : s.held) : w.isGenerationCancelled s.generation := by
  obtain ⟨x, there, same⟩ := regular.watch found
  cases ended : x.ended with
  | true =>
    have lapsed := minded.unwatched x (List.mem_of_getElem? there) ended s (same ▸ found) held
    exact cancelled_of_over lapsed
  | false =>
    have alive : w.isAlive (.streamWatch index) := by simp [isAlive, there, ended]
    have idle := settled.idle _ alive
    simp [canPoll, there, canPollStreamWatch, same, found, cancelled] at idle

theorem pollStreamWatch_ends (cancelled : w.isCancelled s.scope) (held : s.held) :
    (w.poll (.streamWatch index)).isAlive (.streamWatch index) = false ∧
      (w.isGenerationCancelled s.generation →
        (w.poll (.streamWatch index)).stream? index = some s) ∧
      (w.isGenerationCancelled s.generation = false →
        (w.poll (.streamWatch index)).stream? index = some s.release ∧
          GivesBack s w (w.poll (.streamWatch index))) := by
  obtain ⟨x, there, same⟩ := regular.watch found
  obtain ⟨owned, undone⟩ := minded.orderly s (List.mem_of_getElem? found) held
  have number := regular.stream_id w found
  let ended : World :=
    { w with streamWatches := w.streamWatches.modify index fun t => { t with ended := true } }
  have polled : w.poll (.streamWatch index) =
      if w.isGenerationCancelled s.generation then ended else ended.releaseStream index := by
    have ready : w.canPollStreamWatch x := by
      simp [canPollStreamWatch, same, found, cancelled]
    have same' : ended.isGenerationCancelled s.generation = w.isGenerationCancelled s.generation :=
      rfl
    simp only [poll, pollStreamWatch, there, same, found, ready, if_true, undone, Bool.false_or,
      owned, number]
    rfl
  have lapsed (u : World) (watches : u.streamWatches = ended.streamWatches) :
      u.isAlive (.streamWatch index) = false := by
    simp [isAlive, watches, ended, there]
  rw [polled]
  refine ⟨?_, fun gone => ?_, fun goes => ?_⟩
  · split
    · exact lapsed ended rfl
    · exact lapsed _ (ended.releaseStream_still index).streamWatches
  · rw [if_pos gone]
    exact found
  · have released := releaseStream_givesBack regular found held
    rw [goes, if_neg Bool.false_ne_true, releaseStream_watches]
    exact ⟨stream?_releaseStream regular found, released.pool, released.others, released.gauge⟩

end Watched

theorem Effects.streams {terms : Terms} {next : World} (effects : Effects terms w next)
    {index : Nat} {s : Stream} (found : w.stream? index = some s) :
    ∃ t, next.stream? index = some t ∧ s.Becomes t := by
  refine effects.keeps (p := fun c => ∃ t, c.tunnels.streams[index]? = some t ∧ s.Becomes t) ?_
    ⟨s, found, .refl s⟩
  rintro c next effect ⟨t, there, becomes⟩
  cases effect with
  | tunnels step =>
    cases step with
    | openStream o =>
      have inside := (List.getElem?_eq_some_iff.mp there).1
      exact ⟨t, (List.getElem?_append_left inside).trans there, becomes⟩
    | changeStream i o changed before later =>
      by_cases hit : i = index
      · subst hit
        obtain rfl := Option.some.inj (there.symm.trans before)
        have inside := (List.getElem?_eq_some_iff.mp there).1
        exact ⟨changed, by simp [inside], becomes.trans later⟩
      · exact ⟨t, by simpa [hit] using there, becomes⟩
    | repool | arrive | retire | endWatch => exact ⟨t, there, becomes⟩
  | traffic | scopes | replace | addCall | setCall | endCall => exact ⟨t, there, becomes⟩

theorem move_streams {lost : Nat → Multiset Stake} (sound : Sound lost w) (proper : w.core.Proper)
    {m : Move} (allowed : w.allows m) {index : Nat} {s : Stream}
    (found : w.stream? index = some s) :
    ∃ t, (w.move m).stream? index = some t ∧ s.Becomes t := by
  by_cases supervises : m = .poll .supervisor
  · subst supervises
    have same : w.supervise.streams = w.streams := congrArg (·.streams) w.supervise_beside.side
    refine ⟨s, ?_, .refl s⟩
    change w.supervise.streams[index]? = some s
    rwa [same]
  · exact (move_effects sound proper allowed supervises).streams found

end World

namespace Scenario.Setup

variable {s : Setup} {lost : Nat → Multiset Stake} {w : World}

-- Once everything is settled, a stream whose dial scope is cancelled has been released or is of a
-- generation that is cancelled. Its watch releases it in the one case and leaves it in the other,
-- and is over. What has been given back is so for good, and the books count just the streams that
-- still hold something.
theorem Loses.releases (loses : s.Loses lost w) :
    (w.Settled → ∀ index t, w.stream? index = some t → w.isCancelled t.scope →
      t.held = false ∨ w.isGenerationCancelled t.generation) ∧
    (∀ index t, w.stream? index = some t → w.isCancelled t.scope → t.held →
      (w.poll (.streamWatch index)).isAlive (.streamWatch index) = false ∧
      (w.isGenerationCancelled t.generation →
        (w.poll (.streamWatch index)).stream? index = some t) ∧
      (w.isGenerationCancelled t.generation = false →
        (w.poll (.streamWatch index)).stream? index = some t.release ∧
          World.GivesBack t w (w.poll (.streamWatch index)))) ∧
    (∀ m index t, w.allows m → w.stream? index = some t →
      ∃ next, (w.move m).stream? index = some next ∧ t.Becomes next) ∧
    (∀ g, (w.pool g).planned =
        (w.dialsOf g).length + (w.openStreams g).length + (lost g).card ∧
      ∀ slot ∈ (w.pool g).slots, slot.refs = (w.dialsOf g).countP (·.leases slot.id) +
        (w.openStreams g).countP (·.slot = slot.id) + (lost g).count (.leasing slot.id)) ∧
    w.counters.get .tunnelConnections = Int32.ofNat (w.streams.countP (·.held)) := by
  have sound := loses.sound
  have minded : w.tunnels.Minded w.scopes :=
    loses.keeps (p := fun scopes t => t.Minded scopes)
      (fun _ scope => Tunnels.initial_minded scope) fun effect => effect.minded
  refine ⟨fun settled index t found cancelled => ?_, fun index t found cancelled held => ?_,
    fun m index t allowed found => World.move_streams sound loses.proper allowed found,
    fun g => ⟨sound.planned g, fun slot => sound.refs g⟩, sound.regular.even⟩
  · cases held : t.held with
    | false => exact .inl rfl
    | true =>
      exact .inr (World.released_of_settled sound.regular minded found settled cancelled held)
  · exact World.pollStreamWatch_ends sound.regular minded found cancelled held

def dismissing : World :=
  small.build.along
    [fun w => .childScope w.root,
      fun w => .dial "d" (.via .tunnel false) "tcp" "a.test:80" (youngest w),
      fun _ => .poll (.call "d"),
      fun w => .kernel (w.network.grant?.getD w.network),
      fun _ => .poll (.call "d"),
      fun w => .cancel (youngest w)]

def dismissed : World :=
  dismissing.along
    [fun _ => .poll .dispatcher,
      fun _ => .poll .supervisor,
      fun _ => .poll .addressWatch,
      fun _ => .poll (.streamWatch 0),
      fun _ => .poll .dispatcher]

theorem releases_dismissed :
    (∃ t ∈ dismissing.stream? 0,
      World.GivesBack t dismissing (dismissing.poll (.streamWatch 0))) ∧
    ∃ t ∈ dismissed.stream? 0, t.held = false := by
  have reached : small.Reaches Move.Driven dismissing := World.run_along (by decide +kernel)
  have later : small.Reaches Move.Driven dismissed :=
    reached.trans (World.run_along (by decide +kernel))
  obtain ⟨t, found⟩ := Option.isSome_iff_exists.mp
    (by decide +kernel : (dismissing.stream? 0).isSome)
  obtain ⟨t', found'⟩ := Option.isSome_iff_exists.mp
    (by decide +kernel : (dismissed.stream? 0).isSome)
  have before : (dismissing.stream? 0).all fun t => dismissing.isCancelled t.scope && t.held &&
      !dismissing.isGenerationCancelled t.generation := by decide +kernel
  have after : (dismissed.stream? 0).all fun t => dismissed.isCancelled t.scope &&
      !dismissed.isGenerationCancelled t.generation := by decide +kernel
  simp only [found, Option.all_some, Bool.and_eq_true, Bool.not_eq_true'] at before
  simp only [found', Option.all_some, Bool.and_eq_true, Bool.not_eq_true'] at after
  obtain ⟨⟨cancelled, held⟩, goes⟩ := before
  have ends := reached.loses.releases.2.1 0 t found cancelled held
  have released := later.loses.releases.1 (by decide +kernel) 0 t' found' after.1
  refine ⟨⟨t, found, (ends.2.2 goes).2⟩, t', found', released.resolve_right ?_⟩
  simp [after.2]

-- The root scope is cancelled, and with it the scope of the stream and its generation. Nothing is
-- left to do then, and still the stream counts.
theorem cancelled_stream_stays_held :
    ∃ w, small.Reaches Move.Driven w ∧ w.Settled ∧
      (∃ t ∈ w.stream? 0, w.isCancelled t.scope ∧ t.held ∧ (w.pool t.generation).planned = 1) ∧
      w.counters.get .tunnelConnections = 1 := by
  let shut : List (World → Move) :=
    [fun w => .cancel w.root,
      fun _ => .poll .dispatcher,
      fun _ => .poll .supervisor,
      fun _ => .poll .addressWatch,
      fun _ => .poll (.sessionWatch 0),
      fun _ => .poll .dispatcher,
      fun _ => .poll .supervisor,
      fun _ => .poll (.streamWatch 0)]
  have before : small.Reaches Move.Driven streaming := World.run_along (by decide +kernel)
  refine ⟨streaming.along shut, before.trans (World.run_along (by decide +kernel)),
    by decide +kernel, ?_, by decide +kernel⟩
  obtain ⟨t, found⟩ := Option.isSome_iff_exists.mp
    (by decide +kernel : ((streaming.along shut).stream? 0).isSome)
  have facts : ((streaming.along shut).stream? 0).all fun t =>
      (streaming.along shut).isCancelled t.scope && t.held &&
        ((streaming.along shut).pool t.generation).planned = 1 := by decide +kernel
  simp only [found, Option.all_some, Bool.and_eq_true, decide_eq_true_eq] at facts
  exact ⟨t, found, facts.1.1, facts.1.2, facts.2⟩

end Scenario.Setup

end Egress
