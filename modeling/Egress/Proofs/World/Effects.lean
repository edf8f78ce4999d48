import Egress.Proofs.World.Watches

set_option autoImplicit false

namespace Egress

open Simulation Tunnel

structure Traffic where
  bus : Event.Bus
  supervisor : Supervisor
  connections : List Connection
  fanOuts : List FanOut
  -- The subscriptions of the workers, and the one to shutdown requests.
  listeners : List Nat
  requests : Option Nat

structure Tunnels where
  connectivity : Stats.Connectivity
  generations : List Generation
  current : Nat
  streams : List Stream
  streamWatches : List StreamWatch

structure Core where
  scopes : Scopes
  root : Scope
  traffic : Traffic
  tunnels : Tunnels
  calls : List (String × Call)

-- What a step may bring in from outside: the reasons for which owners abort, the generations whose
-- sessions may come and go, and the scopes under which dials begin.
structure Terms where
  aborts : AbortReason → Prop
  works : Nat → Prop
  hands : Scope → Prop

def Terms.any : Terms := ⟨fun _ => True, fun _ => True, fun _ => True⟩

def Terms.own : Terms := ⟨fun _ => False, fun _ => True, fun _ => False⟩

namespace Traffic

-- A teardown with a reason is the owner's, or has been ordered.
def Warrants (t : Traffic) (aborts : AbortReason → Prop) (id : Nat) (reason : AbortReason) : Prop :=
  aborts reason ∨ ∃ o ∈ t.fanOuts, o.reason = some reason ∧ id ∈ o.ids

def replace (t : Traffic) (next : Connection) : List Connection :=
  t.connections.map fun c => if c.id = next.id then next else c

inductive Step (aborts : AbortReason → Prop) (asked : Scope → Nat → Prop) (t : Traffic) :
    Traffic → Prop
  | raise (k : Event.Kind) : Step aborts asked t { t with bus := t.bus.raise k }
  | turn (next : Event.Bus) (turned : t.bus.turn? = some next) :
    Step aborts asked t { t with bus := next }
  | closeBus : Step aborts asked t { t with bus := t.bus.close }
  | subscribe (kinds : List Event.Kind) :
    Step aborts asked t { t with bus := (t.bus.subscribe kinds).1 }
  | receive (id : Nat) (other : id ≠ t.supervisor.inbox) :
    Step aborts asked t { t with bus := (t.bus.receive id).1 }
  | abandon (id : Nat) (other : id ≠ t.supervisor.inbox) :
    Step aborts asked t { t with bus := t.bus.abandon id }
  | unsubscribe (id : Nat) (other : id ≠ t.supervisor.inbox) :
    Step aborts asked t { t with bus := t.bus.unsubscribe id }
  | take : Step aborts asked t { t with requests := none }
  | stop : Step aborts asked t { t with supervisor := { t.supervisor with stopping := true } }
  | establish (c : Connection) (generation : Nat) (fresh : c.id = t.supervisor.nextId)
    (opened : c.closed = false) (unharmed : c.reason = none) (wanted : asked c.scope generation) :
    Step aborts asked t
      { t with
        connections := t.connections ++ [c]
        supervisor :=
          { t.supervisor with nextId := c.id + 1 }.send (.add c.member generation) }
  | use (c next : Connection) (found : t.connections.find? (·.id = c.id) = some c)
    (same : next = c ∨ next = c.dropStream) :
    Step aborts asked t { t with connections := t.replace next }
  | tearDown (c torn : Connection) (reason : Option AbortReason)
    (found : t.connections.find? (·.id = c.id) = some c) (torn? : c.tearDown? reason = some torn)
    (warranted : ∀ r, reason = some r → t.Warrants aborts c.id r) :
    Step aborts asked t
      { t with
        connections := t.replace torn
        supervisor := t.supervisor.send (.remove c.id) }

end Traffic

def Tunnel.Stream.Orderly (s : Stream) : Prop := s.held → s.owned ∧ s.done = false

namespace Tunnels

def generation? (t : Tunnels) (g : Nat) : Option Generation := t.generations[g]?

def isCancelled (t : Tunnels) (scopes : Scopes) (g : Nat) : Bool :=
  (t.generation? g).all fun gen => scopes.isCancelled gen.scope

def Over (t : Tunnels) (scopes : Scopes) (g : Nat) : Prop :=
  ∃ gen, t.generation? g = some gen ∧ scopes.isCancelled gen.scope

def speaks (t : Tunnels) (scopes : Scopes) (g : Nat) : Bool :=
  g = t.current && !t.isCancelled scopes g

-- What the tunnel is said to be like once a generation has had its say.
def said (t : Tunnels) (scopes : Scopes) (g : Nat) (state : Stats.TunnelState) (info : String) :
    Stats.Connectivity :=
  if t.speaks scopes g then ⟨state, info⟩ else t.connectivity

theorem speaks_set {t : Tunnels} {scopes : Scopes} {o : Nat} {gen next : Generation}
    (found : t.generation? o = some gen) (scope : next.scope = gen.scope)
    (connectivity : Stats.Connectivity) (g : Nat) :
    { t with generations := t.generations.set o next, connectivity }.speaks scopes g =
      t.speaks scopes g := by
  simp only [speaks, isCancelled, generation?, List.getElem?_set]
  by_cases same : o = g
  · subst same
    have inside : o < t.generations.length := (List.getElem?_eq_some_iff.mp found).1
    have now : t.generations[o]? = some gen := found
    rw [if_pos rfl, if_pos inside, now, Option.all_some, Option.all_some, scope]
  · rw [if_neg same]

theorem said_set {t : Tunnels} {scopes : Scopes} {g : Nat} {gen next : Generation}
    {state : Stats.TunnelState} {info : String} (found : t.generation? g = some gen)
    (scope : next.scope = gen.scope) :
    { t with generations := t.generations.set g next }.said scopes g state info =
      t.said scopes g state info := by
  simp only [said, speaks_set found scope t.connectivity g]

inductive Step (works : Nat → Prop) (scopes : Scopes) (t : Tunnels) : Tunnels → Prop
  | repool (g : Nat) (gen : Generation) (pool : Pool) (found : t.generation? g = some gen)
    (slots : pool.slots.map (·.id) = gen.pool.slots.map (·.id))
    (nextId : pool.nextId = gen.pool.nextId) :
    Step works scopes t { t with generations := t.generations.set g { gen with pool } }
  | arrive (g : Nat) (gen : Generation) (session : Nat) (found : t.generation? g = some gen)
    (work : works g) (configured : gen.credentials.isSome) :
    Step works scopes t
      { t with
        generations := t.generations.set g { gen with pool := (gen.pool.insert session).1 }
        connectivity := t.said scopes g .established "" }
  | retire (g : Nat) (gen : Generation) (slot : Nat) (text : String)
    (found : t.generation? g = some gen) (work : works g)
    (leased : slot ∈ gen.pool.slots.map (·.id)) :
    Step works scopes t
      { t with
        generations :=
          t.generations.set g { gen.trip slot text with pool := (gen.pool.remove slot).1 }
        connectivity :=
          if (gen.pool.remove slot).2 then t.said scopes g .trying text else t.connectivity }
  | openStream (s : Stream) (number : s.id = t.streams.length) (orderly : s.Orderly) :
    Step works scopes t
      { t with
        streams := t.streams ++ [s]
        streamWatches := t.streamWatches ++ [{ stream := s.id }] }
  | changeStream (i : Nat) (s next : Stream) (found : t.streams[i]? = some s)
    (becomes : s.Becomes next) (orderly : s.Orderly → next.Orderly) :
    Step works scopes t { t with streams := t.streams.set i next }
  | endWatch (i : Nat)
    (lapsed : ∀ x, t.streamWatches[i]? = some x → ∀ s, t.streams[x.stream]? = some s →
      s.held → s.owned → s.done = false → t.Over scopes s.generation) :
    Step works scopes t
      { t with streamWatches := t.streamWatches.modify i fun x => { x with ended := true } }

end Tunnels

def Call.Proper (inbox : Nat) : Call → Prop
  | .dial { scope, stage := .connecting c _, .. } => c.request.scope = scope
  | .run (.waiting subscription) => subscription ≠ inbox
  | _ => True

def Call.scope? : Call → Option Scope
  | .dial d => some d.scope
  | _ => none

def TunnelDial.link? (d : TunnelDial) : Option Connecting :=
  match d.stage with
  | .linking link => some link
  | _ => none

def Call.connect? : Call → Option Connecting
  | .dial { stage := .connecting c _, .. } => some c
  | .dial { stage := .tunneling d _, .. } => d.link?
  | _ => none

def Call.Follows (call : Call) (generation : Nat) (old : Call) : Prop :=
  ∀ k, call.connect? = some k → k.generation = generation ∨
    ∃ o, old.connect? = some o ∧ o.generation = k.generation

namespace Core

def Connects (c : Core) (scope : Scope) (generation : Nat) : Prop :=
  ∃ call ∈ c.calls, ∃ k, call.2.connect? = some k ∧ k.request.scope = scope ∧
    k.generation = generation

def Asks (c : Core) (scope : Scope) (generation : Nat) : Prop :=
  c.Connects scope generation ∧
    ((∃ call ∈ c.calls, call.2.scope? = some scope) ∨
      ∃ gen ∈ c.tunnels.generations, gen.scope = scope)

inductive Effect (terms : Terms) (c : Core) : Core → Prop
  | traffic {next : Traffic} (step : c.traffic.Step terms.aborts c.Asks next) :
    Effect terms c { c with traffic := next }
  | tunnels {next : Tunnels} (step : c.tunnels.Step terms.works c.scopes next) :
    Effect terms c { c with tunnels := next }
  -- Scopes come, and are cancelled.
  | scopes (next : Scopes) (made : c.scopes.made ≤ next.made)
    (cancelled : ∀ scope, c.scopes.isCancelled scope → next.isCancelled scope) :
    Effect terms c { c with scopes := next }
  | replace (gen fresh : Generation) (found : c.tunnels.generation? c.tunnels.current = some gen)
    (work : terms.works c.tunnels.generations.length)
    (scope : fresh.scope = (c.scopes.child c.root).2) (pool : fresh.pool = {})
    (lost : fresh.lost = []) :
    Effect terms c
      { c with
        scopes := (c.scopes.child c.root).1.cancel gen.scope
        tunnels :=
          { c.tunnels with
            generations := c.tunnels.generations ++ [fresh]
            current := c.tunnels.generations.length
            connectivity :=
              ⟨if fresh.credentials.isSome then .trying else .notConfigured, ""⟩ } }
  | addCall (id : String) (call : Call) (proper : call.Proper c.traffic.supervisor.inbox)
    (handed : ∀ scope, call.scope? = some scope → terms.hands scope)
    (idle : call.connect? = none) :
    Effect terms c { c with calls := c.calls.filter (·.1 != id) ++ [(id, call)] }
  | setCall (id : String) (old call : Call) (found : (id, old) ∈ c.calls)
    (proper : call.Proper c.traffic.supervisor.inbox)
    (same : ∀ scope, call.scope? = some scope → old.scope? = some scope)
    (follows : call.Follows c.traffic.supervisor.generation old) :
    Effect terms c { c with calls := c.calls.map fun p => (p.1, if p.1 = id then call else p.2) }
  | endCall (id : String) : Effect terms c { c with calls := c.calls.filter (·.1 != id) }

theorem Effect.cancelled {terms : Terms} {c next : Core} (effect : c.Effect terms next)
    {scope : Scope} (was : c.scopes.isCancelled scope) : next.scopes.isCancelled scope := by
  cases effect with
  | scopes later _ cancelled => exact cancelled scope was
  | replace => exact Forest.cancel_keeps _ _ (c.scopes.forest.isCancelled_append _ was)
  | _ => exact was

end Core

namespace World

def traffic (w : World) : Traffic where
  bus := w.bus
  supervisor := w.supervisor
  connections := w.connections
  fanOuts := w.fanOuts
  listeners := w.workers.map (·.subscription)
  requests := w.shutdownRequests

def tunnels (w : World) : Tunnels where
  connectivity := w.connectivity
  generations := w.generations
  current := w.current
  streams := w.streams
  streamWatches := w.streamWatches

def core (w : World) : Core where
  scopes := w.scopes
  root := w.root
  traffic := w.traffic
  tunnels := w.tunnels
  calls := w.calls

def Effects (terms : Terms) (w next : World) : Prop :=
  Relation.ReflTransGen (Core.Effect terms) w.core next.core

namespace Effects

variable {terms : Terms} {u w next : World}

theorem refl (w : World) : Effects terms w w := Relation.ReflTransGen.refl

theorem trans (h : Effects terms u w) (k : Effects terms w next) : Effects terms u next :=
  Relation.ReflTransGen.trans h k

theorem plain (same : next.core = w.core) : Effects terms w next := by
  rw [Effects, same]

theorem one (effect : Core.Effect terms w.core next.core) : Effects terms w next := .single effect

theorem traffic {t : Traffic} (step : w.traffic.Step terms.aborts w.core.Asks t)
    (same : next.core = { w.core with traffic := t }) : Effects terms w next :=
  .one (same ▸ .traffic step)

theorem tunnels {t : Tunnels} (step : w.tunnels.Step terms.works w.scopes t)
    (same : next.core = { w.core with tunnels := t }) : Effects terms w next :=
  .one (same ▸ .tunnels step)

theorem keeps {p : Core → Prop} (step : ∀ {c next : Core}, c.Effect terms next → p c → p next)
    (h : Effects terms w next) (start : p w.core) : p next.core := by
  unfold Effects at h
  generalize next.core = last at h
  induction h with
  | refl => exact start
  | tail _ effect ih => exact step effect ih

end Effects

variable {terms : Terms} (w : World)

theorem raise_effects (k : Event.Kind) : Effects terms w (w.raise k) := .traffic (.raise k) rfl

theorem count_effects (c : Stats.Counter) (n : Int32) : Effects terms w (w.count c n) :=
  .traffic (.raise .countersChanged) rfl

theorem turns_effects (turns : Nat) :
    Effects terms w { w with bus := Event.Bus.turns turns w.bus } := by
  induction turns generalizing w with
  | zero => exact .refl w
  | succ turns ih =>
    unfold Event.Bus.turns
    split
    next next turned => exact (Effects.traffic (.turn next turned) rfl).trans (ih { w with bus := next })
    next => exact .refl w

theorem find_connection {id : Nat} {c : Connection} (found : w.connection? id = some c) :
    c.id = id := by
  simpa using List.find?_some found

theorem putConnection_effects {id : Nat} {c next : Connection} (found : w.connection? id = some c)
    (same : next = c ∨ next = c.dropStream) : Effects terms w (w.putConnection c next) := by
  obtain rfl := w.find_connection found
  have number : next.id = c.id := by
    rcases same with rfl | rfl <;> rfl
  have core : (w.putConnection c next).core =
      { w.core with
        traffic := { w.traffic with connections := w.traffic.replace next } } := by
    unfold putConnection
    simp only [Traffic.replace, number]
    split <;> rfl
  exact .traffic (.use c next found same) core

theorem touch_eq (c : Connection) : c.touch = c ∨ c.touch = c.dropStream := by
  unfold Connection.touch
  split
  · exact .inr rfl
  · exact .inl rfl

theorem loseStream_effects (id : Nat) : Effects terms w (w.loseStream id) := by
  unfold loseStream
  split
  next c found => exact w.putConnection_effects found (.inr rfl)
  next => exact .refl w

theorem tearDown_effects (id : Nat) (reason : Option AbortReason)
    (warranted : ∀ r, reason = some r → w.traffic.Warrants terms.aborts id r) :
    Effects terms w (w.tearDown id reason).1 := by
  unfold tearDown
  split
  next => exact .refl w
  next c found =>
    obtain rfl := w.find_connection found
    cases torn? : c.tearDown? reason with
    | none => exact .refl w
    | some torn =>
      have number : torn.id = c.id := by
        unfold Connection.tearDown? at torn?
        split at torn?
        · cases torn?
        · cases torn?
          rfl
      refine (Effects.traffic (.raise .countersChanged) rfl).trans
        (.traffic (w := w.raise .countersChanged)
          (.tearDown c torn reason found torn? warranted) ?_)
      simp only [Traffic.replace, number]
      rfl

theorem closeConnection_effects (id : Nat) (reason : Option AbortReason)
    (warranted : ∀ r, reason = some r → w.traffic.Warrants terms.aborts id r) :
    Effects terms w (w.closeConnection id reason) :=
  (w.tearDown_effects id reason warranted).trans (loseStream_effects _ id)

theorem useConnection_effects {α : Type} (id : Nat) (f : Socket → Socket × Io α) :
    Effects terms w (w.useConnection id f).1 := by
  unfold useConnection
  split
  next => exact .refl w
  next c found =>
    have put : Effects terms w _ := w.putConnection_effects found (touch_eq c)
    dsimp only
    split
    · exact put.trans (.plain rfl)
    · exact put

theorem network_effects (network : Network) : Effects terms w { w with network } := .plain rfl

theorem attempt_effects (request : ConnectRequest) (generation : Nat) (targets : List Endpoint)
    (last : Option String) :
    Effects terms w (attempt request generation targets last w).1 := by
  induction targets generalizing last with
  | nil => exact .refl w
  | cons target rest ih =>
    unfold attempt
    split
    · exact w.network_effects _
    · exact ih _

theorem attemptAll_effects (request : ConnectRequest) (generation : Nat) (family : Option Bool)
    (found : List Endpoint) :
    Effects terms w (w.attemptAll request generation family found).1 := by
  unfold attemptAll
  split
  · exact .refl w
  · exact w.attempt_effects request generation _ none

theorem beginConnect_effects (request : ConnectRequest) :
    Effects terms w (w.beginConnect request).1 := by
  unfold beginConnect
  split
  · exact .refl w
  · split
    · exact .refl w
    · dsimp only
      split
      · exact w.attemptAll_effects _ _ _ _
      · exact w.network_effects _

theorem establish_core (c : Connecting) (socket : Nat) : ∃ k : Connection,
    (w.establish c socket).1.core =
      { w.core with
        traffic :=
          { w.traffic with
            bus := w.bus.raise .countersChanged
            connections := w.connections ++ [k]
            supervisor :=
              { w.supervisor with nextId := k.id + 1 }.send (.add k.member c.generation) } } ∧
      k.id = w.supervisor.nextId ∧ k.closed = false ∧ k.reason = none ∧
      k.scope = c.request.scope :=
  ⟨{ id := w.supervisor.nextId, scope := c.request.scope, localAddr := _, peer := _,
     counter := _, socket := _, hasCopy := _ }, rfl, rfl, rfl, rfl, rfl⟩

theorem establish_effects (c : Connecting) (socket : Nat)
    (wanted : w.core.Asks c.request.scope c.generation) :
    Effects terms w (w.establish c socket).1 := by
  obtain ⟨k, core, fresh, opened, unharmed, scope⟩ := w.establish_core c socket
  exact (w.raise_effects .countersChanged).trans
    (.traffic (w := w.raise .countersChanged)
      (.establish k c.generation fresh opened unharmed (scope ▸ wanted)) core)

theorem pollConnect_effects (c : Connecting) (wanted : w.core.Asks c.request.scope c.generation) :
    Effects terms w (w.pollConnect c).1 := by
  unfold pollConnect
  split
  · exact w.network_effects _
  · split
    · exact .refl w
    · -- The kernel's answer is taken from the network before anything else happens.
      have answered (network : Network) : Effects terms w { w.dropConnect c with network } :=
        .plain rfl
      dsimp only
      split
      · split
        · exact answered _
        · exact (answered _).trans (attemptAll_effects _ _ _ _ _)
      · split
        · exact (answered _).trans (attempt_effects _ _ _ _ _)
        · exact (answered _).trans (establish_effects _ _ _ wanted)

theorem modify_found {α : Type} {l : List α} {i : Nat} {x : α} (found : l[i]? = some x)
    (f : α → α) : l.modify i f = l.set i (f x) := by
  apply List.ext_getElem?
  intro j
  rw [List.getElem?_modify, List.getElem?_set]
  by_cases hit : i = j
  · subst hit
    obtain ⟨inside, rfl⟩ := List.getElem?_eq_some_iff.mp found
    simp [inside]
  · simp [hit]

theorem updateGeneration_core {g : Nat} {gen : Generation} (found : w.generation? g = some gen)
    (f : Generation → Generation) :
    (w.updateGeneration g f).core =
      { w.core with tunnels := { w.tunnels with generations := w.generations.set g (f gen) } } := by
  simp only [core, tunnels, updateGeneration, modify_found found]
  rfl

theorem updatePool_effects (g : Nat) (f : Pool → Pool)
    (slots : (f (w.pool g)).slots.map (·.id) = (w.pool g).slots.map (·.id))
    (nextId : (f (w.pool g)).nextId = (w.pool g).nextId) :
    Effects terms w (w.updatePool g f) := by
  cases found : w.generation? g with
  | none =>
    have beyond : w.generations.length ≤ g := List.getElem?_eq_none_iff.mp found
    simp only [updatePool, updateGeneration, List.modify_eq_self beyond]
    exact .plain rfl
  | some gen =>
    have pool : w.pool g = gen.pool := by simp [World.pool, found]
    rw [pool] at slots nextId
    exact .tunnels (.repool g gen (f gen.pool) found slots nextId)
      (w.updateGeneration_core found fun gen => { gen with pool := f gen.pool })

theorem release_effects (g slot : Nat) : Effects terms w (w.updatePool g (·.release slot)) :=
  w.updatePool_effects g _ (Pool.updateSlot_ids _ _ fun _ => rfl) rfl

theorem withdraw_effects (g : Nat) : Effects terms w (w.updatePool g Pool.withdraw) :=
  w.updatePool_effects g _ rfl rfl

theorem creationFailed_effects (g : Nat) : Effects terms w (w.updatePool g Pool.creationFailed) :=
  w.updatePool_effects g _ rfl rfl

theorem admit_effects (g : Nat) (first : Bool) :
    Effects terms w (w.updatePool g fun _ =>
      ((w.pool g).acquire w.settings.sessionCap first).1) := by
  rcases (w.pool g).acquire_cases w.settings.sessionCap first with
    ⟨s, -, -, result⟩ | ⟨-, -, result⟩ | ⟨-, -, result⟩ <;> rw [result]
  · exact w.updatePool_effects g _ (Pool.updateSlot_ids _ _ fun _ => rfl) rfl
  · exact w.updatePool_effects g _ rfl rfl
  · exact w.updatePool_effects g _ rfl rfl

theorem setConnectivity_eq (state : Stats.TunnelState) (info : String) :
    ∃ bus, w.setConnectivity state info = { w with connectivity := ⟨state, info⟩, bus } ∧
      (bus = w.bus ∨ bus = w.bus.raise .connStateChanged) := by
  unfold setConnectivity Stats.Connectivity.set?
  by_cases same : w.connectivity = ⟨state, info⟩
  · exact ⟨w.bus, by simp [same.symm], .inl rfl⟩
  · exact ⟨w.bus.raise .connStateChanged, by simp [same, raise], .inr rfl⟩

theorem publish_eq (g : Nat) (state : Stats.TunnelState) (info : String) :
    ∃ bus, w.publish g state info =
      { w with connectivity := w.tunnels.said w.scopes g state info, bus } ∧
      (bus = w.bus ∨ bus = w.bus.raise .connStateChanged) := by
  have speaks : (g = w.current && !w.isGenerationCancelled g) = w.tunnels.speaks w.scopes g := rfl
  unfold publish Tunnels.said
  rw [speaks]
  split
  · exact w.setConnectivity_eq state info
  · exact ⟨w.bus, rfl, .inl rfl⟩

theorem heard_effects {bus : Event.Bus} {k : Event.Kind} (heard : bus = w.bus ∨ bus = w.bus.raise k) :
    Effects terms w { w with bus } := by
  rcases heard with rfl | rfl
  · exact .refl w
  · exact w.raise_effects k

theorem updateStream_effects {i : Nat} {s : Stream} (found : w.stream? i = some s)
    (f : Stream → Stream) (becomes : s.Becomes (f s)) (orderly : s.Orderly → (f s).Orderly) :
    Effects terms w (w.updateStream i f) := by
  refine .tunnels (.changeStream i s (f s) found becomes orderly) ?_
  simp only [core, tunnels, updateStream, modify_found found]
  rfl

theorem putStream_effects {s next : Stream} (found : w.stream? s.id = some s)
    (becomes : s.Becomes next) (orderly : s.Orderly → next.Orderly) :
    Effects terms w (w.putStream s next) := by
  have updated : Effects terms w _ :=
    w.updateStream_effects found (fun _ => next) becomes orderly
  have piped (u : World) : Effects terms u
      (if s.hasPipe && !next.hasPipe then
        { u with script := u.script.updatePipe s.pipe Pipe.drop } else u) := by
    split <;> exact .plain rfl
  unfold putStream
  dsimp only
  split
  · exact ((updated.trans (piped _)).trans (release_effects _ s.generation s.slot)).trans
      (count_effects _ _ _)
  · exact updated.trans (piped _)

end World

namespace Tunnel.Stream

variable {s : Stream}

theorem Orderly.release : s.release.Orderly := by
  simp [Orderly, Stream.release]

theorem Orderly.touch (orderly : s.Orderly) (cancelled : Bool) (lost : Option String) :
    (s.touch cancelled lost).Orderly := by
  rw [Stream.touch_eq]
  split_ifs
  · exact orderly
  · exact .release
  · exact orderly
  · exact orderly

end Tunnel.Stream

namespace World

section Streams

variable {terms : Terms} {w : World} (regular : w.Regular)

include regular

theorem releaseStream_effects (id : Nat) : Effects terms w (w.releaseStream id) := by
  unfold releaseStream
  split
  next s found =>
    have number := regular.stream_id w found
    exact w.putStream_effects (number ▸ found) s.release_becomes fun _ => .release
  next => exact .refl w

omit regular in
theorem putStream_streams (s next : Stream) :
    (w.putStream s next).streams = w.streams.modify s.id fun _ => next := by
  unfold putStream
  dsimp only
  split_ifs <;> rfl

theorem stream?_releaseStream {id : Nat} {s : Stream} (found : w.stream? id = some s) :
    (w.releaseStream id).stream? id = some s.release := by
  have number := regular.stream_id w found
  simp only [stream?] at found
  simp only [releaseStream, stream?, found, putStream_streams, number]
  simp [found]

theorem closeStream_effects (id : Nat) : Effects terms w (w.closeStream id) := by
  cases found : w.stream? id with
  | none => exact (w.absent_stream found).2.1.symm ▸ .refl w
  | some s =>
    refine (releaseStream_effects regular id).trans
      (updateStream_effects _ (stream?_releaseStream regular found) _ ?_ ?_)
    · exact ⟨rfl, rfl, rfl, rfl, fun held => held⟩
    · simp [Stream.Orderly, Stream.release]

theorem dropStream_effects (id : Nat) : Effects terms w (w.dropStream id) := by
  cases found : w.stream? id with
  | none => exact (w.absent_stream found).2.2.symm ▸ .refl w
  | some s =>
    have closed : (w.closeStream id).stream? id = some { s.release with done := true } := by
      have released := stream?_releaseStream regular found
      simp only [stream?] at released
      simp [closeStream, updateStream, stream?, released]
    refine (closeStream_effects regular id).trans (updateStream_effects _ closed _ ?_ ?_)
    · exact ⟨rfl, rfl, rfl, rfl, fun held => held⟩
    · simp [Stream.Orderly, Stream.release]

theorem useStream_effects {α : Type} (id : Nat) (f : Pipe → Pipe × Io α) :
    Effects terms w (w.useStream id f).1 := by
  unfold useStream
  split
  next => exact .refl w
  next s found =>
    have number := regular.stream_id w found
    have put : Effects terms w _ := w.putStream_effects (number ▸ found)
      (s.touch_becomes (w.isCancelled s.scope) (w.lostText? s)) (·.touch _ _)
    dsimp only
    split
    · exact put
    · exact put.trans (.plain rfl)

end Streams

end World

end Egress
