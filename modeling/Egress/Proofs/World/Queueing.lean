import Egress.Proofs.World.Listening

set_option autoImplicit false

namespace Egress

namespace Tenure

def active (t : Tenure) : Server.Params := t.params[t.current]?.getD {}

def store (t : Tenure) (params : Server.Params) : Tenure := { t with stored := params }

def ask (t : Tenure) (id : String) : Tenure := { t with reconnecting := t.reconnecting ++ [id] }

def install (t : Tenure) (params : Server.Params) : Tenure :=
  if t.active = params then t
  else { t with params := t.params ++ [params], current := t.params.length }

def release (t : Tenure) : Tenure := { t with reconnecting := t.reconnecting.drop 1 }

variable (t : Tenure) (params : Server.Params)

@[simp] theorem install_active : (t.install params).active = params := by
  unfold install
  split
  · assumption
  · simp [active]

@[simp] theorem install_stored : (t.install params).stored = t.stored := by
  unfold install
  split <;> rfl

@[simp] theorem install_reconnecting : (t.install params).reconnecting = t.reconnecting := by
  unfold install
  split <;> rfl

variable {t}

theorem release_idle (idle : t.reconnecting = []) : t.release = t := by
  unfold release
  rw [idle, List.drop_nil, ← idle]

theorem install_inside (inside : t.current < t.params.length) :
    (t.install params).current < (t.install params).params.length := by
  unfold install
  split
  · exact inside
  · simp

end Tenure

namespace Call

def stored? : Call → Option Server.Params
  | .setParams _ .fresh => none
  | .setParams params _ => some params
  | _ => none

-- Nobody reconnects but through the store, and whoever runs the whole still waits to be told to
-- stop.
def isCalm : Call → Bool
  | .reconnect _ _ | .run (.disconnecting _) | .run .unwatching | .run (.joining _) => false
  | _ => true

end Call

-- Whoever has stored parameters is in the queue, the first in it alone puts its own to use, and
-- those of the last are the stored ones.
structure Queued (t : Tenure) (calls : String → Option Call) : Prop where
  inside : t.current < t.params.length
  apart : t.reconnecting.Nodup
  calm : ∀ id c, calls id = some c → c.isCalm
  waits : ∀ id, id ∈ t.reconnecting ↔ ((calls id).bind Call.stored?).isSome
  drains : ∀ id params g, calls id = some (.setParams params (.draining g)) →
    t.reconnecting.head? = some id ∧ t.active = params
  last : t.stored =
    (t.reconnecting.getLast?.bind fun id => (calls id).bind Call.stored?).getD t.active

namespace Queued

open Function (update update_self update_of_ne)

variable {t : Tenure} {calls : String → Option Call} {id : String} {params : Server.Params} {g : Nat}

section Update

variable {c : Option Call}

theorem calm_update (queued : Queued t calls) (calm : ∀ d, c = some d → d.isCalm) (other : String)
    (d : Call) (found : update calls id c other = some d) : d.isCalm := by
  by_cases hit : other = id
  next =>
    rw [hit, update_self] at found
    exact calm d found
  next =>
    rw [update_of_ne hit] at found
    exact queued.calm other d found

theorem drains_update (queued : Queued t calls) {other : String}
    (found : update calls id c other = some (.setParams params (.draining g))) :
    other = id ∧ c = some (.setParams params (.draining g)) ∨
      other ≠ id ∧ t.reconnecting.head? = some other ∧ t.active = params := by
  by_cases hit : other = id
  next =>
    rw [hit, update_self] at found
    exact .inl ⟨hit, found⟩
  next =>
    rw [update_of_ne hit] at found
    exact .inr ⟨hit, queued.drains other params g found⟩

theorem stored_update (same : c.bind Call.stored? = (calls id).bind Call.stored?) (other : String) :
    (update calls id c other).bind Call.stored? = (calls other).bind Call.stored? := by
  by_cases hit : other = id
  next => rw [hit, update_self, same]
  next => rw [update_of_ne hit]

end Update

theorem aside (queued : Queued t calls) (before : (calls id).bind Call.stored? = none)
    {c : Option Call} (after : c.bind Call.stored? = none) (calm : ∀ d, c = some d → d.isCalm) :
    Queued t (update calls id c) := by
  have same := stored_update (after.trans before.symm)
  refine ⟨queued.inside, queued.apart, queued.calm_update calm, fun other => ?_,
    fun other p g found => ?_, ?_⟩
  · rw [same]
    exact queued.waits other
  · rcases queued.drains_update found with ⟨-, rfl⟩ | ⟨-, was⟩
    · cases after
    · exact was
  · simp only [same]
    exact queued.last

theorem ask (queued : Queued t calls) (fresh : calls id = some (.setParams params .fresh)) :
    Queued ((t.store params).ask id) (update calls id (some (.setParams params .locking))) := by
  have absent : id ∉ t.reconnecting := by simp [queued.waits, fresh, Call.stored?]
  refine ⟨queued.inside, ?_, queued.calm_update (by rintro _ ⟨⟩; rfl), fun other => ?_,
    fun other p g found => ?_, ?_⟩
  · simpa [Tenure.ask, Tenure.store, List.nodup_append] using ⟨queued.apart, fun x member same =>
      absent (same ▸ member)⟩
  · by_cases hit : other = id
    next => simp [hit, Tenure.ask, Call.stored?]
    next => simp [Tenure.ask, Tenure.store, hit, queued.waits]
  · rcases queued.drains_update found with ⟨-, new⟩ | ⟨-, first, active⟩
    · cases new
    · exact ⟨by simp [Tenure.ask, Tenure.store, first], active⟩
  · simp [Tenure.ask, Tenure.store, Call.stored?]

theorem install (queued : Queued t calls) (locking : calls id = some (.setParams params .locking))
    (first : t.reconnecting.head? = some id) (g : Nat) :
    Queued (t.install params) (update calls id (some (.setParams params (.draining g)))) := by
  have same : ∀ other,
      (update calls id (some (.setParams params (.draining g))) other).bind Call.stored? =
        (calls other).bind Call.stored? := by
    apply stored_update
    rw [locking]
    rfl
  refine ⟨Tenure.install_inside params queued.inside, ?_,
    queued.calm_update (by rintro _ ⟨⟩; rfl), fun other => ?_, fun other p h found => ?_, ?_⟩
  · rw [Tenure.install_reconnecting]
    exact queued.apart
  · rw [Tenure.install_reconnecting, same]
    exact queued.waits other
  · rw [Tenure.install_reconnecting, Tenure.install_active]
    rcases queued.drains_update found with ⟨rfl, new⟩ | ⟨apart, also, -⟩
    · cases new
      exact ⟨first, rfl⟩
    · rw [first] at also
      exact absurd (Option.some.inj also).symm apart
  · -- The last in the queue has stored something, so what is in use does not matter.
    rw [Tenure.install_stored, Tenure.install_reconnecting, queued.last]
    simp only [same]
    obtain ⟨rest, queue⟩ := List.head?_eq_some_iff.mp first
    obtain ⟨last, found⟩ := Option.isSome_iff_exists.mp
      (by simp [queue] : t.reconnecting.getLast?.isSome)
    have stored := (queued.waits last).mp (List.mem_of_getLast? found)
    obtain ⟨p, stored⟩ := Option.isSome_iff_exists.mp stored
    simp [found, stored]

theorem release (queued : Queued t calls)
    (draining : calls id = some (.setParams params (.draining g))) :
    Queued t.release (update calls id none) := by
  obtain ⟨first, active⟩ := queued.drains id params g draining
  obtain ⟨rest, queue⟩ := List.head?_eq_some_iff.mp first
  have released : t.release.reconnecting = rest := by simp [Tenure.release, queue]
  obtain ⟨absent, distinct⟩ := List.nodup_cons.mp (queue ▸ queued.apart)
  refine ⟨queued.inside, released ▸ distinct, queued.calm_update (by simp), fun other => ?_,
    fun other p h found => ?_, ?_⟩
  · rw [released]
    by_cases hit : other = id
    next => simp [hit, absent]
    next =>
      rw [update_of_ne hit, ← queued.waits other, queue]
      simp [hit]
  · rcases queued.drains_update found with ⟨-, new⟩ | ⟨apart, also, -⟩
    · cases new
    · rw [first] at also
      exact absurd (Option.some.inj also).symm apart
  · rw [released]
    change t.stored = _
    rw [queued.last, queue]
    cases rest with
    | nil =>
      simp only [List.getLast?_singleton, Option.bind_some, draining, Call.stored?,
        Option.getD_some, List.getLast?_nil, Option.bind_none, Option.getD_none]
      exact active.symm
    | cons next rest =>
      obtain ⟨last, found⟩ := Option.isSome_iff_exists.mp
        (by simp : (next :: rest).getLast?.isSome)
      have other : last ≠ id := by
        rintro rfl
        exact absent (List.mem_of_getLast? found)
      rw [List.getLast?_cons_cons, found]
      simp only [Option.bind_some, update_of_ne other]
      rfl

theorem agrees (queued : Queued t calls) (idle : ∀ id, (calls id).bind Call.stored? = none) :
    t.active = t.stored := by
  have empty : t.reconnecting = [] := by
    refine List.eq_nil_iff_forall_not_mem.mpr fun id member => ?_
    have := (queued.waits id).mp member
    simp [idle] at this
  rw [queued.last, empty]
  rfl

end Queued

namespace World

open Function (update update_self update_of_ne update_eq_self)

variable {w u : World} {id : String} {params : Server.Params} {stage : ReconnectStage}
  {calls : String → Option Call}

theorem currentParams_eq (w : World) : Scenario.Stage.currentParams w = w.tenure.active := by
  simp [Scenario.Stage.currentParams, tenure, Tenure.active, generation?]

theorem storeParams_tenure (w : World) (params : Server.Params) :
    (w.storeParams params).tenure = w.tenure.store params := by
  unfold storeParams
  split <;> simp_all [tenure, Tenure.store, storedParams, Server.Store.setParams]

theorem awaitDrain_cases (w : World) (g : Nat) :
    w.awaitDrain g = (w.unlock, none) ∨ w.awaitDrain g = (w, some (.draining g)) := by
  unfold awaitDrain
  split
  · exact .inl rfl
  · exact .inr rfl

theorem swap_cases (inside : w.current < w.generations.length) (params : Server.Params) :
    ∃ u, u.tenure = w.tenure.install params ∧
      (w.swap params = (u.unlock, none) ∨ ∃ g, w.swap params = (u, some (.draining g))) := by
  have found : w.generation? w.current = some w.generations[w.current] :=
    List.getElem?_eq_getElem inside
  have active : w.tenure.active = w.generations[w.current].params := by
    simp [Tenure.active, tenure, inside]
  unfold swap
  dsimp only
  rw [found]
  dsimp only
  by_cases same : w.generations[w.current].params = params
  next =>
    rw [if_pos same]
    exact ⟨w, by rw [Tenure.install, if_pos (active.trans same)], .inl rfl⟩
  next =>
    rw [if_neg same]
    refine ⟨_, ?_, (awaitDrain_cases _ _).imp_right fun drains => ⟨_, drains⟩⟩
    have quiet (u : World) (state : Stats.TunnelState) :
        (u.setConnectivity state "").tenure = u.tenure := by
      have tells : Tells (fun _ => True) u (u.setConnectivity state "") :=
        u.setConnectivity_tells state ""
      exact tells.tenure
    rw [quiet, Tenure.install, if_neg (active ▸ same)]
    simp [tenure, Tunnel.Generation.make]
    rfl

structure Queues (w : World) (calls : String → Option Call) (id : String) (params : Server.Params)
    (r : Reconnected) : Prop where
  queued : Queued r.1.tenure (update calls id (r.2.map (.setParams params)))
  stored : r.1.tenure.stored = w.tenure.stored
  begun : r.2 ≠ some .fresh

theorem locking_queues (queued : Queued w.tenure calls)
    (locking : calls id = some (.setParams params .locking)) :
    Queues w calls id params (w.pollReconnect id params .locking) := by
  unfold pollReconnect
  dsimp only
  split
  next holds =>
    have first : w.tenure.reconnecting.head? = some id := by simpa [holdsLock, tenure] using holds
    have inside : w.current < w.generations.length := by simpa [tenure] using queued.inside
    obtain ⟨u, installed, through | ⟨g, drains⟩⟩ := w.swap_cases inside params
    · have after := (queued.install locking first 0).release (update_self ..)
      rw [Function.update_idem, ← installed] at after
      rw [through]
      exact ⟨after, (congrArg (·.stored) installed).trans (Tenure.install_stored _ _), by simp⟩
    · have after := queued.install locking first g
      rw [← installed] at after
      rw [drains]
      exact ⟨after, (congrArg (·.stored) installed).trans (Tenure.install_stored _ _), by simp⟩
  next =>
    refine ⟨?_, rfl, by simp⟩
    rw [Option.map_some, ← locking, update_eq_self]
    exact queued

theorem reconnect_queues (queued : Queued w.tenure calls) (begun : stage ≠ .fresh)
    (found : calls id = some (.setParams params stage)) :
    Queues w calls id params (w.pollReconnect id params stage) := by
  cases stage with
  | fresh => exact absurd rfl begun
  | locking => exact locking_queues queued found
  | draining g =>
    change Queues w calls id params (w.awaitDrain g)
    rcases w.awaitDrain_cases g with through | waits
    · rw [through]
      exact ⟨queued.release found, rfl, by simp⟩
    · rw [waits]
      refine ⟨?_, rfl, by simp⟩
      rw [Option.map_some, ← found, update_eq_self]
      exact queued

theorem setParamsProgress_parts {r : Reconnected} (found : (r.1.call? id).isSome) :
    (setParamsProgress id params r).tenure = r.1.tenure ∧
      (setParamsProgress id params r).governing? =
        update r.1.governing? id (r.2.map (.setParams params)) ∧
      (r.2 = none → (setParamsProgress id params r).bus = r.1.bus.raise .serverParamsChanged) := by
  obtain ⟨u, next⟩ := r
  obtain ⟨c, found⟩ := Option.isSome_iff_exists.mp found
  cases next with
  | none =>
    refine ⟨rfl, funext fun other => ?_, fun _ => rfl⟩
    by_cases hit : other = id
    next => simp [setParamsProgress, governing?_finish, hit]
    next =>
      simp only [setParamsProgress, governing?_finish, if_neg hit, update_of_ne hit]
      rfl
  | some stage =>
    refine ⟨rfl, funext fun other => ?_, by simp⟩
    by_cases hit : other = id
    next => simp [setParamsProgress, governing?_setCall, hit, found, Call.governs]
    next => simp [setParamsProgress, governing?_setCall, hit]

-- A poll of a call that is to change the parameters. It stores them first, and as long as it has
-- not announced the change, it has not returned.
structure Announces (w next : World) (id : String) (params : Server.Params)
    (stage : ReconnectStage) : Prop where
  queued : Queued next.tenure next.governing?
  stored : next.tenure.stored = if stage = .fresh then params else w.tenure.stored
  announced : ((next.governing? id).bind Call.stored?).isSome ∨
    ∃ bus : Event.Bus, next.bus = bus.raise .serverParamsChanged

theorem Queues.announces {r : Reconnected} (queues : Queues u w.governing? id params r)
    (same : r.1.governing? = w.governing?) (found : (w.governing? id).isSome)
    (stored : u.tenure.stored = if stage = .fresh then params else w.tenure.stored) :
    Announces w (setParamsProgress id params r) id params stage := by
  have here : (r.1.call? id).isSome := by
    rw [← same] at found
    obtain ⟨c, found⟩ := Option.isSome_iff_exists.mp found
    simp [call?_of_governing found]
  have parts : (setParamsProgress id params r).tenure = r.1.tenure ∧ _ ∧ _ :=
    setParamsProgress_parts here
  obtain ⟨tenure, governing, bus⟩ := parts
  rw [same] at governing
  refine ⟨?_, ?_, ?_⟩
  · rw [tenure, governing]
    exact queues.queued
  · rw [tenure, queues.stored, stored]
  · cases next : r.2 with
    | none => exact .inr ⟨_, bus next⟩
    | some later =>
      refine .inl ?_
      rw [governing, next]
      have begun := queues.begun
      rw [next] at begun
      cases later with
      | fresh => exact absurd rfl begun
      | locking | draining => simp [Call.stored?]

theorem pollSetParams_announces (queued : Queued w.tenure w.governing?)
    (found : w.governing? id = some (.setParams params stage)) :
    Announces w (w.pollSetParams id params stage) id params stage := by
  have spoken (v : World) (stage : ReconnectStage) :
      (v.pollReconnect id params stage).1.governing? = v.governing? := by
    have speaks : Speaks (fun _ => True) v (v.pollReconnect id params stage).1 :=
      v.pollReconnect_speaks id params stage
    exact congrArg Posts.calls speaks.posts
  have some : (w.governing? id).isSome := by simp [found]
  cases stage with
  | fresh =>
    -- It stores the parameters and queues up, and then it is as if it had waited there.
    let v : World := { w.storeParams params with
      reconnecting := (w.storeParams params).reconnecting ++ [id] }
    have calls : v.governing? = w.governing? := by
      have speaks : Speaks (fun _ => True) w (w.storeParams params) := w.storeParams_speaks params
      exact congrArg Posts.calls speaks.posts
    have asked : v.tenure = (w.tenure.store params).ask id :=
      congrArg (·.ask id) (w.storeParams_tenure params)
    have queues : Queues v (update w.governing? id (.some (.setParams params .locking))) id params
        (v.pollReconnect id params .locking) :=
      locking_queues (asked ▸ queued.ask found) (update_self ..)
    obtain ⟨after, stored, begun⟩ := queues
    rw [Function.update_idem] at after
    refine Queues.announces ⟨after, stored, begun⟩ ((spoken v .locking).trans calls) some ?_
    rw [asked]
    rfl
  | locking =>
    have queues : Queues w w.governing? id params (w.pollReconnect id params .locking) :=
      reconnect_queues queued (by simp) found
    exact queues.announces (spoken w .locking) some rfl
  | draining g =>
    have queues : Queues w w.governing? id params (w.pollReconnect id params (.draining g)) :=
      reconnect_queues queued (by simp) found
    exact queues.announces (spoken w (.draining g)) some rfl

end World

end Egress
