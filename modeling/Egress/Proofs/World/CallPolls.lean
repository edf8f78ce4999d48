import Egress.Proofs.World.Polls

set_option autoImplicit false

namespace Egress

open Simulation Tunnel

namespace World

variable {w u : World} {id : String}

section Reconnects

variable (regular : w.Regular)

include regular

theorem pollReconnectCall_polls {params : Server.Params} {stage : ReconnectStage}
    (found : w.call? id = some (.reconnect params stage)) :
    Polls id w (w.pollReconnectCall id params stage) := by
  have attends := pollReconnect_attends regular id params stage
  have drains (g : Nat) (owes : Owes (.reconnect params stage) w
      (w.pollReconnect id params stage).1 g) : (w.pollReconnect id params stage).Drains g :=
    pollReconnect_drains id params owes
  unfold pollReconnectCall
  revert attends drains
  generalize w.pollReconnect id params stage = r
  obtain ⟨u, next⟩ := r
  intro attends drains
  cases next with
  | some next => exact attends.setCall found rfl rfl trivial fun g owes => .inl (drains g owes)
  | none => exact attends.finish found rfl drains

omit regular in
theorem storeParams_beside (params : Server.Params) : Beside w (w.storeParams params) := by
  unfold storeParams
  split <;> exact .of_eq rfl rfl rfl

theorem pollSetParams_polls {params : Server.Params} {stage : ReconnectStage}
    (found : w.call? id = some (.setParams params stage)) :
    Polls id w (w.pollSetParams id params stage) := by
  -- The parameters are stored at most once, and what follows is the same.
  have after (u : World) (begun : Attends w u) (kept : u.current = w.current) :
      Polls id w (setParamsProgress id params (u.pollReconnect id params stage)) := by
    have attends := begun.trans (pollReconnect_attends begun.passes.regular id params stage)
    have drains (g : Nat) (owes : Owes (.setParams params stage) w
        (u.pollReconnect id params stage).1 g) : (u.pollReconnect id params stage).Drains g :=
      pollReconnect_drains id params (kept.symm ▸ owes)
    revert attends drains
    generalize u.pollReconnect id params stage = r
    obtain ⟨next, place⟩ := r
    intro attends drains
    cases place with
    | some place =>
      exact attends.setCall found rfl rfl trivial fun g owes => .inl (drains g owes)
    | none =>
      have raised := attends.beside (next.raise_beside .serverParamsChanged)
      exact raised.finish found rfl fun g owes =>
        (isDrained_of_beside (next.raise_beside .serverParamsChanged) g).trans (drains g owes)
  have begun := Attends.start regular
  unfold pollSetParams
  cases stage with
  | fresh =>
    have stored := storeParams_beside params (w := w)
    exact after _ (begun.beside stored) (congrArg (·.current) stored.level.frame)
  | locking => exact after w begun rfl
  | draining g => exact after w begun rfl

end Reconnects

theorem joinFrom_beside (room worker : Nat) (w : World) :
    Beside w (joinFrom room worker w).1 := by
  induction room generalizing worker w with
  | zero => exact .refl w
  | succ room ih =>
    unfold joinFrom
    split
    · exact .refl w
    · split
      · exact .refl w
      · dsimp only
        split
        next =>
          have logged (log : List Event.LogLine) : Beside w { w with log } := .of_eq rfl rfl rfl
          exact (logged _).trans (ih _ _)
        next => exact ih _ _

section Runs

variable {stage : RunStage} (found : w.call? id = some (.run stage))

include found

theorem joinWorkers_polls (attends : Attends w u) (worker : Nat)
    (drains : ∀ g, Owes (.run stage) w u g → u.isDrained g) :
    Polls id w (u.joinWorkers id worker) := by
  have joined := joinFrom_beside (u.workers.length + 1) worker u
  have attends := attends.beside joined
  have current := congrArg (·.current) joined.level.frame
  have drains (g : Nat) (owes : Owes (.run stage) w
      (joinFrom (u.workers.length + 1) worker u).1 g) :=
    (isDrained_of_beside joined g).trans (drains g (owes.kept current))
  unfold joinWorkers join
  revert attends drains
  generalize joinFrom (u.workers.length + 1) worker u = r
  obtain ⟨next, place⟩ := r
  intro attends drains
  cases place with
  | some i => exact attends.setCall found rfl rfl trivial fun g owes => .inr (drains g owes)
  | none => exact attends.finish found rfl drains

theorem awaitWatch_polls (attends : Attends w u)
    (drains : ∀ g, Owes (.run stage) w u g → u.isDrained g) :
    Polls id w (u.awaitWatch id) := by
  have closed : Beside u { u with bus := u.bus.close } := .of_eq rfl rfl rfl
  unfold awaitWatch
  split
  · exact joinWorkers_polls found (attends.beside closed) 0 drains
  · exact attends.setCall found rfl rfl trivial fun g owes => .inr (drains g owes)

theorem runDisconnect_polls (attends : Attends w u) (kept : u.current = w.current)
    (place : ReconnectStage)
    (same : ∀ g, (Call.run stage).draining? = some g → place.draining? = some g) :
    Polls id w (u.runDisconnect id place) := by
  have attends := attends.trans (pollReconnect_attends attends.passes.regular id {} place)
  have drains (g : Nat) (owes : Owes (.run stage) w (u.pollReconnect id {} place).1 g) :
      (u.pollReconnect id {} place).Drains g :=
    pollReconnect_drains id {} (owes.imp (same g) fun ⟨now, changed⟩ => ⟨kept.trans now, changed⟩)
  unfold runDisconnect
  revert attends drains
  generalize u.pollReconnect id {} place = r
  obtain ⟨next, later⟩ := r
  intro attends drains
  cases later with
  | some later => exact attends.setCall found rfl rfl trivial fun g owes => .inl (drains g owes)
  | none =>
    have stopping : Beside next
        { next with supervisor := { next.supervisor with stopping := true } } :=
      .of_eq rfl rfl rfl
    exact awaitWatch_polls found (attends.beside stopping) drains

theorem shutDown_polls (attends : Attends w u) (kept : u.current = w.current)
    (idle : (Call.run stage).draining? = none) : Polls id w (u.shutDown id) := by
  have cancelled := Attends.still (cancel_passes attends.passes.regular u.root) rfl rfl rfl
  apply runDisconnect_polls found (attends.trans cancelled) kept .fresh
  intro g draining
  rw [idle] at draining
  cases draining

theorem awaitShutdown_polls (attends : Attends w u) (kept : u.current = w.current)
    (idle : (Call.run stage).draining? = none) (subscription : Nat) :
    Polls id w (u.awaitShutdown id subscription) := by
  have signalled : Beside u { u with signals := [] } := .of_eq rfl rfl rfl
  have received (bus : Event.Bus) : Beside u { u with bus } := .of_eq rfl rfl rfl
  unfold awaitShutdown
  split
  · exact shutDown_polls found ((attends.beside signalled).beside (raise_beside _ _)) kept idle
  · split
    · exact (attends.beside (received _)).setCall found rfl rfl trivial (unowed idle kept)
    · exact shutDown_polls found (attends.beside (received _)) kept idle

theorem pollRun_polls (regular : w.Regular) : Polls id w (w.pollRun id stage) := by
  have attends := Attends.start regular
  cases stage with
  | fresh =>
    simp only [pollRun]
    split
    · exact attends.finish found rfl (unowed rfl rfl)
    · have taken : Beside w { w with shutdownRequests := none } := .of_eq rfl rfl rfl
      exact awaitShutdown_polls found (attends.beside taken) rfl rfl _
  | waiting subscription => exact awaitShutdown_polls found attends rfl rfl subscription
  | disconnecting place => exact runDisconnect_polls found attends rfl place fun _ draining => draining
  | unwatching => exact awaitWatch_polls found attends (unowed rfl rfl)
  | joining worker => exact joinWorkers_polls found attends worker (unowed rfl rfl)

omit found in
theorem pollJoin_polls (regular : w.Regular) {worker : Nat}
    (found : w.call? id = some (.join worker)) : Polls id w (w.pollJoin id worker) := by
  have joined := joinFrom_beside (w.workers.length + 1) worker w
  have attends := (Attends.start regular).beside joined
  have kept := congrArg (·.current) joined.level.frame
  unfold pollJoin join
  revert attends kept
  generalize joinFrom (w.workers.length + 1) worker w = r
  obtain ⟨next, place⟩ := r
  intro attends kept
  cases place with
  | some i => exact attends.setCall found rfl rfl trivial (unowed rfl kept)
  | none => exact attends.finish found rfl (unowed rfl kept)

end Runs

theorem pollRead_polls (regular : w.Regular) {h : Handle} {name : String} {n : Nat}
    (found : w.call? id = some (.read h name n)) : Polls id w (w.pollRead id h name n) := by
  have travels := read_travels regular h n
  unfold pollRead
  revert travels
  generalize w.read h n = r
  obtain ⟨u, result⟩ := r
  intro travels
  have attends := (Attends.start regular).travels travels
  have put := travels.trans (putHandle_travels travels.regular name h)
  have attends' := (Attends.start regular).travels put
  have kept := congrArg (·.current) put.frame
  cases result with
  | pending => exact attends.polls (congrArg (·.current) travels.frame) id
  | done bytes => exact attends'.finish found rfl (unowed rfl kept)
  | failed failure => exact attends'.finish found rfl (unowed rfl kept)

section Connects

variable {d : Dial} (found : w.call? id = some (.dial d))
  (plain : (Call.dial d).tunnelDial? = none)

include found plain

theorem connectionDialed_polls (regular : w.Regular) (beside : Beside w u) (connection : Nat)
    (boxed : Bool) : Polls id w (u.connectionDialed id connection boxed) := by
  have travels := beside.travels regular bare
  have put := travels.trans (putHandle_travels travels.regular id (.connection connection boxed))
  have noted (u : World) : Beside u (u.notePeer id connection boxed) := by
    unfold notePeer
    dsimp only
    split <;> exact .of_eq rfl rfl rfl
  have known (u : World) (dialed : List (String × Nat)) : Beside u { u with dialed } :=
    .of_eq rfl rfl rfl
  have noted := put.trans ((noted _).travels put.regular bare)
  have attends := (Attends.start regular).travels noted
  have kept := congrArg (·.current) noted.frame
  unfold connectionDialed
  dsimp only
  split
  · exact attends.finish found plain (unowed rfl kept)
  · split <;> exact (attends.beside (known _ _)).finish found plain (unowed rfl kept)

theorem connectProgress_polls (regular : w.Regular) (beside : Beside w u) (boxed : Bool)
    (progress : Progress Connecting)
    (request : ∀ c, progress = .waiting c → c.request.counter = .tcpConnections) :
    Polls id w (u.connectProgress id d boxed progress) := by
  have attends := (Attends.start regular).beside beside
  have kept := congrArg (·.current) beside.level.frame
  cases progress with
  | waiting c => exact attends.setCall found plain rfl (request c rfl) (unowed rfl kept)
  | failed failure => exact attends.finish found plain (unowed rfl kept)
  | done connection => exact connectionDialed_polls found plain regular beside connection boxed

end Connects

theorem Regular.past_cancelled (regular : w.Regular) {g : Nat} (past : w.IsPast g) :
    w.isGenerationCancelled g := by
  rw [isGenerationCancelled_eq, Option.all_eq_true]
  exact fun gen at_g => regular.frame.past g gen at_g past.2

theorem tunnelProgress_polls (regular : w.Regular) {d : Dial} {t : TunnelDial} {a : Hand}
    {r : World × Progress TunnelDial} (found : w.call? id = some (.dial d)) (boxed : Bool)
    (serves : Serves t a w r) (inside : t.generation < w.generations.length)
    (hands : (Call.dial d).hands = a.within t.generation)
    (own : ∀ g, w.IsPast g → (dialGeneration? (.dial d) = some g ↔ t.generation = g))
    (creates : ∀ next, r.2 = .waiting next → ∀ g,
      (Call.dial { d with stage := .tunneling next boxed }).MayCreate g → (Call.dial d).MayCreate g)
    (gone : w.IsPast t.generation →
      (∀ k, r.2 ≠ .done k) ∧ ∀ failure, r.2 = .failed failure → failure = .canceled) :
    Polls id w (r.1.tunnelProgress id d boxed r.2) := by
  obtain ⟨u, progress⟩ := r
  have travels : Travels (Call.dial d).hands (progress.hand.within t.generation) w u := by
    rw [hands]
    apply serves.turn.travels regular inside
    intro past
    refine ⟨congrArg _ (serves.streamless (gone past).1), fun drained => ?_⟩
    have dialing : w.IsDialing id t.generation :=
      (isDialing_iff regular.frame.names).mpr ⟨_, found, (own _ past).mpr rfl⟩
    exact absurd dialing (((w.isDrained_iff _).mp drained).1 id)
  cases progress with
  | waiting next =>
    obtain ⟨generation, -, fits⟩ := serves.waits next rfl
    let later : Call := .dial { d with stage := .tunneling next boxed }
    have goesOn : Travels (Call.dial d).hands later.hands w u := by
      rw [Call.hands_tunnelDial (c := later) rfl, generation]
      exact travels
    refine goesOn.setCall regular found fits (fun g past => ?_) (by simp [Call.draining?, later])
      (creates next rfl)
    rw [own g past, ← generation]
    exact Option.some_inj
  | failed failure =>
    have ends : Travels (Call.dial d).hands bare w u := within_empty t.generation ▸ travels
    refine ends.finish regular found (fun g past dials => ?_) (by simp [Call.draining?])
    obtain rfl := (own g past).mp dials
    exact congrArg _ ((gone past).2 failure rfl)
  | done k =>
    have opened : Travels (Call.dial d).hands bare w u := within_empty t.generation ▸ travels
    have put := opened.trans (putHandle_travels opened.regular id (.stream k boxed))
    have ends (f : Finish) : Polls id w ((u.putHandle id (.stream k boxed)).finish id f) := by
      refine put.finish regular found (fun g past dials => ?_) (by simp [Call.draining?])
      obtain rfl := (own g past).mp dials
      exact absurd rfl ((gone past).1 k)
    simp only [tunnelProgress, streamDialed]
    split
    · exact ends _
    · split <;> exact ends _

theorem dialVia_polls (regular : w.Regular) {d : Dial} {carrier : Carrier}
    (found : w.call? id = some (.dial d)) (fresh : d.stage = .fresh carrier) (via : Via)
    (boxed : Bool) : Polls id w (w.dialVia id d via boxed) := by
  have plain : (Call.dial d).tunnelDial? = none := by
    obtain ⟨scope, network, address, stage⟩ := d
    subst fresh
    rfl
  let request : ConnectRequest :=
    { scope := d.scope, network := d.network, address := d.address, counter := .tcpConnections }
  have direct : Polls id w
      ((w.beginConnect request).1.connectProgress id d boxed (w.beginConnect request).2) := by
    refine connectProgress_polls found plain regular (w.beginConnect_beside _) boxed _
      fun c waits => ?_
    rw [(w.beginConnect_waits waits).1]
  cases via with
  | manager => exact direct
  | direct => exact direct
  | tunnel =>
    have current := regular.current_lt
    refine tunnelProgress_polls regular found boxed
      (w.beginTunnelDial_serves current d.scope d.network d.address) current ?_ ?_ ?_ ?_
    · rw [Call.hands_plain plain, within_empty]
    · intro g past
      rw [Call.dialGeneration?_eq, plain]
      simp [past.2.symm]
    · intro next _ g _
      obtain ⟨scope, network, address, stage⟩ := d
      subst fresh
      trivial
    · exact fun past => absurd rfl past.2

theorem Regular.tunnelDial_fits (regular : w.Regular) {d : Dial} {t : TunnelDial} {boxed : Bool}
    (found : w.call? id = some (.dial d)) (stage : d.stage = .tunneling t boxed) :
    t.Fits w.frame ∧ t.generation < w.generations.length := by
  have fits : t.Fits w.frame := by
    have fits := regular.frame.calls _ ((mem_calls regular.frame.names).mpr found)
    obtain ⟨scope, network, address, stage⟩ := d
    subst stage
    exact fits
  obtain ⟨gen, at_g, rest⟩ := fits
  have inside := (List.getElem?_eq_some_iff.mp at_g).1
  exact ⟨⟨gen, at_g, rest⟩, w.frame_generations_length ▸ inside⟩

theorem serves_polls (regular : w.Regular) {d : Dial} {t : TunnelDial} {boxed : Bool}
    {r : World × Progress TunnelDial} (found : w.call? id = some (.dial d))
    (stage : d.stage = .tunneling t boxed)
    (serves : t.Fits w.frame → Serves t (.stake t.stage.stake) w r)
    (opening : t.isOpening → ∀ next, r.2 = .waiting next → next.isOpening)
    (gone : t.Fits w.frame → w.isGenerationCancelled t.generation →
      (∀ k, r.2 ≠ .done k) ∧ ∀ failure, r.2 = .failed failure → failure = .canceled) :
    Polls id w (r.1.tunnelProgress id d boxed r.2) := by
  have dial : (Call.dial d).tunnelDial? = some t := by
    obtain ⟨scope, network, address, stage⟩ := d
    subst stage
    rfl
  obtain ⟨fits, inside⟩ := regular.tunnelDial_fits found stage
  refine tunnelProgress_polls regular found boxed (serves fits) inside
    (Call.hands_tunnelDial dial) (fun g _ => ?own) (fun next waits g may => ?creates)
    fun past => gone fits (regular.past_cancelled past)
  case own =>
    rw [Call.dialGeneration?_eq, dial]
    exact Option.some_inj
  case creates =>
    obtain ⟨same, unopened⟩ : next.generation = g ∧ next.isOpening = false := may
    have generation := ((serves fits).waits next waits).1
    have unopened' : t.isOpening = false := by
      by_contra opens
      simp [opening (by simpa using opens) next waits] at unopened
    obtain ⟨scope, network, address, _⟩ := d
    subst stage
    exact ⟨generation.symm.trans same, unopened'⟩

theorem pollDial_polls (regular : w.Regular) {d : Dial} (found : w.call? id = some (.dial d)) :
    Polls id w (w.pollDial id d) := by
  unfold pollDial
  split
  next via boxed stage => exact dialVia_polls regular found stage via boxed
  next host stage =>
    have plain : (Call.dial d).tunnelDial? = none := by
      obtain ⟨scope, network, address, stage⟩ := d
      subst stage
      rfl
    split
    · exact dialVia_polls regular found stage _ _
    · exact dialVia_polls regular found stage _ _
    · exact (Attends.start regular).finish found plain (unowed rfl rfl)
  next c boxed stage =>
    have plain : (Call.dial d).tunnelDial? = none := by
      obtain ⟨scope, network, address, stage⟩ := d
      subst stage
      rfl
    have request : c.request.counter = .tcpConnections := by
      have fits := regular.frame.calls _ ((mem_calls regular.frame.names).mpr found)
      obtain ⟨scope, network, address, stage⟩ := d
      subst stage
      exact fits
    refine connectProgress_polls found plain regular (w.pollConnect_beside c (by simp [request]))
      boxed _ fun next waits => ?_
    rw [(w.pollConnect_waits waits).1, request]
  next t boxed stage =>
    have ends (fits : t.Fits w.frame) (gone : w.isGenerationCancelled t.generation) :
        (∀ k, (w.pollTunnelDial t).2 ≠ .done k) ∧
          ∀ failure, (w.pollTunnelDial t).2 = .failed failure → failure = .canceled := by
      rw [pollTunnelDial_over gone fits]
      exact ⟨by simp, by simp⟩
    exact serves_polls regular found stage (w.pollTunnelDial_serves t)
      (fun opening _ => w.pollTunnelDial_opening t opening) ends

theorem withdraw_polls (regular : w.Regular) (call : String) :
    Polls call w (w.advance call w.withdraw) := by
  unfold advance
  split
  next d found =>
    split
    next t boxed stage =>
      have ends (gone : w.isGenerationCancelled t.generation) :
          (∀ k, (w.withdraw t).2 ≠ .done k) ∧
            ∀ failure, (w.withdraw t).2 = .failed failure → failure = .canceled := by
        unfold withdraw
        split
        · simp [isDialCancelled_of_over gone]
        · simp
      exact serves_polls regular found stage (w.withdraw_serves t)
        (fun opening _ => w.withdraw_opening t opening) fun _ => ends
    · exact (Attends.start regular).polls rfl _
  · exact (Attends.start regular).polls rfl _

theorem answer_polls (regular : w.Regular) (call : String) (mode : Mode) :
    Polls call w (w.advance call (w.answer mode)) := by
  unfold advance
  split
  next d found =>
    split
    next t boxed stage =>
      have ends (gone : w.isGenerationCancelled t.generation) :
          (∀ k, (w.answer mode t).2 ≠ .done k) ∧
            ∀ failure, (w.answer mode t).2 = .failed failure → failure = .canceled := by
        unfold answer
        split
        · simp [isDialCancelled_of_over gone]
        · simp
      exact serves_polls regular found stage (fun fits => w.answer_serves t fits mode)
        (fun opening _ => w.answer_opening t mode opening) fun _ => ends
    · exact (Attends.start regular).polls rfl _
  · exact (Attends.start regular).polls rfl _

theorem pollCall_polls (regular : w.Regular) (id : String) : Polls id w (w.pollCall id) := by
  unfold pollCall
  split
  · exact (Attends.start regular).polls rfl _
  next found => exact pollDial_polls regular found
  next found => exact pollRead_polls regular found
  next found => exact pollReconnectCall_polls regular found
  next found => exact pollSetParams_polls regular found
  next found => exact pollRun_polls found regular
  next found => exact pollJoin_polls regular found

end World

end Egress
