import Egress.Proofs.Event.Bus
import Egress.Proofs.World.MoveEffects

set_option autoImplicit false

namespace Egress

namespace Traffic

inductive Supervises (view : Supervisor.View) (t : Traffic) : Traffic → Prop
  | command (c : Command) (rest : List Command) (queued : t.supervisor.queue = c :: rest) :
    Supervises view t
      { t with
        supervisor := ({ t.supervisor with queue := rest }.handle view c).1
        fanOuts := t.fanOuts ++ ({ t.supervisor with queue := rest }.handle view c).2 }
  | watch (x : ScopeWatch) (verdict : Bool) (member : x ∈ t.supervisor.registry.watches)
    (resolved : if verdict then view.cancelled x.scope.token else x.unwatched) :
    Supervises view t
      { t with
        supervisor := (t.supervisor.watchResolved x verdict).1
        fanOuts := t.fanOuts ++ (t.supervisor.watchResolved x verdict).2 }
  | news (k : Event.Kind) (heard : (t.bus.receive t.supervisor.inbox).2 = .kind k) :
    Supervises view t
      { t with
        bus := (t.bus.receive t.supervisor.inbox).1
        supervisor := (t.supervisor.addressesChanged view).1
        fanOuts := t.fanOuts ++ (t.supervisor.addressesChanged view).2 }
  | silence (closed : (t.bus.receive t.supervisor.inbox).2 = .closed) :
    Supervises view t { t with supervisor := { t.supervisor with busOpen := false } }

end Traffic

namespace World

-- One step of a supervisor that is not to stop. Whatever is ready may come first: a command, a
-- scope that is done, or news from the bus. A watch whose scope is cancelled and whose entry is
-- gone may say either.
inductive Supervises (w : World) : World → Prop
  | command (c : Command) (rest : List Command) (queued : w.supervisor.queue = c :: rest)
    (running : w.supervisor.running) (goesOn : w.supervisor.stopping = false) :
    Supervises w
      ({ w with supervisor := ({ w.supervisor with queue := rest }.handle w.view c).1 }.launch
        ({ w.supervisor with queue := rest }.handle w.view c).2)
  | watch (x : ScopeWatch) (verdict : Bool) (member : x ∈ w.supervisor.registry.watches)
    (resolved : if verdict then w.isCancelled x.scope else x.unwatched)
    (running : w.supervisor.running) (goesOn : w.supervisor.stopping = false) :
    Supervises w
      ({ w with supervisor := (w.supervisor.watchResolved x verdict).1 }.launch
        (w.supervisor.watchResolved x verdict).2)
  | news (k : Event.Kind) (heard : (w.bus.receive w.supervisor.inbox).2 = .kind k)
    (listens : w.supervisor.busOpen) (running : w.supervisor.running)
    (goesOn : w.supervisor.stopping = false) :
    Supervises w
      ({ w with
         bus := (w.bus.receive w.supervisor.inbox).1
         supervisor := (w.supervisor.addressesChanged w.view).1 }.launch
        (w.supervisor.addressesChanged w.view).2)
  | silence (closed : (w.bus.receive w.supervisor.inbox).2 = .closed)
    (listens : w.supervisor.busOpen) (running : w.supervisor.running)
    (goesOn : w.supervisor.stopping = false) :
    Supervises w { w with supervisor := { w.supervisor with busOpen := false } }

variable {w next : World}

theorem launch_core (w : World) (orders : List FanOut) :
    (w.launch orders).core =
      { w.core with traffic := { w.traffic with fanOuts := w.fanOuts ++ orders } } := by
  unfold launch
  induction orders generalizing w with
  | nil => simp [core, traffic]
  | cons o rest ih =>
    rw [List.foldl_cons, ih]
    simp [core, traffic, spawn, tunnels]

theorem Supervises.traffic (step : w.Supervises next) :
    w.traffic.Supervises w.view next.traffic ∧
      next.core = { w.core with traffic := next.traffic } := by
  have launched {t : Traffic} (same : next.core = { w.core with traffic := t })
      (supervises : w.traffic.Supervises w.view t) :
      w.traffic.Supervises w.view next.traffic ∧
        next.core = { w.core with traffic := next.traffic } := by
    have traffic : next.traffic = t := congrArg (·.traffic) same
    rw [traffic]
    exact ⟨supervises, same⟩
  cases step with
  | command c rest queued => exact launched (launch_core _ _) (.command c rest queued)
  | watch x verdict member resolved =>
    exact launched (launch_core _ _) (.watch x verdict member resolved)
  | news k heard => exact launched (launch_core _ _) (.news k heard)
  | silence closed => exact launched rfl (.silence closed)

theorem superviseStep?_cases (step : w.superviseStep? = some next) :
    w.supervisor.stopping ∧ next = w.stopSupervisor ∨
      w.supervisor.stopping = false ∧ w.Supervises next := by
  unfold superviseStep? at step
  split at step
  · cases step
  next ended =>
    have running : w.supervisor.running := by simpa using ended
    split at step
    next stopping =>
      cases step
      exact .inl ⟨stopping, rfl⟩
    next stopping =>
      have goesOn : w.supervisor.stopping = false := by simpa using stopping
      refine .inr ⟨goesOn, ?_⟩
      split at step
      next command rest queued =>
        cases step
        exact .command command rest queued running goesOn
      next =>
        split at step
        next watch found =>
          cases step
          refine .watch watch _ (List.mem_of_find?_eq_some found) ?_ running goesOn
          have resolved : Registry.ScopeWatch.isResolved watch w.view.cancelled := by
            simpa using List.find?_some found
          cases cancelled : w.view.cancelled watch.scope.token with
          | true => exact cancelled
          | false => simpa [Registry.ScopeWatch.isResolved, cancelled] using resolved
        next =>
          split at step
          next news =>
            have news : w.supervisor.busOpen ∧
                (w.bus.receive w.supervisor.inbox).2 ≠ .pending := by simpa [hasNews] using news
            split at step
            next bus k heard =>
              cases step
              have heard' : (w.bus.receive w.supervisor.inbox).2 = .kind k := by rw [heard]
              have bus' : bus = (w.bus.receive w.supervisor.inbox).1 := by rw [heard]
              rw [bus']
              exact .news k heard' news.1 running goesOn
            next other =>
              cases step
              refine .silence ?_ news.1 running goesOn
              cases receipt : (w.bus.receive w.supervisor.inbox).2 with
              | kind k => exact (other _ k (Prod.ext rfl receipt)).elim
              | pending => exact absurd receipt news.2
              | closed => rfl
          next => cases step

theorem supervise_keeps {p : World → Prop}
    (step : ∀ {w next : World}, w.Supervises next → p w → p next)
    (stop : ∀ {w : World}, w.supervisor.stopping → p w → p w.stopSupervisor) (start : p w) :
    p w.supervise := by
  unfold supervise
  generalize 2 * w.supervisor.queue.length + w.supervisor.registry.watches.length + 3 = turns
  induction turns generalizing w with
  | zero => exact start
  | succ turns ih =>
    unfold superviseFor
    split
    next next taken =>
      rcases superviseStep?_cases taken with ⟨stopping, rfl⟩ | ⟨-, supervises⟩
      · exact ih (stop stopping start)
      · exact ih (step supervises start)
    next => exact start

end World

namespace Supervisor

structure Keeps (s next : Supervisor) : Prop where
  queue : next.queue = s.queue
  stopping : next.stopping = s.stopping
  running : next.running = s.running
  busOpen : next.busOpen = s.busOpen
  inbox : next.inbox = s.inbox
  nextId : next.nextId = s.nextId

variable (s : Supervisor) (v : View)

theorem handle_keeps (c : Command) : s.Keeps (s.handle v c).1 := by
  unfold handle
  split
  · split
    · exact ⟨rfl, rfl, rfl, rfl, rfl, rfl⟩
    · split <;> exact ⟨rfl, rfl, rfl, rfl, rfl, rfl⟩
  · exact ⟨rfl, rfl, rfl, rfl, rfl, rfl⟩

theorem watchResolved_keeps (x : ScopeWatch) (verdict : Bool) :
    s.Keeps (s.watchResolved x verdict).1 := by
  unfold watchResolved
  dsimp only
  split <;> exact ⟨rfl, rfl, rfl, rfl, rfl, rfl⟩

end Supervisor

namespace World

variable {w next : World}

theorem Supervises.proper (step : w.Supervises next) (proper : w.core.Proper) :
    next.core.Proper := by
  obtain ⟨step, core⟩ := step.traffic
  rw [core]
  generalize next.traffic = t at step
  have inbox : t.supervisor.inbox = w.supervisor.inbox := by
    cases step with
    | command c rest => exact (Supervisor.handle_keeps _ _ c).inbox
    | watch x verdict => exact (w.supervisor.watchResolved_keeps x verdict).inbox
    | news => rfl
    | silence => rfl
  have others : t.listeners = w.traffic.listeners ∧ t.requests = w.traffic.requests := by
    cases step <;> exact ⟨rfl, rfl⟩
  obtain ⟨calls, listeners, requests⟩ := proper
  refine ⟨?_, ?_, ?_⟩ <;> simp only [inbox, others]
  · exact calls
  · exact listeners
  · exact requests

theorem Supervises.goesOn (step : w.Supervises next) : next.supervisor.stopping = false := by
  have was : w.traffic.supervisor.stopping = false := by cases step <;> assumption
  have supervises := step.traffic.1
  change next.traffic.supervisor.stopping = false
  generalize next.traffic = t at supervises
  cases supervises with
  | command c rest =>
    have keeps := Supervisor.handle_keeps { w.traffic.supervisor with queue := rest } w.view c
    exact keeps.stopping.trans was
  | watch x verdict => exact (w.supervisor.watchResolved_keeps x verdict).stopping.trans was
  | news => exact was
  | silence => exact was

theorem stopSupervisor_proper (proper : w.core.Proper) : w.stopSupervisor.core.Proper := by
  unfold stopSupervisor
  refine Effects.proper (tearDownAll_effects (t := .any) _ _ none (by simp)) ?_
  exact ⟨proper.calls, proper.listeners, proper.requests⟩

theorem supervise_proper (proper : w.core.Proper) : w.supervise.core.Proper :=
  supervise_keeps (p := fun w => w.core.Proper) Supervises.proper (fun _ => stopSupervisor_proper)
    proper

variable {lost : Nat → Multiset Tunnel.Stake}

theorem move_proper (sound : Sound lost w) (proper : w.core.Proper) {m : Move}
    (allowed : w.allows m) : (w.move m).core.Proper := by
  by_cases supervises : m = .poll .supervisor
  · subst supervises
    exact supervise_proper proper
  · exact (move_effects sound proper allowed supervises).proper proper

theorem tunnels_of_side (same : next.tunnelSide = w.tunnelSide) : next.tunnels = w.tunnels :=
  congrArg (fun side : TunnelSide => (⟨side.connectivity, side.generations, side.current,
    side.streams, side.streamWatches⟩ : Tunnels)) same

end World

namespace Traffic

variable {aborts : AbortReason → Prop} {asked : Scope → Nat → Prop} {t next : Traffic}

-- The bus goes on for the supervisor, whatever the others do.
theorem Step.onward (step : t.Step aborts asked next) (k : Event.Kind) :
    next.supervisor.inbox = t.supervisor.inbox ∧
      Event.Bus.Onward t.supervisor.inbox k t.bus next.bus := by
  cases step with
  | raise kind => exact ⟨rfl, .raise kind⟩
  | turn next turned => exact ⟨rfl, Event.Bus.turn?_onward turned⟩
  | closeBus => exact ⟨rfl, .close⟩
  | subscribe kinds => exact ⟨rfl, .subscribe kinds⟩
  | receive id other => exact ⟨rfl, .receive other⟩
  | abandon id other => exact ⟨rfl, .abandon other⟩
  | unsubscribe id other => exact ⟨rfl, .unsubscribe other⟩
  | establish => exact ⟨Supervisor.send_inbox _ _, .refl _⟩
  | tearDown => exact ⟨Supervisor.send_inbox _ _, .refl _⟩
  | _ => exact ⟨rfl, .refl _⟩

end Traffic

def Tunnels.initial (scope : Scope) : Tunnels where
  connectivity := {}
  generations := [{ scope }]
  current := 0
  streams := []
  streamWatches := []

namespace Core

structure Initial (c : Core) : Prop where
  calls : c.calls = []
  traffic : ∃ bus inbox requests,
    c.traffic =
      { bus, supervisor := { inbox }, connections := [], fanOuts := [], listeners := [], requests } ∧
      requests ≠ some inbox ∧ bus.Serves inbox .addrChanged
  tunnels : ∃ scope, c.tunnels = .initial scope ∧ c.root.id < scope.id ∧ scope.id ≤ c.scopes.made

def listen (c : Core) (kinds : List Event.Kind) : Core :=
  { c with
    traffic :=
      { c.traffic with
        bus := (c.traffic.bus.subscribe kinds).1
        listeners := c.traffic.listeners ++ [c.traffic.bus.nextId] } }

def Listens (c : Core) : Prop := c.traffic.bus.Serves c.traffic.supervisor.inbox .addrChanged

variable {t : Terms} {c next : Core}

theorem Effect.listens (effect : Effect t c next) (listens : c.Listens) : next.Listens := by
  cases effect with
  | traffic step =>
    obtain ⟨inbox, onward⟩ := step.onward .addrChanged
    rw [Listens, inbox]
    exact onward.serves listens
  | _ => exact listens

theorem Initial.listens (initial : c.Initial) : c.Listens := by
  obtain ⟨bus, inbox, requests, traffic, -, serves⟩ := initial.traffic
  rw [Listens, traffic]
  exact serves

theorem Listens.listen (listens : c.Listens) (kinds : List Event.Kind) : (c.listen kinds).Listens :=
  (Event.Bus.Onward.subscribe kinds).serves listens

theorem Initial.proper (initial : c.Initial) : c.Proper := by
  obtain ⟨bus, inbox, requests, traffic, other, -⟩ := initial.traffic
  refine ⟨by simp [initial.calls], ?_, ?_⟩ <;> rw [traffic]
  · exact List.not_mem_nil
  · exact other

theorem Proper.listen (proper : c.Proper) (listens : c.Listens) (kinds : List Event.Kind) :
    (c.listen kinds).Proper := by
  refine ⟨proper.calls, ?_, proper.requests⟩
  rw [Core.listen, List.mem_append, List.mem_singleton, not_or]
  exact ⟨proper.listeners, Nat.ne_of_lt listens.made⟩

end Core

namespace Scenario.Setup

variable (s : Setup)

theorem inbox_serves : (({} : Event.Bus).subscribe [.addrChanged]).1.Serves 1 .addrChanged ∧
    ((({} : Event.Bus).subscribe [.shutdownRequested]).1.subscribe [.addrChanged]).1.Serves 2
      .addrChanged := by
  refine ⟨⟨by decide, by decide, by decide, by decide, by decide, fun _ => ?_⟩,
    ⟨by decide, by decide, by decide, by decide, by decide, fun _ => ?_⟩⟩
  · exact ⟨_, List.mem_singleton_self _, rfl, rfl, rfl, by decide⟩
  · exact ⟨_, List.mem_append_right _ (List.mem_singleton_self _), rfl, rfl, rfl, by decide⟩

-- What holds when nothing has begun, what every effect keeps, and what a further listener does not
-- change, holds when the world is built.
theorem build_induct {p : Core → Prop} (first : ∀ {c : Core}, c.Initial → p c)
    (effect : ∀ {c next : Core}, c.Effect .own next → p c → p next)
    (listen : ∀ {c : Core} (kinds : List Event.Kind), p c → p (c.listen kinds)) :
    p s.build.core := by
  have workers (subscribers : List Event.Subscriber) (w : World) (start : p w.core) :
      p (subscribers.foldl World.addWorker w).core := by
    induction subscribers generalizing w with
    | nil => exact start
    | cons subscriber rest ih =>
      have core : (w.addWorker subscriber).core = w.core.listen subscriber.kinds := by
        simp [World.core, World.traffic, World.addWorker, Core.listen, World.spawn, World.tunnels,
          Event.Bus.subscribe]
      exact ih _ (core ▸ listen _ start)
  have started (w : World) (initial : w.core.Initial) :
      p (s.roster.foldl World.addWorker (w.swap w.storedParams).1).core :=
    workers _ _ ((World.swap_effects trivial w.storedParams).keeps effect (first initial))
  unfold build
  split
  · unfold buildRuntime
    dsimp only
    have other : (some 1 : Option Nat) ≠ some 2 := by decide
    have older : 1 < 2 ∧ 2 ≤ 2 ∧ 1 < 3 ∧ 3 ≤ 3 := by decide
    -- The watch of the addresses has a scope too, if there is one.
    split
    · exact started _ ⟨rfl, ⟨_, _, _, rfl, other, inbox_serves.2⟩, _, rfl, older.2.2⟩
    · exact started _ ⟨rfl, ⟨_, _, _, rfl, other, inbox_serves.2⟩, _, rfl, older.1, older.2.1⟩
  · have older : 1 < 2 ∧ 2 ≤ 2 := by decide
    exact first ⟨rfl, ⟨_, _, none, rfl, (Option.some_ne_none _).symm, inbox_serves.1⟩, _, rfl, older⟩

theorem build_proper : s.build.core.Proper := by
  refine (s.build_induct (p := fun c => c.Proper ∧ c.Listens) (fun initial => ?_)
    (fun effect kept => ?_) fun kinds kept => ?_).1
  · exact ⟨initial.proper, initial.listens⟩
  · exact ⟨effect.proper kept.1, effect.listens kept.2⟩
  · exact ⟨kept.1.listen kept.2 kinds, kept.2.listen kinds⟩

variable {s} {lost : Nat → Multiset Tunnel.Stake} {w : World}

theorem Loses.proper (loses : s.Loses lost w) : w.core.Proper := by
  induction loses with
  | start => exact s.build_proper
  | move m before allowed ih => exact World.move_proper before.sound ih allowed

section Tunnel

variable {p : Scopes → Tunnels → Prop}
  (start : ∀ scopes scope, p scopes (.initial scope))
  (step : ∀ {terms : Terms} {c next : Core}, c.Effect terms next →
    p c.scopes c.tunnels → p next.scopes next.tunnels)

include start step

theorem build_keeps : p s.build.scopes s.build.tunnels := by
  refine s.build_induct (p := fun c => p c.scopes c.tunnels) (fun {c} initial => ?_) step
    fun _ kept => kept
  obtain ⟨scope, same, -⟩ := initial.tunnels
  rw [same]
  exact start c.scopes scope

theorem Loses.keeps (loses : s.Loses lost w) : p w.scopes w.tunnels := by
  induction loses with
  | start => exact build_keeps start step
  | @move lost w m before allowed ih =>
    by_cases supervises : m = .poll .supervisor
    · subst supervises
      have side := w.supervise_beside.side
      have scopes : w.supervise.scopes = w.scopes := congrArg (·.scopes) side
      change p w.supervise.scopes w.supervise.tunnels
      rwa [World.tunnels_of_side side, scopes]
    · have effects := World.move_effects before.sound before.proper allowed supervises
      exact effects.keeps (p := fun c => p c.scopes c.tunnels) step ih

end Tunnel

theorem Reaches.anyhow {only : Move → Prop} (reached : s.Reaches only w) :
    ∃ lost, s.Loses lost w := by
  induction reached with
  | refl => exact ⟨_, .start⟩
  | tail _ goes ih =>
    obtain ⟨lost, loses⟩ := ih
    obtain ⟨m, -, allowed, rfl⟩ := goes
    exact ⟨_, loses.move m allowed⟩

end Scenario.Setup

end Egress
