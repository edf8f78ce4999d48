import Egress.Proofs.World.Accounting

set_option autoImplicit false

namespace Egress

open Simulation

namespace World

def lookedUp (w : World) (c : Connecting) :
    Except String (List Endpoint) → World × Progress Connecting
  | .error source => (w, .failed (.resolve c.request.address source))
  | .ok found =>
    w.attemptAll c.request c.generation ((family? c.request.network).getD none) found

def attempted (w : World) (c : Connecting) (rest : List Endpoint) :
    Except String Nat → World × Progress Connecting
  | .error source => attempt c.request c.generation rest (some source) w
  | .ok socket => w.establish c socket

variable {w : World} {c : Connecting}

section Granted

variable (live : w.isCancelled c.request.scope = false)
  (granted : w.network.isGranted (work c.stage))

include live granted

end Granted

def suitable (request : ConnectRequest) : Except String (List Endpoint) → List Endpoint
  | .error _ => []
  | .ok found => found.filter (suits ((family? request.network).getD none))

def missed (w : World) (targets : List Endpoint) : List (Endpoint × String) :=
  if w.network.up then [] else targets.map fun target => (target, Network.unreachable target)

-- A connect under a scope that is not cancelled: what its lookup gave, if there is an answer, the
-- attempts that have failed so far, each with its failure, the world of the last poll, and what
-- came of that poll. An address that is literal stands for itself.
inductive Course (request : ConnectRequest) :
    Option (Except String (List Endpoint)) → List (Endpoint × String) → World →
      World × Progress Connecting → Prop
  | begins (w : World) (live : w.isCancelled request.scope = false)
    (unread : family? request.network = none ∨ Endpoint.ofString? request.address = none) :
    Course request none [] w (w.beginConnect request)
  | literal (w : World) (live : w.isCancelled request.scope = false) (target : Endpoint)
    (known : (family? request.network).isSome)
    (read : Endpoint.ofString? request.address = some target) :
    Course request (some (.ok [target])) (w.missed (suitable request (.ok [target]))) w
      (w.beginConnect request)
  | resolved {before after : World} {c : Connecting} {number : Nat}
    (course : Course request none [] before (after, .waiting c))
    (stage : c.stage = .resolving number) (w : World) (found : Except String (List Endpoint)) :
    Course request (some found) (w.missed (suitable request found)) w (w.lookedUp c found)
  | refused {found : Option (Except String (List Endpoint))} {past : List (Endpoint × String)}
    {before after : World} {c : Connecting} {number : Nat} {target : Endpoint} {rest : List Endpoint}
    (course : Course request found past before (after, .waiting c))
    (stage : c.stage = .attempting number target rest) (w : World) (failure : String) :
    Course request found (past ++ (target, failure) :: w.missed rest) w
      (w.attempted c rest (.error failure))
  | accepted {found : Option (Except String (List Endpoint))} {past : List (Endpoint × String)}
    {before after : World} {c : Connecting} {number : Nat} {target : Endpoint} {rest : List Endpoint}
    (course : Course request found past before (after, .waiting c))
    (stage : c.stage = .attempting number target rest) (w : World) (socket : Nat) :
    Course request found past w (w.attempted c rest (.ok socket))

-- Where a connect stands among the addresses it attempts. It does so in their order, each once. The
-- first that accepts is connected to, and nothing after it is attempted. If none does, the last
-- failure is reported.
inductive Attempts (request : ConnectRequest) (targets : List Endpoint)
    (past : List (Endpoint × String)) (w : World) : World × Progress Connecting → Prop
  | waits (network : Network) (generation number : Nat) (target : Endpoint) (rest : List Endpoint)
    (order : targets = past.map (·.1) ++ target :: rest)
    (asked : network.requests = w.network.requests ++ [.connect target]) :
    Attempts request targets past w
      ({ w with network }, .waiting ⟨request, generation, .attempting number target rest⟩)
  | fails (last : Endpoint × String) (order : targets = past.map (·.1))
    (latest : past.getLast? = some last) :
    Attempts request targets past w (w, .failed (.connect request.address last.2))
  | reaches (generation number : Nat) (target : Endpoint) (rest : List Endpoint) (socket : Nat)
    (order : targets = past.map (·.1) ++ target :: rest) :
    Attempts request targets past w
      (w.establish ⟨request, generation, .attempting number target rest⟩ socket)

-- Where a connect stands. Nothing is looked up for an unknown network, and nothing is attempted
-- before the lookup has given an address of the right family.
inductive Stands (request : ConnectRequest) (past : List (Endpoint × String)) (w : World) :
    Option (Except String (List Endpoint)) → World × Progress Connecting → Prop
  | unsupported (unknown : request.network ∉ ["tcp", "tcp4", "tcp6"]) (untried : past = []) :
    Stands request past w none (w, .failed (.unsupportedNetwork request.network))
  | resolving (generation : Nat) (known : request.network ∈ ["tcp", "tcp4", "tcp6"])
    (untried : past = []) :
    Stands request past w none
      ({ w with network := w.network.startWork.1 },
        .waiting ⟨request, generation, .resolving w.network.startWork.2⟩)
  | unresolved (source : String) (known : request.network ∈ ["tcp", "tcp4", "tcp6"])
    (untried : past = []) :
    Stands request past w (some (.error source)) (w, .failed (.resolve request.address source))
  | unsuited (found : List Endpoint) (known : request.network ∈ ["tcp", "tcp4", "tcp6"])
    (unsuited : suitable request (.ok found) = []) (untried : past = []) :
    Stands request past w (some (.ok found))
      (w, .failed (.resolve request.address s!"no {request.network} address found"))
  | attempts {r : World × Progress Connecting} (found : List Endpoint)
    (known : request.network ∈ ["tcp", "tcp4", "tcp6"])
    (filled : suitable request (.ok found) ≠ [])
    (attempts : Attempts request (suitable request (.ok found)) past w r) :
    Stands request past w (some (.ok found)) r

variable {request : ConnectRequest} {targets : List Endpoint} {past : List (Endpoint × String)}
  {found : Option (Except String (List Endpoint))} {r : World × Progress Connecting}

theorem family?_isSome (network : String) :
    (family? network).isSome ↔ network ∈ ["tcp", "tcp4", "tcp6"] := by
  unfold family?
  split <;> simp_all

theorem attempt_attempts (generation : Nat) (rest : List Endpoint) (last : Option String)
    (order : targets = past.map (·.1) ++ rest) (latest : last = past.getLast?.map (·.2))
    (filled : targets ≠ []) :
    Attempts request targets (past ++ w.missed rest) w (attempt request generation rest last w) := by
  induction rest generalizing last past with
  | nil =>
    rw [List.append_nil] at order
    have missed : w.missed [] = [] := by simp [World.missed]
    have tried : past ≠ [] := by
      rintro rfl
      exact filled order
    have known := List.getLast?_eq_some_getLast tried
    rw [known] at latest
    rw [missed, List.append_nil, attempt, latest]
    exact .fails _ order known
  | cons target rest ih =>
    unfold attempt
    by_cases up : w.network.up
    · have missed : w.missed (target :: rest) = [] := by simp [World.missed, up]
      rw [missed, List.append_nil, if_pos up]
      exact .waits _ _ _ target rest order rfl
    · have missed : past ++ w.missed (target :: rest) =
          (past ++ [(target, Network.unreachable target)]) ++ w.missed rest := by
        simp [World.missed, up]
      rw [missed, if_neg up]
      exact ih _ (by simp [order]) (by simp)

theorem attemptAll_eq {family : Option Bool} {generation : Nat} {list : List Endpoint}
    (filled : list.filter (suits family) ≠ []) : w.attemptAll request generation family list =
      attempt request generation (list.filter (suits family)) none w := by
  unfold attemptAll
  split
  next empty => exact absurd empty filled
  next => rfl

theorem lookedUp_stands (known : request.network ∈ ["tcp", "tcp4", "tcp6"])
    (same : c.request = request) (found : Except String (List Endpoint)) :
    Stands request (w.missed (suitable request found)) w (some found) (w.lookedUp c found) := by
  subst same
  cases found with
  | error source => exact .unresolved source known (by simp [suitable, missed])
  | ok found =>
    by_cases empty : suitable c.request (.ok found) = []
    · have filtered : found.filter (suits ((family? c.request.network).getD none)) = [] := empty
      simp only [lookedUp, attemptAll, filtered]
      exact .unsuited found known empty (by simp [empty, missed])
    · have attempts : Attempts c.request (suitable c.request (.ok found))
          ([] ++ w.missed (suitable c.request (.ok found))) w _ :=
        attempt_attempts c.generation _ none rfl rfl empty
      rw [List.nil_append] at attempts
      refine .attempts found known empty ?_
      rw [lookedUp, attemptAll_eq empty]
      exact attempts

theorem Stands.attempting {before after : World} {number : Nat} {target : Endpoint}
    {rest : List Endpoint} (stands : Stands request past before found (after, .waiting c))
    (stage : c.stage = .attempting number target rest) :
    c.request = request ∧ ∃ list, found = some (.ok list) ∧
      request.network ∈ ["tcp", "tcp4", "tcp6"] ∧
      suitable request (.ok list) = past.map (·.1) ++ target :: rest := by
  generalize waits : ((after, Progress.waiting c) : World × Progress Connecting) = r at stands
  cases stands with
  | unsupported => cases waits
  | resolving =>
    cases waits
    cases stage
  | unresolved => cases waits
  | unsuited => cases waits
  | attempts list known _ attempts =>
    cases attempts with
    | waits network generation number target rest order =>
      cases waits
      cases stage
      exact ⟨rfl, list, rfl, known, order⟩
    | fails => cases waits
    | reaches => simp [establish] at waits

theorem Course.stands (course : Course request found past w r) : Stands request past w found r := by
  induction course with
  | begins w live unread =>
    cases known : family? request.network with
    | none =>
      have unknown : request.network ∉ ["tcp", "tcp4", "tcp6"] := by
        rw [← family?_isSome, known]
        simp
      have began : w.beginConnect request =
          (w, .failed (.unsupportedNetwork request.network)) := by
        simp [beginConnect, live, known]
      rw [began]
      exact .unsupported unknown rfl
    | some family =>
      have unread : Endpoint.ofString? request.address = none := by simpa [known] using unread
      have member := (family?_isSome request.network).mp (by rw [known]; rfl)
      have began : w.beginConnect request = ({ w with network := w.network.startWork.1 },
          .waiting ⟨request, w.supervisor.generation, .resolving w.network.startWork.2⟩) := by
        simp [beginConnect, live, known, unread]
      rw [began]
      exact .resolving _ member rfl
  | literal w live target known read =>
    have member := (family?_isSome request.network).mp known
    obtain ⟨family, known⟩ := Option.isSome_iff_exists.mp known
    have began : w.beginConnect request =
        w.lookedUp ⟨request, w.supervisor.generation, .resolving 0⟩ (.ok [target]) := by
      simp [beginConnect, live, known, read, lookedUp]
    rw [began]
    exact lookedUp_stands member rfl _
  | @resolved before after c number _ stage w found ih =>
    generalize waits : ((after, Progress.waiting c) : World × Progress Connecting) = r at ih
    cases ih with
    | unsupported => cases waits
    | resolving generation known =>
      cases waits
      exact lookedUp_stands known rfl found
  | @refused found past before after c number target rest _ stage w failure ih =>
    obtain ⟨same, list, rfl, known, order⟩ := ih.attempting stage
    have filled : suitable request (.ok list) ≠ [] := by simp [order]
    have attempts : Attempts request (suitable request (.ok list))
        ((past ++ [(target, failure)]) ++ w.missed rest) w _ :=
      attempt_attempts c.generation rest (some failure) (by simpa using order) (by simp) filled
    rw [List.append_assoc, List.singleton_append] at attempts
    refine .attempts list known filled ?_
    rw [attempted, same]
    exact attempts
  | @accepted found past before after c number target rest _ stage w socket ih =>
    obtain ⟨same, list, rfl, known, order⟩ := ih.attempting stage
    obtain ⟨_, generation, _⟩ := c
    subst same stage
    exact .attempts list known (by simp [order]) (.reaches generation number target rest socket order)

inductive Ends (request : ConnectRequest) (targets : List Endpoint)
    (answers : Endpoint → Except String Nat) (w : World) : World × Progress Connecting → Prop
  | reaches (generation number : Nat) (refusing : List Endpoint) (target : Endpoint)
    (rest : List Endpoint) (socket : Nat) (order : targets = refusing ++ target :: rest)
    (refuse : ∀ t ∈ refusing, ∃ failure, answers t = .error failure)
    (accepts : answers target = .ok socket) :
    Ends request targets answers w
      (w.establish ⟨request, generation, .attempting number target rest⟩ socket)
  | fails (last : Endpoint) (failure : String)
    (refuse : ∀ t ∈ targets, ∃ failure, answers t = .error failure)
    (latest : targets.getLast? = some last) (reported : answers last = .error failure) :
    Ends request targets answers w (w, .failed (.connect request.address failure))

theorem Course.ends_from (answers : Endpoint → Except String Nat) (up : w.network.up)
    (rest : List Endpoint) {before after : World} {generation number : Nat} {target : Endpoint}
    (course : Course request found past before
      (after, .waiting ⟨request, generation, .attempting number target rest⟩))
    (order : targets = past.map (·.1) ++ target :: rest)
    (refused : ∀ p ∈ past, answers p.1 = .error p.2) :
    ∃ past r, Course request found past w r ∧ Ends request targets answers w r := by
  have refuse {past : List (Endpoint × String)} (refused : ∀ p ∈ past, answers p.1 = .error p.2) :
      ∀ t ∈ past.map (·.1), ∃ failure, answers t = .error failure := by
    intro t member
    obtain ⟨p, there, rfl⟩ := List.mem_map.mp member
    exact ⟨p.2, refused p there⟩
  induction rest generalizing past before after number target with
  | nil =>
    cases answer : answers target with
    | ok socket =>
      exact ⟨past, _, course.accepted rfl w socket,
        .reaches generation number _ target [] socket order (refuse refused) answer⟩
    | error failure =>
      have refused : ∀ p ∈ past ++ [(target, failure)], answers p.1 = .error p.2 := by
        simpa [or_imp, forall_and, answer] using refused
      have order : targets = (past ++ [(target, failure)]).map (·.1) := by simp [order]
      refine ⟨_, _, course.refused rfl w failure, .fails target failure ?_ (by simp [order]) answer⟩
      rw [order]
      exact refuse refused
  | cons next rest ih =>
    cases answer : answers target with
    | ok socket =>
      exact ⟨past, _, course.accepted rfl w socket,
        .reaches generation number _ target _ socket order (refuse refused) answer⟩
    | error failure =>
      have onward := course.refused rfl w failure
      have missed : w.missed (next :: rest) = [] := by simp [World.missed, up]
      simp only [missed, attempted, attempt, up, if_true] at onward
      refine ih onward (by simp [order]) ?_
      simpa [or_imp, forall_and, answer] using refused

theorem lookedUp_waits (up : w.network.up) {list : List Endpoint} {target : Endpoint}
    {rest : List Endpoint} (filled : suitable c.request (.ok list) = target :: rest) :
    ∃ after number, w.lookedUp c (.ok list) =
      (after, .waiting ⟨c.request, c.generation, .attempting number target rest⟩) := by
  have filtered : list.filter (suits ((family? c.request.network).getD none)) = target :: rest :=
    filled
  simp only [lookedUp, attemptAll, filtered, attempt, up, if_true]
  exact ⟨_, _, rfl⟩

-- Anything may be found, and each address may answer in any way: the connect comes to an end.
theorem Course.ends (live : w.isCancelled request.scope = false) (up : w.network.up)
    (known : request.network ∈ ["tcp", "tcp4", "tcp6"]) (found : Except String (List Endpoint))
    (literal : ∀ target, Endpoint.ofString? request.address = some target → found = .ok [target])
    (answers : Endpoint → Except String Nat) :
    ∃ past r, Course request (some found) past w r ∧ (∀ c, r.2 ≠ .waiting c) ∧
      (suitable request found ≠ [] → Ends request (suitable request found) answers w r) := by
  have isSome := (family?_isSome request.network).mpr known
  -- The answer of the lookup is there at once, or at some time.
  have answered : ∃ c, c.request = request ∧
      Course request (some found) (w.missed (suitable request found)) w (w.lookedUp c found) := by
    cases read : Endpoint.ofString? request.address with
    | some target =>
      obtain rfl := literal target read
      refine ⟨⟨request, w.supervisor.generation, .resolving 0⟩, rfl, ?_⟩
      obtain ⟨family, family_eq⟩ := Option.isSome_iff_exists.mp isSome
      have began : w.beginConnect request =
          w.lookedUp ⟨request, w.supervisor.generation, .resolving 0⟩ (.ok [target]) := by
        simp [beginConnect, live, family_eq, read, lookedUp]
      exact began ▸ .literal w live target isSome read
    | none =>
      have begins := Course.begins w live (.inr read)
      obtain ⟨family, family_eq⟩ := Option.isSome_iff_exists.mp isSome
      simp only [beginConnect, live, family_eq, read, Bool.false_eq_true, if_false] at begins
      exact ⟨_, rfl, begins.resolved rfl w found⟩
  obtain ⟨c, rfl, course⟩ := answered
  by_cases filled : suitable c.request found = []
  · refine ⟨_, _, course, ?_, fun suits => absurd filled suits⟩
    generalize w.lookedUp c found = r at course
    cases course.stands with
    | unresolved => simp
    | unsuited => simp
    | attempts _ _ nonempty => exact absurd filled nonempty
  · cases found with
    | error source => exact absurd rfl filled
    | ok list =>
      obtain ⟨target, rest, order⟩ := List.exists_cons_of_ne_nil filled
      obtain ⟨after, number, waits⟩ := lookedUp_waits (w := w) up order
      rw [waits, order] at course
      have untried : w.missed (target :: rest) = [] := by simp [missed, up]
      rw [untried] at course
      have begun : target :: rest = ([] : List (Endpoint × String)).map (·.1) ++ target :: rest :=
        rfl
      obtain ⟨past, r, onward, ends⟩ := course.ends_from answers up rest begun (by simp)
      refine ⟨past, r, onward, ?_, fun _ => order ▸ ends⟩
      cases ends with
      | reaches => simp [establish]
      | fails => simp

structure Unconnected (w next : World) : Prop where
  connections : next.connections = w.connections
  counters : next.counters = w.counters
  supervisor : next.supervisor = w.supervisor

def Connected (request : ConnectRequest) (socket : Nat) (w next : World) : Prop :=
  ∃ (k : Connection) (generation : Nat), k.id = w.supervisor.nextId ∧ k.socket = socket ∧
    k.scope = request.scope ∧ k.counter = request.counter ∧ k.closed = false ∧
    next.connections = w.connections ++ [k] ∧
    next.counters = w.counters.add request.counter 1 ∧
    next.supervisor = { w.supervisor with nextId := k.id + 1 }.send (.add k.member generation)

theorem establish_connects (w : World) (c : Connecting) (socket : Nat) :
    (w.establish c socket).2 = .done w.supervisor.nextId ∧
      Connected c.request socket w (w.establish c socket).1 :=
  ⟨rfl, { id := w.supervisor.nextId, scope := c.request.scope, localAddr := _, peer := _,
          counter := c.request.counter, socket, hasCopy := _ },
    c.generation, rfl, rfl, rfl, rfl, rfl, rfl, rfl, rfl⟩

theorem Stands.connects (stands : Stands request past w found r) :
    (∀ id, r.2 ≠ .done id) ∧ Unconnected w r.1 ∨
      ∃ list target rest socket, found = some (.ok list) ∧
        suitable request (.ok list) = past.map (·.1) ++ target :: rest ∧
        r.2 = .done w.supervisor.nextId ∧ Connected request socket w r.1 := by
  cases stands with
  | attempts list _ _ attempts =>
    cases attempts with
    | waits => exact .inl ⟨by simp, rfl, rfl, rfl⟩
    | fails => exact .inl ⟨by simp, rfl, rfl, rfl⟩
    | reaches generation number target rest socket order =>
      exact .inr ⟨list, target, rest, socket, rfl, order,
        w.establish_connects ⟨request, generation, .attempting number target rest⟩ socket⟩
  | _ => exact .inl ⟨by simp, rfl, rfl, rfl⟩

-- What a connect does, whatever comes of its lookup and of its attempts, as long as its scope is
-- not cancelled. Its polls go by the answers of the network. The socket that comes of an attempt
-- leads to the address that was attempted.
structure Connects (request : ConnectRequest) : Prop where
  suited : request.network ∈ ["tcp", "tcp4", "tcp6"] → ∀ list e,
    e ∈ suitable request (.ok list) ↔ e ∈ list ∧ (request.network = "tcp" ∨
      request.network = "tcp4" ∧ e.ip.isV4 ∨ request.network = "tcp6" ∧ e.ip.isV4 = false)
  stands : ∀ found past w r, Course request found past w r → Stands request past w found r
  connects : ∀ found past w r, Course request found past w r →
    (∀ id, r.2 ≠ .done id) ∧ Unconnected w r.1 ∨
      ∃ list target rest socket, found = some (.ok list) ∧
        suitable request (.ok list) = past.map (·.1) ++ target :: rest ∧
        r.2 = .done w.supervisor.nextId ∧ Connected request socket w r.1
  ends : request.network ∈ ["tcp", "tcp4", "tcp6"] → ∀ w : World,
    w.isCancelled request.scope = false → w.network.up → ∀ found,
      (∀ target, Endpoint.ofString? request.address = some target → found = .ok [target]) →
      ∀ answers, ∃ past r, Course request (some found) past w r ∧ (∀ c, r.2 ≠ .waiting c) ∧
        (suitable request found ≠ [] → Ends request (suitable request found) answers w r)
  pending : ∀ (w : World) (c : Connecting), w.isCancelled c.request.scope = false →
    w.network.isGranted (work c.stage) = false → w.pollConnect c = (w, .waiting c)
  resolved : ∀ (w : World) (c : Connecting) (number : Nat), w.isCancelled c.request.scope = false →
    w.network.isGranted (work c.stage) → c.stage = .resolving number →
      w.pollConnect c =
        (let answer := (w.dropConnect c).network.lookup c.request.address
         ({ w.dropConnect c with network := answer.1 } : World).lookedUp c answer.2)
  answered : ∀ (w : World) (c : Connecting) (number : Nat) (target : Endpoint)
    (rest : List Endpoint), w.isCancelled c.request.scope = false →
    w.network.isGranted (work c.stage) → c.stage = .attempting number target rest →
      w.pollConnect c =
        (let answer := (w.dropConnect c).network.connect target
         ({ w.dropConnect c with network := answer.1 } : World).attempted c rest answer.2)
  leads : ∀ (network next : Network) (target : Endpoint) (socket : Nat),
    network.connect target = (next, .ok socket) →
      (next.socket? socket).map (·.peerAddr) = some target

end World

end Egress
