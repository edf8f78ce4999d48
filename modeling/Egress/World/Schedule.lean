import Egress.World.Calls

set_option autoImplicit false

namespace Egress.World

def surroundings (w : World) : Event.Surroundings :=
  { counters := w.counters, connectivity := w.connectivity }

def stepWorker (w : World) (index : Nat) : World :=
  match w.workers[index]? with
  | none => w
  | some worker =>
    let (worker, bus, lines) := worker.step w.surroundings w.bus
    { w with bus, workers := w.workers.set index worker, log := w.log ++ lines }

def canStepWorker (w : World) (index : Nat) : Bool :=
  (w.workers[index]?).any (·.canStep w.bus)

def pollWorker (w : World) (index : Nat) : World :=
  (List.range 3).foldl
    (fun w _ => if w.canStepWorker index then w.stepWorker index else w) w

def endWatch (w : World) (t : WatchTask) (stage : WatchStage) : World :=
  { w with watch := some { t with stage } }

def pollAddressWatch (w : World) : World :=
  match w.watch with
  | none => w
  | some t =>
    match t.stage with
    | .fresh =>
      if t.every = 0 then w.endWatch t .panicked
      else if w.isCancelled t.scope then w.endWatch t .ended
      else w.endWatch t (.watching (AddressWatch.start t.every w.clock w.localAddresses))
    | .watching a =>
      if w.isCancelled t.scope then w.endWatch t .ended
      else if a.isDue w.clock then
        let (a, changed) := a.tick w.clock w.localAddresses
        let w := w.endWatch t (.watching a)
        if changed then w.raise .addrChanged else w
      else w
    | .ended | .panicked => w

def canPollAddressWatch (w : World) : Bool :=
  match w.watch with
  | none => false
  | some t =>
    match t.stage with
    | .fresh => true
    | .watching a => w.isCancelled t.scope || a.isDue w.clock
    | .ended | .panicked => false

def runFanOut (w : World) (index : Nat) : World :=
  match w.fanOuts[index]? with
  | some o => w.tearDownAll o.ids o.reason
  | none => w

def poll (w : World) : Task → World
  | .dispatcher => { w with bus := w.bus.dispatch }
  | .supervisor => w.supervise
  | .addressWatch => w.pollAddressWatch
  | .worker i => w.pollWorker i
  | .fanOut i => w.runFanOut i
  | .sessionWatch i => w.pollSessionWatch i
  | .streamWatch i => w.pollStreamWatch i
  | .call id => w.pollCall id

def isAlive (w : World) : Task → Bool
  | .dispatcher => !w.bus.stopped
  | .supervisor => w.supervisor.running
  | .addressWatch => !w.isWatchOver
  | .worker i => (w.workers[i]?).any fun worker => !worker.ended
  | .fanOut _ => false
  | .sessionWatch i => (w.sessionWatches[i]?).any fun s => !s.ended
  | .streamWatch i => (w.streamWatches[i]?).any fun s => !s.ended
  | .call id => (w.call? id).isSome

def canPoll (w : World) : Task → Bool
  | .dispatcher => w.bus.canTurn
  | .supervisor => w.canSupervise
  | .addressWatch => w.canPollAddressWatch
  | .worker i => w.canStepWorker i
  | .fanOut _ => true
  | .sessionWatch i => (w.sessionWatches[i]?).any w.canPollSessionWatch
  | .streamWatch i => (w.streamWatches[i]?).any w.canPollStreamWatch
  | .call id => w.canPollCall id

def wake (w : World) : World :=
  { w with
    queue := w.queue ++ w.parked.filter w.canPoll
    parked := w.parked.filter fun t => !w.canPoll t }

def ticket? (w : World) : Task → Option (Nat × Nat)
  | .call id =>
    match w.call? id with
    | some (.dial { stage := .tunneling { stage := .waiting ticket, generation, .. } _, .. }) =>
      some (generation, ticket)
    | _ => none
  | _ => none

def isAhead (w : World) (t other : Task) : Bool :=
  match w.ticket? t, w.ticket? other with
  | some (g, a), some (h, b) => g == h && a < b
  | _, _ => false

-- A task that waits goes to the end of those parked, but keeps its place among the tickets.
def park (w : World) (t : Task) : World :=
  if w.isAlive t then
    let (before, after) := w.parked.span fun other => !w.isAhead t other
    { w with parked := before ++ t :: after }
  else w

def turn? (w : World) : Option World :=
  match w.queue with
  | t :: rest => some ((({ w with queue := rest }.poll t).park t).wake)
  | [] => (w.network.grant?).map fun network => { w with network }.wake

def settleFor : (turns : Nat) → World → World
  | 0, w => w
  | n + 1, w =>
    match w.turn? with
    | some next => settleFor n next
    | none => w

-- Far more turns than any scenario takes.
def patience : Nat := 100000

def settle (w : World) : World := settleFor patience w.wake

end Egress.World
