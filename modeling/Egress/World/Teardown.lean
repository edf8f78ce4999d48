import Egress.World.State

set_option autoImplicit false

namespace Egress.World

open Simulation

-- Puts a connection's new state in place. A stream that it no longer has takes its handle along.
def putConnection (w : World) (c next : Connection) : World :=
  let w := w.updateConnection c.id fun _ => next
  if c.hasStream && !next.hasStream then
    { w with network := w.network.update c.socket (·.dropHandle .dialer) }
  else w

def loseStream (w : World) (id : Nat) : World :=
  match w.connection? id with
  | some c => w.putConnection c c.dropStream
  | none => w

-- Tears a connection down, unless that has happened already; says whether it did. The counter goes
-- down, the peer is told through the second handle, and the supervisor forgets the connection.
def tearDown (w : World) (id : Nat) (reason : Option AbortReason) : World × Bool :=
  match w.connection? id with
  | none => (w, false)
  | some c =>
    match c.tearDown? reason with
    | none => (w, false)
    | some torn =>
      let w := (w.updateConnection id fun _ => torn).count c.counter (-1)
      let network :=
        if c.hasCopy then
          w.network.update c.socket fun s => (s.shutdownBoth .dialer).dropHandle .dialer
        else w.network
      ({ w with network, supervisor := w.supervisor.send (.remove id) }, true)

def closeConnection (w : World) (id : Nat) (reason : Option AbortReason) : World :=
  (w.tearDown id reason).1.loseStream id

def tearDownAll (w : World) (ids : List Nat) (reason : Option AbortReason) : World :=
  ids.foldl (fun w id => (w.tearDown id reason).1) w

def useConnection {α : Type} (w : World) (id : Nat) (f : Socket → Socket × Io α) :
    World × Io α :=
  match w.connection? id with
  | none => (w, .failed .connectionClosed)
  | some c =>
    let w := w.putConnection c c.touch
    if c.touch.hasStream then
      let (network, result) := w.network.run c.socket f
      ({ w with network }, result.mapFailure c.surface)
    else (w, .failed c.gone)

-- Puts a stream's new state in place. A data path that it no longer has is dropped, and a lease
-- that it no longer holds is given back.
def putStream (w : World) (s next : Tunnel.Stream) : World :=
  let w := w.updateStream s.id fun _ => next
  let w :=
    if s.hasPipe && !next.hasPipe then
      { w with script := w.script.updatePipe s.pipe Pipe.drop }
    else w
  if s.held && !next.held then
    (w.updatePool s.generation (·.release s.slot)).count .tunnelConnections (-1)
  else w

def releaseStream (w : World) (id : Nat) : World :=
  match w.stream? id with
  | some s => w.putStream s s.release
  | none => w

def closeStream (w : World) (id : Nat) : World :=
  (w.releaseStream id).updateStream id fun s => { s with done := true }

def dropStream (w : World) (id : Nat) : World :=
  (w.closeStream id).updateStream id fun s => { s with owned := false }

def useStream {α : Type} (w : World) (id : Nat) (f : Pipe → Pipe × Io α) : World × Io α :=
  match w.stream? id with
  | none => (w, .failed .connectionClosed)
  | some s =>
    let lost := w.lostText? s
    let next := s.touch (w.isCancelled s.scope) lost
    let w := w.putStream s next
    match if next.hasPipe then w.script.pipes[s.pipe]? else none with
    | none => (w, .failed (Tunnel.Stream.gone lost))
    | some pipe =>
      let (pipe, result) := f pipe
      ({ w with script := w.script.updatePipe s.pipe fun _ => pipe }, result)

end Egress.World
