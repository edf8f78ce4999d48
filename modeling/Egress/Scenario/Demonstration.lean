import Egress.Scenario.Entry

set_option autoImplicit false

namespace Egress.Scenario.Demonstration

open Simulation

def server : Endpoint := { ip := .loopback, port := 7 }

def setup : Setup :=
  { up := true
    listeners := [{ name := "echo", address := server }]
    interfaces := some [.loopback, .loopback6]
    addresses := [.loopback]
    store :=
      { sites :=
          [{ host := "example.com", recursive := true },
           { host := "ads.example.net", block := true }] }
    subscribers := [.recorder { name := "counter-watch", kinds := [.countersChanged] }]
    runtime := some { handshake := false } }

def hosts : List String := ["www.example.com", "ads.example.net", "localhost"]

def padded (width : Nat) (text : String) : String :=
  text ++ String.ofList (List.replicate (width - text.length) ' ')

def routeLine (w : World) (host : String) : String :=
  padded 18 host ++ " -> " ++ (Site.route w.sites host).label

def does (s : Stage) (a : Action) : Stage := (s.act a).1.settle

def echo (s : Stage) (id : String) : Stage :=
  match (s.act (.peerRead id 64)).2 with
  | .data bytes => does (does s (.peerRead id 64)) (.peerWrite id (Text.decode bytes))
  | _ => s

def failureLine (w : World) (id : String) : List String :=
  match w.finished.lookup id with
  | some (.failed failure) =>
    [s!"tunnel dial: {failure.message} (config error: {failure.isConfig})"]
  | _ => []

def echoLine (s : Stage) (id : String) : String :=
  match (s.act (.read id 4)).2 with
  | .data bytes => "echo: " ++ Text.decode bytes
  | _ => "echo: nothing"

def countersHeard (w : World) : Nat := w.workers.foldr (fun worker n => worker.heard.length + n) 0

def lines : List String :=
  let s := does setup.stage .startup
  let routes := hosts.map (routeLine s.world)
  let s := does s (.dial "forwarded" (.via .tunnel true) "tcp" "www.example.com:80" none false)
  let failure := failureLine s.world "forwarded"
  let s := does s (.dial "echoed" (.via .direct true) "tcp" server.toText none false)
  let s := echo (does s (.write "echoed" "ping")) "echoed"
  let reply := echoLine s "echoed"
  let whileOpen := "while open: " ++ s.world.counters.describe
  let s := does (does s (.read "echoed" 4)) (.drop "echoed")
  routes ++ failure
    ++ [reply, whileOpen, "after close: " ++ s.world.counters.describe,
        s!"counter notifications: {countersHeard s.world}"]

def stops : Bool :=
  let s := does (does setup.stage .requestShutdown) (.run "run")
  (s.world.call? "run").isNone

end Egress.Scenario.Demonstration
