import Egress.Text.Quoted

set_option autoImplicit false

namespace Egress.Stats

inductive Counter
  | tcpConnections
  | tunnelSessions
  | tunnelConnections
  | httpReceived
  | httpPending
  | httpDirect
  | httpForwarded
  | httpBlocked
  deriving DecidableEq, Repr

namespace Counter

def all : List Counter :=
  [tcpConnections, tunnelSessions, tunnelConnections, httpReceived, httpPending, httpDirect,
   httpForwarded, httpBlocked]

def name : Counter → String
  | tcpConnections => "tcp_connections"
  | tunnelSessions => "tunnel_sessions"
  | tunnelConnections => "tunnel_connections"
  | httpReceived => "http_rq_received"
  | httpPending => "http_rq_pending"
  | httpDirect => "http_rq_direct"
  | httpForwarded => "http_rq_forwarded"
  | httpBlocked => "http_rq_blocked"

def ofName? (name : String) : Option Counter := all.find? (·.name == name)

theorem mem_all (c : Counter) : c ∈ all := by cases c <;> decide

end Counter

structure Counters where
  tcpConnections : Int32 := 0
  tunnelSessions : Int32 := 0
  tunnelConnections : Int32 := 0
  httpReceived : Int32 := 0
  httpPending : Int32 := 0
  httpDirect : Int32 := 0
  httpForwarded : Int32 := 0
  httpBlocked : Int32 := 0
  deriving DecidableEq, Repr

namespace Counters

def get (c : Counters) : Counter → Int32
  | .tcpConnections => c.tcpConnections
  | .tunnelSessions => c.tunnelSessions
  | .tunnelConnections => c.tunnelConnections
  | .httpReceived => c.httpReceived
  | .httpPending => c.httpPending
  | .httpDirect => c.httpDirect
  | .httpForwarded => c.httpForwarded
  | .httpBlocked => c.httpBlocked

def set (c : Counters) (name : Counter) (value : Int32) : Counters :=
  match name with
  | .tcpConnections => { c with tcpConnections := value }
  | .tunnelSessions => { c with tunnelSessions := value }
  | .tunnelConnections => { c with tunnelConnections := value }
  | .httpReceived => { c with httpReceived := value }
  | .httpPending => { c with httpPending := value }
  | .httpDirect => { c with httpDirect := value }
  | .httpForwarded => { c with httpForwarded := value }
  | .httpBlocked => { c with httpBlocked := value }

def add (c : Counters) (name : Counter) (n : Int32) : Counters := c.set name (c.get name + n)

def text (c : Counters) (name : Counter) : String := toString (c.get name).toInt

def describeOne (c : Counters) (name : Counter) : String :=
  "Counter \x7b name: " ++ Text.quoted name.name ++ ", value: " ++ c.text name ++ " \x7d"

def describe (c : Counters) : String :=
  "CountersSnapshot \x7b "
    ++ ", ".intercalate (Counter.all.map fun name => name.name ++ ": " ++ c.text name) ++ " \x7d"

def toJson (c : Counters) : String :=
  "\x7b"
    ++ ",".intercalate (Counter.all.map fun name => Text.quoted name.name ++ ":" ++ c.text name)
    ++ "\x7d"

def nonZero (c : Counters) : List (Counter × Int) :=
  (Counter.all.map fun name => (name, (c.get name).toInt)).filter (·.2 != 0)

theorem eq_of_get {c d : Counters} (same : ∀ name, c.get name = d.get name) : c = d := by
  have every := Counter.all.map_congr_left fun name _ => same name
  cases c
  cases d
  simpa [Counter.all, get] using every

@[simp]
theorem get_set (c : Counters) (name other : Counter) (value : Int32) :
    (c.set name value).get other = if name = other then value else c.get other := by
  cases name <;> cases other <;> simp [set, get]

@[simp]
theorem get_add (c : Counters) (name other : Counter) (n : Int32) :
    (c.add name n).get other = if name = other then c.get other + n else c.get other := by
  cases name <;> cases other <;> simp [add, set, get]

end Counters

end Egress.Stats
