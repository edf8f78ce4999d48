import Egress.Address.Ip

set_option autoImplicit false

namespace Egress

structure Endpoint where
  ip : Ip
  port : Nat
  zone : Nat := 0
  deriving DecidableEq, Repr

namespace Endpoint

def readPort (cs : List Char) : Option (Nat × List Char) := Ip.readNumber 10 65536 none true cs

def readZone (cs : List Char) : Option (Nat × List Char) :=
  match Ip.readChar '%' cs with
  | some rest => Ip.readNumber 10 0x100000000 none true rest
  | none => some (0, cs)

def readV4 (cs : List Char) : Option Endpoint := do
  let (bits, cs) ← Ip.readV4 cs
  let (port, cs) ← readPort (← Ip.readChar ':' cs)
  if cs.isEmpty then some { ip := .v4 bits, port } else none

def readV6 (cs : List Char) : Option Endpoint := do
  let (bits, cs) ← Ip.readV6 (← Ip.readChar '[' cs)
  let (zone, cs) ← readZone cs
  let (port, cs) ← readPort (← Ip.readChar ':' (← Ip.readChar ']' cs))
  if cs.isEmpty then some { ip := .v6 bits, port, zone } else none

def ofString? (text : String) : Option Endpoint :=
  (readV4 text.toList).or (readV6 text.toList)

def toText (e : Endpoint) : String :=
  match e.ip with
  | .v4 _ => e.ip.toText ++ ":" ++ toString e.port
  | .v6 _ =>
    let zone := if e.zone = 0 then "" else "%" ++ toString e.zone
    "[" ++ e.ip.toText ++ zone ++ "]:" ++ toString e.port

end Endpoint

end Egress
