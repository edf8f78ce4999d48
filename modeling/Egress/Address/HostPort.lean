set_option autoImplicit false

namespace Egress.HostPort

def cutFirst (stop : Char) : List Char → Option (List Char × List Char)
  | [] => none
  | c :: rest =>
    if c = stop then some ([], rest)
    else (cutFirst stop rest).map fun (front, back) => (c :: front, back)

def cutLast (stop : Char) : List Char → Option (List Char × List Char)
  | [] => none
  | c :: rest =>
    match cutLast stop rest with
    | some (front, back) => some (c :: front, back)
    | none => if c = stop then some ([], rest) else none

-- Host and port of `host:port`, `[host]:port`, `[host]` or `host`; the last two take the default
-- port. A text that has none of these shapes is a host as a whole.
def splitChars (hostport port : List Char) : List Char × List Char :=
  match hostport with
  | '[' :: rest =>
    match cutFirst ']' rest with
    | some (host, ':' :: given) => (host, given)
    | some (host, []) => (host, port)
    | _ => (hostport, port)
  | _ =>
    match cutLast ':' hostport with
    | some (host, given) => if ':' ∈ host then (hostport, port) else (host, given)
    | none => (hostport, port)

def joinChars (host port : List Char) : List Char :=
  if ':' ∈ host then '[' :: host ++ ']' :: ':' :: port else host ++ ':' :: port

def splitWithDefault (hostport port : String) : String × String :=
  let (host, given) := splitChars hostport.toList port.toList
  (String.ofList host, String.ofList given)

def decimal (port : Nat) : List Char := Nat.toDigits 10 port

-- The address with its port, or with `port` if it names none; an empty port is left out.
def withDefaultPort (hostport : String) (port : Nat) : String :=
  let (host, given) := splitChars hostport.toList (decimal port)
  String.ofList (if given.isEmpty then host else joinChars host given)

end Egress.HostPort
