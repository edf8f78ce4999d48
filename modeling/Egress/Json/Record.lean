import Egress.Json.Token

set_option autoImplicit false

namespace Egress.Json

inductive Fault
  | notJson
  | wrongShape
  deriving DecidableEq, Repr

inductive Scalar
  | text (value : String)
  | flag (value : Bool)
  deriving DecidableEq, Repr

inductive Kind
  | text
  | flag
  deriving DecidableEq, Repr

structure Field where
  name : String
  kind : Kind
  optional : Bool := false

def Kind.read : Kind → Token → Except Fault Scalar
  | .text, .text (some s) => .ok (.text s)
  | .flag, .flag b => .ok (.flag b)
  | _, .text (some _) | _, .flag _ | _, .null | _, .number true | _, .opening _ =>
    .error .wrongShape
  | _, _ => .error .notJson

inductive Slot
  | value
  | firstValue
  | key
  | firstKey
  | colon
  | next
  deriving DecidableEq, Repr

structure Ignored where
  around : List Bracket
  slot : Slot
  deriving DecidableEq, Repr

def Ignored.after (around : List Bracket) : Option Ignored :=
  if around.isEmpty then none else some { around, slot := .next }

def Ignored.value (around : List Bracket) : Token → Except Fault (Option Ignored)
  | .opening .list => .ok (some { around := .list :: around, slot := .firstValue })
  | .opening .record => .ok (some { around := .record :: around, slot := .firstKey })
  | .text _ | .flag _ | .null | .number _ => .ok (Ignored.after around)
  | _ => .error .notJson

def Ignored.step (i : Ignored) (t : Token) : Except Fault (Option Ignored) :=
  match i.slot, i.around, t with
  | .firstValue, _ :: around, .closing .list => .ok (Ignored.after around)
  | .firstKey, _ :: around, .closing .record => .ok (Ignored.after around)
  | .next, .list :: around, .closing .list => .ok (Ignored.after around)
  | .next, .record :: around, .closing .record => .ok (Ignored.after around)
  | .next, .list :: around, .comma => .ok (some { around := .list :: around, slot := .value })
  | .next, .record :: around, .comma => .ok (some { around := .record :: around, slot := .key })
  | .firstKey, around, .text _ | .key, around, .text _ => .ok (some { around, slot := .colon })
  | .colon, around, .colon => .ok (some { around, slot := .value })
  | .value, around, t | .firstValue, around, t => Ignored.value around t
  | _, _, _ => .error .notJson

inductive Place
  | start
  | firstKey
  | key
  | colon (name : String)
  | value (name : String)
  | ignored (rest : Ignored)
  | member
  | firstItem
  | item
  | nextItem
  | done

structure Reading where
  found : List (String × Scalar) := []
  place : Place := .start

def Reading.has (r : Reading) (name : String) : Bool := r.found.any (·.1 == name)

def Reading.close (fields : List Field) (r : Reading) : Except Fault Reading :=
  if fields.all fun f => f.optional || r.has f.name then .ok { r with place := .done }
  else .error .wrongShape

def Reading.key (fields : List Field) (r : Reading) (name : String) : Except Fault Reading :=
  if fields.any (·.name == name) && r.has name then .error .wrongShape
  else .ok { r with place := .colon name }

def Reading.value (fields : List Field) (r : Reading) (name : String) (t : Token) :
    Except Fault Reading := do
  match fields.find? (·.name == name) with
  | some f => return { found := r.found ++ [(name, ← f.kind.read t)], place := .member }
  | none =>
    match ← Ignored.value [] t with
    | some rest => return { r with place := .ignored rest }
    | none => return { r with place := .member }

-- A list item belongs to the first field that has no value yet.
def Reading.item (fields : List Field) (r : Reading) (t : Token) : Except Fault Reading := do
  match fields[r.found.length]? with
  | some f => return { found := r.found ++ [(f.name, ← f.kind.read t)], place := .nextItem }
  | none => .error .notJson

def Reading.step (fields : List Field) (r : Reading) (t : Token) : Except Fault Reading :=
  match r.place, t with
  | .start, .opening .record => .ok { r with place := .firstKey }
  | .start, .opening .list => .ok { r with place := .firstItem }
  | .start, .text (some _) | .start, .flag _ | .start, .null | .start, .number true =>
    .error .wrongShape
  | .firstKey, .closing .record | .member, .closing .record => r.close fields
  | .firstKey, .text (some name) | .key, .text (some name) => r.key fields name
  | .colon name, .colon => .ok { r with place := .value name }
  | .value name, t => r.value fields name t
  | .ignored i, t => do
    match ← i.step t with
    | some rest => return { r with place := .ignored rest }
    | none => return { r with place := .member }
  | .member, .comma => .ok { r with place := .key }
  | .firstItem, .closing .list | .nextItem, .closing .list => r.close fields
  | .firstItem, t | .item, t => r.item fields t
  | .nextItem, .comma =>
    if fields.length ≤ r.found.length then .error .notJson else .ok { r with place := .item }
  | _, _ => .error .notJson

def readTokens (fields : List Field) (tokens : List Token) :
    Except Fault (List (String × Scalar)) := do
  let r ← tokens.foldlM (Reading.step fields) {}
  match r.place with
  | .done => return r.found
  | _ => .error .notJson

def readRecord (fields : List Field) (text : String) : Except Fault (List (String × Scalar)) :=
  readTokens fields (scan text)

def textOf (found : List (String × Scalar)) (name : String) : String :=
  match found.lookup name with
  | some (.text s) => s
  | _ => ""

def flagOf (found : List (String × Scalar)) (name : String) : Bool :=
  match found.lookup name with
  | some (.flag b) => b
  | _ => false

def hexDigit (n : Nat) : Char := (Nat.digitChar n)

def escapeChar (c : Char) : List Char :=
  if c = '"' then ['\\', '"']
  else if c = '\\' then ['\\', '\\']
  else if c = '\x08' then ['\\', 'b']
  else if c = '\x0c' then ['\\', 'f']
  else if c = '\n' then ['\\', 'n']
  else if c = '\r' then ['\\', 'r']
  else if c = '\t' then ['\\', 't']
  else if c.toNat < 0x20 then
    ['\\', 'u', '0', '0', hexDigit (c.toNat / 16), hexDigit (c.toNat % 16)]
  else [c]

def writeText (s : String) : List Char := '"' :: s.toList.flatMap escapeChar ++ ['"']

def Scalar.write : Scalar → List Char
  | .text s => writeText s
  | .flag true => "true".toList
  | .flag false => "false".toList

def writeMember (member : String × Scalar) : List Char :=
  writeText member.1 ++ ':' :: member.2.write

def writeRecord (members : List (String × Scalar)) : String :=
  String.ofList ('\x7b' :: [','].intercalate (members.map writeMember) ++ ['\x7d'])

end Egress.Json
