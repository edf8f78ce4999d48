import Egress.Site.Rule

set_option autoImplicit false

namespace Egress.Site

inductive Disposition
  | bypass
  | forward
  | block
  deriving DecidableEq, Repr

def Disposition.label : Disposition → String
  | bypass => "bypass"
  | forward => "forward"
  | block => "block"

def normalize (host : String) : List Char :=
  let cs := host.toList
  (if cs.getLast? = some '.' then cs.dropLast else cs).map Char.toLower

def bytes (cs : List Char) : List UInt8 := cs.flatMap String.utf8EncodeChar

def byteLength (cs : List Char) : Nat := (bytes cs).length

def dot : UInt8 := 46

def isBelow (host domain : List Char) : Bool :=
  let before := byteLength host - byteLength domain
  byteLength domain < byteLength host && bytes domain <:+ bytes host &&
    (bytes host)[before - 1]? = some dot

structure Match where
  rule : Rule
  length : Nat

def better (found : Option Match) (length : Nat) : Bool :=
  match found with
  | some m => m.length < length
  | none => true

-- The first rule for the host itself, else the longest recursive rule above it, the first one of
-- equal ones.
def findRule (host : List Char) : Option Match → List Rule → Option Match
  | found, [] => found
  | found, rule :: rest =>
    let domain := normalize rule.host
    if domain.isEmpty then findRule host found rest
    else if domain = host then some { rule, length := byteLength domain }
    else if rule.recursive && isBelow host domain && better found (byteLength domain) then
      findRule host (some { rule, length := byteLength domain }) rest
    else findRule host found rest

def route (rules : List Rule) (host : String) : Disposition :=
  match findRule (normalize host) none rules with
  | some m => if m.rule.block then .block else .forward
  | none => .bypass

def describeRouter (_ : List Rule) : String := "Router \x7b .. \x7d"

end Egress.Site
