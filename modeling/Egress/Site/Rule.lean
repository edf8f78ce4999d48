import Egress.Json.Value

set_option autoImplicit false

namespace Egress.Site

structure Rule where
  host : String
  recursive : Bool := false
  block : Bool := false
  deriving DecidableEq, Repr

namespace Rule

def fields : List Json.Field :=
  [{ name := "host", kind := .text },
   { name := "rec", kind := .flag, optional := true },
   { name := "block", kind := .flag, optional := true }]

def ofMembers (found : List (String × Json.Scalar)) : Rule :=
  { host := Json.textOf found "host"
    recursive := Json.flagOf found "rec"
    block := Json.flagOf found "block" }

def ofJson (text : String) : Except Json.Fault Rule := (Json.readRecord fields text).map ofMembers

def ofValue (value : Json.Value) : Except Json.Fault Rule := (value.readRecord fields).map ofMembers

def members (r : Rule) : List (String × Json.Scalar) :=
  ("host", .text r.host) ::
    ((if r.recursive then [("rec", .flag true)] else []) ++
      (if r.block then [("block", .flag true)] else []))

def toJson (r : Rule) : String := Json.writeRecord r.members

end Rule

end Egress.Site
