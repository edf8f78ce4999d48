import Egress.Json.Record
import Egress.Text.Quoted

set_option autoImplicit false

namespace Egress.Server

structure Params where
  addr : String := ""
  login : String := ""
  password : String := ""
  keyId : String := ""
  deriving DecidableEq, Repr

structure Key where
  id : String
  comment : String := ""
  privateKey : String
  deriving DecidableEq, Repr

inductive Credentials
  | password (text : String)
  | key (key : Key)
  deriving DecidableEq, Repr

def findKey (keys : List Key) (id : String) : Option Key := keys.find? (·.id == id)

namespace Params

-- A key takes precedence over the password, even if the key is not there.
def credentials (p : Params) (keys : List Key) : Option Credentials :=
  if p.addr.isEmpty || p.login.isEmpty then none
  else if !p.keyId.isEmpty then (findKey keys p.keyId).map .key
  else if p.password.isEmpty then none
  else some (.password p.password)

def fields : List Json.Field :=
  ["addr", "login", "password", "keyid"].map fun name => { name, kind := .text, optional := true }

def ofMembers (found : List (String × Json.Scalar)) : Params :=
  { addr := Json.textOf found "addr"
    login := Json.textOf found "login"
    password := Json.textOf found "password"
    keyId := Json.textOf found "keyid" }

def ofJson (text : String) : Except Json.Fault Params :=
  (Json.readRecord fields text).map ofMembers

def toJson (p : Params) : String :=
  Json.writeRecord
    [("addr", .text p.addr), ("login", .text p.login), ("password", .text p.password),
     ("keyid", .text p.keyId)]

def describe (p : Params) : String :=
  let password := if p.password.isEmpty then "" else "***"
  "ServerParams \x7b addr: " ++ Text.quoted p.addr ++ ", login: " ++ Text.quoted p.login
    ++ ", password: " ++ Text.quoted password ++ ", keyid: " ++ Text.quoted p.keyId ++ " \x7d"

end Params

namespace Key

def fields : List Json.Field :=
  [{ name := "id", kind := .text },
   { name := "comment", kind := .text, optional := true },
   { name := "private_key", kind := .text }]

def ofMembers (found : List (String × Json.Scalar)) : Key :=
  { id := Json.textOf found "id"
    comment := Json.textOf found "comment"
    privateKey := Json.textOf found "private_key" }

def ofJson (text : String) : Except Json.Fault Key := (Json.readRecord fields text).map ofMembers

def toJson (k : Key) : String :=
  Json.writeRecord
    [("id", .text k.id), ("comment", .text k.comment), ("private_key", .text k.privateKey)]

def describe (k : Key) : String :=
  "Key \x7b id: " ++ Text.quoted k.id ++ ", comment: " ++ Text.quoted k.comment ++ ", .. \x7d"

end Key

def Credentials.describe : Credentials → String
  | password _ => "Password(***)"
  | key k => "Key(" ++ Text.quoted k.id ++ ")"

end Egress.Server
