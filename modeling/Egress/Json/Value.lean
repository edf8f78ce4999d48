import Egress.Json.Record

set_option autoImplicit false

namespace Egress.Json

inductive Value
  | null
  | flag (value : Bool)
  | number
  | text (value : String)
  | list (items : List Value)
  | record (members : List (String × Value))

namespace Value

mutual

def tokens : Value → List Token
  | null => [.null]
  | flag b => [.flag b]
  | number => [.number true]
  | text s => [.text (some s)]
  | list items => .opening .list :: (itemTokens items ++ [.closing .list])
  | record members => .opening .record :: (memberTokens members ++ [.closing .record])

def itemTokens : List Value → List Token
  | [] => []
  | [item] => item.tokens
  | item :: rest => item.tokens ++ .comma :: itemTokens rest

def memberTokens : List (String × Value) → List Token
  | [] => []
  | [(name, value)] => .text (some name) :: .colon :: value.tokens
  | (name, value) :: rest =>
    .text (some name) :: .colon :: (value.tokens ++ .comma :: memberTokens rest)

end

-- A value is JSON already, so only its shape can be wrong.
def readRecord (fields : List Field) (v : Value) : Except Fault (List (String × Scalar)) :=
  (readTokens fields v.tokens).mapError fun _ => .wrongShape

end Value

end Egress.Json
