import Egress.Text.Digits

set_option autoImplicit false

namespace Egress.Json

inductive Bracket
  | list
  | record
  deriving DecidableEq, Repr

-- `text none` is a string that is well formed but spells no text (half of a surrogate pair), and
-- `number false` a number too large for a double. `bad` ends a token list that went wrong there.
inductive Token
  | opening (bracket : Bracket)
  | closing (bracket : Bracket)
  | comma
  | colon
  | text (value : Option String)
  | flag (value : Bool)
  | null
  | number (finite : Bool)
  | bad
  deriving DecidableEq, Repr

def isBlank (c : Char) : Bool := c = ' ' || c = '\n' || c = '\t' || c = '\r'

def simpleEscape : Char → Option Char
  | '"' => some '"'
  | '\\' => some '\\'
  | '/' => some '/'
  | 'b' => some '\x08'
  | 'f' => some '\x0c'
  | 'n' => some '\n'
  | 'r' => some '\r'
  | 't' => some '\t'
  | _ => none

def hexUnit (a b c d : Char) : Option Nat := do
  let a ← Digits.value? 16 a
  let b ← Digits.value? 16 b
  let c ← Digits.value? 16 c
  let d ← Digits.value? 16 d
  some (Digits.toNat 16 [a, b, c, d])

def isHighSurrogate (unit : Nat) : Bool := 0xd800 ≤ unit && unit < 0xdc00

def isLowSurrogate (unit : Nat) : Bool := 0xdc00 ≤ unit && unit < 0xe000

def ofSurrogates (high low : Nat) : Char :=
  Char.ofNat (0x10000 + (high - 0xd800) * 0x400 + (low - 0xdc00))

abbrev Spelling := List (Option Char)

def Spelling.text (s : Spelling) : Option String :=
  (s.mapM id).map String.ofList

def readString : List Char → Option (Spelling × List Char)
  | [] => none
  | '"' :: rest => some ([], rest)
  | '\\' :: 'u' :: a :: b :: c :: d :: '\\' :: 'u' :: e :: f :: g :: h :: rest =>
    match hexUnit a b c d, hexUnit e f g h with
    | some high, some low =>
      if isHighSurrogate high && isLowSurrogate low then
        (readString rest).map fun (s, left) => (some (ofSurrogates high low) :: s, left)
      else
        (readString ('\\' :: 'u' :: e :: f :: g :: h :: rest)).map fun (s, left) =>
          ((if isHighSurrogate high || isLowSurrogate high then none
            else some (Char.ofNat high)) :: s, left)
    | _, _ => none
  | '\\' :: 'u' :: a :: b :: c :: d :: rest =>
    match hexUnit a b c d with
    | some unit =>
      (readString rest).map fun (s, left) =>
        ((if isHighSurrogate unit || isLowSurrogate unit then none
          else some (Char.ofNat unit)) :: s, left)
    | none => none
  | '\\' :: e :: rest =>
    match simpleEscape e with
    | some c => (readString rest).map fun (s, left) => (some c :: s, left)
    | none => none
  | c :: rest =>
    if c = '\\' || c.toNat < 0x20 then none
    else (readString rest).map fun (s, left) => (some c :: s, left)

structure Number where
  whole : List Nat
  fraction : List Nat
  exponent : Int

def readDigits (cs : List Char) : Option (List Nat × List Char) :=
  let (digits, rest) := Digits.leading 10 cs
  if digits.isEmpty then none else some (digits, rest)

def readWhole : List Char → Option (List Nat × List Char)
  | '0' :: c :: rest => if (Digits.value? 10 c).isSome then none else some ([0], c :: rest)
  | cs => readDigits cs

def readFraction : List Char → Option (List Nat × List Char)
  | '.' :: rest => readDigits rest
  | cs => some ([], cs)

def readExponent : List Char → Option (Int × List Char)
  | [] => some (0, [])
  | c :: rest =>
    if c = 'e' || c = 'E' then
      let (negative, digits) := match rest with
        | '-' :: more => (true, more)
        | '+' :: more => (false, more)
        | more => (false, more)
      (readDigits digits).map fun (ds, left) =>
        let n : Int := Digits.toNat 10 ds
        (if negative then -n else n, left)
    else some (0, c :: rest)

def readNumber (cs : List Char) : Option (Number × List Char) := do
  let (whole, cs) ← readWhole cs
  let (fraction, cs) ← readFraction cs
  let (exponent, cs) ← readExponent cs
  some ({ whole := whole, fraction, exponent }, cs)

-- Everything from halfway between the largest double and 2^1024 on rounds away from the doubles.
def doubleLimit : Nat := (1 <<< 1024) - (1 <<< 970)

def Number.isFinite (n : Number) : Bool :=
  let digits := n.whole ++ n.fraction
  let m := Digits.toNat 10 digits
  let shift := n.exponent - n.fraction.length
  if m = 0 then true
  else if shift + digits.length < 300 then true
  else if shift > 310 then false
  else if 0 ≤ shift then m * Nat.pow 10 shift.toNat < doubleLimit
  else m < doubleLimit * Nat.pow 10 (-shift).toNat

def dropText : List Char → List Char → Option (List Char)
  | [], cs => some cs
  | _ :: _, [] => none
  | w :: word, c :: cs => if w = c then dropText word cs else none

def punctuation : Char → Option Token
  | '\x7b' => some (.opening .record)
  | '\x7d' => some (.closing .record)
  | '[' => some (.opening .list)
  | ']' => some (.closing .list)
  | ',' => some .comma
  | ':' => some .colon
  | _ => none

def readToken (c : Char) (rest : List Char) : Option (Token × List Char) :=
  match punctuation c with
  | some t => some (t, rest)
  | none =>
    if c = '"' then (readString rest).map fun (s, left) => (.text s.text, left)
    else if c = 't' then (dropText "rue".toList rest).map fun left => (.flag true, left)
    else if c = 'f' then (dropText "alse".toList rest).map fun left => (.flag false, left)
    else if c = 'n' then (dropText "ull".toList rest).map fun left => (.null, left)
    else if c = '-' then (readNumber rest).map fun (n, left) => (.number n.isFinite, left)
    else (readNumber (c :: rest)).map fun (n, left) => (.number n.isFinite, left)

def scanFrom : (room : Nat) → List Char → List Token
  | 0, _ => []
  | _ + 1, [] => []
  | room + 1, c :: rest =>
    if isBlank c then scanFrom room rest
    else
      match readToken c rest with
      | some (t, left) => t :: scanFrom room left
      | none => [.bad]

def scan (text : String) : List Token := scanFrom text.length text.toList

end Egress.Json
