import Egress.Text.Digits

set_option autoImplicit false

namespace Egress

inductive Ip
  | v4 (bits : BitVec 32)
  | v6 (bits : BitVec 128)
  deriving DecidableEq, Repr

namespace Ip

def isV4 : Ip → Bool
  | v4 _ => true
  | v6 _ => false

def normalize : Ip → Ip
  | v4 bits => v4 bits
  | v6 bits => if bits.toNat >>> 32 = 0xffff then v4 (bits.setWidth 32) else v6 bits

def loopback : Ip := v4 0x7f000001#32

def loopback6 : Ip := v6 1#128

def before : Ip → Ip → Bool
  | v4 a, v4 b => a.toNat ≤ b.toNat
  | v4 _, v6 _ => true
  | v6 _, v4 _ => false
  | v6 a, v6 b => a.toNat ≤ b.toNat

def readNumber (radix limit : Nat) (most : Option Nat) (padded : Bool) (cs : List Char) :
    Option (Nat × List Char) :=
  let (digits, rest) := Digits.leading radix cs
  let n := Digits.toNat radix digits
  if digits.isEmpty then none
  else if most.any (· < digits.length) then none
  else if n ≥ limit then none
  else if !padded && digits.head? = some 0 && 1 < digits.length then none
  else some (n, rest)

def readChar (c : Char) : List Char → Option (List Char)
  | [] => none
  | d :: rest => if d = c then some rest else none

def readOctet (cs : List Char) : Option (Nat × List Char) := readNumber 10 256 (some 3) false cs

def readV4 (cs : List Char) : Option (BitVec 32 × List Char) := do
  let (a, cs) ← readOctet cs
  let (b, cs) ← readOctet (← readChar '.' cs)
  let (c, cs) ← readOctet (← readChar '.' cs)
  let (d, cs) ← readOctet (← readChar '.' cs)
  some (BitVec.ofNat 32 (((a * 256 + b) * 256 + c) * 256 + d), cs)

-- Up to `room` groups of four hexadecimal digits, colons between them (`first` says that none is
-- due yet). The last two may be written as an IPv4 address, which ends the run.
def readGroups : (room : Nat) → (first : Bool) → List Char → List Nat × Bool × List Char
  | 0, _, cs => ([], false, cs)
  | room + 1, first, cs =>
    let start := if first then some cs else readChar ':' cs
    match start with
    | none => ([], false, cs)
    | some body =>
      match if room = 0 then none else readV4 body with
      | some (bits, rest) => ([bits.toNat / 65536, bits.toNat % 65536], true, rest)
      | none =>
        match readNumber 16 65536 (some 4) true body with
        | none => ([], false, cs)
        | some (group, rest) =>
          let (groups, dotted, left) := readGroups room false rest
          (group :: groups, dotted, left)

def ofGroups (groups : List Nat) : BitVec 128 := BitVec.ofNat 128 (Digits.toNat 65536 groups)

def readV6 (cs : List Char) : Option (BitVec 128 × List Char) :=
  let (front, dotted, rest) := readGroups 8 true cs
  if front.length = 8 then some (ofGroups front, rest)
  else if dotted then none
  else do
    let rest ← readChar ':' (← readChar ':' rest)
    let (back, _, rest) := readGroups (7 - front.length) true rest
    let gap := List.replicate (8 - front.length - back.length) 0
    some (ofGroups (front ++ gap ++ back), rest)

def ofString? (text : String) : Option Ip :=
  let cs := text.toList
  match readV4 cs with
  | some (bits, []) => some (v4 bits)
  | _ =>
    match readV6 cs with
    | some (bits, []) => some (v6 bits)
    | _ => none

def dotted (n : Nat) : String :=
  s!"{(n >>> 24) % 256}.{(n >>> 16) % 256}.{(n >>> 8) % 256}.{n % 256}"

def groups (bits : BitVec 128) : List Nat :=
  (List.range 8).map fun i => (bits.toNat >>> (16 * (7 - i))) % 65536

def zeroRun : List Nat → Nat
  | 0 :: rest => zeroRun rest + 1
  | _ => 0

def longestRun : (position : Nat) → List Nat → Nat × Nat
  | _, [] => (0, 0)
  | position, g :: rest =>
    let here := zeroRun (g :: rest)
    let later := longestRun (position + 1) rest
    if later.2 ≤ here then (position, here) else later

def colonJoined (groups : List Nat) : String :=
  ":".intercalate (groups.map fun g => String.ofList (Nat.toDigits 16 g))

-- The canonical text: lower case, no leading zeros, the longest run of two or more zero groups
-- shortened to `::`, a mapped IPv4 address dotted.
def toText : Ip → String
  | v4 bits => dotted bits.toNat
  | v6 bits =>
    if bits.toNat >>> 32 = 0xffff then "::ffff:" ++ dotted (bits.toNat % 0x100000000)
    else
      let gs := groups bits
      let (start, length) := longestRun 0 gs
      if 2 ≤ length then
        colonJoined (gs.take start) ++ "::" ++ colonJoined (gs.drop (start + length))
      else colonJoined gs

end Ip

def sortedIps (ips : List Ip) : List Ip :=
  (ips.eraseDups).mergeSort Ip.before

end Egress
