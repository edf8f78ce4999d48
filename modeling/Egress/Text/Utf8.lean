set_option autoImplicit false

namespace Egress.Text

def encode (text : String) : List UInt8 := text.toUTF8.toList

def replacement : Char := Char.ofNat 0xfffd

-- A character begun: its bits so far, how many bytes are due, and the range of the next one.
structure Begun where
  bits : Nat
  due : Nat
  low : Nat
  high : Nat

inductive Lead
  | whole (c : Char)
  | begun (b : Begun)
  | invalid

def lead (b : Nat) : Lead :=
  if b < 0x80 then .whole (Char.ofNat b)
  else if 0xc2 ≤ b && b ≤ 0xdf then .begun { bits := b - 0xc0, due := 1, low := 0x80, high := 0xbf }
  else if b = 0xe0 then .begun { bits := 0, due := 2, low := 0xa0, high := 0xbf }
  else if b = 0xed then .begun { bits := 0xd, due := 2, low := 0x80, high := 0x9f }
  else if 0xe1 ≤ b && b ≤ 0xef then .begun { bits := b - 0xe0, due := 2, low := 0x80, high := 0xbf }
  else if b = 0xf0 then .begun { bits := 0, due := 3, low := 0x90, high := 0xbf }
  else if 0xf1 ≤ b && b ≤ 0xf3 then .begun { bits := b - 0xf0, due := 3, low := 0x80, high := 0xbf }
  else if b = 0xf4 then .begun { bits := 4, due := 3, low := 0x80, high := 0x8f }
  else .invalid

def startWith (b : Nat) : List Char × Option Begun :=
  match lead b with
  | .whole c => ([c], none)
  | .begun begun => ([], some begun)
  | .invalid => ([replacement], none)

def nextByte (begun : Option Begun) (b : Nat) : List Char × Option Begun :=
  match begun with
  | none => startWith b
  | some s =>
    if s.low ≤ b && b ≤ s.high then
      let bits := s.bits * 64 + (b - 0x80)
      if s.due = 1 then ([Char.ofNat bits], none)
      else ([], some { bits, due := s.due - 1, low := 0x80, high := 0xbf })
    else
      let (out, next) := startWith b
      (replacement :: out, next)

def decodeFrom : Option Begun → List UInt8 → List Char
  | none, [] => []
  | some _, [] => [replacement]
  | begun, b :: rest => (nextByte begun b.toNat).1 ++ decodeFrom (nextByte begun b.toNat).2 rest

-- Bytes as text. Where they are none, each longest start of a character becomes one replacement
-- character.
def decode (bytes : List UInt8) : String := String.ofList (decodeFrom none bytes)

end Egress.Text
