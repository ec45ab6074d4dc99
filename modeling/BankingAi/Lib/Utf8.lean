import Mathlib.Data.List.Basic

/-!
# UTF-8 with replacement

`data.decode("utf-8", errors="replace")`: a byte that cannot go on gives one replacement character
for the bytes of the sequence it breaks, and is then read as the first byte of another.
-/

namespace BankingAi.Utf8

/-- A sequence being read: the continuation bytes still to come, the range of the next one, and the
bits so far. -/
structure Pending where
  remaining : ℕ
  low : ℕ
  high : ℕ
  bits : ℕ

def replacement : Char := '\ufffd'

/-- The first byte of a sequence: a character, a sequence to go on with, or an invalid byte. -/
def first (b : ℕ) : List Char × Option Pending :=
  if b < 0x80 then ([Char.ofNat b], none)
  else if 0xc2 ≤ b ∧ b ≤ 0xdf then ([], some ⟨1, 0x80, 0xbf, b - 0xc0⟩)
  else if b = 0xe0 then ([], some ⟨2, 0xa0, 0xbf, 0⟩)
  else if b = 0xed then ([], some ⟨2, 0x80, 0x9f, 0xd⟩)
  else if 0xe1 ≤ b ∧ b ≤ 0xef then ([], some ⟨2, 0x80, 0xbf, b - 0xe0⟩)
  else if b = 0xf0 then ([], some ⟨3, 0x90, 0xbf, 0⟩)
  else if 0xf1 ≤ b ∧ b ≤ 0xf3 then ([], some ⟨3, 0x80, 0xbf, b - 0xf0⟩)
  else if b = 0xf4 then ([], some ⟨3, 0x80, 0x8f, 4⟩)
  else ([replacement], none)

def step (pending : Option Pending) (b : ℕ) : List Char × Option Pending :=
  match pending with
  | none => first b
  | some p =>
    if p.low ≤ b ∧ b ≤ p.high then
      let bits := p.bits * 64 + (b - 0x80)
      if p.remaining = 1 then ([Char.ofNat bits], none) else ([], some ⟨p.remaining - 1, 0x80, 0xbf, bits⟩)
    else
      let (chars, pending) := first b
      (replacement :: chars, pending)

def decodeFrom : Option Pending → List UInt8 → List Char
  | none, [] => []
  | some _, [] => [replacement]
  | pending, b :: bs =>
    let (chars, pending) := step pending b.toNat
    chars ++ decodeFrom pending bs

def decode (data : List UInt8) : String := .ofList (decodeFrom none data)

example : decode [0x61, 0xc3, 0xa9, 0xe2, 0x82, 0xac, 0xe2, 0x82, 0x61, 0xff, 0xf0, 0x9f] =
    "aé€\ufffda\ufffd\ufffd" := by decide +kernel

end BankingAi.Utf8
