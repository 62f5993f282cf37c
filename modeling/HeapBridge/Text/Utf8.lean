/-!
# Reading bytes as text

Bytes that come from outside need not be well formed. Each maximal run that begins a character but
cannot be completed, and each byte that begins none, is read as one replacement character.
-/
namespace HeapBridge.Text

/-- What a lead byte promises: how many bytes follow it, and the bounds of the first of them. -/
def leadByte (b : Nat) : Option (Nat × Nat × Nat) :=
  if 0xc2 ≤ b ∧ b ≤ 0xdf then some (1, 0x80, 0xbf)
  else if b = 0xe0 then some (2, 0xa0, 0xbf)
  else if 0xe1 ≤ b ∧ b ≤ 0xec then some (2, 0x80, 0xbf)
  else if b = 0xed then some (2, 0x80, 0x9f)
  else if 0xee ≤ b ∧ b ≤ 0xef then some (2, 0x80, 0xbf)
  else if b = 0xf0 then some (3, 0x90, 0xbf)
  else if 0xf1 ≤ b ∧ b ≤ 0xf3 then some (3, 0x80, 0xbf)
  else if b = 0xf4 then some (3, 0x80, 0x8f)
  else none

/-- What has been read of a character: its bits, the bytes still due, the bounds of the next. -/
structure Partial where
  bits : Nat
  due : Nat
  lo : Nat
  hi : Nat

/-- A decoder between two bytes: the characters so far, newest first, and the open one. -/
structure Decoder where
  done : List Char := []
  pending : Option Partial := none

namespace Decoder

/-- The sign that stands for bytes that are no character. -/
def replacement : Char := Char.ofNat 0xfffd

/-- Takes a byte that no open character claims. -/
def start (d : Decoder) (b : Nat) : Decoder :=
  if b < 0x80 then ⟨Char.ofNat b :: d.done, none⟩
  else match leadByte b with
    | none => ⟨replacement :: d.done, none⟩
    | some (due, lo, hi) =>
      let bits := if due = 1 then b % 32 else if due = 2 then b % 16 else b % 8
      ⟨d.done, some ⟨bits, due, lo, hi⟩⟩

/-- Takes the next byte. -/
def push (d : Decoder) (byte : UInt8) : Decoder :=
  let b := byte.toNat
  match d.pending with
  | none => d.start b
  | some p =>
    if p.lo ≤ b ∧ b ≤ p.hi then
      let bits := p.bits * 64 + b % 64
      if p.due = 1 then ⟨Char.ofNat bits :: d.done, none⟩
      else ⟨d.done, some ⟨bits, p.due - 1, 0x80, 0xbf⟩⟩
    else start ⟨replacement :: d.done, none⟩ b

/-- All characters, an open one replaced. -/
def finish (d : Decoder) : List Char :=
  (if d.pending.isSome then replacement :: d.done else d.done).reverse

end Decoder

/-- Reads bytes as text. -/
def decodeLossy (bytes : List UInt8) : String :=
  String.ofList (bytes.foldl Decoder.push ⟨[], none⟩).finish

/-- Reads the bytes before the first zero, the way a terminated text is stored. -/
def decodeTerminated (bytes : List UInt8) : String := decodeLossy (bytes.takeWhile (· != 0))

end HeapBridge.Text
