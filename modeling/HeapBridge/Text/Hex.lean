import HeapBridge.Word

/-!
# Hexadecimal text

Words are written in lower-case digits without leading zeros, after the mark 0x, and may be padded on
the left. They are read with that mark or, without it, in decimal.
-/
namespace HeapBridge.Text

/-- The digits of a number in base sixteen, at least one. -/
def hexDigits (n : Nat) : String := String.ofList (Nat.toDigits 16 n)

/-- A word as it is shown everywhere: 0x and its digits. -/
def hex (w : Word) : String := "0x" ++ hexDigits w.toNat

/-- Widens a text to `width` characters with `pad` on the left. -/
def padLeft (width : Nat) (pad : Char) (s : String) : String :=
  String.ofList (List.replicate (width - s.length) pad) ++ s

/-- A word with its mark, filled with zeros between mark and digits up to `width` characters. -/
def hexZeroFilled (width : Nat) (w : Word) : String :=
  "0x" ++ padLeft (width - 2) '0' (hexDigits w.toNat)

/-- A word in every form in which it may be written: plain, as diagnostics show it, in bare digits, with
its mark in a column of its own width, and both again in a wide column, which only bare digits fill. -/
def wordForms (w : Word) : List String :=
  let digits := hexDigits w.toNat
  [hex w, hex w, digits, hexZeroFilled 18 w, hex w, padLeft 20 ' ' digits]

/-- The value of a digit in bases up to sixteen, in either case. -/
def digit? (c : Char) : Option Nat :=
  if c.isDigit then some (c.toNat - 48)
  else if 'a' ≤ c ∧ c ≤ 'f' then some (c.toNat - 87)
  else if 'A' ≤ c ∧ c ≤ 'F' then some (c.toNat - 55)
  else none

/-- Adds a digit of a base to a number. -/
def addDigit? (base n : Nat) (c : Char) : Option Nat := do
  let d ← digit? c
  if d < base then some (n * base + d) else none

/-- Takes a plus sign away. -/
def dropPlus : List Char → List Char
  | '+' :: cs => cs
  | cs => cs

/-- Reads digits of a base, after a plus sign if one is there. There has to be a digit, and the number
has to fit a word. -/
def digits? (base : Nat) (text : List Char) : Option Word := do
  let cs := dropPlus text
  if cs.isEmpty then none
  let n ← cs.foldlM (addDigit? base) 0
  if n < UInt64.size then some (.ofNat n) else none

/-- Reads a word. -/
def word? (s : String) : Option Word :=
  match s.toList with
  | '0' :: 'x' :: cs => digits? 16 cs
  | cs => digits? 10 cs

end HeapBridge.Text
