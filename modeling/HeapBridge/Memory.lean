import HeapBridge.Fault

/-!
# Memory

One mapped range of bytes. Accesses of one, four and eight bytes are little-endian and have to be
aligned and inside the range.
-/
namespace HeapBridge

/-- A mapped range and the bytes in it. -/
structure Memory where
  start : Address
  size : Word
  byte : Address → UInt8

/-- The widths of an access. -/
inductive Width
  | byte
  | narrow
  | wide
deriving DecidableEq, Inhabited

namespace Width

def all : List Width := [byte, narrow, wide]

def bytes : Width → Nat
  | byte => 1
  | narrow => 4
  | wide => 8

/-- Keeps the low bits of a word that an access of this width carries. -/
def truncate : Width → Word → Word
  | byte, w => w &&& 0xff
  | narrow, w => w &&& 0xffffffff
  | wide, w => w

end Width

namespace Memory

/-- A mapped range of zeros. -/
def zeroed (start : Address) (size : Word) : Memory := ⟨start, size, fun _ => 0⟩

/-- Whether `n` bytes from `a` are all mapped. -/
def covers (m : Memory) (a : Address) (n : Nat) : Bool :=
  m.start ≤ a && (a - m.start).toNat + n ≤ m.size.toNat

/-- Whether an access of a width may be made at `a`. -/
def admits (m : Memory) (a : Address) (w : Width) : Bool :=
  m.covers a w.bytes && a.toNat % w.bytes == 0

/-- Replaces one byte. -/
def setByte (m : Memory) (a : Address) (b : UInt8) : Memory :=
  { m with byte := fun x => if x = a then b else m.byte x }

/-- The number that `n` bytes from `a` hold, lowest byte first. -/
def read (m : Memory) (a : Address) : Nat → Word
  | 0 => 0
  | n + 1 => (m.byte a).toUInt64 ||| (m.read (a + 1) n <<< 8)

/-- Puts the low `n` bytes of a word at `a`, lowest byte first. -/
def write (m : Memory) (a : Address) (v : Word) : Nat → Memory
  | 0 => m
  | n + 1 => (m.setByte a v.toUInt8).write (a + 1) (v >>> 8) n

/-- Checks that an access may be made at `a`. -/
def require (m : Memory) (a : Address) (w : Width) : Except Fault Unit :=
  if m.admits a w then .ok () else .error (.unmapped a)

/-- Loads a number. -/
def load (m : Memory) (a : Address) (w : Width) : Except Fault Word :=
  if m.admits a w then .ok (m.read a w.bytes) else .error (.unmapped a)

/-- Stores a number. -/
def store (m : Memory) (a : Address) (w : Width) (v : Word) : Except Fault Memory :=
  if m.admits a w then .ok (m.write a v w.bytes) else .error (.unmapped a)

/-- Stores `new` if the word at `a` is `old`. Also gives the word found, and whether it was. -/
def compareExchange (m : Memory) (a : Address) (w : Width) (old new : Word) :
    Except Fault (Bool × Word × Memory) := do
  let found ← m.load a w
  if found = w.truncate old then return (true, found, m.write a new w.bytes)
  else return (false, found, m)

/-- Copies `n` bytes as if through a buffer, so that the ranges may overlap. Even ranges without bytes
have to be inside. -/
def copy (m : Memory) (src dst : Address) (n : Word) : Except Fault Memory :=
  if m.covers src n.toNat && m.covers dst n.toNat then
    .ok { m with byte := fun x => if x - dst < n then m.byte (src + (x - dst)) else m.byte x }
  else .error (.unmapped src)

@[simp] theorem byte_setByte (m : Memory) (a x : Address) (b : UInt8) :
    (m.setByte a b).byte x = if x = a then b else m.byte x := rfl
@[simp] theorem start_setByte (m : Memory) (a : Address) (b : UInt8) :
    (m.setByte a b).start = m.start := rfl
@[simp] theorem size_setByte (m : Memory) (a : Address) (b : UInt8) :
    (m.setByte a b).size = m.size := rfl

@[simp] theorem start_write (m : Memory) (a : Address) (v : Word) (n : Nat) :
    (m.write a v n).start = m.start := by
  induction n generalizing m a v with
  | zero => rfl
  | succ n ih => simp [write, ih]

@[simp] theorem size_write (m : Memory) (a : Address) (v : Word) (n : Nat) :
    (m.write a v n).size = m.size := by
  induction n generalizing m a v with
  | zero => rfl
  | succ n ih => simp [write, ih]

@[simp] theorem covers_write (m : Memory) (a x : Address) (v : Word) (n k : Nat) :
    (m.write a v n).covers x k = m.covers x k := by simp [covers]

@[simp] theorem admits_write (m : Memory) (a x : Address) (v : Word) (n : Nat) (w : Width) :
    (m.write a v n).admits x w = m.admits x w := by simp [admits]

/-- The bytes from `a` on are the list. -/
def withBytes (m : Memory) (a : Address) : List UInt8 → Memory
  | [] => m
  | b :: bs => (m.setByte a b).withBytes (a + 1) bs

end Memory
end HeapBridge
