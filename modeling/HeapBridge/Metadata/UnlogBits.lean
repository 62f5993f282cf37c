import HeapBridge.Word.Checked
import HeapBridge.Memory

/-!
# Unlog bits

One bit of side metadata per slot says whether a write to the slot still has to be recorded in this
cycle. The bits of eight neighbouring slots share a byte, and the table is biased: the index of a
byte is added to a base that may lie below zero, so the sum wraps.
-/
namespace HeapBridge.Metadata

/-- Where the unlog bits are, and how much memory one of them stands for. -/
structure UnlogBits where
  /-- The biased base of the table. -/
  base : Address
  /-- Log of the width of the region that shares a bit. -/
  logRegion : UInt8
deriving DecidableEq, Inhabited

namespace UnlogBits

/-- The bits for slots of one of the two widths. -/
def forSlots (base : Address) (compressed : Bool) : UnlogBits :=
  ⟨base, if compressed then Units.logNarrowSlot else Units.logWideSlot⟩

/-- The bits in diagnostics. -/
def describe (u : UnlogBits) : String :=
  Text.record "SideMetadataSpec" [("base", Text.hex u.base),
    ("log_bytes_in_region", toString u.logRegion.toNat)]

/-- Log of the memory that a byte of metadata stands for. -/
def logPerByte (u : UnlogBits) : Except Fault UInt8 :=
  if u.logRegion.toNat + 3 < 256 then .ok (u.logRegion + Units.logBitsPerByte)
  else .error (.overflow .add)

/-- The address of the byte that holds the bit of a slot. -/
def byteAddress (u : UnlogBits) (slot : Address) : Except Fault Address := do
  let log ← u.logPerByte
  let index ← Word.shiftRight slot log.toUInt64
  return u.base + index

/-- The place of the bit of a slot in its byte. -/
def bitIndex (u : UnlogBits) (slot : Address) : Except Fault UInt8 := do
  let region ← Word.shiftRight slot u.logRegion.toUInt64
  return (region &&& 7).toUInt8

/-- Whether bit `i` of a byte is set. -/
def testBit (byte i : UInt8) : Bool := (byte >>> i) &&& 1 == Units.unlogged

/-- Whether the bit of `slot` is set in a byte that was loaded for it. -/
def isUnloggedIn (u : UnlogBits) (byte : UInt8) (slot : Address) : Except Fault Bool := do
  return testBit byte (← u.bitIndex slot)

/-- A byte with bit `i` set. -/
def withBit (byte i : UInt8) : UInt8 := byte ||| (1 <<< i)

/-- A byte with bit `i` cleared. -/
def withoutBit (byte i : UInt8) : UInt8 := byte &&& ~~~(1 <<< i)

/-- The metadata byte of a slot. -/
def loadByte (u : UnlogBits) (m : Memory) (slot : Address) : Except Fault UInt8 := do
  return (← m.load (← u.byteAddress slot) .byte).toUInt8

/-- Whether a slot is unlogged. -/
def isUnlogged (u : UnlogBits) (m : Memory) (slot : Address) : Except Fault Bool := do
  let byte ← u.loadByte m slot
  u.isUnloggedIn byte slot

/-- Sets the bit of a slot. -/
def unlog (u : UnlogBits) (m : Memory) (slot : Address) : Except Fault Memory := do
  let a ← u.byteAddress slot
  let i ← u.bitIndex slot
  let byte ← m.load a .byte
  m.store a .byte (withBit byte.toUInt8 i).toUInt64

/-- Clears the bit of a slot, and tells whether it was set. -/
def log (u : UnlogBits) (m : Memory) (slot : Address) : Except Fault (Bool × Memory) := do
  let a ← u.byteAddress slot
  let i ← u.bitIndex slot
  let byte ← m.load a .byte
  let m ← m.store a .byte (withoutBit byte.toUInt8 i).toUInt64
  return (testBit byte.toUInt8 i, m)

end UnlogBits
end HeapBridge.Metadata
