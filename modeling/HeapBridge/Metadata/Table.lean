import HeapBridge.Metadata.UnlogBits

/-!
# Tables of unlog bits

A table that this process owns for the slots of one range. Its bytes start at some address of their
own, and the base of its bits is biased so that the index of the first byte leads there. Seen from
outside a table is a set of regions: unlogging inserts, logging removes.
-/
namespace HeapBridge.Metadata

/-- The unlog bits of the slots from `first` to before `last`. -/
structure Table where
  first : Address
  last : Address
  bits : UnlogBits
  memory : Memory

namespace Table

/-- A table with every slot logged, whose bytes start at `origin`. -/
def new (origin first last : Address) (compressed : Bool) : Except Fault Table := do
  unless first < last do throw (.emptyMetadataRange first last)
  let log ← (UnlogBits.forSlots 0 compressed).logPerByte
  let low ← Word.shiftRight first log.toUInt64
  let high ← Word.shiftRight (last - 1) log.toUInt64
  return { first, last
           bits := UnlogBits.forSlots (origin - low) compressed
           memory := .zeroed origin (high - low + 1) }

/-- The number of bytes of a table. -/
def size (t : Table) : Nat := t.memory.size.toNat

def isEmpty (t : Table) : Bool := t.size == 0

/-- Whether a slot is in the range that the table was made for. -/
def covers (t : Table) (slot : Address) : Bool := t.first ≤ slot && slot < t.last

/-- Sets every bit if `value` is the unlogged one, and clears every bit otherwise. -/
def fill (t : Table) (value : UInt8) : Table :=
  let byte := if value = Units.unlogged then 0xff else 0
  { t with memory := { t.memory with byte := fun _ => byte } }

/-- The byte that holds the bit of a slot. -/
def byteOf (t : Table) (slot : Address) : Except Fault UInt8 := t.bits.loadByte t.memory slot

/-- Whether a slot is unlogged. -/
def isUnlogged (t : Table) (slot : Address) : Except Fault Bool := t.bits.isUnlogged t.memory slot

/-- Marks a slot as unlogged. -/
def unlog (t : Table) (slot : Address) : Except Fault Table := do
  return { t with memory := ← t.bits.unlog t.memory slot }

/-- Marks a slot as logged, and tells whether it was not. -/
def log (t : Table) (slot : Address) : Except Fault (Bool × Table) := do
  let (was, memory) ← t.bits.log t.memory slot
  return (was, { t with memory })

end Table
end HeapBridge.Metadata
