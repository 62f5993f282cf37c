import HeapBridge.Word.Checked

/-!
# Compressed references

A narrow slot holds a reference as a 32-bit distance from a base, scaled by a shift. Zero is null
in every encoding.
-/
namespace HeapBridge.Slot

/-- The meaning of the narrow slots of a heap. -/
structure Encoding where
  base : Address
  shift : Word
deriving DecidableEq, Inhabited

namespace Encoding

/-- The narrow value is the address itself. -/
def unscaled : Encoding := ⟨0, 0⟩

/-- The cheapest encoding for the objects of a heap. A based one starts a page below the heap, so
that no object has the distance zero. -/
def forHeap (first last : Address) : Except Fault Encoding :=
  if last ≤ Units.unscaledHeapEnd then .ok unscaled
  else if last ≤ Units.zeroBasedHeapEnd then .ok ⟨0, Units.logNarrowShift⟩
  else do return ⟨← Word.sub first Units.bytesPerPage, Units.logNarrowShift⟩

/-- The narrow value of a reference. Bits above the lowest 32 are lost. -/
def encode (e : Encoding) (o : ObjectRef) : Except Fault UInt32 :=
  if o = 0 then .ok 0
  else do
    let distance ← Word.distance o e.base
    return (← Word.shiftRight distance e.shift).toUInt32

/-- The reference that a narrow value stands for. -/
def decode (e : Encoding) (narrow : UInt32) : Except Fault ObjectRef :=
  if narrow = 0 then .ok 0
  else do
    let distance ← Word.shiftLeft narrow.toUInt64 e.shift
    Word.add e.base distance

@[simp] theorem encode_null (e : Encoding) : e.encode 0 = .ok 0 := by simp [encode]
@[simp] theorem decode_zero (e : Encoding) : e.decode 0 = .ok 0 := by simp [decode]

end Encoding
end HeapBridge.Slot
