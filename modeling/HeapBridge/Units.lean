import HeapBridge.Word

/-!
# Units of the managed heap

Sizes that the heap, the side tables and the encodings of references are built from.
-/
namespace HeapBridge.Units

def bitsPerByte : Word := 8
def bytesPerGigabyte : Word := 0x40000000
def bytesPerKilobyte : Word := 1024
def bytesPerAddress : Word := 8
def bytesPerWord : Word := 8
def bytesPerPage : Word := 4096

/-- The granularity of allocation. -/
def heapWordSize : Word := 8

/-- Log of the width of a slot that holds a whole word. -/
def logWideSlot : UInt8 := 3
/-- Log of the width of a slot that holds a compressed reference. -/
def logNarrowSlot : UInt8 := 2
/-- Log of the number of bits in a byte of metadata. -/
def logBitsPerByte : UInt8 := 3

/-- The bit of a slot that has not been recorded in this cycle. -/
def unlogged : UInt8 := 1
/-- The bit of a slot that has been recorded. -/
def logged : UInt8 := 0

/-- Requests above this size may use the second buffer of a two-buffer allocator. -/
def defaultLargeBumpThreshold : Word := 256

/-- Heaps that end here or below need neither base nor shift. -/
def unscaledHeapEnd : Word := 0x100000000
/-- Heaps that end here or below need no base. -/
def zeroBasedHeapEnd : Word := 0x800000000
/-- Log of the object alignment that scales a compressed reference. -/
def logNarrowShift : Word := 3

/-- All units, in the order in which they are published. -/
def all : List Word :=
  [bitsPerByte, bytesPerGigabyte, bytesPerKilobyte, bytesPerAddress, bytesPerWord, bytesPerPage,
    heapWordSize, logWideSlot.toUInt64, logNarrowSlot.toUInt64, unlogged.toUInt64,
    logged.toUInt64, defaultLargeBumpThreshold, unscaledHeapEnd, zeroBasedHeapEnd, logNarrowShift]

end HeapBridge.Units
