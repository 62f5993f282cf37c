/-!
# Machine words

Addresses, object references, sizes and slots all travel as one 64-bit word. The names below say
which of them is meant. Alignment wraps at the top of the word, as masks do.
-/
namespace HeapBridge

/-- An unsigned 64-bit word. -/
abbrev Word := UInt64

/-- A place in the address space: a slot, a cursor, a byte of metadata. -/
abbrev Address := Word

/-- A reference to a managed object. Zero is the null reference. -/
abbrev ObjectRef := Word

namespace Word

/-- The least multiple of a power of two that is not below `val`, or zero if it leaves the word. -/
def alignUp (val align : Word) : Word := (val + align - 1) &&& ~~~(align - 1)

/-- The greatest multiple of a power of two that is not above `val`. -/
def alignDown (val align : Word) : Word := val &&& ~~~(align - 1)

/-- Whether `val` is a multiple of the power of two `align`. -/
def isAligned (val align : Word) : Bool := val &&& (align - 1) == 0

/-- A request rounded up to whole heap words. -/
def heapAlignUp (bytes : Word) : Word := alignUp bytes 8

/-- Reads a signed number as the word that holds it in two's complement. -/
def ofInt (i : Int) : Word := UInt64.ofInt i

/-- Three-way comparison as a sign. -/
def compareSign (a b : Word) : Int := if a < b then -1 else if a = b then 0 else 1

end Word

/-- Whether a reference refers to nothing. -/
def ObjectRef.isNull (o : ObjectRef) : Bool := o == 0

end HeapBridge
