import HeapBridge.Memory

/-!
# Forwarding

The top byte of a header word says whether an object has moved. Its two lowest bits are the
forwarding bits: if any is set, the other 56 bits of the word are the new place of the object.
-/
namespace HeapBridge.Object

/-- The forwarding bits in place. -/
def forwardingMask : Word := 0x0300000000000000

/-- The part of a header word that holds the new place. -/
def placeMask : Word := 0x00ffffffffffffff

/-- The forwarding bits of a header word. -/
def forwardingBits (header : Word) : UInt8 := ((header &&& forwardingMask) >>> 56).toUInt8

/-- Where a header word says that its object is, if the object has moved. -/
def forwardedTo? (header : Word) : Option ObjectRef :=
  if header &&& forwardingMask = 0 then none else some (header &&& placeMask)

/-- The header word of an object that has moved to `place`. -/
def forwardingWord (place : ObjectRef) : Word := forwardingMask ||| place

/-- The header word of an object. -/
def header (m : Memory) (o : ObjectRef) : Except Fault Word := m.load o .wide

/-- The forwarding bits of an object. -/
def status (m : Memory) (o : ObjectRef) : Except Fault UInt8 := return forwardingBits (← header m o)

/-- The new place of an object, if it has moved. -/
def placeOf? (m : Memory) (o : ObjectRef) : Except Fault (Option ObjectRef) :=
  return forwardedTo? (← header m o)

/-- Whether an object has moved. -/
def hasMoved (m : Memory) (o : ObjectRef) : Except Fault Bool := return (← placeOf? m o).isSome

/-- Records in the header of `o` that it has moved to `place`. -/
def forward (m : Memory) (o place : ObjectRef) : Except Fault Memory :=
  if place &&& ~~~placeMask = 0 then m.store o .wide (forwardingWord place)
  else .error (.forwardedTooFar place)

end HeapBridge.Object
