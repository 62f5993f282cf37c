import HeapBridge.Text.Hex
import HeapBridge.Text.Record

/-!
# Reference accesses

The four kinds of access that a barrier guards, with what is known about each before it runs and
the words that it supplies while it runs.
-/
namespace HeapBridge.Barrier

/-- The strength of the reference that a load reads. -/
inductive Strength
  | strong
  | soft
  | weak
  | phantom
  /-- A reflective access, which may read the referent of a reference object. -/
  | unknown
deriving DecidableEq, Inhabited

namespace Strength

def all : List Strength := [strong, soft, weak, phantom, unknown]

def name : Strength → String
  | strong => "Strong"
  | soft => "Soft"
  | weak => "Weak"
  | phantom => "Phantom"
  | unknown => "Unknown"

end Strength

/-- What is known of the class of a base object before the access runs. -/
inductive BaseFacts
  | unknown
  | array
  /-- A loaded class none of whose instances is a reference object. -/
  | notReference
  | maybeReference
deriving DecidableEq, Inhabited

namespace BaseFacts

def all : List BaseFacts := [unknown, array, notReference, maybeReference]

def name : BaseFacts → String
  | unknown => "Unknown"
  | array => "Array"
  | notReference => "NotReference"
  | maybeReference => "MaybeReference"

/-- Whether the facts rule out that the base is a reference object. -/
def excludeReference : BaseFacts → Bool
  | array | notReference => true
  | unknown | maybeReference => false

end BaseFacts

/-- A store of `target` into `slot` of `src`. -/
structure Store where
  src : ObjectRef
  slot : Address
  target : ObjectRef
  inHeap : Bool
  /-- The stored value is the constant null. -/
  nullConstant : Bool
  /-- The written object was allocated just before, with no safepoint in between. -/
  freshObject : Bool
  /-- The offset of the field is filled in only when the access first runs. -/
  needsPatching : Bool
deriving DecidableEq, Inhabited

/-- A null put into a fresh object overwrites null, so nothing has to be recorded. -/
def Store.isElidable (s : Store) : Bool := s.nullConstant && s.freshObject

/-- A load that produced `value` from `slot`, which lies `offset` bytes into `base`. -/
structure Load where
  base : ObjectRef
  offset : Int64
  offsetIsConstant : Bool
  slot : Address
  value : ObjectRef
  strength : Strength
  inHeap : Bool
  facts : BaseFacts
deriving DecidableEq, Inhabited

/-- A copy of `count` slots. -/
structure ArrayCopy where
  src : Address
  dst : Address
  count : Word
  /-- The elements are references. -/
  ofReferences : Bool
  freshTarget : Bool
deriving DecidableEq, Inhabited

/-- A shallow copy of an object of `size` bytes. -/
structure Clone where
  src : ObjectRef
  dst : ObjectRef
  size : Word
  freshTarget : Bool
deriving DecidableEq, Inhabited

/-- A reference access. -/
inductive Access
  | store (s : Store)
  | load (l : Load)
  | arrayCopy (c : ArrayCopy)
  | clone (c : Clone)
deriving DecidableEq, Inhabited

/-- A word that the access itself supplies to compiled code. -/
inductive Operand
  /-- The object of a field access, or the source of a clone. -/
  | base
  | slot
  /-- The stored value, or the value that a load produced. -/
  | value
  | offset
  | src
  | dst
  | count
  | size
deriving DecidableEq, Inhabited

namespace Operand

def all : List Operand := [base, slot, value, offset, src, dst, count, size]

def name : Operand → String
  | base => "Base"
  | slot => "Slot"
  | value => "Value"
  | offset => "Offset"
  | src => "Src"
  | dst => "Dst"
  | count => "Count"
  | size => "Size"

end Operand

namespace Access

/-- The word an access supplies for an operand, if it has one. -/
def operand? : Access → Operand → Option Word
  | store s, .base => some s.src
  | store s, .slot => some s.slot
  | store s, .value => some s.target
  | load l, .base => some l.base
  | load l, .slot => some l.slot
  | load l, .value => some l.value
  | load l, .offset => some l.offset.toUInt64
  | arrayCopy c, .src => some c.src
  | arrayCopy c, .dst => some c.dst
  | arrayCopy c, .count => some c.count
  | clone c, .base => some c.src
  | clone c, .dst => some c.dst
  | clone c, .size => some c.size
  | _, _ => none

open Text in
/-- An access in diagnostics. -/
def describe : Access → String
  | store s => applied "Store" [record "StoreSite" [("src", hex s.src), ("slot", hex s.slot),
      ("target", hex s.target), ("in_heap", bool s.inHeap),
      ("target_is_null_constant", bool s.nullConstant),
      ("dst_just_allocated", bool s.freshObject), ("needs_patching", bool s.needsPatching)]]
  | load l => applied "Load" [record "LoadSite" [("base", hex l.base),
      ("offset", toString l.offset.toInt), ("offset_is_constant", bool l.offsetIsConstant),
      ("slot", hex l.slot), ("value", hex l.value), ("strength", l.strength.name),
      ("in_heap", bool l.inHeap), ("base_facts", l.facts.name)]]
  | arrayCopy c => applied "ArrayCopy" [record "ArrayCopySite" [("src", hex c.src),
      ("dst", hex c.dst), ("count", toString c.count.toNat), ("is_oop", bool c.ofReferences),
      ("dest_uninitialized", bool c.freshTarget)]]
  | clone c => applied "Clone" [record "CloneSite" [("src", hex c.src), ("dst", hex c.dst),
      ("size", toString c.size.toNat), ("dst_just_allocated", bool c.freshTarget)]]

end Access
end HeapBridge.Barrier
