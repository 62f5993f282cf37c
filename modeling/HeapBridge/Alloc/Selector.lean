import HeapBridge.Word
import HeapBridge.Text.Record

/-!
# Allocators of a mutator

Which allocator serves a request, what the request asks for, and the sizes of the records that the
collector and the mutator side have to agree on.
-/
namespace HeapBridge.Alloc

/-- One allocator of a mutator, by kind and index. -/
inductive Selector
  | bump (index : UInt8)
  | largeObject (index : UInt8)
  | malloc (index : UInt8)
  | immix (index : UInt8)
  | markCompact (index : UInt8)
  | freeList (index : UInt8)
  | none
deriving DecidableEq, Inhabited

namespace Selector

/-- The place of a kind among the kinds. -/
def rank : Selector → Nat
  | bump _ => 0
  | largeObject _ => 1
  | malloc _ => 2
  | immix _ => 3
  | markCompact _ => 4
  | freeList _ => 5
  | none => 6

/-- The index within the kind. -/
def index : Selector → Nat
  | bump i | largeObject i | malloc i | immix i | markCompact i | freeList i => i.toNat
  | none => 0

/-- Three-way comparison, by kind and then by index. -/
def compareSign (s t : Selector) : Int :=
  if s.rank < t.rank then -1
  else if t.rank < s.rank then 1
  else if s.index < t.index then -1
  else if t.index < s.index then 1
  else 0

def kindName : Selector → String
  | bump _ => "BumpPointer"
  | largeObject _ => "LargeObject"
  | malloc _ => "Malloc"
  | immix _ => "Immix"
  | markCompact _ => "MarkCompact"
  | freeList _ => "FreeList"
  | none => "None"

/-- The selector of a kind, if the kind is known. -/
def ofKind? (kind : String) (index : UInt8) : Option Selector :=
  [bump index, largeObject index, malloc index, immix index, markCompact index,
    freeList index].find? fun s => s.kindName == kind

/-- A selector in diagnostics. -/
def describe : Selector → String
  | none => "None"
  | s => Text.applied s.kindName [toString s.index]

end Selector

/-- What an allocation asks for. -/
inductive Semantics
  | default
  | immortal
  | largeObject
  | code
  | readOnly
  | largeCode
  | nonMoving
deriving DecidableEq, Inhabited

namespace Semantics

def all : List Semantics :=
  [default, immortal, largeObject, code, readOnly, largeCode, nonMoving]

def name : Semantics → String
  | default => "Default"
  | immortal => "Immortal"
  | largeObject => "Los"
  | code => "Code"
  | readOnly => "ReadOnly"
  | largeCode => "LargeCode"
  | nonMoving => "NonMoving"

def number : Semantics → Int
  | default => 0
  | immortal => 1
  | largeObject => 2
  | code => 3
  | readOnly => 4
  | largeCode => 5
  | nonMoving => 6

def ofNumber? (i : Int) : Option Semantics := all.find? fun s => s.number == i

@[simp] theorem ofNumber?_number (s : Semantics) : ofNumber? s.number = some s := by
  cases s <;> rfl

end Semantics

/-- The sizes of the two allocator records whose layout changes most between collectors. -/
structure RecordSizes where
  immix : Word
  freeList : Word
deriving DecidableEq, Inhabited

/-- The sizes in diagnostics. -/
def RecordSizes.describe (s : RecordSizes) : String :=
  Text.record "AllocatorSizes" [("immix_allocator", toString s.immix.toNat),
    ("free_list_allocator", toString s.freeList.toNat)]

end HeapBridge.Alloc
