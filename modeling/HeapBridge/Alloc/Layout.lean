import HeapBridge.Alloc.Selector

/-!
# Record layout

Compiled code reaches into the collector's records at fixed offsets. The layout of a record follows
from its fields: each is put at the next multiple of its alignment, and the whole is padded to the
largest alignment in it.
-/
namespace HeapBridge.Alloc.Layout

/-- Size and alignment of a field or a record. -/
structure Shape where
  size : Nat
  align : Nat
deriving DecidableEq

/-- The next multiple of `align`. -/
def roundUp (n align : Nat) : Nat := (n + align - 1) / align * align

/-- The offsets of fields that follow one another, the first after `start` bytes. -/
def offsets (start : Nat) : List Shape → List Nat
  | [] => []
  | f :: fs =>
    let o := roundUp start f.align
    o :: offsets (o + f.size) fs

/-- The record made of fields in order. -/
def Shape.ofFields (fields : List Shape) : Shape :=
  let align := fields.foldl (fun a f => max a f.align) 1
  let last := fields.foldl (fun n f => roundUp n f.align + f.size) 0
  ⟨roundUp last align, align⟩

/-- The offset of field `i`. -/
def offsetOf (fields : List Shape) (i : Nat) : Nat := (offsets 0 fields).getD i 0

/-- `n` records in a row. -/
def Shape.array (s : Shape) (n : Nat) : Shape := ⟨s.size * n, s.align⟩

def word : Shape := ⟨8, 8⟩
def byte : Shape := ⟨1, 1⟩

/-- A pointer with a table of methods beside it. -/
def fatPointer : Shape := .ofFields [word, word]

/-- Cursor, then limit. -/
def bumpFields : List Shape := [word, word]
def bump : Shape := .ofFields bumpFields

/-- Owner, bump pointer, space, context. -/
def bumpAllocatorFields : List Shape := [word, bump, fatPointer, word]
def bumpAllocator : Shape := .ofFields bumpAllocatorFields

def largeObjectAllocator : Shape := .ofFields [word, word, word]
def mallocAllocator : Shape := .ofFields [word, word, word]

/-- Owner, bump pointer, space, context, two flags, second bump pointer, two flags, line. -/
def immixAllocatorFields : List Shape :=
  [word, bump, word, word, byte, byte, bump, byte, byte, word]
def immixAllocator : Shape := .ofFields immixAllocatorFields

def freeListAllocator : Shape := .ofFields (List.replicate 7 word)

/-- A bump allocator and nothing else. -/
def markCompactAllocator : Shape := .ofFields [bumpAllocator]

/-- The allocators of a mutator: bump, large object, malloc, immix, free list, mark compact. -/
def allocatorsFields : List Shape :=
  [bumpAllocator.array 6, largeObjectAllocator.array 2, mallocAllocator.array 1,
    immixAllocator.array 1, freeListAllocator.array 2, markCompactAllocator.array 1]
def allocators : Shape := .ofFields allocatorsFields

def mutatorConfig : Shape := .ofFields [word, word, fatPointer, fatPointer]

/-- Allocators, barrier, owner, plan, configuration. -/
def mutatorFields : List Shape := [allocators, fatPointer, word, fatPointer, mutatorConfig]
def mutator : Shape := .ofFields mutatorFields

/-- A working copy, and the place of the record it was copied from. -/
def context : Shape := .ofFields [mutator, word]

/-- A kind and an index. -/
def selector : Shape := .ofFields [byte, byte]

/-- A kind and two offsets. -/
def bumpInfo : Shape := .ofFields [byte, word, word]

/-- A table of `n` functions. -/
def functionTable (n : Nat) : Shape := word.array n

/-- The sizes of all records that cross a boundary, by the names they have there. -/
def recordSizes : List (String × Nat) :=
  [("Allocators", allocators), ("AllocatorInfo", bumpInfo), ("AllocatorSelector", selector),
    ("BumpAllocator", bumpAllocator), ("BumpPointer", bump), ("Downcalls", functionTable 21),
    ("FreeListAllocator", freeListAllocator), ("HostCallbacks", functionTable 35),
    ("ImmixAllocator", immixAllocator), ("LargeObjectAllocator", largeObjectAllocator),
    ("MallocAllocator", mallocAllocator), ("MarkCompactAllocator", markCompactAllocator),
    ("Mutator", mutator), ("MutatorConfig", mutatorConfig), ("MutatorContext", context),
    ("Upcalls", functionTable 43)].map fun p => (p.1, p.2.size)

/-- The record sizes that this side was laid out with. -/
def ours : RecordSizes := ⟨.ofNat immixAllocator.size, .ofNat freeListAllocator.size⟩

/-- Where compiled code finds the bump pointer of an allocator. -/
inductive Info
  | bump (limitOffset cursorOffset : Nat)
  /-- The allocator has a fast path that is not laid out yet. -/
  | unimplemented
  | none
deriving DecidableEq

/-- The offsets of cursor and limit of a bump pointer that starts at `base`. -/
def bumpAt (base : Nat) : Info := .bump (base + offsetOf bumpFields 1) (base + offsetOf bumpFields 0)

/-- Where compiled code finds the bump pointer of the selected allocator, from the start of a
mutator. Indices are not checked. -/
def info : Selector → Info
  | .bump i => bumpAt (offsetOf mutatorFields 0 + offsetOf allocatorsFields 0 +
      bumpAllocator.size * i.toNat + offsetOf bumpAllocatorFields 1)
  | .immix i => bumpAt (offsetOf mutatorFields 0 + offsetOf allocatorsFields 3 +
      immixAllocator.size * i.toNat + offsetOf immixAllocatorFields 1)
  | .markCompact i => bumpAt (offsetOf mutatorFields 0 + offsetOf allocatorsFields 5 +
      markCompactAllocator.size * i.toNat + offsetOf bumpAllocatorFields 1)
  | .freeList _ => .unimplemented
  | _ => .none

example : mutator.size = 688 ∧ allocators.size = 600 ∧ immixAllocator.size = 80 := by decide

end HeapBridge.Alloc.Layout
