import HeapBridge.Alloc.Bump
import HeapBridge.Alloc.Selector

/-!
# Mutator records

What the collector keeps for one allocating thread. Only the bump pointers and the owner matter on
this side; they are reached by key.
-/
namespace HeapBridge.Alloc

/-- The bump pointers of a record. -/
inductive PairKey
  | bump (i : Fin 6)
  | immix
  /-- The second buffer of the two-buffer allocator. -/
  | immixLarge
  | markCompact
deriving DecidableEq

namespace PairKey

/-- All keys, in the order of their names. -/
def all : List PairKey :=
  [bump 0, bump 1, bump 2, bump 3, bump 4, bump 5, immix, immixLarge, markCompact]

/-- The key of the first bump allocator. -/
def first : PairKey := bump 0

def name : PairKey → String
  | bump i => "BumpPointer" ++ toString i.val
  | immix => "Immix0"
  | immixLarge => "Immix0.large"
  | markCompact => "MarkCompact0"

end PairKey

/-- The key behind an index that has to be below `size`. -/
def checkIndex (size : Nat) (index : UInt8) (k : PairKey) : Except Fault (Option PairKey) :=
  if index.toNat < size then .ok (some k) else .error (.outOfBounds size index.toNat)

/-- Which of the buffers of an allocator is meant. -/
inductive PairSize
  | small
  | large
deriving DecidableEq, Inhabited

namespace PairSize

def all : List PairSize := [small, large]

def name : PairSize → String
  | small => "small"
  | large => "large"

end PairSize

/-- The buffer that a selected allocator allocates from first, if it has one. -/
def Selector.smallPair : Selector → Except Fault (Option PairKey)
  | .bump i => checkIndex 6 i (.bump (Fin.ofNat 6 i.toNat))
  | .immix i => checkIndex 1 i .immix
  | .markCompact i => checkIndex 1 i .markCompact
  | _ => .ok Option.none

/-- The second buffer of a selected allocator, if it has one. -/
def Selector.largePair : Selector → Except Fault (Option PairKey)
  | .immix i => checkIndex 1 i .immixLarge
  | _ => .ok Option.none

/-- One of the buffers of a selected allocator, if it has it. -/
def Selector.pair (s : Selector) : PairSize → Except Fault (Option PairKey)
  | .small => s.smallPair
  | .large => s.largePair

/-- The record of one mutator. -/
structure Record where
  thread : Thread
  pair : PairKey → Bump

namespace Record

/-- A record in which every word is zero. -/
def zeroed : Record := ⟨.null, fun _ => .empty⟩

instance : Inhabited Record := ⟨zeroed⟩

/-- A record without buffers. -/
def ofThread (t : Thread) : Record := { zeroed with thread := t }

/-- Replaces one bump pointer. -/
def setPair (r : Record) (k : PairKey) (b : Bump) : Record :=
  { r with pair := fun x => if x = k then b else r.pair x }

/-- Takes `size` bytes from the buffer under `k`, if there is one and it holds them. -/
def take? (r : Record) (k : Option PairKey) (size : Word) : Option (Address × Record) := do
  let k ← k
  let (a, b) ← (r.pair k).take? size
  return (a, r.setPair k b)

/-- The bump pointers that are not empty, by name. -/
def pairs (r : Record) : List (PairKey × Bump) :=
  (PairKey.all.map fun k => (k, r.pair k)).filter fun p => p.2 != Bump.empty

@[simp] theorem pair_setPair (r : Record) (k x : PairKey) (b : Bump) :
    (r.setPair k b).pair x = if x = k then b else r.pair x := rfl

end Record
end HeapBridge.Alloc
