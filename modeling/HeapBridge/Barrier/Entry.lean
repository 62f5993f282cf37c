import HeapBridge.Text.Hex

/-!
# Collector entries

The entries of the collector that a barrier may call, and the calls that reach it. Compiled code
names an entry and passes bare words.
-/
namespace HeapBridge.Barrier

/-- A call into the collector. -/
inductive Call
  /-- A write to a slot that was found unlogged. -/
  | writeSlow (src : ObjectRef) (slot : Address) (target : ObjectRef)
  /-- A write whose slot was not looked up. -/
  | writePre (src : ObjectRef) (slot : Address) (target : ObjectRef)
  | loadReference (value : ObjectRef)
  | arrayCopyPre (src dst : Address) (count : Word)
  | clonePre (dst : ObjectRef)
deriving DecidableEq, Inhabited

/-- An entry as compiled code names it. -/
inductive Entry
  | writeSlow
  | writePre
  | loadReference
  | arrayCopyPre
  | clonePre
deriving DecidableEq, Inhabited

namespace Entry

def all : List Entry := [writeSlow, writePre, loadReference, arrayCopyPre, clonePre]

def name : Entry → String
  | writeSlow => "WriteSlow"
  | writePre => "WritePre"
  | loadReference => "LoadReference"
  | arrayCopyPre => "ArrayCopyPre"
  | clonePre => "ClonePre"

/-- The number of words an entry takes. -/
def arity : Entry → Nat
  | writeSlow | writePre | arrayCopyPre => 3
  | loadReference | clonePre => 1

/-- The symbol an entry is linked under. -/
def symbol : Entry → String
  | writeSlow => "mmtk_object_reference_write_slow"
  | writePre => "mmtk_object_reference_write_pre"
  | loadReference => "mmtk_load_reference"
  | arrayCopyPre => "mmtk_object_reference_array_copy_pre"
  | clonePre => "mmtk_object_reference_clone_pre"

/-- The call that an entry makes of its words, if their number is right. -/
def bind? : Entry → List Word → Option Call
  | writeSlow, [src, slot, target] => some (.writeSlow src slot target)
  | writePre, [src, slot, target] => some (.writePre src slot target)
  | loadReference, [value] => some (.loadReference value)
  | arrayCopyPre, [src, dst, count] => some (.arrayCopyPre src dst count)
  | clonePre, [dst] => some (.clonePre dst)
  | _, _ => none

/-- An entry takes exactly as many words as its arity says. -/
theorem bind?_isSome_iff (e : Entry) (args : List Word) :
    (e.bind? args).isSome ↔ args.length = e.arity := by
  rcases e <;> rcases args with _ | ⟨a, _ | ⟨b, _ | ⟨c, _ | ⟨d, args⟩⟩⟩⟩ <;> simp [bind?, arity]

end Entry

/-- The entry that a call came through. -/
def Call.entry : Call → Entry
  | writeSlow .. => .writeSlow
  | writePre .. => .writePre
  | loadReference .. => .loadReference
  | arrayCopyPre .. => .arrayCopyPre
  | clonePre .. => .clonePre

@[simp] theorem Entry.entry_of_bind? {e : Entry} {args : List Word} {c : Call}
    (h : e.bind? args = some c) : c.entry = e := by
  revert h
  rcases e <;> rcases args with _ | ⟨a, _ | ⟨b, _ | ⟨c', _ | ⟨d, args⟩⟩⟩⟩ <;>
    simp [bind?] <;> rintro rfl <;> rfl

end HeapBridge.Barrier
