import HeapBridge.Word
import HeapBridge.Text.Record

/-!
# Class layout

The sizes of the seven class records that a collector reads directly. A checksum of them is
compared when the mutator side starts.
-/
namespace HeapBridge.Object

/-- The sizes of the class records of the running virtual machine. -/
structure ClassLayout where
  klass : Word
  instanceKlass : Word
  instanceRefKlass : Word
  instanceMirrorKlass : Word
  instanceClassLoaderKlass : Word
  typeArrayKlass : Word
  objArrayKlass : Word
deriving DecidableEq, Inhabited

namespace ClassLayout

/-- All sizes, in order. -/
def sizes (l : ClassLayout) : List Word :=
  [l.klass, l.instanceKlass, l.instanceRefKlass, l.instanceMirrorKlass,
    l.instanceClassLoaderKlass, l.typeArrayKlass, l.objArrayKlass]

/-- Reads a layout from its seven sizes. -/
def ofSizes? : List Word → Option ClassLayout
  | [a, b, c, d, e, f, g] => some ⟨a, b, c, d, e, f, g⟩
  | _ => none

@[simp] theorem ofSizes?_sizes (l : ClassLayout) : ofSizes? l.sizes = some l := rfl

/-- The exclusive or of all sizes. -/
def checksum (l : ClassLayout) : Word := l.sizes.foldl (· ^^^ ·) 0

/-- A layout in diagnostics. -/
def describe (l : ClassLayout) : String :=
  Text.record "KlassLayout"
    ((["klass", "instance_klass", "instance_ref_klass", "instance_mirror_klass",
      "instance_class_loader_klass", "type_array_klass", "obj_array_klass"].zip l.sizes).map
        fun f => (f.1, toString f.2.toNat))

end ClassLayout
end HeapBridge.Object
