import HeapBridge.Fault
import HeapBridge.Settings

/-!
# Shown values

Values as they are shown outside the library: truth values, numbers, texts, lists and named fields. A
fault is shown as such and stands where a value was wanted.
-/
namespace HeapBridge

/-- A value as it is shown. -/
inductive Datum
  /-- There is no value. -/
  | absent
  | flag (b : Bool)
  | number (i : Int)
  | text (s : String)
  | list (items : List Datum)
  | record (fields : List (String × Datum))
  | fault (f : Fault)
deriving Inhabited

/-- Types whose values can be shown. -/
class ToDatum (α : Type) where
  datum : α → Datum

export ToDatum (datum)

/-- Types whose values have names. -/
class Named (α : Type) where
  all : List α
  name : α → String

/-- The value of a name. -/
def Named.ofName? {α : Type} [Named α] (s : String) : Option α :=
  (Named.all : List α).find? fun a => Named.name a == s

namespace Datum

/-- A list that starts with a name. -/
def labelled (label : String) (items : List Datum) : Datum := .list (.text label :: items)

/-- A field that is left out if its list is empty. -/
def unlessEmpty (label : String) (items : List Datum) : List (String × Datum) :=
  if items.isEmpty then [] else [(label, .list items)]

end Datum

section Structures
variable {α β γ : Type} [ToDatum α] [ToDatum β] [ToDatum γ]

instance : ToDatum Datum := ⟨id⟩
instance : ToDatum Unit := ⟨fun _ => .absent⟩
instance : ToDatum Bool := ⟨.flag⟩
instance : ToDatum String := ⟨.text⟩
instance : ToDatum Int := ⟨.number⟩
instance : ToDatum Nat := ⟨fun n => .number n⟩
instance : ToDatum UInt8 := ⟨fun b => .number b.toNat⟩
instance : ToDatum Word := ⟨fun w => .text (Text.hex w)⟩
instance : ToDatum Fault := ⟨.fault⟩
instance : ToDatum (Option α) := ⟨fun a => a.elim .absent datum⟩
instance : ToDatum (List α) := ⟨fun as => .list (as.map datum)⟩
instance : ToDatum (α × β) := ⟨fun p => .list [datum p.1, datum p.2]⟩
instance : ToDatum (α × β × γ) := ⟨fun p => .list [datum p.1, datum p.2.1, datum p.2.2]⟩

end Structures

/-! ## Values with names -/

instance : Named Role := ⟨Role.all, Role.name⟩
instance : Named WorldState := ⟨WorldState.all, WorldState.name⟩
instance : Named ThreadState := ⟨ThreadState.all, ThreadState.name⟩
instance : Named CollectorThreadKind := ⟨CollectorThreadKind.all, CollectorThreadKind.name⟩
instance : Named AllocationError := ⟨AllocationError.all, AllocationError.name⟩
instance : Named LoadMode := ⟨LoadMode.all, LoadMode.name⟩
instance : Named Settings.Key := ⟨Settings.Key.all, Settings.Key.name⟩
instance : Named Alloc.Semantics := ⟨Alloc.Semantics.all, Alloc.Semantics.name⟩
instance : Named Barrier.Entry := ⟨Barrier.Entry.all, Barrier.Entry.name⟩
instance : Named Barrier.Operand := ⟨Barrier.Operand.all, Barrier.Operand.name⟩
instance : Named Barrier.Strength := ⟨Barrier.Strength.all, Barrier.Strength.name⟩
instance : Named Barrier.BaseFacts := ⟨Barrier.BaseFacts.all, Barrier.BaseFacts.name⟩

instance {α : Type} [Named α] : ToDatum α := ⟨fun a => .text (Named.name a)⟩

/-! ## Threads, settings and reports -/

instance : ToDatum Thread := ⟨fun t => datum t.handle⟩

/-- What can be told of a thread: whether its handle is that of no thread, the handle, the handle and
the mutator in diagnostics, and how the handle compares with those that stand for nothing. -/
def Thread.aspects (t : Thread) : Datum :=
  let null := datum t.isNull
  .list [null, datum t.handle, datum (describeHandle t.handle), null, datum t.describeMutator, null,
    null]

instance : ToDatum Diagnostic := ⟨fun d => .text d.line⟩

/-- The value of an option. -/
def Settings.datumOf (s : Settings) : Settings.Key → Datum
  | .barrierFastPath => datum (s.get .barrierFastPath)
  | .compressedReferences => datum (s.get .compressedReferences)
  | .noArrayCopyBarrier => datum (s.get .noArrayCopyBarrier)
  | .loadBarrier => datum (s.get .loadBarrier)
  | .loadBarrierMode => datum (s.get .loadBarrierMode)
  | .unknownLoadShortCircuit => datum (s.get .unknownLoadShortCircuit)
  | .fastAllocDisabled => datum (s.get .fastAllocDisabled)
  | .largeBumpThreshold => datum (s.get .largeBumpThreshold)
  | .companionName => datum (s.get .companionName)

instance : ToDatum Settings := ⟨fun s => .record (Settings.Key.all.map fun k => (k.name, s.datumOf k))⟩

end HeapBridge
