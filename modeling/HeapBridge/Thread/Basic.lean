import HeapBridge.Text.Hex
import HeapBridge.Text.Record

/-!
# Threads

A thread is known by the handle that the virtual machine gives out. Around it stand the closed
vocabularies of the hand-over protocol: what a thread is, where it executes, and the two states of
the world.
-/
namespace HeapBridge

/-- The handle of a thread. It is stored and handed back, never followed. -/
structure Thread where
  handle : Word
deriving DecidableEq, Inhabited

namespace Thread

/-- The handle of no thread. -/
def null : Thread := ⟨0⟩

/-- Whether the handle belongs to no thread. -/
def isNull (t : Thread) : Bool := t.handle == 0

/-- The bare handle in diagnostics. -/
def describeHandle (w : Word) : String := Text.applied "OpaquePointer" [Text.hex w]

/-- A thread in diagnostics. -/
def describe (t : Thread) : String := Text.applied "VMThread" [describeHandle t.handle]

/-- A thread in its part as an allocating application thread. -/
def describeMutator (t : Thread) : String := Text.applied "VMMutatorThread" [t.describe]

end Thread

/-- What the calling thread is, as far as stopping the world is concerned. -/
inductive Role
  | collector
  | vmThread
  | companion
  | mutator
  | unknown
deriving DecidableEq, Inhabited

namespace Role

def all : List Role := [collector, vmThread, companion, mutator, unknown]

def name : Role → String
  | collector => "Collector"
  | vmThread => "VmThread"
  | companion => "Companion"
  | mutator => "Mutator"
  | unknown => "Unknown"

/-- Threads that take part in a pause may not ask for one. -/
def mayRequestPauses : Role → Bool
  | collector | unknown => true
  | vmThread | companion | mutator => false

end Role

/-- Where an application thread is executing. -/
inductive ThreadState
  | inNative
  | inVm
  | inManaged
  | blocked
deriving DecidableEq, Inhabited

namespace ThreadState

def all : List ThreadState := [inNative, inVm, inManaged, blocked]

def name : ThreadState → String
  | inNative => "InNative"
  | inVm => "InVm"
  | inManaged => "InJava"
  | blocked => "Blocked"

/-- The number under which a state crosses the boundary. -/
def code : ThreadState → Int
  | inNative => 0
  | inVm => 1
  | inManaged => 2
  | blocked => 3

/-- Reads a state back from its number. -/
def ofCode? (i : Int) : Option ThreadState := all.find? fun s => s.code == i

@[simp] theorem ofCode?_code (s : ThreadState) : ofCode? s.code = some s := by cases s <;> rfl

end ThreadState

/-- The kinds of thread that a collector runs on. -/
inductive CollectorThreadKind
  | controller
  | worker
deriving DecidableEq, Inhabited

namespace CollectorThreadKind

def all : List CollectorThreadKind := [controller, worker]

def name : CollectorThreadKind → String
  | controller => "Controller"
  | worker => "Worker"

def code : CollectorThreadKind → Int
  | controller => 0
  | worker => 1

def ofCode? (i : Int) : Option CollectorThreadKind := all.find? fun k => k.code == i

@[simp] theorem ofCode?_code (k : CollectorThreadKind) : ofCode? k.code = some k := by
  cases k <;> rfl

end CollectorThreadKind

/-- The two states of the world. -/
inductive WorldState
  | suspended
  | resumed
deriving DecidableEq, Inhabited

namespace WorldState

def all : List WorldState := [suspended, resumed]

def name : WorldState → String
  | suspended => "Suspended"
  | resumed => "Resumed"

def code : WorldState → Int
  | suspended => 0
  | resumed => 1

def ofCode? (i : Int) : Option WorldState := all.find? fun s => s.code == i

@[simp] theorem ofCode?_code (s : WorldState) : ofCode? s.code = some s := by cases s <;> rfl

end WorldState

/-- Why an allocation failed for good. -/
inductive AllocationError
  | heapExhausted
  | mappingFailed
deriving DecidableEq, Inhabited

namespace AllocationError

def all : List AllocationError := [heapExhausted, mappingFailed]

def name : AllocationError → String
  | heapExhausted => "HeapOutOfMemory"
  | mappingFailed => "MmapOutOfMemory"

end AllocationError
end HeapBridge
