import HeapBridge.Barrier.Tier
import HeapBridge.World.Allocation

/-!
# Barriers at work

Barriers over real memory: unlog bits are loaded from where the collector keeps them, calls reach the
collector, and the virtual machine knows which objects are reference objects.
-/
namespace HeapBridge.World

open Barrier (Access Call Executor Surroundings)

/-- Passes a call to the collector. If the mutator is known, an array copy is reported with it. -/
def passCall (mutator : Option Thread) (c : Call) : Act World Unit :=
  match mutator, c with
  | some t, .arrayCopyPre src dst count => emit (.mutatorArrayCopy t src dst count)
  | _, c => emit (.barrier c)

/-- Whether an object is a reference object. The virtual machine is not asked about null. -/
def isReferenceObject (o : ObjectRef) : Act World Bool := do
  if o = 0 then return false
  emit (.isReference o)
  return (← get).host.references.contains o

/-- The real surroundings of a barrier. -/
def surroundings (mutator : Option Thread) : Surroundings World where
  loadMetadata a := return (← readMemory (·.load a .byte)).toUInt8
  loadFlag := return if (← get).marking then 1 else 0
  isReference := isReferenceObject
  call := passCall mutator
  copy src dst size := updateMemory (·.copy src dst size)
  fence := pure ()

/-- Refuses a slot whose unlog bit is not in memory, if barriers look at unlog bits. -/
def checkUnlogBit (slot : Address) : Act World Unit := do
  let cfg := (← get).barrier
  if cfg.fastPath then discard (readMemory (cfg.unlogBits.loadByte · slot))

/-- The barrier of a write that is about to happen. -/
def writePre (src : ObjectRef) (slot : Address) (target : ObjectRef) : Act World Unit := do
  checkUnlogBit slot
  Barrier.Direct.writePre (← get).barrier (surroundings none) src slot target

/-- The barrier of a value that was loaded. -/
def loadReference (slot : Address) (value : ObjectRef) : Act World Unit := do
  checkUnlogBit slot
  Barrier.Direct.loadReference (← get).barrier (surroundings none) slot value

/-- The barrier of an array copy, made by the thread of a context if one is given. -/
def arrayCopyPre (i : Option Nat) (src dst : Address) (count : Word) : Act World Unit := do
  let w ← get
  let mutator := i.map fun i => (w.contexts i).record.thread
  Barrier.Direct.arrayCopyPre w.barrier (surroundings mutator) src dst count

/-- The barrier of an array copy, before which the context is bound if it was not. -/
def arrayCopyPreBound (i : Option Nat) (src dst : Address) (count : Word) : Act World Unit := do
  i.forM ensureBound
  arrayCopyPre i src dst count

/-- Copies an object with its barrier. -/
def clone (src dst : ObjectRef) (size : Word) (freshTarget : Bool) : Act World Unit :=
  Barrier.Direct.cloneInHeap (surroundings none) src dst size freshTarget

/-- Executes an access. -/
def access (executor : Executor) (a : Access) : Act World Unit := do
  (a.operand? .slot).forM checkUnlogBit
  executor.run (← get).barrier (surroundings none) a

/-- Marks a slot as unlogged. -/
def unlog (slot : Address) : Act World Unit := do
  let bits := (← get).barrier.unlogBits
  updateMemory (bits.unlog · slot)

/-- Whether a slot is unlogged. -/
def isUnlogged (slot : Address) : Act World Bool := do
  let bits := (← get).barrier.unlogBits
  readMemory (bits.isUnlogged · slot)

/-- Starts or ends marking beside the application. -/
def setMarking (on : Bool) : Act World Unit := modify fun w => { w with marking := on }

end HeapBridge.World
