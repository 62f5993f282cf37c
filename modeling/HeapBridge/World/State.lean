import HeapBridge.Alloc.Context
import HeapBridge.Barrier.Config
import HeapBridge.Pause.Schedule
import HeapBridge.Pause.Restarts
import HeapBridge.StandIn.Collector
import HeapBridge.StandIn.Host

/-!
# The mutator side at work

Everything that the mutator side keeps, together with the two partners that it connects: the
collector and the virtual machine. Whatever passes between them is kept in a trace.
-/
namespace HeapBridge

/-- Something that was asked of the collector or of the virtual machine. -/
inductive World.Event
  | bindMutator (t : Thread)
  | releaseMutator (t : Thread)
  | alloc (t : Thread) (size align offset : Word) (sem : Alloc.Semantics)
  | postAlloc (o : ObjectRef) (size : Word) (sem : Alloc.Semantics)
  | flushMutator (t : Thread)
  | destroyMutator (t : Thread)
  /-- An array copy, reported together with the thread that makes it. -/
  | mutatorArrayCopy (t : Thread) (src dst : Address) (count : Word)
  | barrier (c : Barrier.Call)
  | isLive (o : ObjectRef)
  | reportStart
  | metadataBase (compressed : Bool)
  | spawnThread (t : Thread) (kind : CollectorThreadKind) (context : Word)
  | outOfMemory (t : Thread) (error : AllocationError)
  | setState (t : Thread) (s : ThreadState)
  | prologue
  | epilogue
  | scanObject (o : ObjectRef) (followLoaders claimLoaders : Bool)
  | isReference (o : ObjectRef)
  | scanRoots (kind : Scan.RootKind)
  | scanThreadRoots (t : Thread)
  | scanLoaderRoots (weak : Bool)
  | sweep (storage : Scan.WeakStorage)
  | scheduleFinalizer
  | prepareRescan
  | fixRelocations
  | pause (e : Pause.Event)
deriving DecidableEq, Inhabited

namespace World.Event

/-- A slow allocation. -/
def isAlloc : World.Event → Bool
  | alloc .. => true
  | _ => false

/-- The announcement of a new object. -/
def isPostAlloc : World.Event → Bool
  | postAlloc .. => true
  | _ => false

def isFlush : World.Event → Bool
  | flushMutator _ => true
  | _ => false

def isDestroy : World.Event → Bool
  | destroyMutator _ => true
  | _ => false

def isRelease : World.Event → Bool
  | releaseMutator _ => true
  | _ => false

def isMutatorArrayCopy : World.Event → Bool
  | mutatorArrayCopy .. => true
  | _ => false

/-- The barrier entry that an event came through, if it did. -/
def call? : World.Event → Option Barrier.Call
  | barrier c => some c
  | mutatorArrayCopy _ src dst count => some (.arrayCopyPre src dst count)
  | _ => none

end World.Event

/-- The mutator side and its surroundings. -/
structure World where
  memory : Memory
  /-- The encoding of narrow slots that is in force. -/
  encoding : Option Slot.Encoding
  /-- What the calling thread is. -/
  role : Role
  /-- The calling thread, as the virtual machine knows it. -/
  thread : Thread
  collector : StandIn.Collector
  host : StandIn.Host
  barrier : Barrier.Config
  allocation : Alloc.Config
  /-- The encoding that scans use. -/
  heapEncoding : Option Slot.Encoding
  /-- Marking runs beside the application. -/
  marking : Bool
  /-- The threads that a walk has still to visit, while one is under way. -/
  walk : Option (List Thread)
  /-- The collector's work on stacks is kept for the pause. -/
  stackScanKept : Bool
  pause : Pause.System
  restarts : Pause.Restarts
  contexts : Nat → Alloc.Context
  trace : List World.Event
  diagnostics : List Diagnostic

namespace World

/-- The memory that slots, objects and metadata live in. -/
def arena : Memory := .zeroed 0x10000000 0x10000

/-- A mutator side that has not started. -/
def initial : World where
  memory := arena
  encoding := none
  role := .unknown
  thread := .null
  collector := .initial
  host := .initial
  barrier := .ofSettings .defaults 0 16
  allocation := ⟨0, .none, false, Units.defaultLargeBumpThreshold⟩
  heapEncoding := none
  marking := false
  walk := none
  stackScanKept := false
  pause := .initial
  restarts := .none
  contexts := fun _ => .unbound
  trace := []
  diagnostics := []

instance : Inhabited World := ⟨initial⟩

/-- Adds an event to the trace. -/
def emit (e : Event) : Act World Unit := modify fun w => { w with trace := w.trace ++ [e] }

/-- Tells the operator. -/
def report (d : Diagnostic) : Act World Unit :=
  modify fun w => { w with diagnostics := w.diagnostics ++ [d] }

/-- How often something is in the trace. -/
def tally (w : World) (e : Event) : Nat := w.trace.count e

/-- How many events of a sort are in the trace. -/
def tallyOf (w : World) (p : Event → Bool) : Nat := w.trace.countP p

/-- The barrier entries that the collector has seen. -/
def calls (w : World) : List Barrier.Call := w.trace.filterMap Event.call?

/-- Changes the stand-in for the collector. -/
def setCollector (f : StandIn.Collector → StandIn.Collector) : Act World Unit :=
  modify fun w => { w with collector := f w.collector }

/-- Changes the stand-in for the virtual machine. -/
def setHost (f : StandIn.Host → StandIn.Host) : Act World Unit :=
  modify fun w => { w with host := f w.host }

/-- Does something to memory. -/
def onMemory {α : Type} (f : Memory → Except Fault (α × Memory)) : Act World α := do
  let (a, m) ← Act.lift (f (← get).memory)
  modify fun w => { w with memory := m }
  return a

/-- Replaces memory. -/
def updateMemory (f : Memory → Except Fault Memory) : Act World Unit :=
  onMemory fun m => do return ((), ← f m)

/-- Looks something up in memory. -/
def readMemory {α : Type} (f : Memory → Except Fault α) : Act World α := do
  Act.lift (f (← get).memory)

/-- Loads from a slot in the encoding that is in force. -/
def loadSlot (t : Slot.Tagged) : Act World ObjectRef := do
  let e := (← get).encoding
  readMemory (t.load e)

/-- Stores into a slot in the encoding that is in force. -/
def storeSlot (t : Slot.Tagged) (o : ObjectRef) : Act World Unit := do
  let e := (← get).encoding
  updateMemory (t.store o e)

/-- Puts an encoding into force. -/
def install (e : Option Slot.Encoding) : Act World Unit := modify fun w => { w with encoding := e }

/-- The calling thread becomes one that the virtual machine knows. -/
def attach (t : Thread) : Act World Unit := modify fun w => { w with thread := t }

/-- The calling thread takes a role. -/
def takeRole (r : Role) : Act World Unit := modify fun w => { w with role := r }

/-- Threads of the collector are not created here. One that is not known yet is taken for one. -/
def tagCollector : Act World Unit :=
  modify fun w => if w.role = .unknown then { w with role := .collector } else w

end World
end HeapBridge
