import HeapBridge.World.State

/-!
# Threads at work

The walk over the application threads that have a record, and the transitions of a thread between
managed code, the virtual machine and being blocked.
-/
namespace HeapBridge.World

/-- The virtual machine, for a look at its list of threads. -/
def listedHost : Act World StandIn.Host := Act.look (·.host.listed)

/-- The threads that a walk has still to visit. A walk that begins visits the threads there are. -/
def pendingWalk : Act World (List Thread) := do
  match (← get).walk with
  | some threads => return threads
  | none => return (← listedHost).threadList

/-- The next thread with a record. At its end a walk is over, and the next call begins another. A
thread whose record cannot be looked up is not visited again. -/
def nextMutator : Act World (Option Thread) := do
  let threads ← pendingWalk
  let w ← get
  match threads.dropWhile fun t => !w.host.listBroken && !w.host.hasRecord t with
  | [] =>
    set { w with walk := none }
    return none
  | t :: rest =>
    set { w with walk := some rest }
    discard listedHost
    return some t

/-- Abandons the walk. -/
def resetWalk : Act World Unit := modify fun w => { w with walk := none }

/-- The thread of the record that belongs to a thread. -/
def mutatorOf (t : Thread) : Act World (Option Thread) := do
  return if (← listedHost).hasRecord t then some t else none

/-- Whether a thread is none of the collector's. -/
def isMutator (t : Thread) : Act World Bool := do
  return !t.isNull && !(← get).host.collectorThreads.contains t

/-- Adds an application thread. -/
def addThread (t : Thread) : Act World Unit := do
  discard listedHost
  setHost (·.addThread t)

/-- Takes the record of the thread at a place away. If there is no such place the list of threads is
lost. -/
def unbindThread (i : Word) : Act World Unit := do
  match (← listedHost).unbind i.toNat with
  | .ok h => setHost fun _ => h
  | .error f =>
    setHost (·.breakList)
    throw f

/-- How many application threads there are, and how many of them have a record. -/
def countThreads : Act World (Nat × Nat) := do
  let h ← listedHost
  return (h.threads.length, h.boundCount)

/-- Changes where a thread is executing. -/
def setThreadState (t : Thread) (s : ThreadState) : Act World Unit := do
  emit (.setState t s)
  setHost (·.setState t s)

/-- Moves the calling thread into the virtual machine. Gives the number of the state it came from. -/
def enterVm : Act World Int := do
  let w ← get
  unless (← listedHost).isApplicationThread w.thread do throw (.enterByOther w.thread)
  setThreadState w.thread .inVm
  return (w.host.state w.thread).code

/-- Moves the calling thread out of the virtual machine, into the state of a number. -/
def leaveVm (code : Int) : Act World Unit := do
  let w ← get
  unless (← listedHost).isApplicationThread w.thread do throw .leaveByOther
  unless w.host.state w.thread = .inVm do throw .leaveUnmatched
  match ThreadState.ofCode? code with
  | none => throw (.noThreadState code)
  | some s => setThreadState w.thread s

/-- Marks a thread as blocked for a collection. Gives the state to restore, if there is one. -/
def beginBlock (t : Thread) : Act World (Option ThreadState) := do
  let h ← listedHost
  if h.isApplicationThread t then
    setThreadState t .blocked
    return some (h.state t)
  else return none

/-- Puts a thread back into the state in which it was blocked. -/
def endBlock (t : Thread) (previous : Option ThreadState) : Act World Unit :=
  previous.forM (setThreadState t)

/-- Blocks a thread and lets it go again after a restart. Tells whether it is an application thread,
and where it is executing then. -/
def waitOutCollection (t : Thread) : Act World (Bool × ThreadState) := do
  endBlock t (← beginBlock t)
  let h ← listedHost
  return (h.isApplicationThread t, h.state t)

/-- Starts a collector thread of a kind given by number. -/
def spawnThread (t : Thread) (kind : Int) (context : Word) : Act World Unit :=
  match CollectorThreadKind.ofCode? kind with
  | some k => emit (.spawnThread t k context)
  | none => throw (.noThreadKind kind)

/-- The kinds of the collector threads started so far. -/
def spawned (w : World) : List CollectorThreadKind :=
  w.trace.filterMap fun e => match e with
    | .spawnThread _ k _ => some k
    | _ => none

/-- Tells the virtual machine that an allocation failed for good. -/
def outOfMemory (t : Thread) (error : AllocationError) : Act World Unit := do
  report (.outOfMemory t error)
  emit (.outOfMemory t error)

/-- All allocations that failed for good. -/
def memoryFailures (w : World) : List (Thread × AllocationError) :=
  w.trace.filterMap fun e => match e with
    | .outOfMemory t error => some (t, error)
    | _ => none

end HeapBridge.World
