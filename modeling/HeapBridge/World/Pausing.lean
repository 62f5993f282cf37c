import HeapBridge.Pause.Inline
import HeapBridge.World.Scanning
import HeapBridge.World.Threads

/-!
# Pauses at work

The calls through which the collector stops and restarts the world, and those that hand operations to
the VM thread.
-/
namespace HeapBridge.World

open Pause (Action Caller System)

/-- What there is to tell an operator of an event. -/
def diagnosticOf? : Pause.Event → Option Diagnostic
  | .report d => some d
  | _ => none

/-- Takes over a later state of the threads that stop the world, with what happened since. -/
def adopt (s : System) : Act World Unit :=
  modify fun w =>
    let fresh := s.history.drop w.pause.history.length
    { w with
      pause := s
      trace := w.trace ++ fresh.map .pause
      diagnostics := w.diagnostics ++ fresh.filterMap diagnosticOf? }

/-- Changes the threads that stop the world, and lets them run until all of them wait. -/
def drive (f : System → System) : Act World Unit := do adopt (f (← get).pause).settle

/-- The calling thread among the callers of the companion. -/
def self : Nat := 0

/-- Another thread among the callers of the companion. -/
def other : Nat := 1

/-- Refuses threads that take part in a pause, and application threads. -/
def checkRequester (call : PauseCall) : Act World Unit := do
  let w ← get
  unless w.role.mayRequestPauses do throw (.pauseCallByRole call w.role)
  if (← listedHost).isApplicationThread w.thread then throw (.pauseCallByApplication call)

/-- Lets all threads run after a call of a caller. Refuses a call that would never return. -/
def settleFor (n : Nat) (s : System) : Act World Unit := do adopt (← Act.lift (s.finish n))

/-- Asks for a state of the world, and waits for it if told to. -/
def request (state : WorldState) (wait : Bool) : Act World Unit := do
  checkRequester .request
  settleFor self (← Act.lift ((← get).pause.request self state wait))

/-- Waits for a state that was asked for. -/
def waitFor (state : WorldState) : Act World Unit := do
  checkRequester .wait
  settleFor self (← Act.lift ((← get).pause.waitFor self state))

/-- Keeps the collector's work on stacks, or gives it up. -/
def keepStackScan (keep : Bool) : Act World Unit :=
  modify fun w => { w with stackScanKept := keep }

/-- Stops the world. Gives the threads whose stacks the collector has to scan. -/
def stopAll : Act World (List Thread) := do
  keepStackScan true
  emit .prologue
  request .suspended true
  emit .reportStart
  let h ← listedHost
  return h.threadList.filter h.hasRecord

/-- Sweeps weak slots, restarts the world and wakes the threads that are blocked for it. -/
def resumeAll : Act World Unit := do
  sweepAll
  emit .epilogue
  keepStackScan false
  request .resumed true
  modify fun w => { w with restarts := w.restarts.restart }

/-- The calling thread reports the world stopped, in the place of the VM thread. -/
def reachSuspended : Act World Unit := do
  let w ← get
  unless w.role = .vmThread do throw .notOnVmThread
  if w.pause.sync.desired ≠ .resumed then throw .wouldBlock
  drive System.reportStopped

/-- The marks and refusals that an operation left behind, from a place in the history on. -/
def operationLog (s : System) (start : Nat) : List Pause.Event :=
  (s.history.drop start).filter fun e => match e with
    | .mark .. | .refused _ => true
    | _ => false

/-- Hands an operation to the VM thread and waits for it. Gives the fault that it ended in. -/
def handOver (role : Role) (body : List Action) : Act World (Option Fault) := do
  settleFor self ((← get).pause.execute self role body)
  let s := (← get).pause
  match s.caller self with
  | .failed fault =>
    adopt (s.setCaller self .away)
    return some fault
  | _ => return none

/-- Runs an operation on the calling thread. Gives the fault that it ended in. -/
def runInPlace (body : List Action) : Act World (Option Fault) := do
  let (result, s) := (System.executeInPlace body).attempt (← get).pause
  match result with
  | .error .wouldBlock => throw .wouldBlock
  | .error fault =>
    adopt s.settle
    return some fault
  | .ok () =>
    adopt s.settle
    return none

/-- Refuses what would have to wait for the end of a pause. There is none once the companion has
ended, whatever was asked for since. -/
def checkNoPause : Act World Unit := do
  let s := (← get).pause
  unless s.companionJoined || s.states = (.resumed, .resumed) do throw .wouldBlock

/-- Executes an operation, on the VM thread or, with its role, in place, while no pause is under way.
Gives the log of the operation and the fault that it ended in. After a fault no VM thread is left. -/
def execute (body : List Action) : Act World (List Pause.Event × Option Fault) := do
  checkNoPause
  let w ← get
  let fault ← if w.role = .vmThread then runInPlace body else handOver w.role body
  if fault.isSome then adopt (← get).pause.joinVmThread
  return (operationLog (← get).pause w.pause.history.length, fault)

/-- References wait to be handled once a pause is over, or none do any more. -/
def setPendingList (pending : Bool) : Act World Unit :=
  modify fun w => { w with pause := { w.pause with pendingList := pending } }

/-- Counts a notification of the threads that wait for pending references. -/
def notifyHeap : Act World Unit :=
  modify fun w => { w with pause := { w.pause with lock := w.pause.lock.count } }

/-- Ends the threads that stop the world. -/
def shutDown : Act World Unit := do adopt (← Act.lift (← get).pause.shutDown)

/-- Opens or closes a critical region. -/
def setRegion (isOpen : Bool) : Act World Unit := drive (·.setRegion isOpen)

/-- Refuses what only returns if a pause can begin: the world runs, the companion waits for a request
and no critical region is open. -/
def checkIdle : Act World Unit := do
  let s := (← get).pause
  unless s.companion = .idle true && s.states = (.resumed, .resumed) && !s.regionOpen do
    throw .wouldBlock

/-- Refuses what only returns if a pause can begin and the VM thread is there to take it. -/
def checkPausable : Act World Unit := do
  checkIdle
  unless (← get).pause.vm.life = .running do throw .wouldBlock

/-- Blocks a thread for a pause that another thread ends at once. Tells whether it is an application
thread, and where it is executing then. -/
def blockForCollection (t : Thread) : Act World (Bool × ThreadState) := do
  checkIdle
  waitOutCollection t

/-- A thread other than the calling one asks for the world to stop, and waits for it if told to. -/
def requestStop (wait : Bool) : Act World Unit := do
  settleFor self (← Act.lift ((← get).pause.request self .suspended wait))

/-- Another thread asks for the world to stop while a critical region is open. The region is left
once the companion waits for that. Gives the state in which the companion waited. -/
def criticalPause : Act World System := do
  checkPausable
  setRegion true
  let s ← Act.lift ((← get).pause.request other .suspended true)
  adopt s.settle
  let seen := (← get).pause
  settleFor other (seen.setRegion false)
  return seen

/-- The VM thread takes a pause itself, from inside an operation of another thread. -/
def vmPause : Act World Unit := do
  checkPausable
  drive fun s => s.announce.execute other .unknown [.takePause]
  requestStop true

/-- The VM thread tries to take a pause while a critical region is open. Gives the state in which the
companion waited for the region to be left. -/
def criticalVmPause : Act World System := do
  checkPausable
  setRegion true
  drive fun s => s.announce.execute other .unknown [.takePause]
  requestStop false
  let seen := (← get).pause
  setRegion false
  settleFor self (← Act.lift ((← get).pause.waitFor self .suspended))
  return seen

end HeapBridge.World
