import HeapBridge.Pause.Schedule

/-!
# Operations in place

A thread with the role of the VM thread does not hand operations over. It runs them where it is, in the
safepoint that is open or in one of their own, without prologue and epilogue. Whatever it would have to
wait for is refused.
-/
namespace HeapBridge.Pause.System

/-- Does something in the open safepoint, or in one that is opened for it. After a fault the safepoint
stays open. -/
def atSafepointDo (act : Act System Unit) : Act System Unit := do
  if (← get).atSafepoint then act
  else
    modify openSafepoint
    act
    modify closeSafepoint

/-- Stops the world from the calling thread. Only a world that is wanted back at once can be. -/
def stopInPlace : Act System Unit := do
  modify (·.log .lockerCheck)
  let s ← get
  if s.regionOpen then set { s with sync := { s.sync with retryPending := true } }
  else if s.sync.desired = .resumed then set s.reportStopped
  else throw .wouldBlock

/-- Takes a pause that was handed over. -/
def takeInPlace : Act System Unit := do
  unless (← get).sync.handedToVm do throw .wouldBlock
  atSafepointDo stopInPlace
  modify fun s => { s.wakeAll with sync := { s.sync with handedToVm := false } }

mutual
/-- Does one thing of an operation. -/
def perform : Action → Act System Unit
  | .note => modify (·.note .body .vmThread)
  | .nested body noted => do
    atSafepointDo (performAll body)
    if noted then modify (·.note .nested .vmThread)
  | .announce => modify announce
  | .takePause => takeInPlace
  | .request _ => modify (·.log (.refused (.pauseCallByRole .request .vmThread)))
  | .giveUp => throw .gaveUp
  | .stopWorld => stopInPlace

/-- Does everything in an operation. -/
def performAll : List Action → Act System Unit
  | [] => pure ()
  | a :: as => do
    perform a
    performAll as
end

/-- Runs an operation on the calling thread. -/
def executeInPlace (body : List Action) : Act System Unit := atSafepointDo (performAll body)

end HeapBridge.Pause.System
