import HeapBridge.Pause.System

/-!
# Steps of the pause protocol

A step is what one thread does inside one critical section of the monitor, or between two of them.
Waiting is looking at a condition and going to sleep in the same step, so a thread that sleeps was
not woken since the condition last failed.
-/
namespace HeapBridge.Pause.System

/-! ## The companion -/

/-- Goes on if the world should stop or the companion should end, or to sleep. -/
def companionIdle (s : System) : System :=
  if s.sync.desired ≠ .suspended ∧ ¬ s.sync.terminating then { s with companion := .idle true }
  else if s.sync.terminating then { s with companion := .ended }
  else if s.sync.reached ≠ .resumed then { s with companion := .failed .notRunning }
  else { s with companion := .choosing }

/-- Hands the pause to the VM thread if that wants it. -/
def companionChooses (s : System) : System :=
  if s.sync.vmPauseAnnounced then
    if s.sync.retryPending then { s with companion := .failed .handOffInRetry }
    else
      { s.wakeAll with
        sync := { s.sync with vmPauseAnnounced := false, handedToVm := true }
        companion := .handedOff true }
  else { s with companion := .probing }

/-- Queues an operation for the VM thread. -/
def submit (s : System) (op : Operation) : System :=
  { s with vm := { s.vm with queue := s.vm.queue ++ [.run op] } }

/-- The operation that stops the world. -/
def stopOperation : Operation := ⟨.companion, [.stopWorld]⟩

/-- Tells everybody that the world runs again, unless the pause was only abandoned. -/
def companionCloses (s : System) : System :=
  if s.sync.retryPending then { s with companion := .top }
  else if s.sync.desired ≠ .resumed then { s with companion := .failed .resumeNotRequested }
  else if s.sync.reached ≠ .suspended then { s with companion := .failed .notStopped }
  else { s.wakeAll with sync := { s.sync with reached := .resumed }, companion := .top }

/-- One step of the companion, if it can make one. -/
def stepCompanion (s : System) : Option System :=
  match s.companion with
  | .top => some { s with companion := if s.sync.retryPending then .choosing else .entering }
  | .entering =>
    some (if s.sync.reached ≠ .resumed then { s with companion := .failed .notRunning }
      else s.companionIdle)
  | .idle false => some s.companionIdle
  | .choosing => some s.companionChooses
  | .handedOff false =>
    some { s with companion := if s.sync.handedToVm then .handedOff true else .closing }
  | .probing =>
    some (if s.sync.retryPending then { s.log .lockerStall with companion := .stalling }
      else { s with companion := .locking })
  | .stalling => if s.regionOpen then none else some { s with companion := .clearing }
  | .clearing =>
    some { s with sync := { s.sync with retryPending := false }, companion := .locking }
  | .locking =>
    if s.lock.locked then none
    else some { s with lock := { s.lock with locked := true }, companion := .submitting }
  | .submitting =>
    some (if s.vm.life = .running then { s.submit stopOperation with companion := .awaitingReply }
      else { s with companion := .failed .vmThreadGone })
  | .awaitingReply =>
    if s.vm.life = .running then none else some { s with companion := .failed .vmThreadLost }
  | .cleaning => some { s.log .cleanup with companion := .announcing }
  | .announcing =>
    some { s with lock := if s.pendingList then s.lock.count else s.lock, companion := .unlocking }
  | .unlocking => some { s with lock := { s.lock with locked := false }, companion := .closing }
  | .closing => some s.companionCloses
  | .idle true | .handedOff true | .ended | .failed _ => none

/-! ## The VM thread -/

/-- What has to be done to run a body in a safepoint of its own. -/
def inSafepoint (body : List Duty) : List Duty := [.openSafepoint] ++ body ++ [.closeSafepoint]

/-- What has to be done to run a body on the VM thread itself. An open safepoint is used. -/
def inPlace (s : System) (body : List Duty) : List Duty :=
  if s.atSafepoint then body else inSafepoint body

/-- Tells a requester that its operation is done. -/
def reply (s : System) : Requester → System
  | .companion =>
    if s.companion = .awaitingReply then { s with companion := .cleaning } else s
  | .caller n =>
    match s.caller n with
    | .handedOver role => s.setCaller n (.replied role)
    | _ => s

/-- Says what runs, and in which surroundings. -/
def note (s : System) (m : Mark) (role : Role) : System :=
  s.log (.mark m role s.atSafepoint s.worldStopped)

/-- Opens a safepoint, for which all application threads are halted. -/
def openSafepoint (s : System) : System :=
  { s.log .safepointBegin with atSafepoint := true, worldStopped := true }

/-- Lets all application threads run again. -/
def closeSafepoint (s : System) : System :=
  { s.log .safepointEnd with atSafepoint := false, worldStopped := false }

/-- Tells everybody that the world has stopped. -/
def reportStopped (s : System) : System :=
  { s.wakeAll with sync := { s.sync with reached := .suspended } }

/-- Does one duty, before those that remain. -/
def discharge (s : System) (rest : List Duty) : Duty → Option System
  | .openSafepoint => some (s.setDuties rest).openSafepoint
  | .closeSafepoint => some (s.setDuties rest).closeSafepoint
  | .reply requester => some ((s.setDuties rest).reply requester)
  | .noteNested => some ((s.setDuties rest).note .nested .vmThread)
  | .checkLocker =>
    some ((s.log .lockerCheck).setDuties ((if s.regionOpen then .postpone else .reportStopped) ::
      rest))
  | .postpone =>
    some { s.setDuties rest with sync := { s.sync with retryPending := true } }
  | .reportStopped =>
    let s := s.reportStopped
    some (s.setDuties (if s.sync.desired = .resumed then rest else .park true :: rest))
  | .park asleep =>
    if asleep then none
    else some (s.setDuties (if s.sync.desired = .resumed then rest else .park true :: rest))
  | .awaitHandOff asleep =>
    if asleep then none
    else some (s.setDuties (if s.sync.handedToVm
      then s.inPlace [.act .stopWorld] ++ .handBack :: rest else .awaitHandOff true :: rest))
  | .handBack =>
    let s := { s.wakeAll with sync := { s.sync with handedToVm := false } }
    some (s.setDuties rest)
  | .act .note => some ((s.setDuties rest).note .body .vmThread)
  | .act (.nested body noted) =>
    some (s.setDuties (s.inPlace (body.map .act) ++ (if noted then .noteNested :: rest else rest)))
  | .act .announce =>
    some { s.setDuties rest with sync := { s.sync with vmPauseAnnounced := true } }
  | .act .takePause => some (s.setDuties (.awaitHandOff false :: rest))
  | .act (.request _) =>
    some ((s.setDuties rest).log (.refused (.pauseCallByRole .request .vmThread)))
  | .act .giveUp => some { s with vm := { s.vm with duties := [], life := .lost } }
  | .act .stopWorld => some (s.setDuties (.checkLocker :: rest))

/-- Takes the next order from the queue. -/
def takeOrder (s : System) : Option System :=
  match s.vm.queue with
  | [] => none
  | .run op :: queue =>
    some { s with vm := { s.vm with
      queue, duties := inSafepoint (op.body.map .act) ++ [.reply op.requester] } }
  | .terminate :: queue => some { s with vm := { s.vm with queue, life := .ended } }

/-- One step of the VM thread, if it can make one. -/
def stepVmThread (s : System) : Option System :=
  if s.vm.life = .running then
    match s.vm.duties with
    | [] => s.takeOrder
    | d :: rest => s.discharge rest d
  else none

/-! ## Callers -/

/-- Goes on if the world is in a state, or to sleep. -/
def awaitState (s : System) (n : Nat) (state : WorldState) : System :=
  s.setCaller n (if s.sync.reached = state then .away else .awaiting state true)

/-- One step of a caller, if it can make one. -/
def stepCaller (s : System) (n : Nat) : Option System :=
  match s.caller n with
  | .awaiting state false => some (s.awaitState n state)
  | .handedOver _ =>
    if s.vm.life = .running then none else some (s.setCaller n (.failed .vmThreadLost))
  | .replied role => some ((s.setCaller n .away).note .epilogue role)
  | _ => none

/-- A caller asks for a state of the world. -/
def request (s : System) (n : Nat) (state : WorldState) (wait : Bool) : Except Fault System :=
  if s.sync.desired = state then .error (.alreadyRequested state)
  else
    let s := { s.wakeAll with sync := { s.sync with desired := state } }
    .ok (if wait then s.awaitState n state else s)

/-- A caller waits for a state that was asked for. -/
def waitFor (s : System) (n : Nat) (state : WorldState) : Except Fault System :=
  if s.sync.desired = state then .ok (s.awaitState n state) else .error (.notRequested state)

/-- A caller hands an operation to the VM thread. -/
def execute (s : System) (n : Nat) (role : Role) (body : List Action) : System :=
  let s := s.note .prologue role
  if s.vm.life = .running then (s.submit ⟨.caller n, body⟩).setCaller n (.handedOver role)
  else s.setCaller n (.failed .vmThreadGone)

/-- Says that the VM thread will take the next pause. -/
def announce (s : System) : System := { s with sync := { s.sync with vmPauseAnnounced := true } }

/-- Opens or closes a critical region. -/
def setRegion (s : System) (isOpen : Bool) : System := { s with regionOpen := isOpen }

/-- Tells the companion to end. The world has to run. -/
def terminateCompanion (s : System) : Except Fault System :=
  if s.states = (.resumed, .resumed) then
    .ok { s.wakeAll with sync := { s.sync with terminating := true } }
  else .error .shutdownInPause

/-- Tells the VM thread to end once its queue is empty. -/
def terminateVmThread (s : System) : System :=
  if s.vm.life = .running then { s with vm := { s.vm with queue := s.vm.queue ++ [.terminate] } }
  else s

/-! ## All threads -/

/-- A thread. -/
inductive Party
  | companion
  | vmThread
  | caller (n : Nat)
deriving DecidableEq, Inhabited

/-- The next step of a thread, if it can make one. -/
def stepParty (s : System) : Party → Option System
  | .companion => s.stepCompanion
  | .vmThread => s.stepVmThread
  | .caller n => s.stepCaller n

/-- A thread wakes without a reason, if it sleeps. -/
def stir (s : System) : Party → Option System
  | .companion =>
    if s.companion.awake = s.companion then none else some { s with companion := s.companion.awake }
  | .vmThread =>
    match s.vm.duties with
    | .park true :: rest => some (s.setDuties (.park false :: rest))
    | .awaitHandOff true :: rest => some (s.setDuties (.awaitHandOff false :: rest))
    | _ => none
  | .caller n =>
    if (s.caller n).awake = s.caller n then none else some (s.setCaller n (s.caller n).awake)

/-- Everything that can happen. -/
inductive Move
  | proceed (p : Party)
  | stir (p : Party)
  | request (n : Nat) (state : WorldState) (wait : Bool)
  | waitFor (n : Nat) (state : WorldState)
  | execute (n : Nat) (role : Role) (body : List Action)
  | announce
  | setRegion (isOpen : Bool)
  | setPendingList (filled : Bool)
  | notifyLock
  | terminateCompanion
  | terminateVmThread
deriving Inhabited

/-- What a move leads to, if it can be made. A caller makes a call only when it is in no other. -/
def step (s : System) : Move → Option System
  | .proceed p => s.stepParty p
  | .stir p => s.stir p
  | .request n state wait =>
    if s.caller n = .away then (s.request n state wait).toOption else none
  | .waitFor n state => if s.caller n = .away then (s.waitFor n state).toOption else none
  | .execute n role body => if s.caller n = .away then some (s.execute n role body) else none
  | .announce => some s.announce
  | .setRegion isOpen => some (s.setRegion isOpen)
  | .setPendingList filled => some { s with pendingList := filled }
  | .notifyLock => some { s with lock := s.lock.count }
  | .terminateCompanion => s.terminateCompanion.toOption
  | .terminateVmThread => some s.terminateVmThread

/-- The states that can come about from `s`. -/
inductive Reaches (s : System) : System → Prop
  | refl : Reaches s s
  | step {t u : System} (m : Move) : Reaches s t → t.step m = some u → Reaches s u

end HeapBridge.Pause.System
