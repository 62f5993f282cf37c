import HeapBridge.Pause.HeapLock
import HeapBridge.Diagnostic

/-!
# Threads that stop the world

The companion moves the world between running and stopped on behalf of the collector. It hands an
operation to the VM thread, which opens a safepoint for it, reports the world stopped and stays in
the safepoint until the world is wanted back. If a critical region is open, the operation is
abandoned and tried again once the region is left.

This module holds the state of all threads that take part. Everything that one thread does between
two points where others can come in is one stage.
-/
namespace HeapBridge.Pause

/-- The monitor through which the threads agree. -/
structure Handshake where
  /-- What was asked for. -/
  desired : WorldState
  /-- What the world is in. It differs while a change is under way. -/
  reached : WorldState
  /-- The VM thread will take the next pause itself. -/
  vmPauseAnnounced : Bool
  /-- The pause that was asked for is in the hands of the VM thread. -/
  handedToVm : Bool
  /-- The last pause was abandoned for a critical region. -/
  retryPending : Bool
  terminating : Bool
deriving DecidableEq, Inhabited

/-- The world runs and nothing was asked for. -/
def Handshake.initial : Handshake := ⟨.resumed, .resumed, false, false, false, false⟩

/-- Why the companion broke off. -/
inductive Breach
  | notRunning
  | handOffInRetry
  | resumeNotRequested
  | notStopped
  | vmThreadGone
  | vmThreadLost
deriving DecidableEq, Inhabited

/-- Where the companion is. -/
inductive Stage
  /-- About to look for an abandoned pause. -/
  | top
  /-- About to wait for a request. -/
  | entering
  | idle (asleep : Bool)
  /-- About to decide who takes the pause. -/
  | choosing
  | handedOff (asleep : Bool)
  /-- About to look whether this pause is a retry. -/
  | probing
  | stalling
  | clearing
  /-- About to take the heap lock. -/
  | locking
  | submitting
  | awaitingReply
  | cleaning
  /-- About to notify the threads that wait for pending references. -/
  | announcing
  | unlocking
  | closing
  | ended
  | failed (why : Breach)
deriving DecidableEq, Inhabited

/-- What an operation does on the VM thread. -/
inductive Action
  /-- Notes that it is running. -/
  | note
  /-- Executes another operation, and notes when it is back if asked to. -/
  | nested (body : List Action) (noted : Bool)
  /-- Says that the VM thread will take the next pause. -/
  | announce
  /-- Waits for the pause to be handed over, and takes it. -/
  | takePause
  | request (state : WorldState)
  | giveUp
  /-- Stops the world, unless a critical region is open. -/
  | stopWorld
deriving Inhabited

/-- The operations that are known by a name. Under any other name one just notes that it is running. -/
def Action.named : String → List Action
  | "nest" => [.note, .nested [.note] true]
  | "request" => [.note, .request .suspended]
  | "panic" => [.note, .giveUp]
  | _ => [.note]

/-- Who waits for the end of an operation. -/
inductive Requester
  | companion
  | caller (n : Nat)
deriving DecidableEq, Inhabited

/-- An operation that was handed to the VM thread. -/
structure Operation where
  requester : Requester
  body : List Action
deriving Inhabited

/-- What is queued for the VM thread. -/
inductive Order
  | run (op : Operation)
  | terminate
deriving Inhabited

/-- What the VM thread still has to do for the operation it is in. -/
inductive Duty
  | openSafepoint
  | act (a : Action)
  /-- Notes that an inner operation is done. -/
  | noteNested
  /-- Asks whether a critical region is open. -/
  | checkLocker
  | postpone
  | reportStopped
  | park (asleep : Bool)
  | awaitHandOff (asleep : Bool)
  | handBack
  | closeSafepoint
  | reply (requester : Requester)
deriving Inhabited

/-- Whether a thread is there. -/
inductive Life
  | running
  | ended
  /-- It broke off in the middle of an operation. -/
  | lost
deriving DecidableEq, Inhabited

/-- The VM thread. -/
structure VmThread where
  queue : List Order
  duties : List Duty
  life : Life
deriving Inhabited

/-- A thread outside: a collector thread, or one that hands operations over. -/
inductive Caller
  | away
  | awaiting (state : WorldState) (asleep : Bool)
  /-- An operation of this thread is queued or running. -/
  | handedOver (role : Role)
  | replied (role : Role)
  | failed (fault : Fault)
deriving DecidableEq, Inhabited

/-- A point in an operation at which it can be observed. -/
inductive Mark
  | prologue
  | body
  | nested
  | epilogue
deriving DecidableEq, Inhabited

def Mark.name : Mark → String
  | prologue => "prologue"
  | body => "doit"
  | nested => "nested"
  | epilogue => "epilogue"

/-- What happened, as far as someone outside can tell. -/
inductive Event
  | safepointBegin
  | safepointEnd
  | lockerCheck
  | lockerStall
  | cleanup
  /-- An operation reached a mark, on a thread of some role. -/
  | mark (m : Mark) (role : Role) (atSafepoint worldStopped : Bool)
  /-- Something that an operation tried was refused. -/
  | refused (fault : Fault)
  | report (d : Diagnostic)
deriving DecidableEq, Inhabited

/-- All threads, and what they share. -/
structure System where
  sync : Handshake
  lock : HeapLock
  /-- A critical region is open. -/
  regionOpen : Bool
  /-- References wait to be handled once a pause is over. -/
  pendingList : Bool
  atSafepoint : Bool
  worldStopped : Bool
  companion : Stage
  companionJoined : Bool
  vm : VmThread
  vmJoined : Bool
  caller : Nat → Caller
  history : List Event

namespace System

/-- All threads at the start. -/
def initial : System where
  sync := .initial
  lock := .free
  regionOpen := false
  pendingList := false
  atSafepoint := false
  worldStopped := false
  companion := .top
  companionJoined := false
  vm := ⟨[], [], .running⟩
  vmJoined := false
  caller := fun _ => .away
  history := []

instance : Inhabited System := ⟨initial⟩

/-- The state that was asked for and the one the world is in. -/
def states (s : System) : WorldState × WorldState := (s.sync.desired, s.sync.reached)

/-- How often something happened. -/
def tally (s : System) (e : Event) : Nat := s.history.count e

/-- Adds to the history. -/
def log (s : System) (e : Event) : System := { s with history := s.history ++ [e] }

/-- Changes what a caller is doing. -/
def setCaller (s : System) (n : Nat) (c : Caller) : System :=
  { s with caller := fun x => if x = n then c else s.caller x }

/-- Changes what the VM thread has to do. -/
def setDuties (s : System) (ds : List Duty) : System := { s with vm := { s.vm with duties := ds } }

end System

/-- The companion awake. -/
def Stage.awake : Stage → Stage
  | idle _ => idle false
  | handedOff _ => handedOff false
  | st => st

/-- The VM thread awake at a duty. -/
def Duty.awake : Duty → Duty
  | park _ => park false
  | awaitHandOff _ => awaitHandOff false
  | d => d

/-- A caller awake. -/
def Caller.awake : Caller → Caller
  | awaiting state _ => awaiting state false
  | c => c

/-- Wakes every thread that sleeps on the monitor. -/
def System.wakeAll (s : System) : System :=
  { s with
    companion := s.companion.awake
    vm := { s.vm with duties := s.vm.duties.map Duty.awake }
    caller := fun n => (s.caller n).awake }

namespace System

@[simp] theorem history_log (s : System) (e : Event) : (s.log e).history = s.history ++ [e] := rfl
@[simp] theorem sync_log (s : System) (e : Event) : (s.log e).sync = s.sync := rfl
@[simp] theorem sync_wakeAll (s : System) : s.wakeAll.sync = s.sync := rfl
@[simp] theorem history_wakeAll (s : System) : s.wakeAll.history = s.history := rfl
@[simp] theorem caller_setCaller (s : System) (n x : Nat) (c : Caller) :
    (s.setCaller n c).caller x = if x = n then c else s.caller x := rfl
@[simp] theorem sync_setCaller (s : System) (n : Nat) (c : Caller) :
    (s.setCaller n c).sync = s.sync := rfl

end System
end HeapBridge.Pause
