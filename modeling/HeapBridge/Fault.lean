import HeapBridge.Alloc.Selector
import HeapBridge.Barrier.Access
import HeapBridge.Barrier.Entry
import HeapBridge.Object.ClassLayout
import HeapBridge.Text.Quoted
import HeapBridge.Thread.Basic

/-!
# Faults

Every way in which an operation can fail, by cause. The wording of a fault is a function of its
cause and of nothing else.
-/
namespace HeapBridge

/-- An operation of checked arithmetic whose result does not fit, or does not exist. -/
inductive Overflow
  | add
  | sub
  | mul
  | shiftLeft
  | shiftRight
  | remainder
deriving DecidableEq, Inhabited

/-- Who may speak to the thread that stops the world, and in which way it was spoken to. -/
inductive PauseCall
  | request
  | wait
deriving DecidableEq, Inhabited

/-- Why an operation failed. -/
inductive Fault
  | overflow (op : Overflow)
  /-- A distance was asked for in the wrong direction. -/
  | belowOrigin (a b : Address)
  /-- An access left the mapped memory or was misaligned. -/
  | unmapped (a : Address)
  /-- The caller would sleep and nobody is left to wake it. -/
  | wouldBlock
  | outOfBounds (size index : Nat)
  /-- The list of threads was wanted after a change of it had broken off. -/
  | threadListBroken
  | emptyMetadataRange (first last : Address)
  /-- The new place of an object does not fit beside the forwarding bits. -/
  | forwardedTooFar (o : ObjectRef)
  | noOperand (access : Barrier.Access) (operand : Barrier.Operand)
  /-- An entry was called with the wrong number of words. -/
  | arity (entry : Barrier.Entry)
  /-- A graph was given a call with the wrong number of arguments. -/
  | graphArity (entry : Barrier.Entry)
  /-- A whole-word slot already has the bit set that marks such slots. -/
  | slotTagged (slot : Address)
  | bufferFull
  | zeroCapacity
  | largeObjectLimitUnset
  | recordSizes (theirs ours : Alloc.RecordSizes)
  | classLayout (layout : Object.ClassLayout) (expected : Word)
  /-- A thread that takes part in a pause spoke to the companion. -/
  | pauseCallByRole (call : PauseCall) (role : Role)
  /-- An application thread spoke to the companion. -/
  | pauseCallByApplication (call : PauseCall)
  | alreadyRequested (state : WorldState)
  | notRequested (state : WorldState)
  | notOnVmThread
  | shutdownInPause
  | vmThreadGone
  | vmThreadLost
  | nestedSafepoint
  | notHeld
  | bindRefused (thread : Thread)
  | enterByOther (thread : Thread)
  | leaveByOther
  | leaveUnmatched
  | noThreadState (code : Int)
  | noWeakStorage (code : Int)
  | noThreadKind (code : Int)
  | noAnswer
  | badOptions (text : String)
  | alreadyStarted
  /-- A thread cannot have a name with a zero byte, at a place in its bytes. -/
  | zeroInThreadName (place : Nat) (bytes : List UInt8)
  /-- An operation on the thread of safepoint operations gave up. -/
  | gaveUp
  /-- What was asked for could not be understood. -/
  | malformed
deriving DecidableEq, Inhabited

/-- The families of faults that callers tell apart. -/
inductive Fault.Family
  | arithmetic
  | broken
  | badOptions
  | alreadyStarted
  | refused
deriving DecidableEq, Inhabited

def Overflow.message : Overflow → String
  | add => "attempt to add with overflow"
  | sub => "attempt to subtract with overflow"
  | mul => "attempt to multiply with overflow"
  | shiftLeft => "attempt to shift left with overflow"
  | shiftRight => "attempt to shift right with overflow"
  | remainder => "attempt to calculate the remainder with a divisor of zero"

def PauseCall.plural : PauseCall → String
  | request => "Requests"
  | wait => "Waits"

namespace Fault

/-- The family of a fault. -/
def family : Fault → Family
  | overflow _ => .arithmetic
  | unmapped _ | wouldBlock | malformed => .refused
  | badOptions _ => .badOptions
  | alreadyStarted => .alreadyStarted
  | _ => .broken

open Text in
/-- The wording of a fault. A graph with a wrong call is refused without one. -/
def message? : Fault → Option String
  | overflow op => op.message
  | belowOrigin a b => s!"Address {hex a} is below {hex b} in a distance computation"
  | unmapped _ | wouldBlock | graphArity _ | malformed => none
  | outOfBounds size index =>
    s!"index out of bounds: the len is {size} but the index is {index}"
  | threadListBroken =>
    "called `Result::unwrap()` on an `Err` value: PoisonError \x7b .. \x7d"
  | emptyMetadataRange first last => s!"Empty side metadata range {hex first}..{hex last}"
  | forwardedTooFar o => s!"Forwarded object {hex o} does not fit in the forwarding pointer"
  | noOperand access operand => s!"{access.describe} has no operand {operand.name}"
  | arity entry => s!"{entry.symbol} takes {entry.arity} arguments"
  | slotTagged slot => s!"Slot {hex slot} already has the tag bit set"
  | bufferFull => "assertion failed: self.cursor < self.cap"
  | zeroCapacity => "Edge buffers must hold at least one slot"
  | largeObjectLimitUnset => "max_non_los_default_alloc_bytes hasn't been initialized"
  | recordSizes theirs ours =>
    "ABI mismatch: the collector and the runtime disagree on allocator layouts: " ++
      s!"collector {theirs.describe}, runtime {ours.describe}"
  | classLayout layout expected =>
    s!"Class layout checksum mismatch: VM reports {hex layout.checksum} ({layout.describe}), " ++
      s!"expected {hex expected}"
  | pauseCallByRole call role =>
    s!"{call.plural} can only be made by collector threads. Found {role.name}."
  | pauseCallByApplication call =>
    s!"{call.plural} can only be made by collector threads. Found a Java thread."
  | alreadyRequested state => s!"State {state.name} already requested."
  | notRequested state => s!"State {state.name} not requested."
  | notOnVmThread =>
    "reach_suspended_and_wait_for_resume can only be executed by the VM thread"
  | shutdownInPause => "The companion can only stop while the world is running"
  | vmThreadGone => "The VM thread has terminated"
  | vmThreadLost => "The VM thread terminated before completing an operation"
  | nestedSafepoint => "nested safepoint"
  | notHeld => "Heap lock is not held"
  | bindRefused thread => s!"The collector failed to bind a mutator for {thread.describeMutator}"
  | enterByOther thread =>
    s!"enter_vm can only be called by Java threads. Found {thread.describe}."
  | leaveByOther => "assertion failed: self.host.is_java_thread(tls)"
  | leaveUnmatched => "leave_vm without a matching enter_vm"
  | noThreadState code => s!"Unknown thread state {code}"
  | noWeakStorage code => s!"Unknown weak storage id {code}"
  | noThreadKind code => s!"Unknown GC thread kind {code}"
  | noAnswer => "not implemented"
  | badOptions text => s!"invalid options: {quoted text}"
  | alreadyStarted => "the runtime is already initialized"
  | zeroInThreadName place bytes =>
    let shown := ", ".intercalate (bytes.map fun b => toString b.toNat)
    s!"thread name may not contain interior null bytes: NulError({place}, [{shown}])"
  | gaveUp => "probe"

end Fault

/-- A computation over a state. A fault ends it and keeps the state that was reached. -/
abbrev Act (σ α : Type) := EStateM Fault σ α

namespace Act
variable {σ α : Type}

/-- Takes the outcome of a pure computation into one over a state. -/
def lift (e : Except Fault α) : Act σ α :=
  match e with
  | .ok a => pure a
  | .error f => throw f

@[simp] theorem lift_ok (a : α) : (lift (.ok a) : Act σ α) = pure a := rfl

/-- What came of a computation, and the state it ended in. -/
def attempt (act : Act σ α) (s : σ) : Except Fault α × σ :=
  match act s with
  | .ok a s => (.ok a, s)
  | .error f s => (.error f, s)

/-- Runs computations one after the other, whatever comes of them. `answer` makes the answer to each
out of what came of it and the state after it. -/
def runEach {β : Type} (answer : Except Fault α → σ → β) : List (Act σ α) → σ → List β × σ
  | [], s => ([], s)
  | act :: acts, s =>
    let (value, s) := act.attempt s
    let (rest, last) := runEach answer acts s
    (answer value s :: rest, last)

/-- Runs computations up to the first that fails. The state is gone if one did. -/
def runUntilFault {β : Type} (answer : Except Fault α → σ → β) :
    List (Act σ α) → σ → List β × Option σ
  | [], s => ([], some s)
  | act :: acts, s =>
    match act.attempt s with
    | (.ok a, s) =>
      let (rest, last) := runUntilFault answer acts s
      (answer (.ok a) s :: rest, last)
    | (.error f, s) => ([answer (.error f) s], none)

/-- Does something that depends on the state and may fail. -/
def look (f : σ → Except Fault α) : Act σ α := do lift (f (← get))

/-- Replaces the state. -/
def change (f : σ → Except Fault σ) : Act σ Unit := do set (← look f)

/-- Looks at the state. -/
def view (f : σ → α) : Act σ α := return f (← get)

end Act
end HeapBridge
