import HeapBridge.Alloc.Selector
import HeapBridge.Text.Quoted
import HeapBridge.Thread.Basic

/-!
# Diagnostics

What is worth telling an operator: settings that were not taken, layouts that do not agree, threads
that are gone. Each is reported once, in the order in which it happened.
-/
namespace HeapBridge

/-- A message to the operator, by cause. -/
inductive Diagnostic
  | invalidValue (name value : String)
  | unreadableValue (name value : String)
  | unknownOption (name : String)
  | notAPair (text : String)
  | recordSizes (theirs ours : Alloc.RecordSizes)
  | outOfMemory (thread : Thread) (error : AllocationError)
  | companionFailed
  | vmThreadFailed
deriving DecidableEq, Inhabited

namespace Diagnostic

/-- Whether the message is about an error and not only a warning. -/
def isError : Diagnostic → Bool
  | recordSizes .. => true
  | _ => false

open Text in
/-- The wording of a message. -/
def message : Diagnostic → String
  | invalidValue name value =>
    s!"Unable to set {name}={quoted value}. Invalid value. The previous value is kept."
  | unreadableValue name value =>
    s!"Unable to set {name}={quoted value}. Cannot parse value. The previous value is kept."
  | unknownOption name => s!"Unknown option {name}"
  | notAPair text => s!"Option {quoted text} is not in the form name=value"
  | recordSizes theirs ours =>
    s!"Allocator record mismatch: ImmixAllocator {theirs.immix.toNat} (collector) vs " ++
      s!"{ours.immix.toNat} (runtime), FreeListAllocator {theirs.freeList.toNat} (collector) vs " ++
      s!"{ours.freeList.toNat} (runtime)"
  | outOfMemory thread error => s!"Out of memory on {thread.describe}: {error.name}"
  | companionFailed => "The companion thread panicked"
  | vmThreadFailed => "The VM thread panicked"

/-- A message with its level. -/
def line (d : Diagnostic) : String :=
  (if d.isError then "ERROR: " else "WARN: ") ++ d.message

end Diagnostic
end HeapBridge
