import HeapBridge.Alloc.Layout
import HeapBridge.Alloc.Record
import HeapBridge.Diagnostic

/-!
# Allocation

A thread allocates from a working copy of the collector's record. Requests that the copy cannot
serve go to the collector, which may change the copy while it answers. The record behind the copy
is on lease: binding takes it, destroying gives it back.
-/
namespace HeapBridge.Alloc

/-- The place of a record in the collector, as long as it is on lease. -/
abbrev Lease := Nat

/-- The services of a collector that allocation rests on, over some state. -/
structure Service (σ : Type) where
  recordSizes : Act σ RecordSizes
  isReady : Act σ Bool
  /-- Creates the record of a thread and puts it on lease. -/
  bind : Thread → Act σ (Lease × Record)
  /-- Takes a record back, with what the working copy held at the end. -/
  release : Lease → Record → Act σ Unit
  /-- Serves a request of some size, alignment and offset. Zero is out of memory. -/
  alloc : Record → Word → Word → Word → Semantics → Act σ (Address × Record)
  postAlloc : Record → ObjectRef → Word → Semantics → Act σ Record
  flush : Record → Act σ Record
  destroy : Record → Act σ Record
  /-- Tells the operator. -/
  report : Diagnostic → Act σ Unit

/-- What is fixed about allocation when the mutator side starts. -/
structure Config where
  /-- Requests of this size and above go to the large object space. -/
  largeObjectLimit : Word
  /-- The allocator of requests without special semantics. -/
  selector : Selector
  fastDisabled : Bool
  /-- Requests above this size may use the second buffer. -/
  largeBumpThreshold : Word
deriving DecidableEq, Inhabited

/-- Fails, with a report, unless the collector's records are laid out like ours. -/
def checkRecordSizes {σ : Type} (report : Diagnostic → Act σ Unit) (theirs : RecordSizes) :
    Act σ Unit := do
  if theirs ≠ Layout.ours then
    report (.recordSizes theirs Layout.ours)
    throw (.recordSizes theirs Layout.ours)

/-- A thread's working copy, and the lease on the record it was copied from. -/
structure Context where
  record : Record
  lease : Option Lease
deriving Inhabited

namespace Context
variable {σ : Type}

/-- A context that holds no lease. -/
def unbound : Context := ⟨.zeroed, none⟩

/-- Whether the context holds a lease. -/
def isBound (c : Context) : Bool := c.lease.isSome

/-- Takes a record on lease for a thread. -/
def bind (svc : Service σ) (t : Thread) : Act σ Context := do
  checkRecordSizes svc.report (← svc.recordSizes)
  let (lease, record) ← svc.bind t
  return ⟨record, some lease⟩

/-- Serves a request from the buffers of the working copy: from the first, or, above the
threshold, from the second. -/
def allocInline (cfg : Config) (size : Word) (r : Record) :
    Except Fault (Option (Address × Record)) := do
  let small ← cfg.selector.smallPair
  match r.take? small size with
  | some served => return some served
  | none =>
    if cfg.largeBumpThreshold < size then
      let large ← cfg.selector.largePair
      return r.take? large size
    else return none

/-- Lets the collector serve a request. Objects with special semantics are reported to it after
they were allocated. -/
def allocSlow (svc : Service σ) (size : Word) (sem : Semantics) (c : Context) :
    Act σ (Address × Context) := do
  let (a, record) ← svc.alloc c.record size Units.heapWordSize 0 sem
  if a ≠ 0 ∧ sem ≠ .default then
    let record ← svc.postAlloc record a size sem
    return (a, { c with record })
  return (a, { c with record })

/-- Allocates `size` bytes, a multiple of the heap word. Zero is out of memory. -/
def alloc (svc : Service σ) (cfg : Config) (size : Word) (sem : Semantics) (c : Context) :
    Act σ (Address × Context) := do
  if cfg.largeObjectLimit = 0 then throw .largeObjectLimitUnset
  if cfg.largeObjectLimit ≤ size then allocSlow svc size .largeObject c
  else if cfg.fastDisabled then allocSlow svc size sem c
  else match ← Act.lift (allocInline cfg size c.record) with
    | some (a, record) => return (a, { c with record })
    | none => allocSlow svc size sem c

/-- Lets the collector flush what it buffers for this thread. -/
def flush (svc : Service σ) (c : Context) : Act σ Context := do
  return { c with record := ← svc.flush c.record }

/-- Gives the record back, with the working copy written into it. Without a lease nothing
happens. -/
def destroy (svc : Service σ) (c : Context) : Act σ Context := do
  match c.lease with
  | none => return c
  | some lease =>
    let record ← svc.destroy c.record
    svc.release lease record
    return ⟨record, none⟩

/-- Binds a context to a thread if it is unbound and the collector is ready. -/
def ensureBound (svc : Service σ) (t : Thread) (c : Context) : Act σ Context := do
  if c.isBound then return c
  if ← svc.isReady then bind svc t else return c

end Context
end HeapBridge.Alloc
