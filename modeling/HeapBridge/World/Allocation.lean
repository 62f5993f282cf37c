import HeapBridge.World.State

/-!
# Allocation at work

The collector's side of allocation, and the contexts of the threads that allocate.
-/
namespace HeapBridge.World

open Alloc (Context Lease Record Semantics)

/-- Creates the record of a thread, unless the collector refuses to. -/
def leaseRecord (t : Thread) : Act World (Lease × Record) := do
  emit (.bindMutator t)
  let c := (← get).collector
  if c.refusing then throw (.bindRefused t)
  setCollector fun c => { c with leases := c.leases + 1 }
  return (c.leases, .ofThread t)

/-- Answers a slow allocation. -/
def slowAlloc (r : Record) (size align offset : Word) (sem : Semantics) :
    Act World (Address × Record) := do
  emit (.alloc r.thread size align offset sem)
  let c := (← get).collector
  setCollector fun c => { c with refill := none, lastSemantics := some sem }
  return (c.answer, c.fill r)

/-- The collector as the service that allocation rests on. -/
def service : Alloc.Service World where
  recordSizes := return (← get).collector.sizes
  isReady := return (← get).collector.ready
  bind := leaseRecord
  release _ r := do
    emit (.releaseMutator r.thread)
    setCollector fun c => { c with lastReleased := some r }
  alloc := slowAlloc
  postAlloc r o size sem := do
    emit (.postAlloc o size sem)
    return r
  flush r := do
    emit (.flushMutator r.thread)
    return r
  destroy r := do
    emit (.destroyMutator r.thread)
    return r
  report := World.report

/-- The context at a place. -/
def context (i : Nat) : Act World Context := return (← get).contexts i

/-- Replaces the context at a place. -/
def setContext (i : Nat) (c : Context) : Act World Unit :=
  modify fun w => { w with contexts := fun x => if x = i then c else w.contexts x }

/-- Binds a context to a thread. A context that cannot be bound stays as it was. -/
def bind (i : Nat) (t : Thread) : Act World Unit := do
  setContext i (← Context.bind service t)

/-- Binds a context to the calling thread on first use. -/
def ensureBound (i : Nat) : Act World Unit := do
  setContext i (← (← context i).ensureBound service (← get).thread)

/-- Allocates from a context as it is. -/
def allocFrom (i : Nat) (size : Word) (sem : Semantics) : Act World Address := do
  let (a, c) ← (← context i).alloc service (← get).allocation size sem
  setContext i c
  return a

/-- Allocates from a context, which is bound on first use. -/
def alloc (i : Nat) (size : Word) (sem : Semantics) : Act World Address := do
  ensureBound i
  allocFrom i size sem

/-- Lets the collector flush what it buffers for a context. -/
def flush (i : Nat) : Act World Unit := do
  setContext i (← (← context i).flush service)

/-- Gives the record of a context back. -/
def destroy (i : Nat) : Act World Unit := do
  setContext i (← (← context i).destroy service)

/-- Sets a buffer of a context. Tells whether the selected allocator has such a buffer. -/
def setBuffer (i : Nat) (s : Alloc.Selector) (size : Alloc.PairSize) (b : Alloc.Bump) :
    Act World Bool := do
  match ← Act.lift (s.pair size) with
  | none => return false
  | some key =>
    let c ← context i
    setContext i { c with record := c.record.setPair key b }
    return true

end HeapBridge.World
