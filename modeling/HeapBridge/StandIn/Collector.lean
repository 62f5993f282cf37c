import HeapBridge.Alloc.Layout
import HeapBridge.Alloc.Record

/-!
# A stand-in for the collector

It hands out empty records, answers slow allocations with one fixed address, and knows which objects
are live because it was told.
-/
namespace HeapBridge.StandIn

open Alloc (Bump Record RecordSizes Selector Semantics)

/-- The state of the stand-in. -/
structure Collector where
  sizes : RecordSizes
  largeObjectLimit : Word
  selector : Selector
  metadataBase : Address
  /-- The reserved heap range. -/
  heap : Address × Address
  ready : Bool
  /-- No records are handed out. -/
  refusing : Bool
  /-- Slow allocations fail. -/
  exhausted : Bool
  live : List ObjectRef
  /-- The buffer that comes with the next slow allocation. -/
  refill : Option (Selector × Bump)
  /-- The number of records handed out so far. -/
  leases : Nat
  lastSemantics : Option Semantics
  lastReleased : Option Record

namespace Collector

/-- What every slow allocation answers. -/
def slowResult : Address := 0xdead0000

/-- The heap range if none was set. -/
def defaultHeap : Address × Address := (0x10000000, 0x20000000)

/-- A stand-in that was told nothing. -/
def initial : Collector where
  sizes := Alloc.Layout.ours
  largeObjectLimit := 8192
  selector := .bump 0
  metadataBase := 0
  heap := defaultHeap
  ready := true
  refusing := false
  exhausted := false
  live := []
  refill := none
  leases := 0
  lastSemantics := none
  lastReleased := none

instance : Inhabited Collector := ⟨initial⟩

/-- Tells the stand-in of a live object. -/
def addLive (c : Collector) (o : ObjectRef) : Collector := { c with live := o :: c.live }

/-- Keeps a buffer for the next slow allocation. -/
def keepRefill (c : Collector) (s : Selector) (b : Bump) : Collector :=
  { c with refill := some (s, b) }

/-- Whether an object is live. -/
def isLive (c : Collector) (o : ObjectRef) : Bool := c.live.contains o

/-- The answer to a slow allocation. -/
def answer (c : Collector) : Address := if c.exhausted then 0 else slowResult

/-- Gives a record the buffer that was kept for it. -/
def fill (c : Collector) (r : Record) : Record :=
  match c.refill with
  | none => r
  | some (sel, bump) =>
    match sel.smallPair with
    | .ok (some key) => r.setPair key bump
    | _ => r

end Collector
end HeapBridge.StandIn
