import HeapBridge.Assoc
import HeapBridge.Barrier.Config
import HeapBridge.Barrier.Surroundings

/-!
# Recording surroundings

A model of the world that records every step a barrier takes. Metadata bytes are zero until they are
set. If asked to, it logs a slot on the call that reports it, as a collector does.
-/
namespace HeapBridge.Barrier

open Metadata

/-- The recorded world. -/
structure Recorder where
  metadata : Assoc Address UInt8
  flag : UInt8
  references : List ObjectRef
  logOnWrite : Option UnlogBits
  events : List Event
deriving Inhabited

namespace Recorder

/-- The byte at a metadata address. -/
def byteAt (r : Recorder) (a : Address) : UInt8 := r.metadata.getD a 0

/-- The calls among the events. -/
def calls (r : Recorder) : List Call :=
  r.events.filterMap fun e => match e with
    | .call c => some c
    | _ => none

/-- Adds an event. -/
def record (e : Event) (r : Recorder) : Recorder := { r with events := r.events ++ [e] }

/-- The metadata bytes that were ever set, by address. -/
def bytes (r : Recorder) : List (Address × UInt8) :=
  r.metadata.entries.mergeSort fun a b => a.1 ≤ b.1

/-- Sets the unlog bit of a slot. -/
def markUnlogged (bits : UnlogBits) (slot : Address) (r : Recorder) : Except Fault Recorder := do
  let a ← bits.byteAddress slot
  let i ← bits.bitIndex slot
  return { r with metadata := r.metadata.insert a (UnlogBits.withBit (r.byteAt a) i) }

/-- Clears the unlog bit of a slot if its byte has ever been set. -/
def markLogged (bits : UnlogBits) (slot : Address) (r : Recorder) : Except Fault Recorder := do
  let a ← bits.byteAddress slot
  match r.metadata.get? a with
  | none => return r
  | some byte =>
    let i ← bits.bitIndex slot
    return { r with metadata := r.metadata.insert a (UnlogBits.withoutBit byte i) }

/-- What a call does to the world besides being recorded. -/
def afterCall (c : Call) (r : Recorder) : Except Fault Recorder :=
  match c, r.logOnWrite with
  | .writeSlow _ slot _, some bits => r.markLogged bits slot
  | _, _ => .ok r

/-- The recorder as surroundings of a barrier. -/
def surroundings : Surroundings Recorder where
  loadMetadata a := do
    modify (record (.loadMetadata a))
    return (← get).byteAt a
  loadFlag := do
    modify (record .loadFlag)
    return (← get).flag
  isReference o := do
    modify (record (.checkReference o))
    return o != 0 && (← get).references.contains o
  call c := do
    modify (record (.call c))
    set (← Act.lift (afterCall c (← get)))
  copy src dst size := modify (record (.copy src dst size))
  fence := modify (record .fence)

/-- What was recorded of a run, and the fault that ended it, if one did. -/
structure Recording where
  events : List Event
  fault : Option Fault
deriving Inhabited

/-- Records a run that starts with nothing recorded, and gives the world after it. -/
def recording (act : Act Recorder Unit) (r : Recorder) : Recording × Recorder :=
  match act.attempt { r with events := [] } with
  | (.ok (), r) => (⟨r.events, none⟩, r)
  | (.error f, r) => (⟨r.events, some f⟩, r)

/-- Records runs one after the other, each by itself. A fault ends one run only. -/
def recordEach : List (Act Recorder Unit) → Recorder → List Recording × Recorder
  | [], r => ([], r)
  | act :: acts, r =>
    let (first, r) := recording act r
    let (rest, last) := recordEach acts r
    (first :: rest, last)

end Recorder
end HeapBridge.Barrier
