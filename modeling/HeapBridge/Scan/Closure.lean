import HeapBridge.Scan.Buffer
import HeapBridge.Slot.Tagged

/-!
# Visiting slots

The virtual machine enumerates slots, and a closure decides what is reported for each: its tagged
address, for slots that the collector may update, or the object in it, for slots that it may not.
Slots that hold null are never reported. Only the scan of an object hands every slot over.
-/
namespace HeapBridge.Scan

open Slot (Encoding Tagged)

/-- A slot as the virtual machine enumerates it. -/
inductive Visit
  | wide (slot : Address)
  | narrow (slot : Address)
deriving DecidableEq, Inhabited

/-- A visited slot as it is passed on. A wide slot must not look tagged before it is. -/
def Visit.tag (e : Option Encoding) : Visit → Except Fault Tagged
  | .wide slot =>
    if slot &&& Tagged.wideTag = 0 then .ok (.wide slot e.isSome) else .error (.slotTagged slot)
  | .narrow slot => .ok (.narrow slot)

/-- The address of a visited slot. -/
def Visit.slot : Visit → Address
  | .wide slot | .narrow slot => slot

/-- Checks that a visited slot can be read. -/
def Visit.require (e : Option Encoding) (m : Memory) : Visit → Except Fault Unit
  | .wide slot => (Tagged.wide slot false).require none m
  | .narrow slot => (Tagged.narrow slot).require e m

/-- What is reported for a slot. -/
inductive Closure
  /-- The slot itself. -/
  | roots
  /-- The object that the slot refers to. -/
  | objects
deriving DecidableEq, Inhabited

namespace Closure

/-- The word that is reported for a slot, if any. Nothing is done about a slot that cannot be read. -/
def word? (c : Closure) (e : Option Encoding) (m : Memory) (v : Visit) :
    Except Fault (Option Word) := do
  v.require e m
  match c, v with
  | .roots, v => do
    let t ← v.tag e
    let o ← t.load e m
    return if o = 0 then none else some t.raw
  | .objects, .wide slot => do
    let o ← (Tagged.wide slot false).load none m
    return if o = 0 then none else some o
  | .objects, .narrow slot => do
    let o ← (Tagged.narrow slot).load e m
    return if o = 0 then none else some o

/-- Visits one slot. -/
def visit (c : Closure) (e : Option Encoding) (m : Memory) (supply : Supply) (v : Visit)
    (f : Filling) : Except Fault Filling := do
  match ← c.word? e m v with
  | none => return f
  | some w => f.push supply w

/-- Visits slots in order. A slot that fails leaves the buffers as they were and the visit goes on;
the failures are listed with the places of their slots. -/
def visitAll (c : Closure) (e : Option Encoding) (m : Memory) (supply : Supply) :
    Nat → List Visit → Filling → Filling × List (Nat × Fault)
  | _, [], f => (f, [])
  | i, v :: vs, f =>
    match c.visit e m supply v f with
    | .ok f => visitAll c e m supply (i + 1) vs f
    | .error fault =>
      let (f, faults) := visitAll c e m supply (i + 1) vs f
      (f, (i, fault) :: faults)

/-- Visits slots in order up to the first that fails. -/
def visitUntil (c : Closure) (e : Option Encoding) (m : Memory) (supply : Supply) :
    List Visit → Filling → Filling × Option Fault
  | [], f => (f, none)
  | v :: vs, f =>
    match c.visit e m supply v f with
    | .ok f => visitUntil c e m supply vs f
    | .error fault => (f, some fault)

end Closure

/-- The word that the scan of an object hands over for a slot. -/
def tracedWord (e : Option Encoding) (v : Visit) : Except Fault Word := return (← v.tag e).raw

/-- What becomes of the items of a list that `f` takes and those it refuses, the latter with their
places. -/
def sift {α β : Type} (f : α → Except Fault β) : Nat → List α → List β × List (Nat × Fault)
  | _, [] => ([], [])
  | i, a :: as =>
    let (taken, refused) := sift f (i + 1) as
    match f a with
    | .ok b => (b :: taken, refused)
    | .error fault => (taken, (i, fault) :: refused)

/-- Whether the buffers that a scan fills are taken for slots or for objects. -/
inductive PacketKind
  | edges
  | nodes
deriving DecidableEq, Inhabited

/-- The root packets that a collector received. -/
structure Packets where
  edges : List (List Word)
  nodes : List (List Word)
deriving DecidableEq, Inhabited

/-- Files the packets of a scan under their kind. -/
def Packets.of (kind : PacketKind) (f : Filled) : Packets :=
  match kind with
  | .edges => ⟨f.packets, []⟩
  | .nodes => ⟨[], f.packets⟩

end HeapBridge.Scan
