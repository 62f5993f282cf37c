import HeapBridge.Memory
import HeapBridge.Slot.Encoding

/-!
# Tagged slots

A slot travels to the collector as its address. Where references are compressed, the top bit marks
the slots that hold a whole word, such as roots on a stack; elsewhere every slot holds a whole word
and none is marked.
-/
namespace HeapBridge.Slot

/-- A slot address with its mark. -/
structure Tagged where
  raw : Address
deriving DecidableEq, Inhabited

namespace Tagged

/-- The mark of a whole-word slot. -/
def wideTag : Word := 0x8000000000000000

/-- A slot that holds a whole word. -/
def wide (slot : Address) (compressed : Bool) : Tagged :=
  ⟨if compressed then slot ||| wideTag else slot⟩

/-- A slot that holds a compressed reference. -/
def narrow (slot : Address) : Tagged := ⟨slot⟩

/-- Whether the slot would be read as compressed. -/
def isCompressed (t : Tagged) : Bool := t.raw &&& wideTag == 0

/-- The address of the slot without its mark. -/
def address (t : Tagged) : Address := t.raw <<< 1 >>> 1

/-- The slot in diagnostics. -/
def describe (t : Tagged) : String := Text.applied "TaggedEdge" [Text.hex t.raw]

/-- The encoding under which the slot is accessed, if it is a narrow one. -/
def narrowEncoding? (t : Tagged) (e : Option Encoding) : Option Encoding :=
  if t.isCompressed then e else none

/-- Checks that a slot can be accessed. -/
def require (t : Tagged) (e : Option Encoding) (m : Memory) : Except Fault Unit :=
  match t.narrowEncoding? e with
  | some _ => m.require t.raw .narrow
  | none => m.require t.address .wide

/-- The reference in a slot. -/
def load (t : Tagged) (e : Option Encoding) (m : Memory) : Except Fault ObjectRef :=
  match t.narrowEncoding? e with
  | some enc => do
    let narrow ← m.load t.raw .narrow
    enc.decode narrow.toUInt32
  | none => m.load t.address .wide

/-- Puts a reference into a slot. -/
def store (t : Tagged) (o : ObjectRef) (e : Option Encoding) (m : Memory) :
    Except Fault Memory :=
  match t.narrowEncoding? e with
  | some enc => do
    m.require t.raw .narrow
    let narrow ← enc.encode o
    m.store t.raw .narrow narrow.toUInt64
  | none => m.store t.address .wide o

/-- Puts `new` into a slot that holds `old`. Gives whether it did, and the reference found. -/
def compareExchange (t : Tagged) (old new : ObjectRef) (e : Option Encoding) (m : Memory) :
    Except Fault (Bool × ObjectRef × Memory) :=
  match t.narrowEncoding? e with
  | some enc => do
    m.require t.raw .narrow
    let old ← enc.encode old
    let new ← enc.encode new
    let (done, found, m) ← m.compareExchange t.raw .narrow old.toUInt64 new.toUInt64
    return (done, ← enc.decode found.toUInt32, m)
  | none => m.compareExchange t.address .wide old new

@[simp] theorem wide_plain (slot : Address) : wide slot false = ⟨slot⟩ := rfl

end Tagged
end HeapBridge.Slot
