import HeapBridge.Fault

/-!
# Edge buffers

A scan writes what it reports into buffers that it borrows from the collector. A full buffer goes
back at once and the next one is borrowed. At the end a partly filled buffer goes back too, and the
buffer that is live then is released unused.
-/
namespace HeapBridge.Scan

/-- The capacities of the buffers that a collector hands out in turn. Zero is no buffer. -/
abbrev Supply := Nat → Nat

namespace Supply

/-- The listed capacities, of which the last one repeats. -/
def ofList (capacities : List Nat) : Supply :=
  fun i => capacities.getD i (capacities.getLast?.getD 0)

/-- Buffers of one capacity. They have to hold something. -/
def constant (capacity : Nat) : Except Fault Supply :=
  if capacity = 0 then .error .zeroCapacity else .ok fun _ => capacity

end Supply

/-- A borrowed buffer: its turn among all buffers, what it can hold and what was written into it. -/
structure Buffer where
  turn : Nat
  capacity : Nat
  words : List Word
deriving DecidableEq, Inhabited

/-- The buffers of a scan under way. -/
structure Filling where
  /-- The number of buffers borrowed so far. -/
  borrowed : Nat
  live : Buffer
  /-- The buffers that went back, in order. -/
  reported : List Buffer
deriving DecidableEq, Inhabited

/-- The buffers of a scan that has ended. -/
structure Filled where
  borrowed : Nat
  reported : List Buffer
  /-- The last buffer, if there was one. -/
  released : Option Buffer
deriving DecidableEq, Inhabited

namespace Filling

/-- A scan borrows its first buffer before it visits anything. -/
def start (supply : Supply) : Filling := ⟨1, ⟨0, supply 0, []⟩, []⟩

/-- Hands the live buffer back and borrows the next one. -/
def renew (supply : Supply) (f : Filling) : Filling :=
  ⟨f.borrowed + 1, ⟨f.borrowed, supply f.borrowed, []⟩, f.reported ++ [f.live]⟩

/-- Hands the live buffer back if something was written into it. -/
def flush (supply : Supply) (f : Filling) : Filling :=
  if f.live.words.isEmpty then f else f.renew supply

/-- Writes a word into the live buffer. -/
def write (w : Word) (f : Filling) : Filling :=
  { f with live := { f.live with words := f.live.words ++ [w] } }

/-- Whether nothing more can be written into the live buffer. -/
def isFull (f : Filling) : Bool := f.live.capacity ≤ f.live.words.length

/-- Writes a word into the live buffer, which goes back as soon as it is full. -/
def push (supply : Supply) (w : Word) (f : Filling) : Except Fault Filling :=
  if f.isFull then .error .bufferFull
  else .ok (if (f.write w).isFull then (f.write w).renew supply else f.write w)

/-- Ends a scan. -/
def finish (supply : Supply) (f : Filling) : Filled :=
  let last := f.flush supply
  ⟨last.borrowed, last.reported, if last.live.capacity = 0 then none else some last.live⟩

@[simp] theorem borrowed_start (supply : Supply) : (start supply).borrowed = 1 := rfl
@[simp] theorem words_renew (supply : Supply) (f : Filling) : (f.renew supply).live.words = [] := rfl
@[simp] theorem reported_renew (supply : Supply) (f : Filling) :
    (f.renew supply).reported = f.reported ++ [f.live] := rfl

@[simp] theorem words_write (w : Word) (f : Filling) :
    (f.write w).live.words = f.live.words ++ [w] := rfl

end Filling

/-- The words that a scan reported, buffer by buffer. -/
def Filled.packets (f : Filled) : List (List Word) := f.reported.map (·.words)

end HeapBridge.Scan
