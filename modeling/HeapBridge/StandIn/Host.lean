import HeapBridge.Object.ClassLayout
import HeapBridge.Scan.Closure
import HeapBridge.Scan.Roots
import HeapBridge.Text.Utf8
import HeapBridge.Word.Checked

/-!
# A stand-in for the virtual machine

A list of application threads with their records, and whatever roots, objects and weak slots it was
told of.
-/
namespace HeapBridge.StandIn

open Object (ClassLayout)
open Scan (RootKind Visit WeakStorage)

/-- How an object is described in diagnostics. -/
inductive Description
  /-- In the words of the stand-in. -/
  | own
  /-- Not at all. -/
  | absent
  /-- In the bytes up to the first zero. -/
  | bytes (bs : List UInt8)
deriving DecidableEq, Inhabited

/-- The state of the stand-in. -/
structure Host where
  /-- The application threads, and whether each has a record. -/
  threads : List (Thread × Bool)
  /-- A change of the list of threads broke off. Nobody can look at the list from then on. -/
  listBroken : Bool
  collectorThreads : List Thread
  state : Thread → ThreadState
  roots : RootKind → List Visit
  threadRoots : Thread → List Visit
  loaderRoots : List Visit
  weakLoaderRoots : List Visit
  weakSlots : WeakStorage → List Address
  fields : ObjectRef → List Visit
  size : ObjectRef → Word
  references : List ObjectRef
  layout : ClassLayout
  description : Description

namespace Host

/-- A stand-in that was told nothing. -/
def initial : Host where
  threads := []
  listBroken := false
  collectorThreads := []
  state := fun _ => .inNative
  roots := fun _ => []
  threadRoots := fun _ => []
  loaderRoots := []
  weakLoaderRoots := []
  weakSlots := fun _ => []
  fields := fun _ => []
  size := fun _ => 0
  references := []
  layout := ⟨0, 0, 0, 0, 0, 0, 0⟩
  description := .own

instance : Inhabited Host := ⟨initial⟩

/-! ## Layout constants -/

def staticFieldsOffset : Int := 112
def staticFieldCountOffset : Int := 104
def referentOffset : Int := 16
def discoveredOffset : Int := 32
def objectAlignment : Int := 16

/-! ## Threads -/

/-- The handle of the `n`-th thread of a stand-in, as long as handles last. -/
def threadOf (n : Word) : Thread := ⟨0x7f000000 + n * 0x100⟩

/-- The handle of the `n`-th thread of a stand-in. -/
def checkedThreadOf (n : Word) : Except Fault Thread := do
  return ⟨← Word.add 0x7f000000 (← Word.mul n 0x100)⟩

/-- Changes where a thread is executing. -/
def setState (h : Host) (t : Thread) (s : ThreadState) : Host :=
  { h with state := fun x => if x = t then s else h.state x }

/-- Adds an application thread, which executes managed code and has a record. -/
def addThread (h : Host) (t : Thread) : Host :=
  { h with threads := h.threads ++ [(t, true)] }.setState t .inManaged

/-- The first `n` threads of a stand-in. -/
def withThreads (n : Nat) : Host :=
  (List.range n).foldl (fun h i => h.addThread (threadOf (UInt64.ofNat (i + 1)))) initial

/-- The stand-in, for a look at its list of threads. -/
def listed (h : Host) : Except Fault Host :=
  if h.listBroken then .error .threadListBroken else .ok h

/-- A stand-in in which a change of the list of threads has broken off. -/
def breakList (h : Host) : Host := { h with listBroken := true }

/-- Takes the record of the thread at a place away. -/
def unbind (h : Host) (i : Nat) : Except Fault Host :=
  if i < h.threads.length then
    .ok { h with threads := h.threads.modify i fun t => (t.1, false) }
  else .error (.outOfBounds h.threads.length i)

/-- Whether a thread is an application thread. -/
def isApplicationThread (h : Host) (t : Thread) : Bool := h.threads.any (·.1 == t)

/-- Whether a thread has a record. Of two threads with one handle the first counts. -/
def hasRecord (h : Host) (t : Thread) : Bool :=
  ((h.threads.find? (·.1 == t)).map (·.2)).getD false

/-- Adds a thread of the collector. -/
def addCollectorThread (h : Host) (t : Thread) : Host :=
  { h with collectorThreads := t :: h.collectorThreads }

/-- The handles of all application threads. -/
def threadList (h : Host) : List Thread := h.threads.map (·.1)

/-- The number of threads that have a record. -/
def boundCount (h : Host) : Nat := h.threads.countP (·.2)

/-! ## Objects -/

/-- Tells the stand-in of an object. -/
def addObject (h : Host) (o : ObjectRef) (fields : List Visit) (size : Word) : Host :=
  { h with
    fields := fun x => if x = o then fields else h.fields x
    size := fun x => if x = o then size else h.size x }

/-- Tells the stand-in of a reference object. -/
def addReference (h : Host) (o : ObjectRef) : Host := { h with references := o :: h.references }

/-! ## Roots -/

/-- Sets the roots of one kind. -/
def setRoots (h : Host) (kind : RootKind) (visits : List Visit) : Host :=
  { h with roots := fun x => if x = kind then visits else h.roots x }

/-- Sets the roots of one thread. -/
def setThreadRoots (h : Host) (t : Thread) (visits : List Visit) : Host :=
  { h with threadRoots := fun x => if x = t then visits else h.threadRoots x }

/-- Sets the roots in class loader data. -/
def setLoaderRoots (h : Host) (strong weak : List Visit) : Host :=
  { h with loaderRoots := strong, weakLoaderRoots := weak }

/-- Sets the weak slots of one storage. -/
def setWeakSlots (h : Host) (storage : WeakStorage) (slots : List Address) : Host :=
  { h with weakSlots := fun x => if x = storage then slots else h.weakSlots x }

/-! ## Descriptions -/

/-- Sets the words for objects, or takes them away. -/
def setDescription (h : Host) (bytes : Option (List UInt8)) : Host :=
  { h with description := bytes.elim .absent .bytes }

/-- An object in words. -/
def describe (h : Host) (o : ObjectRef) : String :=
  match h.description with
  | .own => "mock object " ++ Text.hex o
  | .absent => Text.hex o
  | .bytes bs => Text.decodeTerminated bs

@[simp] theorem state_setState (h : Host) (t x : Thread) (s : ThreadState) :
    (h.setState t s).state x = if x = t then s else h.state x := rfl

/-- As long as no change has broken off, the list can be looked at. -/
theorem listed_of_intact {h : Host} (intact : h.listBroken = false) : h.listed = .ok h := by
  simp [listed, intact]

@[simp] theorem threads_addThread (h : Host) (t : Thread) :
    (h.addThread t).threads = h.threads ++ [(t, true)] := rfl

end Host
end HeapBridge.StandIn
