import HeapBridge.Object.Forwarding
import HeapBridge.World.State

/-!
# Scanning at work

The collector asks for roots and for the fields of objects; the virtual machine enumerates slots, and
the closures of the scan report them. When a pause ends, weak slots are cleared or follow their
objects.
-/
namespace HeapBridge.World

open Scan (Closure Filled Filling RootKind Supply Visit WeakStorage)

/-! ## What there is to scan -/

/-- Refuses roots that cannot be read. -/
def checkRoots (visits : List Visit) : Act World Unit := do
  let e := (← get).heapEncoding
  visits.forM fun v => readMemory (v.require e)

/-- Sets the roots of one kind. -/
def setRoots (kind : RootKind) (visits : List Visit) : Act World Unit := do
  checkRoots visits
  setHost (·.setRoots kind visits)

/-- Sets the roots of one thread. -/
def setThreadRoots (t : Thread) (visits : List Visit) : Act World Unit := do
  checkRoots visits
  setHost (·.setThreadRoots t visits)

/-- Sets the roots in class loader data. -/
def setLoaderRoots (strong weak : List Visit) : Act World Unit := do
  checkRoots (strong ++ weak)
  setHost (·.setLoaderRoots strong weak)

/-- Sets the weak slots of one storage. Each of them is a word in memory. -/
def setWeakSlots (storage : WeakStorage) (slots : List Address) : Act World Unit := do
  slots.forM fun slot => readMemory (·.require slot .wide)
  setHost (·.setWeakSlots storage slots)

/-- Keeps an object alive. It begins with a word in memory. -/
def addLive (o : ObjectRef) : Act World Unit := do
  readMemory (·.require o .wide)
  setCollector (·.addLive o)

/-! ## Roots -/

/-- What a scan reported, and the fault that ended it early, if one did. -/
structure ScanResult where
  filled : Filled
  fault : Option Fault
deriving Inhabited

/-- A scan that failed before its first source. -/
def ScanResult.failed (supply : Supply) (fault : Fault) : ScanResult :=
  ⟨(Filling.start supply).finish supply, some fault⟩

/-- Scans the slots of several sources into one run of buffers. Each source is announced before its
slots are visited. A fault ends the scan. -/
def scanInto (c : Closure) (supply : Supply) :
    List (Event × List Visit) → Filling → Act World (Filling × Option Fault)
  | [], f => return (f, none)
  | (e, visits) :: rest, f => do
    emit e
    let w ← get
    match c.visitUntil w.heapEncoding w.memory supply visits f with
    | (f, none) => scanInto c supply rest f
    | (f, some fault) => return (f, some fault)

/-- Scans sources. What was written into the last buffer is reported even after a fault. -/
def scan (c : Closure) (supply : Supply) (sources : List (Event × List Visit)) :
    Act World ScanResult := do
  let (f, fault) ← scanInto c supply sources (.start supply)
  return ⟨f.finish supply, fault⟩

/-- Scans the roots of one kind. -/
def scanRoots (kind : RootKind) (supply : Supply) : Act World ScanResult := do
  scan .roots supply [(.scanRoots kind, (← get).host.roots kind)]

/-- A thread as a source of roots. -/
def threadSource (h : StandIn.Host) (t : Thread) : Event × List Visit :=
  (.scanThreadRoots t, h.threadRoots t)

/-- Scans the roots of all application threads. Without a list of them nothing is scanned. -/
def scanAllThreadRoots (supply : Supply) : Act World ScanResult := do
  match (← get).host.listed with
  | .ok h => scan .roots supply (h.threadList.map (threadSource h))
  | .error fault => return .failed supply fault

/-- Scans the roots of one thread. -/
def scanThreadRoots (t : Thread) (supply : Supply) : Act World ScanResult := do
  scan .roots supply [threadSource (← get).host t]

/-- Reports the objects that the roots of one thread refer to. -/
def scanThreadRootObjects (t : Thread) (supply : Supply) : Act World ScanResult := do
  scan .objects supply [threadSource (← get).host t]

/-- Scans the roots in class loader data, on request with the weak ones. -/
def scanLoaderRoots (weak : Bool) (supply : Supply) : Act World ScanResult := do
  let h := (← get).host
  scan .roots supply
    [(.scanLoaderRoots weak, h.loaderRoots ++ if weak then h.weakLoaderRoots else [])]

/-! ## Objects -/

/-- The words of slots up to the first that is refused. -/
def traceUntil (e : Option Slot.Encoding) : List Visit → List Word × Option Fault
  | [] => ([], none)
  | v :: vs =>
    match Scan.tracedWord e v with
    | .ok w =>
      let (ws, fault) := traceUntil e vs
      (w :: ws, fault)
    | .error fault => ([], some fault)

/-- Hands every slot of an object over. Class loaders are followed and not claimed. -/
def scanObject (o : ObjectRef) : Act World (List Word × Option Fault) := do
  emit (.scanObject o true false)
  let w ← get
  return traceUntil w.heapEncoding (w.host.fields o)

/-- An object in words, without zero characters. -/
def describeObject (o : ObjectRef) : Act World String := do
  let text := (← get).host.describe o
  return String.ofList (text.toList.map fun c => if c.toNat = 0 then ' ' else c)

/-! ## Weak slots -/

/-- Whether the collector keeps an object. -/
def isLive (o : ObjectRef) : Act World Bool := do
  emit (.isLive o)
  return (← get).collector.isLive o

/-- Lets a weak slot follow its object, if that has moved. -/
def follow (slot : Address) : Act World Unit := do
  let o ← readMemory (·.load slot .wide)
  if o = 0 then return
  if let some place ← readMemory (Object.placeOf? · o) then
    updateMemory (·.store slot .wide place)

/-- Clears a weak slot whose object is dead, and lets it follow one that lives. -/
def sweepSlot (slot : Address) : Act World Unit := do
  let o ← readMemory (·.load slot .wide)
  if o = 0 then return
  if ← isLive o then follow slot else updateMemory (·.store slot .wide 0)

/-- Sweeps a storage of weak slots. -/
def sweep (storage : WeakStorage) : Act World Unit := do
  emit (.sweep storage)
  ((← get).host.weakSlots storage).forM sweepSlot

/-- Sweeps the storage of a number. -/
def sweepNumbered (code : Int) : Act World Unit :=
  match WeakStorage.ofCode? code with
  | some storage => sweep storage
  | none => throw (.noWeakStorage code)

/-- Sweeps all storages in order. -/
def sweepAll : Act World Unit := WeakStorage.all.forM sweep

end HeapBridge.World
