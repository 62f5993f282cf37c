import HeapBridge.World.State

/-!
# Starting

The layouts that all sides share are checked, and the parameters of barriers and allocation are fixed
from the settings and from what the collector says.
-/
namespace HeapBridge.World

/-- Fails unless the class records have the sizes that the mutator side was built for. -/
def checkClassLayout (layout : Object.ClassLayout) (expected : Word) : Except Fault Unit :=
  if layout.checksum = expected then .ok () else .error (.classLayout layout expected)

/-- The encoding of narrow slots, if the settings want one. -/
def encodingFor (s : Settings) (heap : Address × Address) :
    Except Fault (Option Slot.Encoding) :=
  if s.get .compressedReferences then do return some (← Slot.Encoding.forHeap heap.1 heap.2)
  else .ok none

/-- Applies a command line to settings that nobody has changed, and reports what is wrong with it. -/
def configure (line : String) : Act World Settings.Outcome := do
  let o := Settings.defaults.applyCommandLine line
  o.reports.forM report
  return o

/-- What has started cannot be started again. A command line is looked at first. -/
def startAgain (line : Option String) : Act World Unit := do
  if let some line := line then
    unless (← configure line).taken do throw (.badOptions line)
  throw .alreadyStarted

/-- Fails unless a thread can have a name. -/
def checkThreadName (name : String) : Except Fault Unit :=
  let bytes := name.toUTF8.data.toList
  match bytes.findIdx? (· = 0) with
  | some place => .error (.zeroInThreadName place bytes)
  | none => .ok ()

/-- Starts the mutator side. The layouts are checked first, and the companion is started last. -/
def start (s : Settings) (expectedChecksum : Option Word) : Act World Unit := do
  Alloc.checkRecordSizes report (← get).collector.sizes
  let w ← get
  if let some expected := expectedChecksum then
    Act.lift (checkClassLayout w.host.layout expected)
  let e ← Act.lift (encodingFor s w.collector.heap)
  modify fun w => { w with encoding := e, heapEncoding := e }
  emit (.metadataBase (s.get .compressedReferences))
  modify fun w => { w with
    barrier := .ofSettings s w.collector.metadataBase (.ofInt StandIn.Host.referentOffset)
    allocation := {
      largeObjectLimit := w.collector.largeObjectLimit
      selector := w.collector.selector
      fastDisabled := s.get .fastAllocDisabled
      largeBumpThreshold := s.get .largeBumpThreshold } }
  Act.lift (checkThreadName (s.get .companionName))
  modify fun w => { w with pause := w.pause.settle }

end HeapBridge.World
