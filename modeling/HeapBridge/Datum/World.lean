import HeapBridge.Datum.Barrier
import HeapBridge.World.Pausing
import HeapBridge.World.Session

/-!
# The mutator side as shown values

Allocation, slots, scans and pauses, and what passes between the mutator side and its two partners.
-/
namespace HeapBridge

open Datum (labelled unlessEmpty)

instance : Named Alloc.PairSize := ⟨Alloc.PairSize.all, Alloc.PairSize.name⟩
instance : Named Scan.RootKind := ⟨Scan.RootKind.all, Scan.RootKind.name⟩

instance : ToDatum Slot.Encoding := ⟨fun e => datum (e.base, e.shift)⟩

instance : ToDatum Slot.Tagged := ⟨fun t =>
  .record [("raw", datum t.raw), ("compressed", datum t.isCompressed),
    ("untagged", datum t.address), ("debug", datum t.describe)]⟩

instance : ToDatum Alloc.Bump := ⟨fun b => datum (b.cursor, b.limit)⟩

instance : ToDatum Alloc.Record := ⟨fun r =>
  .record (r.pairs.map fun p => (p.1.name, datum p.2))⟩

/-- Where the bump pointer of an allocator is found. -/
def Alloc.Layout.Info.datum : Alloc.Layout.Info → Datum
  | .bump limit cursor =>
    .record [("limit_offset", ToDatum.datum limit), ("cursor_offset", ToDatum.datum cursor)]
  | .unimplemented => .text "Unimplemented"
  | .none => .text "None"

instance : ToDatum Alloc.Layout.Info := ⟨Alloc.Layout.Info.datum⟩

/-- Root packets, by kind. -/
def Scan.Packets.fields (p : Scan.Packets) : List (String × Datum) :=
  [("edges", datum p.edges), ("nodes", datum p.nodes)]

/-! ## Events -/

/-- A step of a pause, if it passes between the mutator side and the virtual machine. -/
def Pause.Event.datum? : Pause.Event → Option Datum
  | .safepointBegin => labelled "safepoint_begin" []
  | .safepointEnd => labelled "safepoint_end" []
  | .lockerCheck => labelled "check_active_before_gc" []
  | .lockerStall => labelled "stall_until_clear" []
  | .cleanup => labelled "cleanup_after_gc" []
  | .mark .. | .refused _ | .report _ => none

/-- What an operation on the VM thread noted. -/
def Pause.Event.logDatum : Pause.Event → Datum
  | .mark m role atSafepoint worldStopped =>
    .list [.text m.name, datum role, datum atSafepoint, datum worldStopped]
  | .refused f => .fault f
  | _ => .absent

/-- Something that was asked of the collector or of the virtual machine. -/
def World.Event.datum? : World.Event → Option Datum
  | .bindMutator t => labelled "bind_mutator" [datum t]
  | .releaseMutator t => labelled "release_mutator" [datum t]
  | .alloc t size align offset sem =>
    labelled "alloc" [datum t, datum size, datum align.toNat, datum offset.toNat, datum sem]
  | .postAlloc o size sem => labelled "post_alloc" [datum o, datum size, datum sem]
  | .flushMutator t => labelled "flush_mutator" [datum t]
  | .destroyMutator t => labelled "destroy_mutator" [datum t]
  | .mutatorArrayCopy t src dst count =>
    labelled "array_copy_pre" (datum t :: [src, dst, count].map datum)
  | .barrier (.arrayCopyPre src dst count) =>
    labelled "object_reference_array_copy_pre" ([src, dst, count].map datum)
  | .barrier c => datum c
  | .isLive o => labelled "is_live" [datum o]
  | .reportStart => labelled "report_gc_start" []
  | .metadataBase compressed => labelled "side_metadata_base" [datum compressed]
  | .spawnThread t kind context => labelled "spawn_gc_thread" [datum t, datum kind, datum context]
  | .outOfMemory t error => labelled "out_of_memory" [datum t, datum error]
  | .setState t s => labelled "set_thread_state" [datum t, datum s]
  | .prologue => labelled "gc_prologue" []
  | .epilogue => labelled "gc_epilogue" []
  | .scanObject o followLoaders claimLoaders =>
    labelled "scan_object" [datum o, datum followLoaders, datum claimLoaders]
  | .isReference o => labelled "is_reference_instance" [datum o]
  | .scanRoots kind => labelled "scan_roots" [datum (Scan.RootKind.all.idxOf kind)]
  | .scanThreadRoots t => labelled "scan_thread_roots" [datum t]
  | .scanLoaderRoots weak => labelled "scan_class_loader_data_graph_roots" [datum weak]
  | .sweep storage => labelled "weak_oops_do" [datum storage.code]
  | .scheduleFinalizer => labelled "schedule_finalizer" []
  | .prepareRescan => labelled "prepare_for_roots_re_scanning" []
  | .fixRelocations => labelled "fix_nmethod_relocations" []
  | .pause e => e.datum?

/-- What changed, by part. Parts in which nothing changed are left out. Events are shown only to those
who listen to both partners. -/
def World.Changes.fields (c : World.Changes) (withEvents : Bool) : List (String × Datum) :=
  (if c.counters.isEmpty then []
    else [("changed", .record (c.counters.map fun p => (p.1, .number p.2)))]) ++
    unlessEmpty "calls" (c.calls.map datum) ++
    (if withEvents then unlessEmpty "events" (c.events.filterMap World.Event.datum?) else []) ++
    unlessEmpty "warn" (c.diagnostics.map datum)

/-! ## States -/

/-- Whether a context is bound, to which thread, and its buffers. -/
def Alloc.Context.items (c : Alloc.Context) : List Datum :=
  [datum c.isBound, datum c.record.thread, datum c.record]

/-- A context, and how often the collector was asked for each service of allocation. -/
def World.allocationFields (w : World) (c : Alloc.Context) : List (String × Datum) :=
  [("bound", datum c.isBound), ("pairs", datum c.record),
    ("counts", datum ([World.Event.isAlloc, World.Event.isPostAlloc, World.Event.isFlush,
      World.Event.isDestroy, World.Event.isRelease].map w.tallyOf)),
    ("last_semantics", datum w.collector.lastSemantics),
    ("last_released_cursor", datum (w.collector.lastReleased.map (·.pair .first |>.cursor)))]

/-- The states of a pause and how far it has come. -/
def Pause.System.stall (s : Pause.System) : List Datum :=
  [datum s.states, datum (s.tally .lockerCheck), datum (s.tally .safepointBegin),
    datum (s.tally .cleanup)]

/-- What can be asked of the virtual machine at any time. -/
def StandIn.Host.answers (h : StandIn.Host) : List Datum :=
  [datum h.threads.length, datum h.layout.checksum, datum StandIn.Host.staticFieldsOffset,
    datum StandIn.Host.staticFieldCountOffset, datum StandIn.Host.referentOffset,
    datum StandIn.Host.discoveredOffset, datum StandIn.Host.objectAlignment]

/-- What is fixed when the mutator side has started. -/
def World.startFields (w : World) : List (String × Datum) :=
  let a := w.allocation
  [("encoding", datum w.heapEncoding), ("installed", datum w.encoding),
    ("barrier", datum w.barrier),
    ("allocation", .list [datum a.largeObjectLimit, datum a.selector.describe,
      datum a.fastDisabled, datum a.largeBumpThreshold])]

end HeapBridge
