import HeapBridge.World.Threads

/-!
# What changes

The counters of a world, and what sets a world apart from an earlier one.
-/
namespace HeapBridge.World

/-- The counters, by name. -/
def counters (w : World) : List (String × Int) :=
  let p := w.pause
  [("safepoints", p.tally .safepointBegin), ("prologues", w.tally .prologue),
    ("epilogues", w.tally .epilogue), ("cleanups", p.tally .cleanup),
    ("finalizer_wakeups", w.tally .scheduleFinalizer), ("nmethod_fixups", w.tally .fixRelocations),
    ("re_scan_preparations", w.tally .prepareRescan),
    ("out_of_memory", w.memoryFailures.length), ("spawned", w.spawned.length),
    ("locker_checks", p.tally .lockerCheck), ("locker_stalls", p.tally .lockerStall),
    ("world_stopped", p.worldStopped.toNat), ("heap_locked", p.lock.locked.toNat),
    ("notifications", p.lock.notifications), ("alloc", w.tallyOf Event.isAlloc),
    ("post_alloc", w.tallyOf Event.isPostAlloc), ("flush_mutator", w.tallyOf Event.isFlush),
    ("destroy_mutator", w.tallyOf Event.isDestroy), ("report_gc_start", w.tally .reportStart),
    ("released", w.tallyOf Event.isRelease),
    ("mutator_array_copies", w.tallyOf Event.isMutatorArrayCopy),
    ("desired", p.sync.desired.code), ("reached", p.sync.reached.code),
    ("marking", w.marking.toNat), ("resumes", w.restarts.count),
    ("at_safepoint", p.atSafepoint.toNat)]

/-- What happened between two worlds. -/
structure Changes where
  /-- The counters that differ, with their later values. -/
  counters : List (String × Int)
  /-- The barrier entries that the collector saw. -/
  calls : List Barrier.Call
  events : List Event
  diagnostics : List Diagnostic
deriving Inhabited

/-- The entries of a later table that differ from those of an earlier one. -/
def differing : List (String × Int) → List (String × Int) → List (String × Int)
  | x :: xs, y :: ys => if x.2 = y.2 then differing xs ys else y :: differing xs ys
  | _, _ => []

/-- What happened since an earlier world. -/
def changesSince (earlier later : World) : Changes :=
  let fresh := later.trace.drop earlier.trace.length
  { counters := differing earlier.counters later.counters
    calls := fresh.filterMap Event.call?
    events := fresh
    diagnostics := later.diagnostics.drop earlier.diagnostics.length }

end HeapBridge.World
