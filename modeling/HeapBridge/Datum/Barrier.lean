import HeapBridge.Barrier.Machine.Text
import HeapBridge.Barrier.Recorder
import HeapBridge.Barrier.Tier
import HeapBridge.Datum

/-!
# Barriers as shown values

Calls, recorded steps and graphs of barriers. Each kind of item has a label of its own and lists what
it is about.
-/
namespace HeapBridge.Barrier

open Datum (labelled)

instance : Named Executor := ⟨Executor.all, Executor.name⟩

instance : ToDatum Config := ⟨fun c =>
  .record [("base", datum c.unlogBits.base), ("fastpath", datum c.fastPath),
    ("mode", datum c.loadMode), ("no_arraycopy", datum c.noArrayCopy),
    ("ref_load", datum c.loadBarrier), ("referent_offset", datum c.referentOffset.toInt),
    ("region", datum c.unlogBits.logRegion), ("short_circuit", datum c.shortCircuit)]⟩

/-- A call. -/
def Call.datum : Call → Datum
  | .writeSlow src slot target => labelled "write_slow" ([src, slot, target].map ToDatum.datum)
  | .writePre src slot target => labelled "write_pre" ([src, slot, target].map ToDatum.datum)
  | .loadReference value => labelled "load_reference" [ToDatum.datum value]
  | .arrayCopyPre src dst count => labelled "array_copy_pre" ([src, dst, count].map ToDatum.datum)
  | .clonePre dst => labelled "clone_pre" [ToDatum.datum dst]

instance : ToDatum Call := ⟨Call.datum⟩

/-- A recorded step. -/
def Event.datum : Event → Datum
  | .loadMetadata a => labelled "load_metadata" [ToDatum.datum a]
  | .loadFlag => labelled "load_flag" []
  | .checkReference o => labelled "check_ref" [ToDatum.datum o]
  | .call c => c.datum
  | .copy src dst size => labelled "raw_copy" ([src, dst, size].map ToDatum.datum)
  | .fence => labelled "fence" []

instance : ToDatum Event := ⟨Event.datum⟩

instance : ToDatum Recorder.Recording := ⟨fun r =>
  .list (r.events.map datum ++ r.fault.toList.map datum)⟩

/-- An expression, operands inside. -/
def Node.datum : Node → Datum
  | .con w => labelled "con" [ToDatum.datum w]
  | .input operand => labelled "input" [ToDatum.datum operand]
  | .shiftRight value amount => labelled "urshift" [value.datum, amount.datum]
  | .mask lhs rhs => labelled "and" [lhs.datum, rhs.datum]
  | .add base offset => labelled "addp" [base.datum, offset.datum]
  | .loadByte address => labelled "load_b" [address.datum]
  | .loadFlag => labelled "load_flag" []
  | .isReference object => labelled "instanceof" [object.datum]

def Test.all : List Test := [eq, ne]

def Test.name : Test → String
  | eq => "eq"
  | ne => "ne"

def MemoryBarrier.all : List MemoryBarrier := [compilerOrder, full]

def MemoryBarrier.name : MemoryBarrier → String
  | compilerOrder => "CpuOrder"
  | full => "Volatile"

instance : Named Test := ⟨Test.all, Test.name⟩
instance : Named MemoryBarrier := ⟨MemoryBarrier.all, MemoryBarrier.name⟩

mutual
/-- A statement. Blocks contain their statements. -/
def Stmt.datum : Stmt → Datum
  | .ifThen lhs test rhs probability body =>
    labelled "if" [lhs.datum, ToDatum.datum test, rhs.datum, .text probability.text,
      .list (Stmt.data body)]
  | .call entry args =>
    labelled "call" [ToDatum.datum entry, .list (args.map Node.datum)]
  | .memoryBarrier kind => labelled "membar" [ToDatum.datum kind]
  | .copy src dst size => labelled "clone_copy" [src.datum, dst.datum, size.datum]

/-- Statements in order. -/
def Stmt.data : List Stmt → List Datum
  | [] => []
  | s :: ss => s.datum :: Stmt.data ss
end

instance : ToDatum Graph := ⟨fun g =>
  .record [("body", .list (Stmt.data g.body)), ("empty", datum g.isEmpty),
    ("calls", datum g.callCount)]⟩

end HeapBridge.Barrier
