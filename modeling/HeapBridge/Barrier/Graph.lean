import HeapBridge.Barrier.Config
import HeapBridge.Barrier.Surroundings
import HeapBridge.Decimal.Shortest

/-!
# Barriers as graphs

The optimizing compiler builds a barrier from expression trees, guarded blocks, calls and memory
barriers. What it knows of an access is used up while it builds, so a graph may be empty.
-/
namespace HeapBridge.Barrier

open Decimal (Binary32)

/-- An expression. Loads and class checks are effects of its evaluation. -/
inductive Node
  | con (w : Word)
  | input (operand : Operand)
  | shiftRight (value amount : Node)
  | mask (lhs rhs : Node)
  /-- A sum that wraps. -/
  | add (base offset : Node)
  /-- A byte of metadata. -/
  | loadByte (address : Node)
  | loadFlag
  /-- One for a reference object, zero for any other and for null. -/
  | isReference (object : Node)
deriving DecidableEq, Inhabited

/-- The test of a guarded block. -/
inductive Test
  | eq
  | ne
deriving DecidableEq, Inhabited

def Test.holds : Test → Word → Word → Bool
  | eq, a, b => a == b
  | ne, a, b => a != b

/-- The strength of a memory barrier. -/
inductive MemoryBarrier
  /-- Orders memory operations for the compiler only. -/
  | compilerOrder
  /-- A fence. -/
  | full
deriving DecidableEq, Inhabited

/-- A statement. -/
inductive Stmt
  /-- A block that runs if a test holds, which it does with some probability. -/
  | ifThen (lhs : Node) (test : Test) (rhs : Node) (probability : Binary32) (body : List Stmt)
  | call (entry : Entry) (args : List Node)
  | memoryBarrier (kind : MemoryBarrier)
  | copy (src dst size : Node)
deriving Inhabited

/-- The graph of one access. -/
structure Graph where
  body : List Stmt
deriving Inhabited

namespace Graph

/-! ## Building -/

/-- A step of construction, over the statements of the block that is open. It fails on a call with
the wrong number of arguments. -/
abbrev Build := StateT (List Stmt) (Except Fault)

namespace Build

/-- Appends a statement to the open block. -/
def append (s : Stmt) : Build Unit := modify (· ++ [s])

/-- Appends a call. -/
def call (entry : Entry) (args : List Node) : Build Unit :=
  if args.length = entry.arity then append (.call entry args) else throw (.graphArity entry)

/-- Appends a memory barrier. -/
def memoryBarrier (kind : MemoryBarrier) : Build Unit := append (.memoryBarrier kind)

/-- Appends the copy of an object body. -/
def copy (src dst size : Node) : Build Unit := append (.copy src dst size)

/-- Appends a guarded block, which `inner` fills while it is open. -/
def ifThen (lhs : Node) (test : Test) (rhs : Node) (probability : Binary32)
    (inner : Build Unit) : Build Unit := do
  let outer ← getModify fun _ => []
  inner
  let body ← getModify fun _ => outer
  append (.ifThen lhs test rhs probability body)

/-- The graph of everything that was appended. -/
def finish (b : Build Unit) : Except Fault Graph := do
  let ((), body) ← b.run []
  return ⟨body⟩

mutual
/-- Builds one given statement. -/
def stmt : Stmt → Build Unit
  | .ifThen lhs test rhs p body => ifThen lhs test rhs p (stmts body)
  | .call entry args => call entry args
  | .memoryBarrier kind => memoryBarrier kind
  | .copy src dst size => copy src dst size

/-- Builds given statements in order. -/
def stmts : List Stmt → Build Unit
  | [] => pure ()
  | s :: ss => do
    stmt s
    stmts ss
end

end Build

open Build

/-- The write barrier for a slot. -/
def writeBarrier (cfg : Config) (src slot value : Node) : Build Unit := do
  if cfg.fastPath then
    let log ← cfg.unlogBits.logPerByte
    let address := .add (.con cfg.unlogBits.base) (.shiftRight slot (.con log.toUInt64))
    let shift := .mask (.shiftRight slot (.con cfg.unlogBits.logRegion.toUInt64)) (.con 7)
    let bit := .mask (.shiftRight (.loadByte address) shift) (.con 1)
    ifThen bit .ne (.con 0) .thousandth (call .writeSlow [src, slot, value])
  else call .writePre [src, slot, value]

/-- The part of a load barrier that looks at the marking flag and at the value. -/
def loadReport (cfg : Config) : Build Unit :=
  ifThen .loadFlag .ne (.con 0) .thousandth
    (ifThen (.input .value) .ne (.con 0) .half
      (match cfg.loadMode with
        | .referenceCall => call .loadReference [.input .value]
        | .slotLogging => writeBarrier cfg (.input .value) (.input .slot) (.input .value)))

/-- The barrier of a load. -/
def loadBarrier (cfg : Config) (l : Load) : Build Unit := do
  if l.needsBarrier cfg then
    if l.strength ≠ .unknown then
      loadReport cfg
      memoryBarrier .compilerOrder
    else if !(cfg.shortCircuit && l.cannotReadReferent cfg) then
      ifThen (.input .offset) .eq (.con cfg.referentOffset.toUInt64) .thousandth
        (ifThen (.isReference (.input .base)) .eq (.con 1) .thousandth (do
          loadReport cfg
          memoryBarrier .compilerOrder))

/-- The barrier of an access. -/
def build (cfg : Config) : Access → Build Unit
  | .store s => do
    if s.inHeap && !s.isElidable then
      writeBarrier cfg (.input .base) (.input .slot) (.input .value)
  | .load l => loadBarrier cfg l
  | .arrayCopy c => do
    if c.ofReferences && !c.freshTarget && !cfg.noArrayCopy then
      ifThen (.input .count) .ne (.con 0) .nineTenths
        (call .arrayCopyPre [.input .src, .input .dst, .input .count])
  | .clone c => do
    copy (.input .base) (.input .dst) (.input .size)
    if !c.freshTarget then
      call .clonePre [.input .dst]
      memoryBarrier .full

/-- The graph of an access. -/
def ofAccess (cfg : Config) (access : Access) : Except Fault Graph := (build cfg access).finish

def isEmpty (g : Graph) : Bool := g.body.isEmpty

mutual
/-- The number of calls in a statement. -/
def stmtCalls : Stmt → Nat
  | .ifThen _ _ _ _ body => stmtsCalls body
  | .call .. => 1
  | .memoryBarrier _ | .copy .. => 0

/-- The number of calls in statements. -/
def stmtsCalls : List Stmt → Nat
  | [] => 0
  | s :: ss => stmtCalls s + stmtsCalls ss
end

/-- The number of calls in a graph. -/
def callCount (g : Graph) : Nat := stmtsCalls g.body

/-! ## Evaluation -/

variable {σ : Type}

/-- The word that an expression has at an access. Operands are evaluated from the left. -/
def eval (env : Surroundings σ) (access : Access) : Node → Act σ Word
  | .con w => return w
  | .input operand =>
    match access.operand? operand with
    | some w => return w
    | none => throw (.noOperand access operand)
  | .shiftRight value amount => do
    let v ← eval env access value
    let n ← eval env access amount
    Act.lift (Word.shiftRight v n)
  | .mask lhs rhs => do
    let l ← eval env access lhs
    let r ← eval env access rhs
    return l &&& r
  | .add base offset => do
    let b ← eval env access base
    let o ← eval env access offset
    return b + o
  | .loadByte address => do
    let a ← eval env access address
    return (← env.loadMetadata a).toUInt64
  | .loadFlag => return (← env.loadFlag).toUInt64
  | .isReference object => do
    let o ← eval env access object
    return if ← env.isReference o then 1 else 0

/-- The words of expressions, from the left. -/
def evalAll (env : Surroundings σ) (access : Access) : List Node → Act σ (List Word)
  | [] => return []
  | n :: ns => do
    let w ← eval env access n
    let ws ← evalAll env access ns
    return w :: ws

mutual
/-- Executes one statement. -/
def execStmt (env : Surroundings σ) (access : Access) : Stmt → Act σ Unit
  | .ifThen lhs test rhs _ body => do
    let l ← eval env access lhs
    let r ← eval env access rhs
    if test.holds l r then exec env access body
  | .call entry args => do
    let words ← evalAll env access args
    match entry.bind? words with
    | some c => env.call c
    | none => throw (.arity entry)
  | .memoryBarrier .compilerOrder => return
  | .memoryBarrier .full => env.fence
  | .copy src dst size => do
    let s ← eval env access src
    let d ← eval env access dst
    let n ← eval env access size
    env.copy s d n

/-- Executes statements in order. -/
def exec (env : Surroundings σ) (access : Access) : List Stmt → Act σ Unit
  | [] => return
  | s :: ss => do
    execStmt env access s
    exec env access ss
end

/-- Runs a graph for an access. -/
def run (g : Graph) (env : Surroundings σ) (access : Access) : Act σ Unit := exec env access g.body

end Graph
end HeapBridge.Barrier
