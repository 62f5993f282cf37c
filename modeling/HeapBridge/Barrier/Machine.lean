import HeapBridge.Barrier.Config
import HeapBridge.Barrier.Surroundings

/-!
# Barriers as linear code

The baseline compiler lowers a barrier to a list of instructions over registers. Rare paths are
moved behind the end of the body: a branch leaves the body for such a stub, and the stub jumps back
to the place where the body goes on.
-/
namespace HeapBridge.Barrier.Machine

/-- A register. -/
structure Reg where
  index : Nat
deriving DecidableEq, Inhabited

/-- The name of a place in the code. -/
structure Label where
  index : Nat
deriving DecidableEq, Inhabited

/-- A register or a constant. -/
inductive Source
  | reg (r : Reg)
  | imm (w : Word)
deriving DecidableEq, Inhabited

inductive Cond
  | equal
  | notEqual
deriving DecidableEq, Inhabited

/-- Whether a condition holds of two words. -/
def Cond.holds : Cond → Word → Word → Bool
  | equal, a, b => a == b
  | notEqual, a, b => a != b

inductive Instr
  /-- Fetches a word that the access supplies. -/
  | arg (dst : Reg) (operand : Operand)
  | move (dst : Reg) (src : Source)
  | shiftRight (dst : Reg) (amount : Source)
  | mask (dst : Reg) (bits : Source)
  /-- Loads the metadata byte at the sum of two registers. -/
  | loadByte (dst base index : Reg)
  | loadFlag (dst : Reg)
  | isReference (dst object : Reg)
  | branch (cond : Cond) (lhs : Reg) (rhs : Source) (target : Label)
  | jump (target : Label)
  /-- Marks the place of a label. -/
  | bind (label : Label)
  | call (entry : Entry) (args : List Reg)
  | copy (src dst size : Reg)
  | fence
  | ret
deriving DecidableEq, Inhabited

/-- What a stub does once the body has branched to it. -/
inductive StubKind
  /-- Calls the write entry. Without a slot, the stub fetches it and tests its bit first. -/
  | write (src : Reg) (slot : Option Reg) (value : Reg)
  /-- Reports a loaded value unless it is null. -/
  | load (value : Reg)
deriving DecidableEq, Inhabited

/-- Code that is laid out behind the body. -/
structure Stub where
  entry : Label
  continuation : Label
  kind : StubKind
deriving DecidableEq, Inhabited

/-- Code under construction. -/
structure Emitter where
  instrs : List Instr
  stubs : List Stub
  nextReg : Nat
  nextLabel : Nat
deriving Inhabited

/-- A step of code generation. It fails where a constant of the code does not exist. -/
abbrev Emit := StateT Emitter (Except Fault)

/-- No code yet. -/
def Emitter.empty : Emitter := ⟨[], [], 0, 0⟩

def push (i : Instr) : Emit Unit := modify fun e => { e with instrs := e.instrs ++ [i] }

def newReg : Emit Reg :=
  modifyGet fun e => (⟨e.nextReg⟩, { e with nextReg := e.nextReg + 1 })

def newLabel : Emit Label :=
  modifyGet fun e => (⟨e.nextLabel⟩, { e with nextLabel := e.nextLabel + 1 })

/-- Fetches an operand into a new register. -/
def arg (operand : Operand) : Emit Reg := do
  let dst ← newReg
  push (.arg dst operand)
  return dst

/-- Puts a stub aside, and gives its entry and the label at which it comes back. -/
def addStub (kind : StubKind) : Emit (Label × Label) := do
  let entry ← newLabel
  let continuation ← newLabel
  modify fun e => { e with stubs := e.stubs ++ [⟨entry, continuation, kind⟩] }
  return (entry, continuation)

/-- Leaves the unlog bit of a slot in a new register, as zero or one. -/
def unlogBit (cfg : Config) (slot : Reg) : Emit Reg := do
  let offset ← newReg
  push (.move offset (.reg slot))
  let log ← cfg.unlogBits.logPerByte
  push (.shiftRight offset (.imm log.toUInt64))
  let base ← newReg
  push (.move base (.imm cfg.unlogBits.base))
  let byte ← newReg
  push (.loadByte byte base offset)
  let shift ← newReg
  push (.move shift (.reg slot))
  push (.shiftRight shift (.imm cfg.unlogBits.logRegion.toUInt64))
  push (.mask shift (.imm 7))
  push (.shiftRight byte (.reg shift))
  push (.mask byte (.imm 1))
  return byte

/-- The body of a store barrier. -/
def emitStore (cfg : Config) (s : Store) : Emit Unit := do
  if s.inHeap && !s.isElidable then
    let src ← arg .base
    let value ← arg .value
    if s.needsPatching then
      let (entry, continuation) ← addStub (.write src none value)
      push (.jump entry)
      push (.bind continuation)
    else
      let slot ← arg .slot
      let (entry, continuation) ← addStub (.write src (some slot) value)
      if cfg.fastPath then
        let bit ← unlogBit cfg slot
        push (.branch .equal bit (.imm Units.unlogged.toUInt64) entry)
      else push (.jump entry)
      push (.bind continuation)

/-- Skips to `done` unless the access reads the referent of a reference object. -/
def referentCheck (cfg : Config) (done : Label) : Emit Unit := do
  let offset ← arg .offset
  push (.branch .notEqual offset (.imm cfg.referentOffset.toUInt64) done)
  let base ← arg .base
  let isRef ← newReg
  push (.isReference isRef base)
  push (.branch .equal isRef (.imm 0) done)

/-- The part of a load barrier that looks at the marking flag. -/
def emitReport : Emit Unit := do
  let value ← arg .value
  let (entry, continuation) ← addStub (.load value)
  let flag ← newReg
  push (.loadFlag flag)
  push (.branch .notEqual flag (.imm 0) entry)
  push (.bind continuation)

/-- The body of a load barrier. -/
def emitLoad (cfg : Config) (l : Load) : Emit Unit := do
  if l.needsBarrier cfg then
    if l.strength = .unknown then
      let done ← newLabel
      referentCheck cfg done
      emitReport
      push (.bind done)
    else emitReport

/-- The body of an array copy barrier. -/
def emitArrayCopy (cfg : Config) (c : ArrayCopy) : Emit Unit := do
  if c.ofReferences && !c.freshTarget && !cfg.noArrayCopy then
    let done ← newLabel
    let count ← arg .count
    push (.branch .equal count (.imm 0) done)
    let src ← arg .src
    let dst ← arg .dst
    push (.call .arrayCopyPre [src, dst, count])
    push (.bind done)

/-- The body of a clone. -/
def emitClone (c : Clone) : Emit Unit := do
  let src ← arg .base
  let dst ← arg .dst
  let size ← arg .size
  push (.copy src dst size)
  if !c.freshTarget then
    push (.call .clonePre [dst])
    push .fence

/-- Appends the body of the barrier of an access. -/
def emit (cfg : Config) : Access → Emit Unit
  | .store s => emitStore cfg s
  | .load l => emitLoad cfg l
  | .arrayCopy c => emitArrayCopy cfg c
  | .clone c => emitClone c

/-- Goes on at `continuation` if the slot has been logged already. -/
def skipIfLogged (cfg : Config) (slot : Reg) (continuation : Label) : Emit Unit := do
  if cfg.fastPath then
    let bit ← unlogBit cfg slot
    push (.branch .notEqual bit (.imm Units.unlogged.toUInt64) continuation)

/-- Calls the entry for writes. -/
def callWrite (cfg : Config) (src slot value : Reg) : Emit Unit :=
  push (.call (if cfg.fastPath then .writeSlow else .writePre) [src, slot, value])

/-- Lays out one stub. -/
def emitStub (cfg : Config) (stub : Stub) : Emit Unit := do
  push (.bind stub.entry)
  match stub.kind with
  | .write src (some slot) value => callWrite cfg src slot value
  | .write src none value =>
    let slot ← arg .slot
    skipIfLogged cfg slot stub.continuation
    callWrite cfg src slot value
  | .load value =>
    push (.branch .equal value (.imm 0) stub.continuation)
    match cfg.loadMode with
    | .referenceCall => push (.call .loadReference [value])
    | .slotLogging =>
      let slot ← arg .slot
      skipIfLogged cfg slot stub.continuation
      callWrite cfg value slot value
  push (.jump stub.continuation)

/-- Finished code, and the number of registers it uses. -/
structure Code where
  instrs : List Instr
  registers : Nat
deriving DecidableEq, Inhabited

/-- Ends the body and lays out the stubs behind it, in the order in which they were put aside. -/
def finish (cfg : Config) : Emit Unit := do
  push .ret
  for stub in (← get).stubs do emitStub cfg stub

/-- The code of a list of accesses, one body after the other. -/
def compileAll (cfg : Config) (accesses : List Access) : Except Fault Code := do
  let ((), e) ← (do
    for access in accesses do emit cfg access
    finish cfg : Emit Unit).run .empty
  return ⟨e.instrs, e.nextReg⟩

/-- The code of one access. -/
def compile (cfg : Config) (access : Access) : Except Fault Code := compileAll cfg [access]

/-- Whether code does nothing but return. -/
def Code.isEmpty (code : Code) : Bool := code.instrs == [.ret]

/-- The contents of the registers. -/
structure Registers where
  size : Nat
  value : Nat → Word

namespace Registers

/-- Registers that all hold zero. -/
def zeroed (n : Nat) : Registers := ⟨n, fun _ => 0⟩

/-- The word in a register. -/
def get (rs : Registers) (r : Reg) : Except Fault Word :=
  if r.index < rs.size then .ok (rs.value r.index) else .error (.outOfBounds rs.size r.index)

/-- Puts a word into a register. -/
def set (rs : Registers) (r : Reg) (w : Word) : Except Fault Registers :=
  if r.index < rs.size then
    .ok { rs with value := fun i => if i = r.index then w else rs.value i }
  else .error (.outOfBounds rs.size r.index)

/-- The word that a source stands for. -/
def read (rs : Registers) : Source → Except Fault Word
  | .reg r => rs.get r
  | .imm w => .ok w

end Registers

/-- The place of a label. -/
def Code.placeOf? (code : Code) (l : Label) : Option Nat :=
  code.instrs.findIdx? (· == Instr.bind l)

/-- The place of a label, or a place outside any code. -/
def Code.placeOf (code : Code) (l : Label) : Nat := (code.placeOf? l).getD (UInt64.size - 1)

variable {σ : Type}

/-- Executes the instruction at `pc`. Gives the next place and the registers, or nothing at the
end. -/
def step (code : Code) (access : Access) (env : Surroundings σ) (pc : Nat) (rs : Registers) :
    Act σ (Option (Nat × Registers)) :=
  let next (rs : Registers) : Act σ (Option (Nat × Registers)) := pure (some (pc + 1, rs))
  let goTo (l : Label) : Act σ (Option (Nat × Registers)) := pure (some (code.placeOf l, rs))
  let put (dst : Reg) (w : Word) : Act σ (Option (Nat × Registers)) := do
    next (← Act.lift (rs.set dst w))
  match code.instrs[pc]? with
  | none => throw (.outOfBounds code.instrs.length pc)
  | some i => match i with
    | .arg dst operand =>
      match access.operand? operand with
      | some w => put dst w
      | none => throw (.noOperand access operand)
    | .move dst src => do put dst (← Act.lift (rs.read src))
    | .shiftRight dst amount => do
      let n ← Act.lift (rs.read amount)
      let w ← Act.lift (rs.get dst)
      put dst (← Act.lift (Word.shiftRight w n))
    | .mask dst bits => do
      let b ← Act.lift (rs.read bits)
      let w ← Act.lift (rs.get dst)
      put dst (w &&& b)
    | .loadByte dst base index => do
      let b ← Act.lift (rs.get base)
      let i ← Act.lift (rs.get index)
      let byte ← env.loadMetadata (b + i)
      put dst byte.toUInt64
    | .loadFlag dst => do
      let flag ← env.loadFlag
      put dst flag.toUInt64
    | .isReference dst object => do
      let o ← Act.lift (rs.get object)
      let b ← env.isReference o
      put dst (if b then 1 else 0)
    | .branch cond lhs rhs target => do
      let l ← Act.lift (rs.get lhs)
      let r ← Act.lift (rs.read rhs)
      if cond.holds l r then goTo target else next rs
    | .jump target => goTo target
    | .bind _ => next rs
    | .call entry args => do
      let words ← Act.lift (args.mapM rs.get)
      match entry.bind? words with
      | some c => env.call c
      | none => throw (.arity entry)
      next rs
    | .copy src dst size => do
      let s ← Act.lift (rs.get src)
      let d ← Act.lift (rs.get dst)
      let n ← Act.lift (rs.get size)
      env.copy s d n
      next rs
    | .fence => do
      env.fence
      next rs
    | .ret => pure none

/-- Executes at most `fuel` instructions from `pc` on. -/
def runFrom (code : Code) (access : Access) (env : Surroundings σ) :
    Nat → Nat → Registers → Act σ Unit
  | 0, _, _ => throw .wouldBlock
  | fuel + 1, pc, rs => do
    match ← step code access env pc rs with
    | some (pc, rs) => runFrom code access env fuel pc rs
    | none => return

/-- Runs code for an access. No run executes an instruction twice, so the length of the code
bounds it. -/
def Code.run (code : Code) (env : Surroundings σ) (access : Access) : Act σ Unit :=
  runFrom code access env code.instrs.length 0 (.zeroed code.registers)

end HeapBridge.Barrier.Machine
