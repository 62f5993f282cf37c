import HeapBridge.Barrier.Machine
import HeapBridge.Proofs.Metadata.Region

/-!
# The layout of barrier code

What the generator appends, as plain lists. The piece of an access depends on the access, on the
configuration and on the first free register and label, and on nothing else of the code so far. The
main statements are `emit_eq` for bodies, `emitStub_eq` for stubs, and `compile_eq` for the code of
one access: body, return, stub.
-/
namespace HeapBridge.Barrier.Machine
open Metadata

/-- A stretch of code, the stub it puts aside, and the registers and labels it takes. -/
structure Piece where
  instrs : List Instr
  stub : Option Stub
  regs : Nat
  labels : Nat

/-- No code. -/
def Piece.empty : Piece := ⟨[], none, 0, 0⟩

/-- Code under construction with a piece appended. -/
def Emitter.add (e : Emitter) (p : Piece) : Emitter :=
  ⟨e.instrs ++ p.instrs, e.stubs ++ p.stub.toList, e.nextReg + p.regs, e.nextLabel + p.labels⟩

/-! ## Pieces -/

/-- The test of the unlog bit of a slot, in four registers from `r` on. The bit is left in the third
of them. -/
def bitTest (cfg : Config) (slot : Reg) (r : Nat) : List Instr :=
  [.move ⟨r⟩ (.reg slot), .shiftRight ⟨r⟩ (.imm (cfg.unlogBits.logRegion + 3).toUInt64),
    .move ⟨r + 1⟩ (.imm cfg.unlogBits.base), .loadByte ⟨r + 2⟩ ⟨r + 1⟩ ⟨r⟩,
    .move ⟨r + 3⟩ (.reg slot), .shiftRight ⟨r + 3⟩ (.imm cfg.unlogBits.logRegion.toUInt64),
    .mask ⟨r + 3⟩ (.imm 7), .shiftRight ⟨r + 2⟩ (.reg ⟨r + 3⟩), .mask ⟨r + 2⟩ (.imm 1)]

/-- The body of a store barrier. The slot of a patched store is left to the stub. -/
def storePiece (cfg : Config) (patched : Bool) (r l : Nat) : Piece :=
  if patched then
    ⟨[.arg ⟨r⟩ .base, .arg ⟨r + 1⟩ .value, .jump ⟨l⟩, .bind ⟨l + 1⟩],
      some ⟨⟨l⟩, ⟨l + 1⟩, .write ⟨r⟩ none ⟨r + 1⟩⟩, 2, 2⟩
  else if cfg.fastPath then
    ⟨[.arg ⟨r⟩ .base, .arg ⟨r + 1⟩ .value, .arg ⟨r + 2⟩ .slot] ++ bitTest cfg ⟨r + 2⟩ (r + 3) ++
        [.branch .equal ⟨r + 5⟩ (.imm 1) ⟨l⟩, .bind ⟨l + 1⟩],
      some ⟨⟨l⟩, ⟨l + 1⟩, .write ⟨r⟩ (some ⟨r + 2⟩) ⟨r + 1⟩⟩, 7, 2⟩
  else
    ⟨[.arg ⟨r⟩ .base, .arg ⟨r + 1⟩ .value, .arg ⟨r + 2⟩ .slot, .jump ⟨l⟩, .bind ⟨l + 1⟩],
      some ⟨⟨l⟩, ⟨l + 1⟩, .write ⟨r⟩ (some ⟨r + 2⟩) ⟨r + 1⟩⟩, 3, 2⟩

/-- The part of a load barrier that looks at the marking flag. -/
def reportPiece (r l : Nat) : Piece :=
  ⟨[.arg ⟨r⟩ .value, .loadFlag ⟨r + 1⟩, .branch .notEqual ⟨r + 1⟩ (.imm 0) ⟨l⟩, .bind ⟨l + 1⟩],
    some ⟨⟨l⟩, ⟨l + 1⟩, .load ⟨r⟩⟩, 2, 2⟩

/-- The test whether a load reads a referent. It leaves for `l` if not. -/
def referentTest (cfg : Config) (r l : Nat) : List Instr :=
  [.arg ⟨r⟩ .offset, .branch .notEqual ⟨r⟩ (.imm cfg.referentOffset.toUInt64) ⟨l⟩,
    .arg ⟨r + 1⟩ .base, .isReference ⟨r + 2⟩ ⟨r + 1⟩, .branch .equal ⟨r + 2⟩ (.imm 0) ⟨l⟩]

/-- The body of the barrier of a reflective load. -/
def guardedPiece (cfg : Config) (r l : Nat) : Piece :=
  ⟨referentTest cfg r l ++ (reportPiece (r + 3) (l + 1)).instrs ++ [.bind ⟨l⟩],
    (reportPiece (r + 3) (l + 1)).stub, 5, 3⟩

/-- The body of an array copy barrier. -/
def arrayCopyPiece (r l : Nat) : Piece :=
  ⟨[.arg ⟨r⟩ .count, .branch .equal ⟨r⟩ (.imm 0) ⟨l⟩, .arg ⟨r + 1⟩ .src, .arg ⟨r + 2⟩ .dst,
    .call .arrayCopyPre [⟨r + 1⟩, ⟨r + 2⟩, ⟨r⟩], .bind ⟨l⟩], none, 3, 1⟩

/-- The body of a clone. -/
def clonePiece (fresh : Bool) (r : Nat) : Piece :=
  ⟨[.arg ⟨r⟩ .base, .arg ⟨r + 1⟩ .dst, .arg ⟨r + 2⟩ .size, .copy ⟨r⟩ ⟨r + 1⟩ ⟨r + 2⟩] ++
    if fresh then [] else [.call .clonePre [⟨r + 1⟩], .fence], none, 3, 0⟩

/-- The body of the barrier of an access, in the registers and labels from `r` and `l` on. -/
def piece (cfg : Config) (r l : Nat) : Access → Piece
  | .store s => if s.inHeap && !s.isElidable then storePiece cfg s.needsPatching r l else .empty
  | .load ld =>
    if ld.needsBarrier cfg then
      if ld.strength = .unknown then guardedPiece cfg r l else reportPiece r l
    else .empty
  | .arrayCopy c =>
    if c.ofReferences && !c.freshTarget && !cfg.noArrayCopy then arrayCopyPiece r l else .empty
  | .clone c => clonePiece c.freshTarget r

/-- The call of the entry for writes. -/
def writeCall (cfg : Config) (src slot value : Reg) : Instr :=
  .call (if cfg.fastPath then .writeSlow else .writePre) [src, slot, value]

/-- The jump to `done` unless a slot is unlogged. -/
def skipCode (cfg : Config) (slot : Reg) (done : Label) (r : Nat) : List Instr :=
  if cfg.fastPath then bitTest cfg slot r ++ [.branch .notEqual ⟨r + 2⟩ (.imm 1) done] else []

/-- A write barrier within a stub, which fetches the slot and tests its bit itself. -/
def lateWrite (cfg : Config) (src value : Reg) (done : Label) (r : Nat) : List Instr :=
  .arg ⟨r⟩ .slot :: skipCode cfg ⟨r⟩ done (r + 1) ++ [writeCall cfg src ⟨r⟩ value]

/-- The number of registers of a write barrier within a stub. -/
def lateRegs (cfg : Config) : Nat := if cfg.fastPath then 5 else 1

/-- The code of a stub between its entry and the jump back. -/
def stubBody (cfg : Config) (stub : Stub) (r : Nat) : List Instr :=
  match stub.kind with
  | .write src (some slot) value => [writeCall cfg src slot value]
  | .write src none value => lateWrite cfg src value stub.continuation r
  | .load value =>
    .branch .equal value (.imm 0) stub.continuation ::
      match cfg.loadMode with
      | .referenceCall => [.call .loadReference [value]]
      | .slotLogging => lateWrite cfg value value stub.continuation r

/-- The number of registers of a stub. -/
def stubRegs (cfg : Config) (stub : Stub) : Nat :=
  match stub.kind with
  | .write _ (some _) _ => 0
  | .write _ none _ => lateRegs cfg
  | .load _ =>
    match cfg.loadMode with
    | .referenceCall => 0
    | .slotLogging => lateRegs cfg

/-- The code of a stub, in the registers from `r` on. -/
def stubPiece (cfg : Config) (r : Nat) (stub : Stub) : Piece :=
  ⟨.bind stub.entry :: stubBody cfg stub r ++ [.jump stub.continuation], none, stubRegs cfg stub, 0⟩

/-! ## Generation -/

namespace Emit
variable {α β : Type}

@[simp] theorem pure_apply (a : α) (e : Emitter) : (pure a : Emit α) e = .ok (a, e) := rfl

@[simp] theorem bind_apply (x : Emit α) (f : α → Emit β) (e : Emitter) :
    (x >>= f) e = x e >>= fun p => f p.1 p.2 := rfl

@[simp] theorem map_apply (f : α → β) (x : Emit α) (e : Emitter) :
    (f <$> x) e = x e >>= fun p => .ok (f p.1, p.2) := rfl

@[simp] theorem lift_apply (x : Except Fault α) (e : Emitter) :
    (liftM x : Emit α) e = x >>= fun a => .ok (a, e) := rfl

@[simp] theorem ok_bind (a : α) (f : α → Except Fault β) : (Except.ok a >>= f) = f a := rfl

@[simp] theorem ok_map (a : α) (f : α → β) : f <$> (Except.ok a : Except Fault α) = .ok (f a) := rfl

@[simp] theorem get_apply (e : Emitter) : (get : Emit Emitter) e = .ok (e, e) := rfl

@[simp] theorem push_apply (i : Instr) (e : Emitter) :
    push i e = .ok ((), { e with instrs := e.instrs ++ [i] }) := rfl

@[simp] theorem newReg_apply (e : Emitter) :
    newReg e = .ok (⟨e.nextReg⟩, { e with nextReg := e.nextReg + 1 }) := rfl

@[simp] theorem newLabel_apply (e : Emitter) :
    newLabel e = .ok (⟨e.nextLabel⟩, { e with nextLabel := e.nextLabel + 1 }) := rfl

@[simp] theorem arg_apply (operand : Operand) (e : Emitter) :
    arg operand e = .ok (⟨e.nextReg⟩,
      { e with instrs := e.instrs ++ [.arg ⟨e.nextReg⟩ operand], nextReg := e.nextReg + 1 }) := rfl

@[simp] theorem addStub_apply (kind : StubKind) (e : Emitter) :
    addStub kind e = .ok ((⟨e.nextLabel⟩, ⟨e.nextLabel + 1⟩),
      { e with
        stubs := e.stubs ++ [⟨⟨e.nextLabel⟩, ⟨e.nextLabel + 1⟩, kind⟩]
        nextLabel := e.nextLabel + 2 }) := rfl

end Emit

theorem unlogBit_eq {cfg : Config} (h : cfg.unlogBits.logRegion ≤ 60) (slot : Reg) (e : Emitter) :
    unlogBit cfg slot e =
      .ok (⟨e.nextReg + 2⟩, e.add ⟨bitTest cfg slot e.nextReg, none, 4, 0⟩) := by
  simp [unlogBit, bitTest, Emitter.add, UnlogBits.logPerByte_of_le h]

theorem emitReport_eq (e : Emitter) :
    emitReport e = .ok ((), e.add (reportPiece e.nextReg e.nextLabel)) := by
  simp [emitReport, reportPiece, Emitter.add]

/-- The body of a load does not depend on where the unlog bits are. -/
theorem emit_load_eq (cfg : Config) (l : Load) (e : Emitter) :
    emit cfg (.load l) e = .ok ((), e.add (piece cfg e.nextReg e.nextLabel (.load l))) := by
  simp only [emit, emitLoad, piece]
  split
  · split
    · simp [referentCheck, emitReport_eq, guardedPiece, referentTest, reportPiece, Emitter.add]
    · rw [emitReport_eq]
  · simp [Piece.empty, Emitter.add]

/-- The generator appends the piece of an access. -/
theorem emit_eq {cfg : Config} (h : cfg.unlogBits.logRegion ≤ 60) (access : Access) (e : Emitter) :
    emit cfg access e = .ok ((), e.add (piece cfg e.nextReg e.nextLabel access)) := by
  cases access with
  | store s =>
    simp only [emit, emitStore, piece]
    split
    · cases hp : s.needsPatching with
      | true => simp [storePiece, Emitter.add]
      | false =>
        cases hf : cfg.fastPath with
        | true => simp [storePiece, Emitter.add, unlogBit_eq h, hf]; rfl
        | false => simp [storePiece, Emitter.add, hf]
    · simp [Piece.empty, Emitter.add]
  | load l => exact emit_load_eq cfg l e
  | arrayCopy c =>
    simp only [emit, emitArrayCopy, piece]
    split
    · simp [arrayCopyPiece, Emitter.add]
    · simp [Piece.empty, Emitter.add]
  | clone c =>
    cases hc : c.freshTarget <;> simp [emit, emitClone, piece, clonePiece, Emitter.add, hc]

theorem skipIfLogged_eq {cfg : Config} (h : cfg.unlogBits.logRegion ≤ 60) (slot : Reg)
    (done : Label) (e : Emitter) :
    skipIfLogged cfg slot done e =
      .ok ((), e.add ⟨skipCode cfg slot done e.nextReg, none, lateRegs cfg - 1, 0⟩) := by
  cases hf : cfg.fastPath with
  | true => simp [skipIfLogged, skipCode, lateRegs, Emitter.add, unlogBit_eq h, hf]; rfl
  | false => simp [skipIfLogged, skipCode, lateRegs, Emitter.add, hf]

/-- The generator appends the piece of a stub. -/
theorem emitStub_eq {cfg : Config} (h : cfg.unlogBits.logRegion ≤ 60) (stub : Stub) (e : Emitter) :
    emitStub cfg stub e = .ok ((), e.add (stubPiece cfg e.nextReg stub)) := by
  have hregs : 1 + (lateRegs cfg - 1) = lateRegs cfg := by
    simp only [lateRegs]
    split <;> rfl
  obtain ⟨entry, done, kind⟩ := stub
  match kind with
  | .write src (some slot) value =>
    simp [emitStub, stubPiece, stubBody, stubRegs, callWrite, writeCall, Emitter.add]
  | .write src none value =>
    simp [emitStub, stubPiece, stubBody, stubRegs, skipIfLogged_eq h, callWrite, lateWrite,
      writeCall, Emitter.add, Nat.add_assoc, hregs]
  | .load value =>
    cases hm : cfg.loadMode with
    | referenceCall => simp [emitStub, stubPiece, stubBody, stubRegs, Emitter.add, hm]
    | slotLogging =>
      simp [emitStub, stubPiece, stubBody, stubRegs, skipIfLogged_eq h, callWrite, lateWrite,
        writeCall, Emitter.add, Nat.add_assoc, hregs, hm]

/-- What follows the return of the code of one access. -/
def Piece.tail (cfg : Config) (p : Piece) (r : Nat) : Piece :=
  match p.stub with
  | some stub => stubPiece cfg r stub
  | none => .empty

/-- The code of one access. -/
def codeOf (cfg : Config) (access : Access) : Code :=
  let body := piece cfg 0 0 access
  let tail := body.tail cfg body.regs
  ⟨body.instrs ++ .ret :: tail.instrs, body.regs + tail.regs⟩

/-- One access compiles, whatever it is. -/
theorem compile_eq {cfg : Config} (h : cfg.unlogBits.logRegion ≤ 60) (access : Access) :
    compile cfg access = .ok (codeOf cfg access) := by
  cases hs : (piece cfg 0 0 access).stub with
  | none =>
    simp [compile, compileAll, codeOf, StateT.run, emit_eq h, finish, Emitter.add, Emitter.empty,
      Piece.tail, Piece.empty, hs]
  | some stub =>
    simp [compile, compileAll, codeOf, StateT.run, emit_eq h, emitStub_eq h, finish, Emitter.add,
      Emitter.empty, Piece.tail, hs]

end HeapBridge.Barrier.Machine
