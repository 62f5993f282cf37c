import HeapBridge.Barrier.Machine

/-!
# Listings

The printed form of linear code, one line an instruction.
-/
namespace HeapBridge.Barrier.Machine
open Text

def Reg.describe (r : Reg) : String := applied "VReg" [toString r.index]

def Label.describe (l : Label) : String := applied "Label" [toString l.index]

def Source.describe : Source → String
  | reg r => applied "Reg" [r.describe]
  | imm w => applied "Imm" [toString w.toNat]

def Cond.name : Cond → String
  | equal => "Equal"
  | notEqual => "NotEqual"

/-- An instruction without indentation. -/
def Instr.describe : Instr → String
  | arg dst operand => record "Arg" [("dst", dst.describe), ("arg", operand.name)]
  | move dst src => record "Move" [("dst", dst.describe), ("src", src.describe)]
  | shiftRight dst amount =>
    record "UnsignedShiftRight" [("dst", dst.describe), ("amount", amount.describe)]
  | mask dst bits => record "LogicalAnd" [("dst", dst.describe), ("mask", bits.describe)]
  | loadByte dst base index =>
    record "LoadByte" [("dst", dst.describe), ("base", base.describe), ("index", index.describe)]
  | loadFlag dst => record "LoadMarkingFlag" [("dst", dst.describe)]
  | isReference dst object =>
    record "InstanceOfReference" [("dst", dst.describe), ("object", object.describe)]
  | branch cond lhs rhs target =>
    record "Branch" [("cond", cond.name), ("lhs", lhs.describe), ("rhs", rhs.describe),
      ("target", target.describe)]
  | jump target => applied "Jump" [target.describe]
  | bind label => "L" ++ toString label.index ++ ":"
  | call entry args => "call " ++ entry.symbol ++ " " ++ bracketed (args.map Reg.describe)
  | copy src dst size =>
    record "RawCopy" [("src", src.describe), ("dst", dst.describe), ("size", size.describe)]
  | fence => "Fence"
  | ret => "Return"

/-- A line of a listing. Only labels stand at the margin. -/
def Instr.line (i : Instr) : String :=
  match i with
  | bind _ => i.describe
  | _ => "  " ++ i.describe

/-- The listing of code. -/
def Code.lines (code : Code) : List String := code.instrs.map Instr.line

end HeapBridge.Barrier.Machine
