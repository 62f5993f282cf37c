import HeapBridge.Fault

/-!
# Scripted answers

A method of a stand-in answers every call from a script, and counts its calls.
-/
namespace HeapBridge.StandIn

/-- What a method answers. Answers are added to the argument. -/
inductive Script
  | fixed (answer : Int64)
  /-- One answer after the other, and again from the start. -/
  | cycle (answers : List Int64)
  /-- Zero, whatever the argument. -/
  | zero
  | missing
deriving DecidableEq, Inhabited

/-- A method with a script. -/
structure Method where
  script : Script
  calls : Nat
deriving DecidableEq, Inhabited

/-- The sum of an answer and an argument, which has to fit a signed word. -/
def sum (answer arg : Int64) : Except Fault Int64 :=
  let total := answer.toInt + arg.toInt
  if Int64.minValue.toInt ≤ total ∧ total ≤ Int64.maxValue.toInt then .ok (answer + arg) else .error (.overflow .add)

/-- The answer of a script to its `n`-th call. -/
def Script.answer (n : Nat) (arg : Int64) : Script → Except Fault Int64
  | fixed answer => sum answer arg
  | cycle answers =>
    match answers[n % answers.length]? with
    | some answer => sum answer arg
    | none => .error (.overflow .remainder)
  | zero => .ok 0
  | missing => .error .noAnswer

namespace Method

/-- A method that was not called yet. -/
def new (script : Script) : Method := ⟨script, 0⟩

def isCalled (m : Method) : Bool := m.calls != 0

/-- Calls a method. A script without any answer cannot even be called. -/
def call (arg : Int64) : Act Method Int64 := do
  let m ← get
  if m.script ≠ .cycle [] then set { m with calls := m.calls + 1 }
  Act.lift (m.script.answer m.calls arg)

end Method
end HeapBridge.StandIn
