import HeapBridge.World.Changes

/-!
# Sessions

Steps that are taken one after the other, each answered with its value and with what changed since
the answer before. A step that speaks to the companion ends the session if it fails: the threads that
stop the world are then no longer in a state that later steps could build on. While a request is under
way that nobody waits for, the other threads are still moving, so values alone are shown until
somebody has waited.
-/
namespace HeapBridge.World

/-- How a step is to be taken. -/
inductive StepKind
  | plain
  /-- It speaks to the companion. -/
  | pauseCall
  /-- It asks for a state of the world and does not wait for it. -/
  | openRequest
  /-- It waits for a state of the world. -/
  | wait
deriving DecidableEq, Inhabited

/-- Whether a failed step is the last one. -/
def StepKind.isLastOnFault : StepKind → Bool
  | plain => false
  | pauseCall | openRequest | wait => true

/-- Whether only values are shown from a step on that ended in world `w`. With the companion gone there
is no thread left that moves by itself. -/
def StepKind.hides (failed : Bool) (w : World) (hidden : Bool) : StepKind → Bool
  | openRequest => if failed then hidden else !w.pause.companionJoined
  | wait => false
  | plain | pauseCall => hidden

/-- A step. -/
structure Step (α : Type) where
  kind : StepKind
  act : Act World α

/-- The answer to a step: what came of it, and what is shown of the world after it. -/
structure Answer (α : Type) where
  value : Except Fault α
  shown : Option (Changes × World)

/-- Takes steps. `seen` is the world as it was last shown. -/
def session {α : Type} : List (Step α) → Bool → World → World → List (Answer α)
  | [], _, _, _ => []
  | step :: steps, hidden, seen, w =>
    let (value, w) := match step.act w with
      | .ok a w => (Except.ok a, w)
      | .error f w => (Except.error f, w)
    let failed := !value.isOk
    if failed && step.kind.isLastOnFault then [⟨value, none⟩]
    else if step.kind.hides failed w hidden then ⟨value, none⟩ :: session steps true seen w
    else ⟨value, some (seen.changesSince w, w)⟩ :: session steps false w w

end HeapBridge.World
