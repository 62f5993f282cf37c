import HeapBridge.Pause.Step

/-!
# One schedule

Between two calls from outside, the threads run until none of them can go on. They take turns in a
fixed order, and each is bounded by what it still has to do.
-/
namespace HeapBridge.Pause

mutual
/-- A bound on the steps that an action takes. -/
def Action.weight : Action → Nat
  | .nested body _ => 4 + weights body
  | _ => 8

/-- A bound on the steps that actions take. -/
def weights : List Action → Nat
  | [] => 0
  | a :: as => a.weight + weights as
end

def Duty.weight : Duty → Nat
  | .act a => a.weight
  | _ => 8

def Order.weight : Order → Nat
  | .run op => 4 + weights op.body
  | .terminate => 1

namespace System

/-- A bound on the steps that all threads make before they wait. -/
def budget (s : System) : Nat :=
  s.vm.duties.foldr (fun d n => d.weight + n) (s.vm.queue.foldr (fun o n => o.weight + n) 100)

/-- The threads in the order in which they get their turns. -/
def turns : List Party := [.companion, .vmThread, .caller 0, .caller 1]

/-- The first step that some thread can make. -/
def advance? (s : System) : Option System := turns.findSome? s.stepParty

/-- Runs at most `n` steps. -/
def advance : Nat → System → System
  | 0, s => s
  | n + 1, s =>
    match s.advance? with
    | some next => advance n next
    | none => s

/-- Runs until every thread waits. -/
def settle (s : System) : System := s.advance s.budget

/-- Runs until every thread waits, and refuses if a caller would have to wait on. -/
def finish (n : Nat) (s : System) : Except Fault System :=
  let s := s.settle
  match s.caller n with
  | .away => .ok s
  | .failed _ => .ok s
  | _ => .error .wouldBlock

/-- Ends a thread that has broken off, with a report the first time. -/
def joinCompanion (s : System) : System :=
  if s.companionJoined then s
  else
    let s := match s.companion with
      | .failed _ => s.log (.report .companionFailed)
      | _ => s
    { s with companionJoined := true }

/-- Ends the VM thread, with a report if it broke off. -/
def joinVmThread (s : System) : System :=
  let s := s.terminateVmThread.settle
  if s.vmJoined then s
  else { (if s.vm.life = .lost then s.log (.report .vmThreadFailed) else s) with vmJoined := true }

/-- Ends both threads. -/
def shutDown (s : System) : Except Fault System := do
  let s ← s.terminateCompanion
  return s.settle.joinCompanion.joinVmThread

end System
end HeapBridge.Pause
