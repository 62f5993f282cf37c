import HeapBridge.Fault

/-!
# Restarts of the world

The world counts how often it was restarted. A thread that is blocked for a collection remembers the
count and sleeps until it has grown.
-/
namespace HeapBridge.Pause

/-- What a thread is doing at the count of restarts. -/
inductive RestartPhase
  | away
  /-- Waits for the count to reach a number. -/
  | waiting (next : Nat) (asleep : Bool)
deriving DecidableEq, Inhabited

/-- A thread that sleeps no longer. -/
def RestartPhase.awake : RestartPhase → RestartPhase
  | away => away
  | waiting next _ => waiting next false

/-- The count, and the threads that wait for it to grow. -/
structure Restarts where
  count : Nat
  phase : Nat → RestartPhase

/-- What can happen at the count of restarts. -/
inductive RestartMove
  /-- The world was restarted. -/
  | restart
  /-- A thread blocks until the next restart. -/
  | block (t : Nat)
  /-- A thread that was woken looks at the count. -/
  | proceed (t : Nat)
  /-- A thread wakes without a reason. -/
  | stir (t : Nat)
deriving DecidableEq, Inhabited

namespace Restarts

/-- The world has never been restarted and nobody waits. -/
def none : Restarts := ⟨0, fun _ => .away⟩

/-- Changes the phase of one thread. -/
def setPhase (r : Restarts) (t : Nat) (p : RestartPhase) : Restarts :=
  { r with phase := fun x => if x = t then p else r.phase x }

/-- Counts a restart and wakes every sleeper. -/
def restart (r : Restarts) : Restarts := ⟨r.count + 1, fun x => (r.phase x).awake⟩

/-- Goes on if the count has been reached, or back to sleep. -/
def tryLeave (r : Restarts) (t next : Nat) : Restarts :=
  r.setPhase t (if r.count < next then .waiting next true else .away)

/-- One critical section, if the move can be made now. -/
def step (m : RestartMove) (r : Restarts) : Option Restarts :=
  match m with
  | .restart => some r.restart
  | .block t => if r.phase t = .away then some (r.tryLeave t (r.count + 1)) else Option.none
  | .proceed t =>
    match r.phase t with
    | .waiting next false => some (r.tryLeave t next)
    | _ => Option.none
  | .stir t =>
    match r.phase t with
    | .waiting next true => some (r.setPhase t (.waiting next false))
    | _ => Option.none

/-- Makes moves in order, leaving out those that cannot be made. -/
def run (ms : List RestartMove) (r : Restarts) : Restarts :=
  ms.foldl (fun r m => (r.step m).getD r) r

/-- How many of the first `n` threads are not waiting. -/
def awayAmong (n : Nat) (r : Restarts) : Nat :=
  (List.range n).countP fun t => r.phase t = .away

/-- Blocks `n` threads and restarts the world, if there are any. -/
def blockAndRestart (n : Nat) (r : Restarts) : Restarts :=
  if n = 0 then r
  else
    let threads := List.range n
    run (threads.map .block ++ [.restart] ++ threads.map .proceed) r

@[simp] theorem count_restart (r : Restarts) : r.restart.count = r.count + 1 := rfl
@[simp] theorem count_setPhase (r : Restarts) (t : Nat) (p : RestartPhase) :
    (r.setPhase t p).count = r.count := rfl
@[simp] theorem phase_setPhase (r : Restarts) (t x : Nat) (p : RestartPhase) :
    (r.setPhase t p).phase x = if x = t then p else r.phase x := rfl
@[simp] theorem count_tryLeave (r : Restarts) (t next : Nat) :
    (r.tryLeave t next).count = r.count := rfl

end Restarts
end HeapBridge.Pause
