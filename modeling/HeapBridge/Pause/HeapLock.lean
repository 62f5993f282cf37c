import HeapBridge.Fault

/-!
# The heap lock

The lock that is held while the world is stopped. Threads that wait for pending references sleep on
the same condition until they are notified. A thread that is woken looks again at what it waits for,
so an unlock does not end a wait for a notification, and a notification does not hand out the lock.
-/
namespace HeapBridge.Pause

/-- The lock, with the number of notifications sent so far. -/
structure HeapLock where
  locked : Bool
  notifications : Nat
deriving DecidableEq, Inhabited

namespace HeapLock

/-- A lock that nobody holds. -/
def free : HeapLock := ⟨false, 0⟩

/-- Gives up a lock that is held. -/
def unlock (l : HeapLock) : Except Fault HeapLock :=
  if l.locked then .ok { l with locked := false } else .error .notHeld

/-- Counts one more notification. -/
def count (l : HeapLock) : HeapLock := { l with notifications := l.notifications + 1 }

@[simp] theorem unlock_of_locked {l : HeapLock} (h : l.locked = true) :
    l.unlock = .ok { l with locked := false } := by simp [unlock, h]

@[simp] theorem unlock_of_free {l : HeapLock} (h : l.locked = false) :
    l.unlock = .error .notHeld := by simp [unlock, h]

end HeapLock

/-- What a thread is doing at the lock. -/
inductive LockPhase
  | away
  /-- Wants the lock. -/
  | locking (asleep : Bool)
  /-- Waits for a notification past those it has seen. -/
  | waiting (seen : Nat) (asleep : Bool)
  /-- Has counted its notification and not yet woken anybody. -/
  | notifying
deriving DecidableEq, Inhabited

/-- A thread that sleeps no longer. -/
def LockPhase.awake : LockPhase → LockPhase
  | locking _ => locking false
  | waiting seen _ => waiting seen false
  | p => p

/-- What a thread can do at the lock. -/
inductive LockMove
  | lock
  | unlock
  | notify
  | wait
  /-- Looks again, or wakes the others, as its phase has it. -/
  | proceed
  /-- Wakes without a reason. -/
  | stir
deriving DecidableEq, Inhabited

/-- The lock and the threads at it. -/
structure LockQueue where
  lock : HeapLock
  phase : Nat → LockPhase

namespace LockQueue

/-- A free lock and nobody at it. -/
def empty : LockQueue := ⟨.free, fun _ => .away⟩

/-- Changes the phase of one thread. -/
def setPhase (q : LockQueue) (t : Nat) (p : LockPhase) : LockQueue :=
  { q with phase := fun x => if x = t then p else q.phase x }

/-- Wakes every sleeper. -/
def wakeAll (q : LockQueue) : LockQueue := { q with phase := fun x => (q.phase x).awake }

/-- Takes the lock, or goes to sleep. -/
def tryLock (q : LockQueue) (t : Nat) : LockQueue :=
  if q.lock.locked then q.setPhase t (.locking true)
  else { q with lock := { q.lock with locked := true } }.setPhase t .away

/-- Goes on if there was a notification, or back to sleep. -/
def tryLeave (q : LockQueue) (t seen : Nat) : LockQueue :=
  q.setPhase t (if q.lock.notifications = seen then .waiting seen true else .away)

/-- One critical section of a thread, if it can make this move now. -/
def step (t : Nat) (m : LockMove) (q : LockQueue) : Option (Except Fault LockQueue) :=
  match m, q.phase t with
  | .lock, .away => some (.ok (q.tryLock t))
  | .unlock, .away => some (q.lock.unlock.map fun l => { q with lock := l }.wakeAll)
  | .notify, .away => some (.ok ({ q with lock := q.lock.count }.setPhase t .notifying))
  | .wait, .away => some (.ok (q.tryLeave t q.lock.notifications))
  | .proceed, .locking false => some (.ok (q.tryLock t))
  | .proceed, .waiting seen false => some (.ok (q.tryLeave t seen))
  | .proceed, .notifying => some (.ok (q.wakeAll.setPhase t .away))
  | .stir, p => if p.awake = p then none else some (.ok (q.setPhase t p.awake))
  | _, _ => none

/-- Makes a move, or refuses if it cannot be made now. -/
def move (t : Nat) (m : LockMove) : Act LockQueue Unit := do
  match step t m (← get) with
  | some next => set (← Act.lift next)
  | none => throw .wouldBlock

/-- A thread takes the lock at once. It refuses to wait for it. -/
def acquire (t : Nat) : Act LockQueue Unit := do
  if (← get).lock.locked then throw .wouldBlock
  move t .lock

/-- A thread gives up the lock. -/
def release (t : Nat) : Act LockQueue Unit := move t .unlock

/-- A thread notifies the others. -/
def notifyAll (t : Nat) : Act LockQueue Unit := do
  move t .notify
  move t .proceed

/-- A second thread queues for the lock that a first one holds, gets it as soon as the first one
gives it up, and gives it up again. -/
def handOver (holder other : Nat) : Act LockQueue Unit := do
  unless (← get).lock.locked do throw .wouldBlock
  move other .lock
  release holder
  move other .proceed
  release other

/-- Whether a thread that waits for a notification is back after another one sent it. -/
def wakesOnNotify (waiter notifier : Nat) : Act LockQueue Bool := do
  move waiter .wait
  notifyAll notifier
  move waiter .proceed
  return (← get).phase waiter = .away

@[simp] theorem phase_setPhase (q : LockQueue) (t x : Nat) (p : LockPhase) :
    (q.setPhase t p).phase x = if x = t then p else q.phase x := rfl
@[simp] theorem lock_setPhase (q : LockQueue) (t : Nat) (p : LockPhase) :
    (q.setPhase t p).lock = q.lock := rfl
@[simp] theorem lock_wakeAll (q : LockQueue) : q.wakeAll.lock = q.lock := rfl
@[simp] theorem phase_wakeAll (q : LockQueue) (x : Nat) :
    q.wakeAll.phase x = (q.phase x).awake := rfl

end LockQueue
end HeapBridge.Pause
