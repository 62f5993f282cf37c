import HeapBridge.Pause.HeapLock
import HeapBridge.Proofs.Pause.Restarts

/-!
# Two kinds of waiters

The threads that want the heap lock and those that wait for a notification sleep on one condition,
so each of them is woken for the sake of the other kind as well. What a thread may rely on is said
of its phase alone, given the lock, the notifications since it began to wait, and whether somebody
has yet to wake the others (`LockPhase.Tended`). Every step keeps it for every thread. Beside that,
a lock is taken once more than it was given up exactly while it is held.
-/
namespace HeapBridge.Pause
variable {ms : List (Nat × LockMove)} {t u : Nat} {m : LockMove} {q q' : LockQueue}

/-! ## Runs -/

/-- A call at the lock. -/
inductive LockCall
  | lock
  | unlock
  | notify
  | wait
deriving DecidableEq

/-- How many notifications were counted since a thread began to wait for one. -/
def noticesSince (t : Nat) (ms : List (Nat × LockMove)) : Nat :=
  countSince (t, .wait) (fun move => move.2 = .notify) ms

@[simp] theorem noticesSince_snoc_wait : noticesSince t (ms ++ [(t, .wait)]) = 0 :=
  countSince_snoc_mark

theorem noticesSince_snoc (h : (u, m) ≠ (t, .wait)) :
    noticesSince t (ms ++ [(u, m)]) = noticesSince t ms + if m = .notify then 1 else 0 := by
  rw [noticesSince, countSince_snoc h, noticesSince]
  cases m <;> rfl

namespace LockQueue

/-- The call that a thread is in when it makes a move. -/
def call? (q : LockQueue) (t : Nat) : LockMove → Option LockCall
  | .lock => some .lock
  | .unlock => some .unlock
  | .notify => some .notify
  | .wait => some .wait
  | .proceed =>
    match q.phase t with
    | .locking _ => some .lock
    | .waiting _ _ => some .wait
    | .notifying => some .notify
    | .away => none
  | .stir => none

/-- The call that a move of a thread brings to its end, if it does. -/
def returned (q q' : LockQueue) (t : Nat) (m : LockMove) : Option LockCall :=
  if q'.phase t = .away then q.call? t m else none

/-- Moves made one after the other, by any number of threads, with the calls that have returned. A
run ends where a lock is given up that nobody holds. -/
inductive Follows : List (Nat × LockMove) → List LockCall → LockQueue → Prop
  | nil : Follows [] [] .empty
  | snoc {ms : List (Nat × LockMove)} {cs : List LockCall} {q q' : LockQueue} (t : Nat)
    (m : LockMove) (h : Follows ms cs q) (hstep : q.step t m = some (.ok q')) :
    Follows (ms ++ [(t, m)]) (cs ++ (q.returned q' t m).toList) q'

/-- What a move does. -/
inductive Effect (q : LockQueue) (t : Nat) : LockMove → LockQueue → Prop
  | take {m : LockMove}
    (hm : m = .lock ∧ q.phase t = .away ∨ m = .proceed ∧ q.phase t = .locking false)
    (hfree : q.lock.locked = false) :
    Effect q t m ({ q with lock := { q.lock with locked := true } }.setPhase t .away)
  | queue {m : LockMove}
    (hm : m = .lock ∧ q.phase t = .away ∨ m = .proceed ∧ q.phase t = .locking false)
    (hheld : q.lock.locked = true) : Effect q t m (q.setPhase t (.locking true))
  | unlock (haway : q.phase t = .away) (hheld : q.lock.locked = true) :
    Effect q t .unlock { q with lock := { q.lock with locked := false } }.wakeAll
  | notify (haway : q.phase t = .away) :
    Effect q t .notify ({ q with lock := q.lock.count }.setPhase t .notifying)
  | wake (hphase : q.phase t = .notifying) : Effect q t .proceed (q.wakeAll.setPhase t .away)
  /-- A thread that begins to wait is put to sleep, for there is no notification past all. -/
  | wait (haway : q.phase t = .away) :
    Effect q t .wait (q.setPhase t (.waiting q.lock.notifications true))
  | leave (seen : Nat) (hphase : q.phase t = .waiting seen false)
    (hnew : q.lock.notifications ≠ seen) : Effect q t .proceed (q.setPhase t .away)
  | sleepOn (seen : Nat) (hphase : q.phase t = .waiting seen false)
    (hold : q.lock.notifications = seen) :
    Effect q t .proceed (q.setPhase t (.waiting seen true))
  | stir (h : (q.phase t).awake ≠ q.phase t) : Effect q t .stir (q.setPhase t (q.phase t).awake)

theorem effect_tryLock
    (hm : m = .lock ∧ q.phase t = .away ∨ m = .proceed ∧ q.phase t = .locking false) :
    Effect q t m (q.tryLock t) := by
  rw [tryLock]
  split
  case isTrue hheld => exact .queue hm hheld
  case isFalse hfree => exact .take hm (by simpa using hfree)

theorem effect_of_step (h : q.step t m = some (.ok q')) : Effect q t m q' := by
  unfold step at h
  split at h
  case h_1 haway =>
    cases h
    exact effect_tryLock (.inl ⟨rfl, haway⟩)
  case h_2 haway =>
    cases hheld : q.lock.locked
    · simp [hheld, Except.map] at h
    · simp only [HeapLock.unlock_of_locked hheld, Except.map, Option.some.injEq,
        Except.ok.injEq] at h
      exact h ▸ .unlock haway hheld
  case h_3 haway =>
    cases h
    exact .notify haway
  case h_4 haway =>
    cases h
    rw [tryLeave, if_pos rfl]
    exact .wait haway
  case h_5 hphase =>
    cases h
    exact effect_tryLock (.inr ⟨rfl, hphase⟩)
  case h_6 seen hphase =>
    cases h
    rw [tryLeave]
    split
    case isTrue hold => exact .sleepOn seen hphase hold
    case isFalse hnew => exact .leave seen hphase hnew
  case h_7 hphase =>
    cases h
    exact .wake hphase
  case h_8 =>
    split at h <;> cases h
    exact .stir ‹_›
  case h_9 => cases h

/-- The only move that fails is to give up a lock that nobody holds. -/
theorem step_eq_error_iff {f : Fault} :
    q.step t m = some (.error f) ↔
      m = .unlock ∧ q.phase t = .away ∧ q.lock.locked = false ∧ f = .notHeld := by
  cases m with
  | unlock =>
    cases hphase : q.phase t <;> cases hheld : q.lock.locked <;>
      simp [step, hphase, hheld, Except.map, eq_comm]
  | stir =>
    simp only [step, reduceCtorEq, false_and, iff_false]
    split <;> simp
  | proceed =>
    cases hphase : q.phase t with
    | away | notifying => simp [step, hphase]
    | locking asleep => cases asleep <;> simp [step, hphase]
    | waiting seen asleep => cases asleep <;> simp [step, hphase]
  | _ => cases hphase : q.phase t <;> simp [step, hphase]

end LockQueue

/-! ## Waiting -/

/-- What a thread may rely on, given whether the lock is held, how many notifications there were in
all and since the thread began to wait, and whether somebody has yet to wake the others. -/
def LockPhase.Tended (l : HeapLock) (since : Nat) (waking : Prop) : LockPhase → Prop
  | locking asleep => asleep = true → l.locked = true
  | waiting seen asleep =>
    seen + since = l.notifications ∧ (asleep = true → since = 0 ∨ waking)
  | away | notifying => True

namespace LockPhase.Tended
variable {p : LockPhase} {l l' : HeapLock} {since : Nat} {waking waking' : Prop}

/-- A thread that was woken has nobody to rely on. -/
theorem awake (h : p.Tended l since waking) (hnotifications : l'.notifications = l.notifications) :
    p.awake.Tended l' since waking' := by
  cases p with
  | locking asleep => exact nofun
  | waiting seen asleep => exact ⟨by rw [hnotifications, h.1], nofun⟩
  | away | notifying => trivial

/-- One more notification is counted, and everybody has yet to be woken for it. -/
theorem count (h : p.Tended l since waking) (hyet : waking') :
    p.Tended l.count (since + 1) waking' := by
  cases p with
  | locking asleep => exact h
  | waiting seen asleep => exact ⟨by rw [HeapLock.count, ← h.1, Nat.add_assoc], fun _ => .inr hyet⟩
  | away | notifying => trivial

/-- The lock is taken, which nobody waits for. -/
theorem hold (h : p.Tended l since waking) :
    p.Tended { l with locked := true } since waking := by
  cases p with
  | locking asleep => exact fun _ => rfl
  | waiting seen asleep => exact h
  | away | notifying => trivial

theorem mono (h : p.Tended l since waking) (himp : waking → waking') :
    p.Tended l since waking' := by
  cases p with
  | locking asleep => exact h
  | waiting seen asleep => exact ⟨h.1, fun hasleep => (h.2 hasleep).imp_right himp⟩
  | away | notifying => trivial

end LockPhase.Tended

namespace LockQueue

/-- Somebody has counted a notification and not yet woken the others. -/
def IsNotifying (q : LockQueue) : Prop := ∃ u, q.phase u = .notifying

/-- Every thread can rely on its due after the moves that were made. -/
def Tended (ms : List (Nat × LockMove)) (q : LockQueue) : Prop :=
  ∀ t, (q.phase t).Tended q.lock (noticesSince t ms) q.IsNotifying

namespace Tended

theorem nil : Tended [] .empty := fun _ => trivial

/-- One thread changes its phase, and the others do not notice. -/
theorem setPhase (h : Tended ms q) {p : LockPhase} (hphase : q.phase t ≠ .notifying)
    (hm : m ≠ .notify) (hp : p.Tended q.lock (noticesSince t (ms ++ [(t, m)])) q.IsNotifying) :
    Tended (ms ++ [(t, m)]) (q.setPhase t p) := by
  have hstill : q.IsNotifying → (q.setPhase t p).IsNotifying := by
    rintro ⟨u, hu⟩
    refine ⟨u, ?_⟩
    rwa [phase_setPhase, if_neg]
    rintro rfl
    exact hphase hu
  intro x
  rw [phase_setPhase]
  split
  case isTrue hx => exact hx ▸ hp.mono hstill
  case isFalse hx =>
    rw [noticesSince_snoc (by simp [Ne.symm hx]), if_neg hm]
    exact (h x).mono hstill

/-- A thread has been woken or looks, and no notification is counted for it. -/
theorem goOn (h : Tended ms q) {p : LockPhase} (hphase : q.phase t ≠ .notifying)
    (hnotify : m ≠ .notify) (hwait : m ≠ .wait)
    (hp : p.Tended q.lock (noticesSince t ms) q.IsNotifying) :
    Tended (ms ++ [(t, m)]) (q.setPhase t p) := by
  refine h.setPhase hphase hnotify ?_
  rwa [noticesSince_snoc (by simp [hwait]), if_neg hnotify]

/-- Everybody is woken. -/
theorem wakeAll (h : Tended ms q) (l : HeapLock)
    (hnotifications : l.notifications = q.lock.notifications)
    (hnotify : m ≠ .notify) (hwait : m ≠ .wait) :
    Tended (ms ++ [(t, m)]) { q with lock := l }.wakeAll := by
  intro x
  rw [noticesSince_snoc (by simp [hwait]), if_neg hnotify]
  exact (h x).awake hnotifications

/-- A notification is counted. -/
theorem notify (h : Tended ms q) :
    Tended (ms ++ [(t, .notify)]) ({ q with lock := q.lock.count }.setPhase t .notifying) := by
  intro x
  rw [phase_setPhase]
  split
  case isTrue => trivial
  case isFalse =>
    rw [noticesSince_snoc (by simp), if_pos rfl]
    exact (h x).count ⟨t, by simp⟩

theorem step (h : Tended ms q) (hstep : q.step t m = some (.ok q')) :
    Tended (ms ++ [(t, m)]) q' := by
  cases effect_of_step hstep with
  | take hm _ =>
    have hheld : Tended ms { q with lock := { q.lock with locked := true } } := fun x => (h x).hold
    rcases hm with ⟨rfl, hphase⟩ | ⟨rfl, hphase⟩
    · exact hheld.goOn (by simp [hphase]) nofun nofun trivial
    · exact hheld.goOn (by simp [hphase]) nofun nofun trivial
  | queue hm hheld =>
    rcases hm with ⟨rfl, hphase⟩ | ⟨rfl, hphase⟩
    · exact h.goOn (by simp [hphase]) nofun nofun fun _ => hheld
    · exact h.goOn (by simp [hphase]) nofun nofun fun _ => hheld
  | unlock _ _ => exact h.wakeAll { q.lock with locked := false } rfl nofun nofun
  | notify _ => exact h.notify
  | wake _ =>
    intro x
    rw [phase_setPhase]
    split
    case isTrue => trivial
    case isFalse =>
      rw [noticesSince_snoc (by simp), if_neg nofun]
      exact (h x).awake rfl
  | wait haway =>
    refine h.setPhase (by simp [haway]) nofun ?_
    rw [noticesSince_snoc_wait]
    exact ⟨rfl, fun _ => .inl rfl⟩
  | leave seen hphase _ => exact h.goOn (by simp [hphase]) nofun nofun trivial
  | sleepOn seen hphase hold =>
    have hsince := h t
    rw [hphase] at hsince
    refine h.goOn (by simp [hphase]) nofun nofun ⟨hsince.1, fun _ => .inl ?_⟩
    have := hsince.1
    omega
  | stir hasleep =>
    refine h.goOn ?_ nofun nofun ((h t).awake rfl)
    intro hphase
    exact hasleep (by rw [hphase]; rfl)

end Tended

/-! ## Holding -/

/-- The lock was taken once more than it was given up exactly while it is held. -/
def Balanced (cs : List LockCall) (q : LockQueue) : Prop :=
  cs.count .lock = cs.count .unlock + q.lock.locked.toNat

variable {cs : List LockCall}

theorem Balanced.step (h : Balanced cs q) (hstep : q.step t m = some (.ok q')) :
    Balanced (cs ++ (q.returned q' t m).toList) q' := by
  have hcount := h
  unfold Balanced at hcount ⊢
  rw [List.count_append, List.count_append, hcount]
  cases effect_of_step hstep with
  | take hm hfree =>
    rcases hm with ⟨rfl, hphase⟩ | ⟨rfl, hphase⟩ <;> simp [returned, call?, hphase, hfree]
  | queue hm hheld =>
    rcases hm with ⟨rfl, hphase⟩ | ⟨rfl, hphase⟩ <;> simp [returned]
  | unlock haway hheld => simp [returned, call?, haway, hheld, LockPhase.awake]
  | notify _ => simp [returned, HeapLock.count]
  | wake hphase => simp [returned, call?, hphase]
  | wait _ => simp [returned]
  | leave seen hphase _ => simp [returned, call?, hphase]
  | sleepOn seen _ _ => simp [returned]
  | stir _ => simp [returned, call?]

theorem Follows.tended (h : Follows ms cs q) : Tended ms q := by
  induction h with
  | nil => exact .nil
  | snoc _ _ _ hstep ih => exact ih.step hstep

theorem Follows.balanced (h : Follows ms cs q) : Balanced cs q := by
  induction h with
  | nil => rfl
  | snoc _ _ _ hstep ih => exact ih.step hstep

/-! ## Returning -/

/-- A wait ends when its thread looks and finds other notifications than it has seen. -/
theorem returned_eq_wait_iff (hstep : q.step t m = some (.ok q')) :
    q.returned q' t m = some .wait ↔
      m = .proceed ∧ ∃ seen, q.phase t = .waiting seen false ∧ q.lock.notifications ≠ seen := by
  cases effect_of_step hstep with
  | take hm _ | queue hm _ =>
    rcases hm with ⟨rfl, hphase⟩ | ⟨rfl, hphase⟩ <;> simp [returned, call?, hphase]
  | leave seen hphase hnew => simp [returned, call?, hphase, hnew]
  | sleepOn seen hphase hold => simp [returned, hphase, hold]
  | wake hphase => simp [returned, call?, hphase]
  | unlock haway _ => simp [returned, call?, haway, LockPhase.awake]
  | notify _ | wait _ | stir _ => simp [returned, call?]

/-- A call for the lock ends when its thread looks and finds the lock free. -/
theorem step_of_free (hphase : q.phase t = .locking false) (hfree : q.lock.locked = false) :
    ∃ q', q.step t .proceed = some (.ok q') ∧ q.returned q' t .proceed = some .lock := by
  refine ⟨q.tryLock t, by simp [step, hphase], ?_⟩
  simp [returned, call?, hphase, tryLock, hfree]

/-- What the threads at the lock can rely on after a run. -/
structure InOrder (ms : List (Nat × LockMove)) (cs : List LockCall) (q : LockQueue) : Prop where
  /-- At most one lock was taken and not given up, and one was exactly if the lock is held. -/
  held : cs.count .lock = cs.count .unlock + q.lock.locked.toNat
  /-- The only thing that fails is to give up a lock that nobody holds, and that does. -/
  fails : ∀ t m f, q.step t m = some (.error f) ↔
    m = .unlock ∧ q.phase t = .away ∧ q.lock.locked = false ∧ f = .notHeld
  /-- A wait ends when its thread looks and a notification was counted since it began, and only
  then. -/
  returns : ∀ t m q', q.step t m = some (.ok q') →
    (q.returned q' t m = some .wait ↔
      m = .proceed ∧ (∃ seen, q.phase t = .waiting seen false) ∧ 0 < noticesSince t ms)
  /-- Nobody sleeps while the lock is free. -/
  locking : ∀ t, q.phase t = .locking true → q.lock.locked = true
  /-- Nobody sleeps through a notification, once those who sent any have woken the others. -/
  waiting : ¬ q.IsNotifying → ∀ t seen, q.phase t = .waiting seen true →
    q.lock.notifications = seen ∧ noticesSince t ms = 0
  /-- A thread that was woken gets the lock if it is free. -/
  takes : ∀ t, q.phase t = .locking false → q.lock.locked = false →
    ∃ q', q.step t .proceed = some (.ok q') ∧ q.returned q' t .proceed = some .lock
  /-- A thread that was woken can look. -/
  looks : ∀ t seen, q.phase t = .waiting seen false → ∃ q', q.step t .proceed = some (.ok q')

end LockQueue

/-- The heap lock is held by one thread at a time, and those who wait for it and those who wait for
a notification are each woken for what they wait for and go back to sleep for the rest. -/
theorem lock_keeps_order {cs : List LockCall} (h : LockQueue.Follows ms cs q) :
    q.InOrder ms cs where
  held := h.balanced
  fails t m f := LockQueue.step_eq_error_iff
  returns t m q' hstep := by
    rw [LockQueue.returned_eq_wait_iff hstep]
    refine and_congr_right fun _ => ?_
    have htended := h.tended t
    constructor
    · rintro ⟨seen, hphase, hnew⟩
      rw [hphase] at htended
      have hseen := htended.1
      exact ⟨⟨seen, hphase⟩, by omega⟩
    · rintro ⟨⟨seen, hphase⟩, hsince⟩
      rw [hphase] at htended
      have hseen := htended.1
      exact ⟨seen, hphase, by omega⟩
  locking t hphase := by
    have htended := h.tended t
    rw [hphase] at htended
    exact htended rfl
  waiting hquiet t seen hphase := by
    have htended := h.tended t
    rw [hphase] at htended
    have hsince : noticesSince t ms = 0 := (htended.2 rfl).resolve_right hquiet
    have hseen := htended.1
    exact ⟨by omega, hsince⟩
  takes _ := LockQueue.step_of_free
  looks t seen hphase := by simp [LockQueue.step, hphase]

namespace LockQueue

/-- Takes moves in a given order, and gives the calls that return. -/
def follow : List (Nat × LockMove) → LockQueue → Option (List LockCall × LockQueue)
  | [], q => some ([], q)
  | (t, m) :: ms, q =>
    match q.step t m with
    | some (.ok q') =>
      (follow ms q').map fun rest => ((q.returned q' t m).toList ++ rest.1, rest.2)
    | _ => none

theorem Follows.follow {cs cs' : List LockCall} {ms' : List (Nat × LockMove)} (h : Follows ms cs q)
    (hfollow : q.follow ms' = some (cs', q')) : Follows (ms ++ ms') (cs ++ cs') q' := by
  induction ms' generalizing ms cs cs' q with
  | nil =>
    cases hfollow
    simpa using h
  | cons move ms' ih =>
    obtain ⟨t, m⟩ := move
    simp only [LockQueue.follow] at hfollow
    split at hfollow
    case h_1 q₁ hstep =>
      obtain ⟨⟨cs₁, q₂⟩, hrest, heq⟩ := Option.map_eq_some_iff.mp hfollow
      cases heq
      simpa using ih (h.snoc t m hstep) hrest
    case h_2 => cases hfollow

/-- A thread waits for a notification and is woken for an unlock first, which lets another one have
the lock. -/
def crossedMoves : List (Nat × LockMove) :=
  [(0, .lock), (1, .lock), (2, .wait), (0, .unlock), (2, .proceed), (1, .proceed), (3, .notify),
    (3, .proceed)]

end LockQueue

/-- After all that the lock has changed hands, and the notification, not the unlock, is what lets
the waiting thread go. -/
theorem lock_keeps_order_crossed :
    ∃ q, LockQueue.Follows LockQueue.crossedMoves [.lock, .unlock, .lock, .notify] q ∧
      q.lock.locked = true ∧
      ∃ q', q.step 2 .proceed = some (.ok q') ∧ q.returned q' 2 .proceed = some .wait := by
  have hrun : ∃ q, LockQueue.empty.follow LockQueue.crossedMoves =
      some ([.lock, .unlock, .lock, .notify], q) ∧ q.lock.locked = true ∧
      q.phase 2 = .waiting 0 false := ⟨_, rfl, rfl, rfl⟩
  obtain ⟨q, hfollow, hheld, hphase⟩ := hrun
  have hfollows := LockQueue.Follows.nil.follow hfollow
  have horder := lock_keeps_order hfollows
  obtain ⟨q', hstep⟩ := horder.looks 2 0 hphase
  have hreturns := (horder.returns 2 .proceed q' hstep).mpr ⟨rfl, ⟨0, hphase⟩, by decide⟩
  exact ⟨q, hfollows, hheld, q', hstep, hreturns⟩

end HeapBridge.Pause
