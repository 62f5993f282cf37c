import HeapBridge.Pause.Restarts
import Mathlib.Data.List.DropRight

/-!
# The first restart after

A thread that blocks for a collection remembers the number that the count of restarts has to reach.
Over any run that number is one more than what was counted when the thread blocked, so looking at
the count tells whether there was a restart since. The first one wakes the thread, the next look
lets it go, and no look before that does, whatever the thread was woken by.
-/
namespace HeapBridge.Pause

/-! ## Counting since -/

/-- How many entries of a sort were made since a mark was made last. -/
def countSince {α : Type} [DecidableEq α] (mark : α) (sort : α → Bool) (entries : List α) : Nat :=
  (entries.rtakeWhile (· ≠ mark)).countP sort

section
variable {α : Type} [DecidableEq α] {mark a : α} {sort : α → Bool} {entries : List α}

@[simp] theorem countSince_nil : countSince mark sort [] = 0 := rfl

@[simp] theorem countSince_snoc_mark : countSince mark sort (entries ++ [mark]) = 0 := by
  simp [countSince]

theorem countSince_snoc (h : a ≠ mark) :
    countSince mark sort (entries ++ [a]) = countSince mark sort entries + (sort a).toNat := by
  rw [countSince, List.rtakeWhile_concat_pos _ _ _ (by simpa using h), List.countP_append,
    List.countP_singleton, countSince]
  cases sort a <;> rfl

end

/-! ## Runs -/

variable {ms : List RestartMove} {m : RestartMove} {r r' : Restarts} {t : Nat}

/-- How often the world was restarted since a thread blocked last. -/
def restartsSince (t : Nat) (ms : List RestartMove) : Nat :=
  countSince (.block t) (· = .restart) ms

@[simp] theorem restartsSince_snoc_block : restartsSince t (ms ++ [.block t]) = 0 :=
  countSince_snoc_mark

theorem restartsSince_snoc (h : m ≠ .block t) :
    restartsSince t (ms ++ [m]) = restartsSince t ms + if m = .restart then 1 else 0 := by
  rw [restartsSince, countSince_snoc h, restartsSince]
  cases m <;> rfl

@[simp] theorem restartsSince_snoc_restart :
    restartsSince t (ms ++ [.restart]) = restartsSince t ms + 1 := by
  rw [restartsSince_snoc (by simp), if_pos rfl]

theorem RestartPhase.awake_eq_waiting_iff {p : RestartPhase} {next : Nat} {asleep : Bool} :
    p.awake = .waiting next asleep ↔ asleep = false ∧ ∃ was, p = .waiting next was := by
  cases p <;> simp [awake, eq_comm, and_comm]

namespace Restarts

/-- Moves made one after the other, by any number of threads. There was no restart before them. -/
inductive Follows : List RestartMove → Restarts → Prop
  | nil : Follows [] .none
  | snoc {ms : List RestartMove} {r r' : Restarts} (m : RestartMove) (h : Follows ms r)
    (hstep : r.step m = some r') : Follows (ms ++ [m]) r'

/-- The call of a thread comes to its end with a move. -/
def Returns (t : Nat) (m : RestartMove) (r r' : Restarts) : Prop :=
  (m = .block t ∨ r.phase t ≠ .away) ∧ r'.phase t = .away

/-- What a move does. -/
inductive Effect (r : Restarts) : RestartMove → Restarts → Prop
  | restart : Effect r .restart r.restart
  /-- A thread that blocks is put to sleep, for no count is ahead of itself. -/
  | block (t : Nat) (h : r.phase t = .away) :
    Effect r (.block t) (r.setPhase t (.waiting (r.count + 1) true))
  | leave (t next : Nat) (h : r.phase t = .waiting next false) (hreached : next ≤ r.count) :
    Effect r (.proceed t) (r.setPhase t .away)
  | sleepOn (t next : Nat) (h : r.phase t = .waiting next false) (hshort : r.count < next) :
    Effect r (.proceed t) (r.setPhase t (.waiting next true))
  | stir (t next : Nat) (h : r.phase t = .waiting next true) :
    Effect r (.stir t) (r.setPhase t (.waiting next false))

theorem effect_of_step (h : r.step m = some r') : Effect r m r' := by
  cases m with
  | restart =>
    cases h
    exact .restart
  | block t =>
    rw [step] at h
    split at h
    case isTrue haway =>
      cases h
      rw [tryLeave, if_pos (Nat.lt_succ_self _)]
      exact .block t haway
    case isFalse => cases h
  | proceed t =>
    simp only [step] at h
    split at h
    case h_1 next hphase =>
      cases h
      rw [tryLeave]
      split
      case isTrue hshort => exact .sleepOn t next hphase hshort
      case isFalse hreached => exact .leave t next hphase (Nat.le_of_not_lt hreached)
    case h_2 => cases h
  | stir t =>
    simp only [step] at h
    split at h
    case h_1 next hphase =>
      cases h
      exact .stir t next hphase
    case h_2 => cases h

/-- What a run has counted, and what the threads that wait have to do with it. -/
structure Counted (ms : List RestartMove) (r : Restarts) : Prop where
  count_eq : r.count = ms.count .restart
  /-- A thread waits for one restart more than there were when it blocked. -/
  next_eq : ∀ t next asleep, r.phase t = .waiting next asleep →
    next + restartsSince t ms = r.count + 1
  /-- The first restart leaves nobody asleep who blocked before it. -/
  asleep : ∀ t next, r.phase t = .waiting next true → restartsSince t ms = 0

namespace Counted

theorem nil : Counted [] .none := ⟨rfl, nofun, nofun⟩

/-- A thread looks or wakes, and nobody is counted as blocked or restarted for it. -/
theorem setPhase (h : Counted ms r) {p : RestartPhase} (hblock : ∀ x, m ≠ .block x)
    (hrestart : m ≠ .restart)
    (hnext : ∀ next asleep, p = .waiting next asleep → next + restartsSince t ms = r.count + 1)
    (hasleep : ∀ next, p = .waiting next true → restartsSince t ms = 0) :
    Counted (ms ++ [m]) (r.setPhase t p) := by
  have hsince : ∀ x, restartsSince x (ms ++ [m]) = restartsSince x ms := by
    intro x
    rw [restartsSince_snoc (hblock x), if_neg hrestart, Nat.add_zero]
  refine ⟨?_, ?_, ?_⟩
  · rw [count_setPhase, h.count_eq, List.count_append, List.count_singleton]
    simp [hrestart]
  · intro x next asleep hphase
    rw [hsince, count_setPhase]
    rw [phase_setPhase] at hphase
    split at hphase
    case isTrue hx => exact hx ▸ hnext next asleep hphase
    case isFalse => exact h.next_eq x next asleep hphase
  · intro x next hphase
    rw [hsince]
    rw [phase_setPhase] at hphase
    split at hphase
    case isTrue hx => exact hx ▸ hasleep next hphase
    case isFalse => exact h.asleep x next hphase

/-- The world is restarted, and everybody is woken. -/
theorem restart (h : Counted ms r) : Counted (ms ++ [.restart]) r.restart := by
  refine ⟨?_, ?_, ?_⟩
  · rw [count_restart, h.count_eq, List.count_append, List.count_singleton_self]
  · intro x next asleep hphase
    obtain ⟨-, was, hwas⟩ := RestartPhase.awake_eq_waiting_iff.mp hphase
    have hnext := h.next_eq x next was hwas
    rw [restartsSince_snoc_restart, count_restart]
    omega
  · intro x next hphase
    cases (RestartPhase.awake_eq_waiting_iff.mp hphase).1

/-- A thread blocks. -/
theorem block (h : Counted ms r) (t : Nat) :
    Counted (ms ++ [.block t]) (r.setPhase t (.waiting (r.count + 1) true)) := by
  have hother : ∀ x, x ≠ t → restartsSince x (ms ++ [.block t]) = restartsSince x ms := by
    intro x hx
    rw [restartsSince_snoc fun heq => hx (RestartMove.block.inj heq).symm]
    rfl
  refine ⟨?_, ?_, ?_⟩
  · rw [count_setPhase, h.count_eq, List.count_append]
    rfl
  · intro x next asleep hphase
    rw [phase_setPhase] at hphase
    rw [count_setPhase]
    split at hphase
    case isTrue hx =>
      cases hphase
      rw [hx, restartsSince_snoc_block]
    case isFalse hx =>
      rw [hother x hx]
      exact h.next_eq x next asleep hphase
  · intro x next hphase
    rw [phase_setPhase] at hphase
    split at hphase
    case isTrue hx => rw [hx, restartsSince_snoc_block]
    case isFalse hx =>
      rw [hother x hx]
      exact h.asleep x next hphase

theorem step (h : Counted ms r) (hstep : r.step m = some r') : Counted (ms ++ [m]) r' := by
  cases effect_of_step hstep with
  | restart => exact h.restart
  | block t _ => exact h.block t
  | leave t next _ _ => exact h.setPhase nofun nofun nofun nofun
  | sleepOn t next hphase hshort =>
    have hnext := h.next_eq t next false hphase
    refine h.setPhase nofun nofun ?_ ?_
    · rintro _ _ ⟨⟩
      exact hnext
    · rintro _ -
      omega
  | stir t next hphase =>
    refine h.setPhase nofun nofun ?_ nofun
    rintro _ _ ⟨⟩
    exact h.next_eq t next true hphase

end Counted

theorem Follows.counted (h : Follows ms r) : Counted ms r := by
  induction h with
  | nil => exact .nil
  | snoc m _ hstep ih => exact ih.step hstep

/-- Moves that can be made one after the other are a run. -/
theorem Follows.foldlM (ms' : List RestartMove) (h : Follows ms r)
    (hmoves : ms'.foldlM (fun r m => r.step m) r = some r') : Follows (ms ++ ms') r' := by
  induction ms' generalizing ms r with
  | nil =>
    cases hmoves
    simpa using h
  | cons m ms' ih =>
    rw [List.foldlM_cons] at hmoves
    obtain ⟨q, hstep, hrest⟩ := Option.bind_eq_some_iff.mp hmoves
    simpa using ih (h.snoc m hstep) hrest

/-- A call ends with a look of its own thread that finds the count far enough. -/
theorem returns_iff (hstep : r.step m = some r') :
    Returns t m r r' ↔
      m = .proceed t ∧ ∃ next, r.phase t = .waiting next false ∧ next ≤ r.count := by
  cases effect_of_step hstep with
  | restart =>
    simp only [Returns, reduceCtorEq, false_or, false_and, iff_false]
    rintro ⟨haway, haway'⟩
    change (r.phase t).awake = .away at haway'
    cases hphase : r.phase t <;> simp_all [RestartPhase.awake]
  | block x haway =>
    simp only [Returns, reduceCtorEq, false_and, iff_false]
    rintro ⟨hcall, haway'⟩
    rw [phase_setPhase] at haway'
    split at haway'
    case isTrue => cases haway'
    case isFalse hx =>
      rcases hcall with heq | hne
      · exact hx (RestartMove.block.inj heq).symm
      · exact hne haway'
  | leave x next hphase hreached =>
    by_cases hx : t = x
    · subst hx
      simp [Returns, hphase, hreached]
    · simp [Returns, hx, Ne.symm hx]
  | sleepOn x next hphase hshort =>
    by_cases hx : t = x
    · subst hx
      simp [Returns, hphase, hshort]
    · simp [Returns, hx, Ne.symm hx]
  | stir x next hphase =>
    by_cases hx : t = x
    · subst hx
      simp [Returns]
    · simp [Returns, hx]

/-! ## Release -/

/-- What a thread that blocks for a collection can rely on after a run. -/
structure Releases (t : Nat) (ms : List RestartMove) (r : Restarts) : Prop where
  /-- The call ends when the thread looks and there was a restart since it blocked, and only then.
  -/
  returns : ∀ m r', r.step m = some r' →
    (Returns t m r r' ↔ m = .proceed t ∧ 0 < restartsSince t ms)
  /-- Nobody sleeps through a restart. -/
  awake : ∀ next, r.phase t = .waiting next true → restartsSince t ms = 0
  /-- A thread that was woken can look. -/
  looks : ∀ next, r.phase t = .waiting next false → ∃ r', r.step (.proceed t) = some r'

theorem Counted.releases (h : Counted ms r) (t : Nat) : Releases t ms r where
  returns m r' hstep := by
    rw [returns_iff hstep]
    refine and_congr_right fun hm => ⟨?_, ?_⟩
    · rintro ⟨next, hphase, hreached⟩
      have hnext := h.next_eq t next false hphase
      omega
    · intro hsince
      subst hm
      -- only a thread that was woken could make this move
      cases effect_of_step hstep with
      | leave _ next hphase hreached => exact ⟨next, hphase, hreached⟩
      | sleepOn _ next hphase hshort =>
        have hnext := h.next_eq t next false hphase
        omega
  awake := h.asleep t
  looks next hphase := by simp [Restarts.step, hphase]

end Restarts

/-- The count is the number of restarts, and the first restart after a thread blocked is what
releases it: for any number of threads, in any order, whatever they are woken by meanwhile. -/
theorem released_by_first_restart (h : Restarts.Follows ms r) :
    r.count = ms.count .restart ∧ ∀ t, Restarts.Releases t ms r :=
  ⟨h.counted.count_eq, h.counted.releases⟩

/-- One thread is woken for nothing before its restart, and another one blocks after it. -/
def Restarts.lateMoves : List RestartMove :=
  [.restart, .block 0, .stir 0, .proceed 0, .restart, .block 1]

/-- The second restart releases the first thread and leaves the second one asleep. -/
theorem released_by_first_restart_late :
    ∃ r, Restarts.Follows Restarts.lateMoves r ∧ r.count = 2 ∧
      (∃ r', r.step (.proceed 0) = some r' ∧ Restarts.Returns 0 (.proceed 0) r r') ∧
      r.phase 1 = .waiting 3 true ∧ restartsSince 1 Restarts.lateMoves = 0 := by
  have hrun : ∃ r, Restarts.lateMoves.foldlM (fun r m => Restarts.step m r) .none = some r ∧
      r.phase 0 = .waiting 2 false ∧ r.phase 1 = .waiting 3 true := ⟨_, rfl, rfl, rfl⟩
  obtain ⟨r, hmoves, hfirst, hsecond⟩ := hrun
  have hfollows : Restarts.Follows Restarts.lateMoves r := Restarts.Follows.nil.foldlM _ hmoves
  obtain ⟨hcount, hreleases⟩ := released_by_first_restart hfollows
  obtain ⟨r', hstep⟩ := (hreleases 0).looks 2 hfirst
  have hreturns := ((hreleases 0).returns _ r' hstep).mpr ⟨rfl, by decide⟩
  exact ⟨r, hfollows, hcount, ⟨r', hstep, hreturns⟩, hsecond, (hreleases 1).awake 3 hsecond⟩

end HeapBridge.Pause
