import HeapBridge.Proofs.Watching
import HeapBridge.Proofs.World.Walk
import Mathlib.Data.List.Nodup
import Mathlib.Data.List.ReduceOption
import Mathlib.Data.List.TakeWhile

/-!
# The walk among changes

Threads come and lose their records while a walk is under way, and a walk may be abandoned. A `Tour`
is the walk as its callers see it: the list of threads as it was when the walk began, the place that
the walk has reached in it, and who has a record now. The walk keeps what it has still to visit
instead, and gives the same answers.
-/
namespace HeapBridge

/-- What follows a fault makes no difference. -/
theorem Act.attempt_bind_of_error {σ α β : Type} {act : Act σ α} {f : α → Act σ β} {s : σ}
    {fault : Fault} (h : (act.attempt s).1 = .error fault) :
    ((act >>= f).attempt s).1 = .error fault := by
  rw [attempt_bind]
  rcases hrun : act.attempt s with ⟨e | a, t⟩
  · simpa [hrun] using h
  · simp [hrun] at h

theorem Act.attempt_bind_of_ok {σ α β : Type} {act : Act σ α} {f : α → Act σ β} {s t : σ} {a : α}
    (h : act s = .ok a t) : (act >>= f).attempt s = (f a).attempt t := by
  rw [attempt, bind_of_ok h, attempt]

namespace StandIn.Host
variable {h : Host} {t : Thread}

@[simp] theorem threadList_addThread (h : Host) (t : Thread) :
    (h.addThread t).threadList = h.threadList ++ [t] := by
  simp [threadList]

theorem hasRecord_iff (hdistinct : h.threadList.Nodup) :
    h.hasRecord t = true ↔ (t, true) ∈ h.threads := by
  rw [hasRecord]
  constructor
  · intro hrecord
    cases hfind : h.threads.find? (·.1 == t) with
    | none => simp [hfind] at hrecord
    | some u =>
      obtain ⟨u, b⟩ := u
      obtain rfl : u = t := by simpa using List.find?_some hfind
      obtain rfl : b = true := by simpa [hfind] using hrecord
      exact List.mem_of_find?_eq_some hfind
  · intro ht
    rw [find?_eq_some_of_nodup hdistinct ht]
    rfl

theorem hasRecord_addThread (hfresh : t ∉ h.threadList) :
    (h.addThread t).hasRecord = Function.update h.hasRecord t true := by
  have hnone : h.threads.find? (·.1 == t) = none := by
    rw [List.find?_eq_none]
    intro u hu heq
    exact hfresh (List.mem_map.mpr ⟨u, hu, by simpa using heq⟩)
  funext x
  rw [hasRecord, threads_addThread, List.find?_append, Function.update_apply]
  split
  · next hx =>
    subst hx
    simp [hnone]
  · next hx =>
    have hlast : [(t, true)].find? (·.1 == x) = none := by simpa using Ne.symm hx
    rw [hlast, Option.or_none]
    rfl

theorem find?_modify_of_nodup {threads : List (Thread × Bool)} {i : Nat} {b : Bool}
    (hdistinct : (threads.map (·.1)).Nodup) (hi : threads[i]? = some (t, b)) (x : Thread) :
    (threads.modify i fun u => (u.1, false)).find? (·.1 == x) =
      if x = t then some (t, false) else threads.find? (·.1 == x) := by
  induction threads generalizing i with
  | nil => simp at hi
  | cons u threads ih =>
    obtain ⟨hfresh, hrest⟩ := List.nodup_cons.mp hdistinct
    cases i with
    | zero =>
      obtain rfl : u = (t, b) := by simpa using hi
      rw [List.modify_zero_cons]
      by_cases hx : x = t
      · simp [hx]
      · have hne : (t == x) = false := by simpa using Ne.symm hx
        simp only [List.find?_cons, hne, if_neg hx]
    | succ i =>
      rw [List.getElem?_cons_succ] at hi
      rw [List.modify_succ_cons]
      by_cases hx : u.1 = x
      · have hne : x ≠ t := by
          rintro rfl
          exact hfresh (List.mem_map.mpr ⟨_, List.mem_of_getElem? hi, hx.symm⟩)
        have heq : (u.1 == x) = true := by simpa using hx
        simp only [List.find?_cons, heq, if_neg hne]
      · have hne : (u.1 == x) = false := by simpa using hx
        simp only [List.find?_cons, hne, ih hrest hi]

/-- The record of the thread at a place is gone, and all others are where they were. -/
theorem exists_unbind (hdistinct : h.threadList.Nodup) {i : Nat} (hi : h.threadList[i]? = some t) :
    ∃ h', h.unbind i = .ok h' ∧ h'.listBroken = h.listBroken ∧ h'.threadList = h.threadList ∧
      h'.hasRecord = Function.update h.hasRecord t false := by
  rw [threadList, List.getElem?_map, Option.map_eq_some_iff] at hi
  obtain ⟨⟨t, b⟩, hi, rfl⟩ := hi
  obtain ⟨hlt, -⟩ := List.getElem?_eq_some_iff.mp hi
  refine ⟨_, if_pos hlt, rfl, ?_, ?_⟩
  · have hkeep : ∀ threads : List (Thread × Bool),
        (threads.modify i fun u => (u.1, false)).map (·.1) = threads.map (·.1) := by
      intro threads
      apply List.ext_getElem?
      intro j
      rw [List.getElem?_map, List.getElem?_modify, List.getElem?_map]
      cases threads[j]? with
      | none => rfl
      | some u => by_cases hj : i = j <;> simp [hj]
    exact hkeep h.threads
  · funext x
    rw [hasRecord, find?_modify_of_nodup hdistinct hi, Function.update_apply]
    split
    · rfl
    · rfl

end StandIn.Host

namespace World

/-! ## Steps -/

/-- Something that is done about the threads while they are walked over. -/
inductive WalkStep
  | next
  | reset
  | add (t : Thread)
  | unbind (i : Word)
deriving DecidableEq, Inhabited

/-- Takes a step. Gives the answer of a call for the next thread. -/
def WalkStep.act : WalkStep → Act World (List (Option Thread))
  | next => do return [← nextMutator]
  | reset => do
    resetWalk
    return []
  | add t => do
    addThread t
    return []
  | unbind i => do
    unbindThread i
    return []

/-- Takes steps one after the other. Gives the answers of the calls for the next thread. -/
def walkAll : List WalkStep → Act World (List (Option Thread))
  | [] => return []
  | step :: steps => do
    let answers ← step.act
    return answers ++ (← walkAll steps)

/-- The threads that are added by some steps. -/
def addedBy (steps : List WalkStep) : List Thread :=
  steps.filterMap fun step => match step with
    | .add t => some t
    | _ => none

theorem addedBy_append (steps more : List WalkStep) :
    addedBy (steps ++ more) = addedBy steps ++ addedBy more := List.filterMap_append

theorem addedBy_cons (x : WalkStep) (steps : List WalkStep) :
    addedBy (x :: steps) = addedBy [x] ++ addedBy steps := addedBy_append [x] steps

/-! ## The walk as callers see it -/

/-- The threads there are, who of them has a record, and a walk over them. -/
structure Tour where
  threads : List Thread
  bound : Thread → Bool
  /-- The threads there were when the walk began, and how many of them it has passed. -/
  underWay : Option (List Thread × Nat)

namespace Tour

/-- The first thread of a list with a record, from a place on, and its place. -/
def nextIn? (bound : Thread → Bool) (snapshot : List Thread) (passed : Nat) :
    Option (Thread × Nat) :=
  snapshot.zipIdx.find? fun (t, i) => decide (passed ≤ i) && bound t

/-- What a step does to a tour. A walk that begins takes the threads there are, and one that finds no
more is over. A place that does not exist has no record to lose. -/
def step : WalkStep → Tour → Except Fault (List (Option Thread) × Tour)
  | .next, s =>
    let (snapshot, passed) := s.underWay.getD (s.threads, 0)
    match nextIn? s.bound snapshot passed with
    | some (t, i) => .ok ([some t], { s with underWay := some (snapshot, i + 1) })
    | none => .ok ([none], { s with underWay := none })
  | .reset, s => .ok ([], { s with underWay := none })
  | .add t, s =>
    .ok ([], { s with threads := s.threads ++ [t], bound := Function.update s.bound t true })
  | .unbind i, s =>
    match s.threads[i.toNat]? with
    | some t => .ok ([], { s with bound := Function.update s.bound t false })
    | none => .error (.outOfBounds s.threads.length i.toNat)

/-- The answers to the calls among some steps, and the tour after them. -/
def run : List WalkStep → Tour → Except Fault (List (Option Thread) × Tour)
  | [], s => .ok ([], s)
  | step :: steps, s => do
    let (answers, s) ← s.step step
    let (more, s) ← run steps s
    return (answers ++ more, s)

/-- A tour of the threads of a world, in which no walk is under way. -/
def start (w : World) : Tour := ⟨w.host.threadList, fun t => w.host.threads.contains (t, true), none⟩

/-! ## What is left of a list -/

theorem dropWhile_drop_eq (bound : Thread → Bool) (ts : List Thread) (k passed : Nat) :
    (ts.drop (passed - k)).dropWhile (fun t => !bound t) =
      match (ts.zipIdx k).find? fun (t, i) => decide (passed ≤ i) && bound t with
      | some (t, i) => t :: ts.drop (i + 1 - k)
      | none => [] := by
  induction ts generalizing k with
  | nil => simp
  | cons t ts ih =>
    rw [List.zipIdx_cons, List.find?_cons]
    -- what is found among the others lies behind the place of `t`
    have hrest : (ts.drop (passed - (k + 1))).dropWhile (fun t => !bound t) =
        match (ts.zipIdx (k + 1)).find? fun (t, i) => decide (passed ≤ i) && bound t with
        | some (u, i) => u :: (t :: ts).drop (i + 1 - k)
        | none => [] := by
      rw [ih]
      cases hfind : (ts.zipIdx (k + 1)).find? fun (t, i) => decide (passed ≤ i) && bound t with
      | none => rfl
      | some found =>
        obtain ⟨u, i⟩ := found
        have hle : k + 1 ≤ i := List.le_snd_of_mem_zipIdx (List.mem_of_find?_eq_some hfind)
        have hplace : i + 1 - k = i + 1 - (k + 1) + 1 := by omega
        simp only [hplace, List.drop_succ_cons]
    by_cases hk : passed ≤ k
    · rw [Nat.sub_eq_zero_of_le hk, List.drop_zero]
      cases hb : bound t with
      | true => simp [hk, hb]
      | false =>
        rw [Nat.sub_eq_zero_of_le (Nat.le_succ_of_le hk), List.drop_zero] at hrest
        simpa [hk, hb] using hrest
    · have hskip : passed - k = passed - (k + 1) + 1 := by omega
      rw [hskip, List.drop_succ_cons, hrest]
      simp [hk]

/-- What is left of a walk begins with the thread that the tour comes to next. -/
theorem dropWhile_eq_nextIn? (bound : Thread → Bool) (snapshot : List Thread) (passed : Nat) :
    (snapshot.drop passed).dropWhile (fun t => !bound t) =
      match nextIn? bound snapshot passed with
      | some (t, i) => t :: snapshot.drop (i + 1)
      | none => [] := dropWhile_drop_eq bound snapshot 0 passed

theorem unbound_of_nextIn?_eq_none {bound : Thread → Bool} {snapshot : List Thread} {passed : Nat}
    (h : nextIn? bound snapshot passed = none) : ∀ t ∈ snapshot.drop passed, bound t = false := by
  have hnone := dropWhile_eq_nextIn? bound snapshot passed
  simp only [h, List.dropWhile_eq_nil_iff] at hnone
  intro t ht
  simpa using hnone t ht

/-- Only threads without a record are passed over. -/
theorem drop_eq_of_nextIn?_eq_some {bound : Thread → Bool} {snapshot : List Thread}
    {passed i : Nat} {t : Thread} (h : nextIn? bound snapshot passed = some (t, i)) :
    ∃ skipped, (∀ u ∈ skipped, bound u = false) ∧
      snapshot.drop passed = skipped ++ t :: snapshot.drop (i + 1) := by
  have hsome := dropWhile_eq_nextIn? bound snapshot passed
  simp only [h] at hsome
  refine ⟨(snapshot.drop passed).takeWhile fun t => !bound t, ?_, ?_⟩
  · intro u hu
    simpa using List.mem_takeWhile_imp hu
  · rw [← hsome, List.takeWhile_append_dropWhile]

end Tour

/-! ## A walk follows its tour -/

/-- A walk keeps what its tour has still to visit. -/
structure Follows (w : World) (s : Tour) : Prop where
  intact : w.host.listBroken = false
  threads_eq : w.host.threadList = s.threads
  distinct : s.threads.Nodup
  bound_eq : w.host.hasRecord = s.bound
  walk_eq : w.walk = s.underWay.map fun (snapshot, passed) => snapshot.drop passed

namespace Follows
variable {w : World} {s : Tour}

theorem start (hintact : w.host.listBroken = false) (hdistinct : w.host.threadList.Nodup)
    (hwalk : w.walk = none) : Follows w (.start w) := by
  refine ⟨hintact, rfl, hdistinct, ?_, hwalk⟩
  funext t
  rw [Bool.eq_iff_iff, StandIn.Host.hasRecord_iff hdistinct]
  simp [Tour.start]

theorem pending_eq (h : Follows w s) :
    w.walk.getD w.host.threadList =
      let (snapshot, passed) := s.underWay.getD (s.threads, 0)
      snapshot.drop passed := by
  rw [h.walk_eq, h.threads_eq]
  cases s.underWay with
  | none => rfl
  | some _ => rfl

end Follows

theorem addThread_of_intact {w : World} (hintact : w.host.listBroken = false) (t : Thread) :
    addThread t w = .ok () { w with host := w.host.addThread t } := by
  have hlook : (discard listedHost) w = .ok () w := by
    change EStateM.map _ listedHost w = _
    rw [EStateM.map, listedHost_of_intact hintact]
  rw [addThread, Act.bind_of_ok hlook]
  rfl

theorem unbindThread_of_intact {w : World} (hintact : w.host.listBroken = false) (i : Word) :
    unbindThread i w =
      match w.host.unbind i.toNat with
      | .ok h => .ok () { w with host := h }
      | .error f => .error f { w with host := w.host.breakList } := by
  rw [unbindThread, Act.bind_of_ok (listedHost_of_intact hintact)]
  cases w.host.unbind i.toNat with
  | ok h => rfl
  | error f => rfl

namespace Tour
variable {s s' : Tour} {answers : List (Option Thread)}

theorem threads_of_step {x : WalkStep} (h : s.step x = .ok (answers, s')) :
    s'.threads = s.threads ++ addedBy [x] := by
  cases x with
  | next =>
    simp only [step] at h
    split at h
    all_goals
      cases h
      exact (List.append_nil _).symm
  | reset =>
    cases h
    exact (List.append_nil _).symm
  | add t =>
    cases h
    rfl
  | unbind i =>
    simp only [step] at h
    split at h
    · cases h
      exact (List.append_nil _).symm
    · cases h

end Tour

namespace Follows
variable {w : World} {s : Tour}

/-- A step has the answers that it has for the tour, and the walk goes on beside it. -/
theorem step (h : Follows w s) {x : WalkStep} (hfresh : (s.threads ++ addedBy [x]).Nodup) :
    match s.step x with
    | .ok (answers, s') => ∃ w', x.act w = .ok answers w' ∧ Follows w' s'
    | .error f => (x.act.attempt w).1 = .error f := by
  cases x with
  | next =>
    have hpending := h.pending_eq
    simp only [Tour.step]
    rcases hbegin : s.underWay.getD (s.threads, 0) with ⟨snapshot, passed⟩
    rw [hbegin] at hpending
    have hnext := nextMutator_eq h.intact (snapshot.drop passed) hpending
    rw [h.bound_eq, Tour.dropWhile_eq_nextIn?] at hnext
    cases hfind : Tour.nextIn? s.bound snapshot passed with
    | none =>
      simp only [hfind] at hnext ⊢
      exact ⟨_, Act.bind_of_ok hnext, h.intact, h.threads_eq, h.distinct, h.bound_eq, rfl⟩
    | some found =>
      simp only [hfind] at hnext ⊢
      exact ⟨_, Act.bind_of_ok hnext, h.intact, h.threads_eq, h.distinct, h.bound_eq, rfl⟩
  | reset => exact ⟨_, rfl, h.intact, h.threads_eq, h.distinct, h.bound_eq, rfl⟩
  | add t =>
    have hnew : t ∉ w.host.threadList := by
      rw [h.threads_eq]
      intro ht
      exact (List.nodup_append.mp hfresh).2.2 t ht t (List.mem_singleton_self t) rfl
    refine ⟨_, Act.bind_of_ok (addThread_of_intact h.intact t), h.intact, ?_, hfresh, ?_, h.walk_eq⟩
    · rw [← h.threads_eq]
      exact StandIn.Host.threadList_addThread w.host t
    · rw [← h.bound_eq]
      exact StandIn.Host.hasRecord_addThread hnew
  | unbind i =>
    have hunbind := unbindThread_of_intact h.intact i
    simp only [Tour.step]
    cases hplace : s.threads[i.toNat]? with
    | some t =>
      obtain ⟨host, hhost, hintact, hlist, hrecord⟩ :=
        StandIn.Host.exists_unbind (h.threads_eq ▸ h.distinct) (h.threads_eq ▸ hplace)
      rw [hhost] at hunbind
      refine ⟨_, Act.bind_of_ok hunbind, ?_, ?_, h.distinct, ?_, h.walk_eq⟩
      · exact hintact.trans h.intact
      · exact hlist.trans h.threads_eq
      · rw [← h.bound_eq]
        exact hrecord
    | none =>
      have hle : s.threads.length ≤ i.toNat := List.getElem?_eq_none_iff.mp hplace
      have hlength : w.host.threads.length = s.threads.length := by
        rw [← h.threads_eq, StandIn.Host.threadList, List.length_map]
      have hrefused : w.host.unbind i.toNat = .error (.outOfBounds s.threads.length i.toNat) := by
        rw [StandIn.Host.unbind, hlength, if_neg (Nat.not_lt.mpr hle)]
      rw [hrefused] at hunbind
      rw [WalkStep.act, Act.attempt_bind, Act.attempt, hunbind]

/-- Steps have the answers that they have for the tour, by induction over them. -/
theorem run (h : Follows w s) {steps : List WalkStep}
    (hfresh : (s.threads ++ addedBy steps).Nodup) :
    match s.run steps with
    | .ok (answers, s') => ∃ w', walkAll steps w = .ok answers w' ∧ Follows w' s'
    | .error f => ((walkAll steps).attempt w).1 = .error f := by
  induction steps generalizing w s with
  | nil => exact ⟨w, rfl, h⟩
  | cons x steps ih =>
    rw [addedBy_cons, ← List.append_assoc] at hfresh
    have hstep := h.step (List.Nodup.of_append_left hfresh)
    rw [Tour.run]
    cases hx : s.step x with
    | error f =>
      rw [hx] at hstep
      exact Act.attempt_bind_of_error hstep
    | ok result =>
      obtain ⟨answers, s'⟩ := result
      rw [hx] at hstep
      obtain ⟨w', hact, hfollows⟩ := hstep
      have hrest := ih hfollows (Tour.threads_of_step hx ▸ hfresh)
      simp only [Bind.bind, Except.bind]
      cases hrun : s'.run steps with
      | error f =>
        rw [hrun] at hrest
        change ((walkAll (x :: steps)).attempt w).1 = _
        rw [walkAll, Act.attempt_bind_of_ok hact]
        exact Act.attempt_bind_of_error hrest
      | ok result =>
        rw [hrun] at hrest
        obtain ⟨w'', hwalk, hfollows'⟩ := hrest
        refine ⟨w'', ?_, hfollows'⟩
        rw [walkAll, Act.bind_of_ok hact, Act.bind_of_ok hwalk]
        rfl

theorem exists_run (h : Follows w s) {steps : List WalkStep}
    (hfresh : (s.threads ++ addedBy steps).Nodup) {answers : List (Option Thread)} {w' : World}
    (hwalk : walkAll steps w = .ok answers w') :
    ∃ s', s.run steps = .ok (answers, s') ∧ Follows w' s' := by
  have hrun := h.run hfresh
  cases htour : s.run steps with
  | error f =>
    rw [htour] at hrun
    simp [Act.attempt, hwalk] at hrun
  | ok result =>
    rw [htour] at hrun
    obtain ⟨w'', hwalk', hfollows⟩ := hrun
    cases hwalk.symm.trans hwalk'
    exact ⟨_, rfl, hfollows⟩

end Follows

/-! ## One walk -/

namespace Tour
variable {s s' : Tour} {answers : List (Option Thread)} {steps : List WalkStep}

theorem exists_of_run_cons {x : WalkStep} (h : s.run (x :: steps) = .ok (answers, s')) :
    ∃ first s₁ more, s.step x = .ok (first, s₁) ∧ s₁.run steps = .ok (more, s') ∧
      answers = first ++ more := by
  obtain ⟨⟨first, s₁⟩, hx, hrest⟩ := exists_of_bind h
  obtain ⟨⟨more, s₂⟩, hrun, hanswers⟩ := exists_of_bind hrest
  cases hanswers
  exact ⟨first, s₁, more, hx, hrun, rfl⟩

theorem threads_of_run (h : s.run steps = .ok (answers, s')) :
    s'.threads = s.threads ++ addedBy steps := by
  induction steps generalizing s answers with
  | nil =>
    cases h
    exact (List.append_nil _).symm
  | cons x steps ih =>
    obtain ⟨first, s₁, more, hx, hrest, -⟩ := exists_of_run_cons h
    rw [ih hrest, threads_of_step hx, addedBy_cons x steps, List.append_assoc]

theorem bound_of_step {x : WalkStep} (h : s.step x = .ok (answers, s'))
    (hfresh : (s.threads ++ addedBy [x]).Nodup) {t : Thread} (ht : t ∈ s.threads)
    (hbound : s'.bound t = true) : s.bound t = true := by
  cases x with
  | next =>
    simp only [step] at h
    split at h
    all_goals
      cases h
      exact hbound
  | reset =>
    cases h
    exact hbound
  | add u =>
    cases h
    have hne : t ≠ u := (List.nodup_append.mp hfresh).2.2 t ht u (List.mem_singleton_self u)
    simpa [Function.update_apply, hne] using hbound
  | unbind i =>
    simp only [step] at h
    split at h
    · next u _ =>
      cases h
      by_cases hu : t = u
      · simp [hu] at hbound
      · simpa [Function.update_apply, hu] using hbound
    · cases h

/-- A thread that has lost its record does not get it back. -/
theorem bound_of_run (h : s.run steps = .ok (answers, s'))
    (hfresh : (s.threads ++ addedBy steps).Nodup) {t : Thread} (ht : t ∈ s.threads)
    (hbound : s'.bound t = true) : s.bound t = true := by
  induction steps generalizing s answers with
  | nil =>
    cases h
    exact hbound
  | cons x steps ih =>
    obtain ⟨first, s₁, more, hx, hrest, -⟩ := exists_of_run_cons h
    rw [addedBy_cons, ← List.append_assoc] at hfresh
    have hthreads := threads_of_step hx
    refine bound_of_step hx (List.Nodup.of_append_left hfresh) ht (ih hrest (hthreads ▸ hfresh) ?_)
    rw [hthreads]
    exact List.mem_append_left _ ht

/-- A thread comes or loses its record, which makes no difference to the walk that is under way. -/
theorem underWay_of_step {x : WalkStep} (h : s.step x = .ok (answers, s')) (hnext : x ≠ .next)
    (hreset : x ≠ .reset) : answers = [] ∧ s'.underWay = s.underWay := by
  cases x with
  | next => exact absurd rfl hnext
  | reset => exact absurd rfl hreset
  | add t =>
    cases h
    exact ⟨rfl, rfl⟩
  | unbind i =>
    simp only [step] at h
    split at h <;> cases h
    exact ⟨rfl, rfl⟩

/-- A walk begins with a call for the next thread. -/
theorem underWay_of_quiet (h : s.run steps = .ok ([], s')) (hnone : s.underWay = none) :
    s'.underWay = none := by
  induction steps generalizing s with
  | nil =>
    cases h
    exact hnone
  | cons x steps ih =>
    obtain ⟨first, s₁, more, hx, hrest, hnil⟩ := exists_of_run_cons h
    obtain ⟨rfl, rfl⟩ := List.append_eq_nil_iff.mp hnil.symm
    refine ih hrest ?_
    cases x with
    | next =>
      simp only [step] at hx
      split at hx <;> cases hx
    | reset =>
      cases hx
      rfl
    | add _ | unbind _ => rw [(underWay_of_step hx nofun nofun).2, hnone]

/-- What a walk that has the threads `ahead` of it answers by the time that the tour is `s`: some of
them, in order. Once it is over, it has answered with all that still have a record. -/
structure Covers (ahead : List Thread) (answers : List (Option Thread)) (s : Tour) : Prop where
  in_order : answers.reduceOption.Sublist ahead
  complete : none ∈ answers → ∀ t ∈ ahead, s.bound t = true → some t ∈ answers
  ended : none ∈ answers → s.underWay = none

namespace Covers
variable {ahead skipped : List Thread} {t : Thread}

theorem nothing : Covers ahead [] s := ⟨List.nil_sublist _, nofun, nofun⟩

/-- A walk that finds no thread with a record is over. -/
theorem ends (hunbound : ∀ t ∈ ahead, s.bound t = false) (hnone : s.underWay = none) :
    Covers ahead [none] s := by
  refine ⟨List.nil_sublist _, fun _ t ht hbound => ?_, fun _ => hnone⟩
  exact absurd (hbound.symm.trans (hunbound t ht)) nofun

/-- A walk passes over threads without a record, and answers with the one that comes after them. -/
theorem gives (h : Covers ahead answers s) (hskipped : ∀ u ∈ skipped, s.bound u = false) :
    Covers (skipped ++ t :: ahead) (some t :: answers) s := by
  constructor
  · exact (h.in_order.cons_cons t).trans (List.sublist_append_right _ _)
  · intro hnone u hu hbound
    have hrest : none ∈ answers := by simpa using hnone
    rw [List.mem_append, List.mem_cons] at hu
    obtain hu | rfl | hu := hu
    · exact absurd (hbound.symm.trans (hskipped u hu)) nofun
    · exact List.mem_cons_self
    · exact List.mem_cons_of_mem _ (h.complete hrest u hu hbound)
  · intro hnone
    exact h.ended (by simpa using hnone)

end Covers

/-- A call for the next thread ends the walk if nothing ahead of it has a record, and otherwise
gives the first thread that has one. -/
theorem next_cases {snapshot : List Thread} {passed : Nat}
    (hwalk : s.underWay = some (snapshot, passed)) (h : s.step .next = .ok (answers, s')) :
    (answers = [none] ∧ s'.underWay = none ∧ ∀ t ∈ snapshot.drop passed, s.bound t = false) ∨
      ∃ t i skipped, answers = [some t] ∧ s'.underWay = some (snapshot, i) ∧
        snapshot.drop passed = skipped ++ t :: snapshot.drop i ∧
        ∀ u ∈ skipped, s.bound u = false := by
  simp only [step, hwalk, Option.getD_some] at h
  cases hfind : nextIn? s.bound snapshot passed with
  | none =>
    simp only [hfind] at h
    cases h
    exact .inl ⟨rfl, rfl, unbound_of_nextIn?_eq_none hfind⟩
  | some found =>
    obtain ⟨t, i⟩ := found
    simp only [hfind] at h
    cases h
    obtain ⟨skipped, hskipped, hdrop⟩ := drop_eq_of_nextIn?_eq_some hfind
    exact .inr ⟨t, i + 1, skipped, rfl, rfl, hdrop, hskipped⟩

/-- A walk answers with what is left of its list. The induction is on the steps, and `passed` says
how far the walk has come. -/
theorem answers_of_walk {snapshot : List Thread} {passed : Nat}
    (hwalk : s.underWay = some (snapshot, passed)) (hlisted : ∀ t ∈ snapshot, t ∈ s.threads)
    (hfresh : (s.threads ++ addedBy steps).Nodup) (hreset : .reset ∉ steps)
    (hrun : s.run steps = .ok (answers, s')) (hone : none ∉ answers.dropLast) :
    Covers (snapshot.drop passed) answers s' := by
  induction steps generalizing s answers passed with
  | nil =>
    cases hrun
    exact .nothing
  | cons x steps ih =>
    obtain ⟨first, s₁, more, hx, hrest, rfl⟩ := exists_of_run_cons hrun
    have hgone : ∀ t ∈ snapshot, s.bound t = false → s'.bound t = false := by
      intro t ht
      contrapose!
      simpa using bound_of_run hrun hfresh (hlisted t ht)
    have hthreads := threads_of_step hx
    have hlisted' : ∀ t ∈ snapshot, t ∈ s₁.threads := by
      intro t ht
      rw [hthreads]
      exact List.mem_append_left _ (hlisted t ht)
    rw [addedBy_cons, ← List.append_assoc, ← hthreads] at hfresh
    have hreset' : .reset ∉ steps := fun h => hreset (List.mem_cons_of_mem _ h)
    cases x with
    | next =>
      obtain ⟨rfl, hnone, hunbound⟩ | ⟨t, i, skipped, rfl, hwalk', hdrop, hskipped⟩ :=
        next_cases hwalk hx
      · -- the call that ends the walk is the last
        obtain rfl : more = [] := by
          by_contra hmore
          exact hone (by simp [List.dropLast_cons_of_ne_nil hmore])
        refine .ends (fun t ht => ?_) (underWay_of_quiet hrest hnone)
        exact hgone t (List.mem_of_mem_drop ht) (hunbound t ht)
      · have hone' : none ∉ more.dropLast := by
          intro hmem
          cases more with
          | nil => cases hmem
          | cons a more => exact hone (List.mem_cons_of_mem _ hmem)
        have hcovers := ih hwalk' hlisted' hfresh hreset' hrest hone'
        have hsnapshot : ∀ u ∈ skipped, u ∈ snapshot := by
          intro u hu
          refine List.mem_of_mem_drop (i := passed) ?_
          rw [hdrop]
          exact List.mem_append_left _ hu
        rw [hdrop]
        exact hcovers.gives fun u hu => hgone u (hsnapshot u hu) (hskipped u hu)
    | reset => exact absurd List.mem_cons_self hreset
    | add _ | unbind _ =>
      obtain ⟨rfl, hsame⟩ := underWay_of_step hx nofun nofun
      exact ih (hsame.trans hwalk) hlisted' hfresh hreset' hrest hone

end Tour

/-- What the calls of a walk have answered by the time that the world is `w`, if the walk began with
the threads `listed`. -/
structure Tells (listed : List Thread) (answers : List (Option Thread)) (w : World) : Prop where
  in_order : answers.reduceOption.Sublist listed
  once : answers.reduceOption.Nodup
  complete : none ∈ answers → ∀ t ∈ listed, w.host.hasRecord t = true → some t ∈ answers
  ended : none ∈ answers → w.walk = none

/-- Whatever happens to the threads, calls for the next one have the answers of the tour. A walk that
is not abandoned gives threads in the order of the list that it began with and none of them twice,
and when it gives none it has given all that have kept their record, and is over. -/
theorem walk_complete_and_stable {w : World} (hintact : w.host.listBroken = false)
    (hstart : w.walk = none) (steps : List WalkStep)
    (hdistinct : (w.host.threadList ++ addedBy steps).Nodup) :
    ((walkAll steps).attempt w).1 = ((Tour.start w).run steps).map (·.1) ∧
      ∀ before during, steps = before ++ .next :: during → .reset ∉ during →
        ∀ earlier w₁, walkAll before w = .ok earlier w₁ → w₁.walk = none →
        ∀ answers w₂, walkAll (.next :: during) w₁ = .ok answers w₂ → none ∉ answers.dropLast →
          Tells w₁.host.threadList answers w₂ := by
  have hfollows : Follows w (.start w) := .start hintact (List.Nodup.of_append_left hdistinct) hstart
  constructor
  · have hrun := hfollows.run hdistinct
    cases htour : (Tour.start w).run steps with
    | error f =>
      rw [htour] at hrun
      exact hrun
    | ok result =>
      obtain ⟨answers, s'⟩ := result
      rw [htour] at hrun
      obtain ⟨w', hwalk, -⟩ := hrun
      rw [Act.attempt, hwalk]
      rfl
  · rintro before during rfl hreset earlier w₁ hearlier hnone answers w₂ hanswers hone
    rw [addedBy_append, ← List.append_assoc] at hdistinct
    obtain ⟨s₁, hs₁, hfollows₁⟩ :=
      hfollows.exists_run (List.Nodup.of_append_left hdistinct) hearlier
    have hthreads : s₁.threads = w.host.threadList ++ addedBy before := Tour.threads_of_run hs₁
    rw [← hthreads] at hdistinct
    obtain ⟨s₂, hs₂, hfollows₂⟩ := hfollows₁.exists_run hdistinct hanswers
    have hidle : s₁.underWay = none := by
      have hmap := hfollows₁.walk_eq
      rwa [hnone, eq_comm, Option.map_eq_none_iff] at hmap
    -- a walk that is about to begin has passed nothing of the list
    have hbegun : Tour.run (.next :: during) { s₁ with underWay := some (s₁.threads, 0) } =
        .ok (answers, s₂) := by
      rw [← hs₂]
      simp only [Tour.run, Tour.step, hidle, Option.getD_none, Option.getD_some]
    have hreset' : .reset ∉ .next :: during := by simpa using hreset
    have hcovers : Tour.Covers s₁.threads answers s₂ :=
      Tour.answers_of_walk (s := { s₁ with underWay := some (s₁.threads, 0) }) rfl
        (fun t ht => ht) hdistinct hreset' hbegun hone
    rw [hfollows₁.threads_eq]
    refine ⟨hcovers.in_order, hcovers.in_order.nodup hfollows₁.distinct, ?_, ?_⟩
    · intro hend t ht hrecord
      rw [hfollows₂.bound_eq] at hrecord
      exact hcovers.complete hend t ht hrecord
    · intro hend
      rw [hfollows₂.walk_eq, hcovers.ended hend]
      rfl

/-- Four threads, the second of which has no record. -/
def fourThreads : World :=
  { World.initial with
    host := { StandIn.Host.initial with
      threads := [(StandIn.Host.threadOf 1, true), (StandIn.Host.threadOf 2, false),
        (StandIn.Host.threadOf 3, true), (StandIn.Host.threadOf 4, true)] } }

/-- While a walk is under way a thread comes and another loses its record. The new thread is not seen
by that walk, and the other one is passed over. The next walk is abandoned. -/
theorem walk_complete_and_stable_changing :
    let t := StandIn.Host.threadOf
    let during : List WalkStep := [.add (t 5), .unbind 2, .next, .next]
    let more : List WalkStep := [.next, .next, .next, .reset, .next]
    fourThreads.host.listBroken = false ∧ fourThreads.walk = none ∧
      (fourThreads.host.threadList ++ addedBy (.next :: during)).Nodup ∧
      ((walkAll (.next :: during ++ more)).attempt fourThreads).1 =
        .ok [some (t 1), some (t 4), none, some (t 1), some (t 4), some (t 5), some (t 1)] ∧
      ∃ w, walkAll (.next :: during) fourThreads = .ok [some (t 1), some (t 4), none] w ∧
        Tells fourThreads.host.threadList [some (t 1), some (t 4), none] w := by
  intro t during more
  have hrun : ∃ w, walkAll (.next :: during) fourThreads = .ok [some (t 1), some (t 4), none] w :=
    ⟨_, rfl⟩
  obtain ⟨w, hw⟩ := hrun
  refine ⟨rfl, rfl, by decide, ?_, w, hw, ?_⟩
  · exact (walk_complete_and_stable rfl rfl (.next :: during ++ more) (by decide)).1.trans rfl
  · exact (walk_complete_and_stable rfl rfl (.next :: during) (by decide)).2 [] during rfl (by decide)
      [] fourThreads rfl rfl _ w hw (by decide)

end World
end HeapBridge
