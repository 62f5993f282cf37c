import HeapBridge.Proofs.Pause.Promise

/-!
# Sleepers

Five waits share the condition of the monitor, and a thread that waits looks only when it is woken.
So whoever changes what a wait looks at has to wake everybody, and whoever wakes nobody must not
change it. `Vigilant` says that of a state: a thread that sleeps and was not woken waits for
something that is not there. Every move keeps it.
-/
namespace HeapBridge.Pause
variable {s t : System}

/-- Whether a thread sleeps on the monitor at a duty. -/
def Duty.isAsleep : Duty → Bool
  | park asleep | awaitHandOff asleep => asleep
  | _ => false

/-- Nobody sleeps through what it waits for. -/
structure Vigilant (s : System) : Prop where
  /-- The companion waits for a request to stop the world, or to end. -/
  idle : s.companion = .idle true →
    s.sync.desired ≠ .suspended ∧ s.sync.terminating = false
  /-- The companion waits until the VM thread gives the pause back. -/
  handedOff : s.companion = .handedOff true → s.sync.handedToVm = true
  /-- A caller waits for a state of the world. -/
  awaiting : ∀ n state, s.caller n = .awaiting state true → s.sync.reached ≠ state
  /-- The VM thread waits in the stopped world until it is wanted back. -/
  parked : .park true ∈ s.vm.duties → s.sync.desired ≠ .resumed
  /-- The VM thread waits for the pause to be handed over. -/
  blocked : .awaitHandOff true ∈ s.vm.duties → s.sync.handedToVm = false

/-- Nobody sleeps. -/
structure Rested (s : System) : Prop where
  companion : s.companion ≠ .idle true ∧ s.companion ≠ .handedOff true
  caller : ∀ n state, s.caller n ≠ .awaiting state true
  duties : ∀ d ∈ s.vm.duties, d.isAsleep = false

/-- Everybody has been woken, so anything may be changed. -/
theorem Rested.wakeAll (s : System) : Rested s.wakeAll := by
  constructor
  · cases hcompanion : s.companion <;> simp [System.wakeAll, hcompanion, Stage.awake]
  · intro n state
    cases hcaller : s.caller n <;> simp [System.wakeAll, hcaller, Caller.awake]
  · intro d hd
    obtain ⟨d', -, rfl⟩ := List.mem_map.mp hd
    cases d' <;> rfl

namespace Vigilant

theorem of_rested (h : Rested s) : Vigilant s where
  idle hidle := absurd hidle h.companion.1
  handedOff hhanded := absurd hhanded h.companion.2
  awaiting n state hawaiting := absurd hawaiting (h.caller n state)
  parked hpark := absurd (h.duties _ hpark) nofun
  blocked hawait := absurd (h.duties _ hawait) nofun

theorem initial : Vigilant .initial := ⟨nofun, nofun, nofun, nofun, nofun⟩

/-- A caller looks, and sleeps if the world is not in its state. -/
theorem awaitState (h : Vigilant s) (n : Nat) (state : WorldState) :
    Vigilant (s.awaitState n state) := by
  refine ⟨h.idle, h.handedOff, ?_, h.parked, h.blocked⟩
  intro x state' hawaiting
  by_cases hx : x = n
  · by_cases hreached : s.sync.reached = state
    · simp [System.awaitState, hx, hreached] at hawaiting
    · have hstate : state = state' := by
        simpa [System.awaitState, hx, hreached] using hawaiting
      exact hstate ▸ hreached
  · simp only [System.awaitState, System.caller_setCaller, hx, if_false] at hawaiting
    exact h.awaiting x state' hawaiting

/-- A caller is somewhere where it does not sleep. -/
theorem setCaller (h : Vigilant s) {n : Nat} {c : Caller}
    (hc : ∀ state, c ≠ .awaiting state true) : Vigilant (s.setCaller n c) := by
  refine ⟨h.idle, h.handedOff, ?_, h.parked, h.blocked⟩
  intro x state hawaiting
  rw [System.caller_setCaller] at hawaiting
  split at hawaiting
  · exact absurd hawaiting (hc state)
  · exact h.awaiting x state hawaiting

/-- The VM thread has other duties. Those at which it sleeps are old, or it has just looked. -/
theorem setDuties (h : Vigilant s) {ds : List Duty}
    (hpark : .park true ∈ ds → .park true ∈ s.vm.duties ∨ s.sync.desired ≠ .resumed)
    (hawait : .awaitHandOff true ∈ ds →
      .awaitHandOff true ∈ s.vm.duties ∨ s.sync.handedToVm = false) :
    Vigilant (s.setDuties ds) where
  idle := h.idle
  handedOff := h.handedOff
  awaiting := h.awaiting
  parked hmem := (hpark hmem).elim h.parked id
  blocked hmem := (hawait hmem).elim h.blocked id

/-- The VM thread goes on to duties at which it does not sleep. -/
theorem goOn (h : Vigilant s) {d : Duty} {rest : List Duty} (hd : s.vm.duties = d :: rest)
    (front : List Duty) (hfront : ∀ d' ∈ front, d'.isAsleep = false) :
    Vigilant (s.setDuties (front ++ rest)) := by
  have hold : ∀ d' ∈ front ++ rest, d'.isAsleep = true → d' ∈ s.vm.duties := by
    intro d' hd' hasleep
    rw [hd]
    rcases List.mem_append.mp hd' with hnew | hrest
    · exact absurd ((hfront d' hnew).symm.trans hasleep) nofun
    · exact List.mem_cons_of_mem d hrest
  exact h.setDuties (fun hmem => .inl (hold _ hmem rfl)) fun hmem => .inl (hold _ hmem rfl)

theorem drop (h : Vigilant s) {d : Duty} {rest : List Duty} (hd : s.vm.duties = d :: rest) :
    Vigilant (s.setDuties rest) :=
  h.goOn hd [] nofun

/-- The companion is somewhere where it does not sleep, and nothing is changed that others wait
for. -/
theorem elsewhere (h : Vigilant s)
    (hawake : t.companion ≠ .idle true ∧ t.companion ≠ .handedOff true)
    (hcaller : t.caller = s.caller) (hduties : t.vm.duties = s.vm.duties)
    (hdesired : t.sync.desired = s.sync.desired) (hreached : t.sync.reached = s.sync.reached)
    (hflag : t.sync.handedToVm = s.sync.handedToVm) : Vigilant t := by
  refine ⟨fun ht => absurd ht hawake.1, fun ht => absurd ht hawake.2, ?_, ?_, ?_⟩
  · rw [hcaller, hreached]
    exact h.awaiting
  · rw [hduties, hdesired]
    exact h.parked
  · rw [hduties, hflag]
    exact h.blocked

theorem companionAt (h : Vigilant s) {st : Stage} (hst : st ≠ .idle true ∧ st ≠ .handedOff true) :
    Vigilant { s with companion := st } :=
  h.elsewhere hst rfl rfl rfl rfl rfl

/-! ## Moves -/

theorem companionIdle (h : Vigilant s) : Vigilant s.companionIdle := by
  rw [System.companionIdle]
  split
  case isTrue hwait =>
    exact ⟨fun _ => ⟨hwait.1, by simpa using hwait.2⟩, nofun, h.awaiting, h.parked, h.blocked⟩
  case isFalse =>
    split
    · exact h.companionAt (by simp)
    · split <;> exact h.companionAt (by simp)

/-- The companion hands the pause over and wakes everybody before it sleeps itself. -/
theorem companionChooses (h : Vigilant s) : Vigilant s.companionChooses := by
  have hrested := Rested.wakeAll s
  rw [System.companionChooses]
  split
  · split
    · exact h.companionAt (by simp)
    · exact ⟨nofun, fun _ => rfl, fun n state hn => absurd hn (hrested.caller n state),
        fun hpark => absurd (hrested.duties _ hpark) nofun,
        fun hawait => absurd (hrested.duties _ hawait) nofun⟩
  · exact h.companionAt (by simp)

theorem companionCloses (h : Vigilant s) : Vigilant s.companionCloses := by
  have hrested := Rested.wakeAll s
  rw [System.companionCloses]
  split
  · exact h.companionAt (by simp)
  split
  · exact h.companionAt (by simp)
  split
  · exact h.companionAt (by simp)
  · exact of_rested ⟨by simp, hrested.caller, hrested.duties⟩

theorem stepCompanion (h : Vigilant s) (hstep : s.stepCompanion = some t) : Vigilant t := by
  cases hstage : s.companion with
  | entering =>
    simp only [System.stepCompanion, hstage, Option.some.injEq] at hstep
    subst hstep
    split
    · exact h.companionAt (by simp)
    · exact h.companionIdle
  | idle asleep =>
    cases asleep <;> simp only [System.stepCompanion, hstage, reduceCtorEq] at hstep
    exact Option.some.inj hstep ▸ h.companionIdle
  | choosing =>
    simp only [System.stepCompanion, hstage, Option.some.injEq] at hstep
    exact hstep ▸ h.companionChooses
  | handedOff asleep =>
    cases asleep <;> simp only [System.stepCompanion, hstage, reduceCtorEq] at hstep
    cases hstep
    cases hhanded : s.sync.handedToVm
    · exact h.companionAt (by simp)
    · exact ⟨nofun, fun _ => hhanded, h.awaiting, h.parked, h.blocked⟩
  | closing =>
    simp only [System.stepCompanion, hstage, Option.some.injEq] at hstep
    exact hstep ▸ h.companionCloses
  | ended | failed _ => simp only [System.stepCompanion, hstage, reduceCtorEq] at hstep
  | _ =>
    -- elsewhere the companion neither sleeps nor changes what others wait for
    simp only [System.stepCompanion, hstage] at hstep
    grind [System.log, System.submit, elsewhere]

/-- The VM thread reports the world stopped and wakes everybody. What it waits for itself is not
changed by that. -/
theorem reportStopped (h : Vigilant s) {d : Duty} {rest : List Duty}
    (hd : s.vm.duties = d :: rest) :
    Vigilant (s.reportStopped.setDuties
      (if s.reportStopped.sync.desired = .resumed then rest else .park true :: rest)) := by
  have hrested := Rested.wakeAll s
  refine ⟨fun hidle => absurd hidle hrested.companion.1,
    fun hhanded => absurd hhanded hrested.companion.2,
    fun n state hn => absurd hn (hrested.caller n state), ?_, ?_⟩
  · intro hpark
    change _ ∈ ite _ _ _ at hpark
    split at hpark
    · exact h.parked (hd ▸ List.mem_cons_of_mem d hpark)
    · assumption
  · intro hawait
    change _ ∈ ite _ _ _ at hawait
    have hrest : .awaitHandOff true ∈ rest := by
      split at hawait <;> simpa using hawait
    exact h.blocked (hd ▸ List.mem_cons_of_mem d hrest)

/-- The VM thread looks whether the world is wanted back. -/
theorem lookParked (h : Vigilant s) {d : Duty} {rest : List Duty} (hd : s.vm.duties = d :: rest) :
    Vigilant (s.setDuties
      (if s.sync.desired = .resumed then rest else .park true :: rest)) := by
  split
  · exact h.drop hd
  case isFalse hdesired =>
    refine h.setDuties (fun _ => .inr hdesired) fun hawait => .inl ?_
    rw [hd]
    exact List.mem_cons_of_mem d (by simpa using hawait)

/-- The VM thread looks whether the pause has been handed over. -/
theorem lookHandOff (h : Vigilant s) {d : Duty} {rest : List Duty} (hd : s.vm.duties = d :: rest) :
    Vigilant (s.setDuties (if s.sync.handedToVm
      then s.inPlace [.act .stopWorld] ++ .handBack :: rest else .awaitHandOff true :: rest)) := by
  split
  · have hfront : ∀ d' ∈ s.inPlace [.act .stopWorld] ++ [.handBack], d'.isAsleep = false := by
      cases hopen : s.atSafepoint <;>
        simp [System.inPlace, System.inSafepoint, hopen, Duty.isAsleep]
    simpa using h.goOn hd _ hfront
  case isFalse hhanded =>
    refine h.setDuties (fun hpark => .inl ?_) fun _ => .inr (by simpa using hhanded)
    rw [hd]
    exact List.mem_cons_of_mem d (by simpa using hpark)

theorem reply (h : Vigilant s) (requester : Requester) : Vigilant (s.reply requester) := by
  cases requester with
  | companion =>
    rw [System.reply]
    split
    · exact h.companionAt (by simp)
    · exact h
  | caller n =>
    simp only [System.reply]
    split
    · exact h.setCaller nofun
    · exact h

theorem discharge (h : Vigilant s) {d : Duty} {rest : List Duty} (hd : s.vm.duties = d :: rest)
    (hstep : s.discharge rest d = some t) : Vigilant t := by
  have hdrop := h.drop hd
  cases d with
  | openSafepoint | closeSafepoint | noteNested | postpone =>
    cases hstep
    exact ⟨hdrop.idle, hdrop.handedOff, hdrop.awaiting, hdrop.parked, hdrop.blocked⟩
  | reply requester => exact Option.some.inj hstep ▸ hdrop.reply requester
  | checkLocker =>
    cases hstep
    have hfront : ∀ d' ∈ [if s.regionOpen then Duty.postpone else .reportStopped],
        d'.isAsleep = false := by
      cases s.regionOpen <;> simp [Duty.isAsleep]
    have hnext := h.goOn hd _ hfront
    exact ⟨hnext.idle, hnext.handedOff, hnext.awaiting, hnext.parked, hnext.blocked⟩
  | reportStopped => exact Option.some.inj hstep ▸ h.reportStopped hd
  | park asleep =>
    cases asleep <;> cases hstep
    exact h.lookParked hd
  | awaitHandOff asleep =>
    cases asleep <;> cases hstep
    exact h.lookHandOff hd
  | handBack =>
    cases hstep
    have hrested := Rested.wakeAll s
    exact ⟨fun hidle => absurd hidle hrested.companion.1,
      fun hhanded => absurd hhanded hrested.companion.2,
      fun n state hn => absurd hn (hrested.caller n state), hdrop.parked, fun _ => rfl⟩
  | act a =>
    cases a with
    | note | announce | request _ =>
      cases hstep
      exact ⟨hdrop.idle, hdrop.handedOff, hdrop.awaiting, hdrop.parked, hdrop.blocked⟩
    | nested body noted =>
      cases hstep
      have hfront : ∀ d' ∈ s.inPlace (body.map .act) ++ (if noted then [.noteNested] else []),
          d'.isAsleep = false := by
        intro d' hd'
        cases noted <;> cases hopen : s.atSafepoint <;>
          simp [System.inPlace, System.inSafepoint, hopen] at hd' <;> grind [Duty.isAsleep]
      have hnext := h.goOn hd _ hfront
      cases noted <;> simpa using hnext
    | takePause =>
      cases hstep
      exact h.goOn hd [.awaitHandOff false] (by simp [Duty.isAsleep])
    | stopWorld =>
      cases hstep
      exact h.goOn hd [.checkLocker] (by simp [Duty.isAsleep])
    | giveUp =>
      cases hstep
      exact ⟨h.idle, h.handedOff, h.awaiting, nofun, nofun⟩

theorem stepVmThread (h : Vigilant s) (hstep : s.stepVmThread = some t) : Vigilant t := by
  rw [System.stepVmThread] at hstep
  split at hstep
  case isFalse => cases hstep
  split at hstep
  case h_2 d rest hd => exact h.discharge hd hstep
  rw [System.takeOrder] at hstep
  split at hstep
  · cases hstep
  · cases hstep
    refine ⟨h.idle, h.handedOff, h.awaiting, ?_, ?_⟩ <;> simp [System.inSafepoint]
  · cases hstep
    exact ⟨h.idle, h.handedOff, h.awaiting, h.parked, h.blocked⟩

theorem stepCaller (h : Vigilant s) {n : Nat} (hstep : s.stepCaller n = some t) : Vigilant t := by
  rw [System.stepCaller] at hstep
  split at hstep
  · exact Option.some.inj hstep ▸ h.awaitState n _
  · split at hstep <;> cases hstep
    exact h.setCaller (by simp)
  · cases hstep
    have haway : Vigilant (s.setCaller n .away) := h.setCaller (by simp)
    exact ⟨haway.idle, haway.handedOff, haway.awaiting, haway.parked, haway.blocked⟩
  · cases hstep

theorem stir (h : Vigilant s) {p : System.Party} (hstep : s.stir p = some t) : Vigilant t := by
  cases p with
  | companion =>
    rw [System.stir] at hstep
    split at hstep <;> cases hstep
    exact h.companionAt (Rested.wakeAll s).companion
  | vmThread =>
    rw [System.stir] at hstep
    split at hstep
    case h_1 rest hd =>
      cases hstep
      exact h.goOn hd [.park false] (by simp [Duty.isAsleep])
    case h_2 rest hd =>
      cases hstep
      exact h.goOn hd [.awaitHandOff false] (by simp [Duty.isAsleep])
    case h_3 => cases hstep
  | caller n =>
    rw [System.stir] at hstep
    split at hstep <;> cases hstep
    exact h.setCaller ((Rested.wakeAll s).caller n)

/-- Whoever asks for a state of the world wakes everybody before it sleeps itself. -/
theorem request {n : Nat} {state : WorldState} {wait : Bool}
    (hrequest : s.request n state wait = .ok t) : Vigilant t := by
  have hrested := Rested.wakeAll s
  have hasked : Vigilant { s.wakeAll with sync := { s.sync with desired := state } } :=
    of_rested ⟨hrested.companion, hrested.caller, hrested.duties⟩
  obtain ⟨-, rfl⟩ := System.request_eq_ok_iff.mp hrequest
  split
  · exact hasked.awaitState n state
  · exact hasked

theorem execute (h : Vigilant s) (n : Nat) (role : Role) (body : List Action) :
    Vigilant (s.execute n role body) := by
  have hnoted : Vigilant (s.note .prologue role) :=
    ⟨h.idle, h.handedOff, h.awaiting, h.parked, h.blocked⟩
  rw [System.execute]
  split
  · have hqueued : Vigilant ((s.note .prologue role).submit ⟨.caller n, body⟩) :=
      ⟨h.idle, h.handedOff, h.awaiting, h.parked, h.blocked⟩
    exact hqueued.setCaller nofun
  · exact hnoted.setCaller nofun

theorem terminateCompanion (hend : s.terminateCompanion = .ok t) : Vigilant t := by
  have hrested := Rested.wakeAll s
  rw [System.terminateCompanion] at hend
  split at hend <;> cases hend
  exact of_rested ⟨hrested.companion, hrested.caller, hrested.duties⟩

/-- Every move keeps it. -/
theorem step (h : Vigilant s) {m : System.Move} (hstep : s.step m = some t) : Vigilant t := by
  cases m with
  | proceed p =>
    cases p with
    | companion => exact h.stepCompanion hstep
    | vmThread => exact h.stepVmThread hstep
    | caller n => exact h.stepCaller hstep
  | stir p => exact h.stir hstep
  | request n state wait => exact request (System.step_request_eq_some_iff.mp hstep).2
  | waitFor n state =>
    obtain ⟨-, hwait⟩ := System.step_waitFor_eq_some_iff.mp hstep
    obtain ⟨-, rfl⟩ := System.waitFor_eq_ok_iff.mp hwait
    exact h.awaitState n state
  | execute n role body =>
    rw [System.step] at hstep
    split at hstep <;> cases hstep
    exact h.execute n role body
  | terminateCompanion =>
    cases hend : s.terminateCompanion with
    | error f => simp [System.step, hend, Except.toOption] at hstep
    | ok u =>
      simp only [System.step, hend, Except.toOption, Option.some.injEq] at hstep
      exact hstep ▸ terminateCompanion hend
  | terminateVmThread =>
    cases hstep
    rw [System.terminateVmThread]
    split
    · exact ⟨h.idle, h.handedOff, h.awaiting, h.parked, h.blocked⟩
    · exact h
  | announce | setRegion _ | setPendingList _ | notifyLock =>
    cases hstep
    exact ⟨h.idle, h.handedOff, h.awaiting, h.parked, h.blocked⟩

end Vigilant

/-! ## Waking without a reason -/

namespace System

/-- What the companion finds when it wakes without a reason. -/
theorem stir_companion_eq_some_iff :
    s.stir .companion = some t ↔
      (s.companion = .idle true ∧ t = { s with companion := .idle false }) ∨
      (s.companion = .handedOff true ∧ t = { s with companion := .handedOff false }) := by
  cases hstage : s.companion with
  | idle asleep | handedOff asleep => cases asleep <;> simp [stir, hstage, Stage.awake, eq_comm]
  | _ => simp [stir, hstage, Stage.awake]

theorem stir_caller_eq_some_iff {n : Nat} :
    s.stir (.caller n) = some t ↔
      ∃ state, s.caller n = .awaiting state true ∧ t = s.setCaller n (.awaiting state false) := by
  cases hcaller : s.caller n with
  | awaiting state asleep => cases asleep <;> simp [stir, hcaller, Caller.awake, eq_comm]
  | _ => simp [stir, hcaller, Caller.awake]

theorem stir_vmThread_eq_some_iff :
    s.stir .vmThread = some t ↔ ∃ rest,
      (s.vm.duties = .park true :: rest ∧ t = s.setDuties (.park false :: rest)) ∨
      (s.vm.duties = .awaitHandOff true :: rest ∧
        t = s.setDuties (.awaitHandOff false :: rest)) := by
  rw [stir]
  split <;> simp_all [eq_comm]

theorem setDuties_self {ds : List Duty} (h : s.vm.duties = ds) : s.setDuties ds = s := by
  rw [setDuties, ← h]

end System

/-- A thread that sleeps and wakes without a reason looks, and goes back to sleep. -/
theorem Vigilant.stepParty_of_stir (h : Vigilant s) {p : System.Party} (hstir : s.stir p = some t)
    (hthere : p = .vmThread → s.vm.life = .running) : t.stepParty p = some s := by
  cases p with
  | companion =>
    obtain ⟨hidle, rfl⟩ | ⟨hhanded, rfl⟩ := System.stir_companion_eq_some_iff.mp hstir
    · have hwait := h.idle hidle
      simp [System.stepParty, System.stepCompanion, System.companionIdle, hwait, ← hidle]
    · have hflag := h.handedOff hhanded
      simp [System.stepParty, System.stepCompanion, hflag, ← hhanded]
  | vmThread =>
    have hlife := hthere rfl
    obtain ⟨rest, ⟨hpark, rfl⟩ | ⟨hawait, rfl⟩⟩ := System.stir_vmThread_eq_some_iff.mp hstir
    · have hdesired := h.parked (by simp [hpark])
      have hlook : (s.setDuties (.park false :: rest)).stepVmThread =
          some (s.setDuties (.park true :: rest)) := by
        simp [System.stepVmThread, System.setDuties, System.discharge, hlife, hdesired]
      rw [System.stepParty, hlook, System.setDuties_self hpark]
    · have hflag := h.blocked (by simp [hawait])
      have hlook : (s.setDuties (.awaitHandOff false :: rest)).stepVmThread =
          some (s.setDuties (.awaitHandOff true :: rest)) := by
        simp [System.stepVmThread, System.setDuties, System.discharge, hlife, hflag]
      rw [System.stepParty, hlook, System.setDuties_self hawait]
  | caller n =>
    obtain ⟨state, hawaiting, rfl⟩ := System.stir_caller_eq_some_iff.mp hstir
    have hreached := h.awaiting n state hawaiting
    have hback : (fun x => if x = n then Caller.awaiting state true
        else if x = n then .awaiting state false else s.caller x) = s.caller := by
      funext x
      by_cases hx : x = n
      · simp [hx, hawaiting]
      · simp [hx]
    simp [System.stepParty, System.stepCaller, System.awaitState, System.setCaller, hreached, hback]

/-! ## Runs -/

theorem System.Reaches.vigilant (h : System.Reaches .initial s) : Vigilant s := by
  induction h with
  | refl => exact .initial
  | step m _ hstep ih => exact ih.step hstep

/-- Moves that can be made one after the other lead somewhere. -/
theorem System.Reaches.foldlM {u : System} (ms : List System.Move) (h : System.Reaches u s)
    (hmoves : ms.foldlM System.step s = some t) : System.Reaches u t := by
  induction ms generalizing s with
  | nil =>
    cases hmoves
    exact h
  | cons m ms ih =>
    rw [List.foldlM_cons] at hmoves
    obtain ⟨v, hstep, hrest⟩ := Option.bind_eq_some_iff.mp hmoves
    exact ih (h.step m hstep) hrest

/-- The VM thread waits for a pause of its own, and the companion hands it over to it. The caller
that asked for it looks in vain meanwhile. -/
def System.handOverMoves : List System.Move :=
  [.execute 1 .mutator [.announce, .takePause]] ++ List.replicate 5 (.proceed .vmThread) ++
    [.request 0 .suspended true, .proceed .vmThread] ++
    List.replicate 3 (.proceed .companion) ++ [.proceed (.caller 0)]

/-- No wake-up is lost, whatever the threads do and however many of them there are: whoever sleeps
on the monitor waits for something that is not there, and would go back to sleep if it looked. -/
theorem nobody_sleeps_in (h : System.Reaches .initial s) :
    Vigilant s ∧ ∀ p t, s.stir p = some t → (p = .vmThread → s.vm.life = .running) →
      t.stepParty p = some s :=
  ⟨h.vigilant, fun _ _ hstir hthere => h.vigilant.stepParty_of_stir hstir hthere⟩

/-- Two threads sleep at the end of a hand-over, and one of them wakes without a reason. -/
theorem nobody_sleeps_in_after_hand_over :
    ∃ s, System.Reaches .initial s ∧ s.companion = .handedOff true ∧
      s.caller 0 = .awaiting .suspended true ∧ Vigilant s ∧
      ∃ t, s.stir .companion = some t ∧ t.stepParty .companion = some s := by
  have hrun : ∃ s, System.handOverMoves.foldlM System.step .initial = some s ∧
      s.companion = .handedOff true ∧ s.caller 0 = .awaiting .suspended true ∧
      ∃ t, s.stir .companion = some t := ⟨_, rfl, rfl, rfl, _, rfl⟩
  obtain ⟨s, hs, hcompanion, hcaller, t, hstir⟩ := hrun
  have hreaches := System.Reaches.refl.foldlM _ hs
  obtain ⟨hvigilant, hback⟩ := nobody_sleeps_in hreaches
  exact ⟨s, hreaches, hcompanion, hcaller, hvigilant, t, hstir, hback _ t hstir nofun⟩

end HeapBridge.Pause
