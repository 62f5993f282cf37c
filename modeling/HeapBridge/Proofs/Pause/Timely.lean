import HeapBridge.Proofs.Pause.Meetings

/-!
# Pauses that are announced in time

The companion looks once whether the VM thread has announced a pause, and then goes its way. An
announcement that comes before it looks is answered: the VM thread gets the pause. One that comes
later finds the companion on the way to an operation of its own, for which the VM thread would have
to be free, and both wait for each other. And one that comes while an abandoned pause is left to the
companion makes it break off. This module shows that nothing else can go wrong, and that this does.
-/
namespace HeapBridge.Pause
variable {n : Nat} {p q : Position} {s t u : System} {allowed : System → Bool}

namespace System

/-- Makes a move, if an announcement is allowed there. -/
def stepIf (allowed : System → Bool) (s : System) (m : Move) : Option System :=
  if s.announces m && !allowed s then none else s.step m

/-- What threads that share the monitor can come to, when announcements are made only where they are
allowed. -/
inductive Shares (n : Nat) (allowed : System → Bool) (s : System) : System → Prop
  | refl : Shares n allowed s s
  | move {t u : System} (m : Move) (h : Shares n allowed s t) (hm : m.IsShared n)
    (hstep : t.stepIf allowed m = some u) : Shares n allowed s u

/-- The world is wanted stopped, and the companion waits for the VM thread to execute its operation,
which waits to be given the pause. -/
structure IsDeadlocked (s : System) : Prop where
  outstanding : s.states = (.suspended, .resumed)
  companion : s.companion = .awaitingReply
  queued : .run stopOperation ∈ s.vm.queue
  running : s.vm.life = .running
  vmThread : ∃ asleep rest, s.vm.duties = .awaitHandOff asleep :: rest
  kept : s.sync.handedToVm = false

theorem stepIf_eq_some_iff {m : Move} :
    s.stepIf allowed m = some t ↔
      (s.announces m = true → allowed s = true) ∧ s.step m = some t := by
  unfold stepIf
  cases s.announces m <;> cases allowed s <;> simp

/-- A thread goes on. -/
theorem Shares.proceed (h : Shares n allowed u s) (party : Party)
    (hallowed : s.announces (.proceed party) = true → allowed s = true)
    (hstep : s.stepParty party = some t) : Shares n allowed u t :=
  h.move (.proceed party) trivial (stepIf_eq_some_iff.mpr ⟨hallowed, hstep⟩)

/-- The companion announces nothing. -/
theorem Shares.proceedCompanion (h : Shares n allowed u s) (hstep : s.stepCompanion = some t) :
    Shares n allowed u t :=
  h.proceed .companion (fun hannounces => absurd hannounces Bool.false_ne_true) hstep

theorem Shares.foldlM (ms : List Move) (h : Shares n allowed u s) (hm : ∀ m ∈ ms, m.IsShared n)
    (hmoves : ms.foldlM (stepIf allowed) s = some t) : Shares n allowed u t := by
  induction ms generalizing s with
  | nil =>
    cases hmoves
    exact h
  | cons m ms ih =>
    rw [List.foldlM_cons] at hmoves
    obtain ⟨v, hstep, hrest⟩ := Option.bind_eq_some_iff.mp hmoves
    obtain ⟨hfirst, hothers⟩ := List.forall_mem_cons.mp hm
    exact ih (h.move m hfirst hstep) hothers hrest

end System

/-! ## In time -/

namespace Meets

theorem not_failed (h : Meets n p s) (why : Breach) : s.companion ≠ .failed why := by
  intro hfailed
  cases h.scene with
  | stopping _ _ companion | lent _ _ _ companion => cases hfailed.symm.trans companion
  | errand hbeside _ =>
    cases hbeside with
    | ordered companion | offered _ companion | returned companion =>
      cases hfailed.symm.trans companion
    | alone _ companion =>
      have hstage := companion.symm.trans hfailed
      cases p <;> cases hstage

theorem not_isDeadlocked (h : Meets n p s) : ¬ s.IsDeadlocked := by
  rintro ⟨-, hcompanion, -, -, ⟨asleep, rest, hduties⟩, hkept⟩
  cases h.scene with
  | stopping _ _ _ duties =>
    have hplace := duties.symm.trans hduties
    cases p <;> cases hplace
  | lent _ _ _ companion => cases hcompanion.symm.trans companion
  | errand _ herrand =>
    -- the VM thread has announced the pause, and the companion would not have turned away from it
    rw [hduties] at herrand
    have hannounced : s.sync.vmPauseAnnounced = true := by
      simpa [hkept] using herrand.wants_of_awaitHandOff
    have htimely := h.timely hannounced
    simp [System.isTimely, hcompanion, Stage.isCommitted] at htimely

end Meets

/-- What holds wherever threads meet, they meet wherever they come to. -/
theorem System.Shares.exists_meets (h : System.Shares n allowed s t)
    (htimely : ∀ u, allowed u = true → u.isTimely = true) (hs : ∃ p, Meets n p s) :
    ∃ p, Meets n p t := by
  induction h with
  | refl => exact hs
  | move m _ hm hstep ih =>
    obtain ⟨p, hp⟩ := ih
    obtain ⟨hallowed, hstep⟩ := System.stepIf_eq_some_iff.mp hstep
    exact hp.step hm (fun hannounces => htimely _ (hallowed hannounces)) hstep

/-! ## Too late -/

namespace Position

/-- Where an announcement comes too late, given whether a pause was abandoned. -/
def isLate (retry : Bool) : Position → Bool
  | probing | stalling | clearing | locking | submitting | ordered => true
  | top | choosing | cleaning | announcing | unlocking | closing => retry
  | _ => false

/-- How many steps of the companion it takes until the threads are stuck. -/
def untilStuck : Position → Nat
  | cleaning => 5
  | announcing => 4
  | unlocking => 3
  | closing => 2
  | top => 1
  | probing => 5
  | stalling => 4
  | clearing => 3
  | locking => 2
  | submitting => 1
  | _ => 0

theorem isPressing_of_isLate {retry : Bool} (h : p.isLate retry = true) :
    p.isPressing retry = true := by
  cases p <;> first | exact h | rfl | cases h

theorem Agreed.isLate {h : Handshake} (hagreed : p.Agreed h)
    (hvm : p.isVmThread = false)
    (hlate : h.retryPending = true ∨ p.stage.isCommitted = true) :
    p.isLate h.retryPending = true := by
  cases p with
  | probing | stalling | clearing | locking | submitting => rfl
  | top | choosing | cleaning | announcing | unlocking | closing => exact hlate.resolve_right nofun
  | entering => exact absurd (hagreed.2.symm.trans (hlate.resolve_right nofun)) nofun
  | idle asleep =>
    have hcalm : h.retryPending = false := by
      cases asleep
      · exact hagreed.2
      · exact hagreed.2.1
    exact absurd (hcalm.symm.trans (hlate.resolve_right nofun)) nofun
  | _ => cases hvm

/-- What is late stays late until the threads are stuck. -/
theorem Edge.late (h : Edge s p q) (hlate : p.isLate s.sync.retryPending = true)
    (hchoosing : p ≠ .choosing) (hordered : p ≠ .ordered) :
    q.isLate (p.effect s).sync.retryPending = true ∧ q.untilStuck < p.untilStuck := by
  have hsame := p.steady_effect s
  cases h with
  | top_choosing hretry => exact ⟨hretry, by decide⟩
  | top_entering hretry => exact absurd (hretry.symm.trans hlate) nofun
  | closing =>
    have hretry : s.sync.retryPending = true := hlate
    rw [effect, hretry, if_pos rfl]
    exact ⟨hretry, by decide⟩
  | choosing => exact absurd rfl hchoosing
  | ordered => exact absurd rfl hordered
  | cleaning | announcing | unlocking => exact ⟨hlate, by decide⟩
  | probing_stalling _ | probing_locking _ | stalling _ | clearing | locking | submitting =>
    exact ⟨rfl, by decide⟩
  | _ => cases hlate

end Position

/-- The VM thread waits for a pause that it announced too late. -/
structure Blocked (p : Position) (s : System) : Prop where
  companion : s.companion = p.stage
  agreed : p.Agreed s.sync
  late : p.isLate s.sync.retryPending = true
  desired : s.sync.desired = .suspended
  announced : s.sync.vmPauseAnnounced = true
  kept : s.sync.handedToVm = false
  staying : s.sync.terminating = false
  running : s.vm.life = .running
  locked : s.lock.locked = p.isLocked
  closed : s.regionOpen = false
  duties : ∃ asleep rest, s.vm.duties = .awaitHandOff asleep :: rest
  queue : p = .ordered → .run System.stopOperation ∈ s.vm.queue

namespace Blocked

theorem exists_next (h : Blocked p s) (hchoosing : p ≠ .choosing) (hordered : p ≠ .ordered) :
    ∃ q, p.next? s = some q := by
  have hlate := h.late
  cases p with
  | choosing => exact absurd rfl hchoosing
  | ordered => exact absurd rfl hordered
  | stalling => exact ⟨.clearing, by rw [Position.next?, h.closed]; rfl⟩
  | top | probing | clearing | locking | submitting | cleaning | announcing | unlocking | closing =>
    exact ⟨_, rfl⟩
  | _ => cases hlate

/-- The companion goes on, and does not look whether the VM thread waits. -/
theorem next (h : Blocked p s) (hchoosing : p ≠ .choosing) (hordered : p ≠ .ordered) :
    ∃ q t, s.stepCompanion = some t ∧ Blocked q t ∧ q.untilStuck < p.untilStuck := by
  have hvm : p.isVmThread = false := by
    have hlate := h.late
    cases p <;> first | rfl | exact absurd rfl hordered | cases hlate
  obtain ⟨q, hnext⟩ := h.exists_next hchoosing hordered
  have hedge := Position.edge_of_next? hnext
  have hsteady := p.steady_effect s
  obtain ⟨hlate, hless⟩ := hedge.late h.late hchoosing hordered
  refine ⟨q, q.lead (p.effect s), ?_, ?_, hless⟩
  · rw [Position.stepCompanion_eq hvm h.companion h.locked h.running h.staying
      (fun hplace => absurd hplace hchoosing), h.agreed.breach?_eq_none, hnext]
    rfl
  · refine ⟨rfl, ?_, ?_, ?_, ?_, ?_, ?_, ?_, rfl, ?_, ?_, ?_⟩
    · rw [Position.sync_lead]
      exact h.agreed.next hedge
    · rw [Position.sync_lead]
      exact hlate
    · rw [Position.sync_lead, hsteady.desired, h.desired]
    · rw [Position.sync_lead, hsteady.announced, h.announced]
    · rw [Position.sync_lead, hsteady.handed, h.kept]
    · rw [Position.sync_lead, hsteady.terminating, h.staying]
    · rw [Position.life_lead, hsteady.life, h.running]
    · rw [Position.regionOpen_lead, hsteady.regionOpen, h.closed]
    · obtain ⟨asleep, rest, hduties⟩ := h.duties
      rw [Position.duties_lead]
      obtain hsame | hawake := hsteady.duties
      · exact ⟨asleep, rest, hsame.trans hduties⟩
      · exact ⟨false, rest.map Duty.awake, by rw [hawake, hduties]; rfl⟩
    · rintro rfl
      exact List.mem_append_right _ List.mem_cons_self

/-- The threads get stuck, by induction on the steps that the companion still makes. -/
theorem stuck (h : Blocked p s) (hshares : System.Shares n allowed u s) :
    ∃ t, System.Shares n allowed u t ∧
      (t.IsDeadlocked ∨ t.companion = .failed .handOffInRetry) := by
  induction hleft : p.untilStuck using Nat.strongRecOn generalizing p s with
  | ind k ih =>
    by_cases hordered : p = .ordered
    · subst hordered
      refine ⟨s, hshares, .inl ⟨?_, h.companion, h.queue rfl, h.running, h.duties, h.kept⟩⟩
      rw [System.states, h.desired, h.agreed.1]
    by_cases hchoosing : p = .choosing
    · subst hchoosing
      have hretry : s.sync.retryPending = true := h.late
      have hstep : s.stepCompanion = some { s with companion := .failed .handOffInRetry } := by
        simp [System.stepCompanion, h.companion, Position.stage, System.companionChooses,
          h.announced, hretry]
      refine ⟨{ s with companion := .failed .handOffInRetry }, ?_, .inr rfl⟩
      exact hshares.proceedCompanion hstep
    obtain ⟨q, t, hstep, hnext, hless⟩ := h.next hchoosing hordered
    exact ih q.untilStuck (hleft ▸ hless) hnext (hshares.proceedCompanion hstep) rfl

end Blocked

theorem System.announces_eq_true_iff :
    s.announces (.proceed .vmThread) = true ↔ ∃ ds, s.vm.duties = .act .announce :: ds := by
  simp only [announces]
  split <;> simp_all

/-- Where the VM thread announces a pause it is on an errand. -/
theorem Meets.errand_of_announces (h : Meets n p s)
    (hannounces : s.announces (.proceed .vmThread) = true) :
    Beside s p ∧ s.sync.handedToVm = false ∧
      ∃ rest, s.vm.duties = .act .announce :: .act .takePause :: rest := by
  obtain ⟨ds, hds⟩ := System.announces_eq_true_iff.mp hannounces
  cases h.scene with
  | stopping _ _ _ duties | lent _ _ _ _ duties =>
    have hplace := duties.symm.trans hds
    cases p <;> cases hplace
  | errand hbeside herrand =>
    rw [hds] at herrand
    obtain ⟨hwants, rest, rfl⟩ := herrand.of_announce
    exact ⟨hbeside, (Bool.or_eq_false_iff.mp hwants).2, rest, hds⟩

/-- The VM thread has announced a pause and waits for it, and no region is open. -/
def System.insist (rest : List Duty) (s : System) : System :=
  { s with
    sync := { s.sync with vmPauseAnnounced := true }
    vm := { s.vm with duties := .awaitHandOff false :: rest }
    regionOpen := false }

theorem System.Shares.insist {rest : List Duty} (hrunning : s.vm.life = .running)
    (hduties : s.vm.duties = .act .announce :: .act .takePause :: rest)
    (hstep : s.stepVmThread = some t) : System.Shares n (fun _ => false) t (s.insist rest) := by
  simp only [System.stepVmThread, hrunning, hduties, if_true] at hstep
  cases hstep
  let announced : System := { s.setDuties (.act .takePause :: rest) with
    sync := { s.sync with vmPauseAnnounced := true } }
  have hstart : System.Shares n (fun _ => false) announced announced := .refl
  have hwaits := hstart.proceed .vmThread (fun hannounces => absurd hannounces Bool.false_ne_true)
    (if_pos hrunning)
  exact hwaits.move (.setRegion false) trivial rfl

/-- The companion does not get to the pause that the VM thread insists on, if it has come too far. -/
theorem Meets.blocked (h : Meets n p s) (rest : List Duty) {stage : Stage} {q : Position}
    (companion : stage = q.stage) (agreed : q.Agreed (s.insist rest).sync)
    (late : q.isLate s.sync.retryPending = true) (desired : s.sync.desired = .suspended)
    (kept : s.sync.handedToVm = false) (locked : s.lock.locked = q.isLocked)
    (queue : q = .ordered → .run System.stopOperation ∈ s.vm.queue) :
    Blocked q { s.insist rest with companion := stage } where
  companion := companion
  agreed := agreed
  late := late
  desired := desired
  announced := rfl
  kept := kept
  staying := h.staying
  running := h.running
  locked := locked
  closed := rfl
  duties := ⟨false, rest, rfl⟩
  queue := queue

/-- After an announcement that comes too late the threads can get stuck without another one. -/
theorem Meets.stuck (h : Meets n p s) (hannounces : s.announces (.proceed .vmThread) = true)
    (hlate : s.isTimely = false) (hstep : s.stepVmThread = some t) :
    ∃ u, System.Shares n (fun _ => false) t u ∧
      (u.IsDeadlocked ∨ u.companion = .failed .handOffInRetry) := by
  obtain ⟨hbeside, hkept, rest, hduties⟩ := h.errand_of_announces hannounces
  have hinsists := System.Shares.insist (n := n) h.running hduties hstep
  have hcause : s.sync.retryPending = true ∨ s.companion.isCommitted = true := by
    cases hretry : s.sync.retryPending
    · exact .inr (by simpa [System.isTimely, hretry] using hlate)
    · exact .inl rfl
  cases hbeside with
  | alone hp companion kept locked queue =>
    have hlate := h.agreed.isLate hp (companion ▸ hcause)
    have hblocked : Blocked p (s.insist rest) := by
      refine h.blocked rest companion (h.agreed.congr rfl rfl rfl) hlate
        (h.pressing (Position.isPressing_of_isLate hlate)) kept locked ?_
      rintro rfl
      cases hp
    exact hblocked.stuck hinsists
  | ordered companion kept locked queue =>
    have hblocked : Blocked .ordered (s.insist rest) :=
      h.blocked rest companion h.agreed rfl (h.pressing rfl) kept locked fun _ => queue.mem_stop
    exact hblocked.stuck hinsists
  | offered _ _ handed => cases hkept.symm.trans handed
  | returned companion kept locked queue =>
    have hretry : s.sync.retryPending = true :=
      hcause.resolve_right (by simp [companion, Stage.isCommitted])
    have hnotices : (s.insist rest).stepCompanion =
        some { s.insist rest with companion := .closing } := by
      simp [System.stepCompanion, System.insist, companion, kept]
    have hblocked : Blocked .closing { s.insist rest with companion := .closing } :=
      h.blocked rest rfl h.agreed hretry (h.pressing hretry) kept locked
        fun hordered => absurd hordered Position.noConfusion
    exact hblocked.stuck (hinsists.proceedCompanion hnotices)

/-! ## For good -/

namespace System.IsDeadlocked

/-- Others may hand operations over, and the VM thread may look again. -/
theorem congr (h : s.IsDeadlocked) (hsync : t.sync = s.sync)
    (hcompanion : t.companion = s.companion) (hlife : t.vm.life = s.vm.life)
    (hqueue : s.vm.queue ⊆ t.vm.queue)
    (hduties : ∃ asleep rest, t.vm.duties = .awaitHandOff asleep :: rest) : t.IsDeadlocked := by
  refine ⟨?_, hcompanion.trans h.companion, hqueue h.queued, hlife.trans h.running, hduties, ?_⟩
  · rw [states, hsync]
    exact h.outstanding
  · rw [hsync, h.kept]

theorem stepVmThread (h : s.IsDeadlocked) (hstep : s.stepVmThread = some t) :
    t.IsDeadlocked ∧ t.caller = s.caller := by
  obtain ⟨asleep, rest, hduties⟩ := h.vmThread
  simp only [System.stepVmThread, h.running, hduties, if_true] at hstep
  cases asleep <;> cases hstep
  simp only [h.kept, Bool.false_eq_true, if_false]
  exact ⟨h.congr rfl rfl rfl (fun _ => id) ⟨true, rest, rfl⟩, rfl⟩

theorem stepCompanion (h : s.IsDeadlocked) : s.stepCompanion = none := by
  simp [System.stepCompanion, h.companion, h.running]

/-- The caller that asked for the pause goes on waiting for it. -/
theorem setCaller (h : s.IsDeadlocked) {asleep : Bool}
    (hcaller : s.caller n = .awaiting .suspended asleep) {x : Nat} {c : Caller}
    (hx : x = n → ∃ asleep, c = .awaiting .suspended asleep) :
    (s.setCaller x c).IsDeadlocked ∧
      ∃ asleep, (s.setCaller x c).caller n = .awaiting .suspended asleep := by
  refine ⟨h.congr rfl rfl rfl (fun _ => id) h.vmThread, ?_⟩
  by_cases hsame : x = n
  · obtain ⟨asleep', rfl⟩ := hx hsame
    exact ⟨asleep', by simp [hsame]⟩
  · exact ⟨asleep, by simp [Ne.symm hsame, hcaller]⟩

theorem stepCaller (h : s.IsDeadlocked) {asleep : Bool}
    (hcaller : s.caller n = .awaiting .suspended asleep) {x : Nat}
    (hstep : s.stepCaller x = some t) :
    t.IsDeadlocked ∧ ∃ asleep, t.caller n = .awaiting .suspended asleep := by
  have hreached : s.sync.reached = .resumed := (Prod.mk.inj h.outstanding).2
  cases hx : s.caller x with
  | away | failed _ => simp [System.stepCaller, hx] at hstep
  | handedOver role => simp [System.stepCaller, hx, h.running] at hstep
  | awaiting state asleep' =>
    cases asleep' <;> simp only [System.stepCaller, hx, reduceCtorEq] at hstep
    cases hstep
    refine h.setCaller hcaller ?_
    rintro rfl
    obtain ⟨rfl, -⟩ := Caller.awaiting.inj (hx.symm.trans hcaller)
    exact ⟨true, by simp [hreached]⟩
  | replied role =>
    simp only [System.stepCaller, hx] at hstep
    cases hstep
    obtain ⟨hdead, hwaits⟩ := h.setCaller hcaller (x := x) (c := .away) (by
      rintro rfl
      cases hx.symm.trans hcaller)
    exact ⟨hdead.congr rfl rfl rfl (fun _ => id) hdead.vmThread, hwaits⟩

theorem stir (h : s.IsDeadlocked) {asleep : Bool}
    (hcaller : s.caller n = .awaiting .suspended asleep) {party : Party}
    (hstep : s.stir party = some t) :
    t.IsDeadlocked ∧ ∃ asleep, t.caller n = .awaiting .suspended asleep := by
  cases party with
  | companion =>
    obtain ⟨hstage, -⟩ | ⟨hstage, -⟩ := stir_companion_eq_some_iff.mp hstep <;>
      cases hstage.symm.trans h.companion
  | vmThread =>
    obtain ⟨asleep', rest', hduties⟩ := h.vmThread
    obtain ⟨rest, ⟨hpark, -⟩ | ⟨-, rfl⟩⟩ := stir_vmThread_eq_some_iff.mp hstep
    · cases hpark.symm.trans hduties
    · exact ⟨h.congr rfl rfl rfl (fun _ => id) ⟨false, rest, rfl⟩, asleep, hcaller⟩
  | caller x =>
    obtain ⟨state, hasleep, rfl⟩ := stir_caller_eq_some_iff.mp hstep
    refine h.setCaller hcaller ?_
    rintro rfl
    obtain ⟨rfl, -⟩ := Caller.awaiting.inj (hasleep.symm.trans hcaller)
    exact ⟨false, rfl⟩

/-- Nothing that threads do leads out of it, and the caller that asked for the pause waits on. -/
theorem step (h : s.IsDeadlocked) {asleep : Bool}
    (hcaller : s.caller n = .awaiting .suspended asleep) {m : Move} (hm : m.IsShared n)
    (hstep : s.step m = some t) :
    t.IsDeadlocked ∧ ∃ asleep, t.caller n = .awaiting .suspended asleep := by
  cases m with
  | proceed party =>
    cases party with
    | companion => exact absurd (h.stepCompanion.symm.trans hstep) nofun
    | vmThread =>
      obtain ⟨hdead, hsame⟩ := h.stepVmThread hstep
      exact ⟨hdead, asleep, by rw [hsame, hcaller]⟩
    | caller x => exact h.stepCaller hcaller hstep
  | stir party => exact h.stir hcaller hstep
  | request x state wait =>
    obtain ⟨rfl, -⟩ := hm
    exact absurd ((step_request_eq_some_iff.mp hstep).1.symm.trans hcaller) nofun
  | execute x role body =>
    rw [System.step] at hstep
    split at hstep <;> cases hstep
    have hqueued : s.execute x role body =
        ((s.note .prologue role).submit ⟨.caller x, body⟩).setCaller x (.handedOver role) :=
      if_pos h.running
    rw [hqueued]
    refine ⟨h.congr rfl rfl rfl (List.subset_append_left _ _) h.vmThread, asleep, ?_⟩
    rw [caller_setCaller, if_neg (Ne.symm hm.1)]
    exact hcaller
  | setRegion _ | setPendingList _ | notifyLock =>
    cases hstep
    exact ⟨h.congr rfl rfl rfl (fun _ => id) h.vmThread, asleep, hcaller⟩
  | waitFor _ _ | announce | terminateCompanion | terminateVmThread => exact hm.elim

theorem shares (h : s.IsDeadlocked) {asleep : Bool}
    (hcaller : s.caller n = .awaiting .suspended asleep) (hshares : Shares n allowed s t) :
    t.IsDeadlocked := by
  suffices hstays : t.IsDeadlocked ∧ ∃ asleep, t.caller n = .awaiting .suspended asleep from
    hstays.1
  induction hshares with
  | refl => exact ⟨h, asleep, hcaller⟩
  | move m _ hm hstep ih =>
    obtain ⟨hdead, asleep', hwaits⟩ := ih
    exact hdead.step hwaits hm (stepIf_eq_some_iff.mp hstep).2

end System.IsDeadlocked

/-! ## Runs -/

/-- What holds wherever every pause was announced in time. -/
structure HandsOver (n : Nat) (s : System) : Prop where
  /-- None of the companion's assertions has failed. -/
  unbroken : ∀ why, s.companion ≠ .failed why
  /-- The companion and the VM thread do not wait for each other. -/
  live : ¬ s.IsDeadlocked
  /-- It has to be in time: just after an announcement that is not, the threads can get stuck or the
  companion can break off, even if none is made any more. -/
  timely_iff : ∀ t, s.announces (.proceed .vmThread) = true → s.stepVmThread = some t →
    (s.isTimely = true ↔ ∀ u, System.Shares n (fun _ => false) t u →
      ¬ u.IsDeadlocked ∧ u.companion ≠ .failed .handOffInRetry)

theorem Meets.handsOver (h : Meets n p s) : HandsOver n s := by
  refine ⟨h.not_failed, h.not_isDeadlocked, fun t hannounces hstep => ⟨?_, ?_⟩⟩
  · intro htimely u hu
    have ht := h.step (m := .proceed .vmThread) trivial (fun _ => htimely) hstep
    obtain ⟨q, hq⟩ := hu.exists_meets (by simp) ht
    exact ⟨hq.not_isDeadlocked, hq.not_failed _⟩
  · intro hquiet
    cases htimely : s.isTimely with
    | true => rfl
    | false =>
      obtain ⟨u, hu, hstuck⟩ := h.stuck hannounces htimely hstep
      obtain ⟨hlive, hunbroken⟩ := hquiet u hu
      exact absurd hstuck (not_or.mpr ⟨hlive, hunbroken⟩)

/-- A pause that is announced before the companion turns to an operation of its own is handed over:
nobody gets stuck and none of the companion's assertions fails, whatever the threads do. -/
theorem pause_handed_over (h : System.Shares n System.isTimely .initial s) : HandsOver n s := by
  obtain ⟨p, hp⟩ := h.exists_meets (fun _ => id) ⟨.top, .initial n⟩
  exact hp.handsOver

/-- An operation of another thread takes a pause and announces the next one, up to where it does.
The collector stops and restarts the world meanwhile. -/
def System.promptMoves : List System.Move :=
  [.execute 1 .mutator [.announce, .takePause, .announce, .takePause]] ++
    List.replicate 5 (.proceed .vmThread) ++ [.request 0 .suspended true] ++
    List.replicate 3 (.proceed .companion) ++ List.replicate 4 (.proceed .vmThread) ++
    [.proceed (.caller 0), .request 0 .resumed true] ++ List.replicate 2 (.proceed .vmThread) ++
    List.replicate 2 (.proceed .companion) ++ [.proceed (.caller 0)]

/-- An operation of another thread announces a pause when the companion has just queued its own. -/
def System.lateMoves : List System.Move :=
  [.execute 1 .mutator [.note, .announce, .takePause]] ++ List.replicate 3 (.proceed .vmThread) ++
    [.request 0 .suspended true] ++ List.replicate 6 (.proceed .companion) ++
    List.replicate 3 (.proceed .vmThread)

/-- An operation of another thread announces a pause when one was just abandoned for a region. -/
def System.retriedMoves : List System.Move :=
  [.setRegion true, .request 0 .suspended true] ++ List.replicate 6 (.proceed .companion) ++
    List.replicate 7 (.proceed .vmThread) ++ [.execute 1 .mutator [.announce, .takePause]] ++
    List.replicate 3 (.proceed .vmThread) ++ List.replicate 6 (.proceed .companion)

/-- A pause is taken by the VM thread, and the next one could be announced. -/
theorem pause_handed_over_and_given_back :
    ∃ s, System.Shares 0 System.isTimely .initial s ∧ s.states = (.resumed, .resumed) ∧
      s.announces (.proceed .vmThread) = true ∧ s.isTimely = true ∧ HandsOver 0 s := by
  have hmoves : ∃ s, System.promptMoves.foldlM (System.stepIf System.isTimely) .initial = some s ∧
      s.states = (.resumed, .resumed) ∧ s.announces (.proceed .vmThread) = true ∧
      s.isTimely = true := ⟨_, rfl, rfl, rfl, rfl⟩
  obtain ⟨s, hs, hstates, hannounces, htimely⟩ := hmoves
  have hshared : ∀ m ∈ System.promptMoves, m.IsShared 0 := by
    simp [System.promptMoves, System.Move.IsShared, Orderly.nil, Orderly.pause]
  have hshares := System.Shares.refl.foldlM _ hshared hs
  exact ⟨s, hshares, hstates, hannounces, htimely, pause_handed_over hshares⟩

/-- An announcement that comes too late leaves the threads stuck for good, or makes the companion
break off. -/
theorem late_pause_is_lost :
    (∃ s, System.Shares 0 (fun _ => true) .initial s ∧ s.IsDeadlocked ∧
      ∀ t, System.Shares 0 (fun _ => true) s t → t.IsDeadlocked) ∧
    ∃ s, System.Shares 0 (fun _ => true) .initial s ∧ s.companion = .failed .handOffInRetry := by
  have hlate : ∃ s, System.lateMoves.foldlM (System.stepIf fun _ => true) .initial = some s ∧
      s.IsDeadlocked ∧ s.caller 0 = .awaiting .suspended true :=
    ⟨_, rfl, ⟨rfl, rfl, List.mem_cons_self, rfl, ⟨true, _, rfl⟩, rfl⟩, rfl⟩
  have hretried : ∃ s, System.retriedMoves.foldlM (System.stepIf fun _ => true) .initial = some s ∧
      s.companion = .failed .handOffInRetry := ⟨_, rfl, rfl⟩
  obtain ⟨s, hs, hdead, hcaller⟩ := hlate
  obtain ⟨t, ht, hfailed⟩ := hretried
  have hlateShared : ∀ m ∈ System.lateMoves, m.IsShared 0 := by
    simp [System.lateMoves, System.Move.IsShared, Orderly.nil, Orderly.pause, Orderly.note]
  have hretriedShared : ∀ m ∈ System.retriedMoves, m.IsShared 0 := by
    simp [System.retriedMoves, System.Move.IsShared, Orderly.nil, Orderly.pause]
  refine ⟨⟨s, System.Shares.refl.foldlM _ hlateShared hs, hdead, fun u hu => ?_⟩,
    t, System.Shares.refl.foldlM _ hretriedShared ht, hfailed⟩
  exact hdead.shares hcaller hu

end HeapBridge.Pause
