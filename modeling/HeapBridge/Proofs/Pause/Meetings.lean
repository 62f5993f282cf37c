import HeapBridge.Proofs.Pause.HandOver
import HeapBridge.Proofs.Pause.Sleepers

/-!
# Meetings

Every move leads from one position of the way to another or leaves the threads where they are, as
long as the VM thread announces a pause in time. The companion and the VM thread are taken one after
the other, and then the callers and what they look at.
-/
namespace HeapBridge.Pause
variable {n : Nat} {p q : Position} {s t : System}

namespace Position

theorem stage_of_isVmThread (h : p.isVmThread = true) : p.stage = .awaitingReply := by
  cases p <;> first | rfl | cases h

theorem isPressing_awake (p : Position) (retry : Bool) :
    p.awake.isPressing retry = p.isPressing retry := by cases p <;> rfl

/-- The companion goes to its own positions until it has queued its operation. -/
theorem Edge.isVmThread_eq_false (h : Edge s p q) (hp : p.isVmThread = false) (hq : q ≠ .ordered) :
    q.isVmThread = false := by
  cases h <;> first | rfl | exact absurd rfl hq | cases hp

/-- The VM thread goes through the operation until it replies. -/
theorem Edge.isVmThread_eq_true (h : Edge s p q) (hp : p.isVmThread = true) :
    q ≠ .ordered ∧ (q.isVmThread = true ∨ q = .cleaning) := by
  cases h <;> first
    | exact absurd hp (by decide)
    | exact ⟨by decide, .inl rfl⟩
    | exact ⟨by decide, .inr rfl⟩

/-- The safepoint stays open until the pause is over. -/
theorem Edge.isOpen_eq_true (h : Edge s p q) (hp : p.isOpen = true) (hleaving : p ≠ .leaving) :
    q.isOpen = true := by
  cases h <;> first | rfl | exact absurd rfl hleaving | cases hp

theorem Agreed.congr {h h' : Handshake} (hagreed : p.Agreed h) (hdesired : h'.desired = h.desired)
    (hreached : h'.reached = h.reached) (hretry : h'.retryPending = h.retryPending) :
    p.Agreed h' := by
  cases p with
  | idle asleep | parked asleep =>
    cases asleep <;> simpa only [Agreed, hdesired, hreached, hretry] using hagreed
  | _ => simpa only [Agreed, Handshake.Ends, hdesired, hreached, hretry] using hagreed

/-- The world runs until a pause is begun. -/
theorem Agreed.reached_eq_resumed {h : Handshake} (hagreed : p.Agreed h)
    (hpressing : p.isPressing h.retryPending = true) : h.reached = .resumed := by
  cases p with
  | entering | idle _ | parked _ => cases hpressing
  | top | choosing | probing | stalling | clearing => exact hagreed
  | locking | submitting | ordered | opening | entered | checking | postponing | reporting =>
    exact hagreed.1
  | leaving | replying | cleaning | announcing | unlocking | closing =>
    have hretry : h.retryPending = true := hpressing
    simpa [Agreed, Handshake.Ends, hretry] using hagreed

@[simp] theorem sync_lead (q : Position) (s : System) : (q.lead s).sync = s.sync := by
  rw [lead]
  split <;> rfl

@[simp] theorem caller_lead (q : Position) (s : System) : (q.lead s).caller = s.caller := by
  rw [lead]
  split <;> rfl

@[simp] theorem duties_lead (q : Position) (s : System) :
    (q.lead s).vm.duties = s.vm.duties := by
  rw [lead]
  split <;> rfl

@[simp] theorem life_lead (q : Position) (s : System) : (q.lead s).vm.life = s.vm.life := by
  rw [lead]
  split <;> rfl

@[simp] theorem atSafepoint_lead (q : Position) (s : System) :
    (q.lead s).atSafepoint = s.atSafepoint := by
  rw [lead]
  split <;> rfl

@[simp] theorem worldStopped_lead (q : Position) (s : System) :
    (q.lead s).worldStopped = s.worldStopped := by
  rw [lead]
  split <;> rfl

@[simp] theorem regionOpen_lead (q : Position) (s : System) :
    (q.lead s).regionOpen = s.regionOpen := by
  rw [lead]
  split <;> rfl

end Position

/-- Whether the VM thread announces a pause with a move. -/
def System.announces (s : System) : System.Move → Bool
  | .proceed .vmThread =>
    match s.vm.duties with
    | .act .announce :: _ => true
    | _ => false
  | _ => false

/-- Moves of threads that share the monitor. The `n`-th caller asks for one state of the world after
the other and waits for each, and the others hand orderly operations to the VM thread. -/
def System.Move.IsShared (n : Nat) : System.Move → Prop
  | .proceed _ | .stir _ | .setRegion _ | .setPendingList _ | .notifyLock => True
  | .request x _ wait => x = n ∧ wait = true
  | .execute x _ body => x ≠ n ∧ Orderly body
  | .waitFor _ _ | .announce | .terminateCompanion | .terminateVmThread => False

theorem Errand.of_steady {wants : Bool} (h : Errand s.atSafepoint wants s.vm.duties)
    (hsteady : Steady s t) : Errand t.atSafepoint wants t.vm.duties := by
  rw [hsteady.atSafepoint]
  obtain hduties | hduties := hsteady.duties <;> rw [hduties]
  · exact h
  · exact h.map_awake

/-- Where no pause is announced none is too late. -/
theorem System.timely_of_unannounced (h : t.sync.vmPauseAnnounced = false)
    (hannounced : t.sync.vmPauseAnnounced = true) : t.isTimely = true :=
  absurd (h.symm.trans hannounced) Bool.false_ne_true

namespace Meets

theorem initial (n : Nat) : Meets n .top .initial where
  scene := .errand (.alone rfl rfl rfl rfl .nil) .none
  agreed := rfl
  pressing := nofun
  timely := nofun
  attends := ⟨.inl ⟨rfl, rfl⟩⟩
  running := rfl
  staying := rfl
  halted := rfl

/-- What follows from a step to another position, once both threads are found there. -/
theorem of_edge (h : Meets n p s) (hedge : Position.Edge s p q) (hscene : Scene t q)
    (hsync : t.sync = (p.effect s).sync) (hcaller : t.caller = (p.effect s).caller)
    (htimely : t.sync.vmPauseAnnounced = true → t.isTimely = true)
    (hrunning : t.vm.life = .running) (hhalted : t.worldStopped = t.atSafepoint) : Meets n q t := by
  have hsteady := p.steady_effect s
  have hdesired : t.sync.desired = s.sync.desired := by rw [hsync, hsteady.desired]
  have hreached := h.agreed.reached_effect h.pressing
  refine ⟨hscene, ?_, ?_, htimely, ?_, hrunning, ?_, hhalted⟩
  · rw [hsync]
    exact h.agreed.next hedge
  · rw [hdesired, hsync]
    exact hedge.pressing h.agreed h.pressing
  · refine h.attends.congr ?_ hdesired ?_
    · rw [hcaller]
      exact hsteady.caller n
    · rwa [hsync]
  · rw [hsync, hsteady.terminating, h.staying]

/-- What follows from a move that leaves both threads at their position, if not asleep. -/
theorem of_scene (h : Meets n p s) (hscene : Scene t q) (hq : q = p ∨ q = p.awake)
    (hsync : t.sync = s.sync) (hcompanion : t.companion.isCommitted = s.companion.isCommitted)
    (hattends : Attends n t) (hrunning : t.vm.life = s.vm.life)
    (hhalted : s.worldStopped = s.atSafepoint → t.worldStopped = t.atSafepoint) : Meets n q t := by
  refine ⟨hscene, ?_, ?_, ?_, hattends, hrunning.trans h.running, ?_, hhalted h.halted⟩
  · rw [hsync]
    obtain rfl | rfl := hq
    · exact h.agreed
    · exact h.agreed.awake
  · have hpressing : q.isPressing s.sync.retryPending = p.isPressing s.sync.retryPending := by
      obtain rfl | rfl := hq
      · rfl
      · exact p.isPressing_awake _
    rw [hsync, hpressing]
    exact h.pressing
  · rw [System.isTimely, hsync, hcompanion]
    exact h.timely
  · rw [hsync, h.staying]

/-! ## The companion -/

/-- The companion leaves the pause to the VM thread, which waits for it. -/
theorem companionChooses (h : Meets n .choosing s) (hannounced : s.sync.vmPauseAnnounced = true)
    (hlocked : s.lock.locked = false) (hqueue : Waits false s.vm.queue)
    (herrand : Errand s.atSafepoint true s.vm.duties) : Meets n .ordered s.companionChooses := by
  have hretry : s.sync.retryPending = false := by
    have htimely := h.timely hannounced
    simp only [System.isTimely, Bool.and_eq_true, Bool.not_eq_true'] at htimely
    exact htimely.1
  simp only [System.companionChooses, hannounced, hretry, if_true, Bool.false_eq_true, if_false]
  exact {
    scene := .errand (.offered true rfl rfl rfl hlocked hqueue) herrand.map_awake
    agreed := ⟨h.agreed, rfl⟩
    pressing := fun _ => h.pressing rfl
    timely := System.timely_of_unannounced rfl
    attends := h.attends.congr (.inr rfl) rfl (.inl rfl)
    running := h.running
    staying := h.staying
    halted := h.halted }

/-- The companion goes on while the VM thread is on an errand. -/
theorem companionAlone (h : Meets n p s) (hp : p.isVmThread = false)
    (hcompanion : s.companion = p.stage) (hkept : s.sync.handedToVm = false)
    (hlocked : s.lock.locked = p.isLocked) (hqueue : Waits false s.vm.queue)
    (herrand : Errand s.atSafepoint s.sync.vmPauseAnnounced s.vm.duties)
    (hquiet : p = .choosing → s.sync.vmPauseAnnounced = false)
    (hstep : s.stepCompanion = some t) : ∃ q, Meets n q t := by
  rw [Position.stepCompanion_eq hp hcompanion hlocked h.running h.staying hquiet,
    h.agreed.breach?_eq_none] at hstep
  obtain ⟨q, hnext, rfl⟩ := Option.map_eq_some_iff.mp hstep
  have hedge := Position.edge_of_next? hnext
  have hsteady := p.steady_effect s
  have hbeside : Beside (q.lead (p.effect s)) q := by
    by_cases hq : q = .ordered
    · subst hq
      refine .ordered rfl (hsteady.handed.trans hkept) rfl ?_
      exact (hsteady.queue ▸ hqueue).append_stop
    · refine .alone (hedge.isVmThread_eq_false hp hq) rfl ?_ rfl ?_
      · rw [Position.sync_lead, hsteady.handed, hkept]
      · rw [Position.lead, if_neg hq]
        exact hsteady.queue ▸ hqueue
  refine ⟨q, h.of_edge hedge (.errand hbeside ?_) (by simp) (by simp) ?_ ?_ ?_⟩
  · simpa [hsteady.announced, hsteady.handed, hkept] using herrand.of_steady hsteady
  · intro hannounced
    rw [Position.sync_lead, hsteady.announced] at hannounced
    have htimely := h.timely hannounced
    simp only [System.isTimely, Bool.and_eq_true, Bool.not_eq_true', hcompanion] at htimely
    have hchoosing : p ≠ .choosing := fun hp => nomatch (hquiet hp).symm.trans hannounced
    obtain ⟨hretry, hstage⟩ := hedge.timely hp hchoosing htimely.1 htimely.2
    have hthere : (q.lead (p.effect s)).companion = q.stage := rfl
    simp [System.isTimely, hretry, hthere, hstage]
  · rw [Position.life_lead, hsteady.life, h.running]
  · rw [Position.worldStopped_lead, Position.atSafepoint_lead, hsteady.worldStopped, h.halted,
      hsteady.atSafepoint]

theorem stepCompanion (h : Meets n p s) (hstep : s.stepCompanion = some t) : ∃ q, Meets n q t := by
  have hwaits : s.companion ≠ .awaitingReply := by
    intro hcompanion
    rw [System.stepCompanion, hcompanion] at hstep
    simp only [h.running, if_true, reduceCtorEq] at hstep
  cases h.scene with
  | stopping _ _ companion => exact absurd companion hwaits
  | lent asleep hp hrest companion duties atSafepoint unannounced handed locked queue =>
    simp only [System.stepCompanion, companion] at hstep
    cases asleep <;> cases hstep
    refine ⟨p, h.of_scene ?_ (.inl rfl) rfl ?_ (h.attends.congr (.inl rfl) rfl (.inl rfl)) rfl id⟩
    · simp only [handed, if_true]
      exact .lent true hp hrest rfl duties atSafepoint unannounced handed locked queue
    · simp [handed, companion, Stage.isCommitted]
  | errand hbeside herrand =>
    cases hbeside with
    | ordered companion => exact absurd companion hwaits
    | offered asleep companion handed unannounced locked queue =>
      simp only [System.stepCompanion, companion] at hstep
      cases asleep <;> cases hstep
      refine ⟨.ordered, h.of_scene ?_ (.inl rfl) rfl ?_ (h.attends.congr (.inl rfl) rfl (.inl rfl))
        rfl id⟩
      · simp only [handed, if_true]
        exact .errand (.offered true rfl handed unannounced locked queue) herrand
      · simp [handed, companion, Stage.isCommitted]
    | returned companion kept locked queue =>
      simp only [System.stepCompanion, companion, kept] at hstep
      cases hstep
      refine ⟨.closing, ?_, h.agreed, h.pressing, ?_, h.attends.congr (.inl rfl) rfl (.inl rfl),
        h.running, h.staying, h.halted⟩
      · exact .errand (.alone rfl rfl kept locked queue) herrand
      · intro hannounced
        have htimely := h.timely hannounced
        simpa [System.isTimely, companion, Stage.isCommitted] using htimely
    | alone hp companion kept locked queue =>
      rw [kept, Bool.or_false] at herrand
      by_cases hhand : p = .choosing ∧ s.sync.vmPauseAnnounced = true
      · obtain ⟨rfl, hannounced⟩ := hhand
        rw [System.stepCompanion, companion] at hstep
        cases hstep
        rw [hannounced] at herrand
        exact ⟨.ordered, h.companionChooses hannounced locked queue herrand⟩
      · refine h.companionAlone hp companion kept locked queue herrand ?_ hstep
        intro hchoosing
        simpa [hchoosing] using hhand

/-! ## The VM thread -/

/-- The VM thread goes through the companion's operation. -/
theorem stepStopping (h : Meets n p s) (hp : p.isVmThread = true) (hordered : p ≠ .ordered)
    (hcompanion : s.companion = .awaitingReply) (hduties : s.vm.duties = p.duties)
    (hsafepoint : s.atSafepoint = p.isOpen) (hquiet : s.sync.vmPauseAnnounced = false)
    (hkept : s.sync.handedToVm = false) (hlocked : s.lock.locked = true)
    (hqueue : Waits false s.vm.queue) (hstep : s.stepVmThread = some t) : ∃ q, Meets n q t := by
  rw [Position.stepVmThread_eq hp hordered hcompanion hduties h.running hsafepoint h.halted]
    at hstep
  obtain ⟨q, hnext, rfl⟩ := Option.map_eq_some_iff.mp hstep
  have hedge := Position.edge_of_next? hnext
  have hsteady := p.steady_effect s
  have hannounced : (q.follow (p.effect s)).sync.vmPauseAnnounced = false :=
    hsteady.announced.trans hquiet
  have hhanded : (q.follow (p.effect s)).sync.handedToVm = false := hsteady.handed.trans hkept
  have hheld : (q.follow (p.effect s)).lock.locked = true := hsteady.locked.trans hlocked
  have hwaits : Waits false (q.follow (p.effect s)).vm.queue := hsteady.queue ▸ hqueue
  have hscene : Scene (q.follow (p.effect s)) q := by
    obtain ⟨hq, hvm | rfl⟩ := hedge.isVmThread_eq_true hp
    · exact .stopping hvm hq (Position.stage_of_isVmThread hvm) rfl rfl hannounced hhanded hheld
        hwaits
    · refine .errand (.alone rfl rfl hhanded hheld hwaits) ?_
      rw [hannounced, hhanded]
      exact .none
  refine ⟨q, h.of_edge hedge hscene rfl rfl ?_ ?_ rfl⟩
  · exact System.timely_of_unannounced hannounced
  · exact hsteady.life.trans h.running

/-- The VM thread goes through a pause of its own, and gives it back at the end. -/
theorem stepLent (h : Meets n p s) {rest : List Duty} {asleep : Bool} (hp : p.isOpen = true)
    (hrest : Remaining rest) (hcompanion : s.companion = .handedOff asleep)
    (hduties : s.vm.duties = p.lentDuties rest) (hsafepoint : s.atSafepoint = true)
    (hquiet : s.sync.vmPauseAnnounced = false) (hhanded : s.sync.handedToVm = true)
    (hlocked : s.lock.locked = false) (hqueue : Waits false s.vm.queue)
    (hstep : s.stepVmThread = some t) : ∃ q, Meets n q t := by
  by_cases hleaving : p = .leaving
  · subst hleaving
    simp only [System.stepVmThread, h.running, hduties, Position.lentDuties, if_true] at hstep
    cases hstep
    refine ⟨.replying, ?_, h.agreed, h.pressing, ?_, h.attends.congr (.inr rfl) rfl (.inl rfl),
      h.running, h.staying, h.halted⟩
    · refine .errand (.returned ?_ rfl hlocked hqueue) ?_
      · simp only [System.setDuties, System.wakeAll, hcompanion, Stage.awake]
      · change Errand s.atSafepoint (s.sync.vmPauseAnnounced || false) rest
        rw [hsafepoint, hquiet]
        exact .working hrest
    · exact System.timely_of_unannounced hquiet
  · rw [Position.stepVmThread_eq_of_lent hp hleaving hduties h.running] at hstep
    obtain ⟨q, hnext, rfl⟩ := Option.map_eq_some_iff.mp hstep
    have hedge := Position.edge_of_next? hnext
    have hsteady := p.steady_effect s
    have hstage : ∃ asleep, (p.effect s).companion = .handedOff asleep := by
      obtain hsame | hawake := hsteady.companion
      · exact ⟨asleep, hsame.trans hcompanion⟩
      · exact ⟨false, by rw [hawake, hcompanion, Stage.awake]⟩
    obtain ⟨asleep', hstage⟩ := hstage
    refine ⟨q, h.of_edge hedge ?_ rfl rfl ?_ ?_ ?_⟩
    · exact .lent asleep' (hedge.isOpen_eq_true hp hleaving) hrest hstage rfl
        (hsteady.atSafepoint.trans hsafepoint) (hsteady.announced.trans hquiet)
        (hsteady.handed.trans hhanded) (hsteady.locked.trans hlocked) (hsteady.queue ▸ hqueue)
    · exact System.timely_of_unannounced (hsteady.announced.trans hquiet)
    · exact hsteady.life.trans h.running
    · exact hsteady.worldStopped.trans (h.halted.trans hsteady.atSafepoint.symm)

/-- The VM thread takes the next order: an errand, or the companion's operation. -/
theorem takeOrder (h : Meets n p s) (hbeside : Beside s p)
    (herrand : Errand s.atSafepoint (s.sync.vmPauseAnnounced || s.sync.handedToVm) [])
    (hstep : s.takeOrder = some t) : ∃ q, Meets n q t := by
  obtain ⟨hclosed, hnone⟩ := herrand.of_nil
  obtain ⟨hquiet, hkept⟩ := Bool.or_eq_false_iff.mp hnone
  have hqueue : ∃ stop, Waits stop s.vm.queue ∧ (stop = true →
      p = .ordered ∧ s.companion = .awaitingReply ∧ s.lock.locked = true) := by
    cases hbeside with
    | alone _ _ _ _ queue | offered _ _ _ _ _ queue | returned _ _ _ queue =>
      exact ⟨false, queue, fun hstop => absurd hstop Bool.false_ne_true⟩
    | ordered companion _ locked queue => exact ⟨true, queue, fun _ => ⟨rfl, companion, locked⟩⟩
  obtain ⟨stop, hwaits, hordered⟩ := hqueue
  generalize hqueue : s.vm.queue = queue at hwaits
  rw [System.takeOrder, hqueue] at hstep
  cases hwaits with
  | nil => cases hstep
  | @errand _ rest m body hbody hrest =>
    cases hstep
    have hfewer : ∀ stop, Waits stop s.vm.queue → Waits stop rest := by
      rw [hqueue]
      exact fun stop => Waits.of_cons
    refine ⟨p, h.of_scene ?_ (.inl rfl) rfl rfl (h.attends.congr (.inl rfl) rfl (.inl rfl)) rfl id⟩
    refine .errand (hbeside.congr rfl hfewer rfl rfl rfl) ?_
    change Errand s.atSafepoint (s.sync.vmPauseAnnounced || s.sync.handedToVm) _
    rw [hclosed, hnone, System.inSafepoint, List.append_assoc, List.append_assoc]
    exact .opening (hbody.remaining (.close m))
  | stop hrest =>
    cases hstep
    obtain ⟨rfl, hcompanion, hlocked⟩ := hordered rfl
    refine ⟨.opening, ?_, h.agreed, h.pressing, ?_, h.attends.congr (.inl rfl) rfl (.inl rfl),
      h.running, h.staying, h.halted⟩
    · exact .stopping rfl (by decide) hcompanion rfl hclosed hquiet hkept hlocked hrest
    · exact System.timely_of_unannounced hquiet

/-- The VM thread gets on with an errand, and announces a pause only in time. -/
theorem stepErrand (h : Meets n p s) (hbeside : Beside s p)
    (herrand : Errand s.atSafepoint (s.sync.vmPauseAnnounced || s.sync.handedToVm) s.vm.duties)
    (htimely : s.announces (.proceed .vmThread) = true → s.isTimely = true)
    (hstep : s.stepVmThread = some t) : ∃ q, Meets n q t := by
  by_cases hbusy : s.vm.duties = []
  · rw [hbusy] at herrand
    simp only [System.stepVmThread, h.running, hbusy, if_true] at hstep
    exact h.takeOrder hbeside herrand hstep
  · cases herrand.chore h.running hbusy hstep with
    | goOn haside hnext =>
      have hcaller : t.caller n = s.caller n := by
        refine haside.caller n fun role hrole => ?_
        obtain ⟨haway, -⟩ | ⟨asleep, hawaiting⟩ := h.attends.call
        · cases haway.symm.trans hrole
        · cases hawaiting.symm.trans hrole
      refine ⟨p, h.of_scene ?_ (.inl rfl) haside.sync (by rw [haside.companion]) ?_ haside.life
        haside.halted⟩
      · refine .errand (hbeside.congr haside.companion ?_ ?_ ?_ ?_) ?_
        · rw [haside.queue]
          exact fun _ => id
        · rw [haside.lock]
        · rw [haside.sync]
        · rw [haside.sync]
        · rwa [haside.sync]
      · refine h.attends.congr (.inl hcaller) ?_ (.inl ?_) <;> rw [haside.sync]
    | @announce rest hwants hopen hduties hrest =>
      obtain ⟨-, hkept⟩ := Bool.or_eq_false_iff.mp hwants
      have hintime := htimely (by rw [System.announces, hduties])
      refine ⟨p, ?_, h.agreed.congr rfl rfl rfl, h.pressing, fun _ => hintime,
        h.attends.congr (.inl rfl) rfl (.inl rfl), h.running, h.staying, h.halted⟩
      refine .errand ?_ ?_
      · cases hbeside with
        | alone hp companion kept locked queue => exact .alone hp companion kept locked queue
        | ordered companion kept locked queue => exact .ordered companion kept locked queue
        | offered _ _ handed => cases hkept.symm.trans handed
        | returned companion kept locked queue => exact .returned companion kept locked queue
      · change Errand s.atSafepoint _ _
        rw [hopen]
        exact .taking hrest
    | @take rest hhanded hopen hrest =>
      cases hbeside with
      | alone _ _ kept | ordered _ kept | returned _ kept =>
        cases hhanded.symm.trans kept
      | offered asleep companion handed unannounced locked queue =>
        refine ⟨.entered, ?_, h.agreed, h.pressing, ?_, h.attends.congr (.inl rfl) rfl (.inl rfl),
          h.running, h.staying, h.halted⟩
        · exact .lent asleep rfl hrest companion rfl hopen unannounced handed locked queue
        · exact System.timely_of_unannounced unannounced

theorem stepVmThread (h : Meets n p s)
    (htimely : s.announces (.proceed .vmThread) = true → s.isTimely = true)
    (hstep : s.stepVmThread = some t) : ∃ q, Meets n q t := by
  cases h.scene with
  | errand hbeside herrand => exact h.stepErrand hbeside herrand htimely hstep
  | stopping hp hordered companion duties atSafepoint unannounced kept locked queue =>
    exact h.stepStopping hp hordered companion duties atSafepoint unannounced kept locked queue
      hstep
  | lent asleep hp hrest companion duties atSafepoint unannounced handed locked queue =>
    exact h.stepLent hp hrest companion duties atSafepoint unannounced handed locked queue hstep

/-! ## Callers, and everything else -/

/-- What neither thread looks at can change. -/
theorem congr (h : Meets n p s) (hattends : Attends n t) (hsync : t.sync = s.sync)
    (hcompanion : t.companion = s.companion) (hvm : t.vm = s.vm)
    (hlocked : t.lock.locked = s.lock.locked) (hsafepoint : t.atSafepoint = s.atSafepoint)
    (hhalted : t.worldStopped = s.worldStopped) : Meets n p t := by
  refine h.of_scene ?_ (.inl rfl) hsync (by rw [hcompanion]) hattends (by rw [hvm]) ?_
  · refine h.scene.congr hcompanion (by rw [hvm]) ?_ hsafepoint hlocked ?_ ?_
    · rw [hvm]
      exact fun _ => id
    · rw [hsync]
    · rw [hsync]
  · rw [hhalted, hsafepoint]
    exact id

/-- The caller looks whether the world is in the state in which it is wanted. -/
theorem stepCaller (h : Meets n p s) {x : Nat} (hstep : s.stepCaller x = some t) : Meets n p t := by
  cases hcaller : s.caller x with
  | away | failed _ => simp [System.stepCaller, hcaller] at hstep
  | handedOver role => simp [System.stepCaller, hcaller, h.running] at hstep
  | awaiting state asleep =>
    cases asleep <;> simp only [System.stepCaller, hcaller, reduceCtorEq] at hstep
    cases hstep
    refine h.congr ?_ rfl rfl rfl rfl rfl rfl
    by_cases hx : x = n
    · subst hx
      exact h.attends.awaitState hcaller
    · exact h.attends.setCaller hx _
  | replied role =>
    simp only [System.stepCaller, hcaller] at hstep
    cases hstep
    have hx : x ≠ n := by
      rintro rfl
      exact h.attends.not_replied role hcaller
    have hattends := h.attends.setCaller hx .away
    exact h.congr ⟨hattends.call⟩ rfl rfl rfl rfl rfl rfl

theorem stirCaller (h : Meets n p s) {x : Nat} (hstep : s.stir (.caller x) = some t) :
    Meets n p t := by
  obtain ⟨state, hasleep, rfl⟩ := System.stir_caller_eq_some_iff.mp hstep
  refine h.congr ?_ rfl rfl rfl rfl rfl rfl
  by_cases hx : x = n
  · subst hx
    refine h.attends.congr (.inr ?_) rfl (.inl rfl)
    simp [hasleep, Caller.awake]
  · exact h.attends.setCaller hx _

/-- The companion sleeps for want of a request, or while the VM thread has the pause. -/
theorem stirCompanion (h : Meets n p s) (hstep : s.stir .companion = some t) :
    ∃ q, Meets n q t := by
  obtain ⟨hidle, rfl⟩ | ⟨hhanded, rfl⟩ := System.stir_companion_eq_some_iff.mp hstep
  · have hattends := h.attends.congr (t := { s with companion := .idle false }) (.inl rfl) rfl
      (.inl rfl)
    cases h.scene with
    | stopping _ _ companion | lent _ _ _ companion => cases hidle.symm.trans companion
    | errand hbeside herrand =>
      cases hbeside with
      | ordered companion | offered _ companion | returned companion =>
        cases hidle.symm.trans companion
      | alone hp companion kept locked queue =>
        have hplace := companion.symm.trans hidle
        obtain rfl : p = .idle true := by
          cases p <;> cases hplace
          rfl
        refine ⟨.idle false, h.of_scene ?_ (.inr rfl) rfl ?_ hattends rfl id⟩
        · exact .errand (.alone rfl rfl kept locked queue) herrand
        · rw [hidle]
          rfl
  · have hattends := h.attends.congr (t := { s with companion := .handedOff false }) (.inl rfl) rfl
      (.inl rfl)
    cases h.scene with
    | stopping _ _ companion => cases hhanded.symm.trans companion
    | lent asleep hp hrest companion duties atSafepoint unannounced handed locked queue =>
      refine ⟨p, h.of_scene ?_ (.inl rfl) rfl ?_ hattends rfl id⟩
      · exact .lent false hp hrest rfl duties atSafepoint unannounced handed locked queue
      · rw [hhanded]
        rfl
    | errand hbeside herrand =>
      cases hbeside with
      | ordered companion | returned companion => cases hhanded.symm.trans companion
      | alone hp companion =>
        have hplace := companion.symm.trans hhanded
        cases p <;> cases hplace
      | offered asleep companion handed unannounced locked queue =>
        refine ⟨.ordered, h.of_scene ?_ (.inl rfl) rfl ?_ hattends rfl id⟩
        · exact .errand (.offered false rfl handed unannounced locked queue) herrand
        · rw [hhanded]
          rfl

/-- The VM thread sleeps in the stopped world, or until it is given the pause. -/
theorem stirVmThread (h : Meets n p s) (hstep : s.stir .vmThread = some t) :
    ∃ q, Meets n q t := by
  obtain ⟨rest, ⟨hpark, rfl⟩ | ⟨hawait, rfl⟩⟩ := System.stir_vmThread_eq_some_iff.mp hstep
  · have hattends := h.attends.congr (t := s.setDuties (.park false :: rest)) (.inl rfl) rfl
      (.inl rfl)
    cases h.scene with
    | errand _ herrand => exact absurd (hpark ▸ herrand) Errand.not_park
    | stopping hp hordered companion duties atSafepoint unannounced kept locked queue =>
      have hplace := duties.symm.trans hpark
      obtain rfl : p = .parked true := by
        cases p <;> cases hplace
        rfl
      refine ⟨.parked false, h.of_scene ?_ (.inr rfl) rfl rfl hattends rfl id⟩
      cases hplace
      exact .stopping rfl (by decide) companion rfl atSafepoint unannounced kept locked queue
    | lent asleep hp hrest companion duties atSafepoint unannounced handed locked queue =>
      have hplace := duties.symm.trans hpark
      obtain rfl : p = .parked true := by
        cases p <;> cases hplace
        rfl
      refine ⟨.parked false, h.of_scene ?_ (.inr rfl) rfl rfl hattends rfl id⟩
      cases hplace
      exact .lent asleep rfl hrest companion rfl atSafepoint unannounced handed locked queue
  · have hattends := h.attends.congr (t := s.setDuties (.awaitHandOff false :: rest)) (.inl rfl) rfl
      (.inl rfl)
    cases h.scene with
    | errand hbeside herrand =>
      refine ⟨p, h.of_scene ?_ (.inl rfl) rfl rfl hattends rfl id⟩
      refine .errand (hbeside.congr rfl (fun _ => id) rfl rfl rfl) ?_
      rw [hawait] at herrand
      exact herrand.look
    | stopping _ _ _ duties =>
      have hplace := duties.symm.trans hawait
      cases p <;> cases hplace
    | lent _ _ _ _ duties =>
      have hplace := duties.symm.trans hawait
      cases p <;> cases hplace

/-- Another state is asked for by the caller that waits for every state it asks for. -/
theorem request (h : Meets n p s) {state : WorldState} (haway : s.caller n = .away)
    (hrequest : s.request n state true = .ok t) : Meets n p.awake t := by
  obtain ⟨hnew, rfl⟩ := System.request_eq_ok_iff.mp hrequest
  have hthere : s.sync.reached = s.sync.desired := by
    obtain ⟨-, hthere⟩ | ⟨asleep, hawaiting⟩ := h.attends.call
    · exact hthere
    · cases haway.symm.trans hawaiting
  have hreached : s.sync.reached ≠ state := by rwa [hthere]
  rw [if_pos rfl]
  refine ⟨?_, ?_, ?_, ?_, ?_, h.running, h.staying, h.halted⟩
  · exact h.scene.wakeAll.congr rfl rfl (fun _ => id) rfl rfl rfl rfl
  · refine h.agreed.ask fun hstop hstopped => ?_
    exact absurd (hstopped.trans hstop.symm) hreached
  · intro hpressing
    rw [p.isPressing_awake] at hpressing
    have hresumed := h.agreed.reached_eq_resumed hpressing
    exact absurd (hresumed.symm.trans (hthere.trans (h.pressing hpressing))) nofun
  · intro hannounced
    have hstage : s.wakeAll.companion.isCommitted = s.companion.isCommitted :=
      s.companion.isCommitted_awake
    have htimely := h.timely hannounced
    rw [System.isTimely] at htimely ⊢
    rw [← hstage] at htimely
    exact htimely
  · exact ⟨.inr ⟨true, by simp [System.awaitState, hreached]⟩⟩

/-- Another thread hands an operation over. -/
theorem execute (h : Meets n p s) {x : Nat} (hx : x ≠ n) (role : Role) {body : List Action}
    (hbody : Orderly body) : Meets n p (s.execute x role body) := by
  rw [System.execute, if_pos]
  · have hattends := h.attends.setCaller hx (.handedOver role)
    refine h.of_scene ?_ (.inl rfl) rfl rfl ⟨hattends.call⟩ rfl id
    exact h.scene.congr rfl rfl (fun _ hqueue => hqueue.append_errand x hbody) rfl rfl rfl rfl
  · exact h.running

/-- Every move leads on, as long as a pause is announced in time. -/
theorem step (h : Meets n p s) {m : System.Move} (hm : m.IsShared n)
    (htimely : s.announces m = true → s.isTimely = true) (hstep : s.step m = some t) :
    ∃ q, Meets n q t := by
  cases m with
  | proceed party =>
    cases party with
    | companion => exact h.stepCompanion hstep
    | vmThread => exact h.stepVmThread htimely hstep
    | caller x => exact ⟨p, h.stepCaller hstep⟩
  | stir party =>
    cases party with
    | companion => exact h.stirCompanion hstep
    | vmThread => exact h.stirVmThread hstep
    | caller x => exact ⟨p, h.stirCaller hstep⟩
  | request x state wait =>
    obtain ⟨rfl, rfl⟩ := hm
    obtain ⟨haway, hrequest⟩ := System.step_request_eq_some_iff.mp hstep
    exact ⟨p.awake, h.request haway hrequest⟩
  | execute x role body =>
    rw [System.step] at hstep
    split at hstep <;> cases hstep
    exact ⟨p, h.execute hm.1 role hm.2⟩
  | setRegion _ | setPendingList _ | notifyLock =>
    cases hstep
    exact ⟨p, h.congr ⟨h.attends.call⟩ rfl rfl rfl rfl rfl rfl⟩
  | waitFor _ _ | announce | terminateCompanion | terminateVmThread => exact hm.elim

end Meets
end HeapBridge.Pause
