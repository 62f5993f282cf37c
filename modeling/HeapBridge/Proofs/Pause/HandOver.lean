import HeapBridge.Proofs.Pause.Errands
import HeapBridge.Proofs.Pause.Promise

/-!
# Handing a pause over

The VM thread may take a pause in the middle of an errand: it announces that, and the companion
hands the next pause over to it instead of ordering one. The pause goes the same way then, but for
the queue: from where the companion has decided, through the steps that stop the world, to where the
companion closes. So both threads are at one position of that way, whoever carries the pause, and
what they agree upon there is the same. The VM thread is free for errands everywhere else.
-/
namespace HeapBridge.Pause
variable {n : Nat} {p q : Position} {s t : System}

/-- Whether the companion has turned to an operation of its own that stops the world. -/
def Stage.isCommitted : Stage → Bool
  | probing | stalling | clearing | locking | submitting | awaitingReply => true
  | _ => false

theorem Stage.isCommitted_awake (st : Stage) : st.awake.isCommitted = st.isCommitted := by
  cases st <;> rfl

/-- Whether the VM thread can announce a pause: no abandoned one is left to the companion, and the
companion has not turned to an operation of its own. -/
def System.isTimely (s : System) : Bool := !s.sync.retryPending && !s.companion.isCommitted

/-! ## Who is where -/

/-- Where the companion is while the VM thread is on errands. -/
inductive Beside (s : System) : Position → Prop
  | alone {p : Position} (hp : p.isVmThread = false) (companion : s.companion = p.stage)
    (kept : s.sync.handedToVm = false) (locked : s.lock.locked = p.isLocked)
    (queue : Waits false s.vm.queue) : Beside s p
  | ordered (companion : s.companion = .awaitingReply) (kept : s.sync.handedToVm = false)
    (locked : s.lock.locked = true) (queue : Waits true s.vm.queue) : Beside s .ordered
  /-- The VM thread has the pause, and has not begun with it. -/
  | offered (asleep : Bool) (companion : s.companion = .handedOff asleep)
    (handed : s.sync.handedToVm = true) (unannounced : s.sync.vmPauseAnnounced = false)
    (locked : s.lock.locked = false) (queue : Waits false s.vm.queue) : Beside s .ordered
  /-- The VM thread is done with the pause, and the companion has not noticed yet. -/
  | returned (companion : s.companion = .handedOff false) (kept : s.sync.handedToVm = false)
    (locked : s.lock.locked = false) (queue : Waits false s.vm.queue) : Beside s .replying

/-- What the VM thread still has to do for a pause that was handed over, and after it. -/
def Position.lentDuties (rest : List Duty) : Position → List Duty
  | entered => .act .stopWorld :: .handBack :: rest
  | checking => .checkLocker :: .handBack :: rest
  | postponing => .postpone :: .handBack :: rest
  | reporting => .reportStopped :: .handBack :: rest
  | parked asleep => .park asleep :: .handBack :: rest
  | _ => .handBack :: rest

/-- Both threads on the way of a pause. -/
inductive Scene (s : System) : Position → Prop
  /-- The VM thread is on an errand. It wants a pause for itself if it has announced one, or has
  been given one. -/
  | errand {p : Position} (hbeside : Beside s p)
    (herrand : Errand s.atSafepoint (s.sync.vmPauseAnnounced || s.sync.handedToVm) s.vm.duties) :
    Scene s p
  /-- The VM thread executes the companion's operation. -/
  | stopping {p : Position} (hp : p.isVmThread = true) (hordered : p ≠ .ordered)
    (companion : s.companion = .awaitingReply) (duties : s.vm.duties = p.duties)
    (atSafepoint : s.atSafepoint = p.isOpen) (unannounced : s.sync.vmPauseAnnounced = false)
    (kept : s.sync.handedToVm = false) (locked : s.lock.locked = true)
    (queue : Waits false s.vm.queue) : Scene s p
  /-- The VM thread carries the pause in the middle of an errand. -/
  | lent {p : Position} {rest : List Duty} (asleep : Bool) (hp : p.isOpen = true)
    (hrest : Remaining rest) (companion : s.companion = .handedOff asleep)
    (duties : s.vm.duties = p.lentDuties rest) (atSafepoint : s.atSafepoint = true)
    (unannounced : s.sync.vmPauseAnnounced = false) (handed : s.sync.handedToVm = true)
    (locked : s.lock.locked = false) (queue : Waits false s.vm.queue) : Scene s p

/-- Where both threads are is a matter of what they do, of what they hold and of two flags. Errands
may be queued or taken from the queue. -/
theorem Beside.congr (h : Beside s p) (hcompanion : t.companion = s.companion)
    (hqueue : ∀ stop, Waits stop s.vm.queue → Waits stop t.vm.queue)
    (hlocked : t.lock.locked = s.lock.locked)
    (hannounced : t.sync.vmPauseAnnounced = s.sync.vmPauseAnnounced)
    (hhanded : t.sync.handedToVm = s.sync.handedToVm) : Beside t p := by
  cases h with
  | alone hp companion kept locked queue =>
    exact .alone hp (hcompanion.trans companion) (hhanded.trans kept) (hlocked.trans locked)
      (hqueue _ queue)
  | ordered companion kept locked queue =>
    exact .ordered (hcompanion.trans companion) (hhanded.trans kept) (hlocked.trans locked)
      (hqueue _ queue)
  | offered asleep companion handed unannounced locked queue =>
    exact .offered asleep (hcompanion.trans companion) (hhanded.trans handed)
      (hannounced.trans unannounced) (hlocked.trans locked) (hqueue _ queue)
  | returned companion kept locked queue =>
    exact .returned (hcompanion.trans companion) (hhanded.trans kept) (hlocked.trans locked)
      (hqueue _ queue)

theorem Scene.congr (h : Scene s p) (hcompanion : t.companion = s.companion)
    (hduties : t.vm.duties = s.vm.duties)
    (hqueue : ∀ stop, Waits stop s.vm.queue → Waits stop t.vm.queue)
    (hsafepoint : t.atSafepoint = s.atSafepoint) (hlocked : t.lock.locked = s.lock.locked)
    (hannounced : t.sync.vmPauseAnnounced = s.sync.vmPauseAnnounced)
    (hhanded : t.sync.handedToVm = s.sync.handedToVm) : Scene t p := by
  cases h with
  | errand hbeside herrand =>
    refine .errand (hbeside.congr hcompanion hqueue hlocked hannounced hhanded) ?_
    rwa [hsafepoint, hannounced, hhanded, hduties]
  | stopping hp hordered companion duties atSafepoint unannounced kept locked queue =>
    exact .stopping hp hordered (hcompanion.trans companion) (hduties.trans duties)
      (hsafepoint.trans atSafepoint) (hannounced.trans unannounced) (hhanded.trans kept)
      (hlocked.trans locked) (hqueue _ queue)
  | lent asleep hp hrest companion duties atSafepoint unannounced handed locked queue =>
    exact .lent asleep hp hrest (hcompanion.trans companion) (hduties.trans duties)
      (hsafepoint.trans atSafepoint) (hannounced.trans unannounced) (hhanded.trans handed)
      (hlocked.trans locked) (hqueue _ queue)

/-- Both threads look again. -/
theorem Scene.wakeAll (h : Scene s p) : Scene s.wakeAll p.awake := by
  cases h with
  | errand hbeside herrand =>
    refine .errand ?_ herrand.map_awake
    cases hbeside with
    | alone hp companion kept locked queue =>
      refine .alone ?_ ?_ kept ?_ queue
      · cases p <;> exact hp
      · simp only [System.wakeAll, companion]
        cases p <;> rfl
      · simp only [System.wakeAll, locked]
        cases p <;> rfl
    | ordered companion kept locked queue =>
      exact .ordered (by simp only [System.wakeAll, companion, Stage.awake]) kept locked queue
    | offered _ companion handed unannounced locked queue =>
      exact .offered false (by simp only [System.wakeAll, companion, Stage.awake]) handed
        unannounced locked queue
    | returned companion kept locked queue =>
      exact .returned (by simp only [System.wakeAll, companion, Stage.awake]) kept locked queue
  | stopping hp hordered companion duties atSafepoint unannounced kept locked queue =>
    refine .stopping ?_ ?_ ?_ ?_ ?_ unannounced kept locked queue
    · cases p <;> exact hp
    · intro hawake
      refine hordered ?_
      cases p <;> cases hawake
      rfl
    · simp only [System.wakeAll, companion, Stage.awake]
    · simp only [System.wakeAll, duties]
      cases p <;> rfl
    · simp only [System.wakeAll, atSafepoint]
      cases p <;> rfl
  | lent _ hp hrest companion duties atSafepoint unannounced handed locked queue =>
    refine .lent false ?_ hrest ?_ ?_ atSafepoint unannounced handed locked queue
    · cases p <;> exact hp
    · simp only [System.wakeAll, companion, Stage.awake]
    · simp only [System.wakeAll, duties]
      cases p <;> simp [Position.lentDuties, Position.awake, Duty.awake, hrest.map_awake]

/-- The `n`-th caller asks for one state after the other, and waits for each. -/
structure Attends (n : Nat) (s : System) : Prop where
  call : (s.caller n = .away ∧ s.sync.reached = s.sync.desired) ∨
    ∃ asleep, s.caller n = .awaiting s.sync.desired asleep

/-- The world is only brought to the state in which it is wanted. -/
theorem Attends.congr (h : Attends n s)
    (hcaller : t.caller n = s.caller n ∨ t.caller n = (s.caller n).awake)
    (hdesired : t.sync.desired = s.sync.desired)
    (hreached : t.sync.reached = s.sync.reached ∨ s.sync.reached ≠ s.sync.desired) :
    Attends n t := by
  constructor
  obtain ⟨haway, hthere⟩ | ⟨asleep, hawaiting⟩ := h.call
  · left
    refine ⟨?_, ?_⟩
    · obtain hcaller | hcaller := hcaller <;> rw [hcaller, haway]
      rfl
    · rw [hdesired, hreached.resolve_right fun hne => hne hthere, hthere]
  · right
    rw [hdesired]
    obtain hcaller | hcaller := hcaller <;> rw [hcaller, hawaiting]
    · exact ⟨asleep, rfl⟩
    · exact ⟨false, rfl⟩

theorem Attends.setCaller (h : Attends n s) {x : Nat} (hx : x ≠ n) (c : Caller) :
    Attends n (s.setCaller x c) := by
  refine h.congr (.inl ?_) rfl (.inl rfl)
  rw [System.caller_setCaller, if_neg (Ne.symm hx)]

theorem Attends.not_replied (h : Attends n s) (role : Role) : s.caller n ≠ .replied role := by
  intro hreplied
  obtain ⟨haway, -⟩ | ⟨asleep, hawaiting⟩ := h.call
  · cases haway.symm.trans hreplied
  · cases hawaiting.symm.trans hreplied

/-- The caller looks. -/
theorem Attends.awaitState (h : Attends n s) {state : WorldState} {asleep : Bool}
    (hcaller : s.caller n = .awaiting state asleep) : Attends n (s.awaitState n state) := by
  obtain ⟨haway, -⟩ | ⟨asleep', hawaiting⟩ := h.call
  · cases haway.symm.trans hcaller
  · obtain ⟨rfl, -⟩ := Caller.awaiting.inj (hcaller.symm.trans hawaiting)
    constructor
    by_cases hreached : s.sync.reached = s.sync.desired
    · exact .inl ⟨by simp [System.awaitState, hreached], hreached⟩
    · exact .inr ⟨true, by simp [System.awaitState, hreached]⟩

/-- Whether a pause is on its way to be begun, given whether one was abandoned. -/
def Position.isPressing (retry : Bool) : Position → Bool
  | choosing | probing | stalling | clearing | locking | submitting | ordered | opening | entered
  | checking | postponing | reporting => true
  | top | leaving | replying | cleaning | announcing | unlocking | closing => retry
  | entering | idle _ | parked _ => false

/-- What holds wherever the threads are, as long as every pause was announced in time. -/
structure Meets (n : Nat) (p : Position) (s : System) : Prop where
  scene : Scene s p
  agreed : p.Agreed s.sync
  pressing : p.isPressing s.sync.retryPending = true → s.sync.desired = .suspended
  timely : s.sync.vmPauseAnnounced = true → s.isTimely = true
  attends : Attends n s
  running : s.vm.life = .running
  staying : s.sync.terminating = false
  halted : s.worldStopped = s.atSafepoint

/-! ## Steps from position to position -/

/-- What a step leaves alone that leads to another position, apart from waking everybody. -/
structure Steady (s t : System) : Prop where
  desired : t.sync.desired = s.sync.desired
  announced : t.sync.vmPauseAnnounced = s.sync.vmPauseAnnounced
  handed : t.sync.handedToVm = s.sync.handedToVm
  terminating : t.sync.terminating = s.sync.terminating
  locked : t.lock.locked = s.lock.locked
  regionOpen : t.regionOpen = s.regionOpen
  atSafepoint : t.atSafepoint = s.atSafepoint
  worldStopped : t.worldStopped = s.worldStopped
  companion : t.companion = s.companion ∨ t.companion = s.companion.awake
  queue : t.vm.queue = s.vm.queue
  duties : t.vm.duties = s.vm.duties ∨ t.vm.duties = s.vm.duties.map Duty.awake
  life : t.vm.life = s.vm.life
  caller : ∀ x, t.caller x = s.caller x ∨ t.caller x = (s.caller x).awake

namespace Steady

/-- Nobody is woken. -/
theorem unwoken (retry : Bool) {lock : HeapLock} (history : List Event)
    (hlocked : lock.locked = s.lock.locked) :
    Steady s { s with
      sync := { s.sync with retryPending := retry }, lock := lock, history := history } :=
  ⟨rfl, rfl, rfl, rfl, hlocked, rfl, rfl, rfl, .inl rfl, rfl, .inl rfl, rfl, fun _ => .inl rfl⟩

theorem refl (s : System) : Steady s s := unwoken s.sync.retryPending s.history rfl

theorem log (s : System) (e : Event) : Steady s (s.log e) := unwoken s.sync.retryPending _ rfl

/-- Everybody is told where the world has come to. -/
theorem reached (s : System) (state : WorldState) :
    Steady s { s.wakeAll with sync := { s.sync with reached := state } } :=
  ⟨rfl, rfl, rfl, rfl, rfl, rfl, rfl, rfl, .inr rfl, rfl, .inr rfl, rfl, fun _ => .inr rfl⟩

end Steady

theorem Position.steady_effect (p : Position) (s : System) : Steady s (p.effect s) := by
  cases p with
  | probing =>
    rw [effect]
    split
    · exact .log s .lockerStall
    · exact .refl s
  | announcing =>
    have hlocked : (announcing.effect s).lock.locked = s.lock.locked := by
      rw [effect]
      split <;> rfl
    exact .unwoken s.sync.retryPending s.history hlocked
  | closing =>
    rw [effect]
    split
    · exact .refl s
    · exact .reached s .resumed
  | reporting => exact .reached s .suspended
  | clearing => exact .unwoken false s.history rfl
  | postponing => exact .unwoken true s.history rfl
  | opening | checking | leaving | cleaning => exact .log s _
  | _ => exact .refl s

namespace Position

/-- A pause is only begun for a world that is wanted stopped. -/
theorem Edge.pressing (h : Edge s p q) (hagreed : p.Agreed s.sync)
    (hpressing : p.isPressing s.sync.retryPending = true → s.sync.desired = .suspended)
    (hq : q.isPressing (p.effect s).sync.retryPending = true) :
    s.sync.desired = .suspended := by
  cases h with
  | top_choosing hretry => exact hpressing hretry
  | entering_choosing hdesired | idle_choosing hdesired => exact hdesired
  | reporting_leaving _ | parked_leaving _ => exact absurd (hagreed.2.symm.trans hq) nofun
  | closing =>
    rw [effect] at hq
    split at hq
    · exact hpressing hq
    · exact hpressing hq
  | top_entering _ | entering_idle _ | idle_idle _ | reporting_parked _ | parked_parked _ =>
    cases hq
  | leaving | replying | cleaning | announcing | unlocking => exact hpressing hq
  | _ => exact hpressing rfl

/-- The state of the world is only changed for somebody who waits. -/
theorem Agreed.reached_effect (h : p.Agreed s.sync)
    (hpressing : p.isPressing s.sync.retryPending = true → s.sync.desired = .suspended) :
    (p.effect s).sync.reached = s.sync.reached ∨ s.sync.reached ≠ s.sync.desired := by
  cases p with
  | reporting => exact .inr (by rw [h.1, hpressing rfl]; decide)
  | closing =>
    cases hretry : s.sync.retryPending with
    | true => exact .inl (by rw [effect, hretry]; rfl)
    | false =>
      simp only [Agreed, Handshake.Ends, hretry] at h
      exact .inr (by rw [h.1, h.2]; decide)
  | probing =>
    rw [effect]
    split <;> exact .inl rfl
  | _ => exact .inl rfl

/-- As long as the companion does not choose, it does not turn to an operation of its own. -/
theorem Edge.timely (h : Edge s p q) (hp : p.isVmThread = false) (hchoosing : p ≠ .choosing)
    (hretry : s.sync.retryPending = false) (hstage : p.stage.isCommitted = false) :
    (p.effect s).sync.retryPending = false ∧ q.stage.isCommitted = false := by
  cases h with
  | top_choosing _ => exact ⟨hretry, rfl⟩
  | choosing => exact absurd rfl hchoosing
  | closing => exact ⟨by rw [effect, hretry]; exact hretry, rfl⟩
  | probing_stalling _ | probing_locking _ | stalling _ | clearing | locking | submitting =>
    cases hstage
  | top_entering _ | entering_choosing _ | entering_idle _ | idle_choosing _ | idle_idle _
  | cleaning | announcing | unlocking => exact ⟨hretry, rfl⟩
  | _ => cases hp

/-- Puts the companion in place, and its operation into the queue. -/
def lead (q : Position) (s : System) : System :=
  { (if q = ordered then s.submit System.stopOperation else s) with
    companion := q.stage
    lock := { s.lock with locked := q.isLocked } }

/-- Puts the VM thread in place in the companion's operation. -/
def follow (q : Position) (s : System) : System :=
  { s with
    companion := q.stage
    vm := { s.vm with duties := q.duties }
    atSafepoint := q.isOpen
    worldStopped := q.isOpen }

/-- The companion breaks off or goes to the next position, whatever the VM thread does meanwhile. -/
theorem stepCompanion_eq (hp : p.isVmThread = false) (hcompanion : s.companion = p.stage)
    (hlocked : s.lock.locked = p.isLocked) (hrunning : s.vm.life = .running)
    (hstaying : s.sync.terminating = false)
    (hquiet : p = .choosing → s.sync.vmPauseAnnounced = false) :
    s.stepCompanion = match p.breach? s with
      | some why => some { s with companion := .failed why }
      | none => (p.next? s).map fun q => q.lead (p.effect s) := by
  obtain ⟨⟨desired, reached, announced, handed, retry, terminating⟩, ⟨locked, notifications⟩,
    regionOpen, pendingList, atSafepoint, worldStopped, companion, joined, ⟨queue, duties, life⟩,
    vmJoined, caller, history⟩ := s
  obtain rfl : companion = p.stage := hcompanion
  obtain rfl : locked = p.isLocked := hlocked
  obtain rfl : life = .running := hrunning
  obtain rfl : terminating = false := hstaying
  cases p with
  | top => cases retry <;> rfl
  | entering => cases reached <;> cases desired <;> rfl
  | idle asleep => cases asleep <;> cases reached <;> cases desired <;> rfl
  | choosing =>
    obtain rfl : announced = false := hquiet rfl
    rfl
  | probing => cases retry <;> rfl
  | stalling => cases regionOpen <;> rfl
  | announcing => cases pendingList <;> rfl
  | closing => cases retry <;> cases reached <;> cases desired <;> rfl
  | clearing | locking | submitting | cleaning | unlocking => rfl
  | _ => cases hp

/-- The VM thread goes through the companion's operation. -/
theorem stepVmThread_eq (hp : p.isVmThread = true) (hordered : p ≠ .ordered)
    (hcompanion : s.companion = .awaitingReply) (hduties : s.vm.duties = p.duties)
    (hrunning : s.vm.life = .running) (hsafepoint : s.atSafepoint = p.isOpen)
    (hhalted : s.worldStopped = s.atSafepoint) :
    s.stepVmThread = (p.next? s).map fun q => q.follow (p.effect s) := by
  obtain ⟨⟨desired, reached, announced, handed, retry, terminating⟩, ⟨locked, notifications⟩,
    regionOpen, pendingList, atSafepoint, worldStopped, companion, joined, ⟨queue, duties, life⟩,
    vmJoined, caller, history⟩ := s
  obtain rfl : companion = .awaitingReply := hcompanion
  obtain rfl : duties = p.duties := hduties
  obtain rfl : life = .running := hrunning
  obtain rfl : atSafepoint = p.isOpen := hsafepoint
  obtain rfl : worldStopped = p.isOpen := hhalted
  cases p with
  | ordered => exact absurd rfl hordered
  | checking => cases regionOpen <;> rfl
  | reporting => cases desired <;> rfl
  | parked asleep => cases asleep <;> cases desired <;> rfl
  | opening | entered | postponing | leaving | replying => rfl
  | _ => cases hp

/-- The VM thread goes through a pause of its own. -/
theorem stepVmThread_eq_of_lent {rest : List Duty} (hp : p.isOpen = true) (hleaving : p ≠ .leaving)
    (hduties : s.vm.duties = p.lentDuties rest) (hrunning : s.vm.life = .running) :
    s.stepVmThread = (p.next? s).map fun q => (p.effect s).setDuties (q.lentDuties rest) := by
  obtain ⟨⟨desired, reached, announced, handed, retry, terminating⟩, ⟨locked, notifications⟩,
    regionOpen, pendingList, atSafepoint, worldStopped, companion, joined, ⟨queue, duties, life⟩,
    vmJoined, caller, history⟩ := s
  obtain rfl : duties = p.lentDuties rest := hduties
  obtain rfl : life = .running := hrunning
  cases p with
  | leaving => exact absurd rfl hleaving
  | checking => cases regionOpen <;> rfl
  | reporting => cases desired <;> rfl
  | parked asleep => cases asleep <;> cases desired <;> rfl
  | entered | postponing => rfl
  | _ => cases hp

end Position
end HeapBridge.Pause
