import HeapBridge.Pause.Step

/-!
# The way of a pause

As long as no pause is handed over, the companion and the VM thread do not work side by side: the
companion waits while the VM thread is in the operation that stops the world, and the VM thread
waits for that operation otherwise. So both together are at one position of a way that leads through
both of them and ends where it began.
-/
namespace HeapBridge.Pause

/-- Where the companion and the VM thread are. -/
inductive Position
  | top
  | entering
  | idle (asleep : Bool)
  | choosing
  | probing
  | stalling
  | clearing
  | locking
  | submitting
  /-- The operation is in the queue. -/
  | ordered
  | opening
  | entered
  | checking
  | postponing
  | reporting
  | parked (asleep : Bool)
  /-- About to close the safepoint. -/
  | leaving
  | replying
  | cleaning
  | announcing
  | unlocking
  | closing
deriving DecidableEq, Inhabited

namespace Position

/-- Where the companion is. -/
def stage : Position → Stage
  | top => .top
  | entering => .entering
  | idle asleep => .idle asleep
  | choosing => .choosing
  | probing => .probing
  | stalling => .stalling
  | clearing => .clearing
  | locking => .locking
  | submitting => .submitting
  | ordered | opening | entered | checking | postponing | reporting | parked _ | leaving | replying =>
    .awaitingReply
  | cleaning => .cleaning
  | announcing => .announcing
  | unlocking => .unlocking
  | closing => .closing

/-- What is queued for the VM thread. -/
def queue : Position → List Order
  | ordered => [.run System.stopOperation]
  | _ => []

/-- What the VM thread still has to do. -/
def duties : Position → List Duty
  | opening => [.openSafepoint, .act .stopWorld, .closeSafepoint, .reply .companion]
  | entered => [.act .stopWorld, .closeSafepoint, .reply .companion]
  | checking => [.checkLocker, .closeSafepoint, .reply .companion]
  | postponing => [.postpone, .closeSafepoint, .reply .companion]
  | reporting => [.reportStopped, .closeSafepoint, .reply .companion]
  | parked asleep => [.park asleep, .closeSafepoint, .reply .companion]
  | leaving => [.closeSafepoint, .reply .companion]
  | replying => [.reply .companion]
  | _ => []

/-- Whether it is the VM thread that goes on. -/
def isVmThread : Position → Bool
  | ordered | opening | entered | checking | postponing | reporting | parked _ | leaving | replying =>
    true
  | _ => false

/-- Whether a safepoint is open. -/
def isOpen : Position → Bool
  | entered | checking | postponing | reporting | parked _ | leaving => true
  | _ => false

/-- Whether the heap lock is held. -/
def isLocked : Position → Bool
  | submitting | ordered | opening | entered | checking | postponing | reporting | parked _ | leaving
  | replying | cleaning | announcing | unlocking => true
  | _ => false

/-- Puts both threads, and what follows from where they are, in place. -/
def put (p : Position) (s : System) : System :=
  { s with
    companion := p.stage
    vm := ⟨p.queue, p.duties, .running⟩
    atSafepoint := p.isOpen
    worldStopped := p.isOpen
    lock := { s.lock with locked := p.isLocked } }

/-- What a step does besides going to another position. -/
def effect (s : System) : Position → System
  | probing => if s.sync.retryPending then s.log .lockerStall else s
  | clearing => { s with sync := { s.sync with retryPending := false } }
  | opening => s.log .safepointBegin
  | checking => s.log .lockerCheck
  | postponing => { s with sync := { s.sync with retryPending := true } }
  | reporting => s.reportStopped
  | leaving => s.log .safepointEnd
  | cleaning => s.log .cleanup
  | announcing => { s with lock := if s.pendingList then s.lock.count else s.lock }
  | closing =>
    if s.sync.retryPending then s
    else { s.wakeAll with sync := { s.sync with reached := .resumed } }
  | _ => s

/-- The next position. There is none for a thread that sleeps and while a region has to be left. -/
def next? (s : System) : Position → Option Position
  | top => some (if s.sync.retryPending then choosing else entering)
  | entering | idle false => some (if s.sync.desired = .suspended then choosing else idle true)
  | choosing => some probing
  | probing => some (if s.sync.retryPending then stalling else locking)
  | stalling => if s.regionOpen then none else some clearing
  | clearing => some locking
  | locking => some submitting
  | submitting => some ordered
  | ordered => some opening
  | opening => some entered
  | entered => some checking
  | checking => some (if s.regionOpen then postponing else reporting)
  | postponing => some leaving
  | reporting | parked false =>
    some (if s.sync.desired = .resumed then leaving else parked true)
  | leaving => some replying
  | replying => some cleaning
  | cleaning => some announcing
  | announcing => some unlocking
  | unlocking => some closing
  | closing => some top
  | idle true | parked true => none

/-- The steps from position to position, with what decides between them. -/
inductive Edge (s : System) : Position → Position → Prop
  | top_choosing (h : s.sync.retryPending = true) : Edge s top choosing
  | top_entering (h : s.sync.retryPending = false) : Edge s top entering
  | entering_choosing (h : s.sync.desired = .suspended) : Edge s entering choosing
  | entering_idle (h : s.sync.desired = .resumed) : Edge s entering (idle true)
  | idle_choosing (h : s.sync.desired = .suspended) : Edge s (idle false) choosing
  | idle_idle (h : s.sync.desired = .resumed) : Edge s (idle false) (idle true)
  | choosing : Edge s choosing probing
  | probing_stalling (h : s.sync.retryPending = true) : Edge s probing stalling
  | probing_locking (h : s.sync.retryPending = false) : Edge s probing locking
  | stalling (h : s.regionOpen = false) : Edge s stalling clearing
  | clearing : Edge s clearing locking
  | locking : Edge s locking submitting
  | submitting : Edge s submitting ordered
  | ordered : Edge s ordered opening
  | opening : Edge s opening entered
  | entered : Edge s entered checking
  | checking_postponing (h : s.regionOpen = true) : Edge s checking postponing
  | checking_reporting (h : s.regionOpen = false) : Edge s checking reporting
  | postponing : Edge s postponing leaving
  | reporting_leaving (h : s.sync.desired = .resumed) : Edge s reporting leaving
  | reporting_parked (h : s.sync.desired = .suspended) : Edge s reporting (parked true)
  | parked_leaving (h : s.sync.desired = .resumed) : Edge s (parked false) leaving
  | parked_parked (h : s.sync.desired = .suspended) : Edge s (parked false) (parked true)
  | leaving : Edge s leaving replying
  | replying : Edge s replying cleaning
  | cleaning : Edge s cleaning announcing
  | announcing : Edge s announcing unlocking
  | unlocking : Edge s unlocking closing
  | closing : Edge s closing top

theorem edge_of_next? {s : System} {p q : Position} (h : p.next? s = some q) : Edge s p q := by
  cases p with
  | top =>
    cases hretry : s.sync.retryPending <;> rw [next?, hretry] at h <;> cases h
    · exact .top_entering hretry
    · exact .top_choosing hretry
  | entering =>
    cases hdesired : s.sync.desired <;> rw [next?, hdesired] at h <;> cases h
    · exact .entering_choosing hdesired
    · exact .entering_idle hdesired
  | idle asleep =>
    cases asleep
    · cases hdesired : s.sync.desired <;> rw [next?, hdesired] at h <;> cases h
      · exact .idle_choosing hdesired
      · exact .idle_idle hdesired
    · cases h
  | probing =>
    cases hretry : s.sync.retryPending <;> rw [next?, hretry] at h <;> cases h
    · exact .probing_locking hretry
    · exact .probing_stalling hretry
  | stalling =>
    cases hregion : s.regionOpen <;> rw [next?, hregion] at h <;> cases h
    exact .stalling hregion
  | checking =>
    cases hregion : s.regionOpen <;> rw [next?, hregion] at h <;> cases h
    · exact .checking_reporting hregion
    · exact .checking_postponing hregion
  | reporting =>
    cases hdesired : s.sync.desired <;> rw [next?, hdesired] at h <;> cases h
    · exact .reporting_parked hdesired
    · exact .reporting_leaving hdesired
  | parked asleep =>
    cases asleep
    · cases hdesired : s.sync.desired <;> rw [next?, hdesired] at h <;> cases h
      · exact .parked_parked hdesired
      · exact .parked_leaving hdesired
    · cases h
  | _ =>
    cases h
    constructor

/-- What the companion breaks off for. -/
def breach? (s : System) : Position → Option Breach
  | entering => if s.sync.reached = .resumed then none else some .notRunning
  | idle false =>
    if s.sync.desired = .suspended ∧ s.sync.reached ≠ .resumed then some .notRunning else none
  | closing =>
    if s.sync.retryPending then none
    else if s.sync.desired ≠ .resumed then some .resumeNotRequested
    else if s.sync.reached ≠ .suspended then some .notStopped
    else none
  | _ => none

/-- Both threads awake. -/
def awake : Position → Position
  | idle _ => idle false
  | parked _ => parked false
  | p => p

end Position

/-- The companion and the VM thread are at a position, and no pause is handed over. -/
structure At (p : Position) (s : System) : Prop where
  companion : s.companion = p.stage
  vm : s.vm = ⟨p.queue, p.duties, .running⟩
  atSafepoint : s.atSafepoint = p.isOpen
  worldStopped : s.worldStopped = p.isOpen
  locked : s.lock.locked = p.isLocked
  unannounced : s.sync.vmPauseAnnounced = false
  kept : s.sync.handedToVm = false
  staying : s.sync.terminating = false

namespace At
variable {p q : Position} {s : System}

theorem initial : At .top .initial := ⟨rfl, rfl, rfl, rfl, rfl, rfl, rfl, rfl⟩

/-- The VM thread goes to the next position, if it is its turn. -/
theorem stepVmThread_eq (h : At p s) :
    s.stepVmThread =
      if p.isVmThread then (p.next? s).map fun q => q.put (p.effect s) else none := by
  obtain ⟨⟨desired, reached, announced, handed, retry, terminating⟩, ⟨locked, notifications⟩,
    regionOpen, pendingList, atSafepoint, worldStopped, companion, joined, vm, vmJoined, caller,
    history⟩ := s
  obtain ⟨rfl, rfl, rfl, rfl, rfl, rfl, rfl, rfl⟩ := h
  cases p with
  | checking => cases regionOpen <;> rfl
  | reporting => cases desired <;> rfl
  | parked asleep => cases asleep <;> cases desired <;> rfl
  | _ => rfl

/-- The companion breaks off or goes to the next position, if it is its turn. -/
theorem stepCompanion_eq (h : At p s) :
    s.stepCompanion =
      if p.isVmThread then none
      else match p.breach? s with
        | some why => some { s with companion := .failed why }
        | none => (p.next? s).map fun q => q.put (p.effect s) := by
  obtain ⟨⟨desired, reached, announced, handed, retry, terminating⟩, ⟨locked, notifications⟩,
    regionOpen, pendingList, atSafepoint, worldStopped, companion, joined, vm, vmJoined, caller,
    history⟩ := s
  obtain ⟨rfl, rfl, rfl, rfl, rfl, rfl, rfl, rfl⟩ := h
  cases p with
  | top => cases retry <;> rfl
  | entering => cases reached <;> cases desired <;> rfl
  | idle asleep => cases asleep <;> cases reached <;> cases desired <;> rfl
  | probing => cases retry <;> rfl
  | stalling => cases regionOpen <;> rfl
  | announcing => cases pendingList <;> rfl
  | closing => cases retry <;> cases reached <;> cases desired <;> rfl
  | _ => rfl

end At
end HeapBridge.Pause
