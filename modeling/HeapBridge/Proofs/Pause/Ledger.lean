import HeapBridge.Proofs.Pause.Settling

/-!
# What attempts leave behind

Over a run of turns two things are read off the states: what every check of the locker found, and
whether references were pending at the end of every epilogue. The ledger ties them to what the
history and the heap lock count, at every position of the way. It is opened at any state, and kept
by every turn.
-/
namespace HeapBridge.Pause
variable {n k others : Nat} {p q : Position} {s₀ s t u : System} {m : System.Move}
  {ms : List System.Move} {found listed : List Bool} {β : Type}

/-! ## Reading off a run -/

namespace System

/-- What there is to see at every move of a run, in order. A move that cannot be made ends it. -/
def gather (look : System → Move → List β) : List Move → System → List β
  | [], _ => []
  | m :: ms, s => (s.step m).elim [] fun t => look s m ++ gather look ms t

/-- What a check of the locker finds: whether a region is open. -/
def finding (s : System) : Move → List Bool
  | .proceed .vmThread =>
    match s.vm.duties with
    | .checkLocker :: _ => [s.regionOpen]
    | _ => []
  | _ => []

/-- What the end of an epilogue finds: whether references are pending. -/
def listing (s : System) : Move → List Bool
  | .proceed .companion => if s.companion = .announcing then [s.pendingList] else []
  | _ => []

/-- Notifications from outside. -/
def Move.isNotice : Move → Bool
  | .notifyLock => true
  | _ => false

/-- Two parts of a run are read one after the other. -/
theorem Interleaves.gather_append (h : s.Interleaves n ms k t) (look : System → Move → List β)
    (ms' : List Move) : gather look (ms ++ ms') s = gather look ms s ++ gather look ms' t := by
  induction h generalizing ms' with
  | refl => rfl
  | turn m _ _ hstep ih =>
    rw [List.append_assoc, ih, ih [m], List.append_assoc]
    simp [gather, hstep]

/-- What the last move of a run adds. -/
theorem Interleaves.gather_snoc (h : s.Interleaves n ms k t) (look : System → Move → List β)
    (hstep : t.step m = some u) : gather look (ms ++ [m]) s = gather look ms s ++ look t m := by
  rw [h.gather_append]
  simp [gather, hstep]

end System

namespace Position

/-- What a step finds the locker at. -/
def finds (s : System) : Position → List Bool
  | checking => [s.regionOpen]
  | _ => []

/-- What a step finds of pending references. -/
def lists (s : System) : Position → List Bool
  | announcing => [s.pendingList]
  | _ => []

/-- Whether the attempt under way has opened its safepoint and not yet checked the locker. -/
def owesCheck : Position → Nat
  | entered | checking => 1
  | _ => 0

/-- Whether an abandoned attempt has yet to be stalled on. -/
def owesStall (retry : Bool) : Position → Nat
  | leaving | replying | cleaning | announcing | unlocking | closing | top | choosing | probing =>
    if retry then 1 else 0
  | _ => 0

/-- Whether the epilogue under way has yet to look for pending references. -/
def owesNotice : Position → Nat
  | announcing => 1
  | _ => 0

end Position

theorem At.finding_eq (h : At p s) : s.finding (.proceed p.party) = p.finds s := by
  cases p <;> simp [Position.party, Position.isVmThread, System.finding, h.vm, Position.duties,
    Position.finds]

theorem At.listing_eq (h : At p s) : s.listing (.proceed p.party) = p.lists s := by
  cases p <;> simp [Position.party, Position.isVmThread, System.listing, h.companion,
    Position.stage, Position.lists]

/-! ## The ledger -/

/-- What the history and the heap lock count since `s₀`, with `k` attempts abandoned since then. -/
structure Ledger (s₀ : System) (found listed : List Bool) (others k : Nat) (p : Position)
    (s : System) : Prop where
  checks : s.tally .lockerCheck = s₀.tally .lockerCheck + found.length
  safepoints : s.tally .safepointBegin = s₀.tally .safepointBegin + found.length + p.owesCheck
  stalls : s.tally .lockerStall + p.owesStall s.sync.retryPending = s₀.tally .lockerStall + k
  cleanups : s.tally .cleanup + p.owesCleanup = s₀.tally .cleanup + found.length + p.owesCheck
  listings : s₀.tally .cleanup + listed.length + p.owesNotice = s.tally .cleanup
  notifications :
    s.lock.notifications = s₀.lock.notifications + others + listed.count true

namespace Position

/-- What a step adds to the history. -/
def logs (s : System) : Position → List Event
  | probing => if s.sync.retryPending then [.lockerStall] else []
  | opening => [.safepointBegin]
  | checking => [.lockerCheck]
  | leaving => [.safepointEnd]
  | cleaning => [.cleanup]
  | _ => []

theorem history_effect (p : Position) (s : System) :
    (p.effect s).history = s.history ++ p.logs s := by
  cases p with
  | probing => cases hretry : s.sync.retryPending <;> simp [effect, logs, hretry]
  | closing => cases hretry : s.sync.retryPending <;> simp [effect, logs, hretry]
  | _ => simp [effect, logs, System.reportStopped]

theorem tally_effect (p : Position) (s : System) (e : Event) :
    (p.effect s).tally e = s.tally e + (p.logs s).count e := by
  rw [System.tally, history_effect, List.count_append, System.tally]

theorem notifications_effect (p : Position) (s : System) :
    (p.effect s).lock.notifications = s.lock.notifications + (p.lists s).count true := by
  cases p with
  | announcing => cases hpending : s.pendingList <;> simp [effect, lists, hpending, HeapLock.count]
  | probing | closing =>
    rw [effect]
    split <;> rfl
  | _ => rfl

/-- What a step adds and what it settles come to the same. -/
structure Balanced (s : System) (p q : Position) : Prop where
  checks : (p.logs s).count .lockerCheck = (p.finds s).length
  safepoints :
    (p.logs s).count .safepointBegin + p.owesCheck = (p.finds s).length + q.owesCheck
  stalls : q.owesStall (p.effect s).sync.retryPending + (p.logs s).count .lockerStall =
    p.owesStall s.sync.retryPending + p.abandoned
  cleanups : (p.logs s).count .cleanup + q.owesCleanup + p.owesCheck =
    p.owesCleanup + (p.finds s).length + q.owesCheck
  listings : (p.lists s).length + q.owesNotice = p.owesNotice + (p.logs s).count .cleanup

theorem Edge.balanced (h : Edge s p q) (hagreed : p.Agreed s.sync) : Balanced s p q := by
  cases h with
  | top_entering hretry | probing_stalling hretry | probing_locking hretry =>
    constructor <;> simp [logs, finds, lists, owesCheck, owesStall, owesCleanup, owesNotice,
      abandoned, hretry]
  | entering_choosing _ | idle_choosing _ | reporting_leaving _ | parked_leaving _ =>
    -- no attempt was abandoned, so none has to be stalled on
    have hretry : s.sync.retryPending = false := hagreed.2
    constructor <;> simp [effect, logs, finds, lists, owesCheck, owesStall, owesCleanup, owesNotice,
      abandoned, System.reportStopped, hretry]
  | closing =>
    refine ⟨rfl, rfl, ?_, rfl, rfl⟩
    cases hretry : s.sync.retryPending <;> simp [effect, logs, owesStall, abandoned, hretry]
  | _ => constructor <;> rfl

end Position

namespace Ledger

theorem go (h : Ledger s₀ found listed others k p s) (hagreed : p.Agreed s.sync)
    (hedge : Position.Edge s p q) :
    Ledger s₀ (found ++ p.finds s) (listed ++ p.lists s) others (k + p.abandoned) q
      (q.put (p.effect s)) := by
  obtain ⟨hchecks, hsafepoints, hstalls, hcleanups, hlistings⟩ := hedge.balanced hagreed
  have hnotifications := p.notifications_effect s
  constructor
  · rw [System.tally_put, p.tally_effect, h.checks, List.length_append]
    omega
  · rw [System.tally_put, p.tally_effect, h.safepoints, List.length_append]
    omega
  · rw [System.tally_put, System.sync_put, p.tally_effect]
    have := h.stalls
    omega
  · rw [System.tally_put, p.tally_effect, List.length_append]
    have := h.cleanups
    omega
  · rw [System.tally_put, p.tally_effect, List.length_append]
    have := h.listings
    omega
  · change (p.effect s).lock.notifications = _
    rw [hnotifications, h.notifications, List.count_append, Nat.add_assoc]

/-- What nobody counts can change, and so can the place if it owes the same. -/
theorem congr (h : Ledger s₀ found listed others k p s) (hhistory : t.history = s.history)
    (hnotifications : t.lock.notifications = s.lock.notifications)
    (hretry : t.sync.retryPending = s.sync.retryPending) (hcheck : q.owesCheck = p.owesCheck)
    (hstall : ∀ retry, q.owesStall retry = p.owesStall retry)
    (hcleanup : q.owesCleanup = p.owesCleanup) (hnotice : q.owesNotice = p.owesNotice) :
    Ledger s₀ found listed others k q t := by
  have htally := System.tally_congr hhistory
  constructor
  · rw [htally, h.checks]
  · rw [htally, hcheck, h.safepoints]
  · rw [htally, hretry, hstall, h.stalls]
  · rw [htally, hcleanup, hcheck, h.cleanups]
  · rw [htally, hnotice, h.listings]
  · rw [hnotifications, h.notifications]

/-- Threads that are woken owe what they owed asleep. -/
theorem awake (h : Ledger s₀ found listed others k p s) (hhistory : t.history = s.history)
    (hnotifications : t.lock.notifications = s.lock.notifications)
    (hretry : t.sync.retryPending = s.sync.retryPending) :
    Ledger s₀ found listed others k p.awake t := by
  apply h.congr hhistory hnotifications hretry <;> cases p <;> first | rfl | exact fun _ => rfl

/-- A request leaves the ledger alone. -/
theorem request (h : Ledger s₀ found listed others k p s) {state : WorldState} {wait : Bool}
    (hrequest : s.request n state wait = .ok t) : Ledger s₀ found listed others k p.awake t := by
  have hsync := System.sync_of_request hrequest
  obtain ⟨-, rfl⟩ := System.request_eq_ok_iff.mp hrequest
  refine h.awake ?_ ?_ (by rw [hsync]) <;> split <;> rfl

/-- A turn at which there is nothing to see. -/
theorem quiet (h : Ledger s₀ found listed others k p s) :
    Ledger s₀ (found ++ []) (listed ++ []) others k p s := by
  rwa [List.append_nil, List.append_nil]

/-- A turn is entered in the ledger. -/
theorem turn (h : Ledger s₀ found listed others k p s) (hagrees : Agrees n p s)
    (hturn : Turn n p s m q t) :
    Ledger s₀ (found ++ s.finding m) (listed ++ s.listing m) (others + m.isNotice.toNat)
      (k + s.abandons m) q t := by
  cases hturn with
  | go hedge =>
    rw [hagrees.place.finding_eq, hagrees.place.listing_eq, hagrees.place.abandons_eq]
    exact h.go hagrees.agreed hedge
  | wake _ => exact (h.awake (t := p.awake.put s) rfl rfl rfl).quiet
  | notify =>
    have hnotifications : s.lock.notifications + 1 =
        s₀.lock.notifications + (others + 1) + listed.count true := by
      rw [h.notifications]
      omega
    have hcounted : Ledger s₀ found listed (others + 1) k p { s with lock := s.lock.count } :=
      ⟨h.checks, h.safepoints, h.stalls, h.cleanups, h.listings, hnotifications⟩
    exact hcounted.quiet
  | look _ | rouse _ | region _ | pending _ =>
    exact Ledger.quiet (h.congr rfl rfl rfl rfl (fun _ => rfl) rfl rfl)

/-- A ledger is opened while the threads rest. -/
theorem opened (hresting : p.isResting = true) (hretry : s.sync.retryPending = false) :
    Ledger s [] [] 0 0 p s := by
  cases p <;> first
    | exact ⟨rfl, rfl, by rw [hretry]; rfl, rfl, rfl, rfl⟩
    | cases hresting

end Ledger
end HeapBridge.Pause
