import HeapBridge.Proofs.Pause.Rounds

/-!
# Attempts that are retried

A stop is attempted until the locker is found without an open region. As long as every check has
found one, the caller waits, and between two attempts the world runs and the heap lock is free. The
first check that finds none is the last, and the caller is back once its attempt has stopped the
world. By then each attempt before it has been checked, cleaned up after and stalled on once, and
once the world is back nothing is left of them.
-/
namespace HeapBridge.Pause
variable {n k others : Nat} {p q : Position} {s₀ s t u : System} {m : System.Move}
  {ms : List System.Move} {found listed : List Bool}

/-! ## At rest -/

/-- The world runs, and nobody wants anything. The companion is about to wait for a request, or
waits for one. -/
structure System.Rests (s : System) : Prop where
  sync : s.sync = .initial
  lock : s.lock.locked = false
  atSafepoint : s.atSafepoint = false
  worldStopped : s.worldStopped = false
  companion : s.companion = .top ∨ s.companion = .entering ∨ ∃ asleep, s.companion = .idle asleep
  vm : s.vm = ⟨[], [], .running⟩
  caller : ∀ n, s.caller n = .away

namespace System.Rests

theorem initial : System.initial.Rests := ⟨rfl, rfl, rfl, rfl, .inl rfl, rfl, fun _ => rfl⟩

/-- At rest a caller may ask for a stop. -/
theorem releasing (h : s.Rests) (n : Nat) : ∃ p, p.isResting = true ∧ Releasing n p s := by
  obtain ⟨hsync, hlock, hsafepoint, hstopped, hcompanion, hvm, hcaller⟩ := h
  have hreached : s.sync.reached = .resumed := by rw [hsync]; rfl
  have hcalm : s.sync.retryPending = false := by rw [hsync]; rfl
  have hdesired : s.sync.desired = .resumed := by rw [hsync]; rfl
  have hcalls : Calls n s := ⟨.inl (hcaller n), fun x _ => hcaller x⟩
  suffices hplace : ∃ p : Position, p.isResting = true ∧ p.stage = s.companion ∧ p.Agreed s.sync by
    obtain ⟨p, hresting, hstage, hagreed⟩ := hplace
    have hat : At p s := by
      refine ⟨hstage.symm, hvm.trans ?_, hsafepoint.trans ?_, hstopped.trans ?_, hlock.trans ?_,
        by rw [hsync]; rfl, by rw [hsync]; rfl, by rw [hsync]; rfl⟩ <;>
        cases p <;> first | rfl | cases hresting
    have hway : p.isReturning = true := by
      cases p <;> first | rfl | cases hresting
    exact ⟨p, hresting, ⟨hat, hagreed, hcalls⟩, hdesired, hcalm, hway, fun _ => hreached⟩
  obtain htop | hentering | ⟨asleep, hidle⟩ := hcompanion
  · exact ⟨.top, rfl, htop.symm, hreached⟩
  · exact ⟨.entering, rfl, hentering.symm, hreached, hcalm⟩
  · refine ⟨.idle asleep, rfl, hidle.symm, ?_⟩
    cases asleep
    · exact ⟨hreached, hcalm⟩
    · exact ⟨hreached, hcalm, hdesired⟩

end System.Rests

/-- A caller that is back from a restart finds everything at rest. -/
theorem Releasing.rests (h : Releasing n p s) (haway : s.caller n = .away) : s.Rests := by
  have hresting := h.isResting haway
  obtain ⟨⟨hcompanion, hvm, hsafepoint, hstopped, hlocked, hannounced, hkept, hstaying⟩, -, hcalls⟩ :=
    h.agrees
  have hsync : s.sync = .initial := by
    have hdesired := h.desired
    have hreached := h.answered haway
    have hcalm := h.calm
    rcases hsync : s.sync with ⟨desired, reached, announced, handed, retry, terminating⟩
    simp_all [Handshake.initial]
  have hcaller : ∀ x, s.caller x = .away := by
    intro x
    by_cases hx : x = n
    · rw [hx, haway]
    · exact hcalls.others x hx
  cases p <;> first
    | exact ⟨hsync, hlocked, hsafepoint, hstopped, .inl hcompanion, hvm, hcaller⟩
    | exact ⟨hsync, hlocked, hsafepoint, hstopped, .inr (.inl hcompanion), hvm, hcaller⟩
    | exact ⟨hsync, hlocked, hsafepoint, hstopped, .inr (.inr ⟨_, hcompanion⟩), hvm, hcaller⟩
    | cases hresting

/-! ## Up to the stop -/

/-- What the check has found of an attempt that leads into the park. -/
def Position.verdict : Position → List Bool
  | reporting | parked _ => [false]
  | _ => []

theorem Position.verdict_cases (p : Position) :
    p.verdict = [] ∨ p.verdict = [false] ∧ p.abandoned = 0 := by
  cases p <;> first | exact .inl rfl | exact .inr ⟨rfl, rfl⟩

/-- While the world is wanted stopped, every check finds an open region but the last, which leads
into the park. -/
structure Trying (n : Nat) (s₀ : System) (found listed : List Bool) (others k : Nat) (p : Position)
    (s : System) : Prop where
  halting : Halting n p s
  ledger : Ledger s₀ found listed others k p s
  found_eq : found = List.replicate (k + p.abandoned) true ++ p.verdict

theorem Position.Edge.found_eq (h : Edge s p q) (hdesired : s.sync.desired = .suspended) (k : Nat) :
    List.replicate (k + p.abandoned) true ++ p.verdict ++ p.finds s =
      List.replicate (k + p.abandoned + q.abandoned) true ++ q.verdict := by
  cases h with
  | checking_postponing hregion =>
    simp [abandoned, verdict, finds, hregion, List.replicate_succ']
  | checking_reporting hregion => simp [abandoned, verdict, finds, hregion]
  | reporting_leaving hback | parked_leaving hback =>
    rw [hback] at hdesired
    cases hdesired
  | _ => simp [abandoned, verdict, finds]

namespace Trying

theorem turn (h : Trying n s₀ found listed others k p s) (hturn : Turn n p s m q t) :
    Trying n s₀ (found ++ s.finding m) (listed ++ s.listing m) (others + m.isNotice.toNat)
      (k + s.abandons m) q t := by
  have hagrees := h.halting.agrees
  refine ⟨h.halting.turn hturn, h.ledger.turn hagrees hturn, ?_⟩
  rw [h.found_eq]
  cases hturn with
  | go hedge =>
    rw [hagrees.place.finding_eq, hagrees.place.abandons_eq]
    exact hedge.found_eq h.halting.desired k
  | wake _ =>
    have hsame : p.awake.abandoned = p.abandoned ∧ p.awake.verdict = p.verdict := by
      cases p <;> exact ⟨rfl, rfl⟩
    rw [hsame.1, hsame.2]
    exact List.append_nil _
  | _ => exact List.append_nil _

/-- What every turn keeps a run keeps, by induction over its turns. -/
theorem run (h : Trying n s₀ [] [] 0 0 p s) (hrun : s.Interleaves n ms k t) :
    ∃ q, Trying n s₀ (System.gather System.finding ms s) (System.gather System.listing ms s)
      (ms.countP System.Move.isNotice) k q t := by
  induction hrun with
  | refl => exact ⟨p, h⟩
  | turn m hrun hm hstep ih =>
    obtain ⟨q, hq⟩ := ih
    obtain ⟨r, hr⟩ := hq.halting.agrees.exists_turn hm hstep
    rw [hrun.gather_snoc _ hstep, hrun.gather_snoc _ hstep, System.Move.countP_snoc]
    exact ⟨r, hq.turn hr⟩

/-- Regions that were found open are attempts that were abandoned. -/
theorem of_found_open {i : Nat} (h : Trying n s₀ (List.replicate i true) listed others k p s) :
    p.verdict = [] ∧ k + p.abandoned = i := by
  have hfound := h.found_eq
  obtain hverdict | ⟨hverdict, -⟩ := p.verdict_cases <;> rw [hverdict] at hfound
  · have hlength := congrArg List.length hfound
    simp only [List.append_nil, List.length_replicate] at hlength
    exact ⟨hverdict, hlength.symm⟩
  · have hmem : false ∈ List.replicate i true := by simp [hfound]
    cases List.eq_of_mem_replicate hmem

/-- A check that found no open region is the last. -/
theorem of_found_closed {i : Nat}
    (h : Trying n s₀ (List.replicate i true ++ [false]) listed others k p s) :
    p.verdict = [false] ∧ k = i := by
  have hfound := h.found_eq
  obtain hverdict | ⟨hverdict, hnone⟩ := p.verdict_cases <;> rw [hverdict] at hfound
  · have hmem : false ∈ List.replicate (k + p.abandoned) true := by
      rw [← List.append_nil (List.replicate _ _), ← hfound]
      simp
    cases List.eq_of_mem_replicate hmem
  · have hlength := congrArg List.length hfound
    simp only [List.length_append, List.length_replicate, hnone] at hlength
    exact ⟨hverdict, by omega⟩

end Trying

/-! ## From the stop back to rest -/

namespace Releasing

/-- Nothing is checked on the way back. -/
theorem finding_eq_nil (h : Releasing n p s) (m : System.Move) : s.finding m = [] := by
  unfold System.finding
  split
  · rw [h.agrees.place.vm]
    have hway := h.way
    cases p <;> first | rfl | cases hway
  · rfl

/-- The way back is entered in the ledger of the stop. -/
theorem run (h : Releasing n p s) (hledger : Ledger s₀ found listed others k p s) {j : Nat}
    (hrun : s.Interleaves n ms j t) :
    ∃ q, Releasing n q t ∧ Ledger s₀ found (listed ++ System.gather System.listing ms s)
      (others + ms.countP System.Move.isNotice) k q t := by
  induction hrun with
  | refl =>
    rw [System.gather, List.append_nil]
    exact ⟨p, h, hledger⟩
  | turn m hrun hm hstep ih =>
    obtain ⟨q, hq, hkept⟩ := ih
    obtain ⟨r, hr⟩ := hq.agrees.exists_turn hm hstep
    have hentered := hkept.turn hq.agrees hr
    rw [hq.finding_eq_nil, hq.abandons_eq_zero, List.append_nil] at hentered
    rw [hrun.gather_snoc _ hstep, System.Move.countP_snoc, ← List.append_assoc, ← Nat.add_assoc]
    exact ⟨r, hq.turn hr, hentered⟩

end Releasing

/-! ## What is seen of a stop -/

/-- Whether the companion holds the heap lock for an attempt. -/
def Stage.isAttempting : Stage → Bool
  | submitting | awaitingReply | cleaning | announcing | unlocking => true
  | _ => false

/-- Between two attempts nothing is owed but stalls. -/
theorem Position.of_not_isAttempting (h : p.stage.isAttempting = false) :
    p.owesCheck = 0 ∧ p.owesCleanup = 0 ∧ p.owesNotice = 0 := by
  cases p <;> first | exact ⟨rfl, rfl, rfl⟩ | cases h

/-- A safepoint is open only while the companion waits for the VM thread. -/
theorem Position.isOpen_eq_false (h : p.stage ≠ .awaitingReply) : p.isOpen = false := by
  cases p <;> first | rfl | exact absurd rfl h

theorem At.locked_eq (h : At p s) : s.lock.locked = s.companion.isAttempting := by
  rw [h.locked, h.companion]
  cases p <;> rfl

/-- What there is to see after `k` checks that found an open region, and none that did not. -/
structure HeldUp (n : Nat) (s₀ : System) (k : Nat) (listed : List Bool) (others : Nat)
    (s : System) : Prop where
  waiting : ∃ asleep, s.caller n = .awaiting .suspended asleep
  states : s.states = (.suspended, .resumed)
  checks : s.tally .lockerCheck = s₀.tally .lockerCheck + k
  /-- The heap lock is held for attempts only. -/
  locked : s.lock.locked = s.companion.isAttempting
  /-- The world runs but for safepoints of attempts. -/
  running : s.companion ≠ .awaitingReply → s.worldStopped = false ∧ s.atSafepoint = false
  /-- Between two attempts, every attempt so far has had its safepoint and its epilogue. -/
  between : s.companion.isAttempting = false →
    s.tally .safepointBegin = s₀.tally .safepointBegin + k ∧
      s.tally .cleanup = s₀.tally .cleanup + k ∧ listed.length = k
  /-- An abandoned attempt is stalled on before the next one. -/
  stalls : s.companion = .stalling ∨ s.companion = .locking →
    s.tally .lockerStall = s₀.tally .lockerStall + k
  notifications : s.lock.notifications = s₀.lock.notifications + others + listed.count true

/-- What there is to see when a caller is back from a stop with `k` attempts abandoned. -/
structure Stopped (s₀ : System) (k : Nat) (listed : List Bool) (others : Nat) (s : System) :
    Prop where
  states : s.states = (.suspended, .suspended)
  worldStopped : s.worldStopped = true
  locked : s.lock.locked = true
  checks : s.tally .lockerCheck = s₀.tally .lockerCheck + (k + 1)
  stalls : s.tally .lockerStall = s₀.tally .lockerStall + k
  safepoints : s.tally .safepointBegin = s₀.tally .safepointBegin + (k + 1)
  cleanups : s.tally .cleanup = s₀.tally .cleanup + k
  listed_length : listed.length = k
  notifications : s.lock.notifications = s₀.lock.notifications + others + listed.count true

/-- What there is to see when the caller is back from the restart. -/
structure Restarted (s₀ : System) (k : Nat) (listed : List Bool) (others : Nat) (s : System) :
    Prop where
  rests : s.Rests
  checks : s.tally .lockerCheck = s₀.tally .lockerCheck + (k + 1)
  stalls : s.tally .lockerStall = s₀.tally .lockerStall + k
  safepoints : s.tally .safepointBegin = s₀.tally .safepointBegin + (k + 1)
  cleanups : s.tally .cleanup = s₀.tally .cleanup + (k + 1)
  listed_length : listed.length = k + 1
  notifications : s.lock.notifications = s₀.lock.notifications + others + listed.count true

theorem Trying.heldUp {i : Nat} (h : Trying n s₀ (List.replicate i true) listed others k p s) :
    HeldUp n s₀ i listed others s := by
  obtain ⟨hverdict, hcount⟩ := h.of_found_open
  have hplace := h.halting.agrees.place
  have hledger := h.ledger
  have hparked : p.isParked = false := by cases p <;> first | rfl | cases hverdict
  have hreached : s.sync.reached = .resumed := by
    cases hreached : s.sync.reached with
    | resumed => rfl
    | suspended =>
      have hstops := h.halting.agrees.agreed.isParked h.halting.desired hreached
      exact absurd (hstops.symm.trans hparked) nofun
  refine ⟨?_, ?_, ?_, hplace.locked_eq, ?_, ?_, ?_, hledger.notifications⟩
  · obtain haway | ⟨asleep, hawaiting, -⟩ := h.halting.agrees.calls.call
    · exact absurd ((h.halting.isParked haway).symm.trans hparked) nofun
    · exact ⟨asleep, by rw [hawaiting, h.halting.desired]⟩
  · rw [System.states, h.halting.desired, hreached]
  · rw [hledger.checks, List.length_replicate]
  · intro hstage
    rw [hplace.companion] at hstage
    rw [hplace.worldStopped, hplace.atSafepoint, Position.isOpen_eq_false hstage]
    exact ⟨rfl, rfl⟩
  · intro hbetween
    rw [hplace.companion] at hbetween
    obtain ⟨hcheck, hcleanup, hnotice⟩ := Position.of_not_isAttempting hbetween
    have hsafepoints := hledger.safepoints
    have hcleanups := hledger.cleanups
    have hlistings := hledger.listings
    rw [List.length_replicate] at hsafepoints hcleanups
    refine ⟨?_, ?_, ?_⟩ <;> omega
  · intro hstage
    have hstalls := hledger.stalls
    rw [hplace.companion] at hstage
    rw [← hcount]
    obtain hstage | hstage := hstage <;> cases p <;> first
      | exact hstalls
      | cases hstage

theorem Trying.stopped {i : Nat}
    (h : Trying n s₀ (List.replicate i true ++ [false]) listed others k p s)
    (haway : s.caller n = .away) : Stopped s₀ i listed others s := by
  obtain ⟨-, hcount⟩ := h.of_found_closed
  obtain ⟨hstates, hstopped, hlocked⟩ := h.halting.stopped haway
  have hparked := h.halting.isParked haway
  obtain ⟨hchecks, hsafepoints, hstalls, hcleanups, hlistings, hnotifications⟩ := h.ledger
  cases p with
  | parked asleep =>
    simp only [List.length_append, List.length_replicate, List.length_singleton,
      Position.owesCheck, Position.owesStall, Position.owesCleanup, Position.owesNotice] at *
    refine ⟨hstates, hstopped, hlocked, ?_, ?_, ?_, ?_, ?_, hnotifications⟩ <;> omega
  | _ => cases hparked

theorem Releasing.restarted {i : Nat} (h : Releasing n p s)
    (hledger : Ledger s₀ (List.replicate i true ++ [false]) listed others i p s)
    (haway : s.caller n = .away) : Restarted s₀ i listed others s := by
  have hresting := h.isResting haway
  obtain ⟨hchecks, hsafepoints, hstalls, hcleanups, hlistings, hnotifications⟩ := hledger
  have howes : p.owesCheck = 0 ∧ p.owesStall false = 0 ∧ p.owesCleanup = 0 ∧ p.owesNotice = 0 := by
    cases p <;> first | exact ⟨rfl, rfl, rfl, rfl⟩ | cases hresting
  rw [h.calm] at hstalls
  simp only [List.length_append, List.length_replicate, List.length_singleton, howes] at *
  refine ⟨h.rests haway, ?_, ?_, ?_, ?_, ?_, hnotifications⟩ <;> omega

/-! ## Stops that are retried -/

/-- A restart that is asked for in `s`, with what there is to see once it is through. -/
structure Restartable (n : Nat) (s₀ : System) (k : Nat) (listed : List Bool) (others : Nat)
    (s t : System) : Prop where
  requested : s.step (.request n .resumed true) = some t
  goesOn : ∀ {ms j u}, t.Interleaves n ms j u → GoesOn n .resumed ms j u
  restarted : ∀ {ms j u}, t.Interleaves n ms j u → u.caller n = .away →
    Restarted s₀ k (listed ++ System.gather System.listing ms t)
      (others + ms.countP System.Move.isNotice) u

/-- A stop that was asked for at rest, in whatever order the threads take their turns, and whenever
regions are opened and left. -/
structure Retried (n : Nat) (s t : System) : Prop where
  requested : s.step (.request n .suspended true) = some t
  goesOn : ∀ {ms j u}, t.Interleaves n ms j u → GoesOn n .suspended ms j u
  /-- All checks find an open region, up to one that does not and is the last. -/
  found : ∀ {ms j u}, t.Interleaves n ms j u → ∃ k,
    System.gather System.finding ms t = List.replicate k true ∨
      System.gather System.finding ms t = List.replicate k true ++ [false]
  heldUp : ∀ {ms j u k}, t.Interleaves n ms j u →
    System.gather System.finding ms t = List.replicate k true →
      HeldUp n s k (System.gather System.listing ms t) (ms.countP System.Move.isNotice) u
  /-- Once no open region was found nothing keeps the caller from coming back. -/
  free : ∀ {ms j u k}, t.Interleaves n ms j u →
    System.gather System.finding ms t = List.replicate k true ++ [false] → u.caller n ≠ .away →
      ∃ party v, (System.Move.proceed party).isTurn n = true ∧ u.step (.proceed party) = some v
  stopped : ∀ {ms j u k}, t.Interleaves n ms j u →
    System.gather System.finding ms t = List.replicate k true ++ [false] → u.caller n = .away →
      Stopped s k (System.gather System.listing ms t) (ms.countP System.Move.isNotice) u ∧
        ∃ v, Restartable n s k (System.gather System.listing ms t)
          (ms.countP System.Move.isNotice) u v
  /-- Any number of attempts can be abandoned before one stops the world. -/
  attained : ∀ k, ∃ ms u, t.Interleaves n ms k u ∧
    System.gather System.finding ms t = List.replicate k true ++ [false] ∧ u.caller n = .away

/-- Within an attempt that stops the world the companion waits for the VM thread. -/
theorem Position.stage_of_verdict (h : p.verdict = [false]) : p.stage = .awaitingReply := by
  cases p <;> first | rfl | cases h

theorem Trying.restartable {i : Nat}
    (h : Trying n s₀ (List.replicate i true ++ [false]) listed others k p s)
    (haway : s.caller n = .away) : ∃ t, Restartable n s₀ i listed others s t := by
  obtain ⟨-, rfl⟩ := h.of_found_closed
  obtain ⟨t, hrequest, hreleasing⟩ := h.halting.restart haway
  have hledger := h.ledger.request hrequest
  refine ⟨t, System.step_request_eq_some_iff.mpr ⟨haway, hrequest⟩, hreleasing.goesOn, ?_⟩
  intro ms j u hturns hback
  obtain ⟨q, hq, hentered⟩ := hreleasing.run hledger hturns
  exact hq.restarted hentered hback

/-- A stop is retried until no open region is found, and leaves one check, one safepoint and one
epilogue for every attempt. -/
theorem pause_retried (h : s.Rests) (n : Nat) : ∃ t, Retried n s t := by
  obtain ⟨p, hresting, hreleasing⟩ := h.releasing n
  obtain ⟨t, hrequest, hhalting⟩ := hreleasing.stop (h.caller n)
  have hopened := (Ledger.opened hresting hreleasing.calm).request hrequest
  have hnone : p.awake.abandoned = 0 ∧ p.awake.verdict = [] := by
    cases p <;> first | exact ⟨rfl, rfl⟩ | cases hresting
  have htrying : Trying n s [] [] 0 0 p.awake t :=
    ⟨hhalting, hopened, by rw [hnone.1, hnone.2]; rfl⟩
  refine ⟨t, System.step_request_eq_some_iff.mpr ⟨h.caller n, hrequest⟩, hhalting.goesOn,
    ?_, ?_, ?_, ?_, ?_⟩
  · intro ms j u hturns
    obtain ⟨q, hq⟩ := htrying.run hturns
    have hfound := hq.found_eq
    obtain hverdict | ⟨hverdict, -⟩ := q.verdict_cases <;> rw [hverdict] at hfound
    · exact ⟨_, .inl (by simpa using hfound)⟩
    · exact ⟨_, .inr hfound⟩
  · intro ms j u k hturns hfound
    obtain ⟨q, hq⟩ := htrying.run hturns
    rw [hfound] at hq
    exact hq.heldUp
  · intro ms j u k hturns hfound hcalling
    obtain ⟨q, hq⟩ := htrying.run hturns
    rw [hfound] at hq
    refine (hhalting.goesOn hturns).free hcalling fun hstall => ?_
    have hstage := hq.halting.agrees.place.companion.trans
      (Position.stage_of_verdict hq.of_found_closed.1)
    exact absurd (hstage.symm.trans hstall.2.1) nofun
  · intro ms j u k hturns hfound haway
    obtain ⟨q, hq⟩ := htrying.run hturns
    rw [hfound] at hq
    exact ⟨hq.stopped haway, hq.restartable haway⟩
  · have hsync := System.sync_of_request hrequest
    have hcalm : t.sync.retryPending = false := by rw [hsync, hreleasing.calm]
    refine hhalting.exists_run ?_ ?_ hcalm <;> cases p <;> first | rfl | cases hresting

/-- What follows on a stop for which a region is open when the VM thread looks. The first attempt is
abandoned while references are pending, the region is left, and the second attempt is the last. -/
def System.heldUpMoves : List System.Move :=
  [.setRegion true, .setPendingList true] ++ List.replicate 6 (.proceed .companion) ++
    List.replicate 7 (.proceed .vmThread) ++ List.replicate 7 (.proceed .companion) ++
    [.setRegion false] ++ List.replicate 4 (.proceed .companion) ++
    List.replicate 5 (.proceed .vmThread) ++ [.proceed (.caller 0)]

/-- What follows on the restart of a stopped world. -/
def System.releasedMoves : List System.Move :=
  List.replicate 3 (.proceed .vmThread) ++ List.replicate 4 (.proceed .companion) ++
    [.proceed (.caller 0)]

/-- A stop from the initial state whose first attempt finds a region open, and the restart after
it. -/
theorem pause_retried_from_initial :
    System.initial.Rests ∧ ∃ t u v w, Retried 0 .initial t ∧
      t.Interleaves 0 System.heldUpMoves 1 u ∧
      System.gather System.finding System.heldUpMoves t = [true, false] ∧ u.caller 0 = .away ∧
      Stopped .initial 1 [true] 0 u ∧ Restartable 0 .initial 1 [true] 0 u v ∧
      v.Interleaves 0 System.releasedMoves 0 w ∧ w.caller 0 = .away ∧
      Restarted .initial 1 [true, true] 0 w := by
  obtain ⟨t, ht⟩ := pause_retried .initial 0
  have hstop : ∃ t u, System.initial.step (.request 0 .suspended true) = some t ∧
      t.follow 0 System.heldUpMoves = some (1, u) ∧
      System.gather System.finding System.heldUpMoves t = [true, false] ∧
      System.gather System.listing System.heldUpMoves t = [true] ∧ u.caller 0 = .away ∧
      ∃ v w, u.step (.request 0 .resumed true) = some v ∧
        v.follow 0 System.releasedMoves = some (0, w) ∧
        System.gather System.listing System.releasedMoves v = [true] ∧ w.caller 0 = .away :=
    ⟨_, _, rfl, rfl, rfl, rfl, rfl, _, _, rfl, rfl, rfl, rfl⟩
  obtain ⟨t', u, hrequest, hfollow, hfound, hlisted, haway, v, w, hrestart, hfollow', hlisted',
    haway'⟩ := hstop
  obtain rfl : t' = t := Option.some.inj (hrequest.symm.trans ht.requested)
  have hturns : t'.Interleaves 0 System.heldUpMoves 1 u :=
    System.Interleaves.refl.follow hfollow
  have hturns' : v.Interleaves 0 System.releasedMoves 0 w :=
    System.Interleaves.refl.follow hfollow'
  obtain ⟨hstopped, v', hv⟩ := ht.stopped (k := 1) hturns hfound haway
  obtain rfl : v' = v := Option.some.inj (hv.requested.symm.trans hrestart)
  have hrestarted := hv.restarted hturns' haway'
  rw [hlisted] at hstopped hv hrestarted
  rw [hlisted'] at hrestarted
  exact ⟨.initial, t', u, v', w, ht, hturns, hfound, haway, hstopped, hv, hturns', haway',
    hrestarted⟩

end HeapBridge.Pause
