import HeapBridge.Proofs.Pause.Turns

/-!
# What a stopped world promises

A caller that was told that the world has stopped may rely on it until it asks for the world back.
That holds as long as the world is not asked to stop again while it is on its way back from the last
stop. A request looks at what was reached and not at what is under way, so one that comes too early
returns at once, and the world runs on.
-/
namespace HeapBridge.Pause
variable {n : Nat} {p q : Position} {s t : System} {m : System.Move}

/-! ## Calls -/

namespace System

/-- Whether the VM thread waits in an open safepoint for the end of the pause. -/
def isParked (s : System) : Bool :=
  match s.vm.duties with
  | .park _ :: _ => s.atSafepoint && s.worldStopped
  | _ => false

/-- Whether the world is only asked to stop when it runs, or when it stands still yet. -/
def isCareful (s : System) : Move → Bool
  | .request _ .suspended _ => s.sync.reached = .resumed || s.isParked
  | _ => true

/-- Calls of the `n`-th caller. -/
def Move.isCall (n : Nat) : Move → Bool
  | .request x _ _ | .waitFor x _ => x = n
  | _ => false

theorem request_eq_ok_iff {state : WorldState} {wait : Bool} :
    s.request n state wait = .ok t ↔ s.sync.desired ≠ state ∧
      t = if wait then { s.wakeAll with sync := { s.sync with desired := state } }.awaitState n state
        else { s.wakeAll with sync := { s.sync with desired := state } } := by
  unfold request
  split
  case isTrue h => simp [h]
  case isFalse h => simp [h, eq_comm]

/-- What is not wanted yet can be asked for. -/
theorem exists_request {state : WorldState} (h : s.sync.desired ≠ state) (n : Nat) (wait : Bool) :
    ∃ t, s.request n state wait = .ok t := ⟨_, request_eq_ok_iff.mpr ⟨h, rfl⟩⟩

theorem waitFor_eq_ok_iff {state : WorldState} :
    s.waitFor n state = .ok t ↔ s.sync.desired = state ∧ t = s.awaitState n state := by
  unfold waitFor
  split
  case isTrue h => simp [h, eq_comm]
  case isFalse h => simp [h]

/-- A call is made by a caller that is in no other. -/
theorem step_request_eq_some_iff {state : WorldState} {wait : Bool} :
    s.step (.request n state wait) = some t ↔
      s.caller n = .away ∧ s.request n state wait = .ok t := by
  cases hrequest : s.request n state wait <;> simp [step, hrequest, Except.toOption]

theorem step_waitFor_eq_some_iff {state : WorldState} :
    s.step (.waitFor n state) = some t ↔ s.caller n = .away ∧ s.waitFor n state = .ok t := by
  cases hwait : s.waitFor n state <;> simp [step, hwait, Except.toOption]

theorem sync_of_request {state : WorldState} {wait : Bool}
    (h : s.request n state wait = .ok t) : t.sync = { s.sync with desired := state } := by
  obtain ⟨-, rfl⟩ := request_eq_ok_iff.mp h
  split <;> rfl

theorem caller_awaitState_eq_away_iff {state : WorldState} :
    (s.awaitState n state).caller n = .away ↔ s.sync.reached = state := by
  by_cases h : s.sync.reached = state <;> simp [awaitState, h]

/-- A request that waits returns at once if the world is in the state. -/
theorem caller_of_request_eq_away_iff {state : WorldState}
    (h : s.request n state true = .ok t) : t.caller n = .away ↔ s.sync.reached = state := by
  obtain ⟨-, rfl⟩ := request_eq_ok_iff.mp h
  rw [if_pos rfl, caller_awaitState_eq_away_iff]

end System

theorem At.isParked_eq (h : At p s) : s.isParked = p.isParked := by
  rw [System.isParked, h.vm, h.atSafepoint, h.worldStopped]
  cases p <;> rfl

/-- A request leaves both threads where they are, and awake. -/
theorem At.request (h : At p s) {state : WorldState} {wait : Bool}
    (hrequest : s.request n state wait = .ok t) : At p.awake t := by
  obtain ⟨-, rfl⟩ := System.request_eq_ok_iff.mp hrequest
  split <;> exact h.wakeAll.congr rfl rfl rfl rfl rfl rfl rfl rfl

/-- The threads agree on a stopped world that is wanted so only while it is held in the park. -/
theorem Position.Agreed.isParked (h : p.Agreed s.sync) (hdesired : s.sync.desired = .suspended)
    (hreached : s.sync.reached = .suspended) : p.isParked = true := by
  have hends : ¬ s.sync.Ends := by simp [Handshake.Ends, hdesired, hreached]
  cases p with
  | parked _ => rfl
  | idle asleep => cases asleep <;> simp [Agreed, hreached] at h
  | leaving | replying | cleaning | announcing | unlocking | closing => exact absurd h hends
  | _ => simp [Agreed, hreached] at h

namespace Agrees

theorem awaitState (h : Agrees n p s) : Agrees n p (s.awaitState n s.sync.desired) :=
  ⟨h.place.congr rfl rfl rfl rfl rfl rfl rfl rfl, h.agreed, h.calls.awaitState⟩

theorem isParked (h : Agrees n p s) (hdesired : s.sync.desired = .suspended)
    (hreached : s.sync.reached = .suspended) : s.isParked = true :=
  h.place.isParked_eq.trans (h.agreed.isParked hdesired hreached)

/-- Another state is asked for, by a caller that does not wait yet. -/
theorem ask (h : Agrees n p s) (haway : s.caller n = .away) {state : WorldState}
    (hcareful : state = .suspended → s.sync.reached = .suspended → p.isParked = true) :
    Agrees n p.awake { s.wakeAll with sync := { s.sync with desired := state } } := by
  refine ⟨h.place.wakeAll.congr rfl rfl rfl rfl rfl rfl rfl rfl, h.agreed.ask hcareful, ?_, ?_⟩
  · exact .inl (by simp only [System.wakeAll, haway, Caller.awake])
  · intro x hx
    simp only [System.wakeAll, h.calls.others x hx, Caller.awake]

/-- A careful request keeps the agreement. -/
theorem request (h : Agrees n p s) (haway : s.caller n = .away) {state : WorldState} {wait : Bool}
    (hcareful : s.isCareful (.request n state wait) = true)
    (hrequest : s.request n state wait = .ok t) : Agrees n p.awake t := by
  have hcalm : state = .suspended → s.sync.reached = .suspended → p.isParked = true := by
    rintro rfl hreached
    simpa [System.isCareful, hreached, h.place.isParked_eq] using hcareful
  obtain ⟨-, rfl⟩ := System.request_eq_ok_iff.mp hrequest
  split
  · exact (h.ask haway hcalm).awaitState
  · exact h.ask haway hcalm

end Agrees

/-! ## Runs -/

/-- Whether a caller may rely on a stopped world after a move: a call for it has returned, and the
world has not been asked back. -/
def System.relies (n : Nat) (relied : Bool) (s : System) (m : System.Move) (t : System) : Bool :=
  match m with
  | .request _ .resumed _ => false
  | .request _ .suspended true | .waitFor _ .suspended => relied || t.caller n = .away
  | .proceed (.caller _) =>
    relied || (s.caller n = .awaiting .suspended false && t.caller n = .away)
  | _ => relied

/-- Runs in which one caller calls as it likes, within what is allowed. -/
inductive Runs (n : Nat) (allowed : System → System.Move → Bool) : Bool → System → Prop
  | start : Runs n allowed false .initial
  | move {relied : Bool} {s t : System} (m : System.Move) (h : Runs n allowed relied s)
    (hown : (m.isTurn n || m.isCall n) = true) (hallowed : allowed s m = true)
    (hstep : s.step m = some t) : Runs n allowed (s.relies n relied m t) t

/-- Where a careful run can get: the threads agree, and a world that is relied on is stopped and
still wanted so. -/
structure Kept (n : Nat) (relied : Bool) (p : Position) (s : System) : Prop where
  agrees : Agrees n p s
  desired : relied = true → s.sync.desired = .suspended
  reached : relied = true → s.sync.reached = .suspended

namespace Kept
variable {relied : Bool}

theorem turn (h : Kept n relied p s) (hturn : Turn n p s m q t) :
    Kept n (s.relies n relied m t) q t := by
  have hstays : relied = true →
      t.sync.desired = .suspended ∧ t.sync.reached = .suspended := by
    intro hrelied
    have hparked := h.agrees.agreed.isParked (h.desired hrelied) (h.reached hrelied)
    exact ⟨hturn.desired_eq.trans (h.desired hrelied),
      (hturn.reached_eq hparked).trans (h.reached hrelied)⟩
  suffices hstill : s.relies n relied m t = true →
      t.sync.desired = .suspended ∧ t.sync.reached = .suspended from
    ⟨h.agrees.of_turn hturn, fun hrelies => (hstill hrelies).1, fun hrelies => (hstill hrelies).2⟩
  intro hrelies
  cases hturn with
  | go hnext =>
    cases hvm : p.isVmThread <;> rw [Position.party, hvm] at hrelies <;> exact hstays hrelies
  | look hawaiting =>
    simp only [System.relies, Bool.or_eq_true, Bool.and_eq_true, decide_eq_true_eq] at hrelies
    obtain hrelied | ⟨hcaller, haway⟩ := hrelies
    · exact hstays hrelied
    · have hdesired : s.sync.desired = .suspended := by
        rw [hawaiting] at hcaller
        exact (Caller.awaiting.inj hcaller).1
      exact ⟨hdesired, (System.caller_awaitState_eq_away_iff.mp haway).trans hdesired⟩
  | _ => exact hstays hrelies

/-- A careful request. -/
theorem request (h : Kept n relied p s) {state : WorldState} {wait : Bool}
    (hcareful : s.isCareful (.request n state wait) = true)
    (hstep : s.step (.request n state wait) = some t) :
    Kept n (s.relies n relied (.request n state wait) t) p.awake t := by
  obtain ⟨haway, hrequest⟩ := System.step_request_eq_some_iff.mp hstep
  obtain ⟨hnew, -⟩ := System.request_eq_ok_iff.mp hrequest
  have hsync := System.sync_of_request hrequest
  suffices hstopped : s.relies n relied (.request n state wait) t = true →
      state = .suspended ∧ s.sync.reached = .suspended by
    refine ⟨h.agrees.request haway hcareful hrequest, ?_, ?_⟩
    · exact fun hrelies => by rw [hsync, (hstopped hrelies).1]
    · exact fun hrelies => by rw [hsync, (hstopped hrelies).2]
  intro hrelies
  cases state with
  | resumed => cases hrelies
  | suspended =>
    -- a world that was relied on is wanted stopped, and could not be asked for again
    have hfresh : relied = false := by
      cases relied with
      | true => exact absurd (h.desired rfl) hnew
      | false => rfl
    cases wait with
    | false => exact absurd (hrelies.symm.trans hfresh) nofun
    | true =>
      simp only [System.relies, hfresh, Bool.false_or, decide_eq_true_eq] at hrelies
      exact ⟨rfl, (System.caller_of_request_eq_away_iff hrequest).mp hrelies⟩

theorem waitFor (h : Kept n relied p s) {state : WorldState}
    (hstep : s.step (.waitFor n state) = some t) :
    Kept n (s.relies n relied (.waitFor n state) t) p t := by
  obtain ⟨-, hwait⟩ := System.step_waitFor_eq_some_iff.mp hstep
  obtain ⟨rfl, rfl⟩ := System.waitFor_eq_ok_iff.mp hwait
  suffices hstopped : s.relies n relied (.waitFor n s.sync.desired) (s.awaitState n s.sync.desired) =
      true → s.sync.desired = .suspended ∧ s.sync.reached = .suspended from
    ⟨h.agrees.awaitState, fun hrelies => (hstopped hrelies).1, fun hrelies => (hstopped hrelies).2⟩
  intro hrelies
  cases hdesired : s.sync.desired with
  | resumed =>
    rw [hdesired] at hrelies
    exact absurd ((h.desired hrelies).symm.trans hdesired) nofun
  | suspended =>
    rw [hdesired] at hrelies
    simp only [System.relies, Bool.or_eq_true, decide_eq_true_eq] at hrelies
    obtain hrelied | haway := hrelies
    · exact ⟨rfl, h.reached hrelied⟩
    · exact ⟨rfl, System.caller_awaitState_eq_away_iff.mp haway⟩

end Kept

/-- What a careful run keeps, by induction over its moves. -/
theorem Runs.exists_kept {relied : Bool} (h : Runs n System.isCareful relied s) :
    ∃ p, Kept n relied p s := by
  induction h with
  | start => exact ⟨.top, .initial n, nofun, nofun⟩
  | move m _ hown hcareful hstep ih =>
    obtain ⟨p, hkept⟩ := ih
    cases hturn : m.isTurn n with
    | true =>
      obtain ⟨q, hq⟩ := hkept.agrees.exists_turn hturn hstep
      exact ⟨q, hkept.turn hq⟩
    | false =>
      rw [hturn, Bool.false_or] at hown
      cases m with
      | request x state wait =>
        obtain rfl : x = n := by simpa [System.Move.isCall] using hown
        exact ⟨p.awake, hkept.request hcareful hstep⟩
      | waitFor x state =>
        obtain rfl : x = n := by simpa [System.Move.isCall] using hown
        exact ⟨p, hkept.waitFor hstep⟩
      | _ => cases hown

/-- What holds at every point of a careful run. -/
structure Promise (n : Nat) (relied : Bool) (s : System) : Prop where
  /-- None of the companion's assertions has failed. -/
  unbroken : ∀ why, s.companion ≠ .failed why
  /-- A world that is relied on is held in the park, in an open safepoint. -/
  parked : relied = true → s.isParked = true
  /-- Care is needed: of requests that wait, just those without it return on a world that runs on.
  -/
  careful_iff : ∀ t, s.step (.request n .suspended true) = some t →
    (s.isCareful (.request n .suspended true) = true ↔ (t.caller n = .away → t.isParked = true))

theorem Agrees.careful_iff (h : Agrees n p s)
    (hstep : s.step (.request n .suspended true) = some t) :
    s.isCareful (.request n .suspended true) = true ↔
      (t.caller n = .away → t.isParked = true) := by
  obtain ⟨haway, hrequest⟩ := System.step_request_eq_some_iff.mp hstep
  have hsync := System.sync_of_request hrequest
  rw [System.caller_of_request_eq_away_iff hrequest]
  constructor
  · intro hcareful hreached
    exact (h.request haway hcareful hrequest).isParked (by rw [hsync]) (by rw [hsync, hreached])
  · intro htrue
    cases hreached : s.sync.reached with
    | resumed => simp [System.isCareful, hreached]
    | suspended =>
      have hparked : s.isParked = t.isParked := by
        rw [h.place.isParked_eq, (h.place.request hrequest).isParked_eq]
        cases p <;> rfl
      simp [System.isCareful, hparked, htrue hreached]

/-! ## Runs on paper -/

/-- Follows moves of a run, as long as they can be made and are allowed. -/
def System.replay (n : Nat) (allowed : System → Move → Bool) :
    List Move → Bool × System → Option (Bool × System)
  | [], state => some state
  | m :: ms, (relied, s) =>
    if (m.isTurn n || m.isCall n) && allowed s m then
      (s.step m).bind fun t => replay n allowed ms (s.relies n relied m t, t)
    else none

theorem Runs.replay {allowed : System → System.Move → Bool} {relied relied' : Bool}
    (ms : List System.Move) (h : Runs n allowed relied s)
    (hreplay : System.replay n allowed ms (relied, s) = some (relied', t)) :
    Runs n allowed relied' t := by
  induction ms generalizing relied s with
  | nil =>
    cases hreplay
    exact h
  | cons m ms ih =>
    rw [System.replay] at hreplay
    split at hreplay
    case isFalse => cases hreplay
    case isTrue hm =>
      obtain ⟨hown, hallowed⟩ := Bool.and_eq_true_iff.mp hm
      obtain ⟨u, hstep, hrest⟩ := Option.bind_eq_some_iff.mp hreplay
      exact ih (h.move m hown hallowed hstep) hrest

/-- A stop of a running world, up to its return. -/
def System.stopMoves : List System.Move :=
  [.request 0 .suspended true] ++ List.replicate 6 (.proceed .companion) ++
    List.replicate 5 (.proceed .vmThread) ++ [.proceed (.caller 0)]

/-- A restart of a stopped world, up to its return. -/
def System.restartMoves : List System.Move :=
  [.request 0 .resumed true] ++ List.replicate 3 (.proceed .vmThread) ++
    List.replicate 4 (.proceed .companion) ++ [.proceed (.caller 0)]

/-- A stop, a restart that is not waited for, and a stop that comes while the VM thread is about to
close its safepoint. -/
def System.hastyMoves : List System.Move :=
  System.stopMoves ++
    [.request 0 .resumed false, .proceed .vmThread, .request 0 .suspended true]

/-- A caller may rely on a stopped world until it asks for the world back, whatever the threads do,
if it never asks for a stop while the world is on its way back. -/
theorem stopped_until_asked_back {relied : Bool} (h : Runs n System.isCareful relied s) :
    Promise n relied s := by
  obtain ⟨p, hagrees, hdesired, hreached⟩ := h.exists_kept
  constructor
  · intro why hwhy
    rw [hagrees.place.companion] at hwhy
    cases p <;> cases hwhy
  · exact fun hrelied => hagrees.isParked (hdesired hrelied) (hreached hrelied)
  · exact fun t hstep => hagrees.careful_iff hstep

/-- A world is stopped, restarted and stopped again. -/
theorem stopped_until_asked_back_again :
    ∃ s, Runs 0 System.isCareful true s ∧ Promise 0 true s := by
  have hreplay : ∃ s, System.replay 0 System.isCareful
      (System.stopMoves ++ System.restartMoves ++ System.stopMoves) (false, .initial) =
      some (true, s) := ⟨_, rfl⟩
  obtain ⟨s, hs⟩ := hreplay
  have hruns := Runs.start.replay _ hs
  exact ⟨s, hruns, stopped_until_asked_back hruns⟩

/-- Without care the caller relies on a world that runs on, and the companion breaks off. -/
theorem hasty_stop_is_broken :
    (∃ s, Runs 0 (fun _ _ => true) true s ∧ s.isParked = false) ∧
      ∃ s, Runs 0 (fun _ _ => true) true s ∧ s.companion = .failed .resumeNotRequested := by
  have hhasty : ∃ s, System.replay 0 (fun _ _ => true) System.hastyMoves (false, .initial) =
      some (true, s) ∧ s.isParked = false := ⟨_, rfl, rfl⟩
  have hend : ∃ s, System.replay 0 (fun _ _ => true) (System.hastyMoves ++
      List.replicate 2 (.proceed .vmThread) ++ List.replicate 4 (.proceed .companion))
      (false, .initial) = some (true, s) ∧ s.companion = .failed .resumeNotRequested :=
    ⟨_, rfl, rfl⟩
  obtain ⟨s, hs, hparked⟩ := hhasty
  obtain ⟨t, ht, hfailed⟩ := hend
  exact ⟨⟨s, Runs.start.replay _ hs, hparked⟩, ⟨t, Runs.start.replay _ ht, hfailed⟩⟩

end HeapBridge.Pause
