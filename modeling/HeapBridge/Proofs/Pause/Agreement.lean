import HeapBridge.Proofs.Pause.Position

/-!
# Agreement

At every position the threads agree on certain things: whether the world counts as stopped, whether
a pause was abandoned, and what the one who sleeps there may be left asleep for. Whoever moves keeps
the agreement. Only a request can break it: one that wants the world stopped again before it has
been restarted. Such a request is kept out here, and what comes of it is shown elsewhere.
-/
namespace HeapBridge.Pause
variable {n : Nat} {p q : Position} {s t : System}

/-- The pause was abandoned, or it is over and the world is wanted back. -/
def Handshake.Ends (h : Handshake) : Prop :=
  if h.retryPending then h.reached = .resumed else h.reached = .suspended ∧ h.desired = .resumed

theorem Handshake.Ends.ask {h : Handshake} (hends : h.Ends) {state : WorldState}
    (hcareful : state = .suspended → h.reached ≠ .suspended) :
    Handshake.Ends { h with desired := state } := by
  cases hretry : h.retryPending
  · simp only [Ends, hretry] at hends
    have hstate : state = .resumed := by
      cases state
      · exact absurd hends.1 (hcareful rfl)
      · rfl
    simpa [Ends, hretry] using ⟨hends.1, hstate⟩
  · simpa [Ends, hretry] using hends

/-- What the threads agree upon at a position. A thread that is left asleep is not wanted, and a
stopped world is only left because it is wanted back. -/
def Position.Agreed : Position → Handshake → Prop
  | top, h | choosing, h | probing, h | stalling, h | clearing, h => h.reached = .resumed
  | entering, h | idle false, h | locking, h | submitting, h | ordered, h | opening, h | entered, h
  | checking, h | postponing, h | reporting, h => h.reached = .resumed ∧ h.retryPending = false
  | idle true, h => h.reached = .resumed ∧ h.retryPending = false ∧ h.desired = .resumed
  | parked false, h => h.reached = .suspended ∧ h.retryPending = false
  | parked true, h => h.reached = .suspended ∧ h.retryPending = false ∧ h.desired = .suspended
  | leaving, h | replying, h | cleaning, h | announcing, h | unlocking, h | closing, h => h.Ends

namespace Position

/-- Whether the VM thread waits for the end of the pause. -/
def isParked : Position → Bool
  | parked _ => true
  | _ => false


/-- A step keeps the agreement. -/
theorem Agreed.next (h : p.Agreed s.sync) (hedge : Edge s p q) : q.Agreed (p.effect s).sync := by
  cases hedge with
  | top_entering hretry => exact ⟨h, hretry⟩
  | entering_choosing _ | idle_choosing _ | postponing => exact h.1
  | entering_idle hdesired | idle_idle hdesired => exact ⟨h.1, h.2, hdesired⟩
  | probing_stalling hretry => simpa [effect, hretry, Agreed] using h
  | probing_locking hretry => simpa [effect, hretry, Agreed] using h
  | clearing => exact ⟨h, rfl⟩
  | reporting_leaving hdesired =>
    simpa [Agreed, Handshake.Ends, effect, System.reportStopped, h.2] using hdesired
  | reporting_parked hdesired => exact ⟨rfl, h.2, hdesired⟩
  | parked_leaving hdesired =>
    simpa [Agreed, Handshake.Ends, effect, h.2] using ⟨h.1, hdesired⟩
  | parked_parked hdesired => exact ⟨h.1, h.2, hdesired⟩
  | closing =>
    cases hretry : s.sync.retryPending
    · simp [Agreed, effect, hretry]
    · simpa [Agreed, Handshake.Ends, effect, hretry] using h
  | _ => exact h

/-- The companion has nothing to break off for. -/
theorem Agreed.breach?_eq_none (h : p.Agreed s.sync) : p.breach? s = none := by
  cases p with
  | entering => exact if_pos h.1
  | idle asleep =>
    cases asleep
    · exact if_neg fun hbreach => hbreach.2 h.1
    · rfl
  | closing =>
    cases hretry : s.sync.retryPending
    · simp only [Agreed, Handshake.Ends, hretry] at h
      simp [breach?, hretry, h.1, h.2]
    · simp [breach?, hretry]
  | _ => rfl

/-- Both threads look again. -/
theorem Agreed.awake (h : p.Agreed s.sync) : p.awake.Agreed s.sync := by
  cases p with
  | idle asleep =>
    cases asleep
    · exact h
    · exact ⟨h.1, h.2.1⟩
  | parked asleep =>
    cases asleep
    · exact h
    · exact ⟨h.1, h.2.1⟩
  | _ => exact h

/-- Something else is wanted, and both threads look again. The world is not wanted stopped while it
is on its way back. -/
theorem Agreed.ask {h : Handshake} (hagreed : p.Agreed h) {state : WorldState}
    (hcareful : state = .suspended → h.reached = .suspended → p.isParked = true) :
    p.awake.Agreed { h with desired := state } := by
  cases p with
  | idle asleep =>
    cases asleep
    · exact hagreed
    · exact ⟨hagreed.1, hagreed.2.1⟩
  | parked asleep =>
    cases asleep
    · exact hagreed
    · exact ⟨hagreed.1, hagreed.2.1⟩
  | leaving | replying | cleaning | announcing | unlocking | closing =>
    exact Handshake.Ends.ask hagreed fun hstate hreached => nomatch hcareful hstate hreached
  | _ => exact hagreed

end Position

/-! ## Callers -/

/-- Only one caller calls. It waits for what was asked for last, and does not sleep once that is
reached. -/
structure Calls (n : Nat) (s : System) : Prop where
  call : s.caller n = .away ∨ ∃ asleep, s.caller n = .awaiting s.sync.desired asleep ∧
    (asleep = true → s.sync.reached ≠ s.sync.desired)
  others : ∀ x, x ≠ n → s.caller x = .away

namespace Calls

theorem initial (n : Nat) : Calls n .initial := ⟨.inl rfl, fun _ _ => rfl⟩

/-- What nobody looks at can change. -/
theorem congr (h : Calls n s) (hcaller : t.caller = s.caller)
    (hdesired : t.sync.desired = s.sync.desired) (hreached : t.sync.reached = s.sync.reached) :
    Calls n t := by
  obtain ⟨hcall, hothers⟩ := h
  rw [← hcaller, ← hdesired, ← hreached] at hcall
  rw [← hcaller] at hothers
  exact ⟨hcall, hothers⟩

/-- Callers who have been woken look again, whatever was reached meanwhile. -/
theorem woken (h : Calls n s) (hcaller : t.caller = fun x => (s.caller x).awake)
    (hdesired : t.sync.desired = s.sync.desired) : Calls n t := by
  constructor
  · rw [hcaller, hdesired]
    obtain haway | ⟨asleep, hawaiting, -⟩ := h.call
    · exact .inl (by simp only [haway, Caller.awake])
    · exact .inr ⟨false, by simp only [hawaiting, Caller.awake], nofun⟩
  · intro x hx
    rw [hcaller]
    simp only [h.others x hx, Caller.awake]

/-- The caller looks. -/
theorem awaitState (h : Calls n s) : Calls n (s.awaitState n s.sync.desired) := by
  constructor
  · by_cases hreached : s.sync.reached = s.sync.desired
    · exact .inl (by simp [System.awaitState, hreached])
    · exact .inr ⟨true, by simp [System.awaitState, hreached],
        fun _ => by simpa [System.awaitState] using hreached⟩
  · intro x hx
    simp [System.awaitState, hx, h.others x hx]

theorem effect (h : Calls n s) (p : Position) : Calls n (p.effect s) := by
  cases p with
  | probing =>
    rw [Position.effect]
    split <;> exact h.congr rfl rfl rfl
  | reporting => exact h.woken rfl rfl
  | closing =>
    rw [Position.effect]
    split
    · exact h
    · exact h.woken rfl rfl
  | _ => exact h.congr rfl rfl rfl

end Calls
end HeapBridge.Pause
