import HeapBridge.Proofs.Pause.Ledger

/-!
# Rounds

A stop can be held up as often as one likes: whoever opens a region before every check and leaves it
before the companion stalls on it sends the threads round once more. Once the region stays closed
the way leads into the park, and the caller comes back.
-/
namespace HeapBridge.Pause
variable {n k : Nat} {p q : Position} {s₀ s t : System} {m : System.Move} {found : List Bool}

/-- Some run leads from `s₀` to a position, with what its checks have found. -/
structure Leads (n : Nat) (s₀ : System) (found : List Bool) (k : Nat) (p : Position) (s : System) :
    Prop where
  agrees : Agrees n p s
  run : ∃ ms, s₀.Interleaves n ms k s ∧ System.gather System.finding ms s₀ = found

namespace Leads

theorem refl (h : Agrees n p s) : Leads n s [] 0 p s := ⟨h, [], .refl, rfl⟩

theorem turn (h : Leads n s₀ found k p s) (hturn : Turn n p s m q t) (hm : m.isTurn n = true)
    (hstep : s.step m = some t) : Leads n s₀ (found ++ s.finding m) (k + s.abandons m) q t := by
  obtain ⟨hagrees, ms, hrun, hfound⟩ := h
  refine ⟨hagrees.of_turn hturn, ms ++ [m], hrun.turn m hm hstep, ?_⟩
  rw [hrun.gather_snoc _ hstep, hfound]

/-- Whoever's turn it is goes on. -/
theorem go (h : Leads n s₀ found k p s) (hnext : p.next? s = some q) :
    Leads n s₀ (found ++ p.finds s) (k + p.abandoned) q (q.put (p.effect s)) := by
  rw [← h.agrees.place.finding_eq, ← h.agrees.place.abandons_eq]
  exact h.turn (.go (Position.edge_of_next? hnext)) (p.isTurn_party n) (h.agrees.step_party_eq hnext)

/-- The same where nothing is checked. -/
theorem pass (h : Leads n s₀ found k p s) (hnext : p.next? s = some q) (hfinds : p.finds s = []) :
    Leads n s₀ found (k + p.abandoned) q (q.put (p.effect s)) := by
  have hgoes := h.go hnext
  rwa [hfinds, List.append_nil] at hgoes

/-- Somebody opens or leaves a region. -/
theorem region (h : Leads n s₀ found k p s) (isOpen : Bool) :
    Leads n s₀ found k p (s.setRegion isOpen) := by
  have hset := h.turn (.region isOpen) rfl rfl
  have hnothing : s.finding (.setRegion isOpen) = [] := rfl
  rwa [hnothing, List.append_nil] at hset

/-- From the heap lock to the check. -/
theorem check (h : Leads n s₀ found k .locking s) (isOpen : Bool) :
    ∃ t, Leads n s₀ found k .checking t ∧ t.regionOpen = isOpen ∧
      t.sync.desired = s.sync.desired := by
  have hordered := ((h.region isOpen).pass rfl rfl).pass rfl rfl
  have hentered := (hordered.pass rfl rfl).pass rfl rfl
  exact ⟨_, hentered.pass rfl rfl, rfl, rfl⟩

/-- From the heap lock back to it, with an attempt that is abandoned. -/
theorem round (h : Leads n s₀ found k .locking s) :
    ∃ t, Leads n s₀ (found ++ [true]) (k + 1) .locking t ∧ t.sync.desired = s.sync.desired := by
  obtain ⟨u, hchecking, hopen, hdesired⟩ := h.check true
  have hpostponing := hchecking.go (q := .postponing) (by rw [Position.next?, hopen]; rfl)
  rw [Position.finds, hopen] at hpostponing
  have hcleaning := ((hpostponing.pass rfl rfl).pass rfl rfl).pass rfl rfl
  have hclosing := ((hcleaning.pass rfl rfl).pass rfl rfl).pass rfl rfl
  have hchoosing := (hclosing.pass rfl rfl).pass rfl rfl
  have hstalling := (hchoosing.pass rfl rfl).pass rfl rfl
  have hclearing := (hstalling.region false).pass rfl rfl
  exact ⟨_, hclearing.pass rfl rfl, hdesired⟩

/-- Any number of rounds, one after the other. -/
theorem rounds (h : Leads n s₀ [] 0 .locking s) (k : Nat) :
    ∃ t, Leads n s₀ (List.replicate k true) k .locking t ∧ t.sync.desired = s.sync.desired := by
  induction k with
  | zero => exact ⟨s, h, rfl⟩
  | succ k ih =>
    obtain ⟨t, hlocking, hdesired⟩ := ih
    obtain ⟨u, hagain, hstays⟩ := hlocking.round
    rw [← List.replicate_succ'] at hagain
    exact ⟨u, hagain, hstays.trans hdesired⟩

/-- From the heap lock into the park. -/
theorem park (h : Leads n s₀ found k .locking s) (hdesired : s.sync.desired = .suspended) :
    ∃ t, Leads n s₀ (found ++ [false]) k (.parked true) t := by
  obtain ⟨u, hchecking, hclosed, hstays⟩ := h.check false
  have hreporting := hchecking.go (q := .reporting) (by rw [Position.next?, hclosed]; rfl)
  rw [Position.finds, hclosed] at hreporting
  refine ⟨_, hreporting.pass (q := .parked true) ?_ rfl⟩
  have hwanted : (Position.reporting.put (Position.checking.effect u)).sync.desired = .suspended :=
    hstays.trans hdesired
  rw [Position.next?, hwanted]
  rfl

/-- A caller that the VM thread has told of the stop comes back. -/
theorem back (h : Leads n s₀ found k (.parked true) s) :
    ∃ t, Leads n s₀ found k (.parked true) t ∧ t.caller n = .away := by
  obtain ⟨hreached, -, hdesired⟩ := h.agrees.agreed
  have hstopped : s.sync.reached = s.sync.desired := hreached.trans hdesired.symm
  obtain haway | ⟨asleep, hawaiting, hasleep⟩ := h.agrees.calls.call
  · exact ⟨s, h, haway⟩
  · cases asleep with
    | true => exact absurd hstopped (hasleep rfl)
    | false =>
      have hstep : s.step (.proceed (.caller n)) = some (s.awaitState n s.sync.desired) := by
        rw [System.step, System.stepParty, h.agrees.stepCaller_eq, if_pos hawaiting]
      have hlooks := h.turn (.look hawaiting) (by simp [System.Move.isTurn]) hstep
      have hnothing : s.finding (.proceed (.caller n)) = [] := rfl
      rw [hnothing, List.append_nil] at hlooks
      exact ⟨_, hlooks, System.caller_awaitState_eq_away_iff.mpr hstopped⟩

/-- From where the companion looks for a request to the decision who takes the pause. -/
theorem choose (h : Leads n s₀ found k p s) (hresting : p.isResting = true) (hawake : p.awake = p)
    (hdesired : s.sync.desired = .suspended) (hcalm : s.sync.retryPending = false) :
    ∃ t, Leads n s₀ found k .choosing t ∧ t.sync = s.sync := by
  cases p with
  | top =>
    have hentering := h.pass (q := .entering) (by rw [Position.next?, hcalm]; rfl) rfl
    refine ⟨_, hentering.pass (q := .choosing) ?_ rfl, rfl⟩
    exact congrArg some (if_pos hdesired)
  | entering => exact ⟨_, h.pass (q := .choosing) (congrArg some (if_pos hdesired)) rfl, rfl⟩
  | idle asleep =>
    cases asleep with
    | true => cases hawake
    | false => exact ⟨_, h.pass (q := .choosing) (congrArg some (if_pos hdesired)) rfl, rfl⟩
  | _ => cases hresting

/-- From there to the heap lock, if no attempt was abandoned before. -/
theorem lock (h : Leads n s₀ found k .choosing s) (hcalm : s.sync.retryPending = false) :
    ∃ t, Leads n s₀ found k .locking t ∧ t.sync.desired = s.sync.desired := by
  have hprobing := h.pass (q := .probing) rfl rfl
  refine ⟨_, hprobing.pass (q := .locking) ?_ rfl, ?_⟩
  · have hkept : (Position.probing.put (Position.choosing.effect s)).sync.retryPending = false :=
      hcalm
    rw [Position.next?, hkept]
    rfl
  · exact (Position.desired_effect .probing _).trans rfl

end Leads

/-- Every number of attempts is abandoned in some run, before one stops the world and the caller is
back. -/
theorem Halting.exists_run (h : Halting n p s) (hresting : p.isResting = true)
    (hawake : p.awake = p) (hcalm : s.sync.retryPending = false) (k : Nat) :
    ∃ ms t, s.Interleaves n ms k t ∧
      System.gather System.finding ms s = List.replicate k true ++ [false] ∧
      t.caller n = .away := by
  obtain ⟨s₁, hchoosing, hsync⟩ := (Leads.refl h.agrees).choose hresting hawake h.desired hcalm
  obtain ⟨s₂, hlocking, hstays⟩ := hchoosing.lock (by rw [hsync, hcalm])
  obtain ⟨s₃, hrounds, hstill⟩ := hlocking.rounds k
  obtain ⟨s₄, hparked⟩ := hrounds.park (by rw [hstill, hstays, hsync, h.desired])
  obtain ⟨t, ⟨-, ms, hrun, hfound⟩, haway⟩ := hparked.back
  exact ⟨ms, t, hrun, hfound, haway⟩

end HeapBridge.Pause
