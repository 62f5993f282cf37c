import HeapBridge.Pause.Schedule
import HeapBridge.Proofs.Pause.Halves

/-!
# Coming back

A caller that waits for a state is brought back in whatever order the threads take their turns: they
can go on until it is, and only so many steps. On the schedule on which they take turns until all of
them wait, nobody opens a region meanwhile. So no attempt is abandoned, the budget is not used up,
and the caller is away when all threads wait.
-/
namespace HeapBridge.Pause
variable {n a b k : Nat} {p q : Position} {s t : System}

/-! ## In any order -/

/-- How turns that are taken while a caller waits for a state go on. -/
structure GoesOn (n : Nat) (state : WorldState) (ms : List System.Move) (k : Nat) (s : System) :
    Prop where
  /-- None of the companion's assertions has failed. -/
  unbroken : ∀ why, s.companion ≠ .failed why
  /-- Steps are bounded by attempts, apart from those that follow a stir. -/
  bounded : ms.countP System.Move.isProceed ≤ 24 * (k + 1) + ms.countP System.Move.isStir
  /-- Only attempts to stop the world are abandoned. -/
  abandoned : state = .resumed → k = 0
  /-- Until the caller is back somebody can go on, if not for a region that keeps the world from
  being stopped. -/
  free : s.caller n ≠ .away →
    ¬ (state = .suspended ∧ s.companion = .stalling ∧ s.regionOpen = true) →
    ∃ party t, (System.Move.proceed party).isTurn n = true ∧ s.step (.proceed party) = some t

theorem distance_le (n : Nat) (p : Position) (s : System) : distance n p s ≤ 24 := by
  have hahead := p.ahead_lt s.sync.desired
  have hlooks : s.looks n ≤ 1 := by
    unfold System.looks
    split <;> decide
  unfold distance
  omega

theorem Agrees.unbroken (h : Agrees n p s) (why : Breach) : s.companion ≠ .failed why := by
  rw [h.place.companion]
  cases p <;> exact nofun

/-- Turns that last go on. -/
theorem Lasts.goesOn {P : Nat → Position → System → Prop} (hP : Lasts n P) {state : WorldState}
    (habandoned : ∀ {k p s}, P k p s → state = .resumed → k = 0 ∧ p ≠ .stalling)
    (hp : P 0 p s) {ms : List System.Move} (h : s.Interleaves n ms k t) :
    GoesOn n state ms k t := by
  obtain ⟨q, hq, hcount⟩ := hP.run hp h
  have hagrees := hP.agrees hq
  refine ⟨hagrees.unbroken, ?_, fun hstate => (habandoned hq hstate).1, ?_⟩
  · have hfirst := distance_le n p s
    omega
  · intro hcalling hstall
    refine hagrees.exists_step hcalling fun hplace => ?_
    cases state with
    | resumed => exact absurd hplace (habandoned hq rfl).2
    | suspended =>
      have hstage : t.companion = .stalling := by rw [hagrees.place.companion, hplace]; rfl
      simpa [hstage] using hstall

theorem Halting.goesOn (h : Halting n p s) {ms : List System.Move}
    (hturns : s.Interleaves n ms k t) : GoesOn n .suspended ms k t := by
  have hlasts : Lasts n fun _ => Halting n := ⟨fun h => h.agrees, fun h => .inl h.desired, turn⟩
  refine hlasts.goesOn ?_ h hturns
  exact fun _ => nofun

theorem Releasing.goesOn (h : Releasing n p s) {ms : List System.Move}
    (hturns : s.Interleaves n ms k t) : GoesOn n .resumed ms k t := by
  have hlasts : Lasts n fun k p s => k = 0 ∧ Releasing n p s := by
    refine ⟨fun h => h.2.agrees, fun h => .inr h.2.calm, ?_⟩
    rintro k p s m q t ⟨rfl, h⟩ hturn
    exact ⟨by rw [h.abandons_eq_zero], h.turn hturn⟩
  refine hlasts.goesOn (fun h _ => ⟨h.1, ?_⟩) ⟨rfl, h⟩ hturns
  rintro rfl
  cases h.2.way

theorem Stopping.goesOn (h : Stopping n a 0 p s) {ms : List System.Move}
    (hturns : s.Interleaves n ms k t) : GoesOn n .suspended ms k t :=
  h.halting.goesOn hturns

theorem Returning.goesOn (h : Returning n b 0 p s) {ms : List System.Move}
    (hturns : s.Interleaves n ms k t) : GoesOn n .resumed ms k t :=
  h.releasing.goesOn hturns

/-! ## On one schedule -/

namespace System

theorem mem_turns {party : Party} (h : (Move.proceed party).isTurn 0 = true) : party ∈ turns := by
  simp only [Move.isTurn, Bool.or_eq_true, decide_eq_true_eq] at h
  obtain (rfl | rfl) | rfl := h <;> decide

/-- Weights only add to what a budget begins with. -/
theorem le_foldr_add {α : Type} (weight : α → Nat) (items : List α) (n : Nat) :
    n ≤ items.foldr (fun a m => weight a + m) n := by
  induction items with
  | nil => exact Nat.le_refl n
  | cons a items ih => exact Nat.le_trans ih (Nat.le_add_left _ _)

theorem regionOpen_of_request {state : WorldState} {wait : Bool}
    (h : s.request n state wait = .ok t) : t.regionOpen = s.regionOpen := by
  obtain ⟨-, rfl⟩ := request_eq_ok_iff.mp h
  split <;> rfl

theorem le_budget (s : System) : 100 ≤ s.budget :=
  Nat.le_trans (le_foldr_add Order.weight s.vm.queue 100) (le_foldr_add Duty.weight s.vm.duties _)

end System

/-- What holds on a way on which no attempt is abandoned, as long as the threads only go on. -/
structure Smooth (n : Nat) (P : Position → System → Prop) : Prop where
  agrees : ∀ {p s}, P p s → Agrees n p s
  round : ∀ {p s}, P p s → s.sync.desired = .suspended ∨ s.sync.retryPending = false
  prompt : ∀ {p s}, P p s → p.abandoned = 0
  free : ∀ {p s}, P p s → p = .stalling → s.regionOpen = false
  go : ∀ {p s party q t}, P p s → Turn n p s (.proceed party) q t → P q t

namespace Smooth
variable {P : Position → System → Prop}

/-- The step that is next on the schedule is one step nearer to rest. -/
theorem advance? (hP : Smooth 0 P) (hp : P p s) (h : s.advance? = some t) :
    ∃ party q, (System.Move.proceed party).isTurn 0 = true ∧ s.step (.proceed party) = some t ∧
      s.abandons (.proceed party) = 0 ∧ P q t ∧ distance 0 q t + 1 ≤ distance 0 p s := by
  obtain ⟨party, hparty, hstep⟩ := List.exists_of_findSome?_eq_some h
  have hagrees := hP.agrees hp
  have hturn : (System.Move.proceed party).isTurn 0 = true := by
    simp only [System.turns, List.mem_cons, List.not_mem_nil, or_false] at hparty
    obtain rfl | rfl | rfl | rfl := hparty
    · rfl
    · rfl
    · rfl
    · -- nobody but the first caller calls
      have haway : s.caller 1 = .away := hagrees.calls.others 1 Nat.one_ne_zero
      rw [System.stepParty, System.stepCaller, haway] at hstep
      cases hstep
  obtain ⟨q, hq⟩ := hagrees.exists_turn hturn hstep
  have hnone := hagrees.place.abandons_eq_zero (hP.prompt hp) (.proceed party)
  have hdistance := hq.distance_le (hP.round hp) hagrees.place
  rw [hnone] at hdistance
  exact ⟨party, q, hturn, hstep, hnone, hP.go hp hq, hdistance⟩

/-- With enough steps the threads come to rest, by induction over the steps. -/
theorem advance (hP : Smooth 0 P) (N : Nat) (hp : P p s) (hN : distance 0 p s ≤ N) {u : System}
    {ms : List System.Move} (h : u.Interleaves 0 ms 0 s) :
    ∃ ms' q, u.Interleaves 0 ms' 0 (s.advance N) ∧ P q (s.advance N) ∧
      (s.advance N).advance? = none := by
  induction N generalizing p s ms with
  | zero =>
    refine ⟨ms, p, h, hp, ?_⟩
    cases hnext : s.advance? with
    | none => exact hnext
    | some t =>
      obtain ⟨-, q, -, -, -, -, hdistance⟩ := hP.advance? hp hnext
      omega
  | succ N ih =>
    cases hnext : s.advance? with
    | none =>
      have hstays : s.advance (N + 1) = s := by rw [System.advance, hnext]
      rw [hstays]
      exact ⟨ms, p, h, hp, hnext⟩
    | some t =>
      obtain ⟨party, q, hturn, hstep, hnone, hq, hdistance⟩ := hP.advance? hp hnext
      have hgoes : s.advance (N + 1) = t.advance N := by rw [System.advance, hnext]
      have hlonger := h.turn (.proceed party) hturn hstep
      rw [hnone] at hlonger
      rw [hgoes]
      exact ih hq (by omega) hlonger

/-- When all threads wait the caller is back. -/
theorem settle (hP : Smooth 0 P) (hp : P p s) :
    ∃ ms, s.Interleaves 0 ms 0 s.settle ∧ s.settle.caller 0 = .away := by
  have henough : distance 0 p s ≤ s.budget := by
    have hdistance := distance_le 0 p s
    have hbudget := s.le_budget
    omega
  obtain ⟨ms, q, hturns, hq, hrest⟩ := hP.advance s.budget hp henough .refl
  refine ⟨ms, hturns, ?_⟩
  cases hcaller : (s.advance s.budget).caller 0 with
  | away => exact hcaller
  | _ =>
    have hcalling : (s.advance s.budget).caller 0 ≠ .away := by
      rw [hcaller]
      exact nofun
    obtain ⟨party, t, hturn, hstep⟩ := (hP.agrees hq).exists_step hcalling (hP.free hq)
    have hwaits := List.findSome?_eq_none_iff.mp hrest party (System.mem_turns hturn)
    exact absurd (hstep.symm.trans hwaits) nofun

theorem finish (hP : Smooth 0 P) (hp : P p s) :
    ∃ ms t, s.finish 0 = .ok t ∧ s.Interleaves 0 ms 0 t ∧ t.caller 0 = .away := by
  obtain ⟨ms, hturns, haway⟩ := hP.settle hp
  refine ⟨ms, s.settle, ?_, hturns, haway⟩
  rw [System.finish]
  simp only [haway]

end Smooth

/-- A step leads to the end of an abandoned attempt only while a region is open. -/
theorem Position.Edge.abandoned_eq_zero (h : Edge s p q) (hregion : s.regionOpen = false) :
    q.abandoned = 0 := by
  cases h with
  | checking_postponing hopen => exact absurd (hopen.symm.trans hregion) nofun
  | _ => rfl

/-- A stop that begins while no region is open. -/
theorem Stopping.smooth (a : Nat) :
    Smooth 0 fun p s => Stopping 0 a 0 p s ∧ p.abandoned = 0 ∧ s.regionOpen = false where
  agrees h := h.1.agrees
  round h := .inl h.1.desired
  prompt h := h.2.1
  free h _ := h.2.2
  go := by
    rintro p s party q t ⟨hstopping, hprompt, hregion⟩ hturn
    have hnone := hstopping.agrees.place.abandons_eq_zero hprompt (.proceed party)
    have hstill := (Stopping.lasts 0 a).turn hstopping hturn
    rw [hnone] at hstill
    refine ⟨hstill, ?_⟩
    cases hturn with
    | go hedge =>
      refine ⟨hedge.abandoned_eq_zero hregion, ?_⟩
      have heffect : (p.effect s).regionOpen = s.regionOpen := by
        cases p with
        | probing | closing =>
          rw [Position.effect]
          split <;> rfl
        | _ => rfl
      exact heffect.trans hregion
    | look _ => exact ⟨hprompt, hregion⟩

/-- A restart, whether a region is open or not. -/
theorem Returning.smooth (b : Nat) : Smooth 0 (Returning 0 b 0) where
  agrees h := h.agrees
  round h := .inr h.calm
  prompt := by
    intro p s h
    have hway := h.way
    cases p <;> first | rfl | cases hway
  free := by
    rintro p s h rfl
    cases h.way
  go := by
    intro p s party q t h hturn
    have hstill := (Returning.lasts 0 b).turn h hturn
    have hnone := hstill.none_abandoned
    rwa [hnone] at hstill

end HeapBridge.Pause
