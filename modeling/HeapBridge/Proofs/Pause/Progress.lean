import HeapBridge.Proofs.Pause.Turns

/-!
# Progress

Between two calls the threads can take their turns in any order. They get on with every step: the
position draws nearer to the one at which the threads come to rest, and only an abandoned attempt
sends it round once more. So a call returns after a bounded number of steps, unless a region stays
open.
-/
namespace HeapBridge.Pause
variable {n : Nat} {p q : Position} {s t : System} {m : System.Move}

/-! ## Interleavings -/

namespace System

/-- Whether a move abandons an attempt to stop the world. -/
def abandons (s : System) : Move → Nat
  | .proceed .vmThread =>
    match s.vm.duties with
    | .postpone :: _ => 1
    | _ => 0
  | _ => 0

/-- Steps of a thread that looks and goes on. -/
def Move.isProceed : Move → Bool
  | .proceed _ => true
  | _ => false

/-- Moves of some kind, with one more at the end. -/
theorem Move.countP_snoc (f : Move → Bool) (ms : List Move) (m : Move) :
    (ms ++ [m]).countP f = ms.countP f + (f m).toNat := by
  rw [List.countP_append, List.countP_singleton]
  cases f m <;> rfl

/-- A thread wakes without a reason. -/
def Move.isStir : Move → Bool
  | .stir _ => true
  | _ => false

/-- Turns in some order, with the number of attempts that are abandoned. -/
inductive Interleaves (n : Nat) (s : System) : List Move → Nat → System → Prop
  | refl : Interleaves n s [] 0 s
  | turn {ms : List Move} {k : Nat} {t u : System} (m : Move) (h : Interleaves n s ms k t)
    (hm : m.isTurn n = true) (hstep : t.step m = some u) :
    Interleaves n s (ms ++ [m]) (k + t.abandons m) u

/-- Takes turns in a given order, and counts the attempts that they abandon. -/
def follow (n : Nat) : List Move → System → Option (Nat × System)
  | [], s => some (0, s)
  | m :: ms, s =>
    if m.isTurn n then
      (s.step m).bind fun t => (follow n ms t).map fun r => (s.abandons m + r.1, r.2)
    else none

theorem Interleaves.follow {ms ms' : List Move} {k k' : Nat} {u : System}
    (h : s.Interleaves n ms k t) (hfollow : t.follow n ms' = some (k', u)) :
    s.Interleaves n (ms ++ ms') (k + k') u := by
  induction ms' generalizing ms k k' t with
  | nil =>
    cases hfollow
    rwa [List.append_nil]
  | cons m ms' ih =>
    rw [System.follow] at hfollow
    split at hfollow
    case isFalse => cases hfollow
    case isTrue hm =>
      obtain ⟨v, hstep, hrest⟩ := Option.bind_eq_some_iff.mp hfollow
      obtain ⟨⟨k₁, v₁⟩, hrun, heq⟩ := Option.map_eq_some_iff.mp hrest
      cases heq
      have hlonger := ih (h.turn m hm hstep) hrun
      rwa [List.append_assoc, List.singleton_append, Nat.add_assoc] at hlonger

end System

/-- Attempts that a step abandons. -/
def Position.abandoned : Position → Nat
  | postponing => 1
  | _ => 0

theorem At.abandons_eq (h : At p s) : s.abandons (.proceed p.party) = p.abandoned := by
  cases p <;> simp [Position.party, Position.isVmThread, System.abandons, h.vm, Position.duties,
    Position.abandoned]

theorem At.abandons_eq_zero (h : At p s) (hp : p.abandoned = 0) (m : System.Move) :
    s.abandons m = 0 := by
  unfold System.abandons
  split
  · rw [h.vm]
    cases p with
    | postponing => cases hp
    | _ => rfl
  · rfl

/-! ## Distance -/

namespace Position

/-- Positions in the order in which they are passed. -/
def index : Position → Nat
  | top => 0
  | entering => 1
  | idle false => 2
  | idle true => 3
  | choosing => 4
  | probing => 5
  | stalling => 6
  | clearing => 7
  | locking => 8
  | submitting => 9
  | ordered => 10
  | opening => 11
  | entered => 12
  | checking => 13
  | postponing | reporting => 14
  | parked false => 15
  | parked true => 16
  | leaving => 17
  | replying => 18
  | cleaning => 19
  | announcing => 20
  | unlocking => 21
  | closing => 22

/-- A bound on the steps to the position at which the threads rest in a state of the world. The step
that ends a round counts twice, as it wakes a caller. -/
def ahead (desired : WorldState) (p : Position) : Nat :=
  let rest := match desired with
    | .suspended => (parked true).index
    | .resumed => (idle true).index
  if p.index ≤ rest then rest - p.index else rest + 24 - p.index

theorem ahead_lt (desired : WorldState) (p : Position) : p.ahead desired < 24 := by
  cases p with
  | idle asleep | parked asleep => cases asleep <;> cases desired <;> decide
  | _ => cases desired <;> decide

/-- Callers that a step wakes. -/
def wakes : Position → Nat
  | reporting | closing => 1
  | _ => 0

/-- A step leads nearer to rest, by as much as it may wake, unless it abandons an attempt. -/
theorem ahead_next (hround : s.sync.desired = .suspended ∨ s.sync.retryPending = false)
    (hedge : Edge s p q) :
    q.ahead s.sync.desired + 1 + p.wakes ≤ p.ahead s.sync.desired + 24 * p.abandoned := by
  cases hedge with
  | top_choosing hretry =>
    -- only a world that is wanted stopped gets another attempt
    have hdesired : s.sync.desired = .suspended :=
      hround.resolve_right (by rw [hretry]; exact nofun)
    rw [hdesired]
    decide
  | entering_choosing hdesired | entering_idle hdesired | idle_choosing hdesired
  | idle_idle hdesired | reporting_leaving hdesired | reporting_parked hdesired
  | parked_leaving hdesired | parked_parked hdesired =>
    rw [hdesired]
    decide
  | _ => cases s.sync.desired <;> decide

/-- A thread that wakes is one step behind. -/
theorem ahead_awake (desired : WorldState) (p : Position) :
    p.awake.ahead desired ≤ p.ahead desired + 1 := by
  cases p with
  | idle asleep | parked asleep => cases asleep <;> cases desired <;> decide
  | _ => exact Nat.le_succ _

end Position

/-- Whether the caller is about to look. -/
def System.looks (n : Nat) (s : System) : Nat :=
  if s.caller n = .awaiting s.sync.desired false then 1 else 0

/-- How many steps can be made until everything rests. -/
def distance (n : Nat) (p : Position) (s : System) : Nat := p.ahead s.sync.desired + s.looks n

theorem System.looks_effect_le (n : Nat) (p : Position) (s : System) :
    (p.effect s).looks n ≤ s.looks n + p.wakes := by
  have hle (u : System) : u.looks n ≤ 1 := by
    unfold System.looks
    split <;> decide
  cases p with
  | reporting => exact Nat.le_trans (hle _) (Nat.le_add_left _ _)
  | closing => exact Nat.le_trans (hle _) (Nat.le_add_left _ _)
  | probing =>
    rw [Position.effect]
    split <;> exact Nat.le_refl _
  | _ => exact Nat.le_refl _

/-- Every turn is paid for: a step by the way that it makes, and a stir or an abandoned attempt by
itself. -/
theorem Turn.distance_le (h : Turn n p s m q t)
    (hround : s.sync.desired = .suspended ∨ s.sync.retryPending = false) (hplace : At p s) :
    distance n q t + m.isProceed.toNat ≤
      distance n p s + m.isStir.toNat + 24 * s.abandons m := by
  have hdesired : t.sync.desired = s.sync.desired := h.desired_eq
  unfold distance
  rw [hdesired]
  cases h with
  | go hnext =>
    have hahead := Position.ahead_next hround hnext
    have hlooks : (q.put (p.effect s)).looks n ≤ s.looks n + p.wakes :=
      System.looks_effect_le n p s
    rw [hplace.abandons_eq]
    simp only [System.Move.isProceed, System.Move.isStir, Bool.toNat_true, Bool.toNat_false]
    omega
  | look hawaiting =>
    have hlooks : s.looks n = 1 := if_pos hawaiting
    have hasleep : (s.awaitState n s.sync.desired).looks n = 0 := by
      by_cases hreached : s.sync.reached = s.sync.desired <;>
        simp [System.looks, System.awaitState, hreached]
    simp only [System.Move.isProceed, System.Move.isStir, Bool.toNat_true, Bool.toNat_false]
    omega
  | wake _ =>
    have hahead := Position.ahead_awake s.sync.desired p
    have hlooks : (p.awake.put s).looks n = s.looks n := rfl
    simp only [System.Move.isProceed, System.Move.isStir, Bool.toNat_true, Bool.toNat_false]
    omega
  | rouse _ =>
    have hlooks : (s.setCaller n (.awaiting s.sync.desired false)).looks n = 1 := by
      simp [System.looks]
    simp only [System.Move.isProceed, System.Move.isStir, Bool.toNat_true, Bool.toNat_false]
    omega
  | _ => exact Nat.le_add_right _ _

/-! ## Runs -/

/-- Something that holds while the threads take turns, with the number of attempts that were
abandoned so far. All that time the way leads on to rest. -/
structure Lasts (n : Nat) (P : Nat → Position → System → Prop) : Prop where
  agrees : ∀ {k p s}, P k p s → Agrees n p s
  round : ∀ {k p s}, P k p s → s.sync.desired = .suspended ∨ s.sync.retryPending = false
  turn : ∀ {k p s m q t}, P k p s → Turn n p s m q t → P (k + s.abandons m) q t

/-- What lasts is still there after any turns, and the steps among them are bounded. -/
theorem Lasts.run {P : Nat → Position → System → Prop} (hP : Lasts n P) (hp : P 0 p s)
    {ms : List System.Move} {k : Nat} (h : s.Interleaves n ms k t) :
    ∃ q, P k q t ∧ distance n q t + ms.countP System.Move.isProceed ≤
      distance n p s + ms.countP System.Move.isStir + 24 * k := by
  induction h with
  | refl => exact ⟨p, hp, Nat.le_refl _⟩
  | @turn ms k t u m _ hm hstep ih =>
    obtain ⟨q, hq, hcount⟩ := ih
    obtain ⟨r, hr⟩ := (hP.agrees hq).exists_turn hm hstep
    refine ⟨r, hP.turn hq hr, ?_⟩
    have hturn := hr.distance_le (hP.round hq) (hP.agrees hq).place
    rw [System.Move.countP_snoc, System.Move.countP_snoc]
    omega

/-- As long as a call has not returned, somebody can go on, or the companion waits for a region to
be left. -/
theorem Agrees.exists_step (h : Agrees n p s) (hcalling : s.caller n ≠ .away)
    (hfree : p = .stalling → s.regionOpen = false) :
    ∃ party t, (System.Move.proceed party).isTurn n = true ∧
      s.step (.proceed party) = some t := by
  cases hnext : p.next? s with
  | some q => exact ⟨p.party, q.put (p.effect s), p.isTurn_party n, h.step_party_eq hnext⟩
  | none =>
    -- everybody but the caller sleeps, and so the world is in the state that the caller waits for
    have hreached : s.sync.reached = s.sync.desired := by
      have hagreed := h.agreed
      cases p with
      | idle asleep =>
        cases asleep with
        | true => exact hagreed.1.trans hagreed.2.2.symm
        | false => cases hnext
      | parked asleep =>
        cases asleep with
        | true => exact hagreed.1.trans hagreed.2.2.symm
        | false => cases hnext
      | stalling => simp [Position.next?, hfree rfl] at hnext
      | _ => cases hnext
    obtain haway | ⟨asleep, hawaiting, hasleep⟩ := h.calls.call
    · exact absurd haway hcalling
    · cases asleep with
      | true => exact absurd hreached (hasleep rfl)
      | false =>
        refine ⟨.caller n, s.awaitState n s.sync.desired, by simp [System.Move.isTurn], ?_⟩
        rw [System.step, System.stepParty, h.stepCaller_eq, if_pos hawaiting]

end HeapBridge.Pause
