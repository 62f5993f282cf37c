import HeapBridge.Proofs.Pause.Attempts
import HeapBridge.Proofs.Pause.Promise

/-!
# The two halves of a pause

A caller that waits for every state it asks for goes through pauses in two halves. In the first the
world is wanted stopped, and attempts may be abandoned until one leads into the park. In the second
the way leads out of the park and back to where the companion waits for the next request. Each half
ends, for the caller, exactly where the other begins.
-/
namespace HeapBridge.Pause
variable {n a b k : Nat} {p q : Position} {s t : System} {m : System.Move}

namespace Position

/-- Whether the companion is about to wait for a request, or waits for one. -/
def isResting : Position → Bool
  | top | entering | idle _ => true
  | _ => false

/-- The way out of the park. -/
def isReturning : Position → Bool
  | parked _ | leaving | replying | cleaning | announcing | unlocking | closing | top | entering
  | idle _ => true
  | _ => false

/-- On the way back the world runs exactly where the threads rest. -/
theorem Agreed.reached_eq (h : p.Agreed s.sync) (hcalm : s.sync.retryPending = false)
    (hway : p.isReturning = true) :
    s.sync.reached = if p.isResting then .resumed else .suspended := by
  cases p with
  | top => exact h
  | entering => exact h.1
  | idle asleep | parked asleep => cases asleep <;> exact h.1
  | leaving | replying | cleaning | announcing | unlocking | closing =>
    simp only [Agreed, Handshake.Ends, hcalm] at h
    exact h.1
  | _ => cases hway

/-- The way back is only left for a request, and the pause is completed on it. -/
theorem Edge.returning (h : Edge s p q) (hdesired : s.sync.desired = .resumed)
    (hcalm : s.sync.retryPending = false) (hway : p.isReturning = true) :
    q.isReturning = true ∧ (p.effect s).sync.retryPending = false ∧
      p.ends s + (if q.isResting then 0 else 1) = if p.isResting then 0 else 1 := by
  cases h with
  | top_choosing hretry => exact absurd (hretry.symm.trans hcalm) nofun
  | entering_choosing hstop | idle_choosing hstop | parked_parked hstop =>
    exact absurd (hstop.symm.trans hdesired) nofun
  | closing => simp [isReturning, effect, hcalm, ends, isResting]
  | top_entering _ | entering_idle _ | idle_idle _ | parked_leaving _ | leaving | replying
  | cleaning | announcing | unlocking => exact ⟨rfl, hcalm, rfl⟩
  | _ => cases hway

end Position

/-- A caller is only away after a turn if it was away before, or if the world is as it is wanted. -/
theorem Turn.of_away (h : Turn n p s m q t) (haway : t.caller n = .away) :
    s.caller n = .away ∨ t.sync.reached = t.sync.desired := by
  cases h with
  | go _ =>
    have hcaller : (p.effect s).caller n = .away → s.caller n = .away := by
      have hawake : (s.caller n).awake = .away → s.caller n = .away := by
        cases s.caller n <;> simp [Caller.awake]
      cases p with
      | reporting => exact hawake
      | closing | probing =>
        rw [Position.effect]
        split
        · exact id
        · first | exact hawake | exact id
      | _ => exact id
    exact .inl (hcaller haway)
  | look _ => exact .inr (System.caller_awaitState_eq_away_iff (s := s).mp haway)
  | rouse _ => simp at haway
  | _ => exact .inl haway

/-! ## What is wanted -/

/-- The world is wanted stopped, and a caller that is away knows that it is. -/
structure Halting (n : Nat) (p : Position) (s : System) : Prop where
  agrees : Agrees n p s
  desired : s.sync.desired = .suspended
  answered : s.caller n = .away → s.sync.reached = .suspended

/-- The world is wanted back, no attempt to stop it is under way, and a caller that is away knows
that it runs. -/
structure Releasing (n : Nat) (p : Position) (s : System) : Prop where
  agrees : Agrees n p s
  desired : s.sync.desired = .resumed
  calm : s.sync.retryPending = false
  way : p.isReturning = true
  answered : s.caller n = .away → s.sync.reached = .resumed

namespace Halting

/-- A caller that is away again finds the world stopped. -/
theorem isParked (h : Halting n p s) (haway : s.caller n = .away) : p.isParked = true :=
  h.agrees.agreed.isParked h.desired (h.answered haway)

theorem turn (h : Halting n p s) (hturn : Turn n p s m q t) : Halting n q t := by
  have hdesired := hturn.desired_eq.trans h.desired
  refine ⟨h.agrees.of_turn hturn, hdesired, fun haway => ?_⟩
  obtain hbefore | hreached := hturn.of_away haway
  · exact (hturn.reached_eq (h.isParked hbefore)).trans (h.answered hbefore)
  · exact hreached.trans hdesired

/-- What a caller finds that is back from a stop. -/
theorem stopped (h : Halting n p s) (haway : s.caller n = .away) :
    s.states = (.suspended, .suspended) ∧ s.worldStopped = true ∧ s.lock.locked = true := by
  have hparked := h.isParked haway
  rw [System.states, h.desired, h.answered haway, h.agrees.place.worldStopped,
    h.agrees.place.locked]
  cases p <;> first | exact ⟨rfl, rfl, rfl⟩ | cases hparked

/-- The world is asked back, by a caller that knows it to be stopped. -/
theorem restart (h : Halting n p s) (haway : s.caller n = .away) :
    ∃ t, s.request n .resumed true = .ok t ∧ Releasing n p.awake t := by
  have hnew : s.sync.desired ≠ .resumed := by rw [h.desired]; exact nofun
  obtain ⟨t, hrequest⟩ := System.exists_request hnew n true
  have hsync := System.sync_of_request hrequest
  have hparked := h.isParked haway
  cases p with
  | parked asleep =>
    have hcalm : s.sync.retryPending = false := by
      have hagreed := h.agrees.agreed
      cases asleep
      · exact hagreed.2
      · exact hagreed.2.1
    have hcalm' : t.sync.retryPending = false := by rw [hsync]; exact hcalm
    refine ⟨t, hrequest, h.agrees.request haway rfl hrequest, by rw [hsync], hcalm', rfl, ?_⟩
    intro hreturned
    rw [hsync]
    exact (System.caller_of_request_eq_away_iff hrequest).mp hreturned
  | _ => cases hparked

end Halting

namespace Releasing

/-- A caller that is away again finds the threads at rest. -/
theorem isResting (h : Releasing n p s) (haway : s.caller n = .away) : p.isResting = true := by
  have hreached := h.agrees.agreed.reached_eq h.calm h.way
  rw [h.answered haway] at hreached
  cases hresting : p.isResting with
  | true => rfl
  | false =>
    rw [hresting] at hreached
    cases hreached

theorem turn (h : Releasing n p s) (hturn : Turn n p s m q t) : Releasing n q t := by
  have hagrees := h.agrees.of_turn hturn
  have hdesired := hturn.desired_eq.trans h.desired
  have haway := hturn.of_away
  cases hturn with
  | go hedge =>
    obtain ⟨hway, hcalm, hends⟩ := hedge.returning h.desired h.calm h.way
    refine ⟨hagrees, hdesired, hcalm, hway, fun hreturned => ?_⟩
    obtain hbefore | hreached := haway hreturned
    · have hresting : q.isResting = true := by
        rw [h.isResting hbefore, if_pos rfl] at hends
        cases hq : q.isResting with
        | true => rfl
        | false => simp [hq] at hends
      have hreached := hagrees.agreed.reached_eq hcalm hway
      rwa [hresting, if_pos rfl] at hreached
    · exact hreached.trans hdesired
  | wake _ =>
    have hway : p.awake.isReturning = p.isReturning := by cases p <;> rfl
    exact ⟨hagrees, hdesired, h.calm, hway.trans h.way, h.answered⟩
  | look _ | rouse _ =>
    refine ⟨hagrees, hdesired, h.calm, h.way, fun hreturned => ?_⟩
    obtain hbefore | hreached := haway hreturned
    · exact h.answered hbefore
    · exact hreached.trans hdesired
  | _ => exact ⟨hagrees, hdesired, h.calm, h.way, h.answered⟩

/-- No attempt is abandoned on the way back. -/
theorem abandons_eq_zero (h : Releasing n p s) (m : System.Move) : s.abandons m = 0 := by
  refine h.agrees.place.abandons_eq_zero ?_ m
  have hway := h.way
  cases p <;> first | rfl | cases hway

/-- What a caller finds that is back from a restart. -/
theorem returned (h : Releasing n p s) (haway : s.caller n = .away) :
    s.states = (.resumed, .resumed) ∧ s.worldStopped = false ∧ s.lock.locked = false := by
  have hresting := h.isResting haway
  rw [System.states, h.desired, h.answered haway, h.agrees.place.worldStopped,
    h.agrees.place.locked]
  cases p <;> first | exact ⟨rfl, rfl, rfl⟩ | cases hresting

/-- The world is asked to stop, by a caller that knows it to run. -/
theorem stop (h : Releasing n p s) (haway : s.caller n = .away) :
    ∃ t, s.request n .suspended true = .ok t ∧ Halting n p.awake t := by
  have hnew : s.sync.desired ≠ .suspended := by rw [h.desired]; exact nofun
  obtain ⟨t, hrequest⟩ := System.exists_request hnew n true
  have hcareful : s.isCareful (.request n .suspended true) = true := by
    simp [System.isCareful, h.answered haway]
  have hsync := System.sync_of_request hrequest
  refine ⟨t, hrequest, h.agrees.request haway hcareful hrequest, by rw [hsync], ?_⟩
  intro hreturned
  rw [hsync]
  exact (System.caller_of_request_eq_away_iff hrequest).mp hreturned

end Releasing

/-! ## With the books -/

/-- The world is wanted stopped, and `k` attempts were abandoned since it is. -/
structure Stopping (n a k : Nat) (p : Position) (s : System) : Prop where
  agrees : Agrees n p s
  desired : s.sync.desired = .suspended
  answered : s.caller n = .away → s.sync.reached = .suspended
  booked : Booked (a + k) p s

/-- The world is wanted back, and no attempt to stop it is under way. Once it runs, `b` attempts
have come to their end. -/
structure Returning (n b k : Nat) (p : Position) (s : System) : Prop where
  agrees : Agrees n p s
  desired : s.sync.desired = .resumed
  calm : s.sync.retryPending = false
  way : p.isReturning = true
  answered : s.caller n = .away → s.sync.reached = .resumed
  booked : ∃ c, Booked c p s ∧ c + (if p.isResting then 0 else 1) = b
  none_abandoned : k = 0

theorem Stopping.halting (h : Stopping n a k p s) : Halting n p s :=
  ⟨h.agrees, h.desired, h.answered⟩

theorem Returning.releasing (h : Returning n b k p s) : Releasing n p s :=
  ⟨h.agrees, h.desired, h.calm, h.way, h.answered⟩

theorem Stopping.lasts (n a : Nat) : Lasts n (Stopping n a) where
  agrees h := h.agrees
  round h := .inl h.desired
  turn := by
    intro k p s m q t h hturn
    have hstill := h.halting.turn hturn
    refine ⟨hstill.agrees, hstill.desired, hstill.answered, ?_⟩
    have hbooked := h.booked.turn h.agrees hturn
    rw [h.agrees.completes_eq_zero h.desired, Nat.add_zero, Nat.add_assoc] at hbooked
    exact hbooked

theorem Returning.lasts (n b : Nat) : Lasts n (Returning n b) where
  agrees h := h.agrees
  round h := .inr h.calm
  turn := by
    intro k p s m q t h hturn
    have hstill := h.releasing.turn hturn
    obtain ⟨c, hbooked, hcount⟩ := h.booked
    have hkept : k + s.abandons m = 0 := by
      rw [h.none_abandoned, h.releasing.abandons_eq_zero]
    refine ⟨hstill.agrees, hstill.desired, hstill.calm, hstill.way, hstill.answered, ?_, hkept⟩
    cases hturn with
    | go hedge =>
      have hends := (hedge.returning h.desired h.calm h.way).2.2
      exact ⟨c + p.ends s, hbooked.go h.agrees.agreed hedge, by omega⟩
    | wake _ =>
      have hsame : p.awake.isResting = p.isResting ∧
          p.awake.hasBegun s.sync.retryPending = p.hasBegun s.sync.retryPending ∧
          p.awake.owesCleanup = p.owesCleanup := by
        cases p <;> exact ⟨rfl, rfl, rfl⟩
      obtain ⟨hresting, hbegun, howes⟩ := hsame
      refine ⟨c, hbooked.congr rfl rfl hbegun howes, ?_⟩
      rw [hresting, hcount]
    | _ => exact ⟨c, hbooked.congr rfl rfl rfl rfl, hcount⟩

/-! ## From one half to the other -/

/-- A request leaves the books alone. -/
theorem Booked.request (h : Booked a p s) {state : WorldState} {wait : Bool}
    (hrequest : s.request n state wait = .ok t) : Booked a p.awake t := by
  have hsync := System.sync_of_request hrequest
  obtain ⟨-, rfl⟩ := System.request_eq_ok_iff.mp hrequest
  refine h.congr ?_ (by rw [hsync]) (by cases p <;> rfl) (by cases p <;> rfl)
  split <;> rfl

theorem Returning.stop (h : Returning n b k p s) (haway : s.caller n = .away) :
    ∃ t, s.request n .suspended true = .ok t ∧ Stopping n b 0 p.awake t := by
  obtain ⟨t, hrequest, hhalting⟩ := h.releasing.stop haway
  refine ⟨t, hrequest, hhalting.agrees, hhalting.desired, hhalting.answered, ?_⟩
  obtain ⟨c, hbooked, hcount⟩ := h.booked
  rw [h.releasing.isResting haway, if_pos rfl] at hcount
  obtain rfl : c = b := hcount
  exact hbooked.request hrequest

theorem Stopping.restart (h : Stopping n a k p s) (haway : s.caller n = .away) :
    ∃ t, s.request n .resumed true = .ok t ∧ Returning n (a + k + 1) 0 p.awake t := by
  obtain ⟨t, hrequest, hreleasing⟩ := h.halting.restart haway
  have hresting : p.awake.isResting = false := by
    have hparked := h.halting.isParked haway
    cases p <;> first | rfl | cases hparked
  exact ⟨t, hrequest, hreleasing.agrees, hreleasing.desired, hreleasing.calm, hreleasing.way,
    hreleasing.answered, ⟨a + k, h.booked.request hrequest, by rw [hresting]; rfl⟩, rfl⟩

/-- What a caller finds that is back from a stop. -/
theorem Stopping.stopped (h : Stopping n a k p s) (haway : s.caller n = .away) :
    s.states = (.suspended, .suspended) ∧ s.worldStopped = true ∧ s.lock.locked = true :=
  h.halting.stopped haway

/-- What a caller finds that is back from a restart. -/
theorem Returning.returned (h : Returning n b k p s) (haway : s.caller n = .away) :
    s.states = (.resumed, .resumed) ∧ s.worldStopped = false ∧ s.lock.locked = false ∧
      s.tally .safepointBegin = b ∧ s.tally .cleanup = b := by
  have hresting := h.releasing.isResting haway
  obtain ⟨hstates, hruns, hfree⟩ := h.releasing.returned haway
  obtain ⟨c, ⟨hbegun, hcleaned⟩, hcount⟩ := h.booked
  rw [hresting, if_pos rfl] at hcount
  obtain rfl : c = b := hcount
  refine ⟨hstates, hruns, hfree, ?_⟩
  cases p <;> first
    | exact ⟨hbegun, hcleaned.symm.trans hbegun⟩
    | cases hresting

/-- Before the first pause the world runs. -/
theorem Returning.initial (n : Nat) : Returning n 0 0 .top .initial :=
  ⟨.initial n, rfl, rfl, rfl, fun _ => rfl, ⟨0, ⟨rfl, rfl⟩, rfl⟩, rfl⟩

end HeapBridge.Pause
