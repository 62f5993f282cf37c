import HeapBridge.Proofs.Pause.Progress

/-!
# Attempts

Every attempt to stop the world opens a safepoint and is cleaned up after, whether it was abandoned
or brought the pause about. The history holds one of each for every attempt that has come to its
end, and those of the one under way as far as it has got.
-/
namespace HeapBridge.Pause
variable {n a : Nat} {p q : Position} {s t : System} {m : System.Move}

namespace Position

/-- Whether the attempt under way has a safepoint in the history and is not accounted for yet. -/
def hasBegun (retry : Bool) : Position → Nat
  | entered | checking | postponing | reporting | parked _ => 1
  | leaving | replying | cleaning | announcing | unlocking | closing => if retry then 0 else 1
  | _ => 0

/-- Whether the attempt under way has still to be cleaned up. -/
def owesCleanup : Position → Nat
  | entered | checking | postponing | reporting | parked _ | leaving | replying | cleaning => 1
  | _ => 0

/-- Attempts that come to their end with a step. -/
def ends (s : System) : Position → Nat
  | postponing => 1
  | closing => if s.sync.retryPending then 0 else 1
  | _ => 0

end Position

/-- Whether a move completes a pause. -/
def System.completes (s : System) : System.Move → Nat
  | .proceed .companion => if s.companion = .closing ∧ s.sync.retryPending = false then 1 else 0
  | _ => 0

/-- An attempt comes to its end by being abandoned or by completing a pause. -/
theorem At.ends_eq (h : At p s) :
    s.abandons (.proceed p.party) + s.completes (.proceed p.party) = p.ends s := by
  rw [h.abandons_eq]
  cases p with
  | closing =>
    cases hretry : s.sync.retryPending <;> simp [Position.abandoned, Position.party,
      Position.isVmThread, System.completes, h.companion, Position.stage, Position.ends, hretry]
  | _ => simp [Position.abandoned, Position.party, Position.isVmThread, System.completes,
      h.companion, Position.stage, Position.ends]

/-- No pause is completed while the world is wanted stopped. -/
theorem Agrees.completes_eq_zero (h : Agrees n p s) (hdesired : s.sync.desired = .suspended)
    (m : System.Move) : s.completes m = 0 := by
  unfold System.completes
  split
  · refine if_neg fun hcloses => ?_
    have hends : s.sync.Ends := by
      have hstage := h.place.companion.symm.trans hcloses.1
      have hagreed := h.agreed
      cases p <;> first | exact hagreed | cases hstage
    simp [Handshake.Ends, hcloses.2, hdesired] at hends
  · rfl

/-- The history of `a` attempts that have come to their end, and of the one under way. -/
structure Booked (a : Nat) (p : Position) (s : System) : Prop where
  begun : s.tally .safepointBegin = a + p.hasBegun s.sync.retryPending
  cleaned : s.tally .safepointBegin = s.tally .cleanup + p.owesCleanup

namespace System

@[simp] theorem tally_log (s : System) (e e' : Event) :
    (s.log e).tally e' = s.tally e' + if e = e' then 1 else 0 := by
  simp [tally, log, List.count_append, List.count_singleton]

theorem tally_congr (h : t.history = s.history) (e : Event) : t.tally e = s.tally e := by
  rw [tally, h, tally]

@[simp] theorem tally_put (q : Position) (s : System) (e : Event) :
    (q.put s).tally e = s.tally e := rfl
@[simp] theorem sync_put (q : Position) (s : System) : (q.put s).sync = s.sync := rfl

end System

namespace Booked

/-- Books are kept in the history, and by whether an attempt was abandoned. -/
theorem congr {p q : Position} (h : Booked a p s) (hhistory : t.history = s.history)
    (hretry : t.sync.retryPending = s.sync.retryPending)
    (hbegun : q.hasBegun s.sync.retryPending = p.hasBegun s.sync.retryPending)
    (howes : q.owesCleanup = p.owesCleanup) : Booked a q t := by
  have htally := System.tally_congr hhistory
  constructor
  · rw [htally, hretry, hbegun]
    exact h.begun
  · rw [htally, htally, howes]
    exact h.cleaned

/-- Other events do not show in the books. -/
theorem log_other {p q : Position} (h : Booked a p s) {e : Event} (hbegin : e ≠ .safepointBegin)
    (hcleanup : e ≠ .cleanup)
    (hbegun : q.hasBegun s.sync.retryPending = p.hasBegun s.sync.retryPending)
    (howes : q.owesCleanup = p.owesCleanup) : Booked a q (q.put (s.log e)) := by
  constructor
  · simpa [hbegin, hbegun] using h.begun
  · simpa [hbegin, hcleanup, howes] using h.cleaned

/-- A step is entered in the books. -/
theorem go (h : Booked a p s) (hagreed : p.Agreed s.sync) (hedge : Position.Edge s p q) :
    Booked (a + p.ends s) q (q.put (p.effect s)) := by
  cases hedge with
  | probing_stalling hretry =>
    rw [Position.effect, hretry, if_pos rfl]
    exact h.log_other (by decide) (by decide) rfl rfl
  | probing_locking hretry =>
    rw [Position.effect, hretry]
    exact h.congr rfl rfl rfl rfl
  | clearing => exact ⟨h.begun, h.cleaned⟩
  | opening =>
    constructor
    · simpa [Position.effect, Position.hasBegun, Position.ends] using h.begun
    · simpa [Position.effect, Position.owesCleanup] using h.cleaned
  | checking_postponing _ | checking_reporting _ => exact h.log_other (by decide) (by decide) rfl rfl
  | postponing => exact ⟨h.begun, h.cleaned⟩
  | reporting_leaving _ | parked_leaving _ =>
    exact h.congr rfl rfl (by rw [hagreed.2]; rfl) rfl
  | reporting_parked _ => exact h.congr rfl rfl rfl rfl
  | leaving => exact h.log_other (by decide) (by decide) rfl rfl
  | cleaning =>
    constructor
    · rw [System.tally_put, Position.effect, System.tally_log, if_neg (by decide)]
      exact h.begun
    · simpa [Position.effect, Position.owesCleanup] using h.cleaned
  | closing =>
    cases hretry : s.sync.retryPending with
    | true =>
      rw [Position.effect, Position.ends, hretry, if_pos rfl, if_pos rfl]
      exact h.congr rfl rfl (by rw [hretry]; rfl) rfl
    | false =>
      rw [Position.effect, Position.ends, hretry, if_neg (by decide), if_neg (by decide)]
      have hbegun := h.begun
      rw [hretry] at hbegun
      exact ⟨hbegun, h.cleaned⟩
  | _ => exact h.congr rfl rfl rfl rfl

theorem turn (h : Booked a p s) (hagrees : Agrees n p s) (hturn : Turn n p s m q t) :
    Booked (a + (s.abandons m + s.completes m)) q t := by
  cases hturn with
  | go hedge =>
    rw [hagrees.place.ends_eq]
    exact h.go hagrees.agreed hedge
  | wake _ => exact h.congr rfl rfl (by cases p <;> rfl) (by cases p <;> rfl)
  | _ => exact h.congr rfl rfl rfl rfl

end Booked
end HeapBridge.Pause
