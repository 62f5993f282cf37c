import HeapBridge.Proofs.Scan.Filling
import HeapBridge.Proofs.Slot.Mark

/-!
# Visits

What a run of visits reports is a matter of the slots alone: each is reported, is passed over or is
refused, whatever was visited before. So a run leaves in its buffers the reports of its slots in
order, and its faults are the refusals. Of a run that ends at the first refusal, the same holds of
the slots before that.
-/
namespace HeapBridge.Scan
open Slot (Encoding Tagged)

variable {c : Closure} {e : Option Encoding} {m : Memory} {supply : Supply} {words : List Word}
  {f : Filling}

namespace Closure

/-- The word that a closure reports for a slot. -/
def report? (c : Closure) (e : Option Encoding) (m : Memory) (v : Visit) : Option Word :=
  (c.word? e m v).toOption.join

/-- Why a closure refuses a slot. -/
def refusal? (c : Closure) (e : Option Encoding) (m : Memory) (v : Visit) : Option Fault :=
  match c.word? e m v with
  | .ok _ => none
  | .error fault => some fault

/-- The refusals among slots, with their places from `i` on. -/
def refusals (c : Closure) (e : Option Encoding) (m : Memory) (i : Nat) (vs : List Visit) :
    List (Nat × Fault) :=
  (vs.zipIdx i).filterMap fun p => (c.refusal? e m p.1).map (p.2, ·)

/-- The slots before the first that is refused. -/
def accepted (c : Closure) (e : Option Encoding) (m : Memory) (vs : List Visit) : List Visit :=
  vs.takeWhile fun v => (c.refusal? e m v).isNone

theorem report?_of_refusal {v : Visit} {fault : Fault} (h : c.refusal? e m v = some fault) :
    c.report? e m v = none := by
  unfold refusal? at h
  unfold report?
  split at h
  · cases h
  · rename_i hword
    rw [hword]
    rfl

/-- A slot that is reported goes into the buffers, and any other leaves them alone. -/
theorem visit_holds (hsupply : ∀ i, 0 < supply i) (h : f.Holds supply words) {v : Visit}
    (hv : c.refusal? e m v = none) :
    ∃ f', c.visit e m supply v f = .ok f' ∧
      f'.Holds supply (words ++ (c.report? e m v).toList) := by
  cases hword : c.word? e m v with
  | error fault => simp [refusal?, hword] at hv
  | ok reported =>
    cases reported with
    | none =>
      refine ⟨f, ?_, ?_⟩
      · simp [visit, hword, bind, Except.bind, pure, Except.pure]
      · simpa [report?, hword, Except.toOption] using h
    | some w =>
      obtain ⟨f', hpush, hf'⟩ := h.push hsupply w
      refine ⟨f', ?_, ?_⟩
      · simp [visit, hword, bind, Except.bind, hpush]
      · simpa [report?, hword, Except.toOption] using hf'

theorem visit_of_refusal {v : Visit} {fault : Fault} (hv : c.refusal? e m v = some fault)
    (f : Filling) : c.visit e m supply v f = .error fault := by
  cases hword : c.word? e m v with
  | ok reported => simp [refusal?, hword] at hv
  | error fault' =>
    have hfault : fault' = fault := by simpa [refusal?, hword] using hv
    simp [visit, hword, hfault, bind, Except.bind]

/-- Visits that go on after a refusal. -/
theorem visitAll_holds (hsupply : ∀ i, 0 < supply i) (h : f.Holds supply words) (i : Nat)
    (vs : List Visit) :
    ∃ f', c.visitAll e m supply i vs f = (f', c.refusals e m i vs) ∧
      f'.Holds supply (words ++ vs.filterMap (c.report? e m)) := by
  induction vs generalizing i f words with
  | nil => exact ⟨f, rfl, by simpa using h⟩
  | cons v vs ih =>
    cases hv : c.refusal? e m v with
    | none =>
      obtain ⟨f₁, hvisit, hf₁⟩ := visit_holds hsupply h hv
      obtain ⟨f', hrest, hf'⟩ := ih hf₁ (i + 1)
      refine ⟨f', ?_, ?_⟩
      · simp [visitAll, hvisit, hrest, refusals, hv]
      · cases hreport : c.report? e m v <;> simpa [hreport] using hf'
    | some fault =>
      obtain ⟨f', hrest, hf'⟩ := ih h (i + 1)
      refine ⟨f', ?_, ?_⟩
      · simp [visitAll, visit_of_refusal hv, hrest, refusals, hv]
      · simpa [report?_of_refusal hv] using hf'

/-- Visits that end at the first refusal. -/
theorem visitUntil_holds (hsupply : ∀ i, 0 < supply i) (h : f.Holds supply words)
    (vs : List Visit) :
    ∃ f', c.visitUntil e m supply vs f = (f', vs.findSome? (c.refusal? e m)) ∧
      f'.Holds supply (words ++ (c.accepted e m vs).filterMap (c.report? e m)) := by
  induction vs generalizing f words with
  | nil => exact ⟨f, rfl, by simpa [accepted] using h⟩
  | cons v vs ih =>
    cases hv : c.refusal? e m v with
    | none =>
      obtain ⟨f₁, hvisit, hf₁⟩ := visit_holds hsupply h hv
      obtain ⟨f', hrest, hf'⟩ := ih hf₁
      refine ⟨f', ?_, ?_⟩
      · simp [visitUntil, hvisit, hrest, hv]
      · cases hreport : c.report? e m v <;> simpa [accepted, hv, hreport] using hf'
    | some fault =>
      refine ⟨f, ?_, ?_⟩
      · simp [visitUntil, visit_of_refusal hv, hv]
      · simpa [accepted, hv] using h

/-- Visits in two parts are visits of the slots of both. -/
theorem visitUntil_append (vs ws : List Visit) (f : Filling) :
    c.visitUntil e m supply (vs ++ ws) f =
      match c.visitUntil e m supply vs f with
      | (f', none) => c.visitUntil e m supply ws f'
      | (f', some fault) => (f', some fault) := by
  induction vs generalizing f with
  | nil => rfl
  | cons v vs ih =>
    rw [List.cons_append, visitUntil, visitUntil]
    cases c.visit e m supply v f with
    | ok f₁ => exact ih f₁
    | error fault => rfl

end Closure

/-! ## Roots -/

namespace Visit
variable {v : Visit}

/-- What is reported for a root: the tagged address of its slot, unless the slot holds null. -/
def edge? (e : Option Encoding) (m : Memory) (v : Visit) : Option Word := do
  let t ← (v.tag e).toOption
  let o ← (t.load e m).toOption
  if o = 0 then none else some t.raw

/-- Why a root is refused: it is out of memory, or it looks tagged. -/
def refusal? (e : Option Encoding) (m : Memory) (v : Visit) : Option Fault :=
  match v.require e m, v.tag e with
  | .error fault, _ => some fault
  | .ok (), .error fault => some fault
  | .ok (), .ok _ => none

theorem tag_wide (e : Option Encoding) {slot : Address} (h : slot &&& Tagged.wideTag = 0) :
    (wide slot).tag e = .ok (.wide slot e.isSome) := if_pos h

theorem tag_wide_marked (e : Option Encoding) {slot : Address}
    (h : slot &&& Tagged.wideTag ≠ 0) : (wide slot).tag e = .error (.slotTagged slot) := if_neg h

/-- A slot and its tagged form are readable alike. -/
theorem require_eq_of_tag {t : Tagged} (h : v.tag e = .ok t) : v.require e m = t.require e m := by
  cases v with
  | narrow slot =>
    cases h
    rfl
  | wide slot =>
    by_cases hmark : slot &&& Tagged.wideTag = 0
    · rw [tag_wide e hmark] at h
      cases h
      have hplain : (Tagged.wide slot false).narrowEncoding? none = none :=
        Tagged.narrowEncoding?_wide hmark none
      rw [require, Tagged.require, Tagged.require, Tagged.narrowEncoding?_wide hmark, hplain,
        Tagged.address_wide hmark, Tagged.address_wide hmark]
    · rw [tag_wide_marked e hmark] at h
      cases h

theorem report?_roots (e : Option Encoding) (m : Memory) (v : Visit) :
    Closure.roots.report? e m v = v.edge? e m := by
  cases htag : v.tag e with
  | error fault =>
    cases hrequire : v.require e m <;>
      simp [Closure.report?, Closure.word?, edge?, htag, hrequire, bind, Except.bind,
        Except.toOption]
  | ok t =>
    cases hload : t.load e m with
    | error fault =>
      cases hrequire : v.require e m <;>
        simp [Closure.report?, Closure.word?, edge?, htag, hrequire, hload, bind, Except.bind,
          Except.toOption]
    | ok o =>
      have hrequire : v.require e m = .ok () := by
        rw [require_eq_of_tag htag]
        exact Tagged.require_of_load hload
      by_cases hnull : o = 0 <;>
        simp [Closure.report?, Closure.word?, edge?, htag, hrequire, hload, hnull, bind, Except.bind,
          pure, Except.pure, Except.toOption]

theorem refusal?_roots (hdecodes : ∀ enc ∈ e, enc.Decodes) (m : Memory) (v : Visit) :
    Closure.roots.refusal? e m v = v.refusal? e m := by
  cases hrequire : v.require e m with
  | error fault =>
    simp [Closure.refusal?, Closure.word?, refusal?, hrequire, bind, Except.bind]
  | ok u =>
    cases htag : v.tag e with
    | error fault =>
      simp [Closure.refusal?, Closure.word?, refusal?, hrequire, htag, bind, Except.bind]
    | ok t =>
      have hreadable : t.require e m = .ok () := by rw [← require_eq_of_tag htag, hrequire]
      obtain ⟨o, hload⟩ := Tagged.exists_load hdecodes hreadable
      simp [Closure.refusal?, Closure.word?, refusal?, hrequire, htag, hload, bind, Except.bind,
        pure, Except.pure]

end Visit
end HeapBridge.Scan
