import HeapBridge.Fault
import Mathlib.Tactic.Common

/-!
# Computations that are watched

`Act.noting` keeps notes of a computation beside its state. A computation that is built from such
parts is `Watched`: it does what the same computation without notes does, and the notes that it adds
fit what came of it. The rules below follow the ways in which computations are put together.
-/
namespace HeapBridge.Act
variable {σ α β ε : Type}

/-! ## What came of a computation -/

@[simp] theorem attempt_pure (a : α) (s : σ) : (pure a : Act σ α).attempt s = (.ok a, s) := rfl

@[simp] theorem attempt_throw (f : Fault) (s : σ) :
    (throw f : Act σ α).attempt s = (.error f, s) := rfl

theorem attempt_bind (act : Act σ α) (f : α → Act σ β) (s : σ) :
    (act >>= f).attempt s =
      match act.attempt s with
      | (.ok a, t) => (f a).attempt t
      | (.error e, t) => (.error e, t) := by
  have hrun : (act >>= f) s = EStateM.bind act f s := rfl
  unfold attempt
  rw [hrun, EStateM.bind]
  cases act s <;> rfl

theorem attempt_map (f : α → β) (act : Act σ α) (s : σ) :
    (f <$> act).attempt s = ((act.attempt s).1.map f, (act.attempt s).2) := by
  have hrun : (f <$> act) s = EStateM.map f act s := rfl
  unfold attempt
  rw [hrun, EStateM.map]
  cases act s <;> rfl

/-! ## What stays -/

/-- A computation leaves a part of the state as it is, whatever comes of it. -/
def Keeps {γ : Type} (part : σ → γ) (act : Act σ α) : Prop := ∀ s, part (act.attempt s).2 = part s

namespace Keeps
variable {γ : Type} {part : σ → γ} {act : Act σ α}

theorem pure (a : α) : Keeps part (Pure.pure a : Act σ α) := fun _ => rfl

theorem throw (f : Fault) : Keeps part (MonadExcept.throw f : Act σ α) := fun _ => rfl

theorem lift (e : Except Fault α) : Keeps part (Act.lift e : Act σ α) := by
  cases e with
  | error f => exact throw f
  | ok a => exact pure a

theorem modify {f : σ → σ} (h : ∀ s, part (f s) = part s) :
    Keeps part (modify f : Act σ Unit) := h

theorem bind {f : α → Act σ β} (h : Keeps part act) (hf : ∀ a, Keeps part (f a)) :
    Keeps part (act >>= f) := by
  intro s
  have hfirst := h s
  rw [attempt_bind]
  rcases hrun : act.attempt s with ⟨_ | a, t⟩
  · rw [hrun] at hfirst
    exact hfirst
  · rw [hrun] at hfirst
    exact (hf a t).trans hfirst

/-- A look at the state changes nothing. -/
theorem get_bind {f : σ → Act σ α} (h : ∀ s, Keeps part (f s)) : Keeps part (get >>= f) :=
  fun s => h s s

end Keeps

/-! ## Notes -/

/-- Does something, and adds what there is to note of its outcome to the notes that are kept beside
the state. -/
def noting (note : Except Fault α → List ε) (act : Act σ α) : Act (σ × List ε) α :=
  fun (s, notes) =>
    match act s with
    | .ok a t => .ok a (t, notes ++ note (.ok a))
    | .error f t => .error f (t, notes ++ note (.error f))

theorem attempt_noting (note : Except Fault α → List ε) (act : Act σ α) (s : σ) (notes : List ε) :
    (act.noting note).attempt (s, notes) =
      ((act.attempt s).1, (act.attempt s).2, notes ++ note (act.attempt s).1) := by
  unfold attempt noting
  simp only
  cases act s <;> rfl

/-- A note of a result, and none of a fault. -/
def noteResult (note : α → ε) : Except Fault α → List ε
  | .ok a => [note a]
  | .error _ => []

/-- What can come of a computation. -/
def CanEnd (act : Act σ α) (outcome : Except Fault α) : Prop := ∃ s, (act.attempt s).1 = outcome

/-- `watched` does what `act` does, and adds notes that fit the outcome. -/
def Watched (act : Act σ α) (watched : Act (σ × List ε) α)
    (fit : Except Fault α → List ε → Prop) : Prop :=
  ∀ s notes, ∃ more, fit (act.attempt s).1 more ∧
    watched.attempt (s, notes) = ((act.attempt s).1, (act.attempt s).2, notes ++ more)

namespace Watched
variable {act : Act σ α} {watched : Act (σ × List ε) α} {fit : Except Fault α → List ε → Prop}

theorem mono {fit' : Except Fault α → List ε → Prop} (h : Watched act watched fit)
    (himp : ∀ outcome more, fit outcome more → fit' outcome more) : Watched act watched fit' := by
  intro s notes
  obtain ⟨more, hfit, hrun⟩ := h s notes
  exact ⟨more, himp _ _ hfit, hrun⟩

theorem noting (note : Except Fault α → List ε) (act : Act σ α) :
    Watched act (act.noting note) fun outcome more => act.CanEnd outcome ∧ more = note outcome := by
  intro s notes
  exact ⟨_, ⟨⟨s, rfl⟩, rfl⟩, attempt_noting note act s notes⟩

theorem pure (a : α) :
    Watched (Pure.pure a : Act σ α) (Pure.pure a : Act (σ × List ε) α)
      fun outcome more => outcome = .ok a ∧ more = [] := by
  intro s notes
  exact ⟨[], ⟨rfl, rfl⟩, by simp⟩

theorem throw (f : Fault) :
    Watched (MonadExcept.throw f : Act σ α) (MonadExcept.throw f : Act (σ × List ε) α)
      fun outcome more => outcome = .error f ∧ more = [] := by
  intro s notes
  exact ⟨[], ⟨rfl, rfl⟩, by simp⟩

/-- The notes of two parts in a row, unless the first part ends in a fault. -/
theorem bind {f : α → Act σ β} {g : α → Act (σ × List ε) β}
    {fit' : α → Except Fault β → List ε → Prop} (h : Watched act watched fit)
    (hf : ∀ a, Watched (f a) (g a) (fit' a)) :
    Watched (act >>= f) (watched >>= g) fun outcome more =>
      (∃ e, fit (.error e) more ∧ outcome = .error e) ∨
        ∃ a first rest, fit (.ok a) first ∧ fit' a outcome rest ∧ more = first ++ rest := by
  intro s notes
  obtain ⟨first, hfit, hrun⟩ := h s notes
  rcases hact : act.attempt s with ⟨_ | a, t⟩
  -- a fault in the first part keeps the second from being done
  · rw [hact] at hfit hrun
    refine ⟨first, .inl ⟨_, hfit, ?_⟩, ?_⟩
    · rw [attempt_bind, hact]
    · rw [attempt_bind, attempt_bind, hrun, hact]
  · rw [hact] at hfit hrun
    obtain ⟨rest, hfit', hrun'⟩ := hf a t (notes ++ first)
    refine ⟨first ++ rest, .inr ⟨a, first, rest, hfit, ?_, rfl⟩, ?_⟩
    · rw [attempt_bind, hact]
      exact hfit'
    · rw [attempt_bind, attempt_bind, hrun, hact]
      simp only
      rw [hrun', List.append_assoc]

theorem ite {c : Prop} [Decidable c] {act' : Act σ α} {watched' : Act (σ × List ε) α}
    (h : c → Watched act watched fit) (h' : ¬ c → Watched act' watched' fit) :
    Watched (if c then act else act') (if c then watched else watched') fit := by
  by_cases hc : c
  · rw [if_pos hc, if_pos hc]
    exact h hc
  · rw [if_neg hc, if_neg hc]
    exact h' hc

theorem map {fit : Except Fault α → List ε → Prop} (f : α → β) (h : Watched act watched fit) :
    Watched (f <$> act) (f <$> watched) fun outcome more =>
      ∃ a, fit a more ∧ outcome = a.map f := by
  intro s notes
  obtain ⟨more, hfit, hrun⟩ := h s notes
  have hact : (f <$> act).attempt s = ((act.attempt s).1.map f, (act.attempt s).2) :=
    attempt_map f act s
  refine ⟨more, ⟨_, hfit, ?_⟩, ?_⟩
  · rw [hact]
  · rw [attempt_map, hrun, hact]

end Watched
end HeapBridge.Act
