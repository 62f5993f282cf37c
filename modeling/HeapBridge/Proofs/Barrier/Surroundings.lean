import HeapBridge.Barrier.Surroundings

/-!
# Surroundings under observation

A barrier is known by the steps that it takes of its surroundings and by the state that it leaves
them in. `traced` keeps the steps beside the state of arbitrary surroundings, so that two barriers
can be compared by both. `Faultless` surroundings let every step succeed: a barrier that ends in
them in every state has no fault of its own.
-/
namespace HeapBridge

/-- Where two parts succeed one after the other, the first does. -/
theorem exists_of_bind {α β : Type} {x : Except Fault α} {f : α → Except Fault β} {b : β}
    (h : (x >>= f) = .ok b) : ∃ a, x = .ok a ∧ f a = .ok b := by
  cases x with
  | error e => cases h
  | ok a => exact ⟨a, rfl, h⟩

theorem Act.bind_of_ok {σ α β : Type} {act : Act σ α} {f : α → Act σ β} {s t : σ} {a : α}
    (h : act s = .ok a t) : (act >>= f) s = f a t := by
  change EStateM.bind act f s = _
  rw [EStateM.bind, h]

theorem Act.bind_of_error {σ α β : Type} {act : Act σ α} {f : α → Act σ β} {s t : σ} {e : Fault}
    (h : act s = .error e t) : (act >>= f) s = .error e t := by
  change EStateM.bind act f s = _
  rw [EStateM.bind, h]

/-- What follows a look at the state sees the state and is done in it. -/
theorem Act.get_bind {σ α : Type} (f : σ → Act σ α) (s : σ) : (get >>= f) s = f s s := rfl

theorem Act.change_of_ok {σ : Type} {f : σ → Except Fault σ} {s t : σ} (h : f s = .ok t) :
    Act.change f s = .ok () t := by
  have hrun : Act.change f s = (Act.lift (f s) >>= set) s := rfl
  rw [hrun, h]
  rfl

/-- A computation that gives a result in every state. -/
def Act.Total {σ α : Type} (act : Act σ α) : Prop := ∀ s, ∃ a t, act s = .ok a t

namespace Act.Total
variable {σ α β : Type}

theorem pure (a : α) : Act.Total (Pure.pure a : Act σ α) := fun s => ⟨a, s, rfl⟩

theorem bind {act : Act σ α} {f : α → Act σ β} (h : act.Total) (hf : ∀ a, (f a).Total) :
    (act >>= f).Total := by
  intro s
  obtain ⟨a, t, ht⟩ := h s
  obtain ⟨b, u, hu⟩ := hf a t
  refine ⟨b, u, ?_⟩
  rw [Act.bind_of_ok ht, hu]

theorem ite {c : Prop} [Decidable c] {act act' : Act σ α} (h : act.Total) (h' : act'.Total) :
    (if c then act else act').Total := by
  split
  · exact h
  · exact h'

theorem forM {xs : List α} {f : α → Act σ Unit} (h : ∀ x ∈ xs, (f x).Total) : (xs.forM f).Total := by
  induction xs with
  | nil => exact pure ()
  | cons x xs ih =>
    rw [List.forM_eq_forM, List.forM_cons]
    exact (h x List.mem_cons_self).bind fun _ => ih fun y hy => h y (List.mem_cons_of_mem x hy)

end Act.Total

namespace Barrier
variable {σ : Type}

/-- Surroundings in which nothing fails. -/
structure Surroundings.Faultless (env : Surroundings σ) : Prop where
  loadMetadata : ∀ a, (env.loadMetadata a).Total
  loadFlag : env.loadFlag.Total
  isReference : ∀ o, (env.isReference o).Total
  call : ∀ c, (env.call c).Total
  copy : ∀ src dst size, (env.copy src dst size).Total
  fence : env.fence.Total

/-- Does something, and adds it to the steps that are kept beside the state. -/
def Event.noted {α : Type} (e : Event) (act : Act σ α) : Act (σ × List Event) α :=
  fun (s, steps) =>
    match act s with
    | .ok a t => .ok a (t, steps ++ [e])
    | .error f t => .error f (t, steps ++ [e])

/-- The same surroundings, with all steps that are taken of them kept in order. -/
def Surroundings.traced (env : Surroundings σ) : Surroundings (σ × List Event) where
  loadMetadata a := (Event.loadMetadata a).noted (env.loadMetadata a)
  loadFlag := Event.loadFlag.noted env.loadFlag
  isReference o := (Event.checkReference o).noted (env.isReference o)
  call c := (Event.call c).noted (env.call c)
  copy src dst size := (Event.copy src dst size).noted (env.copy src dst size)
  fence := Event.fence.noted env.fence

/-- The steps that a barrier takes of its surroundings when it starts in state `s`. -/
def Surroundings.steps (env : Surroundings σ) (s : σ)
    (barrier : ∀ τ : Type, Surroundings τ → Act τ Unit) : List Event :=
  ((barrier _ env.traced).attempt (s, [])).2.2

/-- A barrier does what a model of it does, whatever the surroundings. It takes the same steps of
them in the same order, it has the same outcome and leaves the same state, and it ends without a
fault where nothing around it fails. -/
structure Refines (barrier model : ∀ σ : Type, Surroundings σ → Act σ Unit) : Prop where
  steps_eq : ∀ {σ : Type} (env : Surroundings σ) (s : σ), env.steps s barrier = env.steps s model
  outcome_eq : ∀ {σ : Type} (env : Surroundings σ) (s : σ), barrier σ env s = model σ env s
  ends : ∀ {σ : Type} (env : Surroundings σ) (s : σ), env.Faultless →
    ∃ t, barrier σ env s = .ok () t

theorem Refines.of_eq {barrier model : ∀ σ : Type, Surroundings σ → Act σ Unit}
    (h : ∀ {σ : Type} (env : Surroundings σ), barrier σ env = model σ env)
    (htotal : ∀ {σ : Type} (env : Surroundings σ), env.Faultless → (model σ env).Total) :
    Refines barrier model := by
  constructor
  · intro σ env s
    rw [Surroundings.steps, Surroundings.steps, h]
  · intro σ env s
    rw [h]
  · intro σ env s he
    obtain ⟨u, t, ht⟩ := htotal env he s
    exact ⟨t, by rw [h, ht]⟩

end Barrier
end HeapBridge
