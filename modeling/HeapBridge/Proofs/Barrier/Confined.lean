import HeapBridge.Barrier.Direct
import HeapBridge.Barrier.Graph
import HeapBridge.Proofs.Barrier.Surroundings

/-!
# Steps that are never taken

A barrier may be kept from some steps, whatever its surroundings answer. `Confined` says so of a
computation, together with what stays true of the state while nothing but the other steps are taken.
It has a rule for each way in which barriers are put together. A computation that fails is confined
up to its fault.
-/
namespace HeapBridge.Barrier
variable {σ α β : Type} {ok : Event → Prop} {inv : σ → Prop}

/-- A computation in traced surroundings that takes no steps but those of which `ok` holds. It leaves
the state within `inv`, and `post` holds of its result. -/
def Confined (ok : Event → Prop) (inv : σ → Prop) (act : Act (σ × List Event) α)
    (post : α → Prop) : Prop :=
  ∀ s steps, inv s → (∀ e ∈ steps, ok e) →
    match act (s, steps) with
    | .ok a (t, steps') => inv t ∧ (∀ e ∈ steps', ok e) ∧ post a
    | .error _ (_, steps') => ∀ e ∈ steps', ok e

/-- A computation that leaves the state within `inv` if it succeeds. -/
def StaysIn (inv : σ → Prop) (act : Act σ α) : Prop := ∀ s, inv s → ∀ a t, act s = .ok a t → inv t

/-- Steps of which `ok` holds leave the state within `inv`. -/
structure Surroundings.Keeps (env : Surroundings σ) (ok : Event → Prop) (inv : σ → Prop) :
    Prop where
  loadMetadata : ∀ a, ok (.loadMetadata a) → StaysIn inv (env.loadMetadata a)
  loadFlag : ok .loadFlag → StaysIn inv env.loadFlag
  isReference : ∀ o, ok (.checkReference o) → StaysIn inv (env.isReference o)
  call : ∀ c, ok (.call c) → StaysIn inv (env.call c)
  copy : ∀ src dst size, ok (.copy src dst size) → StaysIn inv (env.copy src dst size)
  fence : ok .fence → StaysIn inv env.fence

/-- Nothing has to stay. -/
theorem Surroundings.keeps_true (env : Surroundings σ) (ok : Event → Prop) :
    env.Keeps ok fun _ => True := by
  constructor <;> intros <;> exact fun _ _ _ _ _ => trivial

namespace Confined
variable {act act' : Act (σ × List Event) α} {post : α → Prop}

theorem pure {a : α} (h : post a) : Confined ok inv (Pure.pure a) post :=
  fun _ _ hs hsteps => ⟨hs, hsteps, h⟩

theorem throw (f : Fault) : Confined ok inv (MonadExcept.throw f) post := fun _ _ _ hsteps => hsteps

theorem lift {e : Except Fault α} (h : ∀ a, e = .ok a → post a) :
    Confined ok inv (Act.lift e) post := by
  cases e with
  | error f => exact throw f
  | ok a => exact pure (h a rfl)

theorem lift_any (e : Except Fault α) : Confined ok inv (Act.lift e) fun _ => True :=
  lift fun _ _ => trivial

theorem any (a : α) : Confined ok inv (Pure.pure a : Act (σ × List Event) α) fun _ => True :=
  pure trivial

theorem bind {f : α → Act (σ × List Event) β} {post' : β → Prop} (h : Confined ok inv act post)
    (hf : ∀ a, post a → Confined ok inv (f a) post') : Confined ok inv (act >>= f) post' := by
  intro s steps hs hsteps
  have hact := h s steps hs hsteps
  cases hrun : act (s, steps) with
  | error e t =>
    rw [Act.bind_of_error hrun]
    rwa [hrun] at hact
  | ok a t =>
    rw [hrun] at hact
    obtain ⟨ht, hsteps', ha⟩ := hact
    rw [Act.bind_of_ok hrun]
    exact hf a ha t.1 t.2 ht hsteps'

theorem mono {post' : α → Prop} (h : Confined ok inv act post) (hpost : ∀ a, post a → post' a) :
    Confined ok inv act post' := by
  intro s steps hs hsteps
  have hact := h s steps hs hsteps
  cases hrun : act (s, steps) with
  | error e t => rwa [hrun] at hact
  | ok a t =>
    rw [hrun] at hact
    exact ⟨hact.1, hact.2.1, hpost a hact.2.2⟩

theorem ite {c : Prop} [Decidable c] (h : c → Confined ok inv act post)
    (h' : ¬c → Confined ok inv act' post) : Confined ok inv (if c then act else act') post := by
  split
  · exact h ‹_›
  · exact h' ‹_›

theorem noted {act : Act σ α} {e : Event} (he : ok e) (h : StaysIn inv act)
    (hpost : ∀ s, inv s → ∀ a t, act s = .ok a t → post a) : Confined ok inv (e.noted act) post := by
  intro s steps hs hsteps
  have hall : ∀ x ∈ steps ++ [e], ok x := by simpa [or_imp, forall_and] using ⟨hsteps, he⟩
  rw [Event.noted]
  cases hrun : act s with
  | error f t => exact hall
  | ok a t => exact ⟨h s hs a t hrun, hall, hpost s hs a t hrun⟩

end Confined

/-! ## Single steps -/

namespace Surroundings.Keeps
variable {env : Surroundings σ}

section
variable (h : env.Keeps ok inv)
include h

theorem confined_loadMetadata {a : Address} (ha : ok (.loadMetadata a)) :
    Confined ok inv (env.traced.loadMetadata a) fun _ => True :=
  .noted ha (h.loadMetadata a ha) fun _ _ _ _ _ => trivial

theorem confined_loadFlag (hf : ok .loadFlag) : Confined ok inv env.traced.loadFlag fun _ => True :=
  .noted hf (h.loadFlag hf) fun _ _ _ _ _ => trivial

theorem confined_isReference {o : ObjectRef} (ho : ok (.checkReference o)) :
    Confined ok inv (env.traced.isReference o) fun _ => True :=
  .noted ho (h.isReference o ho) fun _ _ _ _ _ => trivial

theorem confined_call {c : Call} (hc : ok (.call c)) :
    Confined ok inv (env.traced.call c) fun _ => True :=
  .noted hc (h.call c hc) fun _ _ _ _ _ => trivial

theorem confined_copy {src dst : ObjectRef} {size : Word} (hc : ok (.copy src dst size)) :
    Confined ok inv (env.traced.copy src dst size) fun _ => True :=
  .noted hc (h.copy src dst size hc) fun _ _ _ _ _ => trivial

theorem confined_fence (hf : ok .fence) : Confined ok inv env.traced.fence fun _ => True :=
  .noted hf (h.fence hf) fun _ _ _ _ _ => trivial

end
end Surroundings.Keeps
end HeapBridge.Barrier
