import HeapBridge.Proofs.Slot.Variables
import HeapBridge.Proofs.World.Sweeping

/-!
# Slots in the encoding in force

Loads and stores that are not told an encoding use the one that was installed last. So what holds of
slots under a given encoding holds of them too, whatever was done before the encoding was installed.
-/
namespace HeapBridge.World
open Slot
variable {ι : Type} {slots : ι → Tagged} {w : World}

/-- What can be done with slots without being told an encoding. -/
inductive SlotUse (ι : Type)
  | load (i : ι)
  | store (i : ι) (o : ObjectRef)
deriving DecidableEq

namespace SlotUse

/-- The same with an encoding. -/
def access : SlotUse ι → Access ι
  | load i => .load i
  | store i o => .store i o

/-- Uses a slot in the encoding in force. -/
def act (slots : ι → Tagged) : SlotUse ι → Act World Answer
  | load i => do return .loaded (← loadSlot (slots i))
  | store i o => do
    storeSlot (slots i) o
    return .stored

/-- Uses slots one after the other. -/
def actAll (slots : ι → Tagged) : List (SlotUse ι) → Act World (List Answer)
  | [] => return []
  | u :: us => do
    let answer ← u.act slots
    let answers ← actAll slots us
    return answer :: answers

theorem act_of_run {u : SlotUse ι} {answer : Answer} {m : Memory}
    (h : u.access.run slots w.encoding w.memory = .ok (answer, m)) :
    u.act slots w = .ok answer { w with memory := m } := by
  cases u with
  | load i =>
    change (readMemory ((slots i).load w.encoding) >>= _) w = _
    rw [access, Access.run] at h
    cases hload : (slots i).load w.encoding w.memory with
    | error f =>
      rw [hload] at h
      cases h
    | ok o =>
      rw [hload] at h
      cases h
      rw [Act.bind_of_ok (readMemory_of_ok hload)]
      rfl
  | store i o =>
    change (updateMemory ((slots i).store o w.encoding) >>= _) w = _
    rw [access, Access.run] at h
    cases hstore : (slots i).store o w.encoding w.memory with
    | error f =>
      rw [hstore] at h
      cases h
    | ok m' =>
      rw [hstore] at h
      cases h
      rw [Act.bind_of_ok (updateMemory_of_ok hstore)]
      rfl

/-- Uses answer what the same accesses answer with the encoding in force, by induction over them. -/
theorem actAll_of_runAll {us : List (SlotUse ι)} {answers : List Answer} {m : Memory}
    (h : Access.runAll slots w.encoding (us.map access) w.memory = .ok (answers, m)) :
    actAll slots us w = .ok answers { w with memory := m } := by
  induction us generalizing w answers with
  | nil =>
    cases h
    rfl
  | cons u us ih =>
    rw [List.map_cons, Access.runAll] at h
    rcases hrun : u.access.run slots w.encoding w.memory with f | ⟨answer, m₁⟩
    · rw [hrun] at h
      cases h
    rcases hrest : Access.runAll slots w.encoding (us.map access) m₁ with f | ⟨answers', m₂⟩
    · rw [hrun] at h
      change Access.runAll slots w.encoding (us.map access) m₁ >>= _ = _ at h
      rw [hrest] at h
      cases h
    · rw [hrun] at h
      change Access.runAll slots w.encoding (us.map access) m₁ >>= _ = _ at h
      rw [hrest] at h
      cases h
      rw [actAll, Act.bind_of_ok (act_of_run hrun), Act.bind_of_ok (ih hrest)]
      rfl

end SlotUse

/-! ## Any accesses -/

variable [DecidableEq ι] {e : Option Encoding} {m : Memory} {v : ι → ObjectRef}

/-- What accesses to slots come to that hold the references in variables at first. -/
structure LikeVariables (slots : ι → Tagged) (e : Option Encoding) (m : Memory)
    (v : ι → ObjectRef) : Prop where
  /-- The bytes of every slot stand for the reference that its variable begins with. -/
  initial : ∀ i, (slots i).meaning e ((slots i).number e m) = .ok (v i)
  /-- Accesses are answered by the variables, and leave them in the slots. -/
  answered : ∀ as : List (Access ι), (∀ a ∈ as, a.IsProper slots e) →
    ∃ m', Access.runAll slots e as m = .ok (Access.answers as v, m') ∧
      (∀ i, (slots i).load e m' = .ok (Access.valuesAfter as v i)) ∧
      (∀ x, (∀ a ∈ as, ¬ (slots a.index).Covers e x) → m'.byte x = m.byte x) ∧
      -- whatever the next access is, it touches its own slot at most
      ∀ a : Access ι, a.IsProper slots e →
        ∃ m'', Performs slots e (Access.valuesAfter as v) a m' m''
  /-- So do those that use the encoding that was installed last, whatever was done before. -/
  installed : ∀ w : World, w.memory = m → ∀ us : List (SlotUse ι),
    (∀ u ∈ us, u.access.IsProper slots e) →
    ∃ m', Access.runAll slots e (us.map SlotUse.access) m =
        .ok (Access.answers (us.map SlotUse.access) v, m') ∧
      (install e >>= fun _ => SlotUse.actAll slots us) w =
        .ok (Access.answers (us.map SlotUse.access) v) { w with encoding := e, memory := m' }

/-- Slots that share no bytes behave like independent variables. -/
theorem slots_like_variables (hfits : ∀ enc ∈ e, enc.Fits) (h : Separate slots e m) :
    ∃ v, LikeVariables slots e m v := by
  choose v hv using fun i => Tagged.exists_meaning hfits (slots i) ((slots i).number e m)
  refine ⟨v, hv, ?_, ?_⟩
  · intro as has
    obtain ⟨m', hrun, hv', h', hspares⟩ := Access.exists_runAll hfits h hv has
    exact ⟨m', hrun, h'.load_eq hv', hspares, fun a ha => Access.exists_performs hfits h' hv' ha⟩
  · rintro w rfl us hus
    have has : ∀ a ∈ us.map SlotUse.access, a.IsProper slots e := by
      intro a ha
      obtain ⟨u, hu, rfl⟩ := List.mem_map.mp ha
      exact hus u hu
    obtain ⟨m', hrun, -⟩ := Access.exists_runAll hfits h hv has
    refine ⟨m', hrun, ?_⟩
    change SlotUse.actAll slots us { w with encoding := e } = _
    exact SlotUse.actAll_of_runAll hrun

/-- Two narrow slots in one word, and a whole-word slot behind them. -/
def neighbours : Fin 3 → Tagged
  | 0 => .narrow 0x10000000
  | 1 => .narrow 0x10000004
  | 2 => .wide 0x10000008 true

theorem slots_like_variables_neighbours :
    let e : Option Encoding := some ⟨0x700000000, 3⟩
    ((∀ enc ∈ e, enc.Fits) ∧ Separate neighbours e arena) ∧
      ∃ v, LikeVariables neighbours e arena v := by
  intro e
  have hfits : ∀ enc ∈ e, enc.Fits := by
    intro enc henc
    obtain rfl := Option.some.inj henc
    constructor <;> decide
  have hseparate : Separate neighbours e arena := by
    constructor
    · intro i
      match i with
      | 0 | 1 | 2 => rfl
    · intro i j hij x hi hj
      have hplaces : ∀ k, (neighbours k).address.toNat = 0x10000000 + 4 * k.val ∧
          (k.val < 2 → ((neighbours k).width e).bytes = 4) := by decide
      have hi' := hplaces i
      have hj' := hplaces j
      simp only [Tagged.Covers] at hi hj
      omega
  exact ⟨⟨hfits, hseparate⟩, slots_like_variables hfits hseparate⟩

end HeapBridge.World
