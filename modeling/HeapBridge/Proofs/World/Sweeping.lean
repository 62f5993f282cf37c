import HeapBridge.Proofs.Barrier.Surroundings
import HeapBridge.Proofs.Slot.Mark
import HeapBridge.World.Scanning

/-!
# Sweeping

A sweep reads weak slots and the headers of live objects, and writes into the slots again. As long
as these can be read it goes through, and it changes nothing but what the slots hold.
-/
namespace HeapBridge.World
variable {w w' w'' : World}

/-- Events of a sweep. -/
def Event.isOfSweep : Event → Bool
  | isLive _ | sweep _ => true
  | _ => false

/-- What a sweep reads is in memory. -/
structure Sweepable (w : World) : Prop where
  slots : ∀ storage, ∀ slot ∈ w.host.weakSlots storage, w.memory.admits slot .wide = true
  live : ∀ o ∈ w.collector.live, w.memory.admits o .wide = true

theorem Sweepable.congr (h : Sweepable w) (hhost : w'.host = w.host)
    (hmemory : w'.memory = w.memory) (hcollector : w'.collector = w.collector) :
    Sweepable w' := by
  constructor
  · rw [hhost, hmemory]
    exact h.slots
  · rw [hcollector, hmemory]
    exact h.live

/-- What a sweep may change. -/
structure Swept (w w' : World) : Prop where
  rest : w' = { w with memory := w'.memory, trace := w'.trace }
  admits : ∀ a width, w'.memory.admits a width = w.memory.admits a width
  tally : ∀ e : Event, e.isOfSweep = false → w'.tally e = w.tally e

namespace Swept

theorem refl (w : World) : Swept w w := ⟨rfl, fun _ _ => rfl, fun _ _ => rfl⟩

theorem trans (h : Swept w w') (h' : Swept w' w'') : Swept w w'' where
  rest := by
    have hrest := h'.rest
    rw [h.rest] at hrest
    exact hrest
  admits a width := (h'.admits a width).trans (h.admits a width)
  tally e he := (h'.tally e he).trans (h.tally e he)

/-- What could be swept still can be. -/
theorem sweepable (h : Swept w w') (hw : Sweepable w) : Sweepable w' := by
  constructor
  · intro storage slot hslot
    rw [h.rest] at hslot
    exact (h.admits slot .wide).trans (hw.slots storage slot hslot)
  · intro o ho
    rw [h.rest] at ho
    exact (h.admits o .wide).trans (hw.live o ho)

theorem memory {m : Memory} (h : ∀ a width, m.admits a width = w.memory.admits a width) :
    Swept w { w with memory := m } := ⟨rfl, h, fun _ _ => rfl⟩

theorem emit {e : Event} (h : e.isOfSweep = true) :
    Swept w { w with trace := w.trace ++ [e] } where
  rest := rfl
  admits _ _ := rfl
  tally e' he' := by
    have hne : e ≠ e' := by
      rintro rfl
      rw [h] at he'
      cases he'
    simp [World.tally, List.count_append, hne]

end Swept

theorem readMemory_of_ok {α : Type} {f : Memory → Except Fault α} {a : α}
    (h : f w.memory = .ok a) : readMemory f w = .ok a w := by
  change (Act.lift (f w.memory) : Act World α) w = _
  rw [h]
  rfl

theorem updateMemory_of_ok {f : Memory → Except Fault Memory} {m : Memory}
    (h : f w.memory = .ok m) : updateMemory f w = .ok () { w with memory := m } := by
  have hrun : updateMemory f w = (Act.lift (do return ((), ← f w.memory)) >>= fun p =>
      (do modify fun w => { w with memory := p.2 }; return p.1) : Act World Unit) w := rfl
  rw [hrun, h]
  rfl

/-- A word goes into a slot. -/
theorem swept_store {slot : Address} (hslot : w.memory.admits slot .wide = true) (v : Word) :
    ∃ w', updateMemory (·.store slot .wide v) w = .ok () w' ∧ Swept w w' := by
  have hstore : w.memory.store slot .wide v = .ok (w.memory.write slot v Width.wide.bytes) :=
    if_pos hslot
  refine ⟨_, updateMemory_of_ok hstore, .memory fun a width => ?_⟩
  exact Memory.admits_write w.memory slot a v Width.wide.bytes width

/-- A slot that holds null or a readable object can follow it. -/
theorem swept_follow {slot : Address} {o : ObjectRef} (hslot : w.memory.admits slot .wide = true)
    (hload : w.memory.load slot .wide = .ok o) (hobject : w.memory.admits o .wide = true) :
    ∃ w', follow slot w = .ok () w' ∧ Swept w w' := by
  rw [follow, Act.bind_of_ok (readMemory_of_ok hload)]
  by_cases hnull : o = 0
  · exact ⟨w, by rw [if_pos hnull]; rfl, .refl w⟩
  · rw [if_neg hnull]
    have hplace : Object.placeOf? w.memory o =
        .ok (Object.forwardedTo? (w.memory.read o Width.wide.bytes)) := by
      rw [Object.placeOf?, Object.header, Memory.load_of_admits hobject]
      rfl
    change ∃ w', (readMemory (Object.placeOf? · o) >>= _) w = _ ∧ _
    rw [Act.bind_of_ok (readMemory_of_ok hplace)]
    cases Object.forwardedTo? (w.memory.read o Width.wide.bytes) with
    | none => exact ⟨w, rfl, .refl w⟩
    | some place => exact swept_store hslot place

theorem swept_sweepSlot (hw : Sweepable w) {slot : Address}
    (hslot : w.memory.admits slot .wide = true) :
    ∃ w', sweepSlot slot w = .ok () w' ∧ Swept w w' := by
  have hload := Memory.load_of_admits hslot
  generalize w.memory.read slot Width.wide.bytes = o at hload
  rw [sweepSlot, Act.bind_of_ok (readMemory_of_ok hload)]
  by_cases hnull : o = 0
  · exact ⟨w, by rw [if_pos hnull]; rfl, .refl w⟩
  · rw [if_neg hnull]
    have hasked := Swept.emit (w := w) (e := .isLive o) rfl
    have hlive : isLive o w =
        .ok (w.collector.isLive o) { w with trace := w.trace ++ [.isLive o] } := rfl
    change ∃ w', (isLive o >>= _) w = _ ∧ _
    rw [Act.bind_of_ok hlive]
    cases hkept : w.collector.isLive o with
    | true =>
      obtain ⟨w', hrun, hswept⟩ := swept_follow (w := { w with trace := w.trace ++ [.isLive o] })
        hslot hload (hw.live o (List.contains_iff_mem.mp hkept))
      exact ⟨w', hrun, hasked.trans hswept⟩
    | false =>
      obtain ⟨w', hrun, hswept⟩ :=
        swept_store (w := { w with trace := w.trace ++ [.isLive o] }) hslot 0
      exact ⟨w', hrun, hasked.trans hswept⟩

/-- Steps that each sweep a part, one after the other. -/
theorem swept_forM {α : Type} {act : α → Act World Unit} {items : List α}
    (hitems : ∀ a ∈ items, ∀ w', Swept w w' → Sweepable w' →
      ∃ w'', act a w' = .ok () w'' ∧ Swept w' w'')
    (hw : Sweepable w) : ∃ w', items.forM act w = .ok () w' ∧ Swept w w' := by
  induction items generalizing w with
  | nil => exact ⟨w, rfl, .refl w⟩
  | cons a items ih =>
    obtain ⟨w₁, hfirst, hswept₁⟩ := hitems a List.mem_cons_self w (.refl w) hw
    obtain ⟨w₂, hrest, hswept₂⟩ := ih
      (fun b hb w' hw' => hitems b (List.mem_cons_of_mem a hb) w' (hswept₁.trans hw'))
      (hswept₁.sweepable hw)
    refine ⟨w₂, ?_, hswept₁.trans hswept₂⟩
    change (act a >>= fun _ => items.forM act) w = _
    rw [Act.bind_of_ok hfirst, hrest]

theorem swept_sweep (hw : Sweepable w) (storage : Scan.WeakStorage) :
    ∃ w', sweep storage w = .ok () w' ∧ Swept w w' := by
  have hnamed := Swept.emit (w := w) (e := .sweep storage) rfl
  have hslots : ∀ slot ∈ w.host.weakSlots storage,
      ∀ w', Swept { w with trace := w.trace ++ [.sweep storage] } w' → Sweepable w' →
      ∃ w'', sweepSlot slot w' = .ok () w'' ∧ Swept w' w'' := by
    intro slot hslot w' hswept hw'
    exact swept_sweepSlot hw' ((hswept.admits slot .wide).trans (hw.slots storage slot hslot))
  obtain ⟨w', hrun, hswept⟩ := swept_forM hslots (hnamed.sweepable hw)
  exact ⟨w', hrun, hnamed.trans hswept⟩

/-- The sweep at the end of a pause goes through. -/
theorem swept_sweepAll (hw : Sweepable w) : ∃ w', sweepAll w = .ok () w' ∧ Swept w w' :=
  swept_forM (fun storage _ _ _ hw' => swept_sweep hw' storage) hw

end HeapBridge.World
