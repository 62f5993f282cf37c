import HeapBridge.Barrier.Config

/-!
# What compilers know

A compiler looks at an access once, and its code then serves every access that agrees with that one
on what the compiler looked at. All other operands may differ from run to run. Compiled tests are
comparisons of words, whatever they ask about.
-/
namespace HeapBridge.Barrier

/-- Two accesses are of one kind and agree on what the baseline compiler looks at. Whether a field
has to be patched is not part of it. -/
def Access.AgreesForBaseline : Access → Access → Prop
  | .store s, .store t =>
    s.inHeap = t.inHeap ∧ s.nullConstant = t.nullConstant ∧ s.freshObject = t.freshObject
  | .load l, .load m => l.inHeap = m.inHeap ∧ l.strength = m.strength
  | .arrayCopy c, .arrayCopy d => c.ofReferences = d.ofReferences ∧ c.freshTarget = d.freshTarget
  | .clone c, .clone d => c.freshTarget = d.freshTarget
  | _, _ => False

/-- Two loads agree on what is known of their base, and on their offset if it is constant. -/
def Load.AgreesOnBase (l m : Load) : Prop :=
  l.facts = m.facts ∧ l.offsetIsConstant = m.offsetIsConstant ∧
    (l.offsetIsConstant = true → l.offset = m.offset)

/-- Two accesses are of one kind and agree on what the optimizing compiler looks at. -/
def Access.AgreesForOptimizing (a b : Access) : Prop :=
  a.AgreesForBaseline b ∧
    match a, b with
    | .load l, .load m => l.AgreesOnBase m
    | _, _ => True

theorem Store.isElidable_congr {s t : Store} (hnull : s.nullConstant = t.nullConstant)
    (hfresh : s.freshObject = t.freshObject) : s.isElidable = t.isElidable := by
  rw [isElidable, isElidable, hnull, hfresh]

theorem Load.needsBarrier_congr {l m : Load} (hin : l.inHeap = m.inHeap)
    (hstrength : l.strength = m.strength) (cfg : Config) :
    l.needsBarrier cfg = m.needsBarrier cfg := by
  rw [needsBarrier, needsBarrier, hin, hstrength]

theorem Load.AgreesOnBase.cannotReadReferent_congr {l m : Load} (h : l.AgreesOnBase m)
    (cfg : Config) : l.cannotReadReferent cfg = m.cannotReadReferent cfg := by
  obtain ⟨hfacts, hconst, hoffset⟩ := h
  rw [cannotReadReferent, cannotReadReferent, ← hfacts, ← hconst]
  cases hc : l.offsetIsConstant with
  | false => rfl
  | true => rw [hoffset hc]

theorem Access.AgreesForBaseline.refl (a : Access) : a.AgreesForBaseline a := by
  cases a <;> simp [AgreesForBaseline]

theorem Access.AgreesForOptimizing.refl (a : Access) : a.AgreesForOptimizing a := by
  refine ⟨.refl a, ?_⟩
  cases a <;> simp [Load.AgreesOnBase]

/-! ## Comparisons -/

theorem bit_beq_one (b : Bool) : ((if b then 1 else 0 : Word) == 1) = b := by
  cases b <;> rfl

theorem bit_bne_one (b : Bool) : ((if b then 1 else 0 : Word) != 1) = !b := by
  cases b <;> rfl

theorem bit_beq_zero (b : Bool) : ((if b then 1 else 0 : Word) == 0) = !b := by
  cases b <;> rfl

theorem bit_bne_zero (b : Bool) : ((if b then 1 else 0 : Word) != 0) = b := by
  cases b <;> rfl

theorem flag_bne_zero (flag : UInt8) : (flag.toUInt64 != 0) = !(flag == 0) := by
  have hz : flag.toUInt64 = 0 ↔ flag = 0 := by
    rw [← UInt64.toNat_inj, ← UInt8.toNat_inj, UInt8.toNat_toUInt64]
    rfl
  rw [Bool.eq_iff_iff]
  simp [hz]

theorem offset_beq (a b : Int64) : (a.toUInt64 == b.toUInt64) = (a == b) := by
  have hinj : a.toUInt64 = b.toUInt64 ↔ a = b := by
    refine ⟨fun h => ?_, congrArg _⟩
    rw [← Int64.toInt64_toUInt64 a, h, Int64.toInt64_toUInt64]
  rw [Bool.eq_iff_iff]
  simp [hinj]

end HeapBridge.Barrier
