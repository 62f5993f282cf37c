import HeapBridge.Slot.Tagged
import Mathlib.Data.Nat.Bitwise

/-!
# The mark of a slot

The mark is the top bit of a slot address, so it is there exactly from half of the address space on.
A slot below that comes back from its marked address, and is read with the width that the mark says.
-/
namespace HeapBridge

namespace Memory
variable {m : Memory} {a : Address} {w : Width}

theorem require_eq_ok_iff : m.require a w = .ok () ↔ m.admits a w = true := by
  unfold require
  split <;> simp_all

theorem load_of_admits (h : m.admits a w = true) : m.load a w = .ok (m.read a w.bytes) :=
  if_pos h

theorem load_eq_ok_iff {v : Word} :
    m.load a w = .ok v ↔ m.admits a w = true ∧ m.read a w.bytes = v := by
  unfold load
  split <;> simp_all

end Memory

namespace Slot

/-- Every narrow value stands for a reference. -/
def Encoding.Decodes (e : Encoding) : Prop := ∀ narrow, ∃ o, e.decode narrow = .ok o

/-- A base so far below the top that the largest distance still fits. -/
theorem Encoding.decodes_of_le {enc : Encoding} (hshift : enc.shift < 64)
    (h : enc.base.toNat + 2 ^ 32 * 2 ^ enc.shift.toNat ≤ 2 ^ 64) : enc.Decodes := by
  intro narrow
  by_cases hzero : narrow = 0
  · exact ⟨0, if_pos hzero⟩
  · have hlt : narrow.toUInt64.toNat < 2 ^ 32 := by
      rw [UInt32.toNat_toUInt64]
      exact narrow.toNat_lt
    have hdistance : (narrow.toUInt64 <<< enc.shift).toNat ≤
        narrow.toUInt64.toNat * 2 ^ enc.shift.toNat := by
      have hlt : enc.shift.toNat < 64 := UInt64.lt_iff_toNat_lt.mp hshift
      rw [UInt64.toNat_shiftLeft, Nat.shiftLeft_eq, Nat.mod_eq_of_lt hlt]
      exact Nat.mod_le _ _
    have hsum : enc.base.toNat + (narrow.toUInt64 <<< enc.shift).toNat < UInt64.size := by
      have hmul := Nat.mul_lt_mul_of_pos_right hlt (Nat.two_pow_pos enc.shift.toNat)
      simp only [UInt64.size]
      omega
    refine ⟨enc.base + narrow.toUInt64 <<< enc.shift, ?_⟩
    rw [decode, if_neg hzero, Word.shiftLeft, if_pos hshift]
    exact Word.add_eq_ok_iff.mpr (by rw [UInt64.toNat_add, Nat.mod_eq_of_lt hsum])

namespace Tagged
variable {slot : Address} {e : Option Encoding} {enc : Encoding} {m : Memory}

theorem toNat_wideTag : wideTag.toNat = 2 ^ 63 := rfl

theorem and_wideTag_eq_zero_iff {w : Word} : w &&& wideTag = 0 ↔ w.toNat < 2 ^ 63 := by
  have hlt : w.toNat < 2 ^ 64 := w.toNat_lt
  rw [← UInt64.toNat_inj, UInt64.toNat_and, toNat_wideTag, UInt64.toNat_zero, Nat.and_two_pow]
  cases hbit : w.toNat.testBit 63 with
  | false =>
    have hdiv := Nat.testBit_eq_decide_div_mod_eq (x := w.toNat) (i := 63)
    rw [hbit, eq_comm, decide_eq_false_iff_not] at hdiv
    simp only [Bool.toNat_false, Nat.zero_mul, true_iff]
    omega
  | true =>
    have hge := Nat.ge_two_pow_of_testBit hbit
    simp only [Bool.toNat_true, Nat.one_mul]
    omega

/-- Without its mark a word is what it is modulo half of the address space. -/
theorem toNat_address (t : Tagged) : t.address.toNat = t.raw.toNat % 2 ^ 63 := by
  have hlt : t.raw.toNat < 2 ^ 64 := t.raw.toNat_lt
  rw [address, UInt64.toNat_shiftRight, UInt64.toNat_shiftLeft]
  simp only [UInt64.toNat_one, Nat.reduceMod, Nat.shiftLeft_eq, Nat.shiftRight_eq_div_pow]
  omega

theorem toNat_or_wideTag (h : slot &&& wideTag = 0) :
    (slot ||| wideTag).toNat = slot.toNat + 2 ^ 63 := by
  have hor := Nat.two_pow_add_eq_or_of_lt (and_wideTag_eq_zero_iff.mp h) 1
  rw [UInt64.toNat_or, toNat_wideTag, Nat.or_comm, Nat.add_comm]
  simpa using hor.symm

theorem isCompressed_iff {t : Tagged} : t.isCompressed = true ↔ t.raw.toNat < 2 ^ 63 := by
  rw [isCompressed, beq_iff_eq, and_wideTag_eq_zero_iff]

/-- A slot comes back from the address that it is passed on by. -/
theorem address_wide (h : slot &&& wideTag = 0) (compressed : Bool) :
    (wide slot compressed).address = slot := by
  have hlt := and_wideTag_eq_zero_iff.mp h
  apply UInt64.toNat_inj.mp
  cases compressed with
  | false => rw [toNat_address, wide_plain, Nat.mod_eq_of_lt hlt]
  | true =>
    rw [toNat_address, wide, if_pos rfl, toNat_or_wideTag h]
    omega

theorem address_narrow (h : slot &&& wideTag = 0) : (narrow slot).address = slot :=
  address_wide h false

theorem isCompressed_wide (h : slot &&& wideTag = 0) : (wide slot true).isCompressed = false := by
  rw [Bool.eq_false_iff, Ne, isCompressed_iff, wide, if_pos rfl, toNat_or_wideTag h]
  omega

theorem isCompressed_narrow (h : slot &&& wideTag = 0) : (narrow slot).isCompressed = true :=
  isCompressed_iff.mpr (and_wideTag_eq_zero_iff.mp h)

/-- A whole-word slot is accessed as one in every heap. -/
theorem narrowEncoding?_wide (h : slot &&& wideTag = 0) (e : Option Encoding) :
    (wide slot e.isSome).narrowEncoding? e = none := by
  cases e with
  | none => exact ite_self _
  | some enc =>
    rw [narrowEncoding?, Option.isSome_some, isCompressed_wide h]
    rfl

theorem load_wide (h : slot &&& wideTag = 0) (e : Option Encoding) (m : Memory) :
    (wide slot e.isSome).load e m = m.load slot .wide := by
  rw [load, narrowEncoding?_wide h, address_wide h]

theorem load_narrow (h : slot &&& wideTag = 0) (enc : Encoding) (m : Memory) :
    (narrow slot).load (some enc) m = m.load slot .narrow >>= fun w => enc.decode w.toUInt32 := by
  rw [load, narrowEncoding?, isCompressed_narrow h]
  rfl

/-- What was loaded could be accessed. -/
theorem require_of_load {t : Tagged} {o : ObjectRef} (h : t.load e m = .ok o) :
    t.require e m = .ok () := by
  cases hn : t.narrowEncoding? e with
  | none =>
    simp only [load, hn, Memory.load_eq_ok_iff] at h
    simp only [require, hn, Memory.require_eq_ok_iff]
    exact h.1
  | some enc =>
    simp only [load, hn] at h
    simp only [require, hn, Memory.require_eq_ok_iff]
    cases hadmits : m.admits t.raw .narrow with
    | true => rfl
    | false => simp [Memory.load, hadmits, bind, Except.bind] at h

theorem mem_of_narrowEncoding? {t : Tagged} {enc : Encoding}
    (h : t.narrowEncoding? e = some enc) : enc ∈ e := by
  unfold narrowEncoding? at h
  split at h
  · exact h
  · cases h

/-- What can be accessed can be loaded, as far as the encoding goes. -/
theorem exists_load {t : Tagged} (hdecodes : ∀ enc ∈ e, enc.Decodes)
    (h : t.require e m = .ok ()) : ∃ o, t.load e m = .ok o := by
  cases hn : t.narrowEncoding? e with
  | none =>
    simp only [require, hn, Memory.require_eq_ok_iff] at h
    refine ⟨m.read t.address Width.wide.bytes, ?_⟩
    simp only [load, hn, Memory.load_of_admits h]
  | some enc =>
    simp only [require, hn, Memory.require_eq_ok_iff] at h
    simp only [load, hn, Memory.load_of_admits h]
    exact hdecodes enc (mem_of_narrowEncoding? hn) _

end Tagged
end Slot
end HeapBridge
