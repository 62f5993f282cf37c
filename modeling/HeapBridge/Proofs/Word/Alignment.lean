import HeapBridge.Word
import Mathlib.Data.Nat.Bitwise

/-!
# Rounding words

A mask rounds a word down to a multiple of a power of two. Rounding up adds first, and the sum may
leave the word. It does so just if no multiple above is a word, and then the rounded word is zero.
-/
namespace HeapBridge.Word
variable {val align n : Word} {k : Nat}

theorem toNat_sub_one (h : align.toNat = 2 ^ k) : (align - 1).toNat = 2 ^ k - 1 := by
  have hle : (1 : Word) ≤ align := by
    rw [UInt64.le_iff_toNat_le, h]
    exact Nat.one_le_two_pow
  rw [UInt64.toNat_sub_of_le _ _ hle, h]
  rfl

theorem toNat_alignDown (h : align.toNat = 2 ^ k) :
    (alignDown val align).toNat = val.toNat / 2 ^ k * 2 ^ k := by
  have hval : val.toNat < 2 ^ 64 := val.toNat_lt
  have halign : 2 ^ k < 2 ^ 64 := h ▸ align.toNat_lt
  have hmask : UInt64.size - 1 - (2 ^ k - 1) = 2 ^ 64 - (2 ^ k - 1 + 1) := by
    change 2 ^ 64 - 1 - (2 ^ k - 1) = _
    omega
  rw [alignDown, UInt64.toNat_and, UInt64.toNat_not, toNat_sub_one h, hmask]
  apply Nat.eq_of_testBit_eq
  intro i
  rw [Nat.testBit_and, Nat.testBit_two_pow_sub_succ (by omega), Nat.testBit_two_pow_sub_one,
    Nat.testBit_mul_two_pow, Nat.testBit_div_two_pow]
  by_cases hi : i < 64
  · by_cases hlow : i < k
    · simp [hlow]
    · rw [Nat.sub_add_cancel (Nat.le_of_not_lt hlow)]
      simp [hi, Nat.le_of_not_lt hlow]
  · -- neither number has bits behind the word
    have hlt : val.toNat < 2 ^ i := Nat.lt_of_lt_of_le hval (Nat.pow_le_pow_right (by decide)
      (Nat.le_of_not_lt hi))
    by_cases hlow : i < k
    · simp [hi, hlow]
    · rw [Nat.sub_add_cancel (Nat.le_of_not_lt hlow), Nat.testBit_lt_two_pow hlt]
      simp

/-- Rounding up is rounding a sum down. -/
theorem alignUp_eq (val align : Word) : alignUp val align = alignDown (val + align - 1) align := rfl

theorem toNat_add_sub_one (h : align.toNat = 2 ^ k) :
    (val + align - 1).toNat = (val.toNat + (2 ^ k - 1)) % 2 ^ 64 := by
  have hpos := Nat.two_pow_pos k
  rw [UInt64.toNat_sub, UInt64.toNat_add, h, UInt64.toNat_one]
  omega

theorem toNat_alignUp (h : align.toNat = 2 ^ k) (hfits : val.toNat + 2 ^ k ≤ 2 ^ 64) :
    (alignUp val align).toNat = (val.toNat + (2 ^ k - 1)) / 2 ^ k * 2 ^ k := by
  have hpos := Nat.two_pow_pos k
  rw [alignUp_eq, toNat_alignDown h, toNat_add_sub_one h, Nat.mod_eq_of_lt (by omega)]

theorem alignUp_eq_zero (h : align.toNat = 2 ^ k) (hover : 2 ^ 64 < val.toNat + 2 ^ k) :
    alignUp val align = 0 := by
  have hval : val.toNat < 2 ^ 64 := val.toNat_lt
  have halign : 2 ^ k < 2 ^ 64 := h ▸ align.toNat_lt
  have hrest : (val.toNat + (2 ^ k - 1)) % 2 ^ 64 < 2 ^ k := by omega
  apply UInt64.toNat_inj.mp
  rw [alignUp_eq, toNat_alignDown h, toNat_add_sub_one h, Nat.div_eq_of_lt hrest, Nat.zero_mul]
  rfl

/-! ## Requests in heap words -/

theorem heapAlignUp_eq_zero (h : 2 ^ 64 - 8 < n.toNat) : heapAlignUp n = 0 :=
  alignUp_eq_zero (k := 3) rfl (by omega)

/-- A rounded request is not below the request if it can be rounded within a word at all. -/
theorem le_heapAlignUp_iff : n ≤ heapAlignUp n ↔ n.toNat ≤ 2 ^ 64 - 8 := by
  rw [UInt64.le_iff_toNat_le]
  constructor
  · intro hle
    by_contra hover
    rw [heapAlignUp_eq_zero (Nat.lt_of_not_le hover), UInt64.toNat_zero] at hle
    omega
  · intro hfits
    rw [heapAlignUp, toNat_alignUp (k := 3) rfl (by omega)]
    omega

end HeapBridge.Word
