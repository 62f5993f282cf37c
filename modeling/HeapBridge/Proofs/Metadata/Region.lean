import HeapBridge.Metadata.UnlogBits

/-!
# Regions

The slots whose addresses agree above the region width share an unlog bit. A region is known by its
number, which fixes the byte of metadata and the place in it. The two together fix the region again,
whatever the bias of the table, so a write to one bit is seen through no other region.
-/
namespace HeapBridge.Metadata.UnlogBits

/-- The number of the region of a slot. -/
def region (u : UnlogBits) (slot : Address) : Word := slot >>> u.logRegion.toUInt64

/-- The address of the byte with the bit of a region. -/
def home (u : UnlogBits) (region : Word) : Address := u.base + region >>> 3

/-- The place of the bit of a region in its byte. -/
def place (region : Word) : UInt8 := (region &&& 7).toUInt8

variable {u : UnlogBits}

theorem logPerByte_of_le (h : u.logRegion ≤ 60) : u.logPerByte = .ok (u.logRegion + 3) := by
  have hn : u.logRegion.toNat ≤ 60 := UInt8.le_iff_toNat_le.mp h
  rw [logPerByte, if_pos (by omega)]
  rfl

theorem shiftRight_logRegion (h : u.logRegion ≤ 60) (slot : Address) :
    Word.shiftRight slot u.logRegion.toUInt64 = .ok (u.region slot) := by
  have hn : u.logRegion.toNat ≤ 60 := UInt8.le_iff_toNat_le.mp h
  have hlt : u.logRegion.toUInt64 < 64 := by
    rw [UInt64.lt_iff_toNat_lt, UInt8.toNat_toUInt64]
    exact Nat.lt_of_le_of_lt hn (by decide)
  exact Word.shiftRight_of_lt hlt

theorem shiftRight_logPerByte (h : u.logRegion ≤ 60) (slot : Address) :
    Word.shiftRight slot (u.logRegion + 3).toUInt64 = .ok (u.region slot >>> 3) := by
  have hn : u.logRegion.toNat ≤ 60 := UInt8.le_iff_toNat_le.mp h
  have h3 : (u.logRegion + 3).toUInt64.toNat = u.logRegion.toNat + 3 := by
    rw [UInt8.toNat_toUInt64, UInt8.toNat_add, show (3 : UInt8).toNat = 3 from rfl]
    omega
  have hlt : (u.logRegion + 3).toUInt64 < 64 := by
    rw [UInt64.lt_iff_toNat_lt, h3, show (64 : UInt64).toNat = 64 from rfl]
    omega
  rw [Word.shiftRight_of_lt hlt]
  congr 1
  apply UInt64.toNat_inj.mp
  rw [UInt64.toNat_shiftRight, h3, region, UInt64.toNat_shiftRight, UInt64.toNat_shiftRight,
    UInt8.toNat_toUInt64, show (3 : UInt64).toNat = 3 from rfl, ← Nat.shiftRight_add,
    Nat.mod_eq_of_lt (by omega), Nat.mod_eq_of_lt (by omega)]

theorem byteAddress_eq_home (h : u.logRegion ≤ 60) (slot : Address) :
    u.byteAddress slot = .ok (u.home (u.region slot)) := by
  simp only [byteAddress, logPerByte_of_le h, shiftRight_logPerByte h, bind, Except.bind, pure,
    Except.pure, home]

theorem bitIndex_eq_place (h : u.logRegion ≤ 60) (slot : Address) :
    u.bitIndex slot = .ok (place (u.region slot)) := by
  simp only [bitIndex, shiftRight_logRegion h, place, bind, Except.bind, pure, Except.pure]

theorem isUnloggedIn_eq_testBit (h : u.logRegion ≤ 60) (byte : UInt8) (slot : Address) :
    u.isUnloggedIn byte slot = .ok (testBit byte (place (u.region slot))) := by
  simp only [isUnloggedIn, bitIndex_eq_place h, bind, Except.bind, pure, Except.pure]

theorem toNat_place (r : Word) : (place r).toNat = r.toNat % 8 := by
  rw [place, UInt64.toNat_toUInt8, UInt64.toNat_and, show (7 : UInt64).toNat = 2 ^ 3 - 1 from rfl,
    Nat.and_two_pow_sub_one_eq_mod]
  omega

theorem toNat_place_lt (r : Word) : (place r).toNat < 8 := by
  rw [toNat_place]
  omega

/-- Two regions with their bits in one byte and at one place are the same. The sum with the base
wraps, and is still one to one. -/
theorem eq_of_home_of_place {r s : Word} (hh : u.home r = u.home s) (hp : place r = place s) :
    r = s := by
  have hbyte : r >>> 3 = s >>> 3 := (UInt64.add_right_inj u.base).mp hh
  have hdiv : r.toNat / 8 = s.toNat / 8 := by
    have := congrArg UInt64.toNat hbyte
    simpa [UInt64.toNat_shiftRight, Nat.shiftRight_eq_div_pow] using this
  have hmod : r.toNat % 8 = s.toNat % 8 := by rw [← toNat_place, ← toNat_place, hp]
  apply UInt64.toNat_inj.mp
  omega

/-! ## Bits of a byte -/

theorem testBit_eq {byte i : UInt8} (h : i.toNat < 8) :
    testBit byte i = byte.toNat.testBit i.toNat := by
  rw [testBit, Nat.testBit_eq_decide_div_mod_eq, Bool.eq_iff_iff]
  simp only [beq_iff_eq, decide_eq_true_eq]
  rw [← UInt8.toNat_inj, UInt8.toNat_and, UInt8.toNat_shiftRight, Nat.mod_eq_of_lt h,
    UInt8.toNat_one, Nat.and_one_is_mod, Nat.shiftRight_eq_div_pow]
  rfl

theorem testBit_withBit {byte i j : UInt8} (hi : i.toNat < 8) (hj : j.toNat < 8) :
    testBit (withBit byte i) j = (decide (i = j) || testBit byte j) := by
  rw [testBit_eq hj, testBit_eq hj, withBit, UInt8.toNat_or, Nat.testBit_or, UInt8.toNat_shiftLeft,
    Nat.mod_eq_of_lt hi, Nat.testBit_mod_two_pow, UInt8.toNat_one,
    Nat.one_shiftLeft, Nat.testBit_two_pow]
  simp [hj, UInt8.toNat_inj, Bool.or_comm]

theorem testBit_withoutBit {byte i j : UInt8} (hi : i.toNat < 8) (hj : j.toNat < 8) :
    testBit (withoutBit byte i) j = (testBit byte j && decide (i ≠ j)) := by
  have hpow : 2 ^ i.toNat < 2 ^ 8 := Nat.pow_lt_pow_right (by decide) hi
  have hmask : (1 <<< i : UInt8).toNat = 2 ^ i.toNat := by
    rw [UInt8.toNat_shiftLeft, Nat.mod_eq_of_lt hi, UInt8.toNat_one,
      Nat.one_shiftLeft, Nat.mod_eq_of_lt hpow]
  have hnot : UInt8.size - 1 - 2 ^ i.toNat = 2 ^ 8 - (2 ^ i.toNat + 1) := by
    simp only [UInt8.size]
    omega
  rw [testBit_eq hj, testBit_eq hj, withoutBit, UInt8.toNat_and, Nat.testBit_and, UInt8.toNat_not,
    hmask, hnot, Nat.testBit_two_pow_sub_succ hpow, Nat.testBit_two_pow]
  simp [hj, UInt8.toNat_inj]

/-! ## Bits of a table -/

/-- In a table of bytes the bit of one region is set, and that of no other. -/
theorem testBit_home_of_withBit (byte : Address → UInt8) (r s : Word) :
    testBit (if u.home s = u.home r then withBit (byte (u.home r)) (place r)
      else byte (u.home s)) (place s) = (decide (r = s) || testBit (byte (u.home s)) (place s)) := by
  by_cases hh : u.home s = u.home r
  · have hplace : place r = place s ↔ r = s := ⟨eq_of_home_of_place hh.symm, congrArg _⟩
    rw [if_pos hh, testBit_withBit (toNat_place_lt _) (toNat_place_lt _), hh,
      decide_eq_decide.mpr hplace]
  · have hne : r ≠ s := fun e => hh (by rw [e])
    rw [if_neg hh, decide_eq_false hne, Bool.false_or]

/-- In a table of bytes the bit of one region is cleared, and that of no other. -/
theorem testBit_home_of_withoutBit (byte : Address → UInt8) (r s : Word) :
    testBit (if u.home s = u.home r then withoutBit (byte (u.home r)) (place r)
      else byte (u.home s)) (place s) = (testBit (byte (u.home s)) (place s) && decide (r ≠ s)) := by
  by_cases hh : u.home s = u.home r
  · have hplace : place r ≠ place s ↔ r ≠ s := not_congr ⟨eq_of_home_of_place hh.symm, congrArg _⟩
    rw [if_pos hh, testBit_withoutBit (toNat_place_lt _) (toNat_place_lt _), hh,
      decide_eq_decide.mpr hplace]
  · have hne : r ≠ s := fun e => hh (by rw [e])
    rw [if_neg hh, decide_eq_true hne, Bool.and_true]

/-! ## Bits in a word -/

theorem and_seven_lt (r : Word) : r &&& 7 < 64 := by
  rw [UInt64.lt_iff_toNat_lt, UInt64.toNat_and]
  exact Nat.lt_of_le_of_lt Nat.and_le_right (by decide)

/-- The bit of a region, as code leaves it in a word. -/
theorem word_bit_eq (byte : UInt8) (r : Word) :
    (byte.toUInt64 >>> (r &&& 7)) &&& 1 = if testBit byte (place r) then 1 else 0 := by
  have hs : (r &&& 7).toNat = (place r).toNat := by
    rw [toNat_place, UInt64.toNat_and, show (7 : UInt64).toNat = 2 ^ 3 - 1 from rfl,
      Nat.and_two_pow_sub_one_eq_mod]
  have hp := toNat_place_lt r
  apply UInt64.toNat_inj.mp
  rw [UInt64.toNat_and, UInt64.toNat_shiftRight, UInt8.toNat_toUInt64, hs,
    Nat.mod_eq_of_lt (by omega), UInt64.toNat_one, Nat.and_one_is_mod, Nat.shiftRight_eq_div_pow,
    testBit_eq hp, Nat.testBit_eq_decide_div_mod_eq]
  have := Nat.mod_two_eq_zero_or_one (byte.toNat / 2 ^ (place r).toNat)
  split <;> simp_all

end HeapBridge.Metadata.UnlogBits
