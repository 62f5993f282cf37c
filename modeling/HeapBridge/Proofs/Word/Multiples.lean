import HeapBridge.Proofs.Word.Alignment
import Mathlib.Order.Bounds.Basic

/-!
# Nearest multiples

Rounding gives the multiples of an alignment that stand next to a word: the greatest one that is not
above it, and the least one that is not below it. The latter may lie behind the last word, and zero
stands for it then. A multiple of a power of two is one of every smaller power, so to round up twice
is to round up once.
-/
namespace HeapBridge.Word
variable {val align a b m : Word} {i j k : Nat}

/-- The multiples of an alignment that are not above a word. -/
def multiplesUpTo (align val : Word) : Set Word := {m | align.toNat ∣ m.toNat ∧ m ≤ val}

/-- The multiples of an alignment that are not below a word. -/
def multiplesFrom (align val : Word) : Set Word := {m | align.toNat ∣ m.toNat ∧ val ≤ m}

theorem isGreatest_alignDown (h : align.toNat = 2 ^ k) :
    IsGreatest (multiplesUpTo align val) (alignDown val align) := by
  have hdown : (alignDown val align).toNat = val.toNat / 2 ^ k * 2 ^ k := toNat_alignDown h
  refine ⟨⟨?_, ?_⟩, ?_⟩
  · rw [h, hdown]
    exact Nat.dvd_mul_left _ _
  · rw [UInt64.le_iff_toNat_le, hdown]
    exact Nat.div_mul_le_self _ _
  · rintro m ⟨hdvd, hle⟩
    rw [UInt64.le_iff_toNat_le] at hle ⊢
    rw [h] at hdvd
    rw [hdown, ← Nat.div_mul_cancel hdvd]
    exact Nat.mul_le_mul_right _ (Nat.div_le_div_right hle)

/-! ## Rounding up -/

/-- Between a multiple that is a word and the end of the words there is room for one alignment. -/
theorem add_le_of_dvd (h : align.toNat = 2 ^ k) (hm : align.toNat ∣ m.toNat) :
    m.toNat + 2 ^ k ≤ 2 ^ 64 := by
  have hlt : m.toNat < 2 ^ 64 := m.toNat_lt
  have hk : k ≤ 64 := by
    have halign : 2 ^ k < 2 ^ 64 := h ▸ align.toNat_lt
    exact Nat.le_of_lt ((Nat.pow_lt_pow_iff_right (by decide)).mp halign)
  obtain ⟨c, hc⟩ := h ▸ hm
  obtain ⟨d, hd⟩ := Nat.pow_dvd_pow 2 hk
  rw [hc, hd] at hlt
  rw [hc, hd, ← Nat.mul_succ]
  exact Nat.mul_le_mul_left _ (Nat.lt_of_mul_lt_mul_left hlt)

theorem alignUp_mem (h : align.toNat = 2 ^ k) (hfits : val.toNat + 2 ^ k ≤ 2 ^ 64) :
    alignUp val align ∈ multiplesFrom align val := by
  have hpos := Nat.two_pow_pos k
  have hup : (alignUp val align).toNat = (val.toNat + (2 ^ k - 1)) / 2 ^ k * 2 ^ k :=
    toNat_alignUp h hfits
  constructor
  · rw [h, hup]
    exact Nat.dvd_mul_left _ _
  · rw [UInt64.le_iff_toNat_le, hup]
    have hrest := Nat.div_add_mod' (val.toNat + (2 ^ k - 1)) (2 ^ k)
    have hmod := Nat.mod_lt (val.toNat + (2 ^ k - 1)) hpos
    omega

/-- There is a multiple from a word on just if another alignment fits behind it. -/
theorem multiplesFrom_nonempty_iff (h : align.toNat = 2 ^ k) :
    (multiplesFrom align val).Nonempty ↔ val.toNat + 2 ^ k ≤ 2 ^ 64 := by
  constructor
  · rintro ⟨m, hdvd, hle⟩
    have hlast := add_le_of_dvd h hdvd
    rw [UInt64.le_iff_toNat_le] at hle
    omega
  · exact fun hfits => ⟨_, alignUp_mem h hfits⟩

theorem isLeast_alignUp (h : align.toNat = 2 ^ k) (hex : (multiplesFrom align val).Nonempty) :
    IsLeast (multiplesFrom align val) (alignUp val align) := by
  have hfits := (multiplesFrom_nonempty_iff h).mp hex
  have hpos := Nat.two_pow_pos k
  refine ⟨alignUp_mem h hfits, ?_⟩
  rintro m ⟨hdvd, hle⟩
  rw [UInt64.le_iff_toNat_le] at hle ⊢
  obtain ⟨c, hc⟩ := h ▸ hdvd
  rw [toNat_alignUp h hfits, hc, Nat.mul_comm]
  refine Nat.mul_le_mul_left _ (Nat.le_of_lt_succ ((Nat.div_lt_iff_lt_mul hpos).mpr ?_))
  rw [Nat.succ_mul, Nat.mul_comm c]
  omega

theorem alignUp_of_not_nonempty (h : align.toNat = 2 ^ k)
    (hnone : ¬(multiplesFrom align val).Nonempty) : alignUp val align = 0 := by
  rw [multiplesFrom_nonempty_iff h] at hnone
  exact alignUp_eq_zero h (Nat.lt_of_not_le hnone)

/-- The multiples of a greater power from a word on are those from the next multiple of a smaller
one on. -/
theorem multiplesFrom_alignUp (ha : a.toNat = 2 ^ i) (hdvd : a.toNat ∣ b.toNat)
    (hex : (multiplesFrom a val).Nonempty) :
    multiplesFrom b (alignUp val a) = multiplesFrom b val := by
  have hleast := isLeast_alignUp ha hex
  ext m
  refine and_congr_right fun hm => ⟨fun hle => ?_, fun hle => ?_⟩
  · exact UInt64.le_trans hleast.1.2 hle
  · exact hleast.2 ⟨hdvd.trans hm, hle⟩

theorem alignUp_alignUp (ha : a.toNat = 2 ^ i) (hb : b.toNat = 2 ^ j) (hle : a ≤ b) (val : Word) :
    alignUp (alignUp val a) b = alignUp val b := by
  have hdvd : a.toNat ∣ b.toNat := by
    rw [UInt64.le_iff_toNat_le, ha, hb] at hle
    rw [ha, hb]
    exact Nat.pow_dvd_pow 2 ((Nat.pow_le_pow_iff_right (by decide)).mp hle)
  by_cases hex : (multiplesFrom a val).Nonempty
  · have hsame := multiplesFrom_alignUp (b := b) ha hdvd hex
    by_cases hexb : (multiplesFrom b val).Nonempty
    · have htwice := isLeast_alignUp hb (hsame ▸ hexb)
      have honce := isLeast_alignUp hb hexb
      rw [hsame] at htwice
      exact UInt64.le_antisymm (htwice.2 honce.1) (honce.2 htwice.1)
    · rw [alignUp_of_not_nonempty hb hexb, alignUp_of_not_nonempty hb (hsame ▸ hexb)]
  · -- what is no multiple of the smaller power is none of the greater
    have hexb : ¬(multiplesFrom b val).Nonempty :=
      fun ⟨m, hm, hfrom⟩ => hex ⟨m, hdvd.trans hm, hfrom⟩
    rw [alignUp_of_not_nonempty ha hex, alignUp_of_not_nonempty hb hexb]
    simp [alignUp]

/-! ## Multiples -/

theorem isAligned_iff_dvd (h : align.toNat = 2 ^ k) :
    isAligned val align = true ↔ align.toNat ∣ val.toNat := by
  rw [isAligned, beq_iff_eq, ← UInt64.toNat_inj, UInt64.toNat_and, toNat_sub_one h,
    Nat.and_two_pow_sub_one_eq_mod, h, UInt64.toNat_zero, Nat.dvd_iff_mod_eq_zero]

theorem isAligned_iff_fixed (h : align.toNat = 2 ^ k) :
    isAligned val align = true ↔ alignDown val align = val ∧ alignUp val align = val := by
  have hdown : IsGreatest (multiplesUpTo align val) (alignDown val align) := isGreatest_alignDown h
  rw [isAligned_iff_dvd h]
  constructor
  · intro hdvd
    have hself : val ∈ multiplesFrom align val := ⟨hdvd, UInt64.le_refl _⟩
    have hup := isLeast_alignUp h ⟨val, hself⟩
    exact ⟨UInt64.le_antisymm hdown.1.2 (hdown.2 ⟨hdvd, UInt64.le_refl _⟩),
      UInt64.le_antisymm (hup.2 hself) hup.1.2⟩
  · rintro ⟨hfixed, -⟩
    have hdvd := hdown.1.1
    rwa [hfixed] at hdvd

/-- What rounding a word to an alignment gives. -/
structure RoundsToMultiples (align val : Word) : Prop where
  down : IsGreatest (multiplesUpTo align val) (alignDown val align)
  up : (multiplesFrom align val).Nonempty →
    IsLeast (multiplesFrom align val) (alignUp val align)
  up_lost : ¬(multiplesFrom align val).Nonempty → alignUp val align = 0
  aligned_iff : isAligned val align = true ↔ alignDown val align = val ∧ alignUp val align = val

/-- Rounding to a power of two gives the nearest multiples as far as these are words, and rounding
up to a greater power afterwards is rounding up to that at once, even where it leaves the words. -/
theorem rounded_to_multiples (ha : a.toNat.isPowerOfTwo) (val : Word) :
    RoundsToMultiples a val ∧
      ∀ b : Word, b.toNat.isPowerOfTwo → a ≤ b → alignUp (alignUp val a) b = alignUp val b := by
  obtain ⟨i, hi⟩ := ha
  refine ⟨⟨isGreatest_alignDown hi, isLeast_alignUp hi, alignUp_of_not_nonempty hi,
    isAligned_iff_fixed hi⟩, ?_⟩
  rintro b ⟨j, hj⟩ hle
  exact alignUp_alignUp hi hj hle val

/-- The last multiple of a page, the word behind it, and the greatest power of all. -/
theorem rounded_to_multiples_at_top :
    (0x1000 : Word).toNat.isPowerOfTwo ∧ (0x8000000000000000 : Word).toNat.isPowerOfTwo ∧
      RoundsToMultiples 0x1000 0xfffffffffffff000 ∧ RoundsToMultiples 0x1000 0xfffffffffffff001 ∧
      alignUp (alignUp 0xfffffffffffff001 0x1000) 0x8000000000000000 =
        alignUp 0xfffffffffffff001 0x8000000000000000 := by
  have hpage : (0x1000 : Word).toNat.isPowerOfTwo := ⟨12, rfl⟩
  have htop : (0x8000000000000000 : Word).toNat.isPowerOfTwo := ⟨63, rfl⟩
  exact ⟨hpage, htop, (rounded_to_multiples hpage _).1, (rounded_to_multiples hpage _).1,
    (rounded_to_multiples hpage _).2 _ htop (by decide)⟩

end HeapBridge.Word
