import HeapBridge.Slot.Encoding
import Mathlib.Data.Nat.Bitwise

/-!
# The reach of an encoding

An encoding keeps the references that lie at a multiple of its scale above its base, and at less
than 32 bits of scale. The encoding of a heap is chosen by the place where the heap ends. One with a
base of its own gives a page of its reach away below the heap, so of the heaps that narrow values
could span, those that reach into the last page lose the objects there, and the first of these is
taken for null.
-/
namespace HeapBridge.Slot.Encoding
variable {e : Encoding} {o p : ObjectRef} {narrow : UInt32}

/-! ## Narrow values -/

/-- The distance of a reference from the base, in units of the scale. -/
def scaled (e : Encoding) (o : ObjectRef) : Nat :=
  (o.toNat - e.base.toNat) / 2 ^ e.shift.toNat

/-- Whether a reference comes back from its narrow value, and is not taken for null. -/
def Keeps (e : Encoding) (o : ObjectRef) : Prop :=
  ∃ narrow, e.encode o = .ok narrow ∧ narrow ≠ 0 ∧ e.decode narrow = .ok o

theorem encode_eq (hshift : e.shift < 64) (hne : o ≠ 0) (hbase : e.base ≤ o) :
    e.encode o = .ok (UInt32.ofNat (e.scaled o)) := by
  have hlt : e.shift.toNat < 64 := UInt64.lt_iff_toNat_lt.mp hshift
  have hdistance : Word.distance o e.base = .ok (o - e.base) := if_pos hbase
  rw [encode, if_neg hne, hdistance]
  change (Word.shiftRight (o - e.base) e.shift >>= fun w => .ok w.toUInt32) = _
  rw [Word.shiftRight_of_lt hshift]
  change Except.ok ((o - e.base) >>> e.shift).toUInt32 = _
  congr 1
  apply UInt32.toNat_inj.mp
  rw [UInt64.toNat_toUInt32, UInt64.toNat_shiftRight, UInt64.toNat_sub_of_le _ _ hbase,
    Nat.mod_eq_of_lt hlt, Nat.shiftRight_eq_div_pow, scaled, UInt32.toNat_ofNat']

/-- A reference that has a narrow value is null or not below the base. -/
theorem le_of_encode (hne : o ≠ 0) (h : e.encode o = .ok narrow) : e.base ≤ o := by
  by_contra hlt
  rw [encode, if_neg hne, Word.distance, if_neg hlt] at h
  cases h

theorem decode_eq_ok_iff (hshift : e.shift ≤ 32) (hne : narrow ≠ 0) :
    e.decode narrow = .ok o ↔
      e.base.toNat + narrow.toNat * 2 ^ e.shift.toNat = o.toNat := by
  have hle : e.shift.toNat ≤ 32 := UInt64.le_iff_toNat_le.mp hshift
  have hlt : e.shift < 64 := UInt64.lt_iff_toNat_lt.mpr (Nat.lt_of_le_of_lt hle (by decide))
  -- no bit of the narrow value leaves the word
  have hfits : narrow.toNat * 2 ^ e.shift.toNat < 2 ^ 64 := by
    have hscale : 2 ^ e.shift.toNat ≤ 2 ^ 32 := Nat.pow_le_pow_right (by decide) hle
    calc narrow.toNat * 2 ^ e.shift.toNat ≤ narrow.toNat * 2 ^ 32 :=
          Nat.mul_le_mul_left _ hscale
      _ < 2 ^ 32 * 2 ^ 32 := Nat.mul_lt_mul_of_pos_right narrow.toNat_lt (by decide)
  have hdistance : (narrow.toUInt64 <<< e.shift).toNat = narrow.toNat * 2 ^ e.shift.toNat := by
    rw [UInt64.toNat_shiftLeft, UInt32.toNat_toUInt64, Nat.shiftLeft_eq,
      Nat.mod_eq_of_lt (show e.shift.toNat < 64 by omega), Nat.mod_eq_of_lt hfits]
  have hdecode : e.decode narrow = Word.add e.base (narrow.toUInt64 <<< e.shift) := by
    rw [decode, if_neg hne, Word.shiftLeft, if_pos hlt]
    rfl
  rw [hdecode, Word.add_eq_ok_iff, hdistance]

/-- The references that an encoding keeps. -/
theorem keeps_iff (hshift : e.shift ≤ 32) (hne : o ≠ 0) :
    e.Keeps o ↔ e.base ≤ o ∧ 2 ^ e.shift.toNat ∣ o.toNat - e.base.toNat ∧
      0 < e.scaled o ∧ e.scaled o < 2 ^ 32 := by
  have hlt : e.shift < 64 := Std.lt_of_le_of_lt hshift (by decide)
  have hscale : 0 < 2 ^ e.shift.toNat := Nat.two_pow_pos _
  constructor
  · rintro ⟨narrow, hencode, hzero, hdecode⟩
    have hbase := le_of_encode hne hencode
    have hle : e.base.toNat ≤ o.toNat := UInt64.le_iff_toNat_le.mp hbase
    have hdistance := (decode_eq_ok_iff hshift hzero).mp hdecode
    have heq : o.toNat - e.base.toNat = narrow.toNat * 2 ^ e.shift.toNat := by omega
    have hscaled : e.scaled o = narrow.toNat := by
      rw [scaled, heq, Nat.mul_div_cancel _ hscale]
    refine ⟨hbase, ⟨narrow.toNat, by rw [heq, Nat.mul_comm]⟩, ?_, ?_⟩
    · rw [hscaled]
      exact Nat.pos_of_ne_zero fun h => hzero (UInt32.toNat_inj.mp h)
    · rw [hscaled]
      exact narrow.toNat_lt
  · rintro ⟨hbase, hdvd, hpos, hfits⟩
    have hle : e.base.toNat ≤ o.toNat := UInt64.le_iff_toNat_le.mp hbase
    have hnarrow : (UInt32.ofNat (e.scaled o)).toNat = e.scaled o := by
      rw [UInt32.toNat_ofNat', Nat.mod_eq_of_lt hfits]
    have hzero : UInt32.ofNat (e.scaled o) ≠ 0 := by
      intro h
      rw [h] at hnarrow
      exact absurd hnarrow (Nat.ne_of_lt hpos)
    refine ⟨_, encode_eq hlt hne hbase, hzero, (decode_eq_ok_iff hshift hzero).mpr ?_⟩
    have hback : e.scaled o * 2 ^ e.shift.toNat = o.toNat - e.base.toNat := by
      rw [scaled, Nat.div_mul_cancel hdvd]
    rw [hnarrow, hback]
    omega

/-! ## Heaps -/

/-- A heap that narrow values could span at the scale of objects. It begins at a page, and not at
the first one. -/
structure Spannable (first last : Address) : Prop where
  page : first.toNat % 4096 = 0
  low : 4096 ≤ first.toNat
  nonempty : first.toNat < last.toNat
  span : last.toNat - first.toNat ≤ 2 ^ 35

/-- The objects of a heap are aligned to the scale. -/
structure IsObject (first last : Address) (o : ObjectRef) : Prop where
  first_le : first.toNat ≤ o.toNat
  lt_last : o.toNat < last.toNat
  aligned : o.toNat % 8 = 0

/-- What the choice of an encoding comes to in distances. -/
structure Chosen (e : Encoding) (first last : Address) : Prop where
  shift_le : e.shift ≤ 32
  base_le : e.base.toNat ≤ first.toNat
  dvd : ∀ o, IsObject first last o → 2 ^ e.shift.toNat ∣ o.toNat - e.base.toNat
  scaled_pos : ∀ o, IsObject first last o → 0 < e.scaled o
  /-- A heap that is not within reach of the zero base has a base of its own, a page below it. -/
  fits_iff : ∀ o, IsObject first last o →
    (e.scaled o < 2 ^ 32 ↔ last ≤ Units.zeroBasedHeapEnd ∨ o.toNat + 4096 < first.toNat + 2 ^ 35)
  scaled_lt : ∀ o p, IsObject first last o → IsObject first last p → o < p →
    e.scaled o < e.scaled p ∧ e.scaled p < e.scaled o + 2 ^ 32

variable {first last : Address}

/-- A heap within reach of the zero base. -/
theorem chosen_of_base_zero {shift : Word} (h : Spannable first last) (hend : last.toNat ≤ 2 ^ 35)
    (hshift : shift = 0 ∧ last.toNat ≤ 2 ^ 32 ∨ shift = 3) : Chosen ⟨0, shift⟩ first last := by
  have hlow := h.low
  have hlast : last ≤ Units.zeroBasedHeapEnd := UInt64.le_iff_toNat_le.mpr hend
  have hscale : 2 ^ shift.toNat ∣ 8 := by obtain ⟨rfl, -⟩ | rfl := hshift <;> decide
  obtain ⟨rfl, hnarrow⟩ | rfl := hshift
  all_goals
    constructor
    · decide
    · exact Nat.zero_le _
    · intro o ho
      have hdvd : 8 ∣ o.toNat := Nat.dvd_of_mod_eq_zero ho.aligned
      exact Nat.dvd_trans hscale (by simpa using hdvd)
    · intro o ho
      have := ho.first_le
      simp [scaled]
      omega
    · intro o ho
      have := ho.lt_last
      simp [scaled, hlast]
      omega
    · intro o p ho hp hlt
      have := UInt64.lt_iff_toNat_lt.mp hlt
      have := ho.aligned
      have := hp.aligned
      have := hp.lt_last
      simp [scaled]
      omega

/-- A heap beyond, with a base a page below it. -/
theorem chosen_of_base_below {base : Address} (h : Spannable first last)
    (hend : 2 ^ 35 < last.toNat) (hbase : base.toNat + 4096 = first.toNat) :
    Chosen ⟨base, 3⟩ first last := by
  have hpage := h.page
  have hspan := h.span
  have hlast : ¬ last ≤ Units.zeroBasedHeapEnd := by
    rw [UInt64.le_iff_toNat_le]
    exact Nat.not_le.mpr hend
  have hshift : (3 : Word) ≤ 32 := by decide
  constructor
  · exact hshift
  · change base.toNat ≤ first.toNat
    omega
  · intro o ho
    have := ho.aligned
    change 8 ∣ o.toNat - base.toNat
    omega
  · intro o ho
    have := ho.first_le
    change 0 < (o.toNat - base.toNat) / 8
    omega
  · intro o ho
    have := ho.aligned
    have := ho.first_le
    simp only [hlast, false_or]
    change (o.toNat - base.toNat) / 8 < 2 ^ 32 ↔ _
    omega
  · intro o p ho hp hlt
    have := UInt64.lt_iff_toNat_lt.mp hlt
    have := ho.aligned
    have := hp.aligned
    have := ho.first_le
    have := hp.lt_last
    change (o.toNat - base.toNat) / 8 < (p.toNat - base.toNat) / 8 ∧
      (p.toNat - base.toNat) / 8 < (o.toNat - base.toNat) / 8 + 2 ^ 32
    omega

theorem exists_forHeap (h : Spannable first last) :
    ∃ e, forHeap first last = .ok e ∧ Chosen e first last := by
  have hunscaled : Units.unscaledHeapEnd.toNat = 2 ^ 32 := rfl
  have hzero : Units.zeroBasedHeapEnd.toNat = 2 ^ 35 := rfl
  by_cases hlow : last ≤ Units.unscaledHeapEnd
  · have hend : last.toNat ≤ 2 ^ 32 := UInt64.le_iff_toNat_le.mp hlow
    exact ⟨unscaled, if_pos hlow, chosen_of_base_zero h (by omega) (.inl ⟨rfl, hend⟩)⟩
  · by_cases hmid : last ≤ Units.zeroBasedHeapEnd
    · have hend : last.toNat ≤ 2 ^ 35 := UInt64.le_iff_toNat_le.mp hmid
      refine ⟨⟨0, Units.logNarrowShift⟩, ?_, chosen_of_base_zero h hend (.inr rfl)⟩
      rw [forHeap, if_neg hlow, if_pos hmid]
    · have hend : 2 ^ 35 < last.toNat :=
        Nat.not_le.mp fun hle => hmid (UInt64.le_iff_toNat_le.mpr hle)
      have hpage : Units.bytesPerPage ≤ first := UInt64.le_iff_toNat_le.mpr h.low
      have hsub := Word.sub_eq_ok_iff.mp (if_pos hpage : Word.sub first Units.bytesPerPage = _)
      refine ⟨⟨first - Units.bytesPerPage, Units.logNarrowShift⟩, ?_,
        chosen_of_base_below h hend hsub⟩
      rw [forHeap, if_neg hlow, if_neg hmid, Word.sub, if_pos hpage]
      rfl

/-! ## What is kept -/

/-- What becomes of the objects of a heap under an encoding. -/
structure Reaches (e : Encoding) (first last : Address) : Prop where
  encodes : ∀ o, IsObject first last o → ∃ narrow, e.encode o = .ok narrow
  /-- Objects are kept but for those that the page below a heap puts out of reach. -/
  keeps_iff : ∀ o, IsObject first last o →
    (e.Keeps o ↔ last ≤ Units.zeroBasedHeapEnd ∨ o.toNat + 4096 < first.toNat + 2 ^ 35)
  /-- Those that are kept are in the order of their narrow values. -/
  increasing : ∀ o p, IsObject first last o → IsObject first last p → e.Keeps o → e.Keeps p →
    o < p → ∀ n m, e.encode o = .ok n → e.encode p = .ok m → n < m
  /-- No two objects share a narrow value, kept or not. -/
  distinct : ∀ o p, IsObject first last o → IsObject first last p → e.encode o = e.encode p → o = p

namespace Chosen

theorem ne_zero (h : Spannable first last) (ho : IsObject first last o) : o ≠ 0 := by
  rintro rfl
  have := h.low
  have hle : first.toNat ≤ 0 := ho.first_le
  omega

theorem encode_eq (h : Chosen e first last) (hheap : Spannable first last)
    (ho : IsObject first last o) : e.encode o = .ok (UInt32.ofNat (e.scaled o)) := by
  have hshift : e.shift < 64 := Std.lt_of_le_of_lt h.shift_le (by decide)
  have hbase : e.base ≤ o := UInt64.le_iff_toNat_le.mpr (Nat.le_trans h.base_le ho.first_le)
  exact Encoding.encode_eq hshift (ne_zero hheap ho) hbase

theorem keeps_iff_scaled (h : Chosen e first last) (hheap : Spannable first last)
    (ho : IsObject first last o) : e.Keeps o ↔ e.scaled o < 2 ^ 32 := by
  have hbase : e.base ≤ o := UInt64.le_iff_toNat_le.mpr (Nat.le_trans h.base_le ho.first_le)
  rw [Encoding.keeps_iff h.shift_le (ne_zero hheap ho)]
  exact ⟨fun hkeeps => hkeeps.2.2.2, fun hlt => ⟨hbase, h.dvd o ho, h.scaled_pos o ho, hlt⟩⟩

theorem reaches (h : Chosen e first last) (hheap : Spannable first last) :
    Reaches e first last := by
  constructor
  · intro o ho
    exact ⟨_, h.encode_eq hheap ho⟩
  · intro o ho
    rw [h.keeps_iff_scaled hheap ho, h.fits_iff o ho]
  · intro o p ho hp hko hkp hlt n m hn hm
    rw [h.keeps_iff_scaled hheap ho] at hko
    rw [h.keeps_iff_scaled hheap hp] at hkp
    rw [h.encode_eq hheap ho] at hn
    rw [h.encode_eq hheap hp] at hm
    cases hn
    cases hm
    rw [UInt32.lt_iff_toNat_lt, UInt32.toNat_ofNat', UInt32.toNat_ofNat', Nat.mod_eq_of_lt hko,
      Nat.mod_eq_of_lt hkp]
    exact (h.scaled_lt o p ho hp hlt).1
  · intro o p ho hp heq
    rw [h.encode_eq hheap ho, h.encode_eq hheap hp] at heq
    have hmod := congrArg UInt32.toNat (Except.ok.inj heq)
    rw [UInt32.toNat_ofNat', UInt32.toNat_ofNat'] at hmod
    -- two scaled distances differ by less than the narrow values that there are
    rcases Nat.lt_trichotomy o.toNat p.toNat with hlt | hsame | hlt
    · have := h.scaled_lt o p ho hp (UInt64.lt_iff_toNat_lt.mpr hlt)
      omega
    · exact UInt64.toNat_inj.mp hsame
    · have := h.scaled_lt p o hp ho (UInt64.lt_iff_toNat_lt.mpr hlt)
      omega

end Chosen

/-- An encoding that keeps an object in every place of a heap leaves a page of its span free. -/
theorem Reaches.forall_keeps_iff (h : Reaches e first last) (hheap : Spannable first last) :
    (∀ o, IsObject first last o → e.Keeps o) ↔
      last ≤ Units.zeroBasedHeapEnd ∨ last.toNat + 4096 ≤ first.toNat + 2 ^ 35 := by
  constructor
  · intro hall
    by_contra hout
    obtain ⟨hend, hfull⟩ := not_or.mp hout
    have hpage := hheap.page
    have hlast : last.toNat < 2 ^ 64 := last.toNat_lt
    -- the first object in the last page
    have hplace : (UInt64.ofNat (first.toNat + 2 ^ 35 - 4096)).toNat =
        first.toNat + 2 ^ 35 - 4096 := UInt64.toNat_ofNat_of_lt' (by simp only [UInt64.size]; omega)
    have ho : IsObject first last (UInt64.ofNat (first.toNat + 2 ^ 35 - 4096)) := by
      constructor <;> omega
    obtain hlow | hin := (h.keeps_iff _ ho).mp (hall _ ho)
    · exact hend hlow
    · omega
  · intro hfits o ho
    have hlt := ho.lt_last
    rw [h.keeps_iff o ho]
    exact hfits.imp_right fun hle => by omega

/-- The encoding chosen for a heap gives every object a narrow value of its own. It keeps them all,
and their order, if the heap lies within reach of the zero base or leaves a page of the span free,
and else those before the last page of the span. -/
theorem forHeap_reaches (h : Spannable first last) :
    ∃ e, forHeap first last = .ok e ∧ Reaches e first last ∧
      ((∀ o, IsObject first last o → e.Keeps o) ↔
        last ≤ Units.zeroBasedHeapEnd ∨ last.toNat + 4096 ≤ first.toNat + 2 ^ 35) := by
  obtain ⟨e, hforHeap, hchosen⟩ := exists_forHeap h
  have hreaches := hchosen.reaches h
  exact ⟨e, hforHeap, hreaches, hreaches.forall_keeps_iff h⟩

/-- A heap of half the span, beyond the reach of the zero base. -/
theorem forHeap_reaches_based : Spannable 0x800000000 0xc00000000 ∧
    ∃ e, forHeap 0x800000000 0xc00000000 = .ok e ∧ Reaches e 0x800000000 0xc00000000 ∧
      ((∀ o, IsObject 0x800000000 0xc00000000 o → e.Keeps o) ↔
        0xc00000000 ≤ Units.zeroBasedHeapEnd ∨
          (0xc00000000 : Address).toNat + 4096 ≤ (0x800000000 : Address).toNat + 2 ^ 35) := by
  have h : Spannable 0x800000000 0xc00000000 := by constructor <;> decide
  exact ⟨h, forHeap_reaches h⟩

/-- In a heap of the whole span the first object of the last page is taken for null, and the next
one for a place below the heap. -/
theorem last_page_of_full_span_lost :
    let first : Address := 0x800000000
    let last : Address := 0x1000000000
    ∃ e, forHeap first last = .ok e ∧ Spannable first last ∧
      IsObject first last 0xffffff000 ∧ e.encode 0xffffff000 = .ok 0 ∧ e.decode 0 = .ok 0 ∧
      IsObject first last 0xffffff008 ∧ e.encode 0xffffff008 = .ok 1 ∧
      e.decode 1 = .ok 0x7fffff008 := by
  refine ⟨⟨0x7fffff000, 3⟩, rfl, ?_, ?_, rfl, rfl, ?_, rfl, rfl⟩ <;> constructor <;> decide

end HeapBridge.Slot.Encoding
