import HeapBridge.Proofs.Slot.Reach

/-!
# Narrow values and references

An encoding whose largest distance still ends below the top of the address space is a
correspondence between narrow values and the references that it spans: null, and the multiples of
the scale above the base. Of the other references those below the base cannot be encoded, and those
above it come back as something else.
-/
namespace HeapBridge.Slot.Encoding
variable {e : Encoding} {o : ObjectRef} {narrow : UInt32}

/-- An encoding under which the largest narrow value still stands for a reference. -/
structure Fits (e : Encoding) : Prop where
  shift_le : e.shift ≤ 32
  last_lt : e.base.toNat + (2 ^ 32 - 1) * 2 ^ e.shift.toNat < 2 ^ 64

/-- The references that an encoding has narrow values for. -/
def Spans (e : Encoding) (o : ObjectRef) : Prop :=
  o = 0 ∨ ∃ n, 0 < n ∧ n < 2 ^ 32 ∧ o.toNat = e.base.toNat + n * 2 ^ e.shift.toNat

namespace Fits

theorem exists_decode (h : e.Fits) (narrow : UInt32) : ∃ o, e.decode narrow = .ok o := by
  by_cases hzero : narrow = 0
  · exact ⟨0, if_pos hzero⟩
  · have hle : narrow.toNat * 2 ^ e.shift.toNat ≤ (2 ^ 32 - 1) * 2 ^ e.shift.toNat :=
      Nat.mul_le_mul_right _ (Nat.le_pred_of_lt narrow.toNat_lt)
    have hlt := Nat.lt_of_le_of_lt (Nat.add_le_add_left hle e.base.toNat) h.last_lt
    refine ⟨UInt64.ofNat (e.base.toNat + narrow.toNat * 2 ^ e.shift.toNat), ?_⟩
    rw [decode_eq_ok_iff h.shift_le hzero, UInt64.toNat_ofNat_of_lt' hlt]

theorem encode_eq (h : e.Fits) (hne : o ≠ 0) (hbase : e.base ≤ o) :
    e.encode o = .ok (UInt32.ofNat (e.scaled o)) :=
  Encoding.encode_eq (Std.lt_of_le_of_lt h.shift_le (by decide)) hne hbase

/-- A multiple of the scale above the base has that multiple for its narrow value. -/
theorem encode_of_multiple (h : e.Fits) {n : Nat} (hpos : 0 < n)
    (ho : o.toNat = e.base.toNat + n * 2 ^ e.shift.toNat) :
    e.encode o = .ok (UInt32.ofNat n) := by
  have hscale : 0 < 2 ^ e.shift.toNat := Nat.two_pow_pos _
  have hne : o ≠ 0 := by
    rintro rfl
    have := Nat.mul_pos hpos hscale
    simp only [UInt64.toNat_zero] at ho
    omega
  have hscaled : e.scaled o = n := by
    rw [scaled, ho, Nat.add_sub_cancel_left, Nat.mul_div_cancel _ hscale]
  rw [h.encode_eq hne (UInt64.le_iff_toNat_le.mpr (by omega)), hscaled]

/-- A narrow value stands for the reference that it is the encoding of, and for no other. -/
theorem decode_eq_ok_iff (h : e.Fits) :
    e.decode narrow = .ok o ↔ e.Spans o ∧ e.encode o = .ok narrow := by
  by_cases hzero : narrow = 0
  · subst hzero
    rw [decode_zero, Except.ok.injEq]
    constructor
    · rintro rfl
      exact ⟨.inl rfl, encode_null e⟩
    · rintro ⟨rfl | ⟨n, hpos, hlt, ho⟩, hencode⟩
      · rfl
      · rw [h.encode_of_multiple hpos ho] at hencode
        have hnarrow := congrArg UInt32.toNat (Except.ok.inj hencode)
        rw [UInt32.toNat_ofNat', Nat.mod_eq_of_lt hlt] at hnarrow
        exact absurd hnarrow (Nat.ne_of_gt hpos)
  · have hpos : 0 < narrow.toNat := Nat.pos_of_ne_zero fun h => hzero (UInt32.toNat_inj.mp h)
    rw [Encoding.decode_eq_ok_iff h.shift_le hzero]
    constructor
    · intro ho
      refine ⟨.inr ⟨_, hpos, narrow.toNat_lt, ho.symm⟩, ?_⟩
      rw [h.encode_of_multiple hpos ho.symm, UInt32.ofNat_toNat]
    · rintro ⟨rfl | ⟨n, hpos, hlt, ho⟩, hencode⟩
      · exact absurd (Except.ok.inj hencode).symm hzero
      · rw [h.encode_of_multiple hpos ho] at hencode
        cases hencode
        rw [ho, UInt32.toNat_ofNat', Nat.mod_eq_of_lt hlt]

theorem exists_decode_iff (h : e.Fits) : (∃ narrow, e.decode narrow = .ok o) ↔ e.Spans o := by
  constructor
  · rintro ⟨narrow, hdecode⟩
    exact (h.decode_eq_ok_iff.mp hdecode).1
  · rintro (rfl | ⟨n, hpos, hlt, ho⟩)
    · exact ⟨0, decode_zero e⟩
    · exact ⟨_, h.decode_eq_ok_iff.mpr
        ⟨.inr ⟨n, hpos, hlt, ho⟩, h.encode_of_multiple hpos ho⟩⟩

end Fits

/-- Encoding and decoding undo each other, as far as the references that are spanned. -/
structure Inverse (e : Encoding) : Prop where
  encode_decode : ∀ narrow, ∃ o, e.decode narrow = .ok o ∧ e.encode o = .ok narrow
  decode_encode : ∀ o, e.Spans o → ∃ narrow, e.encode o = .ok narrow ∧ e.decode narrow = .ok o
  injective : Function.Injective e.decode
  image : ∀ o, (∃ narrow, e.decode narrow = .ok o) ↔ e.Spans o
  decode_eq_null_iff : ∀ narrow, e.decode narrow = .ok 0 ↔ narrow = 0
  encode_eq_zero_iff : ∀ o, e.Spans o → (e.encode o = .ok 0 ↔ o = 0)
  /-- Any other reference is refused if it is below the base, and else comes back as another one. -/
  outside : ∀ o, ¬ e.Spans o →
    o < e.base ∧ e.encode o = .error (.belowOrigin o e.base) ∨
      e.base ≤ o ∧ ∃ narrow o', e.encode o = .ok narrow ∧ e.decode narrow = .ok o' ∧ o' ≠ o

/-- Every narrow value has a reference of its own, and every reference that is spanned a narrow value
of its own. -/
theorem encode_decode_inverse (h : e.Fits) : Inverse e := by
  have hback : ∀ narrow, ∃ o, e.decode narrow = .ok o ∧ e.Spans o ∧ e.encode o = .ok narrow := by
    intro narrow
    obtain ⟨o, hdecode⟩ := h.exists_decode narrow
    exact ⟨o, hdecode, h.decode_eq_ok_iff.mp hdecode⟩
  constructor
  · intro narrow
    obtain ⟨o, hdecode, -, hencode⟩ := hback narrow
    exact ⟨o, hdecode, hencode⟩
  · intro o ho
    obtain ⟨narrow, hdecode⟩ := h.exists_decode_iff.mpr ho
    exact ⟨narrow, (h.decode_eq_ok_iff.mp hdecode).2, hdecode⟩
  · intro narrow narrow' heq
    obtain ⟨o, hdecode, -, hencode⟩ := hback narrow
    have hencode' := (h.decode_eq_ok_iff.mp (heq.symm.trans hdecode)).2
    exact Except.ok.inj (hencode.symm.trans hencode')
  · exact fun o => h.exists_decode_iff
  · intro narrow
    rw [h.decode_eq_ok_iff, encode_null, Except.ok.injEq, eq_comm]
    exact and_iff_right (.inl rfl)
  · intro o ho
    have hdecode : e.decode 0 = .ok o ↔ e.encode o = .ok 0 :=
      h.decode_eq_ok_iff.trans (and_iff_right ho)
    rw [← hdecode, decode_zero, Except.ok.injEq, eq_comm]
  · intro o hout
    have hne : o ≠ 0 := fun hnull => hout (.inl hnull)
    by_cases hbase : e.base ≤ o
    · obtain ⟨o', hdecode, hspans, -⟩ := hback (UInt32.ofNat (e.scaled o))
      exact .inr ⟨hbase, _, o', h.encode_eq hne hbase, hdecode, fun heq => hout (heq ▸ hspans)⟩
    · refine .inl ⟨Std.not_le.mp hbase, ?_⟩
      rw [encode, if_neg hne, Word.distance, if_neg hbase]
      rfl

/-- The largest scale, above the largest base that it leaves room for. -/
theorem encode_decode_inverse_at_top :
    Fits ⟨0xffffffff, 32⟩ ∧ Inverse ⟨0xffffffff, 32⟩ := by
  have h : Fits ⟨0xffffffff, 32⟩ := by constructor <;> decide
  exact ⟨h, encode_decode_inverse h⟩

end HeapBridge.Slot.Encoding
