import HeapBridge.Proofs.Memory.Numbers
import HeapBridge.Proofs.Slot.Inverse
import HeapBridge.Proofs.Slot.Mark

/-!
# The bytes of a slot

Whatever its width, a slot is the bytes from its address without the mark, and these spell a number
that stands for a reference. Loads, stores and exchanges are stated here in terms of that number, so
that nothing that follows has to tell narrow slots from whole-word slots.
-/
namespace HeapBridge.Slot.Tagged
variable {t u : Tagged} {e : Option Encoding} {m : Memory} {o : ObjectRef} {x : Address}

/-- The width of an access to a slot. -/
def width (t : Tagged) (e : Option Encoding) : Width :=
  match t.narrowEncoding? e with
  | some _ => .narrow
  | none => .wide

/-- Whether a byte is one of a slot. -/
def Covers (t : Tagged) (e : Option Encoding) (x : Address) : Prop :=
  t.address.toNat ≤ x.toNat ∧ x.toNat < t.address.toNat + (t.width e).bytes

/-- The number that a slot holds. -/
def number (t : Tagged) (e : Option Encoding) (m : Memory) : Nat :=
  m.number t.address (t.width e).bytes

/-- The reference that a number in a slot stands for. -/
def meaning (t : Tagged) (e : Option Encoding) (n : Nat) : Except Fault ObjectRef :=
  match t.narrowEncoding? e with
  | some enc => enc.decode (UInt32.ofNat n)
  | none => .ok (UInt64.ofNat n)

/-- Whether a slot can hold a reference. Any reference fits a whole word. -/
def Accepts (t : Tagged) (e : Option Encoding) (o : ObjectRef) : Prop :=
  ∀ enc ∈ t.narrowEncoding? e, enc.Spans o

/-- The word that stands for a reference in a slot that can hold it. -/
def word (t : Tagged) (e : Option Encoding) (o : ObjectRef) : Word :=
  match t.narrowEncoding? e with
  | some enc => ((enc.encode o).toOption.getD 0).toUInt64
  | none => o

/-- Memory with a reference in a slot. -/
def written (t : Tagged) (e : Option Encoding) (o : ObjectRef) (m : Memory) : Memory :=
  m.write t.address (t.word e o) (t.width e).bytes

/-! ## Place -/

theorem bytes_width_le (t : Tagged) (e : Option Encoding) : (t.width e).bytes ≤ 8 := by
  unfold width
  split <;> decide

/-- A slot ends below half of the address space. -/
theorem stop_le (t : Tagged) (e : Option Encoding)
    (haligned : t.address.toNat % (t.width e).bytes = 0) :
    t.address.toNat + (t.width e).bytes ≤ 2 ^ 63 := by
  have hlt : t.address.toNat < 2 ^ 63 := by
    rw [toNat_address]
    exact Nat.mod_lt _ (by decide)
  unfold width at haligned ⊢
  split at haligned <;> simp only [Width.bytes] at haligned ⊢ <;> omega

/-- A narrow slot has no mark to take away. -/
theorem address_of_narrow {enc : Encoding} (h : t.narrowEncoding? e = some enc) :
    t.address = t.raw := by
  have hcompressed : t.isCompressed = true := by
    unfold narrowEncoding? at h
    split at h
    · assumption
    · cases h
  apply UInt64.toNat_inj.mp
  rw [toNat_address, Nat.mod_eq_of_lt (isCompressed_iff.mp hcompressed)]

theorem require_eq (t : Tagged) (e : Option Encoding) (m : Memory) :
    t.require e m = m.require t.address (t.width e) := by
  cases hnarrow : t.narrowEncoding? e with
  | none => simp only [require, width, hnarrow]
  | some enc => simp only [require, width, hnarrow, address_of_narrow hnarrow]

theorem require_eq_ok_iff : t.require e m = .ok () ↔ m.admits t.address (t.width e) = true := by
  rw [require_eq, Memory.require_eq_ok_iff]

/-- Addresses that are not those of a slot are as far from its first as it is long. -/
theorem le_sub_of_not_covers (haligned : t.address.toNat % (t.width e).bytes = 0)
    (h : ¬ t.Covers e x) : (t.width e).bytes ≤ (x - t.address).toNat := by
  have hstop := t.stop_le e haligned
  have hx := x.toNat_lt
  rw [Covers, not_and_or] at h
  rw [UInt64.toNat_sub]
  omega

theorem covers_of_sub_lt (haligned : t.address.toNat % (t.width e).bytes = 0)
    (h : (x - t.address).toNat < (t.width e).bytes) : t.Covers e x := by
  by_contra hout
  have hle := le_sub_of_not_covers haligned hout
  omega

/-! ## Numbers and references -/

theorem number_lt (t : Tagged) (e : Option Encoding) (m : Memory) :
    t.number e m < 256 ^ (t.width e).bytes := m.number_lt _ _

theorem toNat_read (t : Tagged) (e : Option Encoding) (m : Memory) :
    (m.read t.address (t.width e).bytes).toNat = t.number e m :=
  Memory.toNat_read (t.bytes_width_le e) m t.address

theorem exists_meaning (hfits : ∀ enc ∈ e, enc.Fits) (t : Tagged) (n : Nat) :
    ∃ o, t.meaning e n = .ok o := by
  cases hnarrow : t.narrowEncoding? e with
  | none => exact ⟨UInt64.ofNat n, by simp only [meaning, hnarrow]⟩
  | some enc =>
    obtain ⟨o, ho⟩ := (hfits enc (mem_of_narrowEncoding? hnarrow)).exists_decode (UInt32.ofNat n)
    exact ⟨o, by simp only [meaning, hnarrow, ho]⟩

theorem toNat_word_lt (t : Tagged) (e : Option Encoding) (o : ObjectRef) :
    (t.word e o).toNat < 256 ^ (t.width e).bytes := by
  cases hnarrow : t.narrowEncoding? e with
  | none =>
    simp only [word, width, hnarrow]
    exact o.toNat_lt
  | some enc =>
    simp only [word, width, hnarrow, UInt32.toNat_toUInt64]
    exact UInt32.toNat_lt _

/-- A narrow slot holds the encoding of a reference. -/
theorem encode_eq_word {enc : Encoding} (hfits : enc.Fits)
    (hnarrow : t.narrowEncoding? e = some enc) (ho : t.Accepts e o) :
    ∃ narrow, enc.encode o = .ok narrow ∧ t.word e o = narrow.toUInt64 := by
  obtain ⟨narrow, hdecode⟩ := hfits.exists_decode_iff.mpr (ho enc hnarrow)
  have hencode := (hfits.decode_eq_ok_iff.mp hdecode).2
  exact ⟨narrow, hencode, by simp only [word, hnarrow, hencode]; rfl⟩

/-- A number in a slot stands for a reference just if it is the one for that reference. -/
theorem meaning_eq_ok_iff (hfits : ∀ enc ∈ e, enc.Fits) (ho : t.Accepts e o) {n : Nat}
    (hn : n < 256 ^ (t.width e).bytes) :
    t.meaning e n = .ok o ↔ n = (t.word e o).toNat := by
  cases hnarrow : t.narrowEncoding? e with
  | none =>
    simp only [width, hnarrow] at hn
    simp only [meaning, word, hnarrow, Except.ok.injEq]
    rw [← UInt64.toNat_inj, UInt64.toNat_ofNat_of_lt' hn]
  | some enc =>
    simp only [width, hnarrow] at hn
    have hn : n < 2 ^ 32 := hn
    have hfits := hfits enc (mem_of_narrowEncoding? hnarrow)
    obtain ⟨narrow, hencode, hword⟩ := encode_eq_word hfits hnarrow ho
    simp only [meaning, hnarrow]
    rw [hfits.decode_eq_ok_iff, and_iff_right (ho enc hnarrow), hencode, hword,
      UInt32.toNat_toUInt64, Except.ok.injEq, ← UInt32.toNat_inj, UInt32.toNat_ofNat',
      Nat.mod_eq_of_lt hn, eq_comm]

/-! ## Accesses -/

theorem aligned_of_require (h : t.require e m = .ok ()) :
    t.address.toNat % (t.width e).bytes = 0 := by
  have hadmits := require_eq_ok_iff.mp h
  rw [Memory.admits, Bool.and_eq_true, beq_iff_eq] at hadmits
  exact hadmits.2

theorem load_eq_meaning (h : t.require e m = .ok ()) :
    t.load e m = t.meaning e (t.number e m) := by
  have hload := Memory.load_of_admits (require_eq_ok_iff.mp h)
  rw [← toNat_read]
  cases hnarrow : t.narrowEncoding? e with
  | none =>
    simp only [width, hnarrow] at hload
    simp only [load, meaning, width, hnarrow, hload, UInt64.ofNat_toNat]
  | some enc =>
    simp only [width, hnarrow, address_of_narrow hnarrow] at hload
    simp only [load, meaning, width, hnarrow, address_of_narrow hnarrow, hload]
    rfl

theorem store_eq_written (hfits : ∀ enc ∈ e, enc.Fits) (h : t.require e m = .ok ())
    (ho : t.Accepts e o) : t.store o e m = .ok (t.written e o m) := by
  have hadmits := require_eq_ok_iff.mp h
  cases hnarrow : t.narrowEncoding? e with
  | none =>
    simp only [width, hnarrow] at hadmits
    simp only [store, written, word, width, hnarrow, Memory.store, if_pos hadmits]
  | some enc =>
    obtain ⟨narrow, hencode, hword⟩ :=
      encode_eq_word (hfits enc (mem_of_narrowEncoding? hnarrow)) hnarrow ho
    simp only [width, hnarrow, address_of_narrow hnarrow] at hadmits
    simp only [store, written, hword, width, hnarrow, address_of_narrow hnarrow, hencode]
    rw [Memory.require, if_pos hadmits]
    change m.store t.raw .narrow narrow.toUInt64 = _
    rw [Memory.store, if_pos hadmits]

/-- An access of the width of a slot carries all of the word for a reference. -/
theorem truncate_word (t : Tagged) (e : Option Encoding) (o : ObjectRef) :
    (t.width e).truncate (t.word e o) = t.word e o := by
  have hlt := t.toNat_word_lt e o
  cases hnarrow : t.narrowEncoding? e with
  | none => simp only [width, hnarrow, Width.truncate]
  | some enc =>
    simp only [width, hnarrow] at hlt ⊢
    apply UInt64.toNat_inj.mp
    change ((t.word e o) &&& 0xffffffff).toNat = _
    rw [UInt64.toNat_and]
    exact (Nat.and_two_pow_sub_one_eq_mod _ 32).trans (Nat.mod_eq_of_lt hlt)

theorem compareExchange_eq (hfits : ∀ enc ∈ e, enc.Fits) {old new : ObjectRef}
    (hold : t.Accepts e old) (hnew : t.Accepts e new) (h : t.require e m = .ok ()) :
    t.compareExchange old new e m = do
      let (done, found, m) ←
        m.compareExchange t.address (t.width e) (t.word e old) (t.word e new)
      return (done, ← t.meaning e found.toNat, m) := by
  cases hnarrow : t.narrowEncoding? e with
  | none =>
    simp only [compareExchange, word, meaning, width, hnarrow, UInt64.ofNat_toNat]
    cases m.compareExchange t.address .wide old new <;> rfl
  | some enc =>
    have hfits := hfits enc (mem_of_narrowEncoding? hnarrow)
    obtain ⟨narrow, hencode, hword⟩ := encode_eq_word hfits hnarrow hold
    obtain ⟨narrow', hencode', hword'⟩ := encode_eq_word hfits hnarrow hnew
    have hrequire : m.require t.raw .narrow = .ok () := by
      simpa only [require, hnarrow] using h
    simp only [compareExchange, meaning, width, hnarrow, address_of_narrow hnarrow, hword, hword',
      hencode, hencode', hrequire]
    rfl

/-- An exchange takes place just if the slot holds the old reference. -/
theorem compareExchange_of_load (hfits : ∀ enc ∈ e, enc.Fits) {old new : ObjectRef}
    (hold : t.Accepts e old) (hnew : t.Accepts e new) (h : t.require e m = .ok ())
    (hload : t.load e m = .ok o) :
    t.compareExchange old new e m =
      .ok (if o = old then (true, o, t.written e new m) else (false, o, m)) := by
  have hmeaning : t.meaning e (t.number e m) = .ok o := (load_eq_meaning h).symm.trans hload
  -- the word that is found is the old one just if both stand for the same reference
  have hfound : m.read t.address (t.width e).bytes = t.word e old ↔ o = old := by
    rw [← UInt64.toNat_inj, toNat_read, ← meaning_eq_ok_iff hfits hold (t.number_lt e m),
      hmeaning, Except.ok.injEq]
  rw [compareExchange_eq hfits hold hnew h, Memory.compareExchange,
    Memory.load_of_admits (require_eq_ok_iff.mp h), truncate_word]
  by_cases hsame : o = old
  · simp only [bind, Except.bind, pure, Except.pure, if_pos (hfound.mpr hsame), if_pos hsame,
      toNat_read, hmeaning]
    rfl
  · simp only [bind, Except.bind, pure, Except.pure, if_neg (mt hfound.mp hsame), if_neg hsame,
      toNat_read, hmeaning]

/-! ## What a write changes -/

@[simp] theorem require_written (t u : Tagged) (e : Option Encoding) (o : ObjectRef) (m : Memory) :
    u.require e (t.written e o m) = u.require e m := by
  simp [require_eq, Memory.require, written]

theorem byte_written (haligned : t.address.toNat % (t.width e).bytes = 0) (h : ¬ t.Covers e x) :
    (t.written e o m).byte x = m.byte x :=
  Memory.byte_write_of_le (le_sub_of_not_covers haligned h)

@[simp] theorem number_written (t : Tagged) (e : Option Encoding) (o : ObjectRef) (m : Memory) :
    t.number e (t.written e o m) = (t.word e o).toNat := by
  rw [number, written, Memory.number_write (t.bytes_width_le e), Nat.mod_eq_of_lt]
  exact t.toNat_word_lt e o

/-- A slot that shares no byte with the one that is written keeps its number. -/
theorem number_written_of_apart (ht : t.address.toNat % (t.width e).bytes = 0)
    (hu : u.address.toNat % (u.width e).bytes = 0) (h : ∀ x, t.Covers e x → ¬ u.Covers e x) :
    u.number e (t.written e o m) = u.number e m := by
  have hsize : (u.width e).bytes ≤ UInt64.size := Nat.le_trans (u.bytes_width_le e) (by decide)
  refine Memory.number_congr hsize fun x hx => byte_written ht fun hcovers => ?_
  exact h x hcovers (covers_of_sub_lt hu hx)

end HeapBridge.Slot.Tagged
