import HeapBridge.Settings

/-!
# The grammar of values

What the text of a value looks like for every kind of option, and that exactly such texts are read.
-/
namespace HeapBridge.Settings

/-- Writes a number in decimal digits, after a plus sign if one is wanted. Zeros may stand in front.
-/
def IsDecimal (text : List Char) (n : Nat) : Prop :=
  ∃ digits, (text = digits ∨ text = '+' :: digits) ∧ digits ≠ [] ∧
    (∀ c ∈ digits, c.isDigit = true) ∧ Nat.ofDigitChars 10 digits 0 = n

/-- Which text gives which value of an option. -/
def Key.Accepts (text : String) : (k : Key) → k.Value → Prop
  | barrierFastPath, v | compressedReferences, v | noArrayCopyBarrier, v | loadBarrier, v
  | unknownLoadShortCircuit, v | fastAllocDisabled, v => text = if v then "true" else "false"
  | loadBarrierMode, mode => text = mode.name
  | largeBumpThreshold, size => IsDecimal text.toList size.toNat
  | companionName, name => text = name ∧ name ≠ ""

theorem readBool?_eq_some_iff {text : String} {v : Bool} :
    readBool? text = some v ↔ text = if v then "true" else "false" := by
  unfold readBool?
  by_cases htrue : text = "true"
  · subst htrue
    cases v <;> simp
  · by_cases hfalse : text = "false"
    · subst hfalse
      cases v <;> simp
    · cases v <;> simp [htrue, hfalse]

theorem ofName?_eq_some_iff {text : String} {mode : LoadMode} :
    LoadMode.ofName? text = some mode ↔ text = mode.name := by
  constructor
  · intro h
    unfold LoadMode.ofName? at h
    have hname := List.find?_some h
    exact (beq_iff_eq.mp hname).symm
  · rintro rfl
    exact mode.ofName?_name

/-- A number only grows with every digit that is read. -/
theorem le_ofDigitChars (n : Nat) (cs : List Char) : n ≤ Nat.ofDigitChars 10 cs n := by
  induction cs generalizing n with
  | nil => exact Nat.le_refl n
  | cons c cs ih =>
    have hmore := ih (10 * n + (c.toNat - '0'.toNat))
    rw [Nat.ofDigitChars_cons]
    omega

/-- Digits are read up to the last one if the whole number fits, by induction on the digits. -/
theorem readDigits?_eq_some_iff {n m : Nat} (cs : List Char) (hn : n < UInt64.size) :
    readDigits? n cs = some m ↔
      (∀ c ∈ cs, c.isDigit = true) ∧ Nat.ofDigitChars 10 cs n = m ∧ m < UInt64.size := by
  induction cs generalizing n with
  | nil =>
    simp only [readDigits?, Option.some.injEq]
    constructor
    · rintro rfl
      exact ⟨nofun, rfl, hn⟩
    · exact fun h => h.2.1
  | cons c cs ih =>
    have hnext : n * 10 + (c.toNat - 48) = 10 * n + (c.toNat - '0'.toNat) := by
      rw [Nat.mul_comm]
      rfl
    simp only [readDigits?, List.forall_mem_cons, Nat.ofDigitChars_cons, hnext]
    cases hdigit : c.isDigit with
    | false => simp
    | true =>
      by_cases hfits : 10 * n + (c.toNat - '0'.toNat) < UInt64.size
      · rw [if_pos rfl, if_pos hfits, ih hfits]
        simp
      · have hmore := le_ofDigitChars (10 * n + (c.toNat - '0'.toNat)) cs
        rw [if_pos rfl, if_neg hfits]
        constructor
        · nofun
        · rintro ⟨-, rfl, hm⟩
          omega

/-- What follows the plus sign, if one is there. -/
def unsigned : List Char → List Char
  | '+' :: cs => cs
  | cs => cs

theorem unsigned_of_isDigit {digits : List Char} (h : ∀ c ∈ digits, c.isDigit = true) :
    unsigned digits = digits := by
  unfold unsigned
  split
  · have hsign := h '+' List.mem_cons_self
    cases hsign
  · rfl

theorem isDecimal_iff {text : List Char} {n : Nat} :
    IsDecimal text n ↔ unsigned text ≠ [] ∧ (∀ c ∈ unsigned text, c.isDigit = true) ∧
      Nat.ofDigitChars 10 (unsigned text) 0 = n := by
  constructor
  · rintro ⟨digits, rfl | rfl, hsome, hdigits, hn⟩
    · rw [unsigned_of_isDigit hdigits]
      exact ⟨hsome, hdigits, hn⟩
    · exact ⟨hsome, hdigits, hn⟩
  · intro h
    refine ⟨unsigned text, ?_, h⟩
    unfold unsigned
    split
    · exact .inr rfl
    · exact .inl rfl

theorem readWord?_eq_some_iff {text : String} {w : Word} :
    readWord? text = some w ↔ IsDecimal text.toList w.toNat := by
  have hread : readWord? text = if (unsigned text.toList).isEmpty then none
      else (readDigits? 0 (unsigned text.toList)).map UInt64.ofNat := rfl
  rw [hread, isDecimal_iff]
  cases hdigits : unsigned text.toList with
  | nil => simp
  | cons c cs =>
    rw [List.isEmpty_cons, if_neg nofun, Option.map_eq_some_iff]
    constructor
    · rintro ⟨n, hn, rfl⟩
      obtain ⟨hall, hvalue, hfits⟩ := (readDigits?_eq_some_iff _ (by decide)).mp hn
      rw [UInt64.toNat_ofNat_of_lt' hfits]
      exact ⟨nofun, hall, hvalue⟩
    · rintro ⟨-, hall, hvalue⟩
      refine ⟨w.toNat, ?_, UInt64.ofNat_toNat⟩
      exact (readDigits?_eq_some_iff _ (by decide)).mpr ⟨hall, hvalue, w.toNat_lt⟩

/-- A value that is read from what an option knows, if at all. -/
theorem elim_eq_ok_iff {α : Type} {found : Option α} {refusal : Refusal} {v : α} :
    found.elim (.error refusal) Except.ok = .ok v ↔ found = some v := by
  cases found <;> simp

/-- Exactly the texts of the grammar are read. -/
theorem Key.read_eq_ok_iff {k : Key} {text : String} {v : k.Value} :
    k.read text = .ok v ↔ k.Accepts text v := by
  cases k with
  | loadBarrierMode => exact elim_eq_ok_iff.trans ofName?_eq_some_iff
  | largeBumpThreshold => exact elim_eq_ok_iff.trans readWord?_eq_some_iff
  | companionName =>
    simp only [read, Accepts, String.isEmpty_iff]
    split
    · simp_all
    · constructor
      · rintro ⟨⟩
        exact ⟨rfl, by assumption⟩
      · rintro ⟨rfl, -⟩
        rfl
  | _ => exact elim_eq_ok_iff.trans readBool?_eq_some_iff

end HeapBridge.Settings
