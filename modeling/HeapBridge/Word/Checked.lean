import HeapBridge.Fault
import HeapBridge.Units

/-!
# Checked arithmetic

Sums, differences, products and shifts that fail instead of losing bits.
-/
namespace HeapBridge.Word

/-- The sum of two words, if it is one. -/
def add? (a b : Word) : Option Word :=
  if a.toNat + b.toNat < UInt64.size then some (a + b) else none

/-- The sum of two words. -/
def add (a b : Word) : Except Fault Word :=
  match add? a b with
  | some s => .ok s
  | none => .error (.overflow .add)

/-- The difference of two words. -/
def sub (a b : Word) : Except Fault Word :=
  if b ≤ a then .ok (a - b) else .error (.overflow .sub)

/-- The product of two words. -/
def mul (a b : Word) : Except Fault Word :=
  if a.toNat * b.toNat < UInt64.size then .ok (a * b) else .error (.overflow .mul)

/-- The distance from `b` up to `a`. -/
def distance (a b : Address) : Except Fault Word :=
  if b ≤ a then .ok (a - b) else .error (.belowOrigin a b)

/-- Drops the lowest `n` bits. -/
def shiftRight (a n : Word) : Except Fault Word :=
  if n < 64 then .ok (a >>> n) else .error (.overflow .shiftRight)

/-- Scales by two to the power `n`. Bits that leave the word are lost, as in a mask. -/
def shiftLeft (a n : Word) : Except Fault Word :=
  if n < 64 then .ok (a <<< n) else .error (.overflow .shiftLeft)

/-- The number of pages that hold `bytes`. -/
def pagesUp (bytes : Word) : Except Fault Word := do
  let padded ← add bytes Units.bytesPerPage
  return (padded - 1) >>> 12

theorem add?_eq_some_iff {a b s : Word} :
    add? a b = some s ↔ a.toNat + b.toNat = s.toNat := by
  unfold add?
  constructor
  · intro h
    split at h
    · cases h
      rw [UInt64.toNat_add, Nat.mod_eq_of_lt (by assumption)]
    · cases h
  · intro h
    have hs : s.toNat < UInt64.size := s.toNat_lt
    rw [if_pos (h ▸ hs)]
    congr 1
    apply UInt64.toNat_inj.mp
    rw [UInt64.toNat_add, h, Nat.mod_eq_of_lt hs]

theorem add_eq_ok_iff {a b s : Word} : add a b = .ok s ↔ a.toNat + b.toNat = s.toNat := by
  rw [← add?_eq_some_iff, add]
  cases add? a b <;> simp

theorem sub_eq_ok_iff {a b d : Word} : sub a b = .ok d ↔ d.toNat + b.toNat = a.toNat := by
  unfold sub
  constructor
  · intro h
    split at h
    · rename_i hle
      cases h
      rw [UInt64.toNat_sub_of_le _ _ hle]
      have := UInt64.le_iff_toNat_le.mp hle
      omega
    · cases h
  · intro h
    have hle : b ≤ a := UInt64.le_iff_toNat_le.mpr (by omega)
    rw [if_pos hle]
    congr 1
    apply UInt64.toNat_inj.mp
    rw [UInt64.toNat_sub_of_le _ _ hle]
    omega

theorem shiftRight_of_lt {a n : Word} (h : n < 64) : shiftRight a n = .ok (a >>> n) := by
  simp [shiftRight, h]

end HeapBridge.Word
