import HeapBridge.Word.Checked

/-!
# Bump pointers

A buffer that one thread allocates from by moving a cursor towards a limit.
-/
namespace HeapBridge.Alloc

/-- The free part of a buffer. -/
structure Bump where
  cursor : Address
  limit : Address
deriving DecidableEq, Inhabited

namespace Bump

/-- A buffer with nothing in it. -/
def empty : Bump := ⟨0, 0⟩

/-- Takes `size` bytes off the front, if the buffer holds them. -/
def take? (b : Bump) (size : Word) : Option (Address × Bump) :=
  match Word.add? b.cursor size with
  | none => none
  | some next => if next ≤ b.limit then some (b.cursor, { b with cursor := next }) else none

/-- The number of bytes left. -/
def remaining (b : Bump) : Word := if b.cursor ≤ b.limit then b.limit - b.cursor else 0

theorem take?_eq_some_iff {b b' : Bump} {size : Word} {a : Address} :
    b.take? size = some (a, b') ↔
      a = b.cursor ∧ b'.limit = b.limit ∧ b'.cursor.toNat = b.cursor.toNat + size.toNat ∧
        b'.cursor ≤ b.limit := by
  unfold take?
  constructor
  · intro h
    split at h
    · cases h
    · rename_i next hn
      split at h
      · rename_i hle
        cases h
        exact ⟨rfl, rfl, (Word.add?_eq_some_iff.mp hn).symm, hle⟩
      · cases h
  · rintro ⟨rfl, hl, hc, hle⟩
    rw [Word.add?_eq_some_iff.mpr hc.symm]
    obtain ⟨c, l⟩ := b'
    simp only at hl hle
    subst hl
    simp [hle]

end Bump
end HeapBridge.Alloc
