import HeapBridge.Memory

/-!
# Copies through a buffer

A copy of a range over another is made as if all bytes were read before the first one is written, so
the ranges may overlap. Bytes outside the target are spared, and the mapping stays as it was.
-/
namespace HeapBridge

attribute [ext] Memory

namespace Memory
variable {m : Memory} {a x : Address}

/-! ## Lists of bytes -/

/-- The bytes of a range, as they are before anything is written. -/
def bytesFrom (m : Memory) (a : Address) (n : Nat) : List UInt8 :=
  (List.range n).map fun i => m.byte (a + UInt64.ofNat i)

@[simp] theorem length_bytesFrom (m : Memory) (a : Address) (n : Nat) :
    (m.bytesFrom a n).length = n := by
  simp [bytesFrom]

@[simp] theorem start_withBytes (m : Memory) (a : Address) (bs : List UInt8) :
    (m.withBytes a bs).start = m.start := by
  induction bs generalizing m a with
  | nil => rfl
  | cons b bs ih => rw [withBytes, ih, start_setByte]

@[simp] theorem size_withBytes (m : Memory) (a : Address) (bs : List UInt8) :
    (m.withBytes a bs).size = m.size := by
  induction bs generalizing m a with
  | nil => rfl
  | cons b bs ih => rw [withBytes, ih, size_setByte]

/-- Any other place is one further from an address than from the next one. -/
theorem toNat_sub_of_ne (h : x ≠ a) : (x - a).toNat = (x - (a + 1)).toNat + 1 := by
  have hne : x.toNat ≠ a.toNat := fun heq => h (UInt64.toNat_inj.mp heq)
  have := x.toNat_lt
  have := a.toNat_lt
  rw [UInt64.toNat_sub, UInt64.toNat_sub, UInt64.toNat_add, UInt64.toNat_one]
  omega

/-- A byte of memory after a list was written is the one at its distance in the list. A list that
does not go once around all addresses never comes back to its first one. -/
theorem byte_withBytes {bs : List UInt8} (hbs : bs.length ≤ UInt64.size) (m : Memory)
    (a : Address) : (m.withBytes a bs).byte x = bs[(x - a).toNat]?.getD (m.byte x) := by
  induction bs generalizing m a with
  | nil => rfl
  | cons b bs ih =>
    have hlength : bs.length < UInt64.size := hbs
    rw [withBytes, ih (Nat.le_of_lt hlength), byte_setByte]
    by_cases hx : x = a
    · subst hx
      have hlast : x - (x + 1) = -1 := by grind
      have hnone : bs[(x - (x + 1)).toNat]? = none := by
        rw [List.getElem?_eq_none_iff, hlast]
        exact Nat.le_of_lt_succ hlength
      rw [hnone, if_pos rfl, UInt64.sub_self]
      rfl
    · rw [if_neg hx, toNat_sub_of_ne hx, List.getElem?_cons_succ]

/-! ## Moves -/

/-- A range of bytes and the place that it is copied to. -/
structure Move where
  src : Address
  dst : Address
  size : Word

namespace Move
variable {v : Move}

/-- Reads all bytes of the range, and then writes them. -/
def apply (v : Move) (m : Memory) : Memory := m.withBytes v.dst (m.bytesFrom v.src v.size.toNat)

/-- Both ranges are in memory. -/
def Fits (v : Move) (m : Memory) : Prop :=
  m.covers v.src v.size.toNat = true ∧ m.covers v.dst v.size.toNat = true

/-- An address is not in the range that is written. -/
def Spares (v : Move) (a : Address) : Prop := v.size ≤ a - v.dst

@[simp] theorem start_apply (v : Move) (m : Memory) : (v.apply m).start = m.start :=
  start_withBytes ..

@[simp] theorem size_apply (v : Move) (m : Memory) : (v.apply m).size = m.size :=
  size_withBytes ..

theorem byte_apply (v : Move) (m : Memory) (x : Address) :
    (v.apply m).byte x =
      if x - v.dst < v.size then m.byte (v.src + (x - v.dst)) else m.byte x := by
  have hlength : (m.bytesFrom v.src v.size.toNat).length ≤ UInt64.size := by
    rw [length_bytesFrom]
    exact Nat.le_of_lt v.size.toNat_lt
  rw [apply, byte_withBytes hlength]
  by_cases hx : x - v.dst < v.size
  · have hx' := UInt64.lt_iff_toNat_lt.mp hx
    rw [if_pos hx, bytesFrom, List.getElem?_map, List.getElem?_range hx']
    change m.byte (v.src + UInt64.ofNat (x - v.dst).toNat) = _
    rw [UInt64.ofNat_toNat]
  · have hx' : v.size.toNat ≤ (x - v.dst).toNat :=
      UInt64.le_iff_toNat_le.mp (UInt64.not_lt.mp hx)
    rw [if_neg hx, List.getElem?_eq_none (by simpa using hx')]
    rfl

theorem byte_apply_of_spares (h : v.Spares a) (m : Memory) : (v.apply m).byte a = m.byte a := by
  rw [byte_apply, if_neg (UInt64.not_lt.mpr h)]

/-- A copy by one byte upwards. Reading and writing byte by byte would repeat the first one. -/
example : (apply ⟨0x1000, 0x1001, 3⟩ ((zeroed 0x1000 8).withBytes 0x1000 [1, 2, 3, 4])).bytesFrom
    0x1000 4 = [1, 1, 2, 3] := by decide

/-- Makes moves one after the other. -/
def applyAll (moves : List Move) (m : Memory) : Memory := moves.foldl (fun m v => v.apply m) m

theorem applyAll_append (moves moves' : List Move) (m : Memory) :
    applyAll (moves ++ moves') m = applyAll moves' (applyAll moves m) := List.foldl_append

@[simp] theorem start_applyAll (moves : List Move) (m : Memory) :
    (applyAll moves m).start = m.start := by
  induction moves generalizing m with
  | nil => rfl
  | cons v moves ih => exact (ih (v.apply m)).trans (v.start_apply m)

@[simp] theorem size_applyAll (moves : List Move) (m : Memory) :
    (applyAll moves m).size = m.size := by
  induction moves generalizing m with
  | nil => rfl
  | cons v moves ih => exact (ih (v.apply m)).trans (v.size_apply m)

theorem byte_applyAll_of_spares {moves : List Move} (h : ∀ v ∈ moves, v.Spares a) (m : Memory) :
    (applyAll moves m).byte a = m.byte a := by
  induction moves generalizing m with
  | nil => rfl
  | cons v moves ih =>
    calc (applyAll (v :: moves) m).byte a
        = (v.apply m).byte a := ih (fun u hu => h u (List.mem_cons_of_mem v hu)) (v.apply m)
      _ = m.byte a := byte_apply_of_spares (h v List.mem_cons_self) m

@[simp] theorem covers_applyAll (moves : List Move) (m : Memory) (n : Nat) :
    (applyAll moves m).covers a n = m.covers a n := by
  rw [covers, start_applyAll, size_applyAll, covers]

@[simp] theorem admits_applyAll (moves : List Move) (m : Memory) (w : Width) :
    (applyAll moves m).admits a w = m.admits a w := by
  rw [admits, covers_applyAll, admits]

end Move

/-- Copying is a move, where both ranges are in memory. -/
theorem copy_of_fits {v : Move} (h : v.Fits m) :
    m.copy v.src v.dst v.size = .ok (v.apply m) := by
  rw [copy, if_pos (Bool.and_eq_true_iff.mpr h)]
  congr 1
  refine Memory.ext (v.start_apply m).symm (v.size_apply m).symm ?_
  funext x
  exact (v.byte_apply m x).symm

end Memory
end HeapBridge
