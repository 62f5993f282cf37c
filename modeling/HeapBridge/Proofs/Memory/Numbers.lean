import HeapBridge.Proofs.Memory.Copying
import Mathlib.Data.Nat.Bitwise
import Mathlib.Data.Nat.Digits.Defs

/-!
# Numbers in memory

Up to eight bytes hold a number, lowest byte first. Reading takes the number out of them, writing
puts it there, and all other bytes are spared.
-/
namespace HeapBridge.Memory
variable {m m' : Memory} {a x : Address} {n : Nat}

/-! ## Bytes -/

theorem bytesFrom_succ (m : Memory) (a : Address) (n : Nat) :
    m.bytesFrom a (n + 1) = m.byte a :: m.bytesFrom (a + 1) n := by
  have hnext (i : Nat) : a + (UInt64.ofNat i + 1) = a + 1 + UInt64.ofNat i := by grind
  simp [bytesFrom, List.range_succ_eq_map, Function.comp_def, hnext]

/-- Bytes are a matter of the addresses that they come from. -/
theorem bytesFrom_congr (hn : n ≤ UInt64.size)
    (h : ∀ x, (x - a).toNat < n → m'.byte x = m.byte x) : m'.bytesFrom a n = m.bytesFrom a n := by
  refine List.map_congr_left fun i hi => h _ ?_
  have hi : i < n := List.mem_range.mp hi
  have hdistance : a + UInt64.ofNat i - a = UInt64.ofNat i := by grind
  rw [hdistance, UInt64.toNat_ofNat_of_lt' (Nat.lt_of_lt_of_le hi hn)]
  exact hi

/-- A number goes into the bytes from an address, and into no others. -/
theorem byte_write_of_le {v : Word} (h : n ≤ (x - a).toNat) :
    (m.write a v n).byte x = m.byte x := by
  induction n generalizing m a v with
  | zero => rfl
  | succ n ih =>
    have hne : x ≠ a := by
      rintro rfl
      simp at h
    have hnext := toNat_sub_of_ne hne
    rw [write, ih (by omega), byte_setByte, if_neg hne]

/-! ## Numbers -/

/-- The number that `n` bytes from `a` spell, lowest byte first. -/
def number (m : Memory) (a : Address) (n : Nat) : Nat :=
  Nat.ofDigits 256 ((m.bytesFrom a n).map UInt8.toNat)

theorem number_succ (m : Memory) (a : Address) (n : Nat) :
    m.number a (n + 1) = (m.byte a).toNat + 256 * m.number (a + 1) n := by
  simp [number, bytesFrom_succ, Nat.ofDigits_cons]

theorem number_lt (m : Memory) (a : Address) (n : Nat) : m.number a n < 256 ^ n := by
  have hdigits : ∀ d ∈ (m.bytesFrom a n).map UInt8.toNat, d < 256 := by
    intro d hd
    obtain ⟨b, -, rfl⟩ := List.mem_map.mp hd
    exact b.toNat_lt
  have hlt := Nat.ofDigits_lt_base_pow_length (by decide : 1 < 256) hdigits
  rwa [List.length_map, length_bytesFrom] at hlt

theorem number_congr (hn : n ≤ UInt64.size)
    (h : ∀ x, (x - a).toNat < n → m'.byte x = m.byte x) : m'.number a n = m.number a n := by
  rw [number, number, bytesFrom_congr hn h]

/-- Reading gives the number that the bytes spell. -/
theorem toNat_read (hn : n ≤ 8) (m : Memory) (a : Address) :
    (m.read a n).toNat = m.number a n := by
  induction n generalizing a with
  | zero => rfl
  | succ n ih =>
    have hrest : m.number (a + 1) n < 2 ^ 56 :=
      Nat.lt_of_lt_of_le (m.number_lt (a + 1) n)
        (Nat.pow_le_pow_right (by decide) (by omega : n ≤ 7))
    have hshift : (m.read (a + 1) n <<< 8).toNat = 2 ^ 8 * m.number (a + 1) n := by
      rw [UInt64.toNat_shiftLeft, ih (by omega), Nat.shiftLeft_eq]
      change m.number (a + 1) n * 2 ^ 8 % 2 ^ 64 = _
      omega
    rw [read, UInt64.toNat_or, hshift, UInt8.toNat_toUInt64, Nat.or_comm,
      ← Nat.two_pow_add_eq_or_of_lt (m.byte a).toNat_lt, number_succ, Nat.add_comm]

/-- The bytes from an address spell what was written there, as far as there are bytes for it. -/
theorem number_write (hn : n ≤ 8) (m : Memory) (a : Address) (v : Word) :
    (m.write a v n).number a n = v.toNat % 256 ^ n := by
  induction n generalizing m a v with
  | zero => simp [number, bytesFrom, Nat.mod_one]
  | succ n ih =>
    have hlast : (a - (a + 1)).toNat = 2 ^ 64 - 1 := by
      rw [show a - (a + 1) = -1 by grind]
      rfl
    have hbyte : ((m.write a v (n + 1)).byte a).toNat = v.toNat % 256 := by
      rw [write, byte_write_of_le (by omega), byte_setByte, if_pos rfl]
      rfl
    have hshift : (v >>> 8).toNat = v.toNat / 256 := by
      rw [UInt64.toNat_shiftRight, Nat.shiftRight_eq_div_pow]
      rfl
    rw [number_succ, hbyte, write, ih (by omega), hshift, pow_succ', Nat.mod_mul]

end HeapBridge.Memory
