import HeapBridge.Proofs.Memory.Numbers

/-!
# Words in memory

A word is eight bytes, and it is known by the number in them. So a word can be told from the bytes
of it, the bytes from the word, and a word that is written leaves alone all bytes beside it.
-/
namespace HeapBridge.Memory
variable {m m' : Memory} {a b x : Address} {v : Word}

/-- The word at an address. -/
def word (m : Memory) (a : Address) : Word := m.read a Width.wide.bytes

/-- Memory with a word at an address. -/
def setWord (m : Memory) (a : Address) (v : Word) : Memory := m.write a v Width.wide.bytes

/-- A byte is one of the word at an address. -/
def InWord (a x : Address) : Prop := (x - a).toNat < Width.wide.bytes

/-- The words at two addresses share no byte. -/
def Apart (a b : Address) : Prop := ∀ x, InWord a x → ¬ InWord b x

theorem Apart.symm (h : Apart a b) : Apart b a := fun x hb ha => h x ha hb

/-- Words share no byte just if each of them begins outside the other. -/
theorem apart_iff :
    Apart a b ↔ Width.wide.bytes ≤ (b - a).toNat ∧ Width.wide.bytes ≤ (a - b).toNat := by
  constructor
  · intro h
    have hself (c : Address) : InWord c c := by simp [InWord, Width.bytes]
    exact ⟨Nat.le_of_not_lt (h.symm b (hself b)), Nat.le_of_not_lt (h a (hself a))⟩
  · rintro ⟨hab, hba⟩ x ha hb
    simp only [InWord, Width.bytes, UInt64.toNat_sub] at hab hba ha hb
    have := a.toNat_lt
    have := b.toNat_lt
    have := x.toNat_lt
    omega

instance : Decidable (Apart a b) := decidable_of_iff _ apart_iff.symm

/-- A list of addresses is searched through, and not all addresses that there are. -/
instance (priority := high) decidableForallMem (p : Address → Prop) [DecidablePred p]
    (slots : List Address) : Decidable (∀ slot ∈ slots, p slot) := List.decidableBAll p slots

/-! ## Bytes and words -/

theorem toNat_word (m : Memory) (a : Address) : (m.word a).toNat = m.number a Width.wide.bytes :=
  toNat_read (Nat.le_refl 8) m a

theorem word_congr (h : ∀ x, InWord a x → m'.byte x = m.byte x) : m'.word a = m.word a := by
  rw [← UInt64.toNat_inj, toNat_word, toNat_word, number_congr (by decide) h]

/-- Equal words have equal bytes. -/
theorem byte_eq_of_word_eq (h : m'.word a = m.word a) (hx : InWord a x) :
    m'.byte x = m.byte x := by
  have hdigits (m : Memory) :
      ∀ d ∈ (m.bytesFrom a Width.wide.bytes).map UInt8.toNat, d < 256 := by
    intro d hd
    obtain ⟨b, -, rfl⟩ := List.mem_map.mp hd
    exact b.toNat_lt
  have hnumber : m'.number a Width.wide.bytes = m.number a Width.wide.bytes := by
    rw [← toNat_word, ← toNat_word, h]
  have hbytes := Nat.ofDigits_inj_of_len_eq (by decide : 1 < 256) (by simp) (hdigits m')
    (hdigits m) hnumber
  rw [bytesFrom, bytesFrom, List.map_map, List.map_map] at hbytes
  have hbyte := List.map_inj_left.mp hbytes (x - a).toNat (List.mem_range.mpr hx)
  rw [Function.comp_apply, Function.comp_apply, UInt8.toNat_inj, UInt64.ofNat_toNat] at hbyte
  rwa [show a + (x - a) = x by grind] at hbyte

theorem load_eq_word (h : m.admits a .wide = true) : m.load a .wide = .ok (m.word a) := if_pos h

/-! ## Words that are written -/

theorem store_eq_setWord (h : m.admits a .wide = true) (v : Word) :
    m.store a .wide v = .ok (m.setWord a v) := if_pos h

theorem word_setWord (m : Memory) (a : Address) (v : Word) : (m.setWord a v).word a = v := by
  rw [← UInt64.toNat_inj, toNat_word, setWord, number_write (by decide : Width.wide.bytes ≤ 8)]
  exact Nat.mod_eq_of_lt v.toNat_lt

theorem byte_setWord (h : ¬ InWord a x) : (m.setWord a v).byte x = m.byte x :=
  byte_write_of_le (Nat.le_of_not_lt h)

end HeapBridge.Memory
