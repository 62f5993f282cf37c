import HeapBridge.Proofs.Scan.Partition
import HeapBridge.Scan.Closure

/-!
# Filling buffers

A scan under way holds the words written so far: those of the buffers that went back, followed by
those of the live one. Every buffer that went back is full and the live one is not, so at the end
the packets are the greedy partition of the words, whatever the capacities. A visit that fails, or
that has nothing to report, leaves the buffers alone.
-/
namespace HeapBridge.Scan
variable {supply : Supply} {words : List Word} {f : Filling}

namespace Filling

/-- The words of a scan are in its buffers, of which only the live one has room. -/
structure Holds (supply : Supply) (words : List Word) (f : Filling) : Prop where
  words_eq : (f.reported.map Buffer.words).flatten ++ f.live.words = words
  borrowed : f.borrowed = f.reported.length + 1
  capacity : f.live.capacity = supply f.reported.length
  full : ∀ i (h : i < f.reported.length), f.reported[i].words.length = supply i
  room : f.live.words.length < f.live.capacity

theorem holds_start (hsupply : ∀ i, 0 < supply i) : (start supply).Holds supply [] where
  words_eq := rfl
  borrowed := rfl
  capacity := rfl
  full := nofun
  room := hsupply 0

/-- The buffers that went back, with a live one that has become full. -/
theorem full_append_live (hfull : ∀ i (h : i < f.reported.length),
    f.reported[i].words.length = supply i) (hlive : f.live.words.length = supply f.reported.length) :
    ∀ i (h : i < (f.reported ++ [f.live]).length),
      (f.reported ++ [f.live])[i].words.length = supply i := by
  intro i hi
  rw [List.getElem_append]
  split
  · exact hfull i _
  · have hlast : i = f.reported.length := by
      rw [List.length_append, List.length_singleton] at hi
      omega
    subst hlast
    simpa using hlive

/-- Another word goes in, and the scan holds it after the others. -/
theorem Holds.push (hsupply : ∀ i, 0 < supply i) (h : f.Holds supply words) (w : Word) :
    ∃ f', f.push supply w = .ok f' ∧ f'.Holds supply (words ++ [w]) := by
  have hroom : f.isFull = false := by
    rw [isFull, decide_eq_false_iff_not]
    exact Nat.not_le.mpr h.room
  have hwords : (f.reported.map Buffer.words).flatten ++ (f.live.words ++ [w]) = words ++ [w] := by
    rw [← List.append_assoc, h.words_eq]
  rw [Filling.push, if_neg (by simp [hroom])]
  refine ⟨_, rfl, ?_⟩
  split
  case isTrue hfull =>
    -- the word was the last that fits, and the buffer goes back
    have hlength : (f.write w).live.words.length = supply f.reported.length := by
      have hle : f.live.capacity ≤ (f.live.words ++ [w]).length := by
        simpa [isFull, write] using hfull
      have hroom := h.room
      rw [List.length_append, List.length_singleton] at hle
      rw [words_write, List.length_append, List.length_singleton, ← h.capacity]
      omega
    constructor
    · simpa [renew, write] using hwords
    · simp [renew, write, h.borrowed]
    · simp [renew, write, h.borrowed]
    · exact full_append_live h.full hlength
    · exact hsupply _
  case isFalse hfull =>
    constructor
    · exact hwords
    · exact h.borrowed
    · exact h.capacity
    · exact h.full
    · simpa [isFull] using hfull

/-- A scan that has ended reported the greedy partition of what it held. -/
theorem Holds.isGreedy (hsupply : ∀ i, 0 < supply i) (h : f.Holds supply words) :
    IsGreedy supply words (f.finish supply).packets := by
  have hfull : ∀ i (hi : i < (f.reported.map Buffer.words).length),
      (f.reported.map Buffer.words)[i].length = supply i := by
    intro i hi
    rw [List.length_map] at hi
    rw [List.getElem_map]
    exact h.full i hi
  by_cases hempty : f.live.words = []
  · have hpackets : (f.finish supply).packets = f.reported.map Buffer.words := by
      simp [finish, flush, hempty, Filled.packets]
    have hwords : (f.reported.map Buffer.words).flatten = words := by
      simpa [hempty] using h.words_eq
    rw [hpackets, ← hwords]
    exact .of_full hsupply hfull
  · have hpackets : (f.finish supply).packets = f.reported.map Buffer.words ++ [f.live.words] := by
      simp [finish, flush, hempty, Filled.packets]
    rw [hpackets, ← h.words_eq]
    refine .of_full_append hsupply hfull hempty ?_
    rw [List.length_map, ← h.capacity]
    exact Nat.le_of_lt h.room

end Filling
end HeapBridge.Scan
