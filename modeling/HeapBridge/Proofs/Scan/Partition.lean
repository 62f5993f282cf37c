import HeapBridge.Scan.Buffer
import Mathlib.Data.List.Basic

/-!
# Greedy partitions

A list that is written into buffers, one after the other, is cut into packets. The cut is greedy if
every packet but the last fills its buffer and the last one holds something. The capacities may
differ from buffer to buffer. There is one such cut of a list, so whoever shows two lists of packets
to be greedy has shown them equal.
-/
namespace HeapBridge.Scan
variable {α β : Type}

/-- Packets that are the greedy cut of a list over buffers of the given capacities. -/
structure IsGreedy (supply : Supply) (items : List α) (packets : List (List α)) : Prop where
  flatten : packets.flatten = items
  full : ∀ i (h : i + 1 < packets.length), packets[i].length = supply i
  fits : ∀ i (h : i < packets.length), packets[i].length ≤ supply i
  ne_nil : ∀ p ∈ packets, p ≠ []

namespace IsGreedy
variable {supply : Supply} {items : List α} {p : List α} {ps qs : List (List α)}

/-- Packets that fill their buffers are a greedy cut. -/
theorem of_full (hsupply : ∀ i, 0 < supply i)
    (hfull : ∀ i (h : i < ps.length), ps[i].length = supply i) :
    IsGreedy supply ps.flatten ps where
  flatten := rfl
  full i hi := hfull i _
  fits i hi := Nat.le_of_eq (hfull i hi)
  ne_nil p hp := by
    obtain ⟨i, hi, rfl⟩ := List.mem_iff_getElem.mp hp
    exact List.ne_nil_of_length_pos (hfull i hi ▸ hsupply i)

/-- So they are with one packet more, as long as that fits. -/
theorem of_full_append (hsupply : ∀ i, 0 < supply i)
    (hfull : ∀ i (h : i < ps.length), ps[i].length = supply i) (hne : p ≠ [])
    (hfits : p.length ≤ supply ps.length) : IsGreedy supply (ps.flatten ++ p) (ps ++ [p]) where
  flatten := by simp
  full i hi := by
    rw [List.length_append, List.length_singleton] at hi
    rw [List.getElem_append_left (by omega)]
    exact hfull i _
  fits i hi := by
    rw [List.length_append, List.length_singleton] at hi
    rw [List.getElem_append]
    split
    · exact Nat.le_of_eq (hfull i _)
    · have hlast : i = ps.length := by omega
      subst hlast
      simpa using hfits
  ne_nil q hq := by
    rcases List.mem_append.mp hq with hq | hq
    · exact (of_full hsupply hfull).ne_nil q hq
    · rw [List.mem_singleton.mp hq]
      exact hne

theorem eq_nil_of_items_nil (h : IsGreedy supply [] ps) : ps = [] := by
  cases ps with
  | nil => rfl
  | cons p ps =>
    have hp : p = [] := (List.append_eq_nil_iff.mp h.flatten).1
    exact absurd hp (h.ne_nil p List.mem_cons_self)

/-- The first packet is what goes into the first buffer. -/
theorem head_eq (h : IsGreedy supply items (p :: ps)) : p = items.take (supply 0) := by
  have hfits : p.length ≤ supply 0 := h.fits 0 (Nat.zero_lt_succ _)
  cases ps with
  | nil =>
    have hflatten : p = items := by simpa using h.flatten
    rw [← hflatten, List.take_of_length_le hfits]
  | cons q qs =>
    have hfull : p.length = supply 0 := h.full 0 (by simp)
    rw [← h.flatten, List.flatten_cons, ← hfull, List.take_left]

/-- What remains is cut over the buffers that remain. -/
theorem tail (h : IsGreedy supply items (p :: ps)) :
    IsGreedy (fun i => supply (i + 1)) (items.drop p.length) ps where
  flatten := by rw [← h.flatten, List.flatten_cons, List.drop_left]
  full i hi := h.full (i + 1) (Nat.succ_lt_succ hi)
  fits i hi := h.fits (i + 1) (Nat.succ_lt_succ hi)
  ne_nil q hq := h.ne_nil q (List.mem_cons_of_mem p hq)

/-- A list has one greedy cut. -/
theorem unique (h : IsGreedy supply items ps) (h' : IsGreedy supply items qs) : ps = qs := by
  induction ps generalizing supply items qs with
  | nil =>
    have hitems : items = [] := h.flatten.symm
    subst hitems
    exact h'.eq_nil_of_items_nil.symm
  | cons p ps ih =>
    cases qs with
    | nil =>
      have hitems : items = [] := h'.flatten.symm
      subst hitems
      exact h.eq_nil_of_items_nil
    | cons q qs =>
      have hhead : p = q := h.head_eq.trans h'.head_eq.symm
      subst hhead
      rw [ih h.tail h'.tail]

/-- A change of every item leaves the cut where it is. -/
theorem map (f : α → β) (h : IsGreedy supply items ps) :
    IsGreedy supply (items.map f) (ps.map (List.map f)) where
  flatten := by rw [← h.flatten, List.map_flatten]
  full i hi := by
    rw [List.length_map] at hi
    rw [List.getElem_map, List.length_map]
    exact h.full i hi
  fits i hi := by
    rw [List.length_map] at hi
    rw [List.getElem_map, List.length_map]
    exact h.fits i hi
  ne_nil q hq := by
    obtain ⟨p, hp, rfl⟩ := List.mem_map.mp hq
    exact fun hnil => h.ne_nil p hp (List.map_eq_nil_iff.mp hnil)

/-- With buffers of one capacity the number of packets is the number of items in units of it,
rounded up. -/
theorem length_eq {capacity : Nat} (hpos : 0 < capacity) (h : IsGreedy supply items ps)
    (hsupply : ∀ i, supply i = capacity) :
    ps.length = (items.length + capacity - 1) / capacity := by
  induction ps generalizing supply items with
  | nil =>
    have hitems : items = [] := h.flatten.symm
    subst hitems
    exact (Nat.div_eq_of_lt (by simp; omega)).symm
  | cons p ps ih =>
    have hlength : items.length = p.length + ps.flatten.length := by
      rw [← h.flatten, List.flatten_cons, List.length_append]
    have hrest := ih h.tail fun i => hsupply (i + 1)
    rw [List.length_drop] at hrest
    rw [List.length_cons, hrest, hlength, Nat.add_sub_cancel_left]
    cases ps with
    | nil =>
      -- the last packet may be short, but it is not empty
      have hfits : p.length ≤ capacity := hsupply 0 ▸ h.fits 0 (Nat.zero_lt_succ _)
      have hne : 0 < p.length := List.length_pos_of_ne_nil (h.ne_nil p List.mem_cons_self)
      simp only [List.flatten_nil, List.length_nil, Nat.add_zero]
      rw [Nat.div_eq_of_lt (by omega),
        show p.length + capacity - 1 = (p.length - 1) + capacity by omega,
        Nat.add_div_right _ hpos, Nat.div_eq_of_lt (by omega)]
    | cons q qs =>
      have hfull : p.length = capacity := hsupply 0 ▸ h.full 0 (by simp)
      rw [hfull, show capacity + (q :: qs).flatten.length + capacity - 1 =
        ((q :: qs).flatten.length + capacity - 1) + capacity by omega, Nat.add_div_right _ hpos]

end IsGreedy
end HeapBridge.Scan
