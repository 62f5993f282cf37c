import HeapBridge.Proofs.Scan.Roots

/-!
# Buffers on loan

To the collector a buffer is a place and a capacity. A closure keeps those of one buffer and counts
the words that it put there; it gives the buffer back by these numbers and goes on in the place that
it is told. `EdgeBuffer` does so number by number and keeps every dealing with the collector. The
books of the dealings balance after each of them: of the buffers that were lent one is live, and the
others went back once, as they were lent and with what was written into them. The packets in these
books are the packets of the scan.
-/
namespace HeapBridge.Scan
open Slot (Encoding)

/-! ## Dealings -/

/-- A buffer as it is lent. Place zero is no buffer. -/
structure Loan where
  place : Address
  capacity : Nat
deriving DecidableEq

/-- What a collector lends in answer to each call. The answer may depend on what it was given: of
such a collector this is what it lends in one run. -/
abbrev Lender := Nat → Loan

/-- The capacities of the buffers that are lent. -/
def Lender.supply (lender : Lender) : Supply := fun i => (lender i).capacity

/-- A collector that lends buffers of its own in the first calls, each with room for something. -/
structure Lender.Proper (lender : Lender) (calls : Nat) : Prop where
  capacity_pos : ∀ i < calls, 0 < (lender i).capacity
  place_ne : ∀ i < calls, (lender i).place ≠ 0
  distinct : ∀ i < calls, ∀ j < calls, (lender i).place = (lender j).place → i = j

/-- A buffer as it is given back, with the number of words in it. -/
structure Handover where
  place : Address
  length : Nat
  capacity : Nat
deriving DecidableEq

def Handover.loan (g : Handover) : Loan := ⟨g.place, g.capacity⟩

/-- What a closure does to buffers. -/
inductive Dealing
  /-- A buffer or none goes back, and a fresh one is lent. -/
  | renew (given : Handover) (fresh : Loan)
  | write (place : Address) (index : Nat) (w : Word)
  /-- A buffer is given up unused. -/
  | release (given : Handover)
deriving DecidableEq

namespace Dealing

/-- The buffers that were lent. -/
def obtained (ds : List Dealing) : List Loan :=
  ds.filterMap fun d => match d with
    | renew _ fresh => some fresh
    | _ => none

/-- The buffers that went back. -/
def returned (ds : List Dealing) : List Handover :=
  ds.filterMap fun d => match d with
    | renew given _ => if given.place = 0 then none else some given
    | _ => none

/-- The buffers that were given up. -/
def released (ds : List Dealing) : List Handover :=
  ds.filterMap fun d => match d with
    | release given => some given
    | _ => none

/-- The words that were written into the buffer at a place. -/
def wordsAt (place : Address) (ds : List Dealing) : List Word :=
  ds.filterMap fun d => match d with
    | write p _ w => if p = place then some w else none
    | _ => none

variable {ds : List Dealing} {live fresh : Loan} {given : Handover} {place : Address} {index : Nat}
  {w : Word}

@[simp] theorem obtained_renew :
    obtained (ds ++ [renew given fresh]) = obtained ds ++ [fresh] := List.filterMap_append

@[simp] theorem obtained_write : obtained (ds ++ [write place index w]) = obtained ds := by
  simp [obtained]

@[simp] theorem obtained_release : obtained (ds ++ [release given]) = obtained ds := by
  simp [obtained]

theorem returned_renew (h : given.place ≠ 0) :
    returned (ds ++ [renew given fresh]) = returned ds ++ [given] := by
  simp [returned, h]

@[simp] theorem returned_write : returned (ds ++ [write place index w]) = returned ds := by
  simp [returned]

@[simp] theorem returned_release : returned (ds ++ [release given]) = returned ds := by
  simp [returned]

@[simp] theorem released_renew : released (ds ++ [renew given fresh]) = released ds := by
  simp [released]

@[simp] theorem released_write : released (ds ++ [write place index w]) = released ds := by
  simp [released]

@[simp] theorem released_release : released (ds ++ [release given]) = released ds ++ [given] :=
  List.filterMap_append

@[simp] theorem wordsAt_renew :
    wordsAt place (ds ++ [renew given fresh]) = wordsAt place ds := by
  simp [wordsAt]

@[simp] theorem wordsAt_write_self :
    wordsAt place (ds ++ [write place index w]) = wordsAt place ds ++ [w] := by
  simp [wordsAt]

theorem wordsAt_write_of_ne {p : Address} (h : place ≠ p) :
    wordsAt p (ds ++ [write place index w]) = wordsAt p ds := by
  simp [wordsAt, h]

@[simp] theorem wordsAt_release :
    wordsAt place (ds ++ [release given]) = wordsAt place ds := by
  simp [wordsAt]

/-! ## Books -/

/-- Dealings after which one buffer is live. Every other one went back once, as it was lent, with
the number of words that were written into it, and nothing was written anywhere else. -/
structure Balanced (ds : List Dealing) (live : Loan) : Prop where
  obtained_eq : obtained ds = (returned ds).map Handover.loan ++ [live]
  distinct : ((obtained ds).map Loan.place).Nodup
  length_eq : ∀ g ∈ returned ds, g.length = (wordsAt g.place ds).length
  bounds : ∀ g ∈ returned ds, 1 ≤ g.length ∧ g.length ≤ g.capacity
  elsewhere : ∀ place, (∀ l ∈ obtained ds, l.place ≠ place) → wordsAt place ds = []
  released_eq : released ds = []

/-- Dealings that are balanced at every moment, in which every word goes into the live buffer,
behind the words that are there and within its capacity. -/
structure Orderly (ds : List Dealing) : Prop where
  balanced : ∀ past, past ≠ [] → past <+: ds → ∃! live, Balanced past live
  write_live : ∀ past place index w, past ++ [write place index w] <+: ds →
    ∃ capacity, Balanced past ⟨place, capacity⟩ ∧ index = (wordsAt place past).length ∧
      index < capacity

namespace Balanced

theorem unique {live' : Loan} (h : Balanced ds live) (h' : Balanced ds live') : live = live' := by
  have hsame := h.obtained_eq.symm.trans h'.obtained_eq
  exact List.singleton_inj.mp (List.append_cancel_left hsame)

theorem live_mem (h : Balanced ds live) : live ∈ obtained ds := by
  rw [h.obtained_eq]
  exact List.mem_append_right _ List.mem_cons_self

/-- What went back is elsewhere. -/
theorem place_ne (h : Balanced ds live) {g : Handover} (hg : g ∈ returned ds) :
    live.place ≠ g.place := by
  have hnodup := h.distinct
  rw [h.obtained_eq, List.map_append, List.map_map] at hnodup
  have hmem : g.place ∈ (returned ds).map (Loan.place ∘ Handover.loan) :=
    List.mem_map.mpr ⟨g, hg, rfl⟩
  exact ((List.nodup_append.mp hnodup).2.2 _ hmem _ List.mem_cons_self).symm

/-- Into the live buffer may be written. -/
theorem write (h : Balanced ds live) (index : Nat) (w : Word) :
    Balanced (ds ++ [.write live.place index w]) live where
  obtained_eq := by simpa using h.obtained_eq
  distinct := by simpa using h.distinct
  length_eq := by
    rw [returned_write]
    intro g hg
    rw [wordsAt_write_of_ne (h.place_ne hg)]
    exact h.length_eq g hg
  bounds := by simpa using h.bounds
  elsewhere := by
    rw [obtained_write]
    intro place hplace
    rw [wordsAt_write_of_ne (hplace live h.live_mem)]
    exact h.elsewhere place hplace
  released_eq := by simpa using h.released_eq

/-- The live buffer may go back with its words for one from elsewhere. -/
theorem renew (h : Balanced ds live) (hplace : live.place ≠ 0)
    (hfresh : ∀ l ∈ obtained ds, l.place ≠ fresh.place) {length : Nat}
    (hlength : length = (wordsAt live.place ds).length) (hpos : 1 ≤ length)
    (hle : length ≤ live.capacity) :
    Balanced (ds ++ [.renew ⟨live.place, length, live.capacity⟩ fresh]) fresh := by
  have hreturned : returned (ds ++ [.renew ⟨live.place, length, live.capacity⟩ fresh]) =
      returned ds ++ [⟨live.place, length, live.capacity⟩] := returned_renew hplace
  constructor
  · rw [obtained_renew, hreturned, h.obtained_eq, List.map_append]
    rfl
  · rw [obtained_renew, List.map_append, List.nodup_append]
    refine ⟨h.distinct, List.pairwise_singleton _ _, ?_⟩
    intro p hp q hq
    obtain ⟨l, hl, rfl⟩ := List.mem_map.mp hp
    rw [List.map_singleton, List.mem_singleton] at hq
    exact hq ▸ hfresh l hl
  · simp only [hreturned, wordsAt_renew, List.forall_mem_append, List.forall_mem_singleton]
    exact ⟨h.length_eq, hlength⟩
  · rw [hreturned, List.forall_mem_append, List.forall_mem_singleton]
    exact ⟨h.bounds, hpos, hle⟩
  · intro place hnone
    rw [obtained_renew, List.forall_mem_append] at hnone
    rw [wordsAt_renew]
    exact h.elsewhere place hnone.1
  · simpa using h.released_eq

end Balanced

/-- Dealings stay orderly if they balance after one more, and that is no word out of place. -/
theorem Orderly.concat {d : Dealing} (h : Orderly ds) (hbalanced : Balanced (ds ++ [d]) live)
    (hwrite : ∀ place index w, d = .write place index w →
      ∃ capacity, Balanced ds ⟨place, capacity⟩ ∧ index = (wordsAt place ds).length ∧
        index < capacity) : Orderly (ds ++ [d]) where
  balanced past hne hpast := by
    rcases List.prefix_concat_iff.mp hpast with rfl | hpast
    · exact ⟨live, hbalanced, fun _ h' => h'.unique hbalanced⟩
    · exact h.balanced past hne hpast
  write_live past place index w hpast := by
    rcases List.prefix_concat_iff.mp hpast with heq | hpast
    · obtain ⟨rfl, hd⟩ := List.append_inj' heq rfl
      exact hwrite place index w (List.singleton_inj.mp hd).symm
    · exact h.write_live past place index w hpast

end Dealing

open Dealing

/-! ## The closure's side -/

/-- The buffer that a closure is at, by its numbers. -/
structure EdgeBuffer where
  place : Address
  capacity : Nat
  /-- The number of words written so far. -/
  cursor : Nat
  /-- The number of calls made so far. -/
  calls : Nat
  dealings : List Dealing

namespace EdgeBuffer

def loan (b : EdgeBuffer) : Loan := ⟨b.place, b.capacity⟩

/-- Gives a buffer back and takes up what is lent. -/
def renew (lender : Lender) (given : Handover) (b : EdgeBuffer) : EdgeBuffer :=
  ⟨(lender b.calls).place, (lender b.calls).capacity, 0, b.calls + 1,
    b.dealings ++ [.renew given (lender b.calls)]⟩

/-- The first call gives nothing back. -/
def start (lender : Lender) : EdgeBuffer := renew lender ⟨0, 0, 0⟩ ⟨0, 0, 0, 0, []⟩

/-- Gives the buffer back if something was written into it. -/
def flush (lender : Lender) (b : EdgeBuffer) : EdgeBuffer :=
  if 0 < b.cursor then b.renew lender ⟨b.place, b.cursor, b.capacity⟩ else b

/-- Writes a word at the cursor. -/
def write (w : Word) (b : EdgeBuffer) : EdgeBuffer :=
  { b with cursor := b.cursor + 1, dealings := b.dealings ++ [.write b.place b.cursor w] }

/-- Writes a word, and gives the buffer back as soon as it is full. -/
def push (lender : Lender) (w : Word) (b : EdgeBuffer) : Except Fault EdgeBuffer :=
  if b.capacity ≤ b.cursor then .error .bufferFull
  else .ok (if (b.write w).capacity ≤ (b.write w).cursor then (b.write w).flush lender
    else b.write w)

/-- Gives the remainder back and releases the buffer that comes in answer. -/
def drop (lender : Lender) (b : EdgeBuffer) : EdgeBuffer :=
  let last := b.flush lender
  if last.place = 0 then last
  else { last with
    dealings := last.dealings ++ [.release ⟨last.place, last.cursor, last.capacity⟩] }

/-- Visits one slot. -/
def visit (c : Closure) (e : Option Encoding) (m : Memory) (lender : Lender) (v : Visit)
    (b : EdgeBuffer) : Except Fault EdgeBuffer := do
  match ← c.word? e m v with
  | none => return b
  | some w => b.push lender w

/-- Visits slots in order, past those that fail. -/
def visitAll (c : Closure) (e : Option Encoding) (m : Memory) (lender : Lender) :
    Nat → List Visit → EdgeBuffer → EdgeBuffer × List (Nat × Fault)
  | _, [], b => (b, [])
  | i, v :: vs, b =>
    match b.visit c e m lender v with
    | .ok b => visitAll c e m lender (i + 1) vs b
    | .error fault =>
      let (b, faults) := visitAll c e m lender (i + 1) vs b
      (b, (i, fault) :: faults)

/-- Visits slots over fresh buffers up to the release of the last. -/
def run (c : Closure) (e : Option Encoding) (m : Memory) (lender : Lender) (vs : List Visit) :
    EdgeBuffer × List (Nat × Fault) :=
  let (b, faults) := visitAll c e m lender 0 vs (start lender)
  (b.drop lender, faults)

/-- The numbers and the dealings of a closure under way, and the scan that they are. -/
structure Keeps (lender : Lender) (f : Filling) (b : EdgeBuffer) : Prop where
  calls_eq : b.calls = f.borrowed
  cursor_eq : b.cursor = f.live.words.length
  capacity_eq : b.capacity = f.live.capacity
  live_eq : lender f.live.turn = b.loan
  words_eq : wordsAt b.place b.dealings = f.live.words
  reported_eq : f.reported.map (fun p => (lender p.turn, p.capacity, p.words)) =
    (returned b.dealings).map fun g => (g.loan, g.capacity, wordsAt g.place b.dealings)
  obtained_eq : obtained b.dealings = (List.range b.calls).map lender
  balanced : Balanced b.dealings b.loan
  orderly : Orderly b.dealings

variable {lender : Lender} {n : Nat} {f : Filling} {b : EdgeBuffer}

/-- The first call lends the first buffer. -/
theorem balanced_start (lender : Lender) : Balanced (start lender).dealings (lender 0) where
  obtained_eq := rfl
  distinct := List.pairwise_singleton _ _
  length_eq := nofun
  bounds := nofun
  elsewhere _ _ := rfl
  released_eq := rfl

theorem keeps_start (lender : Lender) : (start lender).Keeps lender (.start lender.supply) where
  calls_eq := rfl
  cursor_eq := rfl
  capacity_eq := rfl
  live_eq := rfl
  words_eq := rfl
  reported_eq := rfl
  obtained_eq := rfl
  balanced := balanced_start lender
  orderly := by
    have hnone : Orderly [] := by
      constructor
      · exact fun past hne hpast => absurd (List.prefix_nil.mp hpast) hne
      · exact fun past place index w hpast => absurd (List.prefix_nil.mp hpast) (by simp)
    exact hnone.concat (balanced_start lender) nofun

/-- A word goes into the live buffer, which must have room. -/
theorem Keeps.write (h : b.Keeps lender f) (hroom : b.cursor < b.capacity) (w : Word) :
    (b.write w).Keeps lender (f.write w) := by
  have hbalanced : Balanced (b.write w).dealings b.loan := h.balanced.write b.cursor w
  have hkept : ∀ g ∈ returned b.dealings,
      wordsAt g.place (b.write w).dealings = wordsAt g.place b.dealings :=
    fun g hg => wordsAt_write_of_ne (h.balanced.place_ne hg)
  have hreturned : returned (b.write w).dealings = returned b.dealings := returned_write
  constructor
  · exact h.calls_eq
  · simp [EdgeBuffer.write, h.cursor_eq]
  · exact h.capacity_eq
  · exact h.live_eq
  · simp [EdgeBuffer.write, h.words_eq]
  · rw [hreturned]
    exact h.reported_eq.trans (List.map_congr_left fun g hg => by rw [hkept g hg])
  · simpa [EdgeBuffer.write] using h.obtained_eq
  · exact hbalanced
  · refine h.orderly.concat hbalanced ?_
    rintro _ _ _ ⟨⟩
    exact ⟨b.capacity, h.balanced, by rw [h.words_eq, h.cursor_eq], hroom⟩

theorem Keeps.exists_lent (h : b.Keeps lender f) {l : Loan} (hl : l ∈ obtained b.dealings) :
    ∃ i < b.calls, lender i = l := by
  rw [h.obtained_eq] at hl
  obtain ⟨i, hi, heq⟩ := List.mem_map.mp hl
  exact ⟨i, List.mem_range.mp hi, heq⟩

theorem Keeps.place_ne (hlender : lender.Proper n) (h : b.Keeps lender f) (hn : b.calls ≤ n) :
    b.place ≠ 0 := by
  obtain ⟨i, hi, hlive⟩ := h.exists_lent h.balanced.live_mem
  have hne := hlender.place_ne i (hi.trans_le hn)
  rwa [hlive] at hne

theorem Keeps.capacity_pos (hlender : lender.Proper n) (h : b.Keeps lender f) (hn : b.calls ≤ n) :
    0 < b.capacity := by
  obtain ⟨i, hi, hlive⟩ := h.exists_lent h.balanced.live_mem
  have hpos := hlender.capacity_pos i (hi.trans_le hn)
  rwa [hlive] at hpos

/-- The live buffer goes back, if it holds something and no more than it can. -/
theorem Keeps.renew (hlender : lender.Proper n) (h : b.Keeps lender f) (hn : b.calls < n)
    (hpos : 0 < b.cursor) (hle : b.cursor ≤ b.capacity) :
    (b.renew lender ⟨b.place, b.cursor, b.capacity⟩).Keeps lender (f.renew lender.supply) := by
  have hplace : b.place ≠ 0 := h.place_ne hlender hn.le
  have hfresh : ∀ l ∈ obtained b.dealings, l.place ≠ (lender b.calls).place := by
    intro l hl hsame
    obtain ⟨i, hi, rfl⟩ := h.exists_lent hl
    exact hi.ne (hlender.distinct i (hi.trans hn) b.calls hn hsame)
  have hlength : b.cursor = (wordsAt b.place b.dealings).length := by rw [h.words_eq, h.cursor_eq]
  have hbalanced := h.balanced.renew hplace hfresh hlength hpos hle
  have hreturned : returned (b.renew lender ⟨b.place, b.cursor, b.capacity⟩).dealings =
      returned b.dealings ++ [⟨b.place, b.cursor, b.capacity⟩] := returned_renew hplace
  constructor
  · simp [EdgeBuffer.renew, Filling.renew, h.calls_eq]
  · rfl
  · simp [EdgeBuffer.renew, Filling.renew, Lender.supply, h.calls_eq]
  · simp [EdgeBuffer.renew, Filling.renew, loan, h.calls_eq]
  · simpa [EdgeBuffer.renew] using h.balanced.elsewhere _ hfresh
  · rw [hreturned]
    simpa [EdgeBuffer.renew, Filling.renew, Handover.loan, h.live_eq, loan, h.words_eq,
      h.capacity_eq] using h.reported_eq
  · simp [EdgeBuffer.renew, h.obtained_eq, List.range_succ]
  · exact hbalanced
  · exact h.orderly.concat hbalanced fun _ _ _ h => Dealing.noConfusion h

/-- The number of calls after a flush. -/
def due (b : EdgeBuffer) : Nat := b.calls + min 1 b.cursor

theorem cursor_flush (lender : Lender) (b : EdgeBuffer) : (b.flush lender).cursor = 0 := by
  unfold flush
  split
  · rfl
  · omega

theorem calls_flush (lender : Lender) (b : EdgeBuffer) : (b.flush lender).calls = b.due := by
  unfold flush due
  split
  · rw [Nat.min_eq_left (by assumption)]
    rfl
  · omega

theorem Keeps.flush (hlender : lender.Proper n) (h : b.Keeps lender f) (hdue : b.due ≤ n)
    (hle : b.cursor ≤ b.capacity) : (b.flush lender).Keeps lender (f.flush lender.supply) := by
  have hempty : f.live.words.isEmpty = true ↔ ¬ 0 < b.cursor := by
    rw [List.isEmpty_iff, ← List.length_eq_zero_iff, ← h.cursor_eq, Nat.not_lt, Nat.le_zero]
  by_cases hpos : 0 < b.cursor
  · have hcalls : b.calls < n := by
      rw [due, Nat.min_eq_left hpos] at hdue
      exact hdue
    rw [EdgeBuffer.flush, if_pos hpos, Filling.flush, if_neg (mt hempty.mp (not_not.mpr hpos))]
    exact h.renew hlender hcalls hpos hle
  · rwa [EdgeBuffer.flush, if_neg hpos, Filling.flush, if_pos (hempty.mpr hpos)]

/-- A closure with room has room after another word, which costs one more call at most. -/
theorem Keeps.push (hlender : lender.Proper n) (h : b.Keeps lender f)
    (hroom : b.cursor < b.capacity) (hdue : b.due < n) (w : Word) :
    ∃ b' f', b.push lender w = .ok b' ∧ f.push lender.supply w = .ok f' ∧ b'.Keeps lender f' ∧
      b'.cursor < b'.capacity ∧ b'.due ≤ b.due + 1 := by
  have hwritten := h.write hroom w
  have hwrittenDue : (b.write w).due ≤ b.due + 1 := by
    simp only [due, EdgeBuffer.write]
    omega
  have hpush : b.push lender w = .ok (if (b.write w).capacity ≤ (b.write w).cursor then
      (b.write w).flush lender else b.write w) := if_neg (Nat.not_le.mpr hroom)
  have hpush' : f.push lender.supply w = .ok (if (b.write w).capacity ≤ (b.write w).cursor then
      (f.write w).flush lender.supply else f.write w) := by
    have hnotFull : ¬ f.live.capacity ≤ f.live.words.length := by
      rw [← h.capacity_eq, ← h.cursor_eq]
      exact Nat.not_le.mpr hroom
    have hflush : (f.write w).flush lender.supply = (f.write w).renew lender.supply := by
      simp [Filling.flush]
    rw [hflush, hwritten.capacity_eq, hwritten.cursor_eq]
    simp [Filling.push, Filling.isFull, hnotFull]
  refine ⟨_, _, hpush, hpush', ?_⟩
  split
  · have hflushed := hwritten.flush hlender (hwrittenDue.trans hdue) hroom
    have hcalls : ((b.write w).flush lender).calls ≤ n := by
      rw [calls_flush]
      exact hwrittenDue.trans hdue
    refine ⟨hflushed, ?_, ?_⟩
    · rw [cursor_flush]
      exact hflushed.capacity_pos hlender hcalls
    · rw [due, cursor_flush, calls_flush]
      exact hwrittenDue
  · exact ⟨hwritten, Nat.not_le.mp (by assumption), hwrittenDue⟩

/-- A visit is refused, here and in the scan, or it writes one word at most. -/
theorem Keeps.visit (hlender : lender.Proper n) (h : b.Keeps lender f)
    (hroom : b.cursor < b.capacity) (hdue : b.due < n) (c : Closure) (e : Option Encoding)
    (m : Memory) (v : Visit) :
    (∃ fault, b.visit c e m lender v = .error fault ∧
      c.visit e m lender.supply v f = .error fault) ∨
      ∃ b' f', b.visit c e m lender v = .ok b' ∧ c.visit e m lender.supply v f = .ok f' ∧
        b'.Keeps lender f' ∧ b'.cursor < b'.capacity ∧ b'.due ≤ b.due + 1 := by
  rw [EdgeBuffer.visit, Closure.visit]
  cases c.word? e m v with
  | error fault => exact .inl ⟨fault, rfl, rfl⟩
  | ok reported =>
    cases reported with
    | none => exact .inr ⟨b, f, rfl, rfl, h, hroom, Nat.le_succ _⟩
    | some w => exact .inr (h.push hlender hroom hdue w)

theorem Keeps.visitAll (hlender : lender.Proper n) (h : b.Keeps lender f)
    (hroom : b.cursor < b.capacity) (c : Closure) (e : Option Encoding) (m : Memory)
    (vs : List Visit) (hdue : b.due + vs.length ≤ n) (i : Nat) :
    ∃ b' f' faults, visitAll c e m lender i vs b = (b', faults) ∧
      c.visitAll e m lender.supply i vs f = (f', faults) ∧ b'.Keeps lender f' ∧
      b'.cursor < b'.capacity ∧ b'.due ≤ n := by
  induction vs generalizing b f i with
  | nil => exact ⟨b, f, [], rfl, rfl, h, hroom, hdue⟩
  | cons v vs ih =>
    rw [List.length_cons] at hdue
    rw [EdgeBuffer.visitAll, Closure.visitAll]
    obtain ⟨fault, hvisit, hvisit'⟩ | ⟨b₁, f₁, hvisit, hvisit', h₁, hroom₁, hdue₁⟩ :=
      h.visit hlender hroom (by omega) c e m v
    · obtain ⟨b', f', faults, hrest, hrest', hkept⟩ := ih h hroom (by omega) (i + 1)
      rw [hvisit, hvisit', hrest, hrest']
      exact ⟨b', f', _, rfl, rfl, hkept⟩
    · rw [hvisit, hvisit']
      exact ih h₁ hroom₁ (by omega) (i + 1)

end EdgeBuffer

/-! ## Whole runs -/

/-- The buffers at the end of a run of visits. -/
def filled (c : Closure) (e : Option Encoding) (m : Memory) (supply : Supply) (vs : List Visit) :
    Filled := (c.visitAll e m supply 0 vs (.start supply)).1.finish supply

theorem packets_fst (c : Closure) (e : Option Encoding) (m : Memory) (supply : Supply)
    (vs : List Visit) : (packets c e m supply vs).1 = (filled c e m supply vs).packets := rfl

/-- A run ends with the release of a buffer that holds nothing, as the scan does that it is. -/
theorem EdgeBuffer.exists_run (c : Closure) (e : Option Encoding) (m : Memory) (vs : List Visit)
    {lender : Lender} (hlender : lender.Proper (vs.length + 1)) :
    ∃ last f, Keeps lender f last ∧ f.live.words = [] ∧
      (run c e m lender vs).1.dealings =
        last.dealings ++ [.release ⟨last.place, 0, last.capacity⟩] ∧
      filled c e m lender.supply vs = ⟨f.borrowed, f.reported, some f.live⟩ ∧
      (run c e m lender vs).2 = (packets c e m lender.supply vs).2 := by
  have hfirst : 0 < (lender 0).capacity := hlender.capacity_pos 0 (Nat.succ_pos _)
  have hdue : (start lender).due + vs.length ≤ vs.length + 1 := (Nat.add_comm ..).le
  obtain ⟨b, f, faults, hrun, hscan, h, hroom, hdue⟩ :=
    (keeps_start lender).visitAll hlender hfirst c e m vs hdue 0
  have hlast := h.flush hlender hdue hroom.le
  have hcalls : (b.flush lender).calls ≤ vs.length + 1 := (calls_flush lender b).trans_le hdue
  refine ⟨_, _, hlast, ?_, ?_, ?_, ?_⟩
  · exact List.eq_nil_of_length_eq_zero (hlast.cursor_eq.symm.trans (cursor_flush lender b))
  · rw [run, hrun]
    dsimp only
    rw [drop, if_neg (hlast.place_ne hlender hcalls), cursor_flush]
  · have hcapacity : (f.flush lender.supply).live.capacity ≠ 0 :=
      hlast.capacity_eq ▸ (hlast.capacity_pos hlender hcalls).ne'
    rw [filled, hscan, Filling.finish, if_neg hcapacity]
  · rw [run, hrun, packets, hscan]

/-- What a run of visits deals with a collector is the scan of these visits over the buffers that
the collector lends, and no buffer is lost in it. -/
structure Conserved (c : Closure) (e : Option Encoding) (m : Memory) (lender : Lender)
    (vs : List Visit) (dealings : List Dealing) : Prop where
  /-- The dealings are orderly up to the release of the buffer that is live then, which is empty. -/
  ends : ∃ past live, dealings = past ++ [.release ⟨live.place, 0, live.capacity⟩] ∧
    released dealings = [⟨live.place, 0, live.capacity⟩] ∧
    Orderly past ∧ Balanced past live ∧ wordsAt live.place past = [] ∧
    ∃ turn, lender turn = live ∧
      (filled c e m lender.supply vs).released = some ⟨turn, live.capacity, []⟩
  /-- What went back is what the scan reported, in the buffers that were lent in these turns. -/
  reported_eq : (filled c e m lender.supply vs).reported.map
      (fun p => (lender p.turn, p.capacity, p.words)) =
    (returned dealings).map fun g => (g.loan, g.capacity, wordsAt g.place dealings)
  packets_eq : (packets c e m lender.supply vs).1 =
    (returned dealings).map fun g => wordsAt g.place dealings
  obtained_length : (obtained dealings).length = (packets c e m lender.supply vs).1.length + 1

/-- No buffer is lost, used after it went back, or given back twice, whatever is visited and
whatever buffers of its own a collector lends. -/
theorem edge_buffers_conserved (c : Closure) (e : Option Encoding) (m : Memory) (vs : List Visit)
    {lender : Lender} (hlender : lender.Proper (vs.length + 1)) :
    Conserved c e m lender vs (EdgeBuffer.run c e m lender vs).1.dealings ∧
      (EdgeBuffer.run c e m lender vs).2 = (packets c e m lender.supply vs).2 := by
  obtain ⟨last, f, h, hempty, hdealings, hfilled, hfaults⟩ :=
    EdgeBuffer.exists_run c e m vs hlender
  have hpackets : (packets c e m lender.supply vs).1 =
      (returned last.dealings).map fun g => wordsAt g.place last.dealings := by
    have hmapped := congrArg (List.map fun p => p.2.2) h.reported_eq
    rw [List.map_map, List.map_map] at hmapped
    rwa [packets_fst, hfilled]
  refine ⟨?_, hfaults⟩
  rw [hdealings]
  constructor
  · have hlive : f.live = ⟨f.live.turn, last.capacity, []⟩ := by rw [h.capacity_eq, ← hempty]
    refine ⟨last.dealings, last.loan, rfl, ?_, h.orderly, h.balanced, h.words_eq.trans hempty,
      f.live.turn, h.live_eq, ?_⟩
    · rw [released_release, h.balanced.released_eq]
      rfl
    · rw [hfilled]
      exact congrArg some hlive
  · simp only [hfilled, returned_release, wordsAt_release]
    exact h.reported_eq
  · simp only [returned_release, wordsAt_release]
    exact hpackets
  · rw [hpackets, obtained_release, h.balanced.obtained_eq]
    simp

/-- Buffers of one and of two words in turn. One slot among five is empty, one is out of memory. -/
theorem edge_buffers_conserved_uneven :
    let lender : Lender := fun i => ⟨0x5000 + 16 * UInt64.ofNat i, i % 2 + 1⟩
    let e : Option Encoding := some ⟨0x800000000, 3⟩
    let m := ((Memory.zeroed 0x1000 0x40).setByte 0x1008 0x50).setByte 0x1010 0x60
    let vs : List Visit :=
      [.wide 0x1008, .narrow 0x1010, .wide 0x1020, .narrow 0x2000, .wide 0x1010]
    lender.Proper 6 ∧
      Conserved .roots e m lender vs (EdgeBuffer.run .roots e m lender vs).1.dealings ∧
      Conserved .objects e m lender vs (EdgeBuffer.run .objects e m lender vs).1.dealings := by
  intro lender e m vs
  have hlender : lender.Proper (vs.length + 1) := ⟨by decide, by decide, by decide⟩
  exact ⟨hlender, (edge_buffers_conserved .roots e m vs hlender).1,
    (edge_buffers_conserved .objects e m vs hlender).1⟩

example :
    (EdgeBuffer.run .objects none ((Memory.zeroed 0x1000 0x20).setByte 0x1008 0x50)
      (fun i => ⟨0x5000 + 16 * UInt64.ofNat i, 1⟩) [.wide 0x1008, .wide 0x1000]).1.dealings =
    [.renew ⟨0, 0, 0⟩ ⟨0x5000, 1⟩, .write 0x5000 0 0x50, .renew ⟨0x5000, 1, 1⟩ ⟨0x5010, 1⟩,
      .release ⟨0x5010, 0, 1⟩] := by decide

end HeapBridge.Scan
