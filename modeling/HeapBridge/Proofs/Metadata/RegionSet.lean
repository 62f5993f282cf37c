import HeapBridge.Metadata.Table
import HeapBridge.Proofs.Metadata.Region
import Mathlib.Data.Nat.Bitwise

/-!
# Tables as sets of regions

A table holds one bit for each region, so seen from outside it is the set of the regions that are
unlogged. `represents_run` says that one operation answers like the set and does to it what the name
of the operation says; what a sequence of operations answers follows by induction. Eight regions
share a byte, and the base is biased below zero, yet no region is ever taken for another, and the
byte of a slot in range is always there.
-/
namespace HeapBridge

/-! ## Single bytes -/

namespace Memory
variable {m : Memory} {a : Address}

@[simp] theorem read_one : m.read a 1 = (m.byte a).toUInt64 := by simp [read]

@[simp] theorem write_one (v : Word) : m.write a v 1 = m.setByte a v.toUInt8 := rfl

theorem load_byte (h : m.admits a .byte = true) : m.load a .byte = .ok (m.byte a).toUInt64 := by
  rw [load, if_pos h, Width.bytes, read_one]

theorem store_byte (h : m.admits a .byte = true) (v : UInt8) :
    m.store a .byte v.toUInt64 = .ok (m.setByte a v) := by
  rw [store, if_pos h, Width.bytes, write_one, UInt8.toUInt8_toUInt64]

theorem admits_byte_iff : m.admits a .byte = true ↔
    m.start.toNat ≤ a.toNat ∧ a.toNat < m.start.toNat + m.size.toNat := by
  have hadmits : m.admits a .byte = (decide (m.start ≤ a) &&
      decide ((a - m.start).toNat + 1 ≤ m.size.toNat) && a.toNat % 1 == 0) := rfl
  simp only [hadmits, Nat.mod_one, beq_self_eq_true, Bool.and_true, Bool.and_eq_true,
    decide_eq_true_iff, UInt64.le_iff_toNat_le]
  constructor
  · rintro ⟨hle, hlt⟩
    rw [UInt64.toNat_sub_of_le _ _ (UInt64.le_iff_toNat_le.mpr hle)] at hlt
    omega
  · rintro ⟨hle, hlt⟩
    rw [UInt64.toNat_sub_of_le _ _ (UInt64.le_iff_toNat_le.mpr hle)]
    omega

end Memory

namespace Metadata
open UnlogBits

namespace UnlogBits
variable {u : UnlogBits} {m : Memory} {slot : Address}

theorem isUnlogged_eq (h : u.logRegion ≤ 60)
    (hin : m.admits (u.home (u.region slot)) .byte = true) :
    u.isUnlogged m slot =
      .ok (testBit (m.byte (u.home (u.region slot))) (place (u.region slot))) := by
  rw [isUnlogged, loadByte, byteAddress_eq_home h]
  change (m.load (u.home (u.region slot)) .byte >>= fun w => .ok w.toUInt8) >>= _ = _
  rw [Memory.load_byte hin]
  change u.isUnloggedIn (m.byte (u.home (u.region slot))).toUInt64.toUInt8 slot = _
  rw [isUnloggedIn_eq_testBit h, UInt8.toUInt8_toUInt64]

theorem unlog_eq (h : u.logRegion ≤ 60)
    (hin : m.admits (u.home (u.region slot)) .byte = true) :
    u.unlog m slot = .ok (m.setByte (u.home (u.region slot))
      (withBit (m.byte (u.home (u.region slot))) (place (u.region slot)))) := by
  rw [unlog, byteAddress_eq_home h, bitIndex_eq_place h]
  change m.load (u.home (u.region slot)) .byte >>= _ = _
  rw [Memory.load_byte hin]
  exact (Memory.store_byte hin _).trans (by rw [UInt8.toUInt8_toUInt64])

theorem log_eq (h : u.logRegion ≤ 60)
    (hin : m.admits (u.home (u.region slot)) .byte = true) :
    u.log m slot = .ok (testBit (m.byte (u.home (u.region slot))) (place (u.region slot)),
      m.setByte (u.home (u.region slot))
        (withoutBit (m.byte (u.home (u.region slot))) (place (u.region slot)))) := by
  rw [log, byteAddress_eq_home h, bitIndex_eq_place h]
  change m.load (u.home (u.region slot)) .byte >>= _ = _
  rw [Memory.load_byte hin]
  change m.store (u.home (u.region slot)) .byte _ >>= _ = _
  rw [Memory.store_byte hin, UInt8.toUInt8_toUInt64]
  rfl

/-- The byte with the bit of a region, by number from the lowest. -/
theorem toNat_region_div (h : u.logRegion ≤ 60) (slot : Address) :
    (u.region slot >>> 3).toNat = slot.toNat / 2 ^ (u.logRegion.toNat + 3) := by
  have hn : u.logRegion.toNat ≤ 60 := UInt8.le_iff_toNat_le.mp h
  rw [region, UInt64.toNat_shiftRight, UInt64.toNat_shiftRight, UInt8.toNat_toUInt64,
    Nat.mod_eq_of_lt (show u.logRegion.toNat < 64 by omega), ← Nat.shiftRight_add,
    Nat.shiftRight_eq_div_pow]
  rfl

end UnlogBits

/-! ## Sets of regions -/

/-- A set of regions, by membership. -/
abbrev Regions := Word → Bool

namespace Regions

def empty : Regions := fun _ => false

def insert (region : Word) (s : Regions) : Regions := fun r => decide (region = r) || s r

def erase (region : Word) (s : Regions) : Regions := fun r => s r && decide (region ≠ r)

end Regions

namespace Table

/-- What can be done to a table. -/
inductive Op
  | unlog (slot : Address)
  | log (slot : Address)
  | ask (slot : Address)
  | fill (value : UInt8)
deriving DecidableEq, Inhabited

namespace Op

/-- What an operation comes to. Some answer yes or no. -/
def run (t : Table) : Op → Except Fault (Option Bool × Table)
  | unlog slot => do return (none, ← t.unlog slot)
  | log slot => do
    let (was, t) ← t.log slot
    return (some was, t)
  | ask slot => do return (some (← t.isUnlogged slot), t)
  | fill value => return (none, t.fill value)

/-- Whether an operation is about regions of a table. -/
def isWithin (u : UnlogBits) (all : Regions) : Op → Bool
  | unlog slot | log slot | ask slot => all (u.region slot)
  | fill _ => true

/-- What an operation answers when some regions are unlogged. -/
def answer (u : UnlogBits) (s : Regions) : Op → Option Bool
  | log slot | ask slot => some (s (u.region slot))
  | unlog _ | fill _ => none

/-- What an operation makes of the unlogged regions. -/
def effect (u : UnlogBits) (all s : Regions) : Op → Regions
  | unlog slot => s.insert (u.region slot)
  | log slot => s.erase (u.region slot)
  | ask _ => s
  | fill value => if value = Units.unlogged then all else .empty

/-- Whether an operation unlogs a region, by itself or with all others. -/
def unlogs (u : UnlogBits) (region : Word) : Op → Bool
  | unlog slot => u.region slot == region
  | fill value => value == Units.unlogged
  | log _ | ask _ => false

/-- Whether an operation that was answered found a region unlogged and marked it as logged. -/
def logged (u : UnlogBits) (region : Word) : Op × Option Bool → Bool
  | (log slot, answer) => u.region slot == region && answer == some true
  | _ => false

end Op

/-- What operations come to, one after the other. -/
def runAll : List Op → Table → Except Fault (List (Option Bool) × Table)
  | [], t => .ok ([], t)
  | op :: ops, t => do
    let (answer, t) ← op.run t
    let (answers, t) ← runAll ops t
    return (answer :: answers, t)

/-- What operations answer over a set of unlogged regions. -/
def answers (u : UnlogBits) (all : Regions) : List Op → Regions → List (Option Bool)
  | [], _ => []
  | op :: ops, s => op.answer u s :: answers u all ops (op.effect u all s)

/-- The unlogged regions after operations. -/
def unloggedAfter (u : UnlogBits) (all : Regions) (ops : List Op) (s : Regions) : Regions :=
  ops.foldl (fun s op => op.effect u all s) s

/-! ## What a table holds -/

/-- The regions with their bits in a table. -/
def regions (t : Table) : Regions := fun region => t.memory.admits (t.bits.home region) .byte

/-- Whether the bit of a region is set. -/
def isMarked (t : Table) (region : Word) : Bool :=
  testBit (t.memory.byte (t.bits.home region)) (place region)

/-- The table with the bit of a region set. -/
def withMark (t : Table) (region : Word) : Table :=
  let home := t.bits.home region
  { t with memory := t.memory.setByte home (withBit (t.memory.byte home) (place region)) }

/-- The table with the bit of a region cleared. -/
def withoutMark (t : Table) (region : Word) : Table :=
  let home := t.bits.home region
  { t with memory := t.memory.setByte home (withoutBit (t.memory.byte home) (place region)) }

variable {u : UnlogBits} {all s : Regions} {t : Table} {slot : Address}

@[simp] theorem isMarked_withMark (t : Table) (r region : Word) :
    (t.withMark r).isMarked region = (decide (r = region) || t.isMarked region) :=
  testBit_home_of_withBit t.memory.byte r region

@[simp] theorem isMarked_withoutMark (t : Table) (r region : Word) :
    (t.withoutMark r).isMarked region = (t.isMarked region && decide (r ≠ region)) :=
  testBit_home_of_withoutBit t.memory.byte r region

theorem isMarked_fill (value : UInt8) (region : Word) :
    (t.fill value).isMarked region = decide (value = Units.unlogged) := by
  have hplace := toNat_place_lt region
  by_cases hvalue : value = Units.unlogged
  · have hbyte : (t.fill value).isMarked region = testBit 0xff (place region) := by
      simp [isMarked, fill, hvalue]
    rw [hbyte, testBit_eq hplace, decide_eq_true hvalue,
      show (0xff : UInt8).toNat = 2 ^ 8 - 1 from rfl, Nat.testBit_two_pow_sub_one]
    exact decide_eq_true hplace
  · have hbyte : (t.fill value).isMarked region = testBit 0 (place region) := by
      simp [isMarked, fill, hvalue]
    rw [hbyte, testBit_eq hplace, decide_eq_false hvalue, UInt8.toNat_zero, Nat.zero_testBit]

theorem unlog_eq_withMark (h : t.bits.logRegion ≤ 60)
    (hin : t.regions (t.bits.region slot) = true) :
    t.unlog slot = .ok (t.withMark (t.bits.region slot)) := by
  rw [unlog, unlog_eq h hin]
  rfl

theorem log_eq_withoutMark (h : t.bits.logRegion ≤ 60)
    (hin : t.regions (t.bits.region slot) = true) :
    t.log slot =
      .ok (t.isMarked (t.bits.region slot), t.withoutMark (t.bits.region slot)) := by
  rw [log, log_eq h hin]
  rfl

theorem isUnlogged_eq_isMarked (h : t.bits.logRegion ≤ 60)
    (hin : t.regions (t.bits.region slot) = true) :
    t.isUnlogged slot = .ok (t.isMarked (t.bits.region slot)) := isUnlogged_eq h hin

/-! ## Operations -/

/-- A table over some regions, with the bits of a set of them set. -/
structure Represents (u : UnlogBits) (all : Regions) (t : Table) (s : Regions) : Prop where
  bits : t.bits = u
  regions : t.regions = all
  isMarked : ∀ region, all region = true → t.isMarked region = s region

/-- An operation answers like the set that a table represents, and changes it alike. -/
theorem represents_run (hwidth : u.logRegion ≤ 60) (h : Represents u all t s) {op : Op}
    (hin : op.isWithin u all = true) :
    ∃ t', op.run t = .ok (op.answer u s, t') ∧ Represents u all t' (op.effect u all s) := by
  obtain ⟨rfl, rfl, hmarked⟩ := h
  cases op with
  | unlog slot =>
    refine ⟨t.withMark (t.bits.region slot), ?_, rfl, rfl, ?_⟩
    · rw [Op.run, unlog_eq_withMark hwidth hin]
      rfl
    · intro region hregion
      rw [isMarked_withMark, hmarked region hregion]
      rfl
  | log slot =>
    refine ⟨t.withoutMark (t.bits.region slot), ?_, rfl, rfl, ?_⟩
    · rw [Op.run, log_eq_withoutMark hwidth hin, hmarked _ hin]
      rfl
    · intro region hregion
      rw [isMarked_withoutMark, hmarked region hregion]
      rfl
  | ask slot =>
    refine ⟨t, ?_, rfl, rfl, hmarked⟩
    rw [Op.run, isUnlogged_eq_isMarked hwidth hin, hmarked _ hin]
    rfl
  | fill value =>
    refine ⟨t.fill value, rfl, rfl, rfl, ?_⟩
    intro region hregion
    rw [isMarked_fill, Op.effect]
    by_cases hvalue : value = Units.unlogged
    · simp [hvalue, hregion]
    · simp [hvalue, Regions.empty]

/-- Operations answer like the set, one after the other. -/
theorem represents_runAll (hwidth : u.logRegion ≤ 60) (h : Represents u all t s) (ops : List Op)
    (hin : ∀ op ∈ ops, op.isWithin u all = true) :
    ∃ t', runAll ops t = .ok (answers u all ops s, t') ∧
      Represents u all t' (unloggedAfter u all ops s) := by
  induction ops generalizing t s with
  | nil => exact ⟨t, rfl, h⟩
  | cons op ops ih =>
    obtain ⟨t₁, hrun, h₁⟩ := represents_run hwidth h (hin op List.mem_cons_self)
    obtain ⟨t₂, hrest, h₂⟩ := ih h₁ fun op' hop' => hin op' (List.mem_cons_of_mem op hop')
    refine ⟨t₂, ?_, h₂⟩
    rw [runAll, hrun]
    change (runAll ops t₁ >>= _) = _
    rw [hrest]
    rfl

/-- An operation finds a region unlogged only if it is and leaves it logged then, and only those that
unlog it make it unlogged. -/
theorem logged_add_effect_le (u : UnlogBits) (all : Regions) (region : Word) (op : Op)
    (s : Regions) :
    (Op.logged u region (op, op.answer u s)).toNat + (op.effect u all s region).toNat ≤
      (s region).toNat + (op.unlogs u region).toNat := by
  cases op with
  | unlog slot =>
    by_cases hregion : u.region slot = region
    · simp [Op.logged, Op.effect, Op.unlogs, Regions.insert, hregion]
    · simp [Op.logged, Op.effect, Regions.insert, hregion]
  | log slot =>
    by_cases hregion : u.region slot = region
    · subst hregion
      cases hs : s (u.region slot) <;> simp [Op.logged, Op.answer, Op.effect, Regions.erase, hs]
    · simp [Op.logged, Op.effect, Regions.erase, hregion, beq_false_of_ne hregion]
  | ask slot => simp [Op.logged, Op.effect]
  | fill value =>
    by_cases hvalue : value = Units.unlogged
    · have hle := Bool.toNat_le (all region)
      simp [Op.logged, Op.effect, Op.unlogs, hvalue]
      omega
    · simp [Op.logged, Op.effect, Regions.empty, hvalue]

/-- A region is found unlogged and marked as logged no more often than it was unlogged. -/
theorem countP_logged_le (u : UnlogBits) (all : Regions) (region : Word) (ops : List Op)
    (s : Regions) :
    (ops.zip (answers u all ops s)).countP (Op.logged u region) ≤
      ops.countP (Op.unlogs u region) + (s region).toNat := by
  induction ops generalizing s with
  | nil => exact Nat.zero_le _
  | cons op ops ih =>
    have hop := logged_add_effect_le u all region op s
    have hrest := ih (op.effect u all s)
    rw [answers, List.zip_cons_cons, List.countP_cons, List.countP_cons]
    cases hlogged : Op.logged u region (op, op.answer u s)
    all_goals
      cases hunlogs : op.unlogs u region
      all_goals
        rw [hlogged, hunlogs] at hop
        simp at hop ⊢
        omega

/-! ## New tables -/

/-- The memory that a byte of bits stands for. -/
def span (compressed : Bool) : Nat := 2 ^ ((UnlogBits.forSlots 0 compressed).logRegion.toNat + 3)

/-- The number of bytes with bits of the slots from `first` to before `last`. -/
def bytesFor (first last : Address) (compressed : Bool) : Nat :=
  (last.toNat - 1) / span compressed - first.toNat / span compressed + 1

variable {origin first last : Address} {compressed : Bool}

theorem logRegion_forSlots_le (base : Address) (compressed : Bool) :
    (UnlogBits.forSlots base compressed).logRegion ≤ 60 := by
  cases compressed with
  | false => exact (by decide : Units.logWideSlot ≤ 60)
  | true => exact (by decide : Units.logNarrowSlot ≤ 60)

/-- A new table begins with the byte of its first slot and ends with the byte of its last one. -/
theorem exists_new_eq (h : first < last) (origin : Address) (compressed : Bool) :
    ∃ low high : Word, low.toNat = first.toNat / span compressed ∧
      high.toNat = (last.toNat - 1) / span compressed ∧
      Table.new origin first last compressed = .ok
        ⟨first, last, .forSlots (origin - low) compressed, .zeroed origin (high - low + 1)⟩ := by
  have hwidth := logRegion_forSlots_le 0 compressed
  have hpos := UInt64.lt_iff_toNat_lt.mp h
  have hbefore : (last - 1).toNat = last.toNat - 1 :=
    UInt64.toNat_sub_of_le _ _ (UInt64.le_iff_toNat_le.mpr (by simp; omega))
  refine ⟨(forSlots 0 compressed).region first >>> 3,
    (forSlots 0 compressed).region (last - 1) >>> 3, toNat_region_div hwidth first, ?_, ?_⟩
  · rw [toNat_region_div hwidth, hbefore, span]
  · rw [Table.new, if_pos h, logPerByte_of_le hwidth]
    change (Word.shiftRight first ((forSlots 0 compressed).logRegion + 3).toUInt64 >>= _) = _
    rw [shiftRight_logPerByte hwidth]
    change (Word.shiftRight (last - 1) ((forSlots 0 compressed).logRegion + 3).toUInt64 >>= _) = _
    rw [shiftRight_logPerByte hwidth]
    rfl

/-- The sum with the biased base wraps and still leads from the first byte to the last one. -/
theorem regions_of_biased (low : Word) {region : Word} (hbase : t.bits.base = t.memory.start - low)
    (hroom : t.memory.start.toNat + t.memory.size.toNat ≤ 2 ^ 64)
    (hlow : low.toNat ≤ (region >>> 3).toNat)
    (hhigh : (region >>> 3).toNat < low.toNat + t.memory.size.toNat) :
    t.regions region = true := by
  have hhome : (t.bits.home region).toNat =
      t.memory.start.toNat + ((region >>> 3).toNat - low.toNat) := by
    have := t.memory.start.toNat_lt
    have := low.toNat_lt
    rw [home, hbase, UInt64.toNat_add, UInt64.toNat_sub]
    omega
  refine Memory.admits_byte_iff.mpr ?_
  rw [hhome]
  omega

/-- A table that was made for a range of slots. -/
structure IsNew (first last : Address) (compressed : Bool) (t : Table) : Prop where
  logRegion : t.bits.logRegion = (UnlogBits.forSlots 0 compressed).logRegion
  size : t.size = bytesFor first last compressed
  /-- The byte of every slot in the range is in the table. -/
  covers : ∀ slot, first ≤ slot → slot < last → t.regions (t.bits.region slot) = true
  isMarked : ∀ region, t.isMarked region = false

theorem exists_new (h : first < last) (compressed : Bool)
    (hroom : origin.toNat + bytesFor first last compressed ≤ 2 ^ 64) :
    ∃ t, Table.new origin first last compressed = .ok t ∧ IsNew first last compressed t := by
  obtain ⟨low, high, hlow, hhigh, hnew⟩ := exists_new_eq h origin compressed
  have hnonempty := UInt64.lt_iff_toNat_lt.mp h
  have hle : low.toNat ≤ high.toNat := by
    rw [hlow, hhigh]
    exact Nat.div_le_div_right (by omega)
  have hspan : span compressed = 64 ∨ span compressed = 32 := by
    cases compressed
    · exact .inl rfl
    · exact .inr rfl
  have hsmall : high.toNat < 2 ^ 63 := by
    have := last.toNat_lt
    rw [hhigh]
    rcases hspan with h | h <;> rw [h] <;> omega
  have hsize : (high - low + 1).toNat = high.toNat - low.toNat + 1 := by
    rw [UInt64.toNat_add, UInt64.toNat_sub_of_le _ _ (UInt64.le_iff_toNat_le.mpr hle)]
    exact Nat.mod_eq_of_lt (by simp; omega)
  have hbytes : (high - low + 1).toNat = bytesFor first last compressed := by
    rw [hsize, bytesFor, hlow, hhigh]
  refine ⟨_, hnew, rfl, hbytes, ?_, ?_⟩
  · intro slot hslot hslot'
    have hplace := toNat_region_div (logRegion_forSlots_le 0 compressed) slot
    have hfirst : first.toNat ≤ slot.toNat := UInt64.le_iff_toNat_le.mp hslot
    have hlast : slot.toNat ≤ last.toNat - 1 :=
      Nat.le_sub_one_of_lt (UInt64.lt_iff_toNat_lt.mp hslot')
    refine regions_of_biased low rfl (hbytes ▸ hroom) ?_ ?_
    · rw [hlow]
      exact hplace ▸ Nat.div_le_div_right hfirst
    · have hbelow : ((forSlots 0 compressed).region slot >>> 3).toNat ≤ high.toNat := by
        rw [hplace, hhigh]
        exact Nat.div_le_div_right hlast
      change ((forSlots 0 compressed).region slot >>> 3).toNat <
        low.toNat + (high - low + 1).toNat
      omega
  · intro region
    change testBit 0 (place region) = false
    rw [testBit_eq (toNat_place_lt region), UInt8.toNat_zero, Nat.zero_testBit]

theorem IsNew.represents (h : IsNew first last compressed t) :
    Represents t.bits t.regions t .empty := ⟨rfl, rfl, fun region _ => h.isMarked region⟩

theorem IsNew.logRegion_le (h : IsNew first last compressed t) : t.bits.logRegion ≤ 60 := by
  rw [h.logRegion]
  exact logRegion_forSlots_le 0 compressed

/-- What operations on a new table answer and leave behind. -/
structure AnswersLikeSet (t : Table) : Prop where
  /-- The answers are those of a set of regions that is empty at first, and the bits are its members
  in the end. -/
  represents : ∀ ops, (∀ op ∈ ops, op.isWithin t.bits t.regions = true) →
    ∃ t', runAll ops t = .ok (answers t.bits t.regions ops .empty, t') ∧
      Represents t.bits t.regions t' (unloggedAfter t.bits t.regions ops .empty)
  /-- In operations that follow any others, a region is marked as logged where it was not at most once
  more than it is unlogged. So between two times at which it is unlogged that happens once at most. -/
  once : ∀ before during, (∀ op ∈ before ++ during, op.isWithin t.bits t.regions = true) →
    ∃ as t₁ bs t₂, runAll before t = .ok (as, t₁) ∧ runAll during t₁ = .ok (bs, t₂) ∧
      ∀ region, (during.zip bs).countP (Op.logged t.bits region) ≤
        during.countP (Op.unlogs t.bits region) + 1

theorem IsNew.answersLikeSet (h : IsNew first last compressed t) : AnswersLikeSet t := by
  constructor
  · exact fun ops hin => represents_runAll h.logRegion_le h.represents ops hin
  · intro before during hin
    obtain ⟨t₁, hbefore, h₁⟩ := represents_runAll h.logRegion_le h.represents before
      fun op hop => hin op (List.mem_append_left during hop)
    obtain ⟨t₂, hduring, -⟩ := represents_runAll h.logRegion_le h₁ during
      fun op hop => hin op (List.mem_append_right before hop)
    refine ⟨_, t₁, _, t₂, hbefore, hduring, fun region => ?_⟩
    have hle := countP_logged_le t.bits t.regions region during
      (unloggedAfter t.bits t.regions before .empty)
    exact Nat.le_trans hle (Nat.add_le_add_left (Bool.toNat_le _) _)

/-- A table can be made for every range of slots that is not empty. It has the byte of every slot in
the range, and operations on regions whose bytes it has answer like a set of regions. -/
theorem new_answers_like_set (h : first < last) (compressed : Bool)
    (hroom : origin.toNat + bytesFor first last compressed ≤ 2 ^ 64) :
    ∃ t, Table.new origin first last compressed = .ok t ∧ IsNew first last compressed t ∧
      AnswersLikeSet t := by
  obtain ⟨t, hnew, hisNew⟩ := exists_new h compressed hroom
  exact ⟨t, hnew, hisNew, hisNew.answersLikeSet⟩

/-- A range that is aligned to no byte at either end, in a table below its own bias. -/
theorem new_answers_like_set_unaligned : (0x7fffff3c : Address) < 0x80000044 ∧
    (0x1000 : Address).toNat + bytesFor 0x7fffff3c 0x80000044 true ≤ 2 ^ 64 ∧
    ∃ t, Table.new 0x1000 0x7fffff3c 0x80000044 true = .ok t ∧
      IsNew 0x7fffff3c 0x80000044 true t ∧ AnswersLikeSet t := by
  have h : (0x7fffff3c : Address) < 0x80000044 := by decide
  have hroom : (0x1000 : Address).toNat + bytesFor 0x7fffff3c 0x80000044 true ≤ 2 ^ 64 := by
    decide
  exact ⟨h, hroom, new_answers_like_set h true hroom⟩

end Table
end Metadata
end HeapBridge
