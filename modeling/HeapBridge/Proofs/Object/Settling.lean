import HeapBridge.Object.Forwarding
import HeapBridge.Proofs.Memory.Words

/-!
# What weak slots settle to

A weak slot lets go of a dead object and follows a live one that has moved. `Settles` says of two
memories that the second is what the slots settle to in the first. As long as slots share bytes
neither with each other nor with the headers that decide about them, slots settle independently, so
that it makes no difference in which order they do, or whether they do so all at once.
-/
namespace HeapBridge.Object
open Memory

/-! ## Forwarding -/

/-- A header word has one of the forwarding bits. -/
def moved (header : Word) : Bool := header.toNat.testBit 56 || header.toNat.testBit 57

/-- A header word without its top byte. -/
def newPlace (header : Word) : ObjectRef := UInt64.ofNat (header.toNat % 2 ^ 56)

theorem testBit_forwardingMask (i : Nat) :
    forwardingMask.toNat.testBit i = decide (i = 56 ∨ i = 57) := by
  have hmask : forwardingMask.toNat = (2 ^ 2 - 1) <<< 56 := by decide
  rw [hmask, Nat.testBit_shiftLeft, Nat.testBit_two_pow_sub_one, ← Bool.decide_and,
    decide_eq_decide]
  omega

theorem and_forwardingMask_eq_zero_iff {header : Word} :
    header &&& forwardingMask = 0 ↔ moved header = false := by
  rw [← UInt64.toNat_inj, UInt64.toNat_and, UInt64.toNat_zero, moved, Bool.or_eq_false_iff]
  constructor
  · intro h
    have hbit (i : Nat) (hi : i = 56 ∨ i = 57) : header.toNat.testBit i = false := by
      have hzero : (header.toNat &&& forwardingMask.toNat).testBit i = false := by
        rw [h, Nat.zero_testBit]
      rw [Nat.testBit_and, testBit_forwardingMask, decide_eq_true hi, Bool.and_true] at hzero
      exact hzero
    exact ⟨hbit 56 (.inl rfl), hbit 57 (.inr rfl)⟩
  · rintro ⟨h₁, h₂⟩
    refine Nat.zero_of_testBit_eq_false fun i => ?_
    rw [Nat.testBit_and, testBit_forwardingMask]
    by_cases hi : i = 56 ∨ i = 57
    · obtain rfl | rfl := hi
      · rw [h₁, Bool.false_and]
      · rw [h₂, Bool.false_and]
    · rw [decide_eq_false hi, Bool.and_false]

theorem and_placeMask (header : Word) : header &&& placeMask = newPlace header := by
  rw [← UInt64.toNat_inj, UInt64.toNat_and, newPlace, UInt64.toNat_ofNat_of_lt']
  · exact Nat.and_two_pow_sub_one_eq_mod header.toNat 56
  · exact Nat.lt_of_le_of_lt (Nat.mod_le _ _) header.toNat_lt

theorem forwardedTo?_eq (header : Word) :
    forwardedTo? header = if moved header then some (newPlace header) else none := by
  rw [forwardedTo?, and_placeMask]
  cases hmoved : moved header with
  | false => rw [if_pos (and_forwardingMask_eq_zero_iff.mpr hmoved)]; rfl
  | true =>
    have hset : ¬ header &&& forwardingMask = 0 := by simp [and_forwardingMask_eq_zero_iff, hmoved]
    rw [if_neg hset]
    rfl

/-! ## Slots -/

variable {live : ObjectRef → Bool} {slots slots' : List Address} {m m' m'' : Memory}
  {slot : Address} {o : ObjectRef}

/-- A weak slot keeps an object just if the object lives. -/
def Survives (live : ObjectRef → Bool) (o : ObjectRef) : Prop := o ≠ 0 ∧ live o = true

instance : Decidable (Survives live o) := inferInstanceAs (Decidable (_ ∧ _))

/-- What a weak slot settles to that holds `o`. -/
def settled (live : ObjectRef → Bool) (m : Memory) (o : ObjectRef) : ObjectRef :=
  if Survives live o then if moved (m.word o) then newPlace (m.word o) else o else 0

theorem settled_of_survives (h : Survives live o) :
    settled live m o = if moved (m.word o) then newPlace (m.word o) else o := if_pos h

theorem settled_of_not_survives (h : ¬ Survives live o) : settled live m o = 0 := if_neg h

/-- Weak slots whose settling is a matter of words in memory that do not overlap. -/
structure Settleable (live : ObjectRef → Bool) (slots : List Address) (m : Memory) : Prop where
  /-- Every slot is in memory, -/
  mapped : ∀ slot ∈ slots, m.admits slot .wide = true
  /-- and so is the header of every live object in a slot. -/
  headers : ∀ slot ∈ slots, Survives live (m.word slot) → m.admits (m.word slot) .wide = true
  /-- Slots share no bytes with each other -/
  apart : slots.Pairwise Apart
  /-- and none with such a header. -/
  aside : ∀ slot ∈ slots, Survives live (m.word slot) → ∀ other ∈ slots, Apart other (m.word slot)

/-- Two memories in which slots settle alike: they agree in the slots, and in the headers of live
objects there. They may differ in all else, also in what is mapped. -/
structure Alike (live : ObjectRef → Bool) (slots : List Address) (m m' : Memory) : Prop where
  words : ∀ slot ∈ slots, m'.admits slot .wide = true ∧ m'.word slot = m.word slot
  headers : ∀ slot ∈ slots, Survives live (m.word slot) →
    m'.admits (m.word slot) .wide = true ∧ m'.word (m.word slot) = m.word (m.word slot)

/-- What slots settle to. -/
structure Settles (live : ObjectRef → Bool) (slots : List Address) (m m' : Memory) : Prop where
  /-- What is mapped stays so. -/
  start : m'.start = m.start
  size : m'.size = m.size
  /-- Every slot holds what it settles to, -/
  word : ∀ slot ∈ slots, m'.word slot = settled live m (m.word slot)
  /-- and no byte beside the slots has changed. -/
  byte : ∀ x, (∀ slot ∈ slots, ¬ InWord slot x) → m'.byte x = m.byte x

namespace Settleable

theorem sublist (h : Settleable live slots m) (hsub : slots'.Sublist slots) :
    Settleable live slots' m where
  mapped slot hslot := h.mapped slot (hsub.subset hslot)
  headers slot hslot := h.headers slot (hsub.subset hslot)
  apart := h.apart.sublist hsub
  aside slot hslot hlives other hother :=
    h.aside slot (hsub.subset hslot) hlives other (hsub.subset hother)

theorem perm (h : Settleable live slots m) (hperm : slots'.Perm slots) :
    Settleable live slots' m where
  mapped slot hslot := h.mapped slot (hperm.subset hslot)
  headers slot hslot := h.headers slot (hperm.subset hslot)
  apart := (hperm.pairwise_iff Apart.symm).mpr h.apart
  aside slot hslot hlives other hother :=
    h.aside slot (hperm.subset hslot) hlives other (hperm.subset hother)

/-- Whether slots can settle is told by the words that decide about them. -/
theorem alike (h : Settleable live slots m) (halike : Alike live slots m m') :
    Settleable live slots m' where
  mapped slot hslot := (halike.words slot hslot).1
  headers slot hslot hlives := by
    rw [(halike.words slot hslot).2] at hlives ⊢
    exact (halike.headers slot hslot hlives).1
  apart := h.apart
  aside slot hslot hlives := by
    rw [(halike.words slot hslot).2] at hlives ⊢
    exact h.aside slot hslot hlives

end Settleable

theorem Alike.sublist (h : Alike live slots m m') (hsub : slots'.Sublist slots) :
    Alike live slots' m m' where
  words slot hslot := h.words slot (hsub.subset hslot)
  headers slot hslot := h.headers slot (hsub.subset hslot)

/-- Slots that settle alike settle to the same. -/
theorem Alike.settled_eq (h : Alike live slots m m') (hslot : slot ∈ slots) :
    settled live m' (m'.word slot) = settled live m (m.word slot) := by
  rw [(h.words slot hslot).2]
  by_cases hlives : Survives live (m.word slot)
  · rw [settled, settled, (h.headers slot hslot hlives).2]
  · rw [settled_of_not_survives hlives, settled_of_not_survives hlives]

namespace Settles

theorem admits (h : Settles live slots m m') (a : Address) (w : Width) :
    m'.admits a w = m.admits a w := by
  rw [Memory.admits, Memory.admits, covers, covers, h.start, h.size]

/-- A word apart from the slots stays as it is. -/
theorem word_of_apart {a : Address} (h : Settles live slots m m')
    (ha : ∀ slot ∈ slots, Apart slot a) : m'.word a = m.word a :=
  word_congr fun x hx => h.byte x fun slot hslot hin => ha slot hslot x hin hx

/-- Other slots see no difference when slots settle. -/
theorem alike (hslots : Settleable live (slots ++ slots') m) (h : Settles live slots m m') :
    Alike live slots' m m' := by
  obtain ⟨-, -, hapart⟩ := List.pairwise_append.mp hslots.apart
  constructor
  · intro slot hslot
    have hmem := List.mem_append_right slots hslot
    have hbeside : ∀ other ∈ slots, Apart other slot :=
      fun other hother => hapart other hother slot hslot
    rw [h.admits]
    exact ⟨hslots.mapped slot hmem, h.word_of_apart hbeside⟩
  · intro slot hslot hlives
    have hmem := List.mem_append_right slots hslot
    rw [h.admits]
    refine ⟨hslots.headers slot hmem hlives, h.word_of_apart fun other hother => ?_⟩
    exact hslots.aside slot hmem hlives other (List.mem_append_left slots' hother)

theorem nil (live : ObjectRef → Bool) (m : Memory) : Settles live [] m m where
  start := rfl
  size := rfl
  word _ hslot := nomatch hslot
  byte _ _ := rfl

/-- Slots settle one part after the other. -/
theorem append (hslots : Settleable live (slots ++ slots') m) (h : Settles live slots m m')
    (h' : Settles live slots' m' m'') : Settles live (slots ++ slots') m m'' := by
  obtain ⟨-, -, hapart⟩ := List.pairwise_append.mp hslots.apart
  constructor
  · exact h'.start.trans h.start
  · exact h'.size.trans h.size
  · intro slot hslot
    obtain hslot | hslot := List.mem_append.mp hslot
    · calc m''.word slot
          = m'.word slot :=
            h'.word_of_apart fun other hother => (hapart slot hslot other hother).symm
        _ = settled live m (m.word slot) := h.word slot hslot
    · calc m''.word slot
          = settled live m' (m'.word slot) := h'.word slot hslot
        _ = settled live m (m.word slot) := (alike hslots h).settled_eq hslot
  · intro x hx
    rw [h'.byte x fun slot hslot => hx slot (List.mem_append_right slots hslot),
      h.byte x fun slot hslot => hx slot (List.mem_append_left slots' hslot)]

theorem perm (h : Settles live slots m m') (hperm : slots'.Perm slots) :
    Settles live slots' m m' where
  start := h.start
  size := h.size
  word slot hslot := h.word slot (hperm.subset hslot)
  byte x hx := h.byte x fun slot hslot => hx slot (hperm.symm.subset hslot)

/-- Slots settle in one way only. -/
theorem unique (h' : Settles live slots m m') (h'' : Settles live slots m m'') : m' = m'' := by
  refine Memory.ext (h'.start.trans h''.start.symm) (h'.size.trans h''.size.symm) ?_
  funext x
  by_cases hx : ∃ slot ∈ slots, InWord slot x
  · obtain ⟨slot, hslot, hin⟩ := hx
    exact byte_eq_of_word_eq ((h'.word slot hslot).trans (h''.word slot hslot).symm) hin
  · have hout : ∀ slot ∈ slots, ¬ InWord slot x := fun slot hslot hin => hx ⟨slot, hslot, hin⟩
    rw [h'.byte x hout, h''.byte x hout]

/-- A slot settles when it is written. -/
theorem setWord (h : settled live m (m.word slot) = o) :
    Settles live [slot] m (m.setWord slot o) where
  start := start_write ..
  size := size_write ..
  word := List.forall_mem_singleton.mpr ((word_setWord m slot o).trans h.symm)
  byte _ hx := byte_setWord (hx slot List.mem_cons_self)

/-- A slot that holds what it settles to has settled. -/
theorem of_eq (h : ∀ slot ∈ slots, settled live m (m.word slot) = m.word slot) :
    Settles live slots m m where
  start := rfl
  size := rfl
  word slot hslot := (h slot hslot).symm
  byte _ _ := rfl

end Settles

/-! ## Settling again -/

/-- A slot can hold an object for good: it is null, or it lives and has not moved, and its header
is in memory beside the slots. -/
def Rests (live : ObjectRef → Bool) (slots : List Address) (m : Memory) (o : ObjectRef) : Prop :=
  o = 0 ∨ live o = true ∧ moved (m.word o) = false ∧ m.admits o .wide = true ∧
    ∀ slot ∈ slots, Apart slot o

instance : Decidable (Rests live slots m o) := inferInstanceAs (Decidable (_ ∨ _))

/-- The new places of all live objects in slots that have moved. -/
def Arrived (live : ObjectRef → Bool) (slots : List Address) (m : Memory) : Prop :=
  ∀ slot ∈ slots, Survives live (m.word slot) → moved (m.word (m.word slot)) = true →
    Rests live slots m (newPlace (m.word (m.word slot)))

instance : Decidable (Arrived live slots m) := inferInstanceAs (Decidable (∀ _ ∈ _, _))

/-- What a slot settles to can be held for good. -/
theorem Arrived.rests (h : Arrived live slots m) (hslots : Settleable live slots m)
    (hslot : slot ∈ slots) : Rests live slots m (settled live m (m.word slot)) := by
  by_cases hlives : Survives live (m.word slot)
  · rw [settled_of_survives hlives]
    cases hmoved : moved (m.word (m.word slot)) with
    | true => exact h slot hslot hlives hmoved
    | false =>
      exact .inr ⟨hlives.2, hmoved, hslots.headers slot hslot hlives,
        hslots.aside slot hslot hlives⟩
  · rw [settled_of_not_survives hlives]
    exact .inl rfl

theorem Rests.settled_eq (h : Rests live slots m o) : settled live m o = o := by
  by_cases hnull : o = 0
  · rw [settled_of_not_survives fun hlives => hlives.1 hnull, hnull]
  · obtain ⟨hlive, hmoved, -⟩ := h.resolve_left hnull
    rw [settled_of_survives ⟨hnull, hlive⟩, hmoved]
    rfl

theorem Settles.rests (h : Settles live slots m m') (ho : Rests live slots m o) :
    Rests live slots m' o := by
  refine ho.imp_right fun ⟨hlive, hmoved, hadmits, hapart⟩ => ⟨hlive, ?_, ?_, hapart⟩
  · rw [h.word_of_apart hapart]
    exact hmoved
  · rw [h.admits]
    exact hadmits

/-- Slots that have settled for good could settle again, and would stay as they are. -/
theorem Settles.again (h : Settles live slots m m') (hslots : Settleable live slots m)
    (harrived : Arrived live slots m) :
    Settleable live slots m' ∧ Settles live slots m' m' := by
  have hrests : ∀ slot ∈ slots, Rests live slots m' (m'.word slot) := by
    intro slot hslot
    rw [h.word slot hslot]
    exact h.rests (harrived.rests hslots hslot)
  refine ⟨⟨?_, ?_, hslots.apart, ?_⟩, .of_eq fun slot hslot => (hrests slot hslot).settled_eq⟩
  · intro slot hslot
    rw [h.admits]
    exact hslots.mapped slot hslot
  · intro slot hslot hlives
    exact ((hrests slot hslot).resolve_left hlives.1).2.2.1
  · intro slot hslot hlives
    exact ((hrests slot hslot).resolve_left hlives.1).2.2.2

end HeapBridge.Object
