import HeapBridge.Proofs.Slot.Footprint
import Mathlib.Logic.Function.Basic

/-!
# Slots as variables

Slots that share no bytes behave like variables that know nothing of each other. `Performs` is what
one access answers, and what it does to the bytes of its slot and to all others; what a sequence of
accesses comes to follows by induction.
-/
namespace HeapBridge.Slot
variable {ι : Type}

/-- What can be done with slots. -/
inductive Access (ι : Type)
  | load (i : ι)
  | store (i : ι) (o : ObjectRef)
  | exchange (i : ι) (old new : ObjectRef)
deriving DecidableEq

/-- What an access answers. -/
inductive Answer
  | loaded (o : ObjectRef)
  | stored
  /-- Whether the exchange took place, and the reference that was found. -/
  | exchanged (done : Bool) (found : ObjectRef)
deriving DecidableEq

namespace Access

/-- The slot that is accessed. -/
def index : Access ι → ι
  | load i | store i _ | exchange i _ _ => i

/-- The references that are handed to an access. -/
def operands : Access ι → List ObjectRef
  | load _ => []
  | store _ o => [o]
  | exchange _ old new => [old, new]

/-- Makes an access to one of the slots in memory. -/
def run (slots : ι → Tagged) (e : Option Encoding) (m : Memory) :
    Access ι → Except Fault (Answer × Memory)
  | load i => do return (.loaded (← (slots i).load e m), m)
  | store i o => do return (.stored, ← (slots i).store o e m)
  | exchange i old new => do
    let (done, found, m) ← (slots i).compareExchange old new e m
    return (.exchanged done found, m)

/-- Makes accesses one after the other. -/
def runAll (slots : ι → Tagged) (e : Option Encoding) :
    List (Access ι) → Memory → Except Fault (List Answer × Memory)
  | [], m => .ok ([], m)
  | a :: as, m => do
    let (answer, m) ← a.run slots e m
    let (answers, m) ← runAll slots e as m
    return (answer :: answers, m)

/-- Whether the slot can hold what is handed to an access. -/
def IsProper (slots : ι → Tagged) (e : Option Encoding) (a : Access ι) : Prop :=
  ∀ o ∈ a.operands, (slots a.index).Accepts e o

/-! ## Variables -/

/-- What a variable would answer. -/
def answer (v : ι → ObjectRef) : Access ι → Answer
  | load i => .loaded (v i)
  | store _ _ => .stored
  | exchange i old _ => .exchanged (v i = old) (v i)

/-- The reference that an access puts into its variable, if it does. -/
def put? (v : ι → ObjectRef) : Access ι → Option ObjectRef
  | load _ => none
  | store _ o => some o
  | exchange i old new => if v i = old then some new else none

variable [DecidableEq ι]

/-- What an access makes of the variables. -/
def effect (v : ι → ObjectRef) (a : Access ι) : ι → ObjectRef :=
  match a.put? v with
  | some o => Function.update v a.index o
  | none => v

/-- What variables answer, one access after the other. -/
def answers : List (Access ι) → (ι → ObjectRef) → List Answer
  | [], _ => []
  | a :: as, v => a.answer v :: answers as (a.effect v)

/-- The variables after accesses. -/
def valuesAfter (as : List (Access ι)) (v : ι → ObjectRef) : ι → ObjectRef := as.foldl effect v

end Access

/-! ## Slots -/

variable {slots : ι → Tagged} {e : Option Encoding} {m m' : Memory} {v : ι → ObjectRef}

/-- Slots in memory that share no bytes. -/
structure Separate (slots : ι → Tagged) (e : Option Encoding) (m : Memory) : Prop where
  mapped : ∀ i, (slots i).require e m = .ok ()
  apart : ∀ i j, i ≠ j → ∀ x, (slots i).Covers e x → ¬ (slots j).Covers e x

/-- The bytes of every slot spell the reference in the variable. -/
def Hold (slots : ι → Tagged) (e : Option Encoding) (m : Memory) (v : ι → ObjectRef) : Prop :=
  ∀ i, (slots i).meaning e ((slots i).number e m) = .ok (v i)

namespace Separate

theorem load_eq (h : Separate slots e m) (hv : Hold slots e m v) (i : ι) :
    (slots i).load e m = .ok (v i) :=
  (Tagged.load_eq_meaning (h.mapped i)).trans (hv i)

theorem aligned (h : Separate slots e m) (i : ι) :
    (slots i).address.toNat % ((slots i).width e).bytes = 0 :=
  Tagged.aligned_of_require (h.mapped i)

theorem written (h : Separate slots e m) (t : Tagged) (o : ObjectRef) :
    Separate slots e (t.written e o m) :=
  ⟨fun i => (Tagged.require_written t (slots i) e o m).trans (h.mapped i), h.apart⟩

variable [DecidableEq ι]

/-- A reference that is written into one slot is in its variable, and all others are as they were. -/
theorem hold_written (h : Separate slots e m) (hfits : ∀ enc ∈ e, enc.Fits)
    (hv : Hold slots e m v) {i : ι} {o : ObjectRef} (ho : (slots i).Accepts e o) :
    Hold slots e ((slots i).written e o m) (Function.update v i o) := by
  intro j
  by_cases hj : j = i
  · subst hj
    rw [Tagged.number_written, Function.update_self,
      Tagged.meaning_eq_ok_iff hfits ho (Tagged.toNat_word_lt _ e o)]
  · rw [Tagged.number_written_of_apart (h.aligned i) (h.aligned j) (h.apart i j (Ne.symm hj)),
      Function.update_of_ne hj]
    exact hv j

end Separate

/-! ## Accesses -/

/-- An access is answered by its variable, and touches no bytes but those of its slot, and not even
these if it puts nothing into it. -/
structure Performs [DecidableEq ι] (slots : ι → Tagged) (e : Option Encoding) (v : ι → ObjectRef)
    (a : Access ι) (m m' : Memory) : Prop where
  run_eq : a.run slots e m = .ok (a.answer v, m')
  hold : Hold slots e m' (a.effect v)
  separate : Separate slots e m'
  spares : ∀ x, ¬ (slots a.index).Covers e x → m'.byte x = m.byte x
  unchanged : a.put? v = none → m' = m

namespace Access
variable [DecidableEq ι]

/-- An access goes through in any memory that the variables describe. -/
theorem exists_performs (hfits : ∀ enc ∈ e, enc.Fits) (h : Separate slots e m)
    (hv : Hold slots e m v) {a : Access ι} (ha : a.IsProper slots e) :
    ∃ m', Performs slots e v a m m' := by
  -- an access that puts a reference into its variable writes it into the slot
  have hwrites {o : ObjectRef} (ho : (slots a.index).Accepts e o) (hput : a.put? v = some o)
      (hrun : a.run slots e m = .ok (a.answer v, (slots a.index).written e o m)) :
      Performs slots e v a m ((slots a.index).written e o m) := by
    have heffect : a.effect v = Function.update v a.index o := by rw [effect, hput]
    refine ⟨hrun, ?_, h.written _ o, fun x hx => Tagged.byte_written (h.aligned a.index) hx, ?_⟩
    · rw [heffect]
      exact h.hold_written hfits hv ho
    · rw [hput]
      exact nofun
  have hkeeps (hput : a.put? v = none) (hrun : a.run slots e m = .ok (a.answer v, m)) :
      Performs slots e v a m m := by
    refine ⟨hrun, ?_, h, fun _ _ => rfl, fun _ => rfl⟩
    rw [effect, hput]
    exact hv
  cases a with
  | load i =>
    refine ⟨m, hkeeps rfl ?_⟩
    rw [run, h.load_eq hv i]
    rfl
  | store i o =>
    have ho : (slots i).Accepts e o := ha o (List.mem_singleton.mpr rfl)
    refine ⟨_, hwrites ho rfl ?_⟩
    rw [run, Tagged.store_eq_written hfits (h.mapped i) ho]
    rfl
  | exchange i old new =>
    have hold : (slots i).Accepts e old := ha old (by simp [operands])
    have hnew : (slots i).Accepts e new := ha new (by simp [operands])
    have hexchange :=
      Tagged.compareExchange_of_load hfits hold hnew (h.mapped i) (h.load_eq hv i)
    by_cases hfound : v i = old
    · rw [if_pos hfound] at hexchange
      refine ⟨_, hwrites hnew (if_pos hfound) ?_⟩
      rw [run, hexchange, answer, decide_eq_true hfound]
      rfl
    · rw [if_neg hfound] at hexchange
      refine ⟨m, hkeeps (if_neg hfound) ?_⟩
      rw [run, hexchange, answer, decide_eq_false hfound]
      rfl

/-- Accesses go through one after the other, and touch no bytes but those of their slots. -/
theorem exists_runAll (hfits : ∀ enc ∈ e, enc.Fits) (h : Separate slots e m)
    (hv : Hold slots e m v) {as : List (Access ι)} (has : ∀ a ∈ as, a.IsProper slots e) :
    ∃ m', runAll slots e as m = .ok (answers as v, m') ∧ Hold slots e m' (valuesAfter as v) ∧
      Separate slots e m' ∧
      ∀ x, (∀ a ∈ as, ¬ (slots a.index).Covers e x) → m'.byte x = m.byte x := by
  induction as generalizing m v with
  | nil => exact ⟨m, rfl, hv, h, fun _ _ => rfl⟩
  | cons a as ih =>
    obtain ⟨m₁, ha⟩ := exists_performs hfits h hv (has a List.mem_cons_self)
    obtain ⟨m₂, hrun, hv₂, h₂, hspares⟩ := ih ha.separate ha.hold
      fun b hb => has b (List.mem_cons_of_mem a hb)
    refine ⟨m₂, ?_, hv₂, h₂, ?_⟩
    · rw [runAll, ha.run_eq]
      change runAll slots e as m₁ >>= _ = _
      rw [hrun]
      rfl
    · intro x hx
      exact (hspares x fun b hb => hx b (List.mem_cons_of_mem a hb)).trans
        (ha.spares x (hx a List.mem_cons_self))

end Access
end HeapBridge.Slot
