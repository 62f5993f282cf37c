import HeapBridge.Proofs.Scan.Roots
import Mathlib.Data.List.Forall2

/-!
# What the collector sees

Every closure tags slots by itself, and the collector takes the tag apart again. For slots below the
mark the two agree: the collector finds the slot and its width, and reads what the virtual machine
put there. So the closure that reports objects reports just what the collector would read through
the slots that the other one reports.
-/
namespace HeapBridge.Scan
open Slot (Encoding Tagged)

variable {e : Option Encoding} {m : Memory} {supply : Supply} {v : Visit} {vs : List Visit}

namespace Visit

/-- A slot below the mark, which is narrow only where references are compressed. -/
def Proper (e : Option Encoding) : Visit → Prop
  | wide slot => slot &&& Tagged.wideTag = 0
  | narrow slot => slot &&& Tagged.wideTag = 0 ∧ e.isSome

instance (e : Option Encoding) : DecidablePred (Proper e)
  | wide slot => inferInstanceAs (Decidable (slot &&& Tagged.wideTag = 0))
  | narrow slot => inferInstanceAs (Decidable (slot &&& Tagged.wideTag = 0 ∧ e.isSome))

/-- Whether a slot holds a compressed reference. -/
def isNarrow : Visit → Bool
  | wide _ => false
  | narrow _ => true

/-- The object in a slot, as the virtual machine put it there. -/
def object (e : Option Encoding) (m : Memory) : Visit → Except Fault ObjectRef
  | wide slot => m.load slot .wide
  | narrow slot =>
    match e with
    | some enc => do enc.decode (← m.load slot .narrow).toUInt32
    | none => .error .malformed

/-- What the collector takes a word for: the slot, what it holds and how wide it is. -/
structure SeenAs (e : Option Encoding) (m : Memory) (v : Visit) (w : Word) : Prop where
  address_eq : (Tagged.mk w).address = v.slot
  load_eq : (Tagged.mk w).load e m = v.object e m
  isCompressed_eq : e.isSome → (Tagged.mk w).isCompressed = v.isNarrow

/-- A proper slot can be tagged, and is seen through its tag. -/
theorem Proper.exists_tag (h : v.Proper e) : ∃ t, v.tag e = .ok t ∧ v.SeenAs e m t.raw := by
  cases v with
  | wide slot =>
    refine ⟨.wide slot e.isSome, tag_wide e h, Tagged.address_wide h _, Tagged.load_wide h e m, ?_⟩
    intro hsome
    rw [hsome]
    exact Tagged.isCompressed_wide h
  | narrow slot =>
    obtain ⟨hmark, hsome⟩ := h
    obtain ⟨enc, rfl⟩ := Option.isSome_iff_exists.mp hsome
    exact ⟨.narrow slot, rfl, Tagged.address_narrow hmark, Tagged.load_narrow hmark enc m,
      fun _ => Tagged.isCompressed_narrow hmark⟩

/-- Both closures check and read a proper slot alike, and differ in what they report of an object.
-/
theorem Proper.word?_eq (h : v.Proper e) {t : Tagged} (htag : v.tag e = .ok t)
    (hseen : v.SeenAs e m t.raw) (c : Closure) :
    c.word? e m v = do
      v.require e m
      let o ← v.object e m
      return if o = 0 then none else some (match c with | .roots => t.raw | .objects => o) := by
  cases c with
  | roots =>
    have hload : t.load e m = v.object e m := hseen.load_eq
    simp only [Closure.word?, htag, hload, bind, Except.bind]
  | objects =>
    cases v with
    | wide slot =>
      have hload : (Tagged.wide slot false).load none m = m.load slot .wide :=
        Tagged.load_wide h none m
      simp only [Closure.word?, hload, object]
    | narrow slot =>
      obtain ⟨hmark, hsome⟩ := h
      obtain ⟨enc, rfl⟩ := Option.isSome_iff_exists.mp hsome
      simp only [Closure.word?, Tagged.load_narrow hmark, object, bind]

end Visit

/-- Whether a reference could be read and is one to an object. -/
def isObject : Except Fault ObjectRef → Bool
  | .ok o => o != 0
  | .error _ => false

namespace Visit

/-- The word by which a proper slot is passed on. -/
structure PassedAs (e : Option Encoding) (m : Memory) (v : Visit) (w : Word) : Prop where
  seen : v.SeenAs e m w
  traced : tracedWord e v = .ok w
  edge?_eq : v.edge? e m = if isObject (v.object e m) then some w else none
  node?_eq : (Closure.objects.report? e m v).map Except.ok =
    if isObject (v.object e m) then some (v.object e m) else none
  refusal?_eq : Closure.objects.refusal? e m v = Closure.roots.refusal? e m v

theorem Proper.exists_passedAs (h : v.Proper e) : ∃ w, v.PassedAs e m w := by
  obtain ⟨t, htag, hseen⟩ := h.exists_tag (m := m)
  have hload : t.load e m = v.object e m := hseen.load_eq
  refine ⟨t.raw, hseen, ?_, ?_, ?_, ?_⟩
  · simp [tracedWord, htag, bind, Except.bind, pure, Except.pure]
  · cases hobject : v.object e m with
    | error fault => simp [edge?, htag, hload, hobject, isObject, Except.toOption]
    | ok o =>
      by_cases hnull : o = 0 <;>
        simp [edge?, htag, hload, hobject, hnull, isObject, Except.toOption]
  · simp only [Closure.report?, h.word?_eq htag hseen]
    cases hobject : v.object e m with
    | error fault =>
      cases v.require e m <;> simp [isObject, bind, Except.bind, Except.toOption]
    | ok o =>
      have hrequire : v.require e m = .ok () := by
        rw [require_eq_of_tag htag]
        exact Tagged.require_of_load (hload.trans hobject)
      by_cases hnull : o = 0 <;>
        simp [hrequire, hnull, isObject, bind, Except.bind, pure, Except.pure, Except.toOption]
  · simp only [Closure.refusal?, h.word?_eq htag hseen]
    cases v.require e m with
    | error fault => rfl
    | ok u => cases v.object e m <;> rfl

end Visit

/-! ## Runs of visits -/

section Passed
variable {words : List Word}

theorem exists_words (h : ∀ v ∈ vs, v.Proper e) :
    ∃ words, List.Forall₂ (Visit.PassedAs e m) vs words := by
  induction vs with
  | nil => exact ⟨[], .nil⟩
  | cons v vs ih =>
    obtain ⟨w, hw⟩ := (h v List.mem_cons_self).exists_passedAs (m := m)
    obtain ⟨words, hwords⟩ := ih fun v hv => h v (List.mem_cons_of_mem _ hv)
    exact ⟨w :: words, .cons hw hwords⟩

theorem sift_of_passed (h : List.Forall₂ (Visit.PassedAs e m) vs words) (i : Nat) :
    sift (tracedWord e) i vs = (words, []) := by
  induction h generalizing i with
  | nil => rfl
  | cons hw _ ih => rw [sift, ih, hw.traced]

theorem traceUntil_of_passed (h : List.Forall₂ (Visit.PassedAs e m) vs words) :
    World.traceUntil e vs = (words, none) := by
  induction h with
  | nil => rfl
  | cons hw _ ih => rw [World.traceUntil, hw.traced, ih]

/-- Roots with an object in them, seen from either side. -/
theorem filterMap_edge?_of_passed (h : List.Forall₂ (Visit.PassedAs e m) vs words) :
    vs.filterMap (Visit.edge? e m) = words.filter fun w => isObject ((Tagged.mk w).load e m) := by
  induction h with
  | nil => rfl
  | @cons v w _ _ hw _ ih =>
    cases hobject : isObject (v.object e m) <;>
      simp [hw.edge?_eq, hw.seen.load_eq, hobject, ih]

theorem filter_of_passed (h : List.Forall₂ (Visit.PassedAs e m) vs words) :
    List.Forall₂ (Visit.SeenAs e m) (vs.filter fun v => isObject (v.object e m))
      (words.filter fun w => isObject ((Tagged.mk w).load e m)) := by
  induction h with
  | nil => exact .nil
  | cons hw _ ih =>
    rw [List.filter_cons, List.filter_cons, hw.seen.load_eq]
    split
    · exact .cons hw.seen ih
    · exact ih

/-- The objects that are reported are those that the collector would read. -/
theorem map_report?_of_passed (h : List.Forall₂ (Visit.PassedAs e m) vs words) :
    (vs.filterMap (Closure.objects.report? e m)).map Except.ok =
      (vs.filterMap (Visit.edge? e m)).map fun w => (Tagged.mk w).load e m := by
  induction h with
  | nil => rfl
  | @cons v w _ _ hw _ ih =>
    have hnode := hw.node?_eq
    cases hobject : isObject (v.object e m) with
    | true =>
      rw [hobject, if_pos rfl] at hnode
      obtain ⟨o, ho, hload⟩ := Option.map_eq_some_iff.mp hnode
      simp [hw.edge?_eq, hw.seen.load_eq, hobject, ho, hload, ih]
    | false =>
      rw [hobject, if_neg nofun, Option.map_eq_none_iff] at hnode
      simp [hw.edge?_eq, hobject, hnode, ih]

theorem refusals_of_passed (h : List.Forall₂ (Visit.PassedAs e m) vs words) (i : Nat) :
    Closure.objects.refusals e m i vs = Closure.roots.refusals e m i vs := by
  induction h generalizing i with
  | nil => rfl
  | cons hw _ ih =>
    have hrest := ih (i + 1)
    simp only [Closure.refusals] at hrest
    simp only [Closure.refusals, List.zipIdx_cons, List.filterMap_cons, hw.refusal?_eq, hrest]

end Passed

/-- What the collector receives of a run of visits, through the closures for roots, for objects and
for the slots of an object. -/
structure SeenThrough (e : Option Encoding) (m : Memory) (supply : Supply) (vs : List Visit) :
    Prop where
  /-- The words for roots stand, one by one, for the slots with an object in them. -/
  edges : List.Forall₂ (Visit.SeenAs e m) (vs.filter fun v => isObject (v.object e m))
    (packets .roots e m supply vs).1.flatten
  /-- The words of a scanned object stand for all slots, and the roots are those of them through
  which an object is found. -/
  traced : ∃ words, sift (tracedWord e) 0 vs = (words, []) ∧
    World.traceUntil e vs = (words, none) ∧
    List.Forall₂ (Visit.SeenAs e m) vs words ∧
    (packets .roots e m supply vs).1.flatten =
      words.filter fun w => isObject ((Tagged.mk w).load e m)
  /-- The objects are those that are found through the roots, packet by packet. -/
  objects : (packets .objects e m supply vs).1.map (List.map Except.ok) =
    (packets .roots e m supply vs).1.map (List.map fun w => (Tagged.mk w).load e m)
  faults_eq : (packets .objects e m supply vs).2 = (packets .roots e m supply vs).2

/-- The collector sees through its buffers what the slots hold. -/
theorem seen_through_buffers (e : Option Encoding) (m : Memory) {supply : Supply}
    (hsupply : ∀ i, 0 < supply i) (h : ∀ v ∈ vs, v.Proper e) : SeenThrough e m supply vs := by
  obtain ⟨words, hwords⟩ := exists_words (m := m) h
  have hroots := isGreedy_roots e m hsupply vs
  obtain ⟨hobjects, hobjectFaults⟩ := packets_eq .objects e m hsupply vs
  have hedges : (packets .roots e m supply vs).1.flatten =
      words.filter fun w => isObject ((Tagged.mk w).load e m) :=
    hroots.flatten.trans (filterMap_edge?_of_passed hwords)
  constructor
  · rw [hedges]
    exact filter_of_passed hwords
  · exact ⟨words, sift_of_passed hwords 0, traceUntil_of_passed hwords,
      hwords.imp fun _ _ hw => hw.seen, hedges⟩
  · -- both are greedy partitions of one list over the same buffers
    have hread := hobjects.map (fun o => (.ok o : Except Fault ObjectRef))
    rw [map_report?_of_passed hwords] at hread
    exact hread.unique (hroots.map _)
  · rw [hobjectFaults, (packets_eq .roots e m hsupply vs).2, refusals_of_passed hwords]

/-- Whole and compressed slots, one of them empty and one out of memory, over buffers of one and of
two words. -/
theorem seen_through_buffers_compressed :
    let e : Option Encoding := some ⟨0x800000000, 3⟩
    let m := ((Memory.zeroed 0x1000 0x40).setByte 0x1008 0x50).setByte 0x1010 0x60
    let vs : List Visit := [.wide 0x1008, .narrow 0x1010, .wide 0x1020, .narrow 0x2000, .wide 0x1010]
    (∀ i, 0 < Supply.ofList [1, 2] i) ∧ (∀ v ∈ vs, v.Proper e) ∧
      SeenThrough e m (.ofList [1, 2]) vs := by
  intro e m vs
  have hsupply : ∀ i, 0 < Supply.ofList [1, 2] i := by
    intro i
    match i with
    | 0 => decide
    | 1 => decide
    | i + 2 => simp [Supply.ofList]
  have hproper : ∀ v ∈ vs, v.Proper e := by decide
  exact ⟨hsupply, hproper, seen_through_buffers e m hsupply hproper⟩

end HeapBridge.Scan
