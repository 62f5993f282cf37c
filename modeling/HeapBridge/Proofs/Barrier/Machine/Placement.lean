import HeapBridge.Proofs.Barrier.Machine.Layout

/-!
# Where code stands

Code has many pieces, and a piece may stand anywhere in it. A jump finds its target as long as every
label is bound once, which holds of a body and its stub because they bind just the labels that they
take.
-/
namespace HeapBridge.Barrier.Machine
variable {code : Code} {cfg : Config}

/-! ## Places -/

/-- Some instructions stand in code from a place on. -/
def Code.At (code : Code) : Nat → List Instr → Prop
  | _, [] => True
  | pc, i :: is => code.instrs[pc]? = some i ∧ code.At (pc + 1) is

theorem Code.at_append {pc : Nat} {is js : List Instr} :
    code.At pc (is ++ js) ↔ code.At pc is ∧ code.At (pc + is.length) js := by
  induction is generalizing pc with
  | nil => simp [Code.At]
  | cons i is ih => simp [Code.At, ih, and_assoc, Nat.add_assoc, Nat.add_comm 1]

theorem Code.at_of_instrs_eq (before is after : List Instr)
    (h : code.instrs = before ++ (is ++ after)) : code.At before.length is := by
  induction is generalizing before with
  | nil => trivial
  | cons i is ih =>
    refine ⟨by simp [h], ?_⟩
    have hnext := ih (before ++ [i]) (by simp [h])
    simpa using hnext

/-- The label that an instruction binds. -/
def Instr.bound? : Instr → Option Label
  | .bind l => some l
  | _ => none

/-- The labels that are bound in some instructions, in order. -/
def boundIn (is : List Instr) : List Label := is.filterMap Instr.bound?

theorem boundIn_append (is js : List Instr) : boundIn (is ++ js) = boundIn is ++ boundIn js :=
  List.filterMap_append

theorem mem_boundIn {is : List Instr} {l : Label} : l ∈ boundIn is ↔ .bind l ∈ is := by
  rw [boundIn, List.mem_filterMap]
  constructor
  · rintro ⟨i, hi, hl⟩
    cases i <;> simp_all [Instr.bound?]
  · intro h
    exact ⟨_, h, rfl⟩

theorem findIdx?_bind {is : List Instr} (hd : (boundIn is).Nodup) {l : Label} {p : Nat}
    (h : is[p]? = some (.bind l)) : is.findIdx? (· == .bind l) = some p := by
  induction is generalizing p with
  | nil => simp at h
  | cons i is ih =>
    rw [List.findIdx?_cons]
    cases p with
    | zero =>
      simp only [List.getElem?_cons_zero, Option.some.injEq] at h
      simp [h]
    | succ p =>
      rw [List.getElem?_cons_succ] at h
      have hmem : l ∈ boundIn is := mem_boundIn.mpr (List.mem_of_getElem? h)
      have hne : i ≠ .bind l := by
        rintro rfl
        exact (List.nodup_cons.mp hd).1 hmem
      have hd' : (boundIn is).Nodup := (hd.sublist ((List.sublist_cons_self i is).filterMap _))
      rw [if_neg (by simpa using hne), ih hd' h]
      rfl

/-- A label that is bound once is found where it is bound. -/
theorem Code.placeOf_eq (hd : (boundIn code.instrs).Nodup) {l : Label} {p : Nat}
    (h : code.instrs[p]? = some (.bind l)) : code.placeOf l = p := by
  rw [Code.placeOf, Code.placeOf?, findIdx?_bind hd h]
  rfl

/-! ## Labels of pieces -/

theorem boundIn_lateWrite (src value : Reg) (done : Label) (r : Nat) :
    boundIn (lateWrite cfg src value done r) = [] := by
  cases hf : cfg.fastPath <;>
    simp [lateWrite, skipCode, hf, boundIn, bitTest, writeCall, Instr.bound?]

/-- A stub binds its entry and nothing else. -/
theorem boundIn_stubPiece (t : Nat) (stub : Stub) :
    boundIn (stubPiece cfg t stub).instrs = [stub.entry] := by
  have hbody : boundIn (stubBody cfg stub t) = [] := by
    obtain ⟨entry, done, kind⟩ := stub
    match kind with
    | .write src (some slot) value => rfl
    | .write src none value => exact boundIn_lateWrite src value done t
    | .load value =>
      cases hm : cfg.loadMode with
      | referenceCall =>
        simp only [stubBody, hm]
        rfl
      | slotLogging =>
        simp only [stubBody, hm]
        exact boundIn_lateWrite value value done t
  simp only [stubPiece, boundIn_append]
  have hcons : boundIn (.bind stub.entry :: stubBody cfg stub t) = [stub.entry] := by
    rw [← List.singleton_append, boundIn_append, hbody]
    rfl
  rw [hcons]
  rfl

/-- The body of an access and its stub bind the labels that they take, each once. -/
theorem boundIn_piece_perm (r l t : Nat) (a : Access) :
    (boundIn ((piece cfg r l a).instrs ++ ((piece cfg r l a).tail cfg t).instrs)).Perm
      ((List.range' l (piece cfg r l a).labels).map Label.mk) := by
  rw [boundIn_append]
  cases a with
  | store s =>
    simp only [piece]
    split
    · have hswap : [Label.mk (l + 1), ⟨l⟩].Perm [⟨l⟩, ⟨l + 1⟩] := .swap _ _ _
      simp only [storePiece]
      cases s.needsPatching <;> cases cfg.fastPath <;>
        simp only [Piece.tail, Bool.false_eq_true, if_false, if_true, boundIn_stubPiece] <;>
        exact hswap
    · exact .refl _
  | load ld =>
    simp only [piece]
    split
    · split
      · have hmove : [Label.mk (l + 2), ⟨l⟩, ⟨l + 1⟩].Perm [⟨l⟩, ⟨l + 1⟩, ⟨l + 2⟩] :=
          (List.Perm.swap _ _ _).trans ((List.Perm.swap _ _ _).cons _)
        simp only [guardedPiece, Piece.tail, reportPiece, boundIn_stubPiece]
        exact hmove
      · simp only [Piece.tail, reportPiece, boundIn_stubPiece]
        exact .swap _ _ _
    · exact .refl _
  | arrayCopy c =>
    simp only [piece]
    split <;> exact .refl _
  | clone c =>
    simp only [piece]
    cases c.freshTarget <;> exact .refl _

theorem boundIn_ret (is js : List Instr) : boundIn (is ++ .ret :: js) = boundIn (is ++ js) := by
  rw [boundIn_append, boundIn_append]
  rfl

theorem nodup_labels (l n : Nat) : ((List.range' l n).map Label.mk).Nodup := by
  rw [List.Nodup, List.pairwise_map]
  have hrange : (List.range' l n).Nodup := List.nodup_range'
  exact hrange.imp fun hne h => hne (Label.mk.inj h)

theorem nodup_boundIn_codeOf (a : Access) : (boundIn (codeOf cfg a).instrs).Nodup := by
  simp only [codeOf, boundIn_ret]
  exact (boundIn_piece_perm 0 0 _ a).nodup_iff.mpr (nodup_labels _ _)

/-! ## Pieces in code -/

/-- Code has a piece at `pc`, in registers from `r` on, and its stub at `q`, in registers from `t`
on. -/
structure Code.Hosts (code : Code) (cfg : Config) (p : Piece) (pc r q t : Nat) : Prop where
  body : code.At pc p.instrs
  tail : code.At q (p.tail cfg t).instrs
  regs_le : r + p.regs ≤ t
  tail_regs_le : t + (p.tail cfg t).regs ≤ code.registers

theorem codeOf_hosts (a : Access) :
    (codeOf cfg a).Hosts cfg (piece cfg 0 0 a) 0 0 ((piece cfg 0 0 a).instrs.length + 1)
      (piece cfg 0 0 a).regs := by
  refine ⟨?_, ?_, Nat.le_of_eq (Nat.zero_add _), Nat.le_refl _⟩
  · exact Code.at_of_instrs_eq [] _ _ rfl
  · have hat := (codeOf cfg a).at_of_instrs_eq ((piece cfg 0 0 a).instrs ++ [.ret])
      ((piece cfg 0 0 a).tail cfg (piece cfg 0 0 a).regs).instrs [] (by simp [codeOf])
    simpa using hat

end HeapBridge.Barrier.Machine
