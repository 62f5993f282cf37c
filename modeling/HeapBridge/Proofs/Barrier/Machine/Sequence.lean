import HeapBridge.Proofs.Barrier.Machine.Refinement
import Mathlib.Algebra.GroupWithZero.Nat

/-!
# The code of many accesses

Bodies stand one after the other, the return behind them, and behind it the stubs in the order of
their bodies. Every body takes registers and labels that none before it took, and the stubs take
registers above those of all bodies. So each body finds its own stub, wherever both came to stand,
and a run is the runs of the bodies in order.
-/
namespace HeapBridge.Barrier

/-! ## Operands of another access -/

inductive Access.Kind
  | store
  | load
  | arrayCopy
  | clone
deriving DecidableEq, Inhabited

namespace Access

def kind : Access → Kind
  | store _ => .store
  | load _ => .load
  | arrayCopy _ => .arrayCopy
  | clone _ => .clone

/-- What is known of one access, with the words that another of its kind supplies. -/
def withOperandsOf : Access → Access → Access
  | store s, store u => store { s with src := u.src, slot := u.slot, target := u.target }
  | load l, load u =>
    load { l with base := u.base, offset := u.offset, slot := u.slot, value := u.value }
  | arrayCopy c, arrayCopy d => arrayCopy { c with src := d.src, dst := d.dst, count := d.count }
  | clone c, clone d => clone { c with src := d.src, dst := d.dst, size := d.size }
  | a, _ => a

theorem agreesForBaseline_withOperandsOf (a b : Access) :
    a.AgreesForBaseline (a.withOperandsOf b) := by
  cases a <;> cases b <;> simp [withOperandsOf, AgreesForBaseline]

theorem operand?_withOperandsOf {a b : Access} (h : a.kind = b.kind) (o : Operand) :
    (a.withOperandsOf b).operand? o = b.operand? o := by
  cases a <;> cases b <;> cases o <;> first | rfl | exact nomatch h

end Access

namespace Machine
variable {σ : Type} {code : Code} {access : Access} {env : Surroundings σ} {cfg : Config}

/-! ## Layout -/

/-- The bodies of some accesses, in the registers and labels from `r` and `l` on. -/
def bodies (cfg : Config) : Nat → Nat → List Access → List Piece
  | _, _, [] => []
  | r, l, a :: accesses =>
    let p := piece cfg r l a
    p :: bodies cfg (r + p.regs) (l + p.labels) accesses

/-- The stubs of some bodies, in the registers from `t` on. A body without a stub has an empty
piece here. -/
def tails (cfg : Config) : Nat → List Piece → List Piece
  | _, [] => []
  | t, p :: ps => p.tail cfg t :: tails cfg (t + (p.tail cfg t).regs) ps

/-- The instructions of some pieces, one after the other. -/
def instrsOf (ps : List Piece) : List Instr := ps.flatMap Piece.instrs

/-- The number of registers of some pieces. -/
def regsOf (ps : List Piece) : Nat := (ps.map Piece.regs).sum

@[simp] theorem instrsOf_nil : instrsOf [] = [] := rfl
@[simp] theorem instrsOf_cons (p : Piece) (ps : List Piece) :
    instrsOf (p :: ps) = p.instrs ++ instrsOf ps := rfl
@[simp] theorem regsOf_nil : regsOf [] = 0 := rfl
@[simp] theorem regsOf_cons (p : Piece) (ps : List Piece) : regsOf (p :: ps) = p.regs + regsOf ps :=
  rfl

/-- Code under construction with pieces appended. -/
def Emitter.addAll (e : Emitter) (ps : List Piece) : Emitter := ps.foldl Emitter.add e

theorem Emitter.addAll_eq (e : Emitter) (ps : List Piece) :
    e.addAll ps = ⟨e.instrs ++ instrsOf ps, e.stubs ++ ps.filterMap Piece.stub,
      e.nextReg + regsOf ps, e.nextLabel + (ps.map Piece.labels).sum⟩ := by
  induction ps generalizing e with
  | nil => simp [addAll]
  | cons p ps ih =>
    have hstep : e.addAll (p :: ps) = (e.add p).addAll ps := rfl
    rw [hstep, ih]
    cases hs : p.stub <;> simp [add, hs, Nat.add_assoc]

theorem emit_bodies {accesses : List Access} (h : ∀ a ∈ accesses, ∀ e,
      emit cfg a e = .ok ((), e.add (piece cfg e.nextReg e.nextLabel a))) (e : Emitter) :
    accesses.foldlM (fun _ access => emit cfg access) () e =
      .ok ((), e.addAll (bodies cfg e.nextReg e.nextLabel accesses)) := by
  induction accesses generalizing e with
  | nil => rfl
  | cons a accesses ih =>
    rw [List.foldlM_cons, Emit.bind_apply, h a List.mem_cons_self, Emit.ok_bind,
      ih fun b hb => h b (List.mem_cons_of_mem a hb)]
    rfl

theorem emit_tails (h : cfg.unlogBits.logRegion ≤ 60) (ps : List Piece) (e : Emitter) :
    (ps.filterMap Piece.stub).foldlM (fun _ stub => emitStub cfg stub) () e =
      .ok ((), e.addAll (tails cfg e.nextReg ps)) := by
  induction ps generalizing e with
  | nil => rfl
  | cons p ps ih =>
    cases hs : p.stub with
    | none =>
      rw [List.filterMap_cons_none hs, ih]
      simp [tails, Piece.tail, hs, Emitter.addAll, Emitter.add, Piece.empty]
    | some stub =>
      rw [List.filterMap_cons_some hs, List.foldlM_cons, Emit.bind_apply, emitStub_eq h,
        Emit.ok_bind, ih]
      simp [tails, Piece.tail, hs, Emitter.addAll, Emitter.add]

/-- The code of some accesses. -/
def codeOfAll (cfg : Config) (accesses : List Access) : Code :=
  let ps := bodies cfg 0 0 accesses
  let qs := tails cfg (regsOf ps) ps
  ⟨instrsOf ps ++ .ret :: instrsOf qs, regsOf ps + regsOf qs⟩

/-- Any accesses compile. -/
theorem compileAll_eq (h : cfg.unlogBits.logRegion ≤ 60) (accesses : List Access) :
    compileAll cfg accesses = .ok (codeOfAll cfg accesses) := by
  simp [compileAll, codeOfAll, StateT.run, finish, emit_bodies fun a _ => emit_eq h a, emit_tails h,
    Emitter.addAll_eq, Emitter.empty]

theorem codeOfAll_singleton (a : Access) : codeOfAll cfg [a] = codeOf cfg a := by
  simp [codeOfAll, codeOf, bodies, tails]

/-! ## Labels -/

/-- The label that an instruction may leave for. -/
def Instr.target? : Instr → Option Label
  | .branch _ _ _ target | .jump target => some target
  | _ => none

/-- Every label that code leaves for is bound in it exactly once. -/
def Code.Linked (code : Code) : Prop :=
  ∀ i ∈ code.instrs, ∀ l, i.target? = some l → code.instrs.count (.bind l) = 1

theorem Code.linked_of_nodup (hd : (boundIn code.instrs).Nodup)
    (h : ∀ i ∈ code.instrs, ∀ l, i.target? = some l → l ∈ boundIn code.instrs) : code.Linked := by
  have hcount : ∀ l, code.instrs.count (.bind l) = (boundIn code.instrs).count l := by
    intro l
    rw [boundIn, List.count_filterMap, List.count]
    refine List.countP_congr fun i _ => ?_
    cases i <;> simp [Instr.bound?]
  intro i hi l hl
  rw [hcount]
  exact Nat.le_antisymm (List.nodup_iff_count.mp hd l) (List.count_pos_iff.mpr (h i hi l hl))

/-- The labels of some bodies, from `l` on. -/
def labelsOf (l : Nat) (ps : List Piece) : List Label :=
  (List.range' l (ps.map Piece.labels).sum).map Label.mk

theorem labelsOf_cons (l : Nat) (p : Piece) (ps : List Piece) :
    labelsOf l (p :: ps) =
      (List.range' l p.labels).map Label.mk ++ labelsOf (l + p.labels) ps := by
  rw [labelsOf, List.map_cons, List.sum_cons, ← List.range'_append_1, List.map_append]
  rfl

theorem perm_interleave {α : Type} (as bs cs ds : List α) :
    ((as ++ bs) ++ (cs ++ ds)).Perm ((as ++ cs) ++ (bs ++ ds)) := by
  rw [List.append_assoc, List.append_assoc, ← List.append_assoc bs, ← List.append_assoc cs]
  exact (List.perm_append_comm.append_right ds).append_left as

/-- Bodies and their stubs bind the labels that the bodies take, each once. -/
theorem boundIn_bodies_perm (accesses : List Access) (r l t : Nat) :
    (boundIn (instrsOf (bodies cfg r l accesses) ++
        instrsOf (tails cfg t (bodies cfg r l accesses)))).Perm
      (labelsOf l (bodies cfg r l accesses)) := by
  induction accesses generalizing r l t with
  | nil => exact .refl _
  | cons a accesses ih =>
    rw [bodies, labelsOf_cons, tails, instrsOf_cons, instrsOf_cons, boundIn_append, boundIn_append,
      boundIn_append]
    refine (perm_interleave _ _ _ _).trans ?_
    rw [← boundIn_append, ← boundIn_append]
    exact (boundIn_piece_perm r l t a).append (ih _ _ _)

theorem targets_lateWrite (src value : Reg) (done : Label) (t : Nat) :
    ∀ i ∈ lateWrite cfg src value done t, ∀ x, i.target? = some x → x = done := by
  cases hf : cfg.fastPath <;> simp [lateWrite, skipCode, hf, bitTest, writeCall, Instr.target?]

/-- A stub leaves for the place at which it comes back, and for no other. -/
theorem targets_stubPiece (t : Nat) (stub : Stub) :
    ∀ i ∈ (stubPiece cfg t stub).instrs, ∀ x, i.target? = some x → x = stub.continuation := by
  obtain ⟨entry, done, kind⟩ := stub
  match kind with
  | .write src (some slot) value => simp [stubPiece, stubBody, writeCall, Instr.target?]
  | .write src none value =>
    simpa [stubPiece, stubBody, Instr.target?, or_imp, forall_and] using
      targets_lateWrite src value done t
  | .load value =>
    cases hm : cfg.loadMode with
    | referenceCall => simp [stubPiece, stubBody, hm, Instr.target?]
    | slotLogging =>
      simpa [stubPiece, stubBody, hm, Instr.target?, or_imp, forall_and] using
        targets_lateWrite value value done t

/-- A label is one of `n` labels from `l` on. -/
def Label.Within (x : Label) (l n : Nat) : Prop := l ≤ x.index ∧ x.index < l + n

/-- A body leaves for labels that it takes, and its stub comes back to one of them. -/
theorem targets_piece (r l : Nat) (a : Access) :
    (∀ i ∈ (piece cfg r l a).instrs, ∀ x, i.target? = some x →
        x.Within l (piece cfg r l a).labels) ∧
      ∀ stub ∈ (piece cfg r l a).stub, stub.continuation.Within l (piece cfg r l a).labels := by
  cases a with
  | store s =>
    simp only [piece]
    split
    · simp only [storePiece]
      cases s.needsPatching <;> cases cfg.fastPath <;>
        simp [bitTest, Instr.target?, Label.Within]
    · simp [Piece.empty]
  | load ld =>
    simp only [piece]
    split
    · split
      · simp [guardedPiece, referentTest, reportPiece, Instr.target?, Label.Within]
        omega
      · simp [reportPiece, Instr.target?, Label.Within]
    · simp [Piece.empty]
  | arrayCopy c =>
    simp only [piece]
    split
    · simp [arrayCopyPiece, Instr.target?, Label.Within]
    · simp [Piece.empty]
  | clone c => cases hf : c.freshTarget <;> simp [piece, clonePiece, hf, Instr.target?]

theorem Label.Within.mem {x : Label} {l n : Nat} (h : x.Within l n) :
    x ∈ (List.range' l n).map Label.mk :=
  List.mem_map.mpr ⟨x.index, List.mem_range'_1.mpr h, rfl⟩

theorem targets_tail (r l t : Nat) (a : Access) :
    ∀ i ∈ ((piece cfg r l a).tail cfg t).instrs, ∀ x, i.target? = some x →
      x.Within l (piece cfg r l a).labels := by
  cases hs : (piece cfg r l a).stub with
  | none => simp [Piece.tail, hs, Piece.empty]
  | some stub =>
    intro i hi x hx
    simp only [Piece.tail, hs] at hi
    rw [targets_stubPiece t stub i hi x hx]
    exact (targets_piece r l a).2 stub hs

/-- Bodies and their stubs leave for labels that the bodies take, and for no others. -/
theorem targets_bodies (accesses : List Access) (r l t : Nat) :
    ∀ i ∈ instrsOf (bodies cfg r l accesses) ++ instrsOf (tails cfg t (bodies cfg r l accesses)),
      ∀ x, i.target? = some x → x ∈ labelsOf l (bodies cfg r l accesses) := by
  induction accesses generalizing r l t with
  | nil => nofun
  | cons a accesses ih =>
    intro i hi x hx
    rw [bodies, tails, instrsOf_cons, instrsOf_cons] at hi
    rw [bodies, labelsOf_cons]
    obtain hi | hi := List.mem_append.mp ((perm_interleave _ _ _ _).mem_iff.mp hi)
    · refine List.mem_append_left _ (Label.Within.mem ?_)
      obtain hi | hi := List.mem_append.mp hi
      · exact (targets_piece r l a).1 i hi x hx
      · exact targets_tail r l t a i hi x hx
    · exact List.mem_append_right _ (ih _ _ _ i hi x hx)

theorem boundIn_codeOfAll_perm (accesses : List Access) :
    (boundIn (codeOfAll cfg accesses).instrs).Perm (labelsOf 0 (bodies cfg 0 0 accesses)) := by
  rw [codeOfAll, boundIn_ret]
  exact boundIn_bodies_perm accesses 0 0 _

theorem nodup_boundIn_codeOfAll (accesses : List Access) :
    (boundIn (codeOfAll cfg accesses).instrs).Nodup :=
  (boundIn_codeOfAll_perm accesses).nodup_iff.mpr (nodup_labels _ _)

theorem linked_codeOfAll (accesses : List Access) : (codeOfAll cfg accesses).Linked := by
  refine Code.linked_of_nodup (nodup_boundIn_codeOfAll accesses) fun i hi x hx => ?_
  rw [(boundIn_codeOfAll_perm accesses).mem_iff]
  simp only [codeOfAll] at hi
  obtain rfl | hi := List.mem_cons.mp (List.perm_middle.mem_iff.mp hi)
  · exact nomatch hx
  · exact targets_bodies accesses 0 0 _ i hi x hx

/-! ## Runs -/

/-- Bodies that stand in code with their stubs do one after the other what the protocol asks of their
accesses, with the operands of one that is run. No place of them is executed twice. -/
theorem acts_bodies (env : Surroundings σ) (h : cfg.unlogBits.logRegion ≤ 60)
    (hd : (boundIn code.instrs).Nodup)
    {accesses : List Access} (hkind : ∀ a ∈ accesses, a.kind = access.kind) {r l pc q t : Nat}
    (hbody : code.At pc (instrsOf (bodies cfg r l accesses)))
    (htail : code.At q (instrsOf (tails cfg t (bodies cfg r l accesses))))
    (hrt : r + regsOf (bodies cfg r l accesses) ≤ t)
    (htr : t + regsOf (tails cfg t (bodies cfg r l accesses)) ≤ code.registers) :
    ∃ visited : List Nat,
      visited.Perm (List.range' pc (instrsOf (bodies cfg r l accesses)).length ++
        List.range' q (instrsOf (tails cfg t (bodies cfg r l accesses))).length) ∧
      ∀ m places k,
        (∀ m', Acts code access env places
          (pc + (instrsOf (bodies cfg r l accesses)).length) m' k) →
        Acts code access env (visited ++ places) pc m
          ((accesses.forM fun a => Protocol.run cfg .baseline env (a.withOperandsOf access)) >>=
            fun _ => k) := by
  induction accesses generalizing r l pc q t with
  | nil => exact ⟨[], .refl _, fun m _ _ hk => hk m⟩
  | cons a accesses ih =>
    rw [bodies, instrsOf_cons, Code.at_append] at hbody
    rw [bodies, tails, instrsOf_cons, Code.at_append] at htail
    simp only [bodies, tails, regsOf_cons] at hrt htr
    have hh : code.Hosts cfg (piece cfg r l a) pc r q t :=
      ⟨hbody.1, htail.1, by omega, by omega⟩
    have hperforms : code.Performs access env cfg (piece cfg r l a) pc q t
        (Protocol.run cfg .baseline env (a.withOperandsOf access)) :=
      hh.performs h hd (a.agreesForBaseline_withOperandsOf access) fun o w hw =>
        Access.operand?_withOperandsOf (hkind a List.mem_cons_self) o ▸ hw
    obtain ⟨first, hfirst, hact⟩ := hperforms
    obtain ⟨rest, hrest, hacts⟩ := ih (fun b hb => hkind b (List.mem_cons_of_mem a hb)) hbody.2
      htail.2 (by omega) (by omega)
    refine ⟨first ++ rest, ?_, ?_⟩
    · simp only [bodies, tails, instrsOf_cons, List.length_append, ← List.range'_append_1]
      exact (hfirst.append hrest).trans (perm_interleave _ _ _ _)
    · intro m places k hk
      rw [List.forM_eq_forM, List.forM_cons, bind_assoc, List.append_assoc]
      refine hact m _ _ fun m' => hacts m' _ _ fun m'' => ?_
      simpa [bodies, Nat.add_assoc] using hk m''

theorem sound_codeOfAll (env : Surroundings σ) (h : cfg.unlogBits.logRegion ≤ 60)
    {accesses : List Access} (hkind : ∀ a ∈ accesses, a.kind = access.kind) :
    ∃ visited : List Nat, visited.Perm (List.range (codeOfAll cfg accesses).instrs.length) ∧
      Sound (codeOfAll cfg accesses) access env [] visited 0
        (.zeroed (codeOfAll cfg accesses).registers)
        (accesses.forM fun a => Protocol.run cfg .baseline env (a.withOperandsOf access)) := by
  let ps := bodies cfg 0 0 accesses
  let qs := tails cfg (regsOf ps) ps
  have hbody : (codeOfAll cfg accesses).At 0 (instrsOf ps) := Code.at_of_instrs_eq [] _ _ rfl
  have hret : (codeOfAll cfg accesses).instrs[0 + (instrsOf ps).length]? = some .ret := by
    simp [codeOfAll, ps]
  have htail : (codeOfAll cfg accesses).At ((instrsOf ps).length + 1) (instrsOf qs) := by
    have hat := (codeOfAll cfg accesses).at_of_instrs_eq (instrsOf ps ++ [.ret]) (instrsOf qs) []
      (by simp [codeOfAll, ps, qs])
    simpa using hat
  obtain ⟨visited, hperm, hacts⟩ := acts_bodies env h (nodup_boundIn_codeOfAll accesses) hkind hbody
    htail (Nat.le_of_eq (Nat.zero_add _)) (Nat.le_refl _)
  have hact := hacts .nothing [0 + (instrsOf ps).length] (pure ()) fun m => .ret hret
  rw [bind_pure_unit] at hact
  refine ⟨_, ?_, hact.sound .nothing Known.isOf_nothing⟩
  have hlen : (codeOfAll cfg accesses).instrs.length =
      (instrsOf ps).length + 1 + (instrsOf qs).length := by
    simp [codeOfAll, ps, qs]
    omega
  rw [hlen, List.range_eq_range', ← List.range'_append_1, Nat.zero_add ((instrsOf ps).length + 1)]
  exact perm_stretch hperm

theorem run_codeOfAll (env : Surroundings σ) (h : cfg.unlogBits.logRegion ≤ 60)
    {accesses : List Access} (hkind : ∀ a ∈ accesses, a.kind = access.kind) :
    (codeOfAll cfg accesses).run env access =
      accesses.forM fun a => Protocol.run cfg .baseline env (a.withOperandsOf access) := by
  obtain ⟨visited, hperm, hsound⟩ := sound_codeOfAll env h hkind
  exact hsound.runs _ (Nat.le_of_eq (by rw [hperm.length_eq, List.length_range]))

/-- The code of an access follows the protocol for the operands of any access of its kind. -/
theorem run_compile {a : Access} (h : cfg.unlogBits.logRegion ≤ 60) (hkind : a.kind = access.kind) :
    (do (← Act.lift (compile cfg a)).run env access) =
      Protocol.run cfg .baseline env (a.withOperandsOf access) := by
  have hrun := run_codeOfAll env h (List.forall_mem_singleton.mpr hkind)
  rw [compile_eq h, Act.lift_ok, pure_bind, ← codeOfAll_singleton, hrun, List.forM_eq_forM,
    List.forM_cons, List.forM_nil, bind_pure_unit]

/-- A run of code for an access executes the places of its trail: none of them twice, and none that
does not exist. It looks into no register that it has not written, and it is over after as many steps
as there are instructions. -/
structure Code.RunsOnce (code : Code) (access : Access) (env : Surroundings σ) : Prop where
  executes : ∀ s, Executes code access env 0 (.zeroed code.registers) s
    (trail code access env code.instrs.length 0 (.zeroed code.registers) s) (code.run env access s)
  nodup : ∀ fuel s, (trail code access env fuel 0 (.zeroed code.registers) s).Nodup
  supplied : ∀ fuel s, code.Supplies [] (trail code access env fuel 0 (.zeroed code.registers) s)
  halts : ∀ fuel, code.instrs.length ≤ fuel →
    runFrom code access env fuel 0 (.zeroed code.registers) = code.run env access

theorem runsOnce_codeOfAll (h : cfg.unlogBits.logRegion ≤ 60) {accesses : List Access}
    (hkind : ∀ a ∈ accesses, a.kind = access.kind) :
    (codeOfAll cfg accesses).RunsOnce access env := by
  obtain ⟨visited, hperm, hsound⟩ := sound_codeOfAll env h hkind
  have hlen : visited.length = (codeOfAll cfg accesses).instrs.length := by
    rw [hperm.length_eq, List.length_range]
  have hexecutes := fun s => hsound.executes s (Nat.le_of_eq hlen)
  rw [← run_codeOfAll env h hkind] at hexecutes
  constructor
  · exact hexecutes
  · intro fuel s
    exact (hperm.nodup_iff.mpr List.nodup_range).sublist (hsound.within fuel s)
  · exact hsound.supplied
  · intro fuel hfuel
    funext s
    -- no more places are executed than there are
    have hplaces := (hsound.within (codeOfAll cfg accesses).instrs.length s).length_le
    exact (hexecutes s).runFrom_eq (Nat.le_trans hplaces (hlen ▸ hfuel))

theorem forM_congr {xs : List Access} {f g : Access → Act σ Unit} (h : ∀ x ∈ xs, f x = g x) :
    xs.forM f = xs.forM g := by
  induction xs with
  | nil => rfl
  | cons x xs ih =>
    simp only [List.forM_eq_forM, List.forM_cons, h x List.mem_cons_self]
    congr 1
    funext u
    exact ih fun y hy => h y (List.mem_cons_of_mem x hy)

end Machine
end HeapBridge.Barrier
