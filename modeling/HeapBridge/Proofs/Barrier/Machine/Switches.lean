import HeapBridge.Proofs.Barrier.Machine.Sequence
import HeapBridge.Proofs.Barrier.Switches

/-!
# What the switches leave to linear code

No instruction that the generator appends takes a step that the switches keep from barriers, so it
does not matter where a run goes. That loads are calm while marking is off is a matter of where it
goes: the stubs could call the collector, but nothing in the bodies leaves for them. Nothing here
depends on the width of a region, so code may fail to be generated or fail in a shift.
-/
namespace HeapBridge.Barrier.Machine
variable {σ : Type} {ok : Event → Prop} {inv : σ → Prop} {cfg : Config} {env : Surroundings σ}
  {code : Code} {access : Access}

/-! ## Steps -/

/-- The steps that an instruction may take of the surroundings. -/
def Instr.MayTake : Instr → Event → Prop
  | .loadByte .., e => ∃ a, e = .loadMetadata a
  | .loadFlag _, e => e = .loadFlag
  | .isReference .., e => ∃ o, e = .checkReference o
  | .call entry _, e => ∃ c : Call, c.entry = entry ∧ e = .call c
  | .copy .., e => ∃ src dst size, e = .copy src dst size
  | .fence, e => e = .fence
  | .arg .., _ | .move .., _ | .shiftRight .., _ | .mask .., _ | .branch .., _ | .jump _, _
  | .bind _, _ | .ret, _ => False

/-- Where an instruction at `pc` may go on, with the registers that it finds. -/
def Instr.GoesTo (code : Code) (pc : Nat) (rs : Registers) (i : Instr) :
    Option (Nat × Registers) → Prop
  | none => i = .ret
  | some (next, _) =>
    match i with
    | .branch cond lhs rhs target =>
      ∃ l r, rs.get lhs = .ok l ∧ rs.read rhs = .ok r ∧
        next = if cond.holds l r then code.placeOf target else pc + 1
    | .jump target => next = code.placeOf target
    | .ret => False
    | _ => next = pc + 1

theorem confined_step (henv : env.Keeps ok inv) {pc : Nat} {i : Instr}
    (hi : code.instrs[pc]? = some i) (h : ∀ e, i.MayTake e → ok e) (rs : Registers) :
    Confined ok inv (step code access env.traced pc rs) (i.GoesTo code pc rs) := by
  simp only [step, hi]
  cases i with
  | arg dst operand =>
    dsimp only
    split
    · exact .bind (.lift_any _) fun _ _ => .pure rfl
    · exact .throw _
  | move dst src => exact .bind (.lift_any _) fun _ _ => .bind (.lift_any _) fun _ _ => .pure rfl
  | shiftRight dst amount =>
    refine .bind (.lift_any _) fun _ _ => .bind (.lift_any _) fun _ _ => ?_
    exact .bind (.lift_any _) fun _ _ => .bind (.lift_any _) fun _ _ => .pure rfl
  | mask dst bits =>
    refine .bind (.lift_any _) fun _ _ => .bind (.lift_any _) fun _ _ => ?_
    exact .bind (.lift_any _) fun _ _ => .pure rfl
  | loadByte dst base index =>
    refine .bind (.lift_any _) fun b _ => .bind (.lift_any _) fun i _ => ?_
    refine .bind (henv.confined_loadMetadata (h _ ⟨_, rfl⟩)) fun _ _ => ?_
    exact .bind (.lift_any _) fun _ _ => .pure rfl
  | loadFlag dst =>
    refine .bind (henv.confined_loadFlag (h _ rfl)) fun _ _ => ?_
    exact .bind (.lift_any _) fun _ _ => .pure rfl
  | isReference dst object =>
    refine .bind (.lift_any _) fun o _ => ?_
    refine .bind (henv.confined_isReference (h _ ⟨_, rfl⟩)) fun _ _ => ?_
    exact .bind (.lift_any _) fun _ _ => .pure rfl
  | branch cond lhs rhs target =>
    refine .bind (.lift fun l hl => hl) fun l hl => .bind (.lift fun r hr => hr) fun r hr => ?_
    exact .ite (fun hc => .pure ⟨l, r, hl, hr, (if_pos hc).symm⟩)
      fun hc => .pure ⟨l, r, hl, hr, (if_neg hc).symm⟩
  | jump target => exact .pure rfl
  | bind label => exact .pure rfl
  | call entry args =>
    refine .bind (.lift_any _) fun words _ => ?_
    cases hc : entry.bind? words with
    | none => exact .bind (.throw _) fun _ (_ : True) => .pure rfl
    | some c =>
      exact .bind (henv.confined_call (h _ ⟨c, Entry.entry_of_bind? hc, rfl⟩)) fun _ _ => .pure rfl
  | copy src dst size =>
    refine .bind (.lift_any _) fun s _ => .bind (.lift_any _) fun d _ => ?_
    refine .bind (.lift_any _) fun n _ => ?_
    exact .bind (henv.confined_copy (h _ ⟨s, d, n, rfl⟩)) fun _ _ => .pure rfl
  | fence => exact .bind (henv.confined_fence (h _ rfl)) fun _ _ => .pure rfl
  | ret => exact .pure rfl

/-- Code whose instructions may all be executed is confined wherever it begins. -/
theorem confined_runFrom (henv : env.Keeps ok inv) (h : ∀ i ∈ code.instrs, ∀ e, i.MayTake e → ok e)
    (fuel pc : Nat) (rs : Registers) :
    Confined ok inv (runFrom code access env.traced fuel pc rs) fun _ => True := by
  induction fuel generalizing pc rs with
  | zero => exact .throw _
  | succ fuel ih =>
    rw [runFrom]
    have hstep : Confined ok inv (step code access env.traced pc rs) fun _ => True := by
      cases hi : code.instrs[pc]? with
      | none =>
        simp only [step, hi]
        exact .throw _
      | some i =>
        exact (confined_step henv hi (h i (List.mem_of_getElem? hi)) rs).mono fun _ _ => trivial
    refine .bind hstep fun next _ => ?_
    split
    · exact ih _ _
    · exact .any _

/-! ## Generation -/

/-- Whether the switches leave an instruction to compiled code. -/
def Instr.isAllowed (cfg : Config) : Instr → Bool
  | .loadByte .. => cfg.fastPath
  | .call entry _ => entry.isAllowed cfg
  | _ => true

theorem Instr.isAllowed_of_mayTake {i : Instr} (hi : i.isAllowed cfg = true) {e : Event}
    (he : i.MayTake e) : e.isAllowed cfg = true := by
  cases i with
  | loadByte dst base index =>
    obtain ⟨a, rfl⟩ := he
    exact hi
  | call entry args =>
    obtain ⟨c, hc, rfl⟩ := he
    rwa [Event.isAllowed, hc]
  | loadFlag dst | fence =>
    cases he
    rfl
  | isReference dst object =>
    obtain ⟨o, rfl⟩ := he
    rfl
  | copy src dst size =>
    obtain ⟨s, d, n, rfl⟩ := he
    rfl
  | arg | move | shiftRight | mask | branch | jump | bind | ret => exact he.elim

/-- Code under construction behind some `start`. All of it is allowed, and stubs of loads stand there
only if loads have barriers. -/
structure Emitter.Fits (cfg : Config) (start : List Instr) (e : Emitter) : Prop where
  grown : ∃ new, e.instrs = start ++ new ∧ ∀ i ∈ new, i.isAllowed cfg = true
  stubs : ∀ stub ∈ e.stubs, ∀ value, stub.kind = .load value → cfg.loadBarrier = true

namespace Emit
variable {α β : Type} {start : List Instr}

theorem loop_eq_foldlM (xs : List α) (f : α → Emit Unit) :
    (forIn xs () fun x _ => do
      f x
      return .yield ()) = xs.foldlM (fun _ x => f x) () := by
  simp

/-- A step of generation that adds none but allowed code. -/
def Obeys (cfg : Config) (start : List Instr) (act : Emit α) : Prop :=
  ∀ e a e', act e = .ok (a, e') → e.Fits cfg start → e'.Fits cfg start

namespace Obeys

theorem pure (a : α) : Obeys cfg start (Pure.pure a) := by
  rintro e _ _ ⟨⟩ he
  exact he

theorem lift (x : Except Fault α) : Obeys cfg start (liftM x) := by
  intro e a e' h he
  cases x with
  | error f => cases h
  | ok y =>
    cases h
    exact he

theorem bind {act : Emit α} {f : α → Emit β} (h : Obeys cfg start act)
    (hf : ∀ a, Obeys cfg start (f a)) : Obeys cfg start (act >>= f) := by
  intro e b e' hrun he
  obtain ⟨⟨a, between⟩, hact, hrest⟩ := exists_of_bind hrun
  exact hf a between b e' hrest (h e a between hact he)

theorem ite {c : Prop} [Decidable c] {act act' : Emit α} (h : c → Obeys cfg start act)
    (h' : ¬c → Obeys cfg start act') : Obeys cfg start (if c then act else act') := by
  split
  · exact h ‹_›
  · exact h' ‹_›

/-- A loop adds allowed code if each of its rounds does. -/
theorem loop {xs : List α} {f : α → Emit Unit} (h : ∀ x ∈ xs, Obeys cfg start (f x)) :
    Obeys cfg start (forIn xs () fun x _ => do
      f x
      return .yield ()) := by
  rw [loop_eq_foldlM]
  induction xs with
  | nil => exact .pure _
  | cons x xs ih =>
    rw [List.foldlM_cons]
    exact .bind (h x List.mem_cons_self) fun _ => ih fun y hy => h y (List.mem_cons_of_mem x hy)

theorem push {i : Instr} (hi : i.isAllowed cfg = true) : Obeys cfg start (push i) := by
  rintro e _ _ ⟨⟩ ⟨⟨new, hnew, hallowed⟩, hstubs⟩
  refine ⟨⟨new ++ [i], by simp [hnew], ?_⟩, hstubs⟩
  simpa [or_imp, forall_and, hi] using hallowed

theorem newReg : Obeys cfg start newReg := by
  rintro e _ _ ⟨⟩ he
  exact ⟨he.grown, he.stubs⟩

theorem newLabel : Obeys cfg start newLabel := by
  rintro e _ _ ⟨⟩ he
  exact ⟨he.grown, he.stubs⟩

theorem arg (operand : Operand) : Obeys cfg start (arg operand) :=
  .bind .newReg fun _ => .bind (.push rfl) fun _ => .pure _

theorem addStub {kind : StubKind} (h : ∀ value, kind = .load value → cfg.loadBarrier = true) :
    Obeys cfg start (addStub kind) := by
  rintro e _ _ ⟨⟩ ⟨hgrown, hstubs⟩
  refine ⟨hgrown, fun stub hstub => ?_⟩
  obtain hstub | hstub := List.mem_append.mp hstub
  · exact hstubs stub hstub
  · rw [List.mem_singleton.mp hstub]
    exact h

end Obeys

/-! ### Barriers -/

theorem obeys_unlogBit (hf : cfg.fastPath = true) (slot : Reg) :
    Obeys cfg start (unlogBit cfg slot) := by
  refine .bind .newReg fun _ => .bind (.push rfl) fun _ => .bind (.lift _) fun _ => ?_
  refine .bind (.push rfl) fun _ => .bind .newReg fun _ => .bind (.push rfl) fun _ => ?_
  refine .bind .newReg fun _ => .bind (.push hf) fun _ => .bind .newReg fun _ => ?_
  refine .bind (.push rfl) fun _ => .bind (.push rfl) fun _ => .bind (.push rfl) fun _ => ?_
  exact .bind (.push rfl) fun _ => .bind (.push rfl) fun _ => .pure _

theorem obeys_emitStore (s : Store) : Obeys cfg start (emitStore cfg s) := by
  refine .ite (fun _ => .bind (.arg _) fun src => .bind (.arg _) fun value => ?_) fun _ => .pure _
  refine .ite (fun _ => ?_) fun _ => .bind (.arg _) fun slot => ?_
  · exact .bind (.addStub nofun) fun _ => .bind (.push rfl) fun _ => .push rfl
  · refine .bind (.addStub nofun) fun _ => .ite (fun hf => ?_) fun _ => ?_
    · exact .bind (obeys_unlogBit hf slot) fun _ => .bind (.push rfl) fun _ => .push rfl
    · exact .bind (.push rfl) fun _ => .push rfl

theorem obeys_emitReport (hl : cfg.loadBarrier = true) : Obeys cfg start emitReport := by
  refine .bind (.arg _) fun value => .bind (.addStub fun _ _ => hl) fun _ => ?_
  refine .bind .newReg fun _ => .bind (.push rfl) fun _ => ?_
  exact .bind (.push rfl) fun _ => .push rfl

theorem obeys_referentCheck (done : Label) : Obeys cfg start (referentCheck cfg done) := by
  refine .bind (.arg _) fun _ => .bind (.push rfl) fun _ => .bind (.arg _) fun _ => ?_
  exact .bind .newReg fun _ => .bind (.push rfl) fun _ => .push rfl

theorem obeys_emitLoad (l : Load) : Obeys cfg start (emitLoad cfg l) := by
  refine .ite (fun hneeds => ?_) fun _ => .pure _
  have hl := Load.loadBarrier_of_needsBarrier hneeds
  refine .ite (fun _ => .bind .newLabel fun done => ?_) fun _ => obeys_emitReport hl
  refine .bind (obeys_referentCheck done) fun _ => ?_
  exact .bind (obeys_emitReport hl) fun _ => .push rfl

theorem obeys_emitArrayCopy (c : ArrayCopy) : Obeys cfg start (emitArrayCopy cfg c) := by
  refine .ite (fun hc => ?_) fun _ => .pure _
  simp only [Bool.and_eq_true] at hc
  refine .bind .newLabel fun _ => .bind (.arg _) fun _ => .bind (.push rfl) fun _ => ?_
  refine .bind (.arg _) fun _ => .bind (.arg _) fun _ => .bind (.push hc.2) fun _ => .push rfl

theorem obeys_emitClone (c : Clone) : Obeys cfg start (emitClone c) := by
  refine .bind (.arg _) fun _ => .bind (.arg _) fun _ => .bind (.arg _) fun _ => ?_
  refine .bind (.push rfl) fun _ => .ite (fun _ => ?_) fun _ => .pure _
  exact .bind (.push rfl) fun _ => .push rfl

theorem obeys_emit (a : Access) : Obeys cfg start (emit cfg a) := by
  cases a with
  | store s => exact obeys_emitStore s
  | load l => exact obeys_emitLoad l
  | arrayCopy c => exact obeys_emitArrayCopy c
  | clone c => exact obeys_emitClone c

theorem obeys_skipIfLogged (slot : Reg) (done : Label) :
    Obeys cfg start (skipIfLogged cfg slot done) :=
  .ite (fun hf => .bind (obeys_unlogBit hf slot) fun _ => .push rfl) fun _ => .pure _

theorem obeys_callWrite (src slot value : Reg) : Obeys cfg start (callWrite cfg src slot value) := by
  refine .push ?_
  cases hf : cfg.fastPath <;> simp [Instr.isAllowed, Entry.isAllowed, hf]

theorem obeys_emitStub {stub : Stub}
    (h : ∀ value, stub.kind = .load value → cfg.loadBarrier = true) :
    Obeys cfg start (emitStub cfg stub) := by
  obtain ⟨entry, done, kind⟩ := stub
  refine .bind (.push rfl) fun _ => ?_
  match kind with
  | .write src (some slot) value => exact .bind (obeys_callWrite _ _ _) fun _ => .push rfl
  | .write src none value =>
    refine .bind (.arg _) fun slot => .bind (obeys_skipIfLogged _ _) fun _ => ?_
    exact .bind (obeys_callWrite _ _ _) fun _ => .push rfl
  | .load value =>
    refine .bind (.push rfl) fun _ => ?_
    cases cfg.loadMode with
    | referenceCall => exact .bind (.push (h value rfl)) fun _ => .push rfl
    | slotLogging =>
      refine .bind (.arg _) fun slot => .bind (obeys_skipIfLogged _ _) fun _ => ?_
      exact .bind (obeys_callWrite _ _ _) fun _ => .push rfl

end Emit

/-- What ends some bodies lies behind them. -/
theorem exists_of_finish {start : List Instr} {e e' : Emitter} {u : Unit} (he : e.Fits cfg start)
    (h : finish cfg e = .ok (u, e')) :
    ∃ rest, e'.instrs = e.instrs ++ .ret :: rest ∧ ∀ i ∈ rest, i.isAllowed cfg = true := by
  have hstubs : Emit.Obeys cfg (e.instrs ++ [.ret]) (do for stub in e.stubs do emitStub cfg stub) :=
    .bind (.loop fun stub hs => Emit.obeys_emitStub (he.stubs stub hs)) fun _ => .pure _
  have hfits : Emitter.Fits cfg (e.instrs ++ [.ret]) { e with instrs := e.instrs ++ [.ret] } :=
    ⟨⟨[], (List.append_nil _).symm, nofun⟩, he.stubs⟩
  obtain ⟨rest, hrest, hallowed⟩ := (hstubs _ u e' h hfits).grown
  exact ⟨rest, by simp [hrest], hallowed⟩

/-- Code comes about in two parts: the bodies, and what ends them and lies behind them. All of it is
allowed. -/
theorem exists_of_compileAll {accesses : List Access} (h : compileAll cfg accesses = .ok code) :
    ∃ e rest, accesses.foldlM (fun _ access => emit cfg access) () .empty = .ok ((), e) ∧
      code.instrs = e.instrs ++ .ret :: rest ∧ ∀ i ∈ code.instrs, i.isAllowed cfg = true := by
  obtain ⟨⟨v, e'⟩, hrun, hcode⟩ := exists_of_bind h
  obtain ⟨⟨u, e⟩, hbodies, hfinish⟩ := exists_of_bind hrun
  cases hcode
  have hempty : Emitter.empty.Fits cfg [] := ⟨⟨[], rfl, nofun⟩, nofun⟩
  have hfits := Emit.Obeys.loop (fun a _ => Emit.obeys_emit a) .empty u e hbodies hempty
  obtain ⟨rest, hrest, hallowed⟩ := exists_of_finish hfits hfinish
  obtain ⟨new, hnew, hallowed'⟩ := hfits.grown
  refine ⟨e, rest, ?_, hrest, ?_⟩
  · rw [← Emit.loop_eq_foldlM]
    exact hbodies
  · simp only [hrest, hnew]
    simpa [or_imp, forall_and, Instr.isAllowed] using ⟨hallowed', hallowed⟩

/-- Compiled code takes none but allowed steps, for whatever access it is run. -/
theorem confined_code (hok : ∀ e : Event, e.isAllowed cfg = true → ok e) (henv : env.Keeps ok inv)
    {accesses : List Access} (h : compileAll cfg accesses = .ok code) (access : Access) :
    Confined ok inv (code.run env.traced access) fun _ => True := by
  obtain ⟨e, rest, hbodies, hinstrs, hallowed⟩ := exists_of_compileAll h
  have hi : ∀ i ∈ code.instrs, ∀ e, i.MayTake e → ok e :=
    fun i hi e he => hok e (i.isAllowed_of_mayTake (hallowed i hi) he)
  exact confined_runFrom henv hi _ _ _

/-! ## Loads while marking is off -/

/-- From `pc` on, however long it is executed, code does nothing but look. -/
def Calm (code : Code) (access : Access) (env : Surroundings σ) (off : σ → Prop) (pc : Nat)
    (rs : Registers) : Prop :=
  ∀ fuel, Confined (·.isLook = true) off (runFrom code access env.traced fuel pc rs) fun _ => True

theorem Registers.get_of_set {rs rs' : Registers} {r : Reg} {w : Word} (h : rs.set r w = .ok rs') :
    rs'.get r = .ok w := by
  rw [set] at h
  split at h
  · cases h
    simp only [get, if_pos ‹_›, if_true]
  · cases h

namespace Calm
variable {off : σ → Prop} {pc : Nat} {rs : Registers}

theorem of_step {post : Option (Nat × Registers) → Prop}
    (h : Confined (·.isLook = true) off (step code access env.traced pc rs) post)
    (hk : ∀ next rs', post (some (next, rs')) → Calm code access env off next rs') :
    Calm code access env off pc rs := by
  intro fuel
  cases fuel with
  | zero => exact .throw _
  | succ fuel =>
    rw [runFrom]
    refine .bind h fun next hnext => ?_
    cases next with
    | none => exact .any _
    | some next => exact hk next.1 next.2 hnext fuel

/-- An instruction that may only look, and what follows it. -/
theorem look (h : env.IsOff off) {i : Instr} (hi : code.instrs[pc]? = some i)
    (hlook : ∀ e, i.MayTake e → e.isLook = true)
    (hk : ∀ next rs', i.GoesTo code pc rs (some (next, rs')) → Calm code access env off next rs') :
    Calm code access env off pc rs :=
  of_step (confined_step h.keeps hi hlook rs) hk

/-- An instruction that goes on behind itself. -/
theorem next (h : env.IsOff off) {i : Instr} (hi : code.instrs[pc]? = some i)
    (hlook : ∀ e, i.MayTake e → e.isLook = true)
    (hnext : ∀ next rs', i.GoesTo code pc rs (some (next, rs')) → next = pc + 1)
    (hk : ∀ rs, Calm code access env off (pc + 1) rs) : Calm code access env off pc rs :=
  look h hi hlook fun next rs' hgoes => hnext next rs' hgoes ▸ hk rs'

/-- A branch of which nothing is known. -/
theorem branch (h : env.IsOff off) {cond : Cond} {lhs : Reg} {rhs : Source} {target : Label}
    (hi : code.instrs[pc]? = some (.branch cond lhs rhs target))
    (ht : ∀ rs, Calm code access env off (code.placeOf target) rs)
    (hf : ∀ rs, Calm code access env off (pc + 1) rs) : Calm code access env off pc rs := by
  refine look h hi (fun _ => False.elim) fun next rs' hgoes => ?_
  obtain ⟨l, r, -, -, rfl⟩ := hgoes
  split
  · exact ht rs'
  · exact hf rs'

/-- While marking is off, nobody leaves behind a look at the flag. -/
theorem flag (h : env.IsOff off) {f : Reg} {target : Label}
    (hload : code.instrs[pc]? = some (.loadFlag f))
    (hbranch : code.instrs[pc + 1]? = some (.branch .notEqual f (.imm 0) target))
    (hk : ∀ rs, Calm code access env off (pc + 2) rs) : Calm code access env off pc rs := by
  have hstep : Confined (·.isLook = true) off (step code access env.traced pc rs) fun next =>
      ∀ n rs', next = some (n, rs') → n = pc + 1 ∧ rs'.get f = .ok 0 := by
    simp only [step, hload]
    refine .bind h.confined_loadFlag fun flag hz => ?_
    refine .bind (.lift fun rs' hset => hset) fun rs' hset => .pure ?_
    rintro _ _ ⟨⟩
    rw [Registers.get_of_set hset, hz]
    exact ⟨rfl, rfl⟩
  refine .of_step hstep fun n rs' hn => ?_
  obtain ⟨rfl, hzero⟩ := hn n rs' rfl
  refine .look h hbranch (fun _ => False.elim) fun next rs'' hgoes => ?_
  obtain ⟨l, r, hl, hr, rfl⟩ := hgoes
  obtain rfl : 0 = l := Except.ok.inj (hzero.symm.trans hl)
  obtain rfl : 0 = r := Except.ok.inj hr
  exact hk rs''

theorem report (h : env.IsOff off) {r l : Nat} (hat : code.At pc (reportPiece r l).instrs)
    (hk : ∀ rs, Calm code access env off (pc + 4) rs) : Calm code access env off pc rs := by
  obtain ⟨h0, h1, h2, h3, -⟩ := hat
  refine .next h h0 (fun _ => False.elim) (fun _ _ => id) fun rs => .flag h h1 h2 fun rs => ?_
  exact .next h h3 (fun _ => False.elim) (fun _ _ => id) hk

theorem guarded (h : env.IsOff off) {r l : Nat} (hat : code.At pc (guardedPiece cfg r l).instrs)
    (hplace : code.placeOf ⟨l⟩ = pc + 9) (hk : ∀ rs, Calm code access env off (pc + 10) rs) :
    Calm code access env off pc rs := by
  simp only [guardedPiece, Code.at_append] at hat
  obtain ⟨⟨⟨h0, h1, h2, h3, h4, -⟩, hreport⟩, h5, -⟩ := hat
  have hend : ∀ rs, Calm code access env off (pc + 9) rs := fun rs =>
    .next h h5 (fun _ => False.elim) (fun _ _ => id) hk
  have hdone : ∀ rs, Calm code access env off (code.placeOf ⟨l⟩) rs := hplace ▸ hend
  refine .next h h0 (fun _ => False.elim) (fun _ _ => id) fun rs => .branch h h1 hdone fun rs => ?_
  refine .next h h2 (fun _ => False.elim) (fun _ _ => id) fun rs => ?_
  refine .next h h3 ?_ (fun _ _ => id) fun rs => .branch h h4 hdone fun rs => ?_
  · rintro e ⟨o, rfl⟩
    rfl
  · exact .report h hreport hend

/-- The body of a load does nothing but look. -/
theorem body (h : env.IsOff off) {ld : Load} {r l : Nat}
    (hat : code.At pc (piece cfg r l (.load ld)).instrs)
    (hplace : ∀ p x, p < pc + (piece cfg r l (.load ld)).instrs.length →
      code.instrs[p]? = some (.bind x) → code.placeOf x = p)
    (hk : ∀ rs, Calm code access env off (pc + (piece cfg r l (.load ld)).instrs.length) rs) :
    Calm code access env off pc rs := by
  simp only [piece] at hat hplace hk
  split at hat
  · rename_i hneeds
    simp only [hneeds, if_true] at hplace hk
    split at hat
    · rename_i hu
      simp only [hu, if_true] at hplace hk
      refine .guarded h hat (hplace _ _ (Nat.lt_succ_self _) ?_) hk
      exact ((Code.at_append.mp hat).2).1
    · rename_i hu
      simp only [hu, if_false] at hk
      exact .report h hat hk
  · rename_i hneeds
    simp only [hneeds] at hk
    exact hk rs

/-- The bodies of loads do nothing but look, as long as each of their labels is found where it is
bound. -/
theorem bodies (h : env.IsOff off) {n : Nat}
    (hplace : ∀ p x, p < n → code.instrs[p]? = some (.bind x) → code.placeOf x = p)
    {accesses : List Access} (hload : ∀ a ∈ accesses, a.kind = .load) {r l : Nat}
    (hat : code.At pc (instrsOf (Machine.bodies cfg r l accesses)))
    (hn : pc + (instrsOf (Machine.bodies cfg r l accesses)).length ≤ n)
    (hk : ∀ rs, Calm code access env off
      (pc + (instrsOf (Machine.bodies cfg r l accesses)).length) rs) :
    Calm code access env off pc rs := by
  induction accesses generalizing pc r l rs with
  | nil => exact hk rs
  | cons a accesses ih =>
    match a, hload a List.mem_cons_self with
    | .load ld, _ =>
      rw [Machine.bodies, instrsOf_cons, Code.at_append] at hat
      simp only [Machine.bodies, instrsOf_cons, List.length_append, ← Nat.add_assoc] at hn hk
      refine .body h hat.1 (fun p x hp => hplace p x (by omega)) fun rs => ?_
      exact ih (fun b hb => hload b (List.mem_cons_of_mem _ hb)) hat.2 hn hk

end Calm

/-- A label that is bound in one stretch of code is found there if nothing before it binds it. -/
theorem Code.placeOf_of_append {is rest : List Instr} (hcode : code.instrs = is ++ rest)
    (hd : (boundIn is).Nodup) {p : Nat} {x : Label} (hp : p < is.length)
    (hx : code.instrs[p]? = some (.bind x)) : code.placeOf x = p := by
  rw [hcode, List.getElem?_append_left hp] at hx
  rw [Code.placeOf, Code.placeOf?, hcode, List.findIdx?_append, findIdx?_bind hd hx]
  rfl

/-- The code of loads does nothing but look while marking is off, for whatever access it is run. -/
theorem confined_code_of_loads {off : σ → Prop} (h : env.IsOff off) {accesses : List Access}
    (hload : ∀ a ∈ accesses, a.kind = .load) (hcode : compileAll cfg accesses = .ok code)
    (access : Access) :
    Confined (·.isLook = true) off (code.run env.traced access) fun _ => True := by
  obtain ⟨e, rest, hbodies, hinstrs, -⟩ := exists_of_compileAll hcode
  have hemit : ∀ a ∈ accesses, ∀ e : Emitter,
      emit cfg a e = .ok ((), e.add (piece cfg e.nextReg e.nextLabel a)) := by
    intro a ha e
    match a, hload a ha with
    | .load l, _ => exact emit_load_eq cfg l e
  rw [emit_bodies hemit, Emitter.addAll_eq] at hbodies
  cases hbodies
  have hbody : code.instrs = instrsOf (bodies cfg 0 0 accesses) ++ .ret :: rest := hinstrs
  have hbound := (@boundIn_bodies_perm cfg accesses 0 0 0).nodup_iff.mpr (nodup_labels _ _)
  rw [boundIn_append, List.nodup_append] at hbound
  have hret : code.instrs[0 + (instrsOf (bodies cfg 0 0 accesses)).length]? = some .ret := by
    simp [hbody]
  refine Calm.bodies h (fun p x hp hx => Code.placeOf_of_append hbody hbound.1 hp hx) hload
    (Code.at_of_instrs_eq [] _ _ hbody) (Nat.le_of_eq (Nat.zero_add _)) (fun rs => ?_) _
  exact .look h hret (fun _ => False.elim) fun _ _ hgoes => hgoes.elim

end HeapBridge.Barrier.Machine
