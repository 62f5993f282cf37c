import HeapBridge.Barrier.Graph
import HeapBridge.Proofs.Barrier.Facts
import HeapBridge.Proofs.Barrier.Protocol

/-!
# Graphs follow the protocol

What the optimizing compiler builds is read as the action that its statements perform. `Renders`
says so of a step of construction, and each way of building keeps it: one after the other, one
guarded by a test of the other, one call. The main statement is `ofAccess_refines_protocol`.
-/
namespace HeapBridge.Barrier.Graph
open Build Metadata UnlogBits
variable {σ : Type} {cfg : Config} {access : Access}

/-! ## Expressions -/

/-- An expression has a word without asking the surroundings for anything. -/
def Is (access : Access) (n : Node) (w : Word) : Prop :=
  ∀ {σ : Type} (env : Surroundings σ), eval env access n = pure w

theorem is_input {operand : Operand} {w : Word} (h : access.operand? operand = some w) :
    Is access (.input operand) w := by
  intro σ env
  simp [eval, h]

/-- The bit that the compiler computes of a slot, before it is compared. -/
def bitNode (cfg : Config) (slot : Node) : Node :=
  .mask (.shiftRight
    (.loadByte (.add (.con cfg.unlogBits.base)
      (.shiftRight slot (.con (cfg.unlogBits.logRegion + 3).toUInt64))))
    (.mask (.shiftRight slot (.con cfg.unlogBits.logRegion.toUInt64)) (.con 7))) (.con 1)

theorem eval_bitNode (h : cfg.unlogBits.logRegion ≤ 60) {slot : Node} {x : Address}
    (hx : Is access slot x) (env : Surroundings σ) :
    eval env access (bitNode cfg slot) = (do
      let byte ← env.loadMetadata (cfg.unlogBits.home (cfg.unlogBits.region x))
      pure (if testBit byte (place (cfg.unlogBits.region x)) then 1 else 0)) := by
  simp only [bitNode, eval, hx env, shiftRight_logPerByte h, shiftRight_logRegion h,
    Word.shiftRight_of_lt (and_seven_lt _), Act.lift_ok, pure_bind, bind_assoc, word_bit_eq, home]

/-! ## Construction -/

/-- What `b` builds does `act` when it is executed for an access. -/
def Renders (access : Access) (b : Build Unit) (act : ∀ τ, Surroundings τ → Act τ Unit) : Prop :=
  ∃ body, (∀ before, b before = .ok ((), before ++ body)) ∧
    ∀ {τ : Type} (env : Surroundings τ), exec env access body = act τ env

theorem exec_append (env : Surroundings σ) (ss ts : List Stmt) :
    exec env access (ss ++ ts) = exec env access ss >>= fun _ => exec env access ts := by
  induction ss with
  | nil => simp [exec]
  | cons s ss ih => simp [exec, ih]

theorem exec_singleton (env : Surroundings σ) (s : Stmt) :
    exec env access [s] = execStmt env access s := by
  simp [exec]

theorem renders_append {s : Stmt} {act : ∀ τ, Surroundings τ → Act τ Unit}
    (h : ∀ {τ : Type} (env : Surroundings τ), execStmt env access s = act τ env) :
    Renders access (append s) act := by
  refine ⟨[s], fun _ => rfl, ?_⟩
  intro τ env
  rw [exec_singleton, h]

namespace Renders
variable {b c : Build Unit} {act act' : ∀ τ, Surroundings τ → Act τ Unit}

theorem congr (h : Renders access b act)
    (heq : ∀ {τ : Type} (env : Surroundings τ), act τ env = act' τ env) :
    Renders access b act' := by
  obtain ⟨body, hb, hbody⟩ := h
  exact ⟨body, hb, fun env => (hbody env).trans (heq env)⟩

theorem nothing : Renders access (pure ()) fun _ _ => pure () := by
  refine ⟨[], fun before => ?_, fun env => by rw [exec]⟩
  rw [List.append_nil]
  rfl

theorem bind (h : Renders access b act) (h' : Renders access c act') :
    Renders access (b >>= fun _ => c) fun τ env => act τ env >>= fun _ => act' τ env := by
  obtain ⟨body, hb, hbody⟩ := h
  obtain ⟨body', hc, hbody'⟩ := h'
  refine ⟨body ++ body', ?_, ?_⟩
  · intro before
    change (b before >>= fun p => c p.2) = _
    rw [hb, ← List.append_assoc]
    exact hc _
  · intro τ env
    rw [exec_append, hbody, hbody']

/-- A guarded block looks at both sides of its test, and then does what was built within it. -/
theorem ifThen (h : Renders access b act) (lhs : Node) (test : Test) (rhs : Node)
    (p : Decimal.Binary32) :
    Renders access (ifThen lhs test rhs p b) (fun τ env => do
      let l ← eval env access lhs
      let r ← eval env access rhs
      if test.holds l r then act τ env) := by
  obtain ⟨body, hb, hbody⟩ := h
  refine ⟨[.ifThen lhs test rhs p body], ?_, ?_⟩
  · intro before
    change (b [] >>= fun q => Except.ok ((), before ++ [.ifThen lhs test rhs p q.2])) = _
    rw [hb]
    rfl
  · intro τ env
    rw [exec_singleton, execStmt]
    simp only [hbody]

/-- A call passes the words of its arguments to the entry, if it takes as many. -/
theorem call {entry : Entry} {args : List Node} {words : List Word} {k : Call}
    (hargs : ∀ {τ : Type} (env : Surroundings τ), evalAll env access args = pure words)
    (hlen : args.length = words.length) (hk : entry.bind? words = some k) :
    Renders access (Build.call entry args) fun _ env => env.call k := by
  have harity : args.length = entry.arity := by
    rw [hlen, ← entry.bind?_isSome_iff, hk]
    rfl
  rw [Build.call, if_pos harity]
  refine renders_append fun env => ?_
  rw [execStmt, hargs env, pure_bind, hk]

end Renders

/-! ## Barriers -/

theorem writeBarrier_of_fast (h : cfg.unlogBits.logRegion ≤ 60) (hf : cfg.fastPath = true)
    (src slot value : Node) :
    writeBarrier cfg src slot value =
      ifThen (bitNode cfg slot) .ne (.con 0) .thousandth
        (call .writeSlow [src, slot, value]) := by
  rw [writeBarrier, if_pos hf, UnlogBits.logPerByte_of_le h]
  rfl

theorem renders_writeBarrier (h : cfg.unlogBits.logRegion ≤ 60) {src slot value : Node}
    {s x v : Word} (hs : Is access src s) (hx : Is access slot x) (hv : Is access value v) :
    Renders access (writeBarrier cfg src slot value)
      fun _ env => Protocol.preWrite cfg env s x v := by
  have hargs : ∀ {τ : Type} (env : Surroundings τ),
      evalAll env access [src, slot, value] = pure [s, x, v] := by
    intro τ env
    simp [evalAll, hs env, hx env, hv env]
  cases hf : cfg.fastPath with
  | true =>
    rw [writeBarrier_of_fast h hf]
    refine ((Renders.call hargs rfl rfl).ifThen _ _ _ _).congr fun env => ?_
    rw [Protocol.preWrite_of_fast h hf, eval_bitNode h hx env]
    simp only [bind_assoc, pure_bind, eval, Test.holds, bit_bne_zero]
  | false =>
    rw [writeBarrier, if_neg (by simp [hf])]
    refine (Renders.call hargs rfl rfl).congr fun env => ?_
    rw [Protocol.preWrite_of_slow hf]

theorem renders_loadReport (h : cfg.unlogBits.logRegion ≤ 60) (l : Load) :
    Renders (.load l) (loadReport cfg) fun _ env => Protocol.report cfg env l := by
  have hx : Is (.load l) (.input .slot) l.slot := is_input rfl
  have hv : Is (.load l) (.input .value) l.value := is_input rfl
  have hguard : ∀ inner,
      Renders (.load l) inner (fun _ env => Protocol.tellLoaded cfg env l.value l.slot) →
      Renders (.load l) (ifThen .loadFlag .ne (.con 0) .thousandth
          (ifThen (.input .value) .ne (.con 0) .half inner))
        fun _ env => Protocol.report cfg env l := by
    intro inner hin
    refine ((hin.ifThen _ _ _ _).ifThen _ _ _ _).congr fun env => ?_
    simp only [eval, Access.operand?, Protocol.report_eq, bind_assoc, pure_bind, Test.holds,
      flag_bne_zero]
    congr 1
    funext flag
    cases flag == 0 with
    | true => rfl
    | false => cases hz : l.value == 0 <;> simp [bne, hz]
  rw [loadReport]
  refine hguard _ ?_
  cases hm : cfg.loadMode with
  | referenceCall =>
    have hargs : ∀ {τ : Type} (env : Surroundings τ),
        evalAll env (.load l) [.input .value] = pure [l.value] := by
      intro τ env
      simp [evalAll, hv env]
    refine (Renders.call hargs rfl rfl).congr fun env => ?_
    rw [Protocol.tellLoaded_of_call hm]
  | slotLogging =>
    refine (renders_writeBarrier h hv hx hv).congr fun env => ?_
    rw [Protocol.tellLoaded_of_logging hm]

/-- A report with the memory barrier behind it, which no surroundings can see. -/
theorem renders_orderedReport (h : cfg.unlogBits.logRegion ≤ 60) (l : Load) :
    Renders (.load l)
      (do
        loadReport cfg
        memoryBarrier .compilerOrder)
      fun _ env => Protocol.report cfg env l := by
  have hbarrier : Renders (.load l) (memoryBarrier .compilerOrder) fun _ _ => pure () :=
    renders_append fun _ => by rw [execStmt]
  refine ((renders_loadReport h l).bind hbarrier).congr fun env => ?_
  rw [bind_pure_unit]

theorem renders_loadBarrier (h : cfg.unlogBits.logRegion ≤ 60) {a l : Load}
    (hab : (Access.load a).AgreesForOptimizing (.load l)) :
    Renders (.load l) (loadBarrier cfg a)
      fun _ env => Protocol.run cfg (.optimizing cfg) env (.load l) := by
  obtain ⟨⟨hin, hstrength⟩, hbase⟩ := hab
  rw [loadBarrier, Load.needsBarrier_congr hin hstrength cfg, hstrength,
    hbase.cannotReadReferent_congr cfg]
  simp only [Protocol.run, Shortcuts.optimizing]
  cases hn : l.needsBarrier cfg with
  | false => exact .nothing
  | true =>
    by_cases hu : l.strength = .unknown
    · cases hc : cfg.shortCircuit && l.cannotReadReferent cfg with
      | true =>
        simp only [hu, ne_eq, not_true_eq_false, if_true, if_false, Bool.not_true]
        exact .nothing
      | false =>
        have hreport := renders_orderedReport h l
        simp only [hu, ne_eq, not_true_eq_false, if_true, if_false, Bool.not_false]
        refine ((hreport.ifThen _ _ _ _).ifThen _ _ _ _).congr fun env => ?_
        simp only [eval, Access.operand?, Test.holds, offset_beq, bind_assoc, pure_bind,
          bit_beq_one]
        by_cases ho : l.offset = cfg.referentOffset
        · simp only [ho, beq_self_eq_true, if_true, if_false, not_true_eq_false]
          congr 1
          funext isRef
          cases isRef <;> rfl
        · simp [ho]
    · simp only [hu, ne_eq, not_false_eq_true, if_true, if_false]
      exact renders_orderedReport h l

theorem renders_build (h : cfg.unlogBits.logRegion ≤ 60) {a b : Access}
    (hab : a.AgreesForOptimizing b) :
    Renders b (build cfg a) fun _ env => Protocol.run cfg (.optimizing cfg) env b := by
  match a, b with
  | .store s, .store u =>
    obtain ⟨⟨hin, hnull, hfresh⟩, -⟩ := hab
    simp only [build, hin, Store.isElidable_congr hnull hfresh, Protocol.run, Shortcuts.optimizing,
      Bool.true_and]
    cases u.inHeap with
    | false => exact .nothing
    | true =>
      cases u.isElidable with
      | true => exact .nothing
      | false => exact renders_writeBarrier h (is_input rfl) (is_input rfl) (is_input rfl)
  | .load l, .load m => exact renders_loadBarrier h hab
  | .arrayCopy c, .arrayCopy d =>
    obtain ⟨⟨hrefs, hfresh⟩, -⟩ := hab
    have hargs : ∀ {τ : Type} (env : Surroundings τ),
        evalAll env (.arrayCopy d) [.input .src, .input .dst, .input .count] =
          pure [d.src, d.dst, d.count] := by
      intro τ env
      simp [evalAll, eval, Access.operand?]
    have hcall : Renders (.arrayCopy d)
        (call .arrayCopyPre [.input .src, .input .dst, .input .count])
        fun _ env => env.call (.arrayCopyPre d.src d.dst d.count) := .call hargs rfl rfl
    simp only [build, hrefs, hfresh, Protocol.run_arrayCopy]
    cases d.ofReferences && !d.freshTarget && !cfg.noArrayCopy with
    | false => exact .nothing
    | true =>
      refine (hcall.ifThen _ _ _ _).congr fun env => ?_
      simp only [eval, Access.operand?, pure_bind, Test.holds, if_true]
      by_cases hz : d.count = 0
      · simp [hz]
      · simp [hz]
  | .clone c, .clone d =>
    have hfresh : c.freshTarget = d.freshTarget := hab.1
    have hcopy : Renders (.clone d) (copy (.input .base) (.input .dst) (.input .size))
        fun _ env => env.copy d.src d.dst d.size :=
      renders_append fun env => by simp [execStmt, eval, Access.operand?]
    have hargs : ∀ {τ : Type} (env : Surroundings τ),
        evalAll env (.clone d) [.input .dst] = pure [d.dst] := by
      intro τ env
      simp [evalAll, eval, Access.operand?]
    have hcall : Renders (.clone d) (call .clonePre [.input .dst])
        fun _ env => env.call (.clonePre d.dst) := .call hargs rfl rfl
    have hfence : Renders (.clone d) (memoryBarrier .full) fun _ env => env.fence :=
      renders_append fun _ => by rw [execStmt]
    simp only [build, hfresh, Protocol.run]
    refine hcopy.bind ?_
    cases d.freshTarget with
    | true => exact .nothing
    | false => exact hcall.bind hfence

/-- The graph of an access follows the protocol for every access that agrees with it. -/
theorem exists_ofAccess (h : cfg.unlogBits.logRegion ≤ 60) {a b : Access}
    (hab : a.AgreesForOptimizing b) :
    ∃ graph, ofAccess cfg a = .ok graph ∧ ∀ {σ : Type} (env : Surroundings σ),
      graph.run env b = Protocol.run cfg (.optimizing cfg) env b := by
  obtain ⟨body, hb, hbody⟩ := renders_build h hab
  refine ⟨⟨body⟩, ?_, hbody⟩
  change (build cfg a [] >>= fun p => Except.ok (Graph.mk p.2)) = _
  rw [hb]
  rfl

/-- An access has a graph, which follows the protocol whatever access it is run for, as long as that
one agrees with the compiled one. -/
theorem ofAccess_refines_protocol (h : cfg.unlogBits.logRegion ≤ 60) {a b : Access}
    (hab : a.AgreesForOptimizing b) :
    ∃ graph, ofAccess cfg a = .ok graph ∧
      Refines (fun _ env => graph.run env b)
        (fun _ env => Protocol.run cfg (.optimizing cfg) env b) := by
  obtain ⟨graph, hgraph, hrun⟩ := exists_ofAccess h hab
  refine ⟨graph, hgraph, ?_⟩
  exact .of_eq hrun fun _ he => Protocol.run_total h he (.optimizing cfg) b

/-- The graph of a reflective load with an offset that was not known serves a load at another
offset, which may read the referent of its base. -/
theorem ofAccess_refines_protocol_reflective :
    ∃ graph, ofAccess ⟨true, ⟨0xfffffffffffffff0, 2⟩, false, true, .slotLogging, true, 16⟩
        (.load ⟨0x1000, 8, false, 0x1008, 0, .unknown, true, .maybeReference⟩) = .ok graph ∧
      Refines
        (fun _ env => graph.run env
          (.load ⟨0x2000, 16, false, 0x2010, 0x3000, .unknown, true, .maybeReference⟩))
        (fun _ env => Protocol.run
          ⟨true, ⟨0xfffffffffffffff0, 2⟩, false, true, .slotLogging, true, 16⟩
          (.optimizing ⟨true, ⟨0xfffffffffffffff0, 2⟩, false, true, .slotLogging, true, 16⟩) env
          (.load ⟨0x2000, 16, false, 0x2010, 0x3000, .unknown, true, .maybeReference⟩)) :=
  ofAccess_refines_protocol (by decide) ⟨⟨rfl, rfl⟩, rfl, rfl, nofun⟩

end HeapBridge.Barrier.Graph
