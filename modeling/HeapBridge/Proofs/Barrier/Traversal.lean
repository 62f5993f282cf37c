import HeapBridge.Barrier.Graph
import HeapBridge.Proofs.Barrier.Surroundings

/-!
# Calls of a graph

The leaves of a graph are its calls, in the order in which they were built. A run goes through the
statements in that order and leaves some of them out, so it makes some of these calls and no other,
whatever the surroundings answer and wherever it ends. `Emits` says so of a computation. A graph is
built from the inside of its blocks, and holds what was built at the place at which it was built.
-/
namespace HeapBridge.Barrier

/-- The entries of the calls among some steps. -/
def Event.entries (steps : List Event) : List Entry :=
  steps.filterMap fun e => match e with
    | .call c => some c.entry
    | _ => none

@[simp] theorem Event.entries_append (steps steps' : List Event) :
    Event.entries (steps ++ steps') = Event.entries steps ++ Event.entries steps' :=
  List.filterMap_append

/-! ## Computations -/

/-- A computation in traced surroundings that makes calls to some of the listed entries, in their
order, up to its end or its fault. -/
def Emits {σ α : Type} (entries : List Entry) (act : Act (σ × List Event) α) : Prop :=
  ∀ s steps, ∃ new, (act.attempt (s, steps)).2.2 = steps ++ new ∧
    (Event.entries new).Sublist entries

namespace Emits
variable {σ α β : Type} {es es' : List Entry} {act act' : Act (σ × List Event) α}

theorem mono (h : Emits es act) (hes : es.Sublist es') : Emits es' act := by
  intro s steps
  obtain ⟨new, hnew, hsub⟩ := h s steps
  exact ⟨new, hnew, hsub.trans hes⟩

theorem pure (a : α) : Emits [] (Pure.pure a : Act (σ × List Event) α) :=
  fun _ steps => ⟨[], (List.append_nil steps).symm, .slnil⟩

theorem throw (f : Fault) : Emits [] (MonadExcept.throw f : Act (σ × List Event) α) :=
  fun _ steps => ⟨[], (List.append_nil steps).symm, .slnil⟩

theorem lift (e : Except Fault α) : Emits [] (Act.lift e : Act (σ × List Event) α) := by
  cases e with
  | error f => exact throw f
  | ok a => exact pure a

theorem bind {f : α → Act (σ × List Event) β} (h : Emits es act) (hf : ∀ a, Emits es' (f a)) :
    Emits (es ++ es') (act >>= f) := by
  intro s steps
  obtain ⟨new, hnew, hsub⟩ := h s steps
  cases hrun : act (s, steps) with
  | error e t =>
    refine ⟨new, ?_, hsub.trans (List.sublist_append_left _ _)⟩
    rw [← hnew, Act.attempt, Act.attempt, Act.bind_of_error hrun, hrun]
  | ok a t =>
    obtain ⟨t₁, steps₁⟩ := t
    have hsteps : steps₁ = steps ++ new := by rw [← hnew, Act.attempt, hrun]
    obtain ⟨new', hnew', hsub'⟩ := hf a t₁ steps₁
    refine ⟨new ++ new', ?_, ?_⟩
    · rw [Act.attempt] at hnew' ⊢
      rw [Act.bind_of_ok hrun, hnew', hsteps, List.append_assoc]
    · rw [Event.entries_append]
      exact hsub.append hsub'

/-- What makes no calls does not count. -/
theorem after {f : α → Act (σ × List Event) β} (h : Emits [] act) (hf : ∀ a, Emits es (f a)) :
    Emits es (act >>= f) := h.bind hf

/-- A part that may be left out. -/
theorem ite {c : Prop} [Decidable c] {act : Act (σ × List Event) Unit} (h : Emits es act) :
    Emits es (if c then act else Pure.pure ()) := by
  split
  · exact h
  · exact (pure ()).mono (List.nil_sublist es)

theorem noted {act : Act σ α} (e : Event) : Emits (Event.entries [e]) (e.noted act) := by
  intro s steps
  refine ⟨[e], ?_, List.Sublist.refl _⟩
  rw [Act.attempt, Event.noted]
  cases act s <;> rfl

end Emits

/-! ## Still surroundings -/

/-- Surroundings without a state and without reference objects, whose bytes are all the same. -/
def Surroundings.still (byte : UInt8) : Surroundings Unit where
  loadMetadata _ := return byte
  loadFlag := return byte
  isReference _ := return false
  call _ := return
  copy _ _ _ := return
  fence := return

theorem Surroundings.Faultless.still (byte : UInt8) : (Surroundings.still byte).Faultless where
  loadMetadata _ := .pure byte
  loadFlag := .pure byte
  isReference _ := .pure false
  call _ := .pure ()
  copy _ _ _ := .pure ()
  fence := .pure ()

namespace Graph
variable {σ : Type} {env : Surroundings σ} {access : Access}

/-! ## Leaves -/

mutual
/-- The calls in a statement with their arguments. -/
def stmtLeaves : Stmt → List (Entry × List Node)
  | .ifThen _ _ _ _ body => stmtsLeaves body
  | .call entry args => [(entry, args)]
  | .memoryBarrier _ | .copy .. => []

/-- The calls in statements with their arguments, in the order of the statements. -/
def stmtsLeaves : List Stmt → List (Entry × List Node)
  | [] => []
  | s :: ss => stmtLeaves s ++ stmtsLeaves ss
end

/-- The entries that the calls of a graph name. -/
def entries (g : Graph) : List Entry := (stmtsLeaves g.body).map Prod.fst

mutual
theorem stmtCalls_eq : ∀ s : Stmt, stmtCalls s = (stmtLeaves s).length
  | .ifThen _ _ _ _ body => stmtsCalls_eq body
  | .call _ _ => rfl
  | .memoryBarrier _ => rfl
  | .copy _ _ _ => rfl

theorem stmtsCalls_eq : ∀ ss : List Stmt, stmtsCalls ss = (stmtsLeaves ss).length
  | [] => rfl
  | s :: ss => by
    rw [stmtsCalls, stmtsLeaves, List.length_append, stmtCalls_eq s, stmtsCalls_eq ss]
end

theorem callCount_eq (g : Graph) : g.callCount = g.entries.length := by
  rw [callCount, stmtsCalls_eq, entries, List.length_map]

/-! ## Runs -/

theorem emits_eval (n : Node) : Emits [] (eval env.traced access n) := by
  induction n with
  | con w => exact .pure w
  | input operand =>
    rw [eval]
    split
    · exact .pure _
    · exact .throw _
  | shiftRight a b iha ihb => exact iha.after fun _ => ihb.after fun _ => .lift _
  | mask a b iha ihb | add a b iha ihb => exact iha.after fun _ => ihb.after fun _ => .pure _
  | loadByte address ih =>
    exact ih.after fun a => (Emits.noted (.loadMetadata a)).after fun _ => .pure _
  | loadFlag => exact (Emits.noted .loadFlag).after fun _ => .pure _
  | isReference object ih =>
    exact ih.after fun o => (Emits.noted (.checkReference o)).after fun _ => .pure _

theorem emits_evalAll (ns : List Node) : Emits [] (evalAll env.traced access ns) := by
  induction ns with
  | nil => exact .pure _
  | cons n ns ih => exact (emits_eval n).after fun _ => ih.after fun _ => .pure _

mutual
/-- A statement makes calls to entries of its leaves. -/
theorem emits_execStmt : ∀ s : Stmt,
    Emits ((stmtLeaves s).map Prod.fst) (execStmt env.traced access s)
  | .ifThen lhs _ rhs _ body => by
    rw [execStmt]
    exact (emits_eval lhs).after fun _ => (emits_eval rhs).after fun _ => .ite (emits_exec body)
  | .call entry args => by
    rw [execStmt]
    refine (emits_evalAll args).after fun words => ?_
    cases hc : entry.bind? words with
    | none => exact (Emits.throw _).mono (List.nil_sublist _)
    | some c =>
      have hentry : c.entry = entry := Entry.entry_of_bind? hc
      rw [← hentry]
      exact .noted (.call c)
  | .memoryBarrier .compilerOrder => .pure ()
  | .memoryBarrier .full => .noted .fence
  | .copy src dst size => by
    rw [execStmt]
    exact (emits_eval src).after fun _ => (emits_eval dst).after fun _ =>
      (emits_eval size).after fun _ => .noted _

theorem emits_exec : ∀ ss : List Stmt,
    Emits ((stmtsLeaves ss).map Prod.fst) (exec env.traced access ss)
  | [] => .pure ()
  | s :: ss => by
    rw [exec, stmtsLeaves, List.map_append]
    exact (emits_execStmt s).bind fun _ => emits_exec ss
end

/-! ## Runs without a fault -/

mutual
/-- The expressions in a statement. -/
def stmtNodes : Stmt → List Node
  | .ifThen lhs _ rhs _ body => lhs :: rhs :: stmtsNodes body
  | .call _ args => args
  | .memoryBarrier _ => []
  | .copy src dst size => [src, dst, size]

/-- The expressions in statements. -/
def stmtsNodes : List Stmt → List Node
  | [] => []
  | s :: ss => stmtNodes s ++ stmtsNodes ss
end

/-- An expression whose operands the access supplies, and which never shifts by a word or more. -/
def HasWord (env : Surroundings σ) (access : Access) : Node → Prop
  | .con _ | .loadFlag => True
  | .input operand => (access.operand? operand).isSome
  | .shiftRight value amount => HasWord env access value ∧ HasWord env access amount ∧
      ∀ s n t, eval env access amount s = .ok n t → n < 64
  | .mask lhs rhs => HasWord env access lhs ∧ HasWord env access rhs
  | .add base offset => HasWord env access base ∧ HasWord env access offset
  | .loadByte address => HasWord env access address
  | .isReference object => HasWord env access object

/-- The leaves among statements have as many arguments as their entries take. -/
def Fit (leaves : List (Entry × List Node)) : Prop := ∀ leaf ∈ leaves, leaf.2.length = leaf.1.arity

instance (leaves : List (Entry × List Node)) : Decidable (Fit leaves) :=
  inferInstanceAs (Decidable (∀ leaf ∈ leaves, leaf.2.length = leaf.1.arity))

theorem eval_total (he : env.Faultless) (n : Node) (h : HasWord env access n) :
    (eval env access n).Total := by
  induction n with
  | con w => exact .pure w
  | input operand =>
    obtain ⟨w, hw⟩ := Option.isSome_iff_exists.mp h
    rw [eval, hw]
    exact .pure w
  | shiftRight value amount ihv iha =>
    obtain ⟨hv, ha, hlt⟩ := h
    intro s
    obtain ⟨w, t, hw⟩ := ihv hv s
    obtain ⟨n, u, hn⟩ := iha ha t
    refine ⟨w >>> n, u, ?_⟩
    rw [eval, Act.bind_of_ok hw, Act.bind_of_ok hn, Word.shiftRight_of_lt (hlt t n u hn)]
    rfl
  | mask a b iha ihb | add a b iha ihb =>
    exact (iha h.1).bind fun _ => (ihb h.2).bind fun _ => .pure _
  | loadByte address ih => exact (ih h).bind fun a => (he.loadMetadata a).bind fun _ => .pure _
  | loadFlag => exact he.loadFlag.bind fun _ => .pure _
  | isReference object ih => exact (ih h).bind fun o => (he.isReference o).bind fun _ => .pure _

theorem exists_evalAll (he : env.Faultless) (ns : List Node)
    (h : ∀ n ∈ ns, HasWord env access n) (s : σ) :
    ∃ ws t, evalAll env access ns s = .ok ws t ∧ ws.length = ns.length := by
  induction ns generalizing s with
  | nil => exact ⟨[], s, rfl, rfl⟩
  | cons n ns ih =>
    obtain ⟨w, t, hw⟩ := eval_total he n (h n List.mem_cons_self) s
    obtain ⟨ws, u, hws, hlen⟩ := ih (fun m hm => h m (List.mem_cons_of_mem n hm)) t
    refine ⟨w :: ws, u, ?_, congrArg (· + 1) hlen⟩
    rw [evalAll, Act.bind_of_ok hw, Act.bind_of_ok hws]
    rfl

mutual
/-- A statement ends where nothing around it fails, if its leaves fit and its expressions have
words. -/
theorem execStmt_total (he : env.Faultless) : ∀ s : Stmt, Fit (stmtLeaves s) →
    (∀ n ∈ stmtNodes s, HasWord env access n) → (execStmt env access s).Total
  | .ifThen lhs _ rhs _ body, hfit, h => by
    rw [stmtNodes, List.forall_mem_cons, List.forall_mem_cons] at h
    rw [execStmt]
    refine (eval_total he lhs h.1).bind fun _ => (eval_total he rhs h.2.1).bind fun _ => ?_
    exact .ite (exec_total he body hfit h.2.2) (.pure ())
  | .call entry args, hfit, h => by
    intro s
    obtain ⟨ws, t, hws, hlen⟩ := exists_evalAll he args h s
    have harity : args.length = entry.arity := hfit _ List.mem_cons_self
    obtain ⟨c, hc⟩ := Option.isSome_iff_exists.mp
      ((entry.bind?_isSome_iff ws).mpr (hlen.trans harity))
    obtain ⟨u, t', hcall⟩ := he.call c t
    refine ⟨u, t', ?_⟩
    rw [execStmt, Act.bind_of_ok hws, hc]
    exact hcall
  | .memoryBarrier .compilerOrder, _, _ => .pure ()
  | .memoryBarrier .full, _, _ => he.fence
  | .copy src dst size, _, h => by
    rw [stmtNodes, List.forall_mem_cons, List.forall_mem_cons, List.forall_mem_cons] at h
    rw [execStmt]
    exact (eval_total he src h.1).bind fun _ => (eval_total he dst h.2.1).bind fun _ =>
      (eval_total he size h.2.2.1).bind fun _ => he.copy _ _ _

theorem exec_total (he : env.Faultless) : ∀ ss : List Stmt, Fit (stmtsLeaves ss) →
    (∀ n ∈ stmtsNodes ss, HasWord env access n) → (exec env access ss).Total
  | [], _, _ => .pure ()
  | s :: ss, hfit, h => by
    rw [stmtsLeaves] at hfit
    rw [stmtsNodes] at h
    rw [exec]
    refine (execStmt_total he s ?_ ?_).bind fun _ => exec_total he ss ?_ ?_
    · exact fun leaf hleaf => hfit leaf (List.mem_append_left _ hleaf)
    · exact fun n hn => h n (List.mem_append_left _ hn)
    · exact fun leaf hleaf => hfit leaf (List.mem_append_right _ hleaf)
    · exact fun n hn => h n (List.mem_append_right _ hn)
end

/-! ## Construction -/

namespace Build

/-- A program of construction steps and the statements that it makes, each in the block that is open
when it is made. -/
inductive Makes : Build Unit → List Stmt → Prop
  | nothing : Makes (pure ()) []
  | andThen {b c ss ts} (hb : Makes b ss) (hc : Makes c ts) :
    Makes (b >>= fun _ => c) (ss ++ ts)
  | ifThen {b body} (lhs test rhs p) (h : Makes b body) :
    Makes (ifThen lhs test rhs p b) [.ifThen lhs test rhs p body]
  | call {entry args} (h : args.length = entry.arity) : Makes (call entry args) [.call entry args]
  | memoryBarrier (kind) : Makes (memoryBarrier kind) [.memoryBarrier kind]
  | copy (src dst size) : Makes (copy src dst size) [.copy src dst size]

/-- What a program makes is put behind what stands in the open block. -/
theorem Makes.apply_eq {b : Build Unit} {ss : List Stmt} (h : Makes b ss) (before : List Stmt) :
    b before = .ok ((), before ++ ss) := by
  induction h generalizing before with
  | nothing => rw [List.append_nil]; rfl
  | andThen _ _ ihb ihc =>
    rename_i b c ss ts _ _
    change (b before >>= fun q => c q.2) = _
    rw [ihb, ← List.append_assoc]
    exact ihc _
  | ifThen lhs test rhs p _ ih =>
    rename_i b body _
    change (b [] >>= fun q => Except.ok ((), before ++ [.ifThen lhs test rhs p q.2])) = _
    rw [ih]
    rfl
  | call h =>
    rw [Build.call, if_pos h]
    rfl
  | memoryBarrier kind => rfl
  | copy src dst size => rfl

theorem Makes.finish_eq {b : Build Unit} {ss : List Stmt} (h : Makes b ss) :
    b.finish = .ok ⟨ss⟩ := by
  change (b [] >>= fun q => Except.ok (Graph.mk q.2)) = _
  rw [h.apply_eq]
  rfl

mutual
theorem makes_stmt : ∀ s : Stmt, Fit (stmtLeaves s) → Makes (stmt s) [s]
  | .ifThen lhs test rhs p body, h => .ifThen lhs test rhs p (makes_stmts body h)
  | .call _ _, h => .call (h _ List.mem_cons_self)
  | .memoryBarrier kind, _ => .memoryBarrier kind
  | .copy src dst size, _ => .copy src dst size

/-- Statements are made by a program, if their leaves fit. -/
theorem makes_stmts : ∀ ss : List Stmt, Fit (stmtsLeaves ss) → Makes (stmts ss) ss
  | [], _ => .nothing
  | s :: ss, h => by
    rw [stmtsLeaves] at h
    exact .andThen (makes_stmt s fun leaf hleaf => h leaf (List.mem_append_left _ hleaf))
      (makes_stmts ss fun leaf hleaf => h leaf (List.mem_append_right _ hleaf))
end

mutual
theorem fit_of_stmt : ∀ (s : Stmt) {before : List Stmt} {q : Unit × List Stmt},
    stmt s before = .ok q → Fit (stmtLeaves s)
  | .ifThen _ _ _ _ body, before, q, h => by
    obtain ⟨inner, hinner, -⟩ := exists_of_bind (x := stmts body []) h
    exact fit_of_stmts body hinner
  | .call entry args, before, q, h => by
    rw [stmt, Build.call] at h
    split at h
    · rename_i harity
      exact List.forall_mem_singleton.mpr harity
    · cases h
  | .memoryBarrier _, _, _, _ => fun _ h => nomatch h
  | .copy _ _ _, _, _, _ => fun _ h => nomatch h

/-- Construction that ends has only calls with as many arguments as their entries take. -/
theorem fit_of_stmts : ∀ (ss : List Stmt) {before : List Stmt} {q : Unit × List Stmt},
    stmts ss before = .ok q → Fit (stmtsLeaves ss)
  | [], _, _, _ => fun _ h => nomatch h
  | s :: ss, before, q, h => by
    obtain ⟨first, hfirst, hrest⟩ := exists_of_bind (x := stmt s before) h
    rw [stmtsLeaves, Fit, List.forall_mem_append]
    exact ⟨fit_of_stmt s hfirst, fit_of_stmts ss hrest⟩
end

/-- Statements are built into the graph of these statements, or not at all. -/
theorem finish_stmts_iff (ss : List Stmt) (g : Graph) :
    (stmts ss).finish = .ok g ↔ Fit (stmtsLeaves ss) ∧ g = ⟨ss⟩ := by
  constructor
  · intro h
    obtain ⟨q, hq, -⟩ := exists_of_bind (x := stmts ss []) h
    have hfit : Fit (stmtsLeaves ss) := fit_of_stmts ss hq
    rw [(makes_stmts ss hfit).finish_eq] at h
    exact ⟨hfit, (Except.ok.inj h).symm⟩
  · rintro ⟨hfit, rfl⟩
    exact (makes_stmts ss hfit).finish_eq

end Build

/-! ## The bound -/

/-- A run of a graph makes some of the calls of the graph in their order, so no more than there are,
and ends where the graph, the access and the surroundings permit it. -/
structure Bounded (g : Graph) (access : Access) (env : Surroundings σ) (s : σ) : Prop where
  calls_sublist : (Event.entries (env.steps s fun _ env => g.run env access)).Sublist g.entries
  calls_le : (Event.entries (env.steps s fun _ env => g.run env access)).length ≤ g.callCount
  ends : Fit (stmtsLeaves g.body) → (∀ n ∈ stmtsNodes g.body, HasWord env access n) →
    env.Faultless → ∃ t, g.run env access s = .ok () t

theorem bounded (g : Graph) (access : Access) (env : Surroundings σ) (s : σ) :
    Bounded g access env s := by
  have hemits : Emits g.entries (exec env.traced access g.body) := emits_exec g.body
  obtain ⟨new, hnew, hsublist⟩ := hemits s []
  have hsteps : (env.steps s fun _ env => g.run env access) = new := hnew
  constructor
  · rw [hsteps]
    exact hsublist
  · rw [hsteps, callCount_eq]
    exact hsublist.length_le
  · intro hfit hword he
    obtain ⟨u, t, ht⟩ := exec_total he g.body hfit hword s
    exact ⟨t, ht⟩

/-- The calls of a graph bound those of its runs, whatever its nesting and its expressions, and the
graph of a program of construction is what the program made, block for block. -/
theorem callCount_bounds_calls :
    (∀ {σ : Type} (g : Graph) (access : Access) (env : Surroundings σ) (s : σ),
      Bounded g access env s) ∧
    (∀ (b : Build Unit) (ss : List Stmt), Build.Makes b ss → b.finish = .ok ⟨ss⟩) ∧
    ∀ (ss : List Stmt) (g : Graph),
      (Build.stmts ss).finish = .ok g ↔ Fit (stmtsLeaves ss) ∧ g = ⟨ss⟩ :=
  ⟨bounded, fun _ _ h => h.finish_eq, Build.finish_stmts_iff⟩

/-- A graph with a block in a block, of which the inner one is left out. -/
theorem callCount_bounds_calls_nested :
    let inner : List Stmt := [.call .loadReference [.input .value]]
    let outer : List Stmt := [.call .writeSlow [.input .base, .input .slot, .input .value],
      .ifThen .loadFlag .eq (.con 0) .half inner, .memoryBarrier .full]
    let test : Node := .shiftRight (.loadByte (.input .slot)) (.con 3)
    let body : List Stmt := [.ifThen test .ne (.con 0) .thousandth outer,
      .call .clonePre [.isReference (.input .value)]]
    let program : Build Unit := do
      Build.ifThen test .ne (.con 0) .thousandth (Build.stmts outer)
      Build.call .clonePre [.isReference (.input .value)]
    let access : Access := .store ⟨0x1000, 0x1008, 0x2000, true, false, false, false⟩
    let env : Surroundings Unit := .still 8
    program.finish = .ok ⟨body⟩ ∧ (Build.stmts body).finish = .ok ⟨body⟩ ∧
      (⟨body⟩ : Graph).callCount = 3 ∧
      Event.entries (env.steps () fun _ env => Graph.run ⟨body⟩ env access)
        = [.writeSlow, .clonePre] ∧
      [Entry.writeSlow, .clonePre].Sublist (Graph.entries ⟨body⟩) ∧
      ∃ t, Graph.run ⟨body⟩ env access () = .ok () t := by
  intro inner outer test body program access env
  have houter : Fit (stmtsLeaves outer) := by decide
  have hfit : Fit (stmtsLeaves body) := by decide
  have hmade : Build.Makes program body :=
    .andThen (.ifThen _ _ _ _ (Build.makes_stmts outer houter)) (.call rfl)
  have hamount (s : Unit) (n : Word) (t : Unit) (h : eval env access (.con 3) s = .ok n t) :
      n < 64 := by
    cases h
    decide
  have hword : ∀ n ∈ stmtsNodes body, HasWord env access n := by
    simpa [body, outer, inner, test, stmtsNodes, stmtNodes, HasWord, Access.operand?, access]
      using hamount
  have hsteps : Event.entries (env.steps () fun _ env => Graph.run ⟨body⟩ env access)
      = [.writeSlow, .clonePre] := by decide
  obtain ⟨hbounded, hmakes, hstmts⟩ := callCount_bounds_calls
  have hrun : Bounded ⟨body⟩ access env () := hbounded _ _ _ _
  exact ⟨hmakes _ _ hmade, (hstmts _ _).mpr ⟨hfit, rfl⟩, rfl, hsteps, hsteps ▸ hrun.calls_sublist,
    hrun.ends hfit hword (.still 8)⟩

end Graph
end HeapBridge.Barrier
