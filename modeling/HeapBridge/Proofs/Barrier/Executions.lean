import HeapBridge.Barrier.Recorder
import HeapBridge.Proofs.Barrier.Machine.Switches

/-!
# Every way into the barriers

An access reaches its barrier by a direct call, through code or through a graph, and the virtual
machine may call the entries themselves. The switches of a configuration hold for all of these, with
one exception: the entry for loaded values does not ask whether loads have barriers at all.
-/
namespace HeapBridge.Barrier
variable {σ : Type}

/-- A way into the barriers, with what it brings. Code and graphs are executed for an access that
need not be one they were compiled from. -/
inductive Execution
  | direct (access : Access)
  | code (compiled : List Access) (access : Access)
  | graph (compiled access : Access)
  | writePre (src : ObjectRef) (slot : Address) (target : ObjectRef)
  | loadReference (slot : Address) (value : ObjectRef)
  | arrayCopyPre (src dst : Address) (count : Word)
  | clone (src dst : ObjectRef) (size : Word) (freshTarget : Bool)
deriving DecidableEq, Inhabited

namespace Execution

def run (cfg : Config) (env : Surroundings σ) : Execution → Act σ Unit
  | direct a => Direct.run cfg env a
  | code compiled a => do (← Act.lift (Machine.compileAll cfg compiled)).run env a
  | graph compiled a => do (← Act.lift (Graph.ofAccess cfg compiled)).run env a
  | writePre src slot target => Direct.writePre cfg env src slot target
  | loadReference slot value => Direct.loadReference cfg env slot value
  | arrayCopyPre src dst count => Direct.arrayCopyPre cfg env src dst count
  | clone src dst size fresh => Direct.cloneInHeap env src dst size fresh

/-- Whether an execution stands for loads and for nothing else. -/
def isLoad : Execution → Bool
  | direct a | graph a _ => a.kind == .load
  | code compiled _ => compiled.all (·.kind == .load)
  | loadReference .. => true
  | writePre .. | arrayCopyPre .. | clone .. => false

/-- The entry for loaded values called for a value. -/
def Tells (x : Execution) (value : ObjectRef) : Prop := ∃ slot, x = loadReference slot value

end Execution

/-! ## Sequences -/

/-- One execution of a sequence, with the state that it found and the steps that it took. -/
structure Turn (σ : Type) where
  execution : Execution
  start : σ
  steps : List Event

/-- Executions one after the other. A fault ends one of them only. -/
def turns (cfg : Config) (env : Surroundings σ) : List Execution → σ → List (Turn σ)
  | [], _ => []
  | x :: xs, s =>
    let (s', steps) := ((x.run cfg env.traced).attempt (s, [])).2
    ⟨x, s, steps⟩ :: turns cfg env xs s'

theorem steps_of_mem_turns {cfg : Config} {env : Surroundings σ} {xs : List Execution} {s : σ}
    {t : Turn σ} (h : t ∈ turns cfg env xs s) :
    t.steps = ((t.execution.run cfg env.traced).attempt (t.start, [])).2.2 := by
  induction xs generalizing s with
  | nil => cases h
  | cons x xs ih =>
    obtain rfl | h := List.mem_cons.mp h
    · rfl
    · exact ih h

theorem Confined.of_mem_turns {ok : Event → Prop} {inv : σ → Prop} {cfg : Config}
    {env : Surroundings σ} {xs : List Execution} {s : σ} {t : Turn σ} (ht : t ∈ turns cfg env xs s)
    (h : Confined ok inv (t.execution.run cfg env.traced) fun _ => True) (hs : inv t.start) :
    ∀ e ∈ t.steps, ok e := by
  have hrun := h t.start [] hs nofun
  rw [steps_of_mem_turns ht, Act.attempt]
  split at hrun
  · rename_i hact
    rw [hact]
    exact hrun.2.1
  · rename_i hact
    rw [hact]
    exact hrun

/-! ## Switches -/

namespace Execution
variable {cfg : Config} {env : Surroundings σ}

/-- An execution takes allowed steps only, unless it is the entry for loaded values and tells of its
value. -/
theorem confined_run (x : Execution) :
    Confined (fun e => e.isAllowed cfg = true ∨
        ∃ value, x.Tells value ∧ e = .call (.loadReference value)) (fun _ => True)
      (x.run cfg env.traced) fun _ => True := by
  have hok : ∀ e : Event, e.isAllowed cfg = true → e.isAllowed cfg = true ∨
      ∃ value, x.Tells value ∧ e = .call (.loadReference value) := fun _ => .inl
  have henv := env.keeps_true fun e => e.isAllowed cfg = true ∨
    ∃ value, x.Tells value ∧ e = .call (.loadReference value)
  match x with
  | direct a => exact Direct.confined_run hok henv a
  | code compiled a =>
    exact .bind (.lift fun code hcode => hcode) fun code hcode =>
      Machine.confined_code hok henv hcode a
  | graph compiled a =>
    exact .bind (.lift fun g hg => hg) fun g hg => (Graph.obeys_build hok henv compiled).finish hg
  | writePre src slot target => exact Direct.confined_writePre hok henv src slot target
  | loadReference slot value =>
    exact Direct.confined_loadReference hok henv slot value fun _ => .inr ⟨value, ⟨slot, rfl⟩, rfl⟩
  | arrayCopyPre src dst count => exact Direct.confined_arrayCopyPre hok henv src dst count
  | clone src dst size fresh => exact Direct.confined_cloneInHeap hok henv src dst size fresh

/-- While marking is off, an execution that stands for loads does nothing but look. -/
theorem confined_run_of_isLoad {off : σ → Prop} (h : env.IsOff off) {x : Execution}
    (hx : x.isLoad = true) :
    Confined (·.isLook = true) off (x.run cfg env.traced) fun _ => True := by
  cases x with
  | direct a =>
    match a, hx with
    | .load l, _ =>
      exact Direct.confined_loadReferenceAt (fun _ => id) h.keeps l fun _ =>
        h.confined_loadReference _ _
  | code compiled a =>
    have hload : ∀ a ∈ compiled, a.kind = .load := by simpa [isLoad] using hx
    exact .bind (.lift fun code hcode => hcode) fun code hcode =>
      Machine.confined_code_of_loads h hload hcode a
  | graph compiled a =>
    match compiled, hx with
    | .load l, _ =>
      have hobeys : Graph.Obeys (·.isLook = true) off env a (Graph.build cfg (.load l)) :=
        Graph.obeys_loadBarrier (fun _ => id) h.keeps fun _ => h.obeys_loadReport
      exact .bind (.lift fun g hg => hg) fun g hg => hobeys.finish hg
  | loadReference slot value => exact h.confined_loadReference slot value
  | writePre | arrayCopyPre | clone => cases hx

end Execution

/-- The switches of a configuration hold for every execution of a sequence, with the exception of the
entry for loaded values, which may tell of its value where loads have no barriers. A load that begins
while marking is off calls nobody. -/
theorem turns_obey_switches (cfg : Config) (env : Surroundings σ) {off : σ → Prop}
    (hoff : env.IsOff off) (xs : List Execution) (s : σ) :
    ∀ t ∈ turns cfg env xs s,
      (cfg.loadBarrier = false → ∀ value, ¬t.execution.Tells value →
        .call (.loadReference value) ∉ t.steps) ∧
      (cfg.noArrayCopy = true → ∀ src dst count, .call (.arrayCopyPre src dst count) ∉ t.steps) ∧
      (cfg.fastPath = true → ∀ src slot target, .call (.writePre src slot target) ∉ t.steps) ∧
      (cfg.fastPath = false → (∀ src slot target, .call (.writeSlow src slot target) ∉ t.steps) ∧
        ∀ a, .loadMetadata a ∉ t.steps) ∧
      (t.execution.isLoad = true → off t.start → ∀ c, .call c ∉ t.steps) := by
  intro t ht
  have hallowed := Confined.of_mem_turns ht t.execution.confined_run trivial
  have hnone : ∀ e : Event, e.isAllowed cfg = false →
      (∀ value, t.execution.Tells value → e ≠ .call (.loadReference value)) → e ∉ t.steps := by
    intro e he hne hmem
    obtain h | ⟨value, htells, rfl⟩ := hallowed e hmem
    · exact Bool.false_ne_true (he.symm.trans h)
    · exact hne value htells rfl
  refine ⟨?_, ?_, ?_, ?_, ?_⟩
  · intro hl value hvalue
    refine hnone _ hl fun other hother heq => ?_
    cases heq
    exact hvalue hother
  · intro hc src dst count
    exact hnone _ (congrArg (!·) hc) nofun
  · intro hf src slot target
    exact hnone _ (congrArg (!·) hf) nofun
  · intro hf
    exact ⟨fun src slot target => hnone _ hf nofun, fun a => hnone _ hf nofun⟩
  · intro hx hs c hmem
    have hlook := Confined.of_mem_turns ht (t.execution.confined_run_of_isLoad hoff hx) hs
    exact Bool.false_ne_true (hlook _ hmem)

theorem Recorder.isOff : Recorder.surroundings.IsOff (·.flag = 0) where
  flag_eq := by
    rintro r hr _ _ ⟨⟩
    exact hr
  loadFlag := by
    rintro r hr _ _ ⟨⟩
    exact hr
  isReference := by
    rintro o r hr _ _ ⟨⟩
    exact hr

/-- Reflective loads through code of two of them and through a graph, and the entries, first with the
fast path and without barriers of loads and array copies, then without the fast path. -/
theorem turns_obey_switches_recorded :
    let fast : Config := ⟨true, ⟨0, 3⟩, true, false, .referenceCall, false, 16⟩
    let slow : Config := ⟨false, ⟨0, 3⟩, false, true, .slotLogging, false, 16⟩
    let load : Access := .load ⟨0x1000, 16, false, 0x1010, 0x2000, .unknown, true, .unknown⟩
    let entries : List Execution := [.writePre 0x1000 0x1008 0x2000, .arrayCopyPre 0x1000 0x3000 4]
    let loads : List Execution :=
      [.code [load, load] load, .graph load load, .loadReference 8 0x2000]
    let world : Recorder := ⟨.empty, 0, [0x1000], none, []⟩
    (∀ t ∈ turns fast Recorder.surroundings (loads ++ entries) { world with flag := 1 },
      (∀ value, ¬t.execution.Tells value → .call (.loadReference value) ∉ t.steps) ∧
      (∀ src dst count, .call (.arrayCopyPre src dst count) ∉ t.steps) ∧
      ∀ src slot target, .call (.writePre src slot target) ∉ t.steps) ∧
    ∀ t ∈ turns slow Recorder.surroundings (entries ++ loads) world,
      (∀ src slot target, .call (.writeSlow src slot target) ∉ t.steps) ∧
      (∀ a, .loadMetadata a ∉ t.steps) ∧
      (t.execution.isLoad = true → t.start.flag = 0 → ∀ c, .call c ∉ t.steps) := by
  intro fast slow load entries loads world
  constructor
  · intro t ht
    have h := turns_obey_switches fast _ Recorder.isOff _ _ t ht
    exact ⟨h.1 rfl, h.2.1 rfl, h.2.2.1 rfl⟩
  · intro t ht
    have h := turns_obey_switches slow _ Recorder.isOff _ _ t ht
    exact ⟨(h.2.2.2.1 rfl).1, (h.2.2.2.1 rfl).2, h.2.2.2.2⟩

/-- Where loads have no barriers, the entry for loaded values tells of its value all the same. -/
theorem entry_tells_without_load_barriers :
    let cfg : Config := ⟨false, ⟨0, 3⟩, false, false, .referenceCall, false, 16⟩
    cfg.loadBarrier = false ∧
      ∃ t ∈ turns cfg Recorder.surroundings [.loadReference 0x10000008 0x2000]
          ⟨.empty, 1, [], none, []⟩,
        .call (.loadReference 0x2000) ∈ t.steps :=
  ⟨rfl, _, List.mem_cons_self, by decide⟩

end HeapBridge.Barrier
