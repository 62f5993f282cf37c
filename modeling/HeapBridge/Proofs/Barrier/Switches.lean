import HeapBridge.Proofs.Barrier.Confined

/-!
# What the switches leave to barriers

Each switch of a configuration takes some steps from the barriers. Direct calls and graphs take none
but the others, whatever they are called for and whatever is answered, with one exception: the entry
for loaded values tells of its own value and does not ask whether loads have barriers. The addresses
of unlog bits play no part in this, so a barrier that fails on their width is covered as well.
-/
namespace HeapBridge.Barrier
variable {σ : Type} {ok : Event → Prop} {inv : σ → Prop} {cfg : Config} {env : Surroundings σ}

/-- Whether the switches leave an entry to the barriers. -/
def Entry.isAllowed (cfg : Config) : Entry → Bool
  | .writeSlow => cfg.fastPath
  | .writePre => !cfg.fastPath
  | .loadReference => cfg.loadBarrier
  | .arrayCopyPre => !cfg.noArrayCopy
  | .clonePre => true

/-- Whether the switches leave a step to the barriers. -/
def Event.isAllowed (cfg : Config) : Event → Bool
  | .loadMetadata _ => cfg.fastPath
  | .call c => c.entry.isAllowed cfg
  | .loadFlag | .checkReference _ | .copy .. | .fence => true

/-- A look at the marking flag or at the class of an object. -/
def Event.isLook : Event → Bool
  | .loadFlag | .checkReference _ => true
  | .loadMetadata _ | .call _ | .copy .. | .fence => false

theorem Event.isAllowed_of_isLook (e : Event) (h : e.isLook = true) : e.isAllowed cfg = true := by
  cases e <;> simp_all [isLook, isAllowed]

theorem Load.loadBarrier_of_needsBarrier {l : Load} (h : l.needsBarrier cfg = true) :
    cfg.loadBarrier = true := by
  simp only [needsBarrier, Bool.and_eq_true] at h
  exact h.1.1

/-! ## Direct calls -/

namespace Direct

/-- A load that needs no barrier asks for nothing. Any other may look before it tells of its value.
-/
theorem confined_loadReferenceAt (hlook : ∀ e : Event, e.isLook = true → ok e)
    (henv : env.Keeps ok inv) (l : Load) (htell : cfg.loadBarrier = true →
      Confined ok inv (loadReference cfg env.traced l.slot l.value) fun _ => True) :
    Confined ok inv (loadReferenceAt cfg env.traced l) fun _ => True := by
  refine .ite (fun hneeds => ?_) fun _ => .any _
  have hreads : ∀ reads : Bool, Confined ok inv
      (if reads then loadReference cfg env.traced l.slot l.value else pure ()) fun _ => True :=
    fun _ => .ite (fun _ => htell (Load.loadBarrier_of_needsBarrier hneeds)) fun _ => .any _
  refine .ite (fun _ => .ite (fun _ => ?_) fun _ => hreads false) fun _ => hreads true
  exact .bind (henv.confined_isReference (hlook _ rfl)) fun reads _ => hreads reads

section
variable (hok : ∀ e : Event, e.isAllowed cfg = true → ok e) (henv : env.Keeps ok inv)
include hok henv

theorem confined_writePre (src : ObjectRef) (slot : Address) (target : ObjectRef) :
    Confined ok inv (writePre cfg env.traced src slot target) fun _ => True := by
  refine .ite (fun hf => ?_) fun hf => ?_
  · refine .bind (.lift_any _) fun log _ => .bind (.lift_any _) fun index _ => ?_
    refine .bind (.lift_any _) fun region _ => ?_
    refine .bind (henv.confined_loadMetadata (hok _ hf)) fun byte _ => ?_
    exact .ite (fun _ => henv.confined_call (hok _ hf)) fun _ => .any _
  · exact henv.confined_call (hok _ (congrArg (!·) (eq_false_of_ne_true hf)))

/-- The entry for loaded values tells the collector of its own value, whatever the switches are. -/
theorem confined_loadReference (slot : Address) (value : ObjectRef)
    (htell : cfg.loadMode = .referenceCall → ok (.call (.loadReference value))) :
    Confined ok inv (loadReference cfg env.traced slot value) fun _ => True := by
  refine .bind (henv.confined_loadFlag (hok _ rfl)) fun flag _ => .ite (fun _ => ?_) fun _ => .any _
  cases hm : cfg.loadMode with
  | referenceCall => exact henv.confined_call (htell hm)
  | slotLogging => exact confined_writePre hok henv value slot value

theorem confined_arrayCopyPre (src dst : Address) (count : Word) :
    Confined ok inv (arrayCopyPre cfg env.traced src dst count) fun _ => True := by
  refine .ite (fun hc => henv.confined_call (hok _ ?_)) fun _ => .any _
  simp only [Bool.not_or, Bool.and_eq_true] at hc
  exact hc.1

theorem confined_cloneInHeap (src dst : ObjectRef) (size : Word) (fresh : Bool) :
    Confined ok inv (cloneInHeap env.traced src dst size fresh) fun _ => True := by
  refine .bind (henv.confined_copy (hok _ rfl)) fun _ _ => .ite (fun _ => ?_) fun _ => .any _
  exact .bind (henv.confined_call (hok _ rfl)) fun _ _ => henv.confined_fence (hok _ rfl)

theorem confined_run (access : Access) :
    Confined ok inv (run cfg env.traced access) fun _ => True := by
  cases access with
  | store s => exact .ite (fun _ => confined_writePre hok henv _ _ _) fun _ => .any _
  | load l =>
    refine confined_loadReferenceAt (fun e he => hok e (e.isAllowed_of_isLook he)) henv l ?_
    exact fun hl => confined_loadReference hok henv _ _ fun _ => hok _ hl
  | arrayCopy c => exact .ite (fun _ => confined_arrayCopyPre hok henv _ _ _) fun _ => .any _
  | clone c => exact confined_cloneInHeap hok henv _ _ _ _

end
end Direct

/-! ## Graphs -/

/-- The steps that the evaluation of an expression may take. -/
def Node.MayTake : Node → Event → Prop
  | .con _, _ | .input _, _ => False
  | .shiftRight a b, e | .mask a b, e | .add a b, e => a.MayTake e ∨ b.MayTake e
  | .loadByte address, e => address.MayTake e ∨ ∃ a, e = .loadMetadata a
  | .loadFlag, e => e = .loadFlag
  | .isReference object, e => object.MayTake e ∨ ∃ o, e = .checkReference o

namespace Graph
open Build
variable {access : Access}

theorem confined_eval (henv : env.Keeps ok inv) (n : Node) (h : ∀ e, n.MayTake e → ok e) :
    Confined ok inv (eval env.traced access n) fun _ => True := by
  induction n with
  | con w => exact .any w
  | input operand =>
    rw [eval]
    split
    · exact .any _
    · exact .throw _
  | shiftRight a b iha ihb =>
    refine .bind (iha fun e he => h e (.inl he)) fun v _ => ?_
    exact .bind (ihb fun e he => h e (.inr he)) fun n _ => .lift_any _
  | mask a b iha ihb | add a b iha ihb =>
    refine .bind (iha fun e he => h e (.inl he)) fun v _ => ?_
    exact .bind (ihb fun e he => h e (.inr he)) fun n _ => .any _
  | loadByte address ih =>
    refine .bind (ih fun e he => h e (.inl he)) fun a _ => ?_
    exact .bind (henv.confined_loadMetadata (h _ (.inr ⟨a, rfl⟩))) fun byte _ => .any _
  | loadFlag => exact .bind (henv.confined_loadFlag (h _ rfl)) fun flag _ => .any _
  | isReference object ih =>
    refine .bind (ih fun e he => h e (.inl he)) fun o _ => ?_
    exact .bind (henv.confined_isReference (h _ (.inr ⟨o, rfl⟩))) fun b _ => .any _

theorem confined_evalAll (henv : env.Keeps ok inv) (ns : List Node)
    (h : ∀ n ∈ ns, ∀ e, n.MayTake e → ok e) :
    Confined ok inv (evalAll env.traced access ns) fun _ => True := by
  induction ns with
  | nil => exact .any _
  | cons n ns ih =>
    refine .bind (confined_eval henv n (h n List.mem_cons_self)) fun w _ => ?_
    exact .bind (ih fun n' hn => h n' (List.mem_cons_of_mem n hn)) fun ws _ => .any _

/-- Statements that are confined when they are executed for an access. -/
def Obedient (ok : Event → Prop) (inv : σ → Prop) (env : Surroundings σ) (access : Access)
    (body : List Stmt) : Prop :=
  ∀ s ∈ body, Confined ok inv (execStmt env.traced access s) fun _ => True

theorem Obedient.exec {body : List Stmt} (h : Obedient ok inv env access body) :
    Confined ok inv (Graph.exec env.traced access body) fun _ => True := by
  induction body with
  | nil => exact .any _
  | cons s body ih =>
    rw [Graph.exec]
    refine .bind (h s List.mem_cons_self) fun _ _ => ?_
    exact ih fun t ht => h t (List.mem_cons_of_mem s ht)

/-- Construction that adds none but confined statements. -/
def Obeys {α : Type} (ok : Event → Prop) (inv : σ → Prop) (env : Surroundings σ) (access : Access)
    (b : Build α) : Prop :=
  ∀ before a after, b before = .ok (a, after) → Obedient ok inv env access before →
    Obedient ok inv env access after

namespace Obeys
variable {α β : Type} {b : Build α}

theorem pure (a : α) : Obeys ok inv env access (Pure.pure a : Build α) := by
  rintro before _ _ ⟨⟩ hbefore
  exact hbefore

theorem lift (e : Except Fault α) : Obeys ok inv env access (liftM e : Build α) := by
  intro before a after h hbefore
  cases e with
  | error f => cases h
  | ok x =>
    cases h
    exact hbefore

theorem bind {f : α → Build β} (h : Obeys ok inv env access b)
    (hf : ∀ a, Obeys ok inv env access (f a)) : Obeys ok inv env access (b >>= f) := by
  intro before c after hrun hbefore
  obtain ⟨⟨a, between⟩, hb, hrest⟩ := exists_of_bind hrun
  exact hf a between c after hrest (h before a between hb hbefore)

theorem ite {c : Prop} [Decidable c] {b' : Build α} (h : c → Obeys ok inv env access b)
    (h' : ¬c → Obeys ok inv env access b') : Obeys ok inv env access (if c then b else b') := by
  split
  · exact h ‹_›
  · exact h' ‹_›

theorem append {s : Stmt} (h : Confined ok inv (execStmt env.traced access s) fun _ => True) :
    Obeys ok inv env access (Build.append s) := by
  rintro before _ _ ⟨⟩ hbefore t ht
  obtain ht | ht := List.mem_append.mp ht
  · exact hbefore t ht
  · rwa [List.mem_singleton.mp ht]

theorem call (henv : env.Keeps ok inv) {entry : Entry} {args : List Node}
    (hcall : ∀ c : Call, c.entry = entry → ok (.call c))
    (hargs : ∀ n ∈ args, ∀ e, n.MayTake e → ok e) :
    Obeys ok inv env access (Build.call entry args) := by
  refine .ite (fun _ => .append ?_) fun _ => ?_
  · rw [execStmt]
    refine .bind (confined_evalAll henv args hargs) fun words _ => ?_
    cases hc : entry.bind? words with
    | none => exact .throw _
    | some c => exact henv.confined_call (hcall c (Entry.entry_of_bind? hc))
  · rintro before _ _ ⟨⟩

/-- A guarded block is confined if both sides of its test are, and if what stands in it is wherever
the test may hold. -/
theorem ifThen {lhs rhs : Node} {test : Test} {p : Decimal.Binary32} {inner : Build Unit}
    {left right : Word → Prop} (hl : Confined ok inv (eval env.traced access lhs) left)
    (hr : Confined ok inv (eval env.traced access rhs) right)
    (hinner : ∀ l r, left l → right r → test.holds l r = true → Obeys ok inv env access inner) :
    Obeys ok inv env access (Build.ifThen lhs test rhs p inner) := by
  intro before a after hrun hbefore
  change (inner [] >>= fun q => Except.ok ((), before ++ [.ifThen lhs test rhs p q.2])) = _ at hrun
  obtain ⟨⟨u, body⟩, hbody, happend⟩ := exists_of_bind hrun
  cases happend
  refine append ?_ before () _ rfl hbefore
  rw [execStmt]
  refine .bind hl fun l hl' => .bind hr fun r hr' => .ite (fun ht => ?_) fun _ => .any _
  exact (hinner l r hl' hr' ht [] u body hbody nofun).exec

/-- A guarded block of which nothing is known but the steps of its test. -/
theorem block (henv : env.Keeps ok inv) {lhs rhs : Node} {test : Test} {p : Decimal.Binary32}
    {inner : Build Unit} (hl : ∀ e, lhs.MayTake e → ok e) (hr : ∀ e, rhs.MayTake e → ok e)
    (h : Obeys ok inv env access inner) :
    Obeys ok inv env access (Build.ifThen lhs test rhs p inner) :=
  ifThen (confined_eval henv lhs hl) (confined_eval henv rhs hr) fun _ _ _ _ _ => h

theorem memoryBarrier_compilerOrder : Obeys ok inv env access (memoryBarrier .compilerOrder) :=
  append (by rw [execStmt]; exact .any _)

theorem memoryBarrier_full (henv : env.Keeps ok inv) (hf : ok .fence) :
    Obeys ok inv env access (memoryBarrier .full) :=
  append (by rw [execStmt]; exact henv.confined_fence hf)

theorem finish {b : Build Unit} (h : Obeys ok inv env access b) {g : Graph} (hg : b.finish = .ok g) :
    Confined ok inv (g.run env.traced access) fun _ => True := by
  obtain ⟨⟨u, body⟩, hb, hgraph⟩ := exists_of_bind hg
  cases hgraph
  exact (h [] u body hb nofun).exec

end Obeys

/-! ### Barriers -/

section
variable (hok : ∀ e : Event, e.isAllowed cfg = true → ok e) (henv : env.Keeps ok inv)
include hok henv

theorem obeys_call (entry : Entry) (hentry : entry.isAllowed cfg = true) {args : List Node}
    (hargs : ∀ n ∈ args, ∀ e, n.MayTake e → ok e) :
    Obeys ok inv env access (Build.call entry args) := by
  refine .call henv (fun c hc => hok _ ?_) hargs
  rwa [Event.isAllowed, hc]

theorem obeys_writeBarrier (x y z : Operand) :
    Obeys ok inv env access (writeBarrier cfg (.input x) (.input y) (.input z)) := by
  refine .ite (fun hf => .bind (.lift _) fun log => ?_) fun hf => ?_
  · refine .block henv ?_ nofun (obeys_call hok henv .writeSlow hf (by simp [Node.MayTake]))
    simpa [Node.MayTake] using fun a => hok (.loadMetadata a) hf
  · exact obeys_call hok henv .writePre (by simp [Entry.isAllowed, hf]) (by simp [Node.MayTake])

theorem obeys_loadReport (hl : cfg.loadBarrier = true) :
    Obeys ok inv env access (loadReport cfg) := by
  refine .block henv ?_ nofun (.block henv nofun nofun ?_)
  · rintro e rfl
    exact hok _ rfl
  cases hm : cfg.loadMode with
  | referenceCall => exact obeys_call hok henv .loadReference hl (by simp [Node.MayTake])
  | slotLogging => exact obeys_writeBarrier hok henv .value .slot .value

end

theorem obeys_loadBarrier (hlook : ∀ e : Event, e.isLook = true → ok e) (henv : env.Keeps ok inv)
    {l : Load} (hreport : cfg.loadBarrier = true → Obeys ok inv env access (loadReport cfg)) :
    Obeys ok inv env access (loadBarrier cfg l) := by
  refine .ite (fun hneeds => ?_) fun _ => .pure _
  have hordered : Obeys ok inv env access (do loadReport cfg; memoryBarrier .compilerOrder) :=
    .bind (hreport (Load.loadBarrier_of_needsBarrier hneeds)) fun _ =>
      .memoryBarrier_compilerOrder
  refine .ite (fun _ => hordered) fun _ => .ite (fun _ => ?_) fun _ => .pure _
  refine .block henv nofun nofun (.block henv ?_ nofun hordered)
  intro e he
  obtain ⟨o, rfl⟩ : ∃ o, e = .checkReference o := by simpa [Node.MayTake] using he
  exact hlook _ rfl

/-- The graph of an access takes none but allowed steps, for whatever access it is run. -/
theorem obeys_build (hok : ∀ e : Event, e.isAllowed cfg = true → ok e) (henv : env.Keeps ok inv)
    (a : Access) : Obeys ok inv env access (build cfg a) := by
  cases a with
  | store s => exact .ite (fun _ => obeys_writeBarrier hok henv _ _ _) fun _ => .pure _
  | load l =>
    exact obeys_loadBarrier (fun e he => hok e (e.isAllowed_of_isLook he)) henv
      (obeys_loadReport hok henv)
  | arrayCopy c =>
    refine .ite (fun hc => ?_) fun _ => .pure _
    simp only [Bool.and_eq_true] at hc
    exact .block henv nofun nofun (obeys_call hok henv .arrayCopyPre hc.2 (by simp [Node.MayTake]))
  | clone c =>
    refine .bind (.append ?_) fun _ => .ite (fun _ => ?_) fun _ => .pure _
    · rw [execStmt]
      refine .bind (confined_eval henv _ nofun) fun s _ => ?_
      refine .bind (confined_eval henv _ nofun) fun d _ => ?_
      exact .bind (confined_eval henv _ nofun) fun n _ => henv.confined_copy (hok _ rfl)
    · exact .bind (obeys_call hok henv .clonePre rfl (by simp [Node.MayTake])) fun _ =>
        .memoryBarrier_full henv (hok _ rfl)

end Graph

/-! ## Loads while marking is off -/

/-- While marking is off, the flag says so, and no look switches marking on. -/
structure Surroundings.IsOff (env : Surroundings σ) (off : σ → Prop) : Prop where
  flag_eq : ∀ s, off s → ∀ flag t, env.loadFlag s = .ok flag t → flag = 0
  loadFlag : StaysIn off env.loadFlag
  isReference : ∀ o, StaysIn off (env.isReference o)

namespace Surroundings.IsOff
variable {off : σ → Prop}

theorem keeps (h : env.IsOff off) : env.Keeps (·.isLook = true) off where
  loadMetadata := nofun
  loadFlag _ := h.loadFlag
  isReference o _ := h.isReference o
  call := nofun
  copy := nofun
  fence := nofun

theorem confined_loadFlag (h : env.IsOff off) :
    Confined (·.isLook = true) off env.traced.loadFlag (· = 0) :=
  .noted rfl h.loadFlag h.flag_eq

theorem confined_loadReference (h : env.IsOff off) (slot : Address) (value : ObjectRef) :
    Confined (·.isLook = true) off (Direct.loadReference cfg env.traced slot value)
      fun _ => True := by
  refine .bind h.confined_loadFlag fun flag hz => .ite (fun hf => ?_) fun _ => .any _
  simp [hz] at hf

theorem obeys_loadReport (h : env.IsOff off) {access : Access} :
    Graph.Obeys (·.isLook = true) off env access (Graph.loadReport cfg) := by
  have hflag : Confined (·.isLook = true) off (Graph.eval env.traced access .loadFlag) (· = 0) := by
    refine .bind h.confined_loadFlag fun flag hz => .pure ?_
    rw [hz]
    rfl
  have hzero : Confined (·.isLook = true) off (Graph.eval env.traced access (.con 0)) (· = 0) :=
    .pure rfl
  refine .ifThen hflag hzero fun l r hl hr ht => ?_
  rw [hl, hr] at ht
  exact absurd ht (by decide)

end Surroundings.IsOff
end HeapBridge.Barrier
