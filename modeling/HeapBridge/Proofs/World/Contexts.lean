import HeapBridge.Proofs.Alloc.Lease

/-!
# Contexts at their places

The mutator side keeps the contexts of its threads in places of its own state, beside the stand-in
for the collector. The stand-in never looks at them. So what the mutator side does to the context at
a place is what `Alloc.Call` does to a context in place, and what is proved of calls holds of it.
-/
namespace HeapBridge

/-! ## Changes that a computation does not see -/

namespace Act
variable {σ α β : Type} {g : σ → σ}

/-- A change of the state that makes no difference to a computation, and that it does not undo. -/
def Blind (g : σ → σ) (act : Act σ α) : Prop :=
  ∀ s, act.attempt (g s) = ((act.attempt s).1, g (act.attempt s).2)

namespace Blind
variable {act act' : Act σ α}

theorem pure (a : α) : Blind g (Pure.pure a) := fun _ => rfl

theorem throw (f : Fault) : Blind g (MonadExcept.throw f : Act σ α) := fun _ => rfl

theorem modify {h : σ → σ} (hcomm : ∀ s, h (g s) = g (h s)) :
    Blind g (modify h : Act σ Unit) := by
  intro s
  change (Except.ok (), h (g s)) = _
  rw [hcomm]
  rfl

theorem bind {f : α → Act σ β} (h : Blind g act) (hf : ∀ a, Blind g (f a)) :
    Blind g (act >>= f) := by
  intro s
  rw [attempt_bind, attempt_bind, h s]
  rcases act.attempt s with ⟨_ | a, t⟩
  · rfl
  · exact hf a t

/-- A look at the state that does not see the change. -/
theorem get {f : σ → Act σ α} (hsame : ∀ s, f (g s) = f s) (h : ∀ s, Blind g (f s)) :
    Blind g (MonadState.get >>= f) := by
  intro s
  change (f (g s)).attempt (g s) = _
  rw [hsame, h s s]
  rfl

theorem ite {c : Prop} [Decidable c] (h : Blind g act) (h' : Blind g act') :
    Blind g (if c then act else act') := by
  split
  · exact h
  · exact h'

end Blind
end Act

namespace Alloc
variable {σ : Type} {g : σ → σ}

/-- A collector that does not see a change of the state. -/
structure Service.Blind (g : σ → σ) (svc : Service σ) : Prop where
  recordSizes : svc.recordSizes.Blind g
  isReady : svc.isReady.Blind g
  bind : ∀ t, (svc.bind t).Blind g
  release : ∀ lease r, (svc.release lease r).Blind g
  alloc : ∀ r size align offset sem, (svc.alloc r size align offset sem).Blind g
  postAlloc : ∀ r o size sem, (svc.postAlloc r o size sem).Blind g
  flush : ∀ r, (svc.flush r).Blind g
  destroy : ∀ r, (svc.destroy r).Blind g
  report : ∀ d, (svc.report d).Blind g

namespace Service.Blind
variable {svc : Service σ}

theorem context_bind (h : svc.Blind g) (t : Thread) : (Context.bind svc t).Blind g := by
  refine h.recordSizes.bind fun theirs => .bind ?_ fun _ => (h.bind t).bind fun _ => .pure _
  exact .ite ((h.report _).bind fun _ => .throw _) (.pure _)

theorem context_ensureBound (h : svc.Blind g) (t : Thread) (c : Context) :
    (Context.ensureBound svc t c).Blind g :=
  .ite (.pure c) (h.isReady.bind fun _ => .ite (h.context_bind t) (.pure c))

theorem context_allocSlow (h : svc.Blind g) (size : Word) (sem : Semantics) (c : Context) :
    (Context.allocSlow svc size sem c).Blind g := by
  refine (h.alloc c.record size Units.heapWordSize 0 sem).bind fun p => ?_
  exact .ite ((h.postAlloc p.2 p.1 size sem).bind fun _ => .pure _) (.pure _)

theorem context_alloc (h : svc.Blind g) (cfg : Config) (size : Word) (sem : Semantics)
    (c : Context) : (Context.alloc svc cfg size sem c).Blind g := by
  rcases Context.alloc_way cfg size sem c with ⟨f, hway⟩ | ⟨a, r, hway⟩ | ⟨sem', hway⟩
  · rw [hway svc]
    exact .throw f
  · rw [hway svc]
    exact .pure _
  · rw [hway svc]
    exact h.context_allocSlow size sem' c

theorem context_flush (h : svc.Blind g) (c : Context) : (Context.flush svc c).Blind g :=
  (h.flush c.record).bind fun _ => .pure _

theorem context_destroy (h : svc.Blind g) (c : Context) : (Context.destroy svc c).Blind g := by
  obtain ⟨record, _ | lease⟩ := c
  · exact .pure _
  · exact (h.destroy record).bind fun r => (h.release lease r).bind fun _ => .pure _

end Service.Blind
end Alloc

/-! ## Places -/

namespace World
open Alloc (Call Context Semantics)
variable {w : World} {α : Type} {i : Nat}

/-- The state with other contexts and another configuration of allocation. -/
def withKept (contexts : Nat → Context) (cfg : Alloc.Config) (w : World) : World :=
  { w with contexts := contexts, allocation := cfg }

/-- The state with another context at a place. -/
def withContext (i : Nat) (c : Context) (w : World) : World :=
  { w with contexts := fun x => if x = i then c else w.contexts x }

/-- The stand-in looks at neither. -/
theorem service_blind (contexts : Nat → Context) (cfg : Alloc.Config) :
    service.Blind (withKept contexts cfg) := by
  constructor
  · intro w
    rfl
  · intro w
    rfl
  · intro t
    refine .bind (.modify fun _ => rfl) fun _ => .get (fun _ => rfl) fun w => ?_
    have hlease : Act.Blind (withKept contexts cfg)
        (setCollector (fun c => { c with leases := c.leases + 1 }) >>= fun _ =>
          Pure.pure (w.collector.leases, Alloc.Record.ofThread t)) :=
      .bind (.modify fun _ => rfl) fun _ => .pure _
    exact .ite ((Act.Blind.throw _).bind fun _ => hlease) hlease
  · intro lease r
    exact .bind (.modify fun _ => rfl) fun _ => .modify fun _ => rfl
  · intro r size align offset sem w
    rfl
  · intro r o size sem
    exact .bind (.modify fun _ => rfl) fun _ => .pure r
  · intro r
    exact .bind (.modify fun _ => rfl) fun _ => .pure r
  · intro r
    exact .bind (.modify fun _ => rfl) fun _ => .pure r
  · intro d
    exact .modify fun _ => rfl

/-- Does something with the context at a place. -/
def atPlace (i : Nat) (act : Act (Context × World) α) : Act World α := fun w =>
  match act (w.contexts i, w) with
  | .ok a (c, t) => .ok a (t.withContext i c)
  | .error f (c, t) => .error f (t.withContext i c)

theorem attempt_atPlace (act : Act (Context × World) α) (w : World) :
    (atPlace i act).attempt w =
      ((act.attempt (w.contexts i, w)).1,
        (act.attempt (w.contexts i, w)).2.2.withContext i (act.attempt (w.contexts i, w)).2.1) := by
  unfold Act.attempt atPlace
  cases act (w.contexts i, w) <;> rfl

theorem attempt_setContext (act : Act World Context) (w : World) :
    (act >>= setContext i).attempt w =
      match act.attempt w with
      | (.ok c, t) => (.ok (), t.withContext i c)
      | (.error f, t) => (.error f, t) := by
  rw [Act.attempt_bind]
  rcases act.attempt w with ⟨_ | c, t⟩ <;> rfl

/-- A computation that does not see the kept parts leaves them as they are. -/
theorem kept_of_blind {act : Act World α} (h : ∀ contexts cfg, act.Blind (withKept contexts cfg))
    (w : World) : (act.attempt w).2 = (act.attempt w).2.withKept w.contexts w.allocation :=
  congrArg Prod.snd (h w.contexts w.allocation w)

theorem withContext_of_kept {contexts : Nat → Context} {cfg : Alloc.Config}
    (h : w = w.withKept contexts cfg) (c : Context) :
    w.withContext i c = w.withKept (fun x => if x = i then c else contexts x) cfg := by
  conv_lhs => rw [h]
  rfl

theorem withContext_self_of_kept {contexts : Nat → Context} {cfg : Alloc.Config}
    (h : w = w.withKept contexts cfg) : w.withContext i (contexts i) = w := by
  have hsame : (fun x => if x = i then contexts i else contexts x) = contexts := by
    ext x
    split
    · subst x
      rfl
    · rfl
  rw [withContext_of_kept h, hsame, ← h]

/-- With a computation that does not see where contexts are kept, a place is as good as any. -/
theorem attempt_atPlace_replace {act : Context → Act World Context}
    (hblind : ∀ c contexts cfg, (act c).Blind (withKept contexts cfg)) (w : World) :
    (atPlace i (Context.replace act)).attempt w =
      (act (w.contexts i) >>= setContext i).attempt w := by
  have hkept := kept_of_blind (hblind (w.contexts i)) w
  rw [attempt_atPlace, attempt_setContext, Context.attempt_replace]
  rcases hrun : (act (w.contexts i)).attempt w with ⟨f | c, t⟩
  · rw [hrun] at hkept
    have hself : t.withContext i (w.contexts i) = t := withContext_self_of_kept hkept
    exact congrArg (Prod.mk (Except.error f)) hself
  · rfl

/-! ## The entry points -/

theorem bind_eq_call (i : Nat) (t : Thread) (cfg : Alloc.Config) (w : World) :
    (World.bind i t).attempt w = (atPlace i ((Call.bind t).act service cfg)).attempt w :=
  (attempt_atPlace_replace (fun _ _ _ => (service_blind _ _).context_bind t) w).symm

theorem ensureBound_eq_call (i : Nat) (cfg : Alloc.Config) (w : World) :
    (World.ensureBound i).attempt w =
      (atPlace i ((Call.ensureBound w.thread).act service cfg)).attempt w :=
  (attempt_atPlace_replace (fun c _ _ => (service_blind _ _).context_ensureBound w.thread c) w).symm

theorem flush_eq_call (i : Nat) (cfg : Alloc.Config) (w : World) :
    (World.flush i).attempt w = (atPlace i (Call.flush.act service cfg)).attempt w :=
  (attempt_atPlace_replace (fun c _ _ => (service_blind _ _).context_flush c) w).symm

theorem destroy_eq_call (i : Nat) (cfg : Alloc.Config) (w : World) :
    (World.destroy i).attempt w = (atPlace i (Call.destroy.act service cfg)).attempt w :=
  (attempt_atPlace_replace (fun c _ _ => (service_blind _ _).context_destroy c) w).symm

theorem attempt_allocFrom (i : Nat) (size : Word) (sem : Semantics) (w : World) :
    (World.allocFrom i size sem).attempt w =
      match (Context.alloc service w.allocation size sem (w.contexts i)).attempt w with
      | (.ok (a, c), t) => (.ok a, t.withContext i c)
      | (.error f, t) => (.error f, t) := by
  have hrun : World.allocFrom i size sem w =
      (Context.alloc service w.allocation size sem (w.contexts i) >>= fun p =>
        setContext i p.2 >>= fun _ => Pure.pure p.1) w := rfl
  have hattempt : (World.allocFrom i size sem).attempt w =
      (Context.alloc service w.allocation size sem (w.contexts i) >>= fun p =>
        setContext i p.2 >>= fun _ => Pure.pure p.1).attempt w := by
    unfold Act.attempt
    rw [hrun]
  rw [hattempt, Act.attempt_bind]
  rcases (Context.alloc service w.allocation size sem (w.contexts i)).attempt w with ⟨_ | ⟨a, c⟩, t⟩
  · rfl
  · rfl

/-- Whether the context is in its place already makes no difference to an allocation from it. -/
theorem attempt_allocFrom_withContext (i : Nat) (size : Word) (sem : Semantics) (w : World)
    (c : Context) :
    ((fun _ => ()) <$> World.allocFrom i size sem).attempt (w.withContext i c) =
      match (Context.replace fun c =>
        Prod.snd <$> Context.alloc service w.allocation size sem c).attempt (c, w) with
      | (outcome, c', t) => (outcome, t.withContext i c') := by
  have hblind := fun contexts cfg =>
    (service_blind contexts cfg).context_alloc w.allocation size sem c
  have hkept := kept_of_blind hblind w
  have hplace : (w.withContext i c).contexts i = c := if_pos rfl
  have hcfg : (w.withContext i c).allocation = w.allocation := rfl
  have hrun : (Context.alloc service w.allocation size sem c).attempt (w.withContext i c) = _ :=
    hblind (w.withContext i c).contexts w.allocation w
  rw [Act.attempt_map, attempt_allocFrom, hplace, hcfg, hrun, Context.attempt_replace,
    Act.attempt_map]
  rcases hw : (Context.alloc service w.allocation size sem c).attempt w with ⟨f | ⟨a, c'⟩, t⟩
  · rw [hw] at hkept
    exact congrArg (Prod.mk (Except.error f)) (withContext_of_kept hkept c).symm
  · rw [hw] at hkept
    have hover : (fun x => if x = i then c' else (w.withContext i c).contexts x) =
        fun x => if x = i then c' else w.contexts x := by
      ext x
      by_cases hx : x = i <;> simp [withContext, hx]
    refine congrArg (Prod.mk (Except.ok ())) ?_
    rw [withContext_of_kept hkept c', ← hover]
    rfl

/-- The allocation works in the state that the bind on first use left, with the context in its
place. To the collector that makes no difference. -/
theorem alloc_eq_call (i : Nat) (size : Word) (sem : Semantics) (w : World) :
    ((fun _ => ()) <$> World.alloc i size sem).attempt w =
      (atPlace i ((Call.alloc w.thread size sem).act service w.allocation)).attempt w := by
  have hfirst := ensureBound_eq_call i w.allocation w
  unfold Call.act at hfirst ⊢
  rw [attempt_atPlace, Context.attempt_replace] at hfirst
  have hkept := kept_of_blind
    (fun _ _ => (service_blind _ _).context_ensureBound w.thread (w.contexts i)) w
  unfold World.alloc
  rw [Act.attempt_map, Act.attempt_bind, hfirst, attempt_atPlace, Act.attempt_bind,
    Context.attempt_replace]
  rcases hrun : (Context.ensureBound service w.thread (w.contexts i)).attempt w with ⟨f | c, t⟩
  · rfl
  · rw [hrun] at hkept
    have hcfg : t.allocation = w.allocation := (congrArg World.allocation hkept).trans rfl
    have hsecond := attempt_allocFrom_withContext i size sem t c
    rw [Act.attempt_map, hcfg] at hsecond
    exact hsecond

end World
end HeapBridge
