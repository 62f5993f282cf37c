import HeapBridge.Proofs.Alloc.Contact
import HeapBridge.World.Allocation

/-!
# The books of the leases

A context takes records on lease and gives them back. `effect` says what one call can do with the
leases, whatever the collector does. From it follow the books of a run: every lease that was taken
was given back, is held, or was lost because its context was bound over it. An explicit bind does
not ask whether the context holds a lease; binding on first use does, and loses none.
-/
namespace HeapBridge.Alloc
variable {σ : Type}

/-! ## Calls -/

/-- What is done with the context of a thread. -/
inductive Call
  | bind (t : Thread)
  /-- Binds on first use. -/
  | ensureBound (t : Thread)
  /-- Allocates on behalf of a thread. The context is bound on first use. -/
  | alloc (t : Thread) (size : Word) (sem : Semantics)
  | flush
  | destroy
deriving DecidableEq

/-- Puts a context in the place of the one that is there. -/
def Context.replace (act : Context → Act σ Context) : Act (Context × σ) Unit :=
  Context.inPlace fun c => Prod.mk () <$> act c

/-- Makes a call on a context in place. -/
def Call.act (svc : Service σ) (cfg : Config) : Call → Act (Context × σ) Unit
  | bind t => Context.replace fun _ => Context.bind svc t
  | ensureBound t => Context.replace (Context.ensureBound svc t)
  | alloc t size sem => do
    Context.replace (Context.ensureBound svc t)
    Context.replace fun c => Prod.snd <$> Context.alloc svc cfg size sem c
  | flush => Context.replace (Context.flush svc)
  | destroy => Context.replace (Context.destroy svc)

/-- Whether a call binds its context if that holds no lease. -/
def Call.bindsFirst : Call → Bool
  | ensureBound _ | alloc .. => true
  | _ => false

/-- What a call does to a context, with the contacts that it takes for it. -/
inductive Effect (svc : Service σ) : Call → Context → List Contact → Context → Prop
  /-- No lease changes hands. -/
  | keeps {call : Call} {c : Context} {contacts : List Contact} (r : Record)
      (h : contacts.all (!·.isOfLease)) : Effect svc call c contacts { c with record := r }
  | binds {t : Thread} {c : Context} (lease : Lease) (r : Record) :
      Effect svc (.bind t) c [.taken lease] ⟨r, some lease⟩
  | bindsFirst {call : Call} {c : Context} {contacts : List Contact} (lease : Lease) (r : Record)
      (hcall : call.bindsFirst) (hunbound : c.lease = none) (h : contacts.all (!·.isOfLease)) :
      Effect svc call c (.taken lease :: contacts) ⟨r, some lease⟩
  | gives {c : Context} {lease : Lease} {r : Record} (hbound : c.lease = some lease)
      (h : (svc.destroy c.record).CanEnd (.ok r)) :
      Effect svc .destroy c [.destroyed, .returned lease r] ⟨r, none⟩
  /-- The collector does not take the record back. -/
  | refused {c : Context} {lease : Lease} {r : Record} {f : Fault} (hbound : c.lease = some lease)
      (h : (svc.release lease r).CanEnd (.error f)) : Effect svc .destroy c [.destroyed] c

theorem Context.attempt_replace (act : Context → Act σ Context) (c : Context) (s : σ) :
    (replace act).attempt (c, s) =
      match (act c).attempt s with
      | (.ok c', t) => (.ok (), c', t)
      | (.error f, t) => (.error f, c, t) := by
  unfold replace
  rw [attempt_inPlace, Act.attempt_map]
  rcases (act c).attempt s with ⟨_ | c', t⟩ <;> rfl

/-- A watched computation in place, behind contacts that were taken before. -/
theorem Context.attempt_replace_of_watched {act : Act σ Context}
    {fit : Except Fault Context → List Contact → Prop}
    (watched : Context → Act (σ × List Contact) Context) (c : Context)
    (h : Act.Watched act (watched c) fit) (s : σ) (earlier : List Contact) :
    ∃ outcome contacts t, fit outcome contacts ∧
      (replace watched).attempt (c, s, earlier) =
        match outcome with
        | .ok c' => (.ok (), c', t, earlier ++ contacts)
        | .error f => (.error f, c, t, earlier ++ contacts) := by
  obtain ⟨contacts, hfit, hrun⟩ := h s earlier
  refine ⟨(act.attempt s).1, contacts, (act.attempt s).2, hfit, ?_⟩
  rw [attempt_replace, hrun]
  rcases act.attempt s with ⟨_ | c', t⟩ <;> rfl

section Effects
variable {svc : Service σ} {cfg : Config}

theorem Effect.idle (svc : Service σ) (call : Call) (c : Context) : Effect svc call c [] c :=
  .keeps c.record rfl

/-- A call has an effect if whatever its computation fits has it. -/
theorem Effect.of_replace {call : Call} {act : Act σ Context}
    {watched : Context → Act (σ × List Contact) Context}
    {fit : Except Fault Context → List Contact → Prop} (c : Context)
    (hact : call.act svc.observed cfg = Context.replace watched)
    (h : Act.Watched act (watched c) fit)
    (hok : ∀ c' contacts, fit (.ok c') contacts → Effect svc call c contacts c')
    (herror : ∀ f contacts, fit (.error f) contacts → Effect svc call c contacts c) (s : σ) :
    Effect svc call c (observe (call.act svc.observed cfg) c s).1.contacts
      (observe (call.act svc.observed cfg) c s).1.after := by
  obtain ⟨outcome, contacts, t, hfit, hrun⟩ := Context.attempt_replace_of_watched watched c h s []
  unfold observe
  rw [hact, hrun]
  cases outcome with
  | ok c' => exact hok c' contacts hfit
  | error f => exact herror f contacts hfit

/-- An allocation changes the record of a context at most. -/
theorem attempt_replace_alloc (svc : Service σ) (cfg : Config) (size : Word) (sem : Semantics)
    (c : Context) (s : σ) (earlier : List Contact) :
    ∃ answer r t contacts, contacts.all (!·.isOfLease) ∧
      (Context.replace fun c => Prod.snd <$> Context.alloc svc.observed cfg size sem c).attempt
          (c, s, earlier) = (answer, { c with record := r }, t, earlier ++ contacts) := by
  have hwatched := (Context.watched_alloc svc cfg size sem c).map Prod.snd
  obtain ⟨_, contacts, t, ⟨outcome, ⟨hfree, hend⟩, rfl⟩, hrun⟩ :=
    Context.attempt_replace_of_watched
      (fun c => Prod.snd <$> Context.alloc svc.observed cfg size sem c) c hwatched s earlier
  rcases hend with ⟨f, rfl⟩ | ⟨a, r, rfl⟩
  · exact ⟨.error f, c.record, t, contacts, hfree, hrun⟩
  · exact ⟨.ok (), r, t, contacts, hfree, hrun⟩

/-- The bind on first use and the allocation, one after the other. -/
theorem effect_alloc (t : Thread) (size : Word) (sem : Semantics) (c : Context) (s : σ) :
    Effect svc (.alloc t size sem) c
      (observe ((Call.alloc t size sem).act svc.observed cfg) c s).1.contacts
      (observe ((Call.alloc t size sem).act svc.observed cfg) c s).1.after := by
  obtain ⟨outcome, bound, u, hbound, hfirst⟩ :=
    Context.attempt_replace_of_watched (Context.ensureBound svc.observed t) c
      (Context.watched_ensureBound svc t c) s []
  unfold observe Call.act
  rw [Act.attempt_bind, hfirst]
  cases outcome with
  | error f =>
    rcases hbound with ⟨-, lease, r, h, -⟩ | ⟨-, rfl⟩
    · cases h
    · exact .idle svc _ c
  | ok c' =>
    obtain ⟨answer, r, v, contacts, hfree, hsecond⟩ :=
      attempt_replace_alloc svc cfg size sem c' u ([] ++ bound)
    simp only
    rw [hsecond]
    rcases hbound with ⟨hunbound, lease, r', h, rfl⟩ | ⟨h | ⟨f, h⟩, rfl⟩
    · cases h
      exact .bindsFirst lease r rfl hunbound hfree
    · cases h
      exact .keeps r hfree
    · cases h

/-- Every call has one of the effects, whatever the collector does. -/
theorem effect (svc : Service σ) (cfg : Config) (call : Call) (c : Context) (s : σ) :
    Effect svc call c (observe (call.act svc.observed cfg) c s).1.contacts
      (observe (call.act svc.observed cfg) c s).1.after := by
  cases call with
  | bind t =>
    refine .of_replace c rfl (Context.watched_bind svc t) ?_ ?_ s
    · rintro c' contacts (⟨lease, r, h, rfl⟩ | ⟨⟨f, h⟩, -⟩)
      · cases h
        exact .binds lease r
      · cases h
    · rintro f contacts (⟨lease, r, h, -⟩ | ⟨-, rfl⟩)
      · cases h
      · exact .idle svc _ c
  | ensureBound t =>
    refine .of_replace c rfl (Context.watched_ensureBound svc t c) ?_ ?_ s
    · rintro c' contacts (⟨hunbound, lease, r, h, rfl⟩ | ⟨h | ⟨f, h⟩, rfl⟩)
      · cases h
        exact .bindsFirst lease r rfl hunbound rfl
      · cases h
        exact .idle svc _ c
      · cases h
    · rintro f contacts (⟨-, lease, r, h, -⟩ | ⟨-, rfl⟩)
      · cases h
      · exact .idle svc _ c
  | alloc t size sem => exact effect_alloc t size sem c s
  | flush =>
    refine .of_replace c rfl (Context.watched_flush svc c) ?_ ?_ s
    · rintro c' contacts ⟨rfl, ⟨f, h⟩ | ⟨r, h⟩⟩
      · cases h
      · cases h
        exact .keeps r rfl
    · rintro f contacts ⟨rfl, -⟩
      exact .keeps c.record rfl
  | destroy =>
    refine .of_replace c rfl (Context.watched_destroy svc c) ?_ ?_ s
    · rintro c' contacts (⟨-, h, rfl⟩ | ⟨lease, hbound, ⟨r, hend, h, rfl⟩ | ⟨⟨f, h⟩, -⟩⟩)
      · cases h
        exact .idle svc _ c
      · cases h
        exact .gives hbound hend
      · cases h
    · rintro f contacts (⟨-, h, -⟩ | ⟨lease, hbound, ⟨r, -, h, -⟩ | ⟨-, rfl | ⟨rfl, r, f, hend⟩⟩⟩)
      · cases h
      · cases h
      · exact .idle svc _ c
      · exact .refused hbound hend

end Effects

/-! ## Books -/

/-- The leases that a run took. -/
def taken (steps : List (Call × Step Unit)) : List Lease :=
  (steps.flatMap (·.2.contacts)).filterMap Contact.taken?

/-- The leases that a run gave back. -/
def returned (steps : List (Call × Step Unit)) : List Lease :=
  (steps.flatMap (·.2.contacts)).filterMap Contact.returned?

/-- The number of times that a run had a working copy made ready to be given back. -/
def destructions (steps : List (Call × Step Unit)) : Nat :=
  (steps.flatMap (·.2.contacts)).countP Contact.isDestroyed

/-- The lease of a context that took another one over it. -/
def lostOver (c : Context) (contacts : List Contact) : List Lease :=
  if contacts.filterMap Contact.taken? = [] then [] else c.lease.toList

/-- The leases that a run lost. -/
def lost (steps : List (Call × Step Unit)) : List Lease :=
  steps.flatMap fun p => lostOver p.2.before p.2.contacts

theorem taken?_eq_none_of_not_isOfLease {x : Contact} (h : !x.isOfLease) :
    x.taken? = none ∧ x.returned? = none ∧ x.isDestroyed = false := by
  cases x <;> simp_all [Contact.isOfLease, Contact.taken?, Contact.returned?, Contact.isDestroyed]

/-- Contacts that are no matter of leases do not show in the books. -/
theorem books_of_free {contacts : List Contact} (h : contacts.all (!·.isOfLease)) :
    contacts.filterMap Contact.taken? = [] ∧ contacts.filterMap Contact.returned? = [] ∧
      contacts.countP Contact.isDestroyed = 0 := by
  have hfree := fun x hx => taken?_eq_none_of_not_isOfLease (List.all_eq_true.mp h x hx)
  refine ⟨List.filterMap_eq_nil_iff.mpr fun x hx => (hfree x hx).1,
    List.filterMap_eq_nil_iff.mpr fun x hx => (hfree x hx).2.1,
    List.countP_eq_zero.mpr fun x hx => ?_⟩
  simp [(hfree x hx).2.2]

namespace Effect
variable {svc : Service σ} {call : Call} {c c' : Context} {contacts : List Contact}

/-- What a context held and took is what it gave back, holds and lost, lease by lease. -/
theorem balance (h : Effect svc call c contacts c') (lease : Lease) :
    c.lease.toList.count lease + (contacts.filterMap Contact.taken?).count lease =
      (contacts.filterMap Contact.returned?).count lease + c'.lease.toList.count lease +
        (lostOver c contacts).count lease := by
  cases h with
  | keeps r hfree => simp [lostOver, books_of_free hfree]
  | binds l r =>
    simp [lostOver, List.filterMap_cons, Contact.taken?, Contact.returned?]
    omega
  | bindsFirst l r hcall hunbound hfree =>
    simp [lostOver, List.filterMap_cons, Contact.taken?, Contact.returned?, books_of_free hfree,
      hunbound]
  | gives hbound hend =>
    simp [lostOver, List.filterMap_cons, Contact.taken?, Contact.returned?, hbound]
  | refused hbound hend =>
    simp [lostOver, List.filterMap_cons, Contact.taken?, Contact.returned?, hbound]

/-- Only an explicit bind of a context that holds a lease loses one. -/
theorem exists_bind_of_lost (h : Effect svc call c contacts c') (hlost : lostOver c contacts ≠ []) :
    (∃ t, call = .bind t) ∧ c.isBound := by
  cases h with
  | keeps r hfree => exact absurd (if_pos (books_of_free hfree).1) hlost
  | binds l r =>
    refine ⟨⟨_, rfl⟩, ?_⟩
    by_contra hunbound
    have hnone : c.lease = none := by simpa [Context.isBound] using hunbound
    simp [lostOver, hnone] at hlost
  | bindsFirst l r hcall hunbound hfree => simp [lostOver, hunbound] at hlost
  | gives hbound hend => exact absurd (if_pos rfl) hlost
  | refused hbound hend => exact absurd (if_pos rfl) hlost

/-- A collector that takes its records back destroys one for each that it takes. -/
theorem destructions_eq (h : Effect svc call c contacts c')
    (htakes : ∀ lease r f, ¬ (svc.release lease r).CanEnd (.error f)) :
    contacts.countP Contact.isDestroyed = (contacts.filterMap Contact.returned?).length := by
  cases h with
  | keeps r hfree => simp [books_of_free hfree]
  | binds l r => rfl
  | bindsFirst l r hcall hunbound hfree =>
    simp [List.filterMap_cons, Contact.isDestroyed, Contact.returned?, books_of_free hfree]
  | gives hbound hend => rfl
  | refused hbound hend => exact absurd hend (htakes _ _ _)

/-- A lease is given back by a destruction, and by it alone. -/
theorem handover (h : Effect svc call c contacts c') (lease : Lease) (r : Record)
    (hreturned : .returned lease r ∈ contacts) :
    call = .destroy ∧ contacts = [.destroyed, .returned lease r] ∧ c.lease = some lease ∧
      c'.lease = none ∧ (svc.destroy c.record).CanEnd (.ok r) := by
  have hfree : ∀ {xs : List Contact}, xs.all (!·.isOfLease) → .returned lease r ∉ xs := by
    intro xs hxs hmem
    simpa [Contact.isOfLease] using List.all_eq_true.mp hxs _ hmem
  cases h with
  | keeps r' h => exact absurd hreturned (hfree h)
  | binds l r' => simp at hreturned
  | bindsFirst l r' hcall hunbound h =>
    rcases List.mem_cons.mp hreturned with heq | hmem
    · cases heq
    · exact absurd hmem (hfree h)
  | gives hbound hend =>
    rcases List.mem_cons.mp hreturned with heq | hmem
    · cases heq
    · cases List.mem_singleton.mp hmem
      exact ⟨rfl, rfl, hbound, rfl, hend⟩
  | refused hbound hend => simp at hreturned

end Effect

/-! ## Runs -/

@[simp] theorem taken_cons (p : Call × Step Unit) (steps : List (Call × Step Unit)) :
    taken (p :: steps) = p.2.contacts.filterMap Contact.taken? ++ taken steps := by
  simp [taken]

@[simp] theorem returned_cons (p : Call × Step Unit) (steps : List (Call × Step Unit)) :
    returned (p :: steps) = p.2.contacts.filterMap Contact.returned? ++ returned steps := by
  simp [returned]

@[simp] theorem destructions_cons (p : Call × Step Unit) (steps : List (Call × Step Unit)) :
    destructions (p :: steps) = p.2.contacts.countP Contact.isDestroyed + destructions steps := by
  simp [destructions]

@[simp] theorem lost_cons (p : Call × Step Unit) (steps : List (Call × Step Unit)) :
    lost (p :: steps) = lostOver p.2.before p.2.contacts ++ lost steps := rfl

section Runs
variable (svc : Service σ) (cfg : Config)

theorem count_balance (lease : Lease) (calls : List Call) (c : Context) (s : σ) :
    let steps := history (Call.act svc.observed cfg) calls c s
    c.lease.toList.count lease + (taken steps).count lease =
      (returned steps).count lease +
        (contextAfter (Call.act svc.observed cfg) calls c s).lease.toList.count lease +
        (lost steps).count lease := by
  simp only
  induction calls generalizing c s with
  | nil => simp [taken, returned, lost]
  | cons call calls ih =>
    have hstep := (effect svc cfg call c s).balance lease
    have hrest := ih (observe (call.act svc.observed cfg) c s).1.after
      (observe (call.act svc.observed cfg) c s).2
    have hbefore : (observe (call.act svc.observed cfg) c s).1.before = c := rfl
    rw [history_cons, contextAfter_cons, taken_cons, returned_cons, lost_cons, hbefore]
    simp only [List.count_append]
    omega

theorem destructions_eq_length (htakes : ∀ lease r f, ¬ (svc.release lease r).CanEnd (.error f))
    (calls : List Call) (c : Context) (s : σ) :
    destructions (history (Call.act svc.observed cfg) calls c s) =
      (returned (history (Call.act svc.observed cfg) calls c s)).length := by
  induction calls generalizing c s with
  | nil => rfl
  | cons call calls ih =>
    have hstep := (effect svc cfg call c s).destructions_eq htakes
    rw [history_cons, destructions_cons, returned_cons, List.length_append, ih, hstep]

/-- The books of a run that starts with a context that holds no lease. -/
structure Conserved (steps : List (Call × Step Unit)) (c : Context) : Prop where
  perm : (taken steps).Perm (returned steps ++ c.lease.toList ++ lost steps)
  /-- What was taken and not given back is the lease that the context holds, and what was lost. -/
  balance : (taken steps).length =
    (returned steps).length + (if c.isBound then 1 else 0) + (lost steps).length
  /-- Leases are lost to explicit binds of a context that holds one, and to nothing else. -/
  lost_by : ∀ p ∈ steps, lostOver p.2.before p.2.contacts ≠ [] →
    (∃ t, p.1 = .bind t) ∧ p.2.before.isBound
  /-- Without such binds nothing is lost. -/
  lost_eq_nil : (∀ p ∈ steps, (∃ t, p.1 = .bind t) → ¬ p.2.before.isBound) → lost steps = []
  /-- No lease is given back more often than it was taken. -/
  returned_le : ∀ lease, (returned steps).count lease ≤ (taken steps).count lease
  destructions_eq : (∀ lease r f, ¬ (svc.release lease r).CanEnd (.error f)) →
    destructions steps = (returned steps).length
  /-- A lease is given back by a destruction, right after the collector made the working copy ready,
  and with what it made of it. -/
  handover : ∀ p ∈ steps, ∀ lease r, .returned lease r ∈ p.2.contacts →
    p.1 = .destroy ∧ p.2.contacts = [.destroyed, .returned lease r] ∧
      p.2.before.lease = some lease ∧ p.2.after.lease = none ∧
      (svc.destroy p.2.before.record).CanEnd (.ok r)
  /-- That is the working copy itself if the collector leaves it alone. -/
  written : (∀ r r', (svc.destroy r).CanEnd (.ok r') → r' = r) →
    ∀ p ∈ steps, ∀ lease r, .returned lease r ∈ p.2.contacts → r = p.2.before.record

/-- A lease that was taken was given back, is held, or was lost because its context was bound over
it. -/
theorem leases_conserved (calls : List Call) (s : σ) :
    Conserved svc (history (Call.act svc.observed cfg) calls .unbound s)
      (contextAfter (Call.act svc.observed cfg) calls .unbound s) := by
  have heffect := forall_mem_history
    (fun call step => Effect svc call step.before step.contacts step.after)
    (effect svc cfg) calls .unbound s
  have hcount := fun lease => count_balance svc cfg lease calls .unbound s
  -- of the run itself nothing is needed but the effects of its steps and the counts
  generalize hsteps : history (Call.act svc.observed cfg) calls .unbound s = steps
    at heffect hcount ⊢
  generalize contextAfter (Call.act svc.observed cfg) calls .unbound s = c at hcount ⊢
  have hperm : (taken steps).Perm (returned steps ++ c.lease.toList ++ lost steps) := by
    rw [List.perm_iff_count]
    intro lease
    have hlease := hcount lease
    simp only [List.count_append]
    simpa [Context.unbound] using hlease
  have hhandover := fun p hp => (heffect p hp).handover
  have hlost := fun p hp => (heffect p hp).exists_bind_of_lost
  constructor
  · exact hperm
  · have hlength := hperm.length_eq
    obtain ⟨record, _ | lease⟩ := c
    · simpa [Context.isBound] using hlength
    · simp [Context.isBound] at hlength ⊢
      omega
  · exact hlost
  · intro hunbound
    apply List.flatMap_eq_nil_iff.mpr
    intro p hp
    by_contra hne
    obtain ⟨hbind, hbound⟩ := hlost p hp hne
    exact hunbound p hp hbind hbound
  · intro lease
    have hlease := hcount lease
    simp [Context.unbound] at hlease
    omega
  · intro htakes
    rw [← hsteps]
    exact destructions_eq_length svc cfg htakes calls .unbound s
  · exact hhandover
  · intro hleaves p hp lease r hreturned
    exact hleaves _ _ (hhandover p hp lease r hreturned).2.2.2.2

end Runs

/-- A context that is bound twice gives the second lease back, and the first never. -/
theorem second_bind_loses_lease :
    let act := Call.act World.service.observed default
    let calls : List Call := [.bind ⟨0x7f000100⟩, .bind ⟨0x7f000200⟩, .destroy, .destroy]
    let steps := history act calls .unbound World.initial
    taken steps = [0, 1] ∧ returned steps = [1] ∧ lost steps = [0] ∧
      (contextAfter act calls .unbound World.initial).isBound = false := by
  refine ⟨rfl, rfl, rfl, rfl⟩

end HeapBridge.Alloc
