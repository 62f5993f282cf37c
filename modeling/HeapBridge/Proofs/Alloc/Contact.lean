import HeapBridge.Proofs.Alloc.Serving
import HeapBridge.Proofs.Watching

/-!
# Contact with the collector

What passes between the context of a thread and the collector: records that go on lease and come
back, and requests that the buffers of the working copy did not serve. `Service.observed` keeps
these contacts beside the state of an arbitrary collector. Each operation of a context is watched
here once; what holds of whole runs rests on these lemmas and not on the definitions of the
operations.
-/
namespace HeapBridge.Alloc
variable {σ α : Type}

/-- What passes between a thread and the collector. -/
inductive Contact
  /-- A record went on lease. -/
  | taken (lease : Lease)
  /-- The collector made a working copy ready to be given back. -/
  | destroyed
  /-- A record came back, with what was written into it. -/
  | returned (lease : Lease) (r : Record)
  | asked (size align offset : Word) (sem : Semantics)
  | announced (o : ObjectRef) (size : Word) (sem : Semantics)
  | flushed

namespace Contact

/-- The lease that was taken, if one was. -/
def taken? : Contact → Option Lease
  | taken lease => some lease
  | _ => none

/-- The lease that was given back, if one was. -/
def returned? : Contact → Option Lease
  | returned lease _ => some lease
  | _ => none

def isDestroyed : Contact → Bool
  | destroyed => true
  | _ => false

/-- Whether a contact is a matter of leases. -/
def isOfLease : Contact → Bool
  | taken _ | destroyed | returned _ _ => true
  | _ => false

end Contact

/-- The same collector, with the contacts kept in order. Requests count when they are made, leases
when they have changed hands. What the collector is asked about itself does not count. -/
def Service.observed (svc : Service σ) : Service (σ × List Contact) where
  recordSizes := svc.recordSizes.noting fun _ => []
  isReady := svc.isReady.noting fun _ => []
  bind t := (svc.bind t).noting (Act.noteResult fun p => .taken p.1)
  release lease r := (svc.release lease r).noting (Act.noteResult fun _ => .returned lease r)
  alloc r size align offset sem :=
    (svc.alloc r size align offset sem).noting fun _ => [.asked size align offset sem]
  postAlloc r o size sem := (svc.postAlloc r o size sem).noting fun _ => [.announced o size sem]
  flush r := (svc.flush r).noting fun _ => [.flushed]
  destroy r := (svc.destroy r).noting (Act.noteResult fun _ => .destroyed)
  report d := (svc.report d).noting fun _ => []

theorem Service.attempt_observed_alloc (svc : Service σ) (r : Record) (size align offset : Word)
    (sem : Semantics) (s : σ) (contacts : List Contact) :
    (svc.observed.alloc r size align offset sem).attempt (s, contacts) =
      (((svc.alloc r size align offset sem).attempt s).1,
        ((svc.alloc r size align offset sem).attempt s).2,
        contacts ++ [.asked size align offset sem]) := by
  dsimp only [Service.observed]
  rw [Act.attempt_noting]

theorem Service.attempt_observed_postAlloc (svc : Service σ) (r : Record) (o : ObjectRef)
    (size : Word) (sem : Semantics) (s : σ) (contacts : List Contact) :
    (svc.observed.postAlloc r o size sem).attempt (s, contacts) =
      (((svc.postAlloc r o size sem).attempt s).1, ((svc.postAlloc r o size sem).attempt s).2,
        contacts ++ [.announced o size sem]) := by
  dsimp only [Service.observed]
  rw [Act.attempt_noting]

/-- A collector that serves requests without a change to the record of the thread. -/
structure Service.LeavesRecord (svc : Service σ) : Prop where
  alloc : ∀ {r size align offset sem a r'},
    (svc.alloc r size align offset sem).CanEnd (.ok (a, r')) → r' = r
  postAlloc : ∀ {r o size sem r'}, (svc.postAlloc r o size sem).CanEnd (.ok r') → r' = r

namespace Context
open Act (Watched)

theorem watched_checkRecordSizes (svc : Service σ) (theirs : RecordSizes) :
    Watched (checkRecordSizes svc.report theirs) (checkRecordSizes svc.observed.report theirs)
      fun _ contacts => contacts = [] := by
  have hreport := Watched.noting (fun _ => ([] : List Contact))
    (svc.report (.recordSizes theirs Layout.ours))
  apply Watched.ite
  · intro _
    refine (hreport.bind fun _ => Watched.throw _).mono ?_
    rintro outcome contacts (⟨e, ⟨-, hnone⟩, -⟩ | ⟨a, first, rest, ⟨-, rfl⟩, ⟨-, rfl⟩, rfl⟩)
    · exact hnone
    · rfl
  · intro _
    exact (Watched.pure _).mono fun _ _ h => h.2

/-- Binding takes one lease, for a context that holds it, or ends in a fault. -/
theorem watched_bind (svc : Service σ) (t : Thread) :
    Watched (bind svc t) (bind svc.observed t) fun outcome contacts =>
      (∃ lease r, outcome = .ok ⟨r, some lease⟩ ∧ contacts = [.taken lease]) ∨
        (∃ f, outcome = .error f) ∧ contacts = [] := by
  have hsizes := Watched.noting (fun _ => ([] : List Contact)) svc.recordSizes
  have hbind := Watched.noting (Act.noteResult fun p => Contact.taken p.1) (svc.bind t)
  refine (hsizes.bind fun theirs => (watched_checkRecordSizes svc theirs).bind fun _ =>
    hbind.bind fun p => Watched.pure (⟨p.2, some p.1⟩ : Context)).mono ?_
  rintro outcome contacts (⟨e, ⟨-, rfl⟩, rfl⟩ | ⟨_, _, _, ⟨-, rfl⟩, h, rfl⟩)
  · exact .inr ⟨⟨e, rfl⟩, rfl⟩
  rcases h with ⟨e, rfl, rfl⟩ | ⟨_, _, _, rfl, h, rfl⟩
  · exact .inr ⟨⟨e, rfl⟩, rfl⟩
  rcases h with ⟨e, ⟨-, rfl⟩, rfl⟩ | ⟨⟨lease, r⟩, _, _, ⟨-, rfl⟩, ⟨rfl, rfl⟩, rfl⟩
  · exact .inr ⟨⟨e, rfl⟩, rfl⟩
  · exact .inl ⟨lease, r, rfl, rfl⟩

/-- A context that holds a lease is left alone when it is bound on first use. -/
theorem watched_ensureBound (svc : Service σ) (t : Thread) (c : Context) :
    Watched (ensureBound svc t c) (ensureBound svc.observed t c) fun outcome contacts =>
      (c.lease = none ∧ ∃ lease r, outcome = .ok ⟨r, some lease⟩ ∧ contacts = [.taken lease]) ∨
        (outcome = .ok c ∨ ∃ f, outcome = .error f) ∧ contacts = [] := by
  unfold ensureBound
  apply Watched.ite
  · intro _
    exact (Watched.pure c).mono fun _ _ h => .inr ⟨.inl h.1, h.2⟩
  · intro hbound
    have hlease : c.lease = none := by simpa [isBound] using hbound
    have hready := Watched.noting (fun _ => ([] : List Contact)) svc.isReady
    have hbind : ∀ ready : Bool, Watched (if ready then bind svc t else Pure.pure c)
        (if ready then bind svc.observed t else Pure.pure c) fun outcome contacts =>
          (∃ lease r, outcome = .ok ⟨r, some lease⟩ ∧ contacts = [.taken lease]) ∨
            (outcome = .ok c ∨ ∃ f, outcome = .error f) ∧ contacts = [] := by
      intro ready
      apply Watched.ite
      · intro _
        exact (watched_bind svc t).mono fun _ _ h => h.imp_right fun h => ⟨.inr h.1, h.2⟩
      · intro _
        exact (Watched.pure c).mono fun _ _ h => .inr ⟨.inl h.1, h.2⟩
    refine (hready.bind hbind).mono ?_
    rintro outcome contacts (⟨e, ⟨-, rfl⟩, rfl⟩ | ⟨_, _, _, ⟨-, rfl⟩, h, rfl⟩)
    · exact .inr ⟨.inr ⟨e, rfl⟩, rfl⟩
    · exact h.imp_left fun h => ⟨hlease, h⟩

/-- What the collector is told of a new object. -/
def announcement (a : Address) (size : Word) (sem : Semantics) : List Contact :=
  if a ≠ 0 ∧ sem ≠ .default then [.announced a size sem] else []

/-- Requests and announcements are no matter of leases. -/
theorem all_announcement (a : Address) (size : Word) (sem : Semantics) :
    (announcement a size sem).all (!·.isOfLease) := by
  unfold announcement
  split <;> rfl

/-- A request to the collector is made once, and an object with special semantics is announced. -/
theorem watched_allocSlow (svc : Service σ) (size : Word) (sem : Semantics) (c : Context) :
    Watched (allocSlow svc size sem c) (allocSlow svc.observed size sem c) fun outcome contacts =>
      ∃ a, contacts = .asked size Units.heapWordSize 0 sem :: announcement a size sem ∧
        ((∃ f, outcome = .error f) ∨
          ∃ r, outcome = .ok (a, { c with record := r }) ∧ (svc.LeavesRecord → r = c.record)) := by
  have halloc := Watched.noting (fun _ => [Contact.asked size Units.heapWordSize 0 sem])
    (svc.alloc c.record size Units.heapWordSize 0 sem)
  have hpost : ∀ p : Address × Record,
      Watched
        (if p.1 ≠ 0 ∧ sem ≠ .default then
          svc.postAlloc p.2 p.1 size sem >>= fun r => Pure.pure (p.1, { c with record := r })
        else Pure.pure (p.1, { c with record := p.2 }))
        (if p.1 ≠ 0 ∧ sem ≠ .default then
          svc.observed.postAlloc p.2 p.1 size sem >>= fun r =>
            Pure.pure (p.1, { c with record := r })
        else Pure.pure (p.1, { c with record := p.2 }))
        fun outcome contacts => contacts = announcement p.1 size sem ∧
          ((∃ f, outcome = .error f) ∨
            ∃ r, outcome = .ok (p.1, { c with record := r }) ∧ (svc.LeavesRecord → r = p.2)) := by
    intro p
    apply Watched.ite
    · intro hspecial
      rw [announcement, if_pos hspecial]
      have hnoted := Watched.noting (fun _ => [Contact.announced p.1 size sem])
        (svc.postAlloc p.2 p.1 size sem)
      refine (hnoted.bind fun r => Watched.pure (p.1, { c with record := r })).mono ?_
      rintro outcome contacts (⟨e, ⟨-, rfl⟩, rfl⟩ | ⟨r, _, _, ⟨hend, rfl⟩, ⟨rfl, rfl⟩, rfl⟩)
      · exact ⟨rfl, .inl ⟨e, rfl⟩⟩
      · exact ⟨rfl, .inr ⟨r, rfl, fun h => h.postAlloc hend⟩⟩
    · intro hspecial
      rw [announcement, if_neg hspecial]
      refine (Watched.pure _).mono ?_
      rintro outcome contacts ⟨rfl, rfl⟩
      exact ⟨rfl, .inr ⟨p.2, rfl, fun _ => rfl⟩⟩
  refine (halloc.bind hpost).mono ?_
  rintro outcome contacts (⟨e, ⟨-, rfl⟩, rfl⟩ | ⟨⟨a, r⟩, _, _, ⟨hend, rfl⟩, ⟨rfl, h⟩, rfl⟩)
  · exact ⟨0, rfl, .inl ⟨e, rfl⟩⟩
  · refine ⟨a, rfl, h.imp_right ?_⟩
    rintro ⟨r', rfl, hr'⟩
    exact ⟨r', rfl, fun hleaves => (hr' hleaves).trans (hleaves.alloc hend)⟩

/-- A request that no buffer holds is left to the collector. -/
theorem watched_alloc_of_none (svc : Service σ) {cfg : Config} (hset : cfg.IsSet) {size : Word}
    (sem : Semantics) {c : Context} (h : cfg.servingPair size c.record = none) :
    Watched (alloc svc cfg size sem c) (alloc svc.observed cfg size sem c) fun outcome contacts =>
      ∃ a, contacts = .asked size Units.heapWordSize 0 (cfg.semanticsFor size sem) ::
          announcement a size (cfg.semanticsFor size sem) ∧
        ((∃ f, outcome = .error f) ∨
          ∃ r, outcome = .ok (a, { c with record := r }) ∧ (svc.LeavesRecord → r = c.record)) := by
  rw [alloc_eq svc hset, alloc_eq svc.observed hset, h]
  exact watched_allocSlow svc size _ c

/-- Allocation is no matter of leases, whichever way it goes. -/
theorem watched_alloc (svc : Service σ) (cfg : Config) (size : Word) (sem : Semantics)
    (c : Context) :
    Watched (alloc svc cfg size sem c) (alloc svc.observed cfg size sem c) fun outcome contacts =>
      contacts.all (!·.isOfLease) ∧
        ((∃ f, outcome = .error f) ∨ ∃ a r, outcome = .ok (a, { c with record := r })) := by
  rcases alloc_way cfg size sem c with ⟨f, h⟩ | ⟨a, r, h⟩ | ⟨sem', h⟩
  · rw [h svc, h svc.observed]
    refine (Watched.throw f).mono ?_
    rintro outcome contacts ⟨rfl, rfl⟩
    exact ⟨rfl, .inl ⟨f, rfl⟩⟩
  · rw [h svc, h svc.observed]
    refine (Watched.pure _).mono ?_
    rintro outcome contacts ⟨rfl, rfl⟩
    exact ⟨rfl, .inr ⟨a, r, rfl⟩⟩
  · rw [h svc, h svc.observed]
    refine (watched_allocSlow svc size sem' c).mono ?_
    rintro outcome contacts ⟨a, rfl, hend⟩
    exact ⟨all_announcement a size sem', hend.imp_right fun ⟨r, hr, _⟩ => ⟨a, r, hr⟩⟩

/-- Flushing is no matter of leases. -/
theorem watched_flush (svc : Service σ) (c : Context) :
    Watched (flush svc c) (flush svc.observed c) fun outcome contacts =>
      contacts = [.flushed] ∧
        ((∃ f, outcome = .error f) ∨ ∃ r, outcome = .ok { c with record := r }) := by
  have hflush := Watched.noting (fun _ => [Contact.flushed]) (svc.flush c.record)
  refine (hflush.bind fun r => Watched.pure { c with record := r }).mono ?_
  rintro outcome contacts (⟨e, ⟨-, rfl⟩, rfl⟩ | ⟨r, _, _, ⟨-, rfl⟩, ⟨rfl, rfl⟩, rfl⟩)
  · exact ⟨rfl, .inl ⟨e, rfl⟩⟩
  · exact ⟨rfl, .inr ⟨r, rfl⟩⟩

/-- Destroying gives the lease of a context back, with what the collector made of the working copy.
Where the collector fails, the context keeps its lease. -/
theorem watched_destroy (svc : Service σ) (c : Context) :
    Watched (destroy svc c) (destroy svc.observed c) fun outcome contacts =>
      (c.lease = none ∧ outcome = .ok c ∧ contacts = []) ∨
        ∃ lease, c.lease = some lease ∧
          ((∃ r, (svc.destroy c.record).CanEnd (.ok r) ∧ outcome = .ok ⟨r, none⟩ ∧
              contacts = [.destroyed, .returned lease r]) ∨
            (∃ f, outcome = .error f) ∧
              (contacts = [] ∨
                contacts = [.destroyed] ∧ ∃ r f, (svc.release lease r).CanEnd (.error f))) := by
  obtain ⟨record, _ | lease⟩ := c
  · refine (Watched.pure (⟨record, none⟩ : Context)).mono ?_
    rintro outcome contacts ⟨rfl, rfl⟩
    exact .inl ⟨rfl, rfl, rfl⟩
  · have hdestroy := Watched.noting (Act.noteResult fun _ => Contact.destroyed) (svc.destroy record)
    have hrelease := fun r => Watched.noting
      (Act.noteResult fun _ => Contact.returned lease r) (svc.release lease r)
    refine (hdestroy.bind fun r => (hrelease r).bind fun _ =>
      Watched.pure (⟨r, none⟩ : Context)).mono ?_
    rintro outcome contacts (⟨e, ⟨-, rfl⟩, rfl⟩ | ⟨r, _, _, ⟨hend, rfl⟩, h, rfl⟩)
    · exact .inr ⟨lease, rfl, .inr ⟨⟨e, rfl⟩, .inl rfl⟩⟩
    rcases h with ⟨e, ⟨hfault, rfl⟩, rfl⟩ | ⟨_, _, _, ⟨-, rfl⟩, ⟨rfl, rfl⟩, rfl⟩
    · exact .inr ⟨lease, rfl, .inr ⟨⟨e, rfl⟩, .inr ⟨rfl, r, e, hfault⟩⟩⟩
    · exact .inr ⟨lease, rfl, .inl ⟨r, hend, rfl, rfl⟩⟩

/-! ## Runs -/

/-- Does something with a context that is kept beside the state of the collector. It is replaced by
what comes of it, and stays as it was if nothing does. -/
def inPlace (act : Context → Act σ (α × Context)) : Act (Context × σ) α :=
  fun (c, s) =>
    match act c s with
    | .ok (a, c') t => .ok a (c', t)
    | .error f t => .error f (c, t)

theorem attempt_inPlace (act : Context → Act σ (α × Context)) (c : Context) (s : σ) :
    (inPlace act).attempt (c, s) =
      match (act c).attempt s with
      | (.ok (a, c'), t) => (.ok a, (c', t))
      | (.error f, t) => (.error f, (c, t)) := by
  unfold Act.attempt inPlace
  simp only
  cases act c s <;> rfl

end Context

/-- What a step did: what came of it, the contacts that it took, and the context around it. -/
structure Step (α : Type) where
  before : Context
  answer : Except Fault α
  contacts : List Contact
  after : Context

/-- Takes a step under observation. -/
def observe (act : Act (Context × σ × List Contact) α) (c : Context) (s : σ) : Step α × σ :=
  let (answer, after, t, contacts) := act.attempt (c, s, [])
  (⟨c, answer, contacts, after⟩, t)

variable {ι : Type}

/-- The steps of a run, each with what it was taken for. -/
def history (act : ι → Act (Context × σ × List Contact) α) :
    List ι → Context → σ → List (ι × Step α)
  | [], _, _ => []
  | i :: is, c, s =>
    let (step, t) := observe (act i) c s
    (i, step) :: history act is step.after t

/-- The context after a run. -/
def contextAfter (act : ι → Act (Context × σ × List Contact) α) : List ι → Context → σ → Context
  | [], c, _ => c
  | i :: is, c, s =>
    let (step, t) := observe (act i) c s
    contextAfter act is step.after t

@[simp] theorem history_nil (act : ι → Act (Context × σ × List Contact) α) (c : Context) (s : σ) :
    history act [] c s = [] := rfl

@[simp] theorem history_cons (act : ι → Act (Context × σ × List Contact) α) (i : ι) (is : List ι)
    (c : Context) (s : σ) :
    history act (i :: is) c s =
      (i, (observe (act i) c s).1) ::
        history act is (observe (act i) c s).1.after (observe (act i) c s).2 := rfl

@[simp] theorem contextAfter_nil (act : ι → Act (Context × σ × List Contact) α) (c : Context)
    (s : σ) : contextAfter act [] c s = c := rfl

@[simp] theorem contextAfter_cons (act : ι → Act (Context × σ × List Contact) α) (i : ι)
    (is : List ι) (c : Context) (s : σ) :
    contextAfter act (i :: is) c s =
      contextAfter act is (observe (act i) c s).1.after (observe (act i) c s).2 := rfl

/-- What holds of every step by itself holds of all steps of a run. -/
theorem forall_mem_history {act : ι → Act (Context × σ × List Contact) α}
    (holds : ι → Step α → Prop) (h : ∀ i c s, holds i (observe (act i) c s).1) (is : List ι)
    (c : Context) (s : σ) : ∀ p ∈ history act is c s, holds p.1 p.2 := by
  induction is generalizing c s with
  | nil => simp
  | cons i is ih =>
    intro p hp
    rw [history_cons] at hp
    rcases List.mem_cons.mp hp with rfl | hp
    · exact h i c s
    · exact ih _ _ p hp

/-- What holds of a context, and is kept by the steps before some step, holds before that step. -/
theorem before_of_append {act : ι → Act (Context × σ × List Contact) α} (holds : Context → Prop)
    {is : List ι} {c : Context} {s : σ} (hc : holds c) {earlier later : List (ι × Step α)}
    {p : ι × Step α} (h : history act is c s = earlier ++ p :: later)
    (hkept : ∀ q ∈ earlier, holds q.2.before → holds q.2.after) : holds p.2.before := by
  induction is generalizing c s earlier with
  | nil => exact absurd h.symm (List.append_ne_nil_of_right_ne_nil _ (List.cons_ne_nil _ _))
  | cons i is ih =>
    rw [history_cons] at h
    cases earlier with
    | nil =>
      cases h
      exact hc
    | cons q earlier =>
      obtain ⟨rfl, hrest⟩ := List.cons.inj h
      exact ih (hkept _ List.mem_cons_self hc) hrest
        fun q hq => hkept q (List.mem_cons_of_mem _ hq)

/-- What every step keeps holds of all contexts that a run goes through. -/
theorem before_of_kept {act : ι → Act (Context × σ × List Contact) α} (holds : Context → Prop)
    (hkept : ∀ i c s, holds c → holds (observe (act i) c s).1.after) (is : List ι) {c : Context}
    (hc : holds c) (s : σ) : ∀ p ∈ history act is c s, holds p.2.before := by
  intro p hp
  obtain ⟨earlier, later, h⟩ := List.append_of_mem hp
  refine before_of_append holds hc h fun q hq => ?_
  exact forall_mem_history (fun _ step => holds step.before → holds step.after) hkept is c s q
    (h ▸ List.mem_append_left _ hq)

/-- What follows a step of a run is a run from the context after that step. -/
theorem exists_history_of_append {act : ι → Act (Context × σ × List Contact) α} {is : List ι}
    {c : Context} {s : σ} {earlier later : List (ι × Step α)} {p : ι × Step α}
    (h : history act is c s = earlier ++ p :: later) :
    ∃ js t, later = history act js p.2.after t := by
  induction is generalizing c s earlier with
  | nil => exact absurd h.symm (List.append_ne_nil_of_right_ne_nil _ (List.cons_ne_nil _ _))
  | cons i is ih =>
    rw [history_cons] at h
    cases earlier with
    | nil =>
      cases h
      exact ⟨is, _, rfl⟩
    | cons q earlier => exact ih (List.cons.inj h).2

/-- A step whose answer is put in another way. -/
theorem observe_map {β : Type} (f : α → β) (act : Act (Context × σ × List Contact) α) (c : Context)
    (s : σ) :
    (observe (f <$> act) c s).1 =
      ⟨c, (observe act c s).1.answer.map f, (observe act c s).1.contacts,
        (observe act c s).1.after⟩ := by
  unfold observe
  rw [Act.attempt_map]

/-- What a step did that is watched. -/
theorem observe_inPlace {act : Act σ (α × Context)}
    {fit : Except Fault (α × Context) → List Contact → Prop}
    (watched : Context → Act (σ × List Contact) (α × Context)) (c : Context)
    (h : Act.Watched act (watched c) fit) (s : σ) :
    ∃ outcome contacts, fit outcome contacts ∧
      (observe (Context.inPlace watched) c s).1 =
        match outcome with
        | .ok (a, c') => ⟨c, .ok a, contacts, c'⟩
        | .error f => ⟨c, .error f, contacts, c⟩ := by
  obtain ⟨contacts, hfit, hrun⟩ := h s []
  refine ⟨(act.attempt s).1, contacts, hfit, ?_⟩
  unfold observe
  rw [Context.attempt_inPlace, hrun]
  rcases act.attempt s with ⟨_ | ⟨a, c'⟩, t⟩ <;> rfl

end HeapBridge.Alloc
