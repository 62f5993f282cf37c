import HeapBridge.Proofs.Alloc.Lease
import HeapBridge.Proofs.Alloc.Routing

/-!
# After a record was given back

A context that gives its record back keeps a working copy of it, with all buffers. Allocation does
not ask for the lease, so requests are served from these buffers as before, until the collector
changes them or the context is bound again. `Used` is what one use of a context does, whatever the
collector does; the rest follows along a run.
-/
namespace HeapBridge.Alloc
variable {σ : Type}

/-! ## Uses of a context -/

/-- What is done with a context that is not bound again. -/
inductive Use
  | alloc (req : Request)
  | flush
  | destroy
deriving DecidableEq

/-- Uses a context in place. Only an allocation answers with an address. -/
def Use.act (svc : Service σ) (cfg : Config) : Use → Act (Context × σ) (Option Address)
  | alloc req => some <$> req.act svc cfg
  | flush => (fun _ => none) <$> Context.replace (Context.flush svc)
  | destroy => (fun _ => none) <$> Context.replace (Context.destroy svc)

/-- What a use does to a context, with the contacts that it takes for it. -/
inductive Used (cfg : Config) : Use → Context → Step (Option Address) → Prop
  | inline {req : Request} {c : Context} {k : PairKey}
      (h : cfg.servingPair req.size c.record = some k) :
      Used cfg (.alloc req) c ⟨c, .ok (some (c.record.pair k).cursor), [],
        { c with record := c.record.advance k req.size }⟩
  | asked {req : Request} {c : Context} (answer : Except Fault (Option Address)) (r : Record)
      {contacts : List Contact} (h : cfg.servingPair req.size c.record = none)
      (hne : contacts ≠ []) (hfree : contacts.all (!·.isOfLease)) :
      Used cfg (.alloc req) c ⟨c, answer, contacts, { c with record := r }⟩
  | flushed {c : Context} (answer : Except Fault (Option Address)) (r : Record) :
      Used cfg .flush c ⟨c, answer, [.flushed], { c with record := r }⟩
  | idle {c : Context} (h : c.lease = none) : Used cfg .destroy c ⟨c, .ok none, [], c⟩
  | gives {c : Context} {lease : Lease} (r : Record) (h : c.lease = some lease) :
      Used cfg .destroy c ⟨c, .ok none, [.destroyed, .returned lease r], ⟨r, none⟩⟩
  /-- The collector fails before the record is back. -/
  | refused {c : Context} {lease : Lease} (f : Fault) {contacts : List Contact}
      (h : c.lease = some lease) (hcontacts : contacts = [] ∨ contacts = [.destroyed]) :
      Used cfg .destroy c ⟨c, .error f, contacts, c⟩

section Uses
variable {svc : Service σ} {cfg : Config}

theorem used_alloc (hset : cfg.IsSet) (req : Request) (c : Context) (s : σ) :
    Used cfg (.alloc req) c (observe ((Use.alloc req).act svc.observed cfg) c s).1 := by
  rw [Use.act, observe_map]
  rcases hpair : cfg.servingPair req.size c.record with _ | k
  · obtain ⟨outcome, contacts, ⟨a, rfl, hend⟩, hstep⟩ :=
      observe_inPlace _ c (Context.watched_alloc_of_none svc hset req.sem hpair) s
    have hfree := Context.all_announcement a req.size (cfg.semanticsFor req.size req.sem)
    unfold Request.act
    rw [hstep]
    rcases hend with ⟨f, rfl⟩ | ⟨r, rfl, -⟩
    · exact .asked _ c.record hpair (List.cons_ne_nil _ _) hfree
    · exact .asked _ r hpair (List.cons_ne_nil _ _) hfree
  · rw [observe_act_of_some hset s hpair]
    exact .inline hpair

/-- What a use does that puts a context in the place of the one that is there. -/
theorem observe_replace {act : Act σ Context} {fit : Except Fault Context → List Contact → Prop}
    (watched : Context → Act (σ × List Contact) Context) (c : Context)
    (h : Act.Watched act (watched c) fit) (s : σ) :
    ∃ outcome contacts, fit outcome contacts ∧
      (observe ((fun _ => (none : Option Address)) <$> Context.replace watched) c s).1 =
        match outcome with
        | .ok c' => ⟨c, .ok none, contacts, c'⟩
        | .error f => ⟨c, .error f, contacts, c⟩ := by
  obtain ⟨outcome, contacts, t, hfit, hrun⟩ := Context.attempt_replace_of_watched watched c h s []
  refine ⟨outcome, contacts, hfit, ?_⟩
  rw [observe_map]
  unfold observe
  rw [hrun]
  cases outcome <;> rfl

theorem used (hset : cfg.IsSet) (use : Use) (c : Context) (s : σ) :
    Used cfg use c (observe (use.act svc.observed cfg) c s).1 := by
  cases use with
  | alloc req => exact used_alloc hset req c s
  | flush =>
    obtain ⟨outcome, contacts, ⟨rfl, hend⟩, hstep⟩ :=
      observe_replace _ c (Context.watched_flush svc c) s
    rw [Use.act, hstep]
    rcases hend with ⟨f, rfl⟩ | ⟨r, rfl⟩
    · exact .flushed _ c.record
    · exact .flushed _ r
  | destroy =>
    obtain ⟨outcome, contacts, hend, hstep⟩ := observe_replace _ c (Context.watched_destroy svc c) s
    rw [Use.act, hstep]
    rcases hend with ⟨hunbound, rfl, rfl⟩ | ⟨lease, hbound, ⟨r, -, rfl, rfl⟩ | ⟨⟨f, rfl⟩, hnone⟩⟩
    · exact .idle hunbound
    · exact .gives r hbound
    · exact .refused f hbound (hnone.imp_right And.left)

end Uses

namespace Used
variable {cfg : Config} {use : Use} {c : Context} {step : Step (Option Address)}

theorem not_returned {lease : Lease} {r : Record} {contacts : List Contact}
    (h : contacts.all (!·.isOfLease)) : .returned lease r ∉ contacts := by
  intro hmem
  have hfree := List.all_eq_true.mp h _ hmem
  cases hfree

/-- A context that gives a record back keeps a copy of it. -/
theorem returns (h : Used cfg use c step) {lease : Lease} {r : Record}
    (hreturned : .returned lease r ∈ step.contacts) :
    use = .destroy ∧ c.lease = some lease ∧ step.after = ⟨r, none⟩ := by
  cases h with
  | inline => cases hreturned
  | asked answer r' hpair hne hfree => exact absurd hreturned (not_returned hfree)
  | flushed answer r' => exact absurd hreturned (not_returned rfl)
  | idle => cases hreturned
  | gives r' hbound =>
    rcases List.mem_cons.mp hreturned with h | h
    · cases h
    · cases List.mem_singleton.mp h
      exact ⟨rfl, hbound, rfl⟩
  | refused f hbound hcontacts =>
    rcases hcontacts with rfl | rfl
    · cases hreturned
    · cases List.mem_singleton.mp hreturned

/-- Without a lease, nothing happens to leases. -/
theorem unbound (h : Used cfg use c step) (hc : c.lease = none) :
    step.after.lease = none ∧ step.contacts.all (!·.isOfLease) := by
  cases h with
  | inline => exact ⟨hc, rfl⟩
  | asked answer r hpair hne hfree => exact ⟨hc, hfree⟩
  | flushed answer r => exact ⟨hc, rfl⟩
  | idle => exact ⟨hc, rfl⟩
  | gives r hbound => cases hc.symm.trans hbound
  | refused f hbound hcontacts => cases hc.symm.trans hbound

theorem contacts_ne_nil_iff {req : Request} (h : Used cfg (.alloc req) c step)
    (hvalid : cfg.selector.IsValid) : step.contacts ≠ [] ↔ cfg.Leaves req.size c.record := by
  rw [← Config.servingPair_eq_none_iff hvalid]
  cases h with
  | inline hpair => exact iff_of_false (fun hne => hne rfl) (by simp [hpair])
  | asked answer r hpair hne hfree => exact iff_of_true hne hpair

/-- What is not left to the collector is served from the working copy. -/
theorem exists_serving {req : Request} (h : Used cfg (.alloc req) c step)
    (hvalid : cfg.selector.IsValid) (hstays : ¬ cfg.Leaves req.size c.record) :
    ∃ k, cfg.TakesFrom req.size c.record k ∧ (c.record.pair k).Holds req.size ∧
      step.answer = .ok (some (c.record.pair k).cursor) := by
  cases h with
  | inline hpair =>
    exact ⟨_, ((Config.servingPair_eq_some_iff hvalid).mp hpair).2,
      Config.holds_of_servingPair hpair, rfl⟩
  | asked answer r hpair hne hfree =>
    exact absurd ((Config.servingPair_eq_none_iff hvalid).mp hpair) hstays

end Used

/-! ## What is left of buffers -/

/-- In every buffer the cursor has moved at most. -/
def Record.Remains (r' r : Record) : Prop :=
  ∀ k, (r.pair k).cursor.toNat ≤ (r'.pair k).cursor.toNat ∧ (r'.pair k).limit = (r.pair k).limit

namespace Record
variable {r r' : Record} {k : PairKey} {size : Word}

theorem Remains.refl (r : Record) : r.Remains r := fun _ => ⟨Nat.le_refl _, rfl⟩

theorem Remains.advance (h : r'.Remains r) (hholds : (r'.pair k).Holds size) :
    (r'.advance k size).Remains r := by
  intro x
  rw [pair_advance]
  by_cases hx : x = k
  · rw [if_pos hx, Bump.toNat_cursor_advance hholds, Bump.limit_advance, hx]
    exact ⟨Nat.le_trans (h k).1 (Nat.le_add_right _ _), (h k).2⟩
  · rw [if_neg hx]
    exact h x

/-- What a buffer serves lies in what it was before. -/
theorem Remains.within (h : r'.Remains r) (hholds : (r'.pair k).Holds size) :
    Block.Within ⟨(r'.pair k).cursor, size⟩ (r.pair k) :=
  ⟨(h k).1, (h k).2 ▸ hholds⟩

end Record

theorem Block.Within.covers_start {x : Block} {b : Bump} (h : x.Within b) (hne : x.size ≠ 0) :
    b.Covers x.start.toNat := by
  have hpos : 0 < x.size.toNat := by
    apply Nat.pos_of_ne_zero
    intro hzero
    exact hne (UInt64.toNat_inj.mp hzero)
  exact h.covers ⟨Nat.le_refl _, Nat.lt_add_of_pos_right hpos⟩

/-! ## Runs -/

/-- The collector has left the working copy alone in some steps. -/
def Untouched (steps : List (Use × Step (Option Address))) : Prop :=
  ∀ p ∈ steps, p.2.contacts ≠ [] → p.2.after.record = p.2.before.record

theorem Used.remains {cfg : Config} {use : Use} {c : Context} {step : Step (Option Address)}
    {r : Record} (h : Used cfg use c step) (hc : c.lease = none)
    (huntouched : step.contacts ≠ [] → step.after.record = c.record) (hr : c.record.Remains r) :
    step.after.record.Remains r := by
  cases h with
  | inline hpair => exact hr.advance (Config.holds_of_servingPair hpair)
  | asked answer r' hpair hne hfree => exact (huntouched hne).symm ▸ hr
  | flushed answer r' => exact (huntouched (List.cons_ne_nil _ _)).symm ▸ hr
  | idle => exact hr
  | gives r hbound => cases hc.symm.trans hbound
  | refused f hbound hcontacts => exact hr

/-- What becomes of a context after the record `r` was given back, in steps that do not bind it. -/
structure ServesOn (cfg : Config) (r : Record) (later : List (Use × Step (Option Address))) :
    Prop where
  /-- No lease is held, and none changes hands. -/
  unbound : ∀ p ∈ later, p.2.before.lease = none ∧ p.2.contacts.all (!·.isOfLease)
  /-- The collector is asked for what is left to it, as if the context were bound. -/
  asked_iff : ∀ p ∈ later, ∀ req, p.1 = .alloc req →
    (p.2.contacts ≠ [] ↔ cfg.Leaves req.size p.2.before.record)
  /-- Any other request is served from a buffer of the record that was given back. -/
  inside : ∀ earlier p rest req, later = earlier ++ p :: rest → Untouched earlier →
    p.1 = .alloc req → ¬ cfg.Leaves req.size p.2.before.record → ∃ k a,
      cfg.TakesFrom req.size p.2.before.record k ∧ p.2.answer = .ok (some a) ∧
        Block.Within ⟨a, req.size⟩ (r.pair k)
  /-- So a request for something gets an address in these buffers if it is not left to the
  collector, and in no other way, unless the collector hands out such addresses itself. -/
  inside_iff : ∀ earlier p rest req, later = earlier ++ p :: rest → Untouched earlier →
    p.1 = .alloc req → req.size ≠ 0 →
    (p.2.contacts ≠ [] → ∀ a, p.2.answer = .ok (some a) → ∀ k, ¬ (r.pair k).Covers a.toNat) →
      ((∃ a k, p.2.answer = .ok (some a) ∧ (r.pair k).Covers a.toNat) ↔
        ¬ cfg.Leaves req.size p.2.before.record)

section Runs
variable {svc : Service σ} {cfg : Config}

theorem used_history (hset : cfg.IsSet) (uses : List Use) (c : Context) (s : σ) :
    ∀ p ∈ history (Use.act svc.observed cfg) uses c s, Used cfg p.1 p.2.before p.2 :=
  forall_mem_history (fun use step => Used cfg use step.before step) (used hset) uses c s

/-- Until the collector changes the working copy, the buffers of an unbound context only move their
cursors. -/
theorem remains_of_untouched (hset : cfg.IsSet) {uses : List Use} {r : Record} {s : σ}
    {earlier rest : List (Use × Step (Option Address))} {p : Use × Step (Option Address)}
    (h : history (Use.act svc.observed cfg) uses ⟨r, none⟩ s = earlier ++ p :: rest)
    (huntouched : Untouched earlier) : p.2.before.record.Remains r := by
  refine (before_of_append (fun c => c.lease = none ∧ c.record.Remains r) ⟨rfl, .refl r⟩ h
    fun q hq hbefore => ?_).2
  have hused := used_history hset uses _ s q (h ▸ List.mem_append_left _ hq)
  exact ⟨(hused.unbound hbefore.1).1, hused.remains hbefore.1 (huntouched q hq) hbefore.2⟩

theorem servesOn (hset : cfg.IsSet) (uses : List Use) (r : Record) (s : σ) :
    ServesOn cfg r (history (Use.act svc.observed cfg) uses ⟨r, none⟩ s) := by
  have hused : ∀ p ∈ history (Use.act svc.observed cfg) uses ⟨r, none⟩ s,
      Used cfg p.1 p.2.before p.2 := used_history hset uses ⟨r, none⟩ s
  have hvalid := hset.selector_isValid
  have hunbound : ∀ p ∈ history (Use.act svc.observed cfg) uses ⟨r, none⟩ s,
      p.2.before.lease = none :=
    before_of_kept (fun c => c.lease = none)
      (fun use c s hc => ((used hset use c s).unbound hc).1) uses rfl s
  have hinside : ∀ earlier p rest req,
      history (Use.act svc.observed cfg) uses ⟨r, none⟩ s = earlier ++ p :: rest →
      Untouched earlier → p.1 = .alloc req → ¬ cfg.Leaves req.size p.2.before.record →
      ∃ k a, cfg.TakesFrom req.size p.2.before.record k ∧ p.2.answer = .ok (some a) ∧
        Block.Within ⟨a, req.size⟩ (r.pair k) := by
    intro earlier p rest req hsteps huntouched halloc hstays
    have hp := hused p (hsteps ▸ List.mem_append_right _ List.mem_cons_self)
    rw [halloc] at hp
    obtain ⟨k, htakes, hholds, hanswer⟩ := hp.exists_serving hvalid hstays
    have hremains := remains_of_untouched hset hsteps huntouched
    exact ⟨k, _, htakes, hanswer, hremains.within hholds⟩
  constructor
  · intro p hp
    exact ⟨hunbound p hp, ((hused p hp).unbound (hunbound p hp)).2⟩
  · intro p hp req halloc
    have hstep := hused p hp
    rw [halloc] at hstep
    exact hstep.contacts_ne_nil_iff hvalid
  · exact hinside
  · intro earlier p rest req hsteps huntouched halloc hsize helsewhere
    constructor
    · rintro ⟨a, k, hanswer, hcovers⟩ hleaves
      have hp := hused p (hsteps ▸ List.mem_append_right _ List.mem_cons_self)
      rw [halloc] at hp
      exact helsewhere ((hp.contacts_ne_nil_iff hvalid).mpr hleaves) a hanswer k hcovers
    · intro hstays
      obtain ⟨k, a, -, hanswer, hwithin⟩ :=
        hinside earlier p rest req hsteps huntouched halloc hstays
      exact ⟨a, k, hanswer, hwithin.covers_start hsize⟩

/-- A context that gave its record back goes on to serve requests from the buffers of that
record. -/
theorem released_buffers_serve_on (hset : cfg.IsSet) (uses : List Use) (c : Context) (s : σ)
    (earlier later : List (Use × Step (Option Address))) (p : Use × Step (Option Address))
    (h : history (Use.act svc.observed cfg) uses c s = earlier ++ p :: later)
    (lease : Lease) (r : Record) (hreturned : .returned lease r ∈ p.2.contacts) :
    (p.1 = .destroy ∧ p.2.before.lease = some lease ∧ p.2.after = ⟨r, none⟩) ∧
      ServesOn cfg r later := by
  have hp := used_history hset uses c s p (h ▸ List.mem_append_right _ List.mem_cons_self)
  have hreturns := hp.returns hreturned
  obtain ⟨rest, t, rfl⟩ := exists_history_of_append h
  refine ⟨hreturns, ?_⟩
  rw [hreturns.2.2]
  exact servesOn hset rest r t

/-- Two buffers that go on to serve, around requests that are left to the collector. -/
theorem released_buffers_serve_on_twice :
    let cfg : Config := ⟨0x1000, .immix 0, false, 64⟩
    let record := Record.zeroed.setPair .immix ⟨0x1000, 0x1080⟩
    let c : Context := ⟨record.setPair .immixLarge ⟨0x1080, 0x1100⟩, some 7⟩
    let uses : List Use :=
      [.alloc ⟨120, .default⟩, .destroy, .alloc ⟨8, .code⟩, .alloc ⟨8, .default⟩, .flush, .destroy,
        .alloc ⟨72, .default⟩]
    let steps := history (Use.act World.service.observed cfg) uses c World.initial
    let released := (c.record.advance .immix 120)
    let a := StandIn.Collector.slowResult
    (cfg.IsSet ∧ ∃ p, steps = steps.take 1 ++ p :: steps.drop 2 ∧
      .returned 7 released ∈ p.2.contacts) ∧
      (steps.drop 2).map (fun p => (p.2.answer, p.2.contacts)) =
        [(.ok (some 0x1078), []), (.ok (some a), [.asked 8 8 0 .default]), (.ok none, [.flushed]),
          (.ok none, []), (.ok (some 0x1080), [])] ∧
      ServesOn cfg released (steps.drop 2) := by
  intro cfg record c uses steps released a
  have hset : cfg.IsSet := ⟨by decide, Selector.isValid_iff.mpr Nat.zero_lt_one⟩
  have hlength : 1 < steps.length := by decide
  have hsteps : steps = steps.take 1 ++ steps[1] :: steps.drop 2 := by
    rw [← List.drop_eq_getElem_cons hlength, List.take_append_drop]
  have hreturned : .returned 7 released ∈ steps[1].2.contacts := List.mem_cons_of_mem _ (.head _)
  exact ⟨⟨hset, _, hsteps, hreturned⟩, rfl,
    (released_buffers_serve_on hset uses c World.initial _ _ _ hsteps 7 released hreturned).2⟩

/-- A context that gave its only lease back serves a request from a buffer of that record. -/
theorem released_buffer_served :
    let cfg : Config := ⟨0x1000, .bump 0, false, 256⟩
    let record := Record.zeroed.setPair (.bump 0) ⟨0x1000, 0x2000⟩
    let steps := history (Use.act World.service.observed cfg) [.destroy, .alloc ⟨16, .default⟩]
      ⟨record, some 0⟩ World.initial
    cfg.IsSet ∧ steps.map (fun p => (p.2.answer, p.2.contacts, p.2.after.isBound)) =
      [(.ok none, [.destroyed, .returned 0 record], false), (.ok (some 0x1000), [], false)] ∧
        (record.pair (.bump 0)).Covers 0x1000 :=
  ⟨⟨by decide, Selector.isValid_iff.mpr (by decide)⟩, rfl, by decide, by decide⟩

end Runs
end HeapBridge.Alloc
