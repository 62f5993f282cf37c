import HeapBridge.Proofs.Alloc.Routing

/-!
# Zero as an answer

A request is answered with the address zero when the collector has no memory for it. A buffer that
is empty stands at zero too, and a request for no bytes is served from it. As long as no buffer with
something in it begins at zero, these are the only two ways to that answer (`zeroMeans`); and only
the collector can put such a buffer into a record, so the same holds along a run.
-/
namespace HeapBridge.Alloc
variable {σ : Type}

/-! ## Buffers at zero -/

/-- No buffer begins at zero: where a cursor is zero, the limit is zero too. -/
def Record.NoneAtZero (r : Record) : Prop := ∀ k, (r.pair k).cursor = 0 → (r.pair k).limit = 0

/-- A collector that puts no buffer that begins at zero into a record. -/
structure Service.NoneAtZero (svc : Service σ) : Prop where
  alloc : ∀ {r size align offset sem a r'}, r.NoneAtZero →
    (svc.alloc r size align offset sem).CanEnd (.ok (a, r')) → r'.NoneAtZero
  postAlloc : ∀ {r o size sem r'}, r.NoneAtZero →
    (svc.postAlloc r o size sem).CanEnd (.ok r') → r'.NoneAtZero

namespace Record
variable {r : Record} {k : PairKey} {size : Word}

theorem noneAtZero_zeroed : zeroed.NoneAtZero := fun _ _ => rfl

theorem NoneAtZero.setPair (h : r.NoneAtZero) {b : Bump} (hb : b.cursor = 0 → b.limit = 0) :
    (r.setPair k b).NoneAtZero := by
  intro x hcursor
  rw [pair_setPair] at hcursor ⊢
  by_cases hx : x = k
  · rw [if_pos hx] at hcursor ⊢
    exact hb hcursor
  · rw [if_neg hx] at hcursor ⊢
    exact h x hcursor

/-- A cursor that moves does not get to zero. -/
theorem NoneAtZero.advance (h : r.NoneAtZero) (hholds : (r.pair k).Holds size) :
    (r.advance k size).NoneAtZero := by
  refine h.setPair fun hcursor => h k ?_
  have hsum := Bump.toNat_cursor_advance hholds
  rw [hcursor, UInt64.toNat_zero] at hsum
  apply UInt64.toNat_inj.mp
  rw [UInt64.toNat_zero]
  omega

/-- What is taken at zero is nothing, from a buffer with nothing in it. -/
theorem NoneAtZero.eq_empty (h : r.NoneAtZero) (hholds : (r.pair k).Holds size)
    (hcursor : (r.pair k).cursor = 0) : size = 0 ∧ r.pair k = .empty := by
  have hlimit := h k hcursor
  unfold Bump.Holds at hholds
  rw [hcursor, hlimit, UInt64.toNat_zero, Nat.zero_add] at hholds
  refine ⟨UInt64.toNat_inj.mp (Nat.le_zero.mp hholds), ?_⟩
  change Bump.mk (r.pair k).cursor (r.pair k).limit = _
  rw [hcursor, hlimit]
  rfl

end Record

/-- A request for no bytes is served from the first buffer, even if nothing is in it. -/
theorem Config.servingPair_zero_eq_some_iff {cfg : Config} (hset : cfg.IsSet) {r : Record}
    {k : PairKey} (hempty : r.pair k = .empty) :
    cfg.servingPair 0 r = some k ↔ ¬ cfg.fastDisabled ∧ cfg.selector.key? .small = some k := by
  have hlimit : ¬ cfg.largeObjectLimit ≤ 0 := by
    intro hle
    apply hset.limit_ne_zero
    apply UInt64.toNat_inj.mp
    exact Nat.le_zero.mp (UInt64.le_iff_toNat_le.mp hle)
  have hthreshold : ¬ cfg.largeBumpThreshold < 0 := by
    rw [UInt64.lt_iff_toNat_lt]
    exact Nat.not_lt_zero _
  have hholds : (r.pair k).Holds 0 := by
    rw [hempty]
    exact Nat.le_refl 0
  rw [Config.servingPair_eq_some_iff hset.selector_isValid, TakesFrom, LargeServes]
  simp [hlimit, hthreshold, hholds]

/-! ## A request to the collector -/

namespace Context
variable {svc : Service σ} {size : Word} {sem : Semantics} {c c' : Context} {s t : σ} {a : Address}
  {contacts contacts' : List Contact}

/-- What a collector did that has answered a request. -/
theorem exists_of_attempt_allocSlow
    (h : (allocSlow svc.observed size sem c).attempt (s, contacts) = (.ok (a, c'), t, contacts')) :
    ∃ r u, (svc.alloc c.record size Units.heapWordSize 0 sem).attempt s = (.ok (a, r), u) ∧
      (c'.record = r ∨ (svc.postAlloc r a size sem).CanEnd (.ok c'.record)) ∧
      contacts' = contacts ++ .asked size Units.heapWordSize 0 sem :: announcement a size sem := by
  unfold allocSlow at h
  rw [Act.attempt_bind, Service.attempt_observed_alloc] at h
  rcases halloc : (svc.alloc c.record size Units.heapWordSize 0 sem).attempt s with ⟨_ | ⟨b, r⟩, u⟩
  · rw [halloc] at h
    cases h
  rw [halloc] at h
  simp only at h
  by_cases hspecial : b ≠ 0 ∧ sem ≠ .default
  · rw [if_pos hspecial, Act.attempt_bind, Service.attempt_observed_postAlloc] at h
    rcases hpost : (svc.postAlloc r b size sem).attempt u with ⟨_ | r', v⟩
    · rw [hpost] at h
      cases h
    · rw [hpost] at h
      cases h
      refine ⟨r, _, rfl, .inr ⟨_, congrArg Prod.fst hpost⟩, ?_⟩
      rw [announcement, if_pos hspecial, List.append_assoc]
      rfl
  · rw [if_neg hspecial] at h
    cases h
    refine ⟨r, _, rfl, .inl rfl, ?_⟩
    rw [announcement, if_neg hspecial]

/-- A collector that has no memory is not told of an object. -/
theorem attempt_allocSlow_of_zero {r : Record}
    (h : (svc.alloc c.record size Units.heapWordSize 0 sem).attempt s = (.ok (0, r), t)) :
    (allocSlow svc.observed size sem c).attempt (s, contacts) =
      (.ok (0, { c with record := r }), t,
        contacts ++ [.asked size Units.heapWordSize 0 sem]) := by
  unfold allocSlow
  rw [Act.attempt_bind, Service.attempt_observed_alloc, h]
  rfl

end Context

/-! ## One request -/

/-- The collector was asked for memory in state `s`, and had none. -/
def OutOfMemory (svc : Service σ) (cfg : Config) (s : σ) (req : Request) (step : Step Address) :
    Prop :=
  step.contacts = [.asked req.size 8 0 (cfg.semanticsFor req.size req.sem)] ∧
    ∃ r t, (svc.alloc step.before.record req.size 8 0
      (cfg.semanticsFor req.size req.sem)).attempt s = (.ok (0, r), t)

/-- No bytes were asked for, and the first buffer of the selected allocator is the empty one. -/
def TookNothing (cfg : Config) (req : Request) (step : Step Address) : Prop :=
  step.contacts = [] ∧ req.size = 0 ∧ ¬ cfg.fastDisabled ∧
    ∃ k, cfg.selector.key? .small = some k ∧ step.before.record.pair k = .empty

/-- What zero means as the answer to a request that is made when the collector is in state `s`. -/
structure ZeroMeans (svc : Service σ) (cfg : Config) (s : σ) (req : Request) (step : Step Address) :
    Prop where
  answer_eq_zero_iff : step.before.record.NoneAtZero →
    (step.answer = .ok 0 ↔ OutOfMemory svc cfg s req step ∨ TookNothing cfg req step)
  /-- A buffer at zero is the collector's doing. -/
  kept : step.before.record.NoneAtZero → step.contacts = [] → step.after.record.NoneAtZero
  kept_of_service : svc.NoneAtZero → step.before.record.NoneAtZero → step.after.record.NoneAtZero

section
variable {svc : Service σ} {cfg : Config} {req : Request} {c : Context}

/-- What is left to the collector was not taken from an empty buffer. -/
theorem not_tookNothing (hset : cfg.IsSet) {step : Step Address}
    (hpair : cfg.servingPair req.size step.before.record = none) : ¬ TookNothing cfg req step := by
  rintro ⟨-, hsize, hopen, k, hk, hempty⟩
  rw [hsize, (Config.servingPair_zero_eq_some_iff hset hempty).mpr ⟨hopen, hk⟩] at hpair
  cases hpair

theorem zeroMeans_of_some (hset : cfg.IsSet) (s : σ) {k : PairKey}
    (hpair : cfg.servingPair req.size c.record = some k) :
    ZeroMeans svc cfg s req
      ⟨c, .ok (c.record.pair k).cursor, [], { c with record := c.record.advance k req.size }⟩ := by
  have hholds := Config.holds_of_servingPair hpair
  have hkept : c.record.NoneAtZero → (c.record.advance k req.size).NoneAtZero :=
    fun hnone => hnone.advance hholds
  refine ⟨fun hnone => ?_, fun hnone _ => hkept hnone, fun _ hnone => hkept hnone⟩
  constructor
  · intro hzero
    obtain ⟨hsize, hempty⟩ := hnone.eq_empty hholds (Except.ok.inj hzero)
    rw [hsize, Config.servingPair_zero_eq_some_iff hset hempty] at hpair
    exact .inr ⟨rfl, hsize, hpair.1, k, hpair.2, hempty⟩
  · rintro (⟨hasked, -⟩ | ⟨-, hsize, hopen, x, hx, hempty⟩)
    · cases hasked
    · -- the empty buffer is the one that serves, and its cursor is zero
      have hserves := (Config.servingPair_zero_eq_some_iff hset hempty).mpr ⟨hopen, hx⟩
      rw [hsize, hserves] at hpair
      cases hpair
      change Except.ok (c.record.pair k).cursor = _
      rw [hempty]
      rfl

theorem zeroMeans_of_none (hset : cfg.IsSet) (s : σ)
    (hpair : cfg.servingPair req.size c.record = none) :
    ZeroMeans svc cfg s req (observe (req.act svc.observed cfg) c s).1 := by
  unfold observe Request.act
  rw [Context.attempt_inPlace, Context.alloc_eq _ hset, hpair]
  simp only
  rcases hslow : (Context.allocSlow svc.observed req.size (cfg.semanticsFor req.size req.sem)
      c).attempt (s, []) with ⟨f | ⟨a, c'⟩, t, contacts⟩
  · refine ⟨fun _ => ?_, fun hnone _ => hnone, fun _ hnone => hnone⟩
    refine iff_of_false (fun hzero => nomatch hzero) ?_
    rintro (⟨-, r, u, halloc⟩ | hnothing)
    · rw [Context.attempt_allocSlow_of_zero halloc] at hslow
      cases hslow
    · exact not_tookNothing hset hpair hnothing
  · obtain ⟨r, u, halloc, hrecord, hcontacts⟩ := Context.exists_of_attempt_allocSlow hslow
    refine ⟨fun _ => ⟨fun hzero => ?_, ?_⟩, fun _ hasked => ?_, fun hservice hnone => ?_⟩
    · cases hzero
      refine .inl ⟨?_, r, u, halloc⟩
      rw [Context.announcement, if_neg (fun h => h.1 rfl)] at hcontacts
      exact hcontacts
    · rintro (⟨-, r', u', hzero⟩ | hnothing)
      · have heq := halloc.symm.trans hzero
        cases heq
        rfl
      · exact absurd hnothing (not_tookNothing hset hpair)
    · exact absurd (hcontacts.symm.trans hasked) (List.cons_ne_nil _ _)
    · have hr := hservice.alloc hnone ⟨s, congrArg Prod.fst halloc⟩
      rcases hrecord with hsame | hpost
      · exact hsame ▸ hr
      · exact hservice.postAlloc hr hpost

theorem zeroMeans (hset : cfg.IsSet) (req : Request) (c : Context) (s : σ) :
    ZeroMeans svc cfg s req (observe (req.act svc.observed cfg) c s).1 := by
  rcases hpair : cfg.servingPair req.size c.record with _ | k
  · exact zeroMeans_of_none hset s hpair
  · rw [observe_act_of_some hset s hpair]
    exact zeroMeans_of_some hset s hpair

/-! ## Runs of requests -/

/-- What zero means in the answers of a run. -/
structure ZeroAnswers (svc : Service σ) (cfg : Config) (states : List σ)
    (steps : List (Request × Step Address)) : Prop where
  meaning : List.Forall₂ (fun s p => ZeroMeans svc cfg s p.1 p.2) states steps
  /-- No buffer begins at zero until the collector has answered a request with one. -/
  none_until : ∀ earlier p later, steps = earlier ++ p :: later →
    (∀ q ∈ earlier, q.2.contacts ≠ [] → q.2.after.record.NoneAtZero) →
      p.2.before.record.NoneAtZero
  none_of_service : svc.NoneAtZero → ∀ p ∈ steps, p.2.before.record.NoneAtZero

/-- Along a run that begins without a buffer at zero, a request is answered with zero if the
collector has no memory for it, or if it takes nothing from an empty buffer, and in no other way. -/
theorem zero_answers (hset : cfg.IsSet) (hc : c.record.NoneAtZero) (reqs : List Request) (s : σ) :
    ZeroAnswers svc cfg (statesBefore (Request.act svc.observed cfg) reqs c s)
      (history (Request.act svc.observed cfg) reqs c s) where
  meaning := forall₂_statesBefore (ZeroMeans svc cfg) (zeroMeans hset) reqs c s
  none_until earlier p later hsteps hcollector := by
    have hkept : ∀ q ∈ history (Request.act svc.observed cfg) reqs c s,
        q.2.before.record.NoneAtZero → q.2.contacts = [] → q.2.after.record.NoneAtZero :=
      forall_mem_history
        (fun _ step => step.before.record.NoneAtZero → step.contacts = [] →
          step.after.record.NoneAtZero)
        (fun req c s => (zeroMeans hset req c s).kept) reqs c s
    refine before_of_append (fun c => c.record.NoneAtZero) hc hsteps fun q hq hnone => ?_
    by_cases hasked : q.2.contacts = []
    · exact hkept q (hsteps ▸ List.mem_append_left (p :: later) hq) hnone hasked
    · exact hcollector q hq hasked
  none_of_service hservice :=
    before_of_kept (fun c => c.record.NoneAtZero)
      (fun req c s => (zeroMeans hset req c s).kept_of_service hservice) reqs hc s

/-- An empty buffer, a request for nothing, and a collector that has no memory. -/
theorem zero_answers_of_exhausted :
    let cfg : Config := ⟨0x1000, .bump 0, false, 256⟩
    let record := Record.zeroed.setPair (.bump 1) ⟨0x1000, 0x1080⟩
    let c : Context := ⟨record, some 0⟩
    let w := { World.initial with collector := { World.initial.collector with exhausted := true } }
    let reqs : List Request := [⟨0, .code⟩, ⟨8, .code⟩, ⟨0x1000, .default⟩]
    let act := Request.act World.service.observed cfg
    (cfg.IsSet ∧ c.record.NoneAtZero) ∧
      (history act reqs c w).map (fun p => (p.2.answer, p.2.contacts)) =
        [(.ok 0, []), (.ok 0, [.asked 8 8 0 .code]), (.ok 0, [.asked 0x1000 8 0 .largeObject])] ∧
      ZeroAnswers World.service cfg (statesBefore act reqs c w) (history act reqs c w) := by
  intro cfg record c w reqs act
  have hset : cfg.IsSet := ⟨by decide, Selector.isValid_iff.mpr (by decide)⟩
  have hnone : c.record.NoneAtZero := Record.noneAtZero_zeroed.setPair fun h => absurd h (by decide)
  exact ⟨⟨hset, hnone⟩, rfl, zero_answers hset hnone reqs w⟩

/-- A request for nothing is answered with zero by an empty buffer, and a request for something by a
buffer that the collector has put at zero. It has memory in both cases. -/
theorem zero_answered_with_memory :
    let cfg : Config := ⟨0x1000, .bump 0, false, 256⟩
    let w := World.initial
    let refilling := { w with collector := w.collector.keepRefill (.bump 0) ⟨0, 0x1000⟩ }
    let run := fun (sizes : List Word) w =>
      (history (Request.act World.service.observed cfg) (sizes.map (⟨·, .default⟩)) .unbound w).map
        fun p => (p.2.answer, p.2.contacts)
    (cfg.IsSet ∧ Context.unbound.record.NoneAtZero) ∧ run [0] w = [(.ok 0, [])] ∧
      run [8, 8] refilling =
        [(.ok StandIn.Collector.slowResult, [.asked 8 8 0 .default]), (.ok 0, [])] :=
  ⟨⟨⟨by decide, Selector.isValid_iff.mpr (by decide)⟩, Record.noneAtZero_zeroed⟩, rfl, rfl⟩

end
end HeapBridge.Alloc
