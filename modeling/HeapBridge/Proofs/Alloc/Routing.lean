import HeapBridge.Proofs.Alloc.Blocks

/-!
# The way of a request

Six things decide who serves a request: its size against the limit of large objects, against the
threshold of the second buffer and against what two buffers hold, the selected allocator, and
whether the fast path is off. `Config.Leaves` says in these terms what is left to the collector, and
`Config.TakesFrom` which buffer serves the rest. With a collector that answers every request, this
settles for each request of a run what the collector is asked, what it is told of, and what becomes
of the buffers.
-/
namespace HeapBridge.Alloc
variable {σ α : Type}

/-! ## What decides -/

/-- Only the two-buffer allocator has a second buffer. -/
theorem Selector.key?_large_eq_some_iff {s : Selector} (h : s.IsValid) {k : PairKey} :
    s.key? .large = some k ↔ (∃ i, s = .immix i) ∧ k = .immixLarge := by
  cases s with
  | immix i =>
    have hi : i.toNat < 1 := Selector.isValid_iff.mp h
    have hkey : key? (.immix i) .large = some .immixLarge := by
      change (checkIndex 1 i .immixLarge).toOption.join = _
      rw [checkIndex, if_pos hi]
      rfl
    simp [hkey, eq_comm]
  | _ => simp [key?, pair, largePair, Except.toOption]

theorem Record.find?_toList_eq_some_iff {r : Record} {size : Word} {o : Option PairKey}
    {k : PairKey} :
    (o.toList.find? fun k => (r.pair k).Holds size) = some k ↔
      o = some k ∧ (r.pair k).Holds size := by
  cases o with
  | none => simp
  | some x =>
    rw [Option.toList_some, List.find?_singleton, Option.some.injEq]
    split
    · rename_i hfits
      have hholds : (r.pair x).Holds size := of_decide_eq_true hfits
      rw [Option.some.injEq]
      exact ⟨fun hkey => ⟨hkey, hkey ▸ hholds⟩, And.left⟩
    · rename_i hfails
      refine iff_of_false (Option.some_ne_none k).symm ?_
      rintro ⟨rfl, hholds⟩
      exact hfails (decide_eq_true hholds)

namespace Config
variable {cfg : Config} {size : Word} {r : Record} {k : PairKey}

/-- The first buffer is absent, or does not hold `size` bytes. -/
def RegularFails (cfg : Config) (size : Word) (r : Record) : Prop :=
  ∀ k, cfg.selector.key? .small = some k → ¬ (r.pair k).Holds size

/-- The second buffer may be used for `size` bytes, and holds them. -/
def LargeServes (cfg : Config) (size : Word) (r : Record) : Prop :=
  (∃ i, cfg.selector = .immix i) ∧ cfg.largeBumpThreshold < size ∧ (r.pair .immixLarge).Holds size

/-- What is left to the collector: large requests, all requests if the fast path is off, and what
no buffer holds. -/
def Leaves (cfg : Config) (size : Word) (r : Record) : Prop :=
  cfg.largeObjectLimit ≤ size ∨ cfg.fastDisabled ∨
    (cfg.RegularFails size r ∧ ¬ cfg.LargeServes size r)

/-- The buffer that serves a request: the first one, or the second one where the first has
failed. -/
def TakesFrom (cfg : Config) (size : Word) (r : Record) (k : PairKey) : Prop :=
  (cfg.selector.key? .small = some k ∧ (r.pair k).Holds size) ∨
    (cfg.RegularFails size r ∧ cfg.LargeServes size r ∧ k = .immixLarge)

/-- Where the limits leave a request to the buffers, the first one is asked before the second. -/
theorem servingPair_eq_some_iff (h : cfg.selector.IsValid) :
    cfg.servingPair size r = some k ↔
      ¬ (cfg.largeObjectLimit ≤ size ∨ cfg.fastDisabled) ∧ cfg.TakesFrom size r k := by
  unfold servingPair
  split
  · simp_all
  · rename_i hopen
    have hfails : ((cfg.selector.key? .small).toList.find? fun k => (r.pair k).Holds size) = none ↔
        cfg.RegularFails size r := by
      simp [RegularFails]
    have hlarge : ((if cfg.largeBumpThreshold < size then (cfg.selector.key? .large).toList
        else []).find? fun k => (r.pair k).Holds size) = some k ↔
          cfg.LargeServes size r ∧ k = .immixLarge := by
      unfold LargeServes
      split
      · rw [Record.find?_toList_eq_some_iff, Selector.key?_large_eq_some_iff h]
        constructor
        · rintro ⟨⟨himmix, rfl⟩, hholds⟩
          exact ⟨⟨himmix, ‹_›, hholds⟩, rfl⟩
        · rintro ⟨⟨himmix, -, hholds⟩, rfl⟩
          exact ⟨⟨himmix, rfl⟩, hholds⟩
      · simp_all
    rw [offers, List.find?_append, Option.or_eq_some_iff, hfails, hlarge,
      Record.find?_toList_eq_some_iff]
    exact (and_iff_right hopen).symm

theorem servingPair_eq_none_iff (h : cfg.selector.IsValid) :
    cfg.servingPair size r = none ↔ cfg.Leaves size r := by
  have htakes : (∀ k, ¬ cfg.TakesFrom size r k) ↔
      cfg.RegularFails size r ∧ ¬ cfg.LargeServes size r := by
    constructor
    · intro hnone
      have hfails : cfg.RegularFails size r := fun k hk hholds => hnone k (.inl ⟨hk, hholds⟩)
      exact ⟨hfails, fun hserves => hnone _ (.inr ⟨hfails, hserves, rfl⟩)⟩
    · rintro ⟨hfails, hserves⟩ k (⟨hk, hholds⟩ | ⟨-, hlarge, -⟩)
      · exact hfails k hk hholds
      · exact hserves hlarge
  rw [Option.eq_none_iff_forall_ne_some]
  simp only [ne_eq, servingPair_eq_some_iff h, not_and]
  rw [Leaves, ← or_assoc, ← htakes]
  constructor
  · intro hnone
    by_cases hopen : cfg.largeObjectLimit ≤ size ∨ cfg.fastDisabled
    · exact .inl hopen
    · exact .inr fun k => hnone k hopen
  · rintro (hclosed | hnone) k hopen
    · exact absurd hclosed hopen
    · exact hnone k

end Config

/-! ## A collector that answers -/

/-- A collector that serves every request, with an address or with zero, and leaves the record of
the thread alone. -/
structure Service.Answers (svc : Service σ) : Prop where
  alloc : ∀ r size align offset sem s, ∃ a t,
    (svc.alloc r size align offset sem).attempt s = (.ok (a, r), t)
  postAlloc : ∀ r o size sem s, ∃ t, (svc.postAlloc r o size sem).attempt s = (.ok r, t)

namespace Context

/-- The answer to a request that a collector serves is the collector's own, and it is told of the
object before the request is over. -/
theorem attempt_allocSlow {svc : Service σ} (h : svc.Answers) (size : Word) (sem : Semantics)
    (c : Context) (s : σ) (contacts : List Contact) :
    ∃ a t u, (svc.alloc c.record size Units.heapWordSize 0 sem).attempt s = (.ok (a, c.record), t) ∧
      (allocSlow svc.observed size sem c).attempt (s, contacts) =
        (.ok (a, c), u, contacts ++ .asked size Units.heapWordSize 0 sem ::
          announcement a size sem) := by
  obtain ⟨a, t, halloc⟩ := h.alloc c.record size Units.heapWordSize 0 sem s
  have hasked : (svc.observed.alloc c.record size Units.heapWordSize 0 sem).attempt (s, contacts) =
      (.ok (a, c.record), t, contacts ++ [.asked size Units.heapWordSize 0 sem]) := by
    rw [Service.attempt_observed_alloc, halloc]
  unfold allocSlow announcement
  by_cases hspecial : a ≠ 0 ∧ sem ≠ .default
  · obtain ⟨u, hpost⟩ := h.postAlloc c.record a size sem t
    have htold : ∀ contacts, (svc.observed.postAlloc c.record a size sem).attempt (t, contacts) =
        (.ok c.record, u, contacts ++ [.announced a size sem]) := by
      intro contacts
      rw [Service.attempt_observed_postAlloc, hpost]
    refine ⟨a, t, u, halloc, ?_⟩
    rw [Act.attempt_bind, hasked, if_pos hspecial]
    simp only [if_pos hspecial, Act.attempt_bind, htold, Act.attempt_pure, List.append_assoc,
      List.singleton_append]
  · refine ⟨a, t, t, halloc, ?_⟩
    rw [Act.attempt_bind, hasked, if_neg hspecial]
    simp only [if_neg hspecial, Act.attempt_pure]

end Context

/-! ## One request -/

/-- How a request goes that is made when the collector is in state `s`. -/
structure Routed (svc : Service σ) (cfg : Config) (s : σ) (req : Request) (step : Step Address) :
    Prop where
  /-- The collector has a part in what is left to it, and in nothing else. -/
  asked_iff : step.contacts ≠ [] ↔ cfg.Leaves req.size step.before.record
  /-- It is asked once, and told once of an object with special semantics. What it answers is the
  answer to the request. -/
  asked : cfg.Leaves req.size step.before.record → ∃ a t,
    (svc.alloc step.before.record req.size 8 0 (cfg.semanticsFor req.size req.sem)).attempt s =
        (.ok (a, step.before.record), t) ∧
      step.answer = .ok a ∧ step.after = step.before ∧
      step.contacts = .asked req.size 8 0 (cfg.semanticsFor req.size req.sem) ::
        if a ≠ 0 ∧ cfg.semanticsFor req.size req.sem ≠ .default then
          [.announced a req.size (cfg.semanticsFor req.size req.sem)]
        else []
  /-- Any other request moves the cursor of one buffer, and gets what the cursor was. -/
  inline : ¬ cfg.Leaves req.size step.before.record → ∃ k,
    cfg.TakesFrom req.size step.before.record k ∧
      step.answer = .ok (step.before.record.pair k).cursor ∧ step.contacts = [] ∧
      step.after =
        { step.before with record := step.before.record.advance k req.size }

theorem routed {svc : Service σ} {cfg : Config} (hset : cfg.IsSet) (h : svc.Answers)
    (req : Request) (c : Context) (s : σ) :
    Routed svc cfg s req (observe (req.act svc.observed cfg) c s).1 := by
  have hvalid := hset.selector_isValid
  unfold observe Request.act
  rw [Context.attempt_inPlace, Context.alloc_eq _ hset]
  rcases hpair : cfg.servingPair req.size c.record with _ | k
  · have hleaves := (Config.servingPair_eq_none_iff hvalid).mp hpair
    obtain ⟨a, t, u, halloc, hslow⟩ := Context.attempt_allocSlow h req.size
      (cfg.semanticsFor req.size req.sem) c s []
    simp only [hslow]
    exact ⟨iff_of_true (List.cons_ne_nil _ _) hleaves, fun _ => ⟨a, t, halloc, rfl, rfl, rfl⟩,
      fun hstays => absurd hleaves hstays⟩
  · have hstays : ¬ cfg.Leaves req.size c.record := by
      rw [← Config.servingPair_eq_none_iff hvalid, hpair]
      exact Option.some_ne_none k
    have htakes := ((Config.servingPair_eq_some_iff hvalid).mp hpair).2
    exact ⟨iff_of_false (fun hne => hne rfl) hstays, fun hleaves => absurd hleaves hstays,
      fun _ => ⟨k, htakes, rfl, rfl, rfl⟩⟩

/-! ## Runs of requests -/

section Runs
variable {ι : Type}

/-- The states of the collector in which the steps of a run are taken. -/
def statesBefore (act : ι → Act (Context × σ × List Contact) α) : List ι → Context → σ → List σ
  | [], _, _ => []
  | i :: is, c, s =>
    let (step, t) := observe (act i) c s
    s :: statesBefore act is step.after t

/-- What holds of every step in the state in which it is taken holds of all steps of a run. -/
theorem forall₂_statesBefore {act : ι → Act (Context × σ × List Contact) α}
    (holds : σ → ι → Step α → Prop) (h : ∀ i c s, holds s i (observe (act i) c s).1) (is : List ι)
    (c : Context) (s : σ) :
    List.Forall₂ (fun s p => holds s p.1 p.2) (statesBefore act is c s) (history act is c s) := by
  induction is generalizing c s with
  | nil => exact .nil
  | cons i is ih => exact .cons (h i c s) (ih _ _)

/-- The way of every request of a run, and what becomes of it there. -/
theorem requests_routed {svc : Service σ} {cfg : Config} (hset : cfg.IsSet) (h : svc.Answers)
    (reqs : List Request) (c : Context) (s : σ) :
    List.Forall₂ (fun s p => Routed svc cfg s p.1 p.2)
      (statesBefore (Request.act svc.observed cfg) reqs c s)
      (history (Request.act svc.observed cfg) reqs c s) :=
  forall₂_statesBefore (Routed svc cfg) (routed hset h) reqs c s

/-- An exact fit, a request that only the second buffer may serve, one at the threshold, one at the
limit, one that no buffer holds, and one that the collector has no memory for. -/
theorem requests_routed_either_way :
    let cfg : Config := ⟨0x1000, .immix 0, false, 64⟩
    let svc : Service World :=
      { World.service with
        alloc := fun r size _ _ _ =>
          pure (if 0x2000 ≤ size then 0 else StandIn.Collector.slowResult, r)
        postAlloc := fun r _ _ _ => pure r }
    let record := Record.zeroed.setPair .immix ⟨0x1000, 0x1080⟩
    let c : Context := ⟨record.setPair .immixLarge ⟨0x1080, 0x1100⟩, some 0⟩
    let reqs : List Request :=
      [⟨128, .code⟩, ⟨72, .default⟩, ⟨64, .nonMoving⟩, ⟨0x1000, .default⟩, ⟨72, .default⟩,
        ⟨0x2000, .code⟩]
    let act := Request.act svc.observed cfg
    let a := StandIn.Collector.slowResult
    (cfg.IsSet ∧ svc.Answers) ∧
      (history act reqs c World.initial).map (fun p => (p.2.answer, p.2.contacts)) =
        [(.ok 0x1000, []), (.ok 0x1080, []),
          (.ok a, [.asked 64 8 0 .nonMoving, .announced a 64 .nonMoving]),
          (.ok a, [.asked 0x1000 8 0 .largeObject, .announced a 0x1000 .largeObject]),
          (.ok a, [.asked 72 8 0 .default]), (.ok 0, [.asked 0x2000 8 0 .largeObject])] ∧
      List.Forall₂ (fun s p => Routed svc cfg s p.1 p.2) (statesBefore act reqs c World.initial)
        (history act reqs c World.initial) := by
  intro cfg svc record c reqs act a
  have hset : cfg.IsSet := ⟨by decide, Selector.isValid_iff.mpr Nat.zero_lt_one⟩
  have hanswers : svc.Answers := ⟨fun r size _ _ _ s => ⟨_, s, rfl⟩, fun _ _ _ _ s => ⟨s, rfl⟩⟩
  exact ⟨⟨hset, hanswers⟩, rfl, requests_routed hset hanswers reqs c _⟩

end Runs
end HeapBridge.Alloc
