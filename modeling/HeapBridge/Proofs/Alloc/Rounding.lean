import HeapBridge.Proofs.Alloc.Routing
import HeapBridge.Proofs.Word.Alignment

/-!
# Requests in heap words

Requests are rounded up to whole heap words before they are served. As long as the rounded size is a
word, a request gets all the bytes that it asked for: from the buffer that serves it, or in what the
collector is asked for. The last seven sizes that a word can hold are rounded to zero, and a request
of one of them goes the way of a request for nothing.
-/
namespace HeapBridge.Alloc
variable {σ : Type} {svc : Service σ} {cfg : Config}

/-- A request for `n` bytes in whole heap words. -/
def Request.inHeapWords (n : Word) (sem : Semantics) : Request := ⟨Word.heapAlignUp n, sem⟩

theorem Bump.advance_zero (b : Bump) : b.advance 0 = b := by
  rw [advance, UInt64.add_zero]

theorem Record.advance_zero (r : Record) (k : PairKey) : r.advance k 0 = r := by
  obtain ⟨thread, pair⟩ := r
  rw [advance, Bump.advance_zero, setPair]
  congr 1
  funext x
  split
  · rw [‹x = k›]
  · rfl

/-- The collector is asked for no other size than that of the request. -/
theorem contacts_of_none (svc : Service σ) (hset : cfg.IsSet) {req : Request} {c : Context} (s : σ)
    (h : cfg.servingPair req.size c.record = none) :
    ∃ a, (observe (req.act svc.observed cfg) c s).1.contacts =
      .asked req.size Units.heapWordSize 0 (cfg.semanticsFor req.size req.sem) ::
        Context.announcement a req.size (cfg.semanticsFor req.size req.sem) := by
  obtain ⟨outcome, contacts, ⟨a, rfl, -⟩, hstep⟩ :=
    observe_inPlace _ c (Context.watched_alloc_of_none svc hset req.sem h) s
  refine ⟨a, ?_⟩
  unfold Request.act
  rw [hstep]
  rcases outcome with f | ⟨b, c'⟩ <;> rfl

theorem exists_servingPair_of_isInline (hset : cfg.IsSet) {req : Request} {c : Context} {s : σ}
    (h : (observe (req.act svc.observed cfg) c s).1.isInline) :
    ∃ k, cfg.servingPair req.size c.record = some k := by
  rcases hpair : cfg.servingPair req.size c.record with _ | k
  · obtain ⟨a, hcontacts⟩ := contacts_of_none svc hset s hpair
    rw [Step.isInline, hcontacts] at h
    cases h
  · exact ⟨k, rfl⟩

theorem size_eq_of_asked (hset : cfg.IsSet) {req : Request} {c : Context} {s : σ}
    {size align offset : Word} {sem : Semantics}
    (h : .asked size align offset sem ∈ (observe (req.act svc.observed cfg) c s).1.contacts) :
    size = req.size := by
  rcases hpair : cfg.servingPair req.size c.record with _ | k
  · obtain ⟨a, hcontacts⟩ := contacts_of_none svc hset s hpair
    rw [hcontacts, Context.announcement] at h
    rcases List.mem_cons.mp h with hasked | hannounced
    · cases hasked
      rfl
    · split at hannounced
      · cases List.mem_singleton.mp hannounced
      · cases hannounced
  · rw [observe_act_of_some hset s hpair] at h
    cases h

/-- What a request for `n` bytes comes to that is made in heap words. -/
structure RoundedUp (cfg : Config) (n : Word) (step : Step Address) : Prop where
  /-- All bytes of a request that is served inline lie in the buffer that serves it. -/
  inline : n.toNat ≤ 2 ^ 64 - 8 → step.isInline → ∃ k a,
    cfg.TakesFrom (Word.heapAlignUp n) step.before.record k ∧ step.answer = .ok a ∧
      a.toNat + n.toNat < 2 ^ 64 ∧ Block.Within ⟨a, n⟩ (step.before.record.pair k)
  /-- The collector is asked for as many bytes at least. -/
  asked : ∀ size align offset sem, .asked size align offset sem ∈ step.contacts →
    (n ≤ size ↔ n.toNat ≤ 2 ^ 64 - 8)
  /-- A request that cannot be rounded up takes nothing from a buffer, and asks for nothing. -/
  lost : 2 ^ 64 - 8 < n.toNat →
    (step.isInline → step.after = step.before ∧ ∃ k,
      cfg.TakesFrom 0 step.before.record k ∧
        step.answer = .ok (step.before.record.pair k).cursor) ∧
    ∀ size align offset sem, .asked size align offset sem ∈ step.contacts → size = 0

/-- A request in heap words gets the bytes that it asked for if it can be rounded up at all. -/
theorem request_rounded_up (hset : cfg.IsSet) (n : Word) (sem : Semantics) (c : Context) (s : σ) :
    RoundedUp cfg n (observe ((Request.inHeapWords n sem).act svc.observed cfg) c s).1 := by
  refine ⟨fun hfits hinline => ?_, fun size align offset sem' hasked => ?_, fun hover => ⟨?_, ?_⟩⟩
  · obtain ⟨k, hpair⟩ := exists_servingPair_of_isInline hset hinline
    rw [observe_act_of_some hset s hpair]
    have htakes := ((Config.servingPair_eq_some_iff hset.selector_isValid).mp hpair).2
    have hholds : (c.record.pair k).Holds (Word.heapAlignUp n) :=
      Config.holds_of_servingPair hpair
    have hround := UInt64.le_iff_toNat_le.mp (Word.le_heapAlignUp_iff.mpr hfits)
    have hlimit : (c.record.pair k).limit.toNat < 2 ^ 64 := (c.record.pair k).limit.toNat_lt
    unfold Bump.Holds at hholds
    refine ⟨k, _, htakes, rfl, by omega, Nat.le_refl _, ?_⟩
    change (c.record.pair k).cursor.toNat + n.toNat ≤ (c.record.pair k).limit.toNat
    omega
  · rw [size_eq_of_asked hset hasked]
    exact Word.le_heapAlignUp_iff
  · intro hinline
    obtain ⟨k, hpair⟩ := exists_servingPair_of_isInline hset hinline
    rw [observe_act_of_some hset s hpair]
    have htakes := ((Config.servingPair_eq_some_iff hset.selector_isValid).mp hpair).2
    have hzero : (Request.inHeapWords n sem).size = 0 := Word.heapAlignUp_eq_zero hover
    rw [hzero] at htakes ⊢
    rw [Record.advance_zero]
    exact ⟨rfl, k, htakes, rfl⟩
  · intro size align offset sem' hasked
    rw [size_eq_of_asked hset hasked]
    exact Word.heapAlignUp_eq_zero hover

/-- A request that fills its buffer up to the last heap word of the address space. -/
theorem request_rounded_up_at_top :
    let cfg : Config := ⟨0xffffffffffffffff, .bump 0, false, 256⟩
    let c : Context := ⟨Record.zeroed.setPair (.bump 0) ⟨8, 0xfffffffffffffff8⟩, some 0⟩
    let n : Word := 0xffffffffffffffe9
    let step :=
      (observe ((Request.inHeapWords n .code).act World.service.observed cfg) c World.initial).1
    cfg.IsSet ∧ (n.toNat ≤ 2 ^ 64 - 8 ∧ step.isInline ∧ step.answer = .ok 8) ∧
      RoundedUp cfg n step := by
  have hset : Config.IsSet ⟨0xffffffffffffffff, .bump 0, false, 256⟩ :=
    ⟨by decide, Selector.isValid_iff.mpr (by decide)⟩
  exact ⟨hset, ⟨by decide, rfl, rfl⟩, request_rounded_up hset _ .code _ World.initial⟩

/-- A request for all the bytes that there are is served from a buffer of sixteen, and stays too
small where the collector is asked. -/
theorem request_for_everything_rounded_to_nothing :
    let n : Word := 0xffffffffffffffff
    let cfg := fun disabled => (⟨0x1000, .bump 0, disabled, 256⟩ : Config)
    let c : Context := ⟨Record.zeroed.setPair (.bump 0) ⟨0x1000, 0x1010⟩, some 0⟩
    let step := fun disabled => (observe
      ((Request.inHeapWords n .default).act World.service.observed (cfg disabled)) c World.initial).1
    ((cfg false).IsSet ∧ (cfg true).IsSet) ∧
      ((step false).isInline ∧ (step false).answer = .ok 0x1000 ∧
        ¬ Block.Within ⟨0x1000, n⟩ (c.record.pair (.bump 0))) ∧
      (step true).contacts = [.asked 0 8 0 .default] ∧ ¬ n ≤ 0 :=
  ⟨⟨⟨by decide, Selector.isValid_iff.mpr (by decide)⟩,
      ⟨by decide, Selector.isValid_iff.mpr (by decide)⟩⟩,
    ⟨rfl, rfl, fun h => absurd h.2 (by decide)⟩, rfl, by decide⟩

end HeapBridge.Alloc
