import HeapBridge.Barrier.Tier
import HeapBridge.Proofs.Barrier.Direct
import HeapBridge.Proofs.Barrier.Graph
import HeapBridge.Proofs.Barrier.Machine.Refinement
import HeapBridge.Proofs.Barrier.Recorder

/-!
# Tiers tell the same

Each tier follows the protocol with its own shortcuts, so tiers differ where shortcuts do: at a null
that is put into a fresh object, and at a load that is known not to read a referent. Where that
knowledge is true, the load of the other tiers ends at the class check that the shortcut leaves out.
-/
namespace HeapBridge.Barrier
variable {σ : Type} {cfg : Config} {env : Surroundings σ}

/-- A tier is the protocol with the shortcuts of that tier. -/
theorem Tier.run_eq (h : cfg.unlogBits.logRegion ≤ 60) (t : Tier) (a : Access) :
    t.run cfg env a = Protocol.run cfg (t.shortcuts cfg) env a := by
  cases t with
  | direct => exact Direct.run_eq h a
  | baseline =>
    rw [Tier.run, Machine.compile_eq h a, Act.lift_ok, pure_bind, Machine.run_codeOf h (.refl a)]
    rfl
  | optimizing =>
    obtain ⟨graph, hgraph, hrun⟩ := Graph.exists_ofAccess h (.refl a)
    rw [Tier.run, hgraph, Act.lift_ok, pure_bind, hrun]
    rfl

/-! ## What shortcuts leave out -/

/-- Whether an access is a store that compiled tiers leave out. -/
def Access.isElidable : Access → Bool
  | .store s => s.isElidable
  | _ => false

namespace Protocol

theorem run_of_isElidable {s : Store} (hs : s.isElidable = true) {cuts : Shortcuts}
    (hcuts : cuts.elideNullStores = true) : run cfg cuts env (.store s) = pure () := by
  simp [run, hs, hcuts]

/-- Without an elidable store, eliding null stores makes no difference. -/
theorem run_elideNullStores {a : Access} (ha : a.isElidable = false) (elide shortCircuit : Bool) :
    run cfg ⟨elide, shortCircuit⟩ env a = run cfg ⟨false, shortCircuit⟩ env a := by
  cases a with
  | store s =>
    have hs : s.isElidable = false := ha
    simp [run, hs]
  | _ => rfl

/-- A short circuit changes nothing, or it replaces the class check of a base that is known not to
be a reference object. -/
theorem run_shortCircuit (cfg : Config) (env : Surroundings σ) (a : Access) (shortCircuit : Bool) :
    run cfg ⟨false, shortCircuit⟩ env a = run cfg .direct env a ∨
      ∃ l, a = .load l ∧ l.facts.excludeReference = true ∧
        run cfg ⟨false, shortCircuit⟩ env a = pure () ∧
        run cfg .direct env a = (do
          if !(← env.isReference l.base) then return
          report cfg env l) := by
  match a with
  | .store _ | .arrayCopy _ | .clone _ => exact .inl rfl
  | .load l =>
    simp only [run, Shortcuts.direct, Bool.false_and]
    cases hn : l.needsBarrier cfg with
    | false => exact .inl rfl
    | true =>
      by_cases hu : l.strength = .unknown
      · cases hc : shortCircuit && l.cannotReadReferent cfg with
        | false =>
          left
          simp only [hu, if_true]
        | true =>
          by_cases ho : l.offset = cfg.referentOffset
          · have hknown : l.facts.excludeReference = true := by
              simpa [Load.cannotReadReferent, ho] using (Bool.and_eq_true_iff.mp hc).2
            right
            refine ⟨l, rfl, hknown, ?_, ?_⟩
            · simp only [hu, if_true]
              rfl
            · simp only [hu, ho, if_true, ne_eq, not_true_eq_false, if_false]
              rfl
          · left
            simp [hu, ho]
      · left
        simp only [hu, if_false]

end Protocol

namespace Tier

theorem baseline_run_eq_direct (h : cfg.unlogBits.logRegion ≤ 60) {a : Access}
    (ha : a.isElidable = false) : baseline.run cfg env a = direct.run cfg env a := by
  rw [run_eq h, run_eq h]
  exact Protocol.run_elideNullStores ha true false

theorem optimizing_run_eq (h : cfg.unlogBits.logRegion ≤ 60) {a : Access}
    (ha : a.isElidable = false) :
    optimizing.run cfg env a = Protocol.run cfg ⟨false, cfg.shortCircuit⟩ env a := by
  rw [run_eq h]
  exact Protocol.run_elideNullStores ha true cfg.shortCircuit

theorem run_of_isElidable (h : cfg.unlogBits.logRegion ≤ 60) {s : Store}
    (hs : s.isElidable = true) {t : Tier} (ht : t ≠ .direct) :
    t.run cfg env (.store s) = pure () := by
  rw [run_eq h]
  refine Protocol.run_of_isElidable hs ?_
  cases t with
  | direct => exact absurd rfl ht
  | baseline => rfl
  | optimizing => rfl

/-- Where what is known is true, the optimizing graph leaves out one class check at most. -/
theorem attempt_optimizing (h : cfg.unlogBits.logRegion ≤ 60) {a : Access}
    (ha : a.isElidable = false) {r : Recorder} (htrue : r.IsTruthful a) :
    (direct.run cfg Recorder.surroundings a).attempt r =
        (optimizing.run cfg Recorder.surroundings a).attempt r ∨
      ∃ o, (direct.run cfg Recorder.surroundings a).attempt r =
        ((optimizing.run cfg Recorder.surroundings a).attempt r).map id
          (.record (.checkReference o)) := by
  have hdirect : direct.run cfg Recorder.surroundings a =
      Protocol.run cfg .direct Recorder.surroundings a := run_eq h .direct a
  rw [optimizing_run_eq h ha, hdirect]
  obtain heq | ⟨l, rfl, hknown, hshort, hfull⟩ :=
    Protocol.run_shortCircuit cfg Recorder.surroundings a cfg.shortCircuit
  · left
    rw [heq]
  · right
    have hask : Recorder.surroundings.isReference l.base r =
        .ok false (r.record (.checkReference l.base)) := by
      have hbase : r.references.contains l.base = false := by
        simpa using htrue hknown
      change EStateM.Result.ok (l.base != 0 && r.references.contains l.base) _ = _
      rw [hbase, Bool.and_false]
    refine ⟨l.base, ?_⟩
    rw [hshort, hfull, Act.attempt, Act.bind_of_ok hask]
    rfl

end Tier

/-- All tiers tell the collector the same of an access that they do not leave out, as long as what
is known of it is true. The direct call and the baseline code cannot be told apart; the optimizing
graph may leave out a class check. The compiled tiers leave out an elidable store altogether. -/
theorem tiers_tell_alike (h : cfg.unlogBits.logRegion ≤ 60) :
    (∀ (a : Access) (r : Recorder), a.isElidable = false → r.IsTruthful a →
      let direct := (Tier.direct.run cfg Recorder.surroundings a).attempt r
      let baseline := (Tier.baseline.run cfg Recorder.surroundings a).attempt r
      let optimizing := (Tier.optimizing.run cfg Recorder.surroundings a).attempt r
      baseline = direct ∧ optimizing.1 = direct.1 ∧ optimizing.2.told = direct.2.told ∧
        optimizing.2.metadata = direct.2.metadata ∧
        (direct.2.events = optimizing.2.events ∨
          ∃ o, direct.2.events = optimizing.2.events ++ [.checkReference o])) ∧
    (∀ s : Store, s.isElidable = true → ∀ t : Tier, t ≠ .direct →
      ∀ {σ : Type} (env : Surroundings σ) (x : σ),
        env.steps x (fun _ e => t.run cfg e (.store s)) = [] ∧
        t.run cfg env (.store s) x = .ok () x) := by
  constructor
  · intro a r ha htrue direct baseline optimizing
    have hbaseline : baseline = direct := by
      simp only [baseline, direct, Tier.baseline_run_eq_direct h ha]
    refine ⟨hbaseline, ?_⟩
    obtain heq | ⟨o, heq⟩ := Tier.attempt_optimizing h ha htrue
    · simp only [direct, optimizing, heq]
      exact ⟨trivial, trivial, trivial, .inl trivial⟩
    · simp only [direct, optimizing, heq]
      refine ⟨rfl, ?_, rfl, .inr ⟨o, rfl⟩⟩
      simp [Recorder.told, Recorder.record, Event.isTold]
  · intro s hs t ht σ env x
    have hrun : ∀ {τ : Type} (e : Surroundings τ), t.run cfg e (.store s) = pure () :=
      fun e => Tier.run_of_isElidable h hs ht
    rw [Surroundings.steps, hrun, hrun]
    exact ⟨rfl, rfl⟩

/-- A base that is known not to be a reference object, at the offset of a referent. The short
circuit leaves out the check that the other tiers make. -/
theorem tiers_tell_alike_short :
    let cfg : Config := ⟨true, ⟨0, 3⟩, false, true, .slotLogging, true, 16⟩
    let a : Access := .load ⟨0x1000, 16, false, 0x1010, 0x2000, .unknown, true, .notReference⟩
    let r : Recorder := ⟨.empty, 1, [0x3000], some ⟨0, 3⟩, []⟩
    let s : Store := ⟨0x1000, 0x1010, 0, true, true, true, false⟩
    let direct := (Tier.direct.run cfg Recorder.surroundings a).attempt r
    let baseline := (Tier.baseline.run cfg Recorder.surroundings a).attempt r
    let optimizing := (Tier.optimizing.run cfg Recorder.surroundings a).attempt r
    (baseline = direct ∧ optimizing.1 = direct.1 ∧ optimizing.2.told = direct.2.told ∧
      optimizing.2.metadata = direct.2.metadata ∧
      (direct.2.events = optimizing.2.events ∨
        ∃ o, direct.2.events = optimizing.2.events ++ [.checkReference o])) ∧
    ∀ {σ : Type} (env : Surroundings σ) (x : σ),
      env.steps x (fun _ e => Tier.baseline.run cfg e (.store s)) = [] ∧
      Tier.baseline.run cfg env (.store s) x = .ok () x :=
  ⟨(tiers_tell_alike (by decide)).1 _ _ rfl (fun _ => by decide),
    (tiers_tell_alike (by decide)).2 _ rfl .baseline nofun⟩

end HeapBridge.Barrier
