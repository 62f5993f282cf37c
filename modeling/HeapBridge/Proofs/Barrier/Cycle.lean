import HeapBridge.Proofs.Barrier.Tier

/-!
# One report for each cycle

Between two times at which its bit is set, a region is reported by the first access that looks at
its bit and by no other, whichever tiers run the accesses. Which accesses look is known beforehand,
as each tier follows the protocol. `spec_of_step` says what one step does to every bit; what a whole
run does follows from it by induction, as bits are all that a step leaves to the next.
-/
namespace HeapBridge.Barrier.Cycle
open Metadata Recorder

/-- A step of a run: the collector unlogs a slot, or an access is executed by some tier. -/
inductive Step
  | unlog (slot : Address)
  | access (tier : Tier) (a : Access)
deriving DecidableEq, Inhabited

namespace Step

/-- What a step does to the recording world. -/
def act (cfg : Config) : Step → Act Recorder Unit
  | .unlog slot => Act.change (markUnlogged cfg.unlogBits slot)
  | .access tier a => tier.run cfg surroundings a

/-- The slot that a step is about. -/
def slot? : Step → Option Address
  | .unlog slot => some slot
  | .access _ a => a.slot?

/-- Whether a step sets the bit of a region. -/
def unlogs (bits : UnlogBits) (region : Word) : Step → Bool
  | .unlog slot => bits.region slot == region
  | .access .. => false

/-- Whether a step looked at the bit of a region: it is an access to a slot there, and it loaded the
byte with the bit. -/
def consults (bits : UnlogBits) (region : Word) (events : List Event) : Step → Bool
  | .unlog _ => false
  | .access _ a => (a.slot?.map bits.region == some region) &&
      events.contains (.loadMetadata (bits.home region))

/-- Whether a step has to look at the bit of a region: it is an access to a slot there, and one that
looks with the shortcuts of its tier. -/
def looks (cfg : Config) (region : Word) (r : Recorder) : Step → Bool
  | .unlog _ => false
  | .access tier a =>
    (a.slot?.map cfg.unlogBits.region == some region) && a.looks cfg (tier.shortcuts cfg) r

theorem looks_congr {cfg : Config} {r r' : Recorder} (hflag : r'.flag = r.flag)
    (hrefs : r'.references = r.references) (region : Word) (step : Step) :
    step.looks cfg region r' = step.looks cfg region r := by
  cases step with
  | unlog slot => rfl
  | access tier a => rw [looks, looks, Access.looks_congr hflag hrefs]

end Step

/-- The steps of a run, each with what was recorded of it. -/
def history (cfg : Config) (steps : List Step) (r : Recorder) : List (Step × Recording) :=
  steps.zip (recordEach (steps.map (Step.act cfg)) r).1

/-- The world after a run. -/
def after (cfg : Config) (steps : List Step) (r : Recorder) : Recorder :=
  (recordEach (steps.map (Step.act cfg)) r).2

@[simp] theorem history_cons (cfg : Config) (step : Step) (steps : List Step) (r : Recorder) :
    history cfg (step :: steps) r =
      (step, (recording (step.act cfg) r).1) :: history cfg steps (recording (step.act cfg) r).2 :=
  rfl

@[simp] theorem after_cons (cfg : Config) (step : Step) (steps : List Step) (r : Recorder) :
    after cfg (step :: steps) r = after cfg steps (recording (step.act cfg) r).2 := rfl

/-! ## One step -/

/-- What a step that was recorded did to the bits, at which of them it looked, and which reports it
made. -/
structure Spec (cfg : Config) (step : Step) (rec : Recording) (r r' : Recorder) : Prop where
  no_fault : rec.fault = none
  logs : r'.logOnWrite = some cfg.unlogBits
  flag : r'.flag = r.flag
  references : r'.references = r.references
  consults_eq : ∀ region,
    step.consults cfg.unlogBits region rec.events = step.looks cfg region r
  reports : ∀ region, rec.events.countP (·.reportsIn cfg.unlogBits region) =
    if r.isUnlogged cfg.unlogBits region && step.consults cfg.unlogBits region rec.events then 1
    else 0
  bit : ∀ region, r'.isUnlogged cfg.unlogBits region =
    (step.unlogs cfg.unlogBits region ||
      r.isUnlogged cfg.unlogBits region && !step.consults cfg.unlogBits region rec.events)

variable {cfg : Config} {r : Recorder}

theorem spec_of_unlog (h : cfg.unlogBits.logRegion ≤ 60) (slot : Address)
    (hlog : r.logOnWrite = some cfg.unlogBits) :
    Spec cfg (.unlog slot) (recording (Step.act cfg (.unlog slot)) r).1 r
      (recording (Step.act cfg (.unlog slot)) r).2 := by
  have hact := Act.change_of_ok (markUnlogged_eq h slot r.cleared)
  rw [Step.act, recording_of_ok hact]
  constructor
  · rfl
  · exact hlog
  · rfl
  · rfl
  · exact fun _ => rfl
  · intro region
    rw [Step.consults, Bool.and_false]
    rfl
  · intro region
    rw [isUnlogged_setByte_of_withBit, isUnlogged_cleared, Step.consults, Bool.not_false,
      Bool.and_true]
    rfl

/-- An access that does not write. -/
theorem spec_of_neutral {tier : Tier} {a : Access} (hlog : r.logOnWrite = some cfg.unlogBits)
    (hlooks : a.looks cfg (tier.shortcuts cfg) r = false)
    {neutral : List Event} (hneutral : ∀ e ∈ neutral, e.isNeutral = true) :
    Spec cfg (.access tier a) ⟨neutral, none⟩ r (r.cleared.add neutral) := by
  have hconsults : ∀ region,
      (Step.access tier a).consults cfg.unlogBits region neutral = false := by
    intro region
    simp [Step.consults, Event.not_mem_of_neutral hneutral]
  constructor
  · rfl
  · exact hlog
  · rfl
  · rfl
  · intro region
    rw [hconsults, Step.looks, hlooks, Bool.and_false]
  · intro region
    rw [Event.countP_reportsIn_of_neutral hneutral, hconsults, Bool.and_false]
    rfl
  · intro region
    rw [hconsults]
    simp [Step.unlogs]

/-- An access that writes, after what it does besides. -/
theorem spec_of_write {tier : Tier} {a : Access} (hlog : r.logOnWrite = some cfg.unlogBits)
    (hlooks : a.looks cfg (tier.shortcuts cfg) r = true)
    {neutral : List Event} (hneutral : ∀ e ∈ neutral, e.isNeutral = true) {src : ObjectRef}
    {slot : Address} {target : ObjectRef} (hslot : a.slot? = some slot) {r' : Recorder}
    (hr' : r' = (r.cleared.add neutral).afterWrite cfg.unlogBits src slot target) :
    Spec cfg (.access tier a) ⟨r'.events, none⟩ r r' := by
  have hevents : r'.events = neutral ++
      .loadMetadata (cfg.unlogBits.home (cfg.unlogBits.region slot)) ::
        if r.isUnlogged cfg.unlogBits (cfg.unlogBits.region slot) then
          [.call (.writeSlow src slot target)] else [] := by
    rw [hr', events_afterWrite, events_cleared_add, isUnlogged_add, isUnlogged_cleared]
  have hconsults : ∀ region, (Step.access tier a).consults cfg.unlogBits region r'.events =
      decide (cfg.unlogBits.region slot = region) := by
    intro region
    rw [hevents, Step.consults, hslot]
    by_cases hr : cfg.unlogBits.region slot = region
    · simp [hr]
    · simp [hr]
  constructor
  · rfl
  · rw [hr', logOnWrite_afterWrite]
    exact hlog
  · rw [hr', flag_afterWrite]
    rfl
  · rw [hr', references_afterWrite]
    rfl
  · intro region
    rw [hconsults, Step.looks, hlooks, hslot, Bool.and_true]
    rfl
  · intro region
    rw [hconsults, hevents, List.countP_append, Event.countP_reportsIn_of_neutral hneutral]
    by_cases hr : cfg.unlogBits.region slot = region
    · subst hr
      cases r.isUnlogged cfg.unlogBits (cfg.unlogBits.region slot) <;> simp [Event.reportsIn]
    · cases r.isUnlogged cfg.unlogBits (cfg.unlogBits.region slot) <;>
        simp [Event.reportsIn, hr]
  · intro region
    rw [hconsults, hr', isUnlogged_afterWrite]
    simp [Step.unlogs]

theorem spec_of_access (h : cfg.unlogBits.logRegion ≤ 60) (hf : cfg.fastPath = true) (tier : Tier)
    (a : Access) (hlog : r.logOnWrite = some cfg.unlogBits) :
    Spec cfg (.access tier a) (recording (Step.act cfg (.access tier a)) r).1 r
      (recording (Step.act cfg (.access tier a)) r).2 := by
  have hlooks : a.looks cfg (tier.shortcuts cfg) r.cleared =
      a.looks cfg (tier.shortcuts cfg) r := Access.looks_congr rfl rfl a
  obtain ⟨neutral, hneutral, ⟨hno, hact⟩ | ⟨hyes, src, slot, target, hslot, hact⟩⟩ :=
    WritesIf.run h hf (tier.shortcuts cfg) a r.cleared hlog
  · rw [← Tier.run_eq h] at hact
    rw [Step.act, recording_of_ok hact]
    exact spec_of_neutral hlog (hlooks.symm.trans hno) hneutral
  · rw [← Tier.run_eq h] at hact
    rw [Step.act, recording_of_ok hact]
    exact spec_of_write hlog (hlooks.symm.trans hyes) hneutral hslot rfl

/-- What one step of a run does. -/
theorem spec_of_step (h : cfg.unlogBits.logRegion ≤ 60) (hf : cfg.fastPath = true) (step : Step)
    (hlog : r.logOnWrite = some cfg.unlogBits) :
    Spec cfg step (recording (step.act cfg) r).1 r (recording (step.act cfg) r).2 := by
  cases step with
  | unlog slot => exact spec_of_unlog h slot hlog
  | access tier a => exact spec_of_access h hf tier a hlog

/-! ## Runs -/

theorem after_append (cfg : Config) (steps steps' : List Step) (r : Recorder) :
    after cfg (steps ++ steps') r = after cfg steps' (after cfg steps r) := by
  induction steps generalizing r with
  | nil => rfl
  | cons step steps ih => rw [List.cons_append, after_cons, after_cons, ih]

theorem logOnWrite_after (h : cfg.unlogBits.logRegion ≤ 60) (hf : cfg.fastPath = true)
    (steps : List Step) (hlog : r.logOnWrite = some cfg.unlogBits) :
    (after cfg steps r).logOnWrite = some cfg.unlogBits := by
  induction steps generalizing r with
  | nil => exact hlog
  | cons step steps ih =>
    rw [after_cons]
    exact ih (spec_of_step h hf step hlog).logs

theorem answers_after (h : cfg.unlogBits.logRegion ≤ 60) (hf : cfg.fastPath = true)
    (steps : List Step) (hlog : r.logOnWrite = some cfg.unlogBits) :
    (after cfg steps r).flag = r.flag ∧ (after cfg steps r).references = r.references := by
  induction steps generalizing r with
  | nil => exact ⟨rfl, rfl⟩
  | cons step steps ih =>
    have hspec := spec_of_step h hf step hlog
    obtain ⟨hflag, hrefs⟩ := ih hspec.logs
    rw [after_cons]
    exact ⟨hflag.trans hspec.flag, hrefs.trans hspec.references⟩

/-- Whether an entry of a history looked at the bit of a region. -/
def consulted (bits : UnlogBits) (region : Word) (entry : Step × Recording) : Bool :=
  entry.1.consults bits region entry.2.events

/-- The number of reports of slots in a region that an entry of a history holds. -/
def reports (bits : UnlogBits) (region : Word) (entry : Step × Recording) : Nat :=
  entry.2.events.countP (·.reportsIn bits region)

/-- The steps of a run that look at the bit of a region are those that have to, by what is known
before the run. -/
theorem map_consulted_history (h : cfg.unlogBits.logRegion ≤ 60) (hf : cfg.fastPath = true)
    (region : Word) (steps : List Step) (hlog : r.logOnWrite = some cfg.unlogBits) :
    (history cfg steps r).map (consulted cfg.unlogBits region) =
      steps.map (Step.looks cfg region r) := by
  induction steps generalizing r with
  | nil => rfl
  | cons step steps ih =>
    have hspec := spec_of_step h hf step hlog
    rw [history_cons, List.map_cons, List.map_cons, ih hspec.logs]
    congr 1
    · exact hspec.consults_eq region
    · exact List.map_congr_left fun s _ => s.looks_congr hspec.flag hspec.references region

/-- What a run without a fault did about one region: it reported a slot there once if the bit was set
and was looked at, and not at all otherwise. The first look made the report, and left the bit
cleared. -/
structure Settled (bits : UnlogBits) (region : Word) (entries : List (Step × Recording))
    (start last : Recorder) : Prop where
  no_fault : ∀ entry ∈ entries, entry.2.fault = none
  reports_eq : (entries.flatMap (·.2.events)).countP (·.reportsIn bits region) =
    if start.isUnlogged bits region && entries.any (consulted bits region) then 1 else 0
  by_first : ∀ earlier entry later, entries = earlier ++ entry :: later →
    reports bits region entry =
      if start.isUnlogged bits region && !earlier.any (consulted bits region) &&
        consulted bits region entry then 1 else 0
  bit_eq : last.isUnlogged bits region =
    (start.isUnlogged bits region && !entries.any (consulted bits region))

/-- A step that does not unlog a region may come before a run that settles it. -/
theorem Settled.cons {region : Word} {step : Step} {rec : Recording}
    {entries : List (Step × Recording)} {start next last : Recorder}
    (hquiet : step.unlogs cfg.unlogBits region = false) (hspec : Spec cfg step rec start next)
    (hrest : Settled cfg.unlogBits region entries next last) :
    Settled cfg.unlogBits region ((step, rec) :: entries) start last := by
  have hbit : next.isUnlogged cfg.unlogBits region =
      (start.isUnlogged cfg.unlogBits region &&
        !consulted cfg.unlogBits region (step, rec)) := by
    rw [hspec.bit, hquiet, Bool.false_or]
    rfl
  have hreports : reports cfg.unlogBits region (step, rec) =
      if start.isUnlogged cfg.unlogBits region && consulted cfg.unlogBits region (step, rec) then 1
      else 0 :=
    hspec.reports region
  constructor
  · intro entry hentry
    rcases List.mem_cons.mp hentry with rfl | hentry
    · exact hspec.no_fault
    · exact hrest.no_fault entry hentry
  · rw [List.flatMap_cons, List.countP_append, hrest.reports_eq, hbit, List.any_cons]
    change reports cfg.unlogBits region (step, rec) + _ = _
    rw [hreports]
    cases start.isUnlogged cfg.unlogBits region <;>
      cases consulted cfg.unlogBits region (step, rec) <;>
      cases entries.any (consulted cfg.unlogBits region) <;> rfl
  · intro earlier entry later heq
    cases earlier with
    | nil =>
      obtain ⟨rfl, -⟩ := List.cons.inj heq
      rw [hreports, List.any_nil, Bool.not_false, Bool.and_true]
    | cons entry' earlier =>
      obtain ⟨rfl, heq'⟩ := List.cons.inj heq
      rw [hrest.by_first earlier entry later heq', hbit, List.any_cons, Bool.not_or,
        Bool.and_assoc _ _ (!_)]
  · rw [hrest.bit_eq, hbit, List.any_cons, Bool.not_or, Bool.and_assoc]

/-- A run settles every region that no step of it unlogs. -/
theorem settled_of_quiet (h : cfg.unlogBits.logRegion ≤ 60) (hf : cfg.fastPath = true)
    {region : Word} {steps : List Step} (hlog : r.logOnWrite = some cfg.unlogBits)
    (hquiet : ∀ step ∈ steps, step.unlogs cfg.unlogBits region = false) :
    Settled cfg.unlogBits region (history cfg steps r) r (after cfg steps r) := by
  induction steps generalizing r with
  | nil =>
    constructor
    · simp [history]
    · simp [history]
    · simp [history]
    · simp [history, after, recordEach]
  | cons step steps ih =>
    have hspec := spec_of_step h hf step hlog
    have hrest := ih hspec.logs fun s hs => hquiet s (List.mem_cons_of_mem _ hs)
    rw [history_cons, after_cons]
    exact hrest.cons (hquiet step List.mem_cons_self) hspec

/-- A step leaves all bits alone but that of the region of its slot. -/
theorem isUnlogged_after_concat (h : cfg.unlogBits.logRegion ≤ 60) (hf : cfg.fastPath = true)
    (steps : List Step) (step : Step) (hlog : r.logOnWrite = some cfg.unlogBits) {region : Word}
    (hslot : step.slot?.map cfg.unlogBits.region ≠ some region) :
    (after cfg (steps ++ [step]) r).isUnlogged cfg.unlogBits region =
      (after cfg steps r).isUnlogged cfg.unlogBits region := by
  have hspec := spec_of_step h hf step (logOnWrite_after h hf steps hlog)
  rw [after_append]
  change (recording (step.act cfg) (after cfg steps r)).2.isUnlogged _ _ = _
  have hunlogs : step.unlogs cfg.unlogBits region = false := by
    cases step with
    | unlog slot => simpa [Step.slot?, Step.unlogs] using hslot
    | access tier a => rfl
  have hconsults : ∀ events, step.consults cfg.unlogBits region events = false := by
    intro events
    cases step with
    | unlog slot => rfl
    | access tier a =>
      rw [Step.consults, Bool.and_eq_false_iff]
      exact .inl (by simpa [Step.slot?] using hslot)
  rw [hspec.bit, hunlogs, hconsults, Bool.not_false, Bool.and_true, Bool.false_or]

/-- As long as no step unlogs a region, whatever happened before, a slot of it is reported at most
once: by the first access that looks at the bit, if the bit was set to begin with. The bit stays set
until then. Nothing that is done about one region touches the bit of another. The accesses that look
are those of slots in the region for which the protocol of their tier asks it. -/
theorem reported_once_per_cycle (hf : cfg.fastPath = true) (h : cfg.unlogBits.logRegion ≤ 60)
    (hlog : r.logOnWrite = some cfg.unlogBits) (before during : List Step) (region : Word)
    (hquiet : ∀ step ∈ during, step.unlogs cfg.unlogBits region = false) :
    Settled cfg.unlogBits region (history cfg during (after cfg before r)) (after cfg before r)
        (after cfg (before ++ during) r) ∧
      (∀ earlier step later, during = earlier ++ step :: later →
        ∀ other, step.slot?.map cfg.unlogBits.region ≠ some other →
          (after cfg (before ++ earlier ++ [step]) r).isUnlogged cfg.unlogBits other =
            (after cfg (before ++ earlier) r).isUnlogged cfg.unlogBits other) ∧
      (history cfg during (after cfg before r)).map (consulted cfg.unlogBits region) =
        during.map (Step.looks cfg region r) := by
  have hlog' := logOnWrite_after h hf before hlog
  refine ⟨?_, ?_, ?_⟩
  · rw [after_append]
    exact settled_of_quiet h hf hlog' hquiet
  · intro earlier step later _ other hslot
    exact isUnlogged_after_concat h hf (before ++ earlier) step hlog hslot
  · obtain ⟨hflag, hrefs⟩ := answers_after h hf before hlog
    rw [map_consulted_history h hf region during hlog']
    exact List.map_congr_left fun s _ => s.looks_congr hflag hrefs region

/-- Two neighbouring slots with their bits in one byte, written by all three tiers. -/
theorem reported_once_per_cycle_neighbours :
    let bits : UnlogBits := ⟨0xfffffffffffffe00, 3⟩
    let cfg : Config := ⟨true, bits, false, true, .slotLogging, true, 16⟩
    let r : Recorder := ⟨.empty, 1, [], some bits, []⟩
    let before : List Step := [.unlog 0x1000, .unlog 0x1008]
    let during : List Step :=
      [.access .baseline (.store ⟨0x10, 0x1008, 0, true, false, false, true⟩),
        .access .direct (.load ⟨0x20, 8, true, 0x1000, 0x30, .weak, true, .unknown⟩),
        .access .optimizing (.store ⟨0x10, 0x1000, 0x40, true, false, false, false⟩)]
    Settled cfg.unlogBits 0x200 (history cfg during (after cfg before r)) (after cfg before r)
        (after cfg (before ++ during) r) ∧
      (∀ earlier step later, during = earlier ++ step :: later →
        ∀ other, step.slot?.map cfg.unlogBits.region ≠ some other →
          (after cfg (before ++ earlier ++ [step]) r).isUnlogged cfg.unlogBits other =
            (after cfg (before ++ earlier) r).isUnlogged cfg.unlogBits other) ∧
      (history cfg during (after cfg before r)).map (consulted cfg.unlogBits 0x200) =
        during.map (Step.looks cfg 0x200 r) := by
  intro bits cfg r before during
  have hwidth : cfg.unlogBits.logRegion ≤ 60 := (by decide : (3 : UInt8) ≤ 60)
  have hlog : r.logOnWrite = some cfg.unlogBits := rfl
  have hquiet : ∀ step ∈ during, step.unlogs cfg.unlogBits 0x200 = false := by
    simp [during, Step.unlogs]
  exact reported_once_per_cycle rfl hwidth hlog before during 0x200 hquiet

end HeapBridge.Barrier.Cycle
