import HeapBridge.Barrier.Recorder
import HeapBridge.Proofs.Barrier.Protocol

/-!
# Barriers in the recording world

The recording world answers every step from its own fields, so a barrier that runs in it is a
function of worlds. With the fast path and with slots logged as they are reported, an access adds
events that concern no bit and then, if it is one that `looks`, looks once at the bit of its own
slot. Only that look can report the slot, and only the report clears the bit.
-/
namespace HeapBridge.Barrier
open Metadata UnlogBits

/-! ## Events -/

namespace Event

/-- A call, a copy or a fence: what reaches the collector or another object. -/
def isTold : Event → Bool
  | .call _ | .copy .. | .fence => true
  | .loadMetadata _ | .loadFlag | .checkReference _ => false

/-- The report of a slot in a region whose bit was found set. -/
def reportsIn (bits : UnlogBits) (region : Word) : Event → Bool
  | .call (.writeSlow _ slot _) => bits.region slot == region
  | _ => false

/-- Neither a look at a bit nor the report of one. -/
def isNeutral : Event → Bool
  | .loadMetadata _ | .call (.writeSlow ..) => false
  | _ => true

theorem countP_reportsIn_of_neutral {events : List Event} (h : ∀ e ∈ events, e.isNeutral = true)
    (bits : UnlogBits) (region : Word) : events.countP (·.reportsIn bits region) = 0 := by
  rw [List.countP_eq_zero]
  intro e he hr
  have hn := h e he
  match e with
  | .call (.writeSlow ..) => cases hn
  | .call (.writePre ..) | .call (.loadReference _) | .call (.arrayCopyPre ..)
  | .call (.clonePre _) | .loadMetadata _ | .loadFlag | .checkReference _ | .copy .. | .fence =>
    cases hr

theorem not_mem_of_neutral {events : List Event} (h : ∀ e ∈ events, e.isNeutral = true)
    (a : Address) : .loadMetadata a ∉ events := fun he => Bool.false_ne_true (h _ he)

end Event

/-- The slot that an access may write about. -/
def Access.slot? : Access → Option Address
  | .store s => some s.slot
  | .load l => some l.slot
  | .arrayCopy _ | .clone _ => none

/-- What a load of unknown strength has to be to count as one of a weak reference: it reads the
referent of a reference object, and its compiler could not rule that out. -/
def Load.readsReferent (cfg : Config) (cuts : Shortcuts) (r : Recorder) (l : Load) : Bool :=
  !(cuts.shortCircuitLoads && l.cannotReadReferent cfg) && l.offset == cfg.referentOffset &&
    (l.base != 0 && r.references.contains l.base)

/-- Whether a load that may read a weak reference logs its slot: it produced a value, marking runs,
and loads log their slots. -/
def Load.logsSlot (cfg : Config) (r : Recorder) (l : Load) : Bool :=
  r.flag != 0 && l.value != 0 && cfg.loadMode == .slotLogging

/-- Whether an access looks at the bit of its slot, with the shortcuts that its compiler may take. A
store into the heap does unless it is left out, and a load does if it may read a weak reference and
logs its slot. -/
def Access.looks (cfg : Config) (cuts : Shortcuts) (r : Recorder) : Access → Bool
  | .store s => s.inHeap && !(cuts.elideNullStores && s.isElidable)
  | .load l =>
    l.needsBarrier cfg && (l.strength != .unknown || l.readsReferent cfg cuts r) && l.logsSlot cfg r
  | .arrayCopy _ | .clone _ => false

/-- What an access looks at depends on no more of the world than the flag and the references. -/
theorem Access.looks_congr {cfg : Config} {cuts : Shortcuts} {r r' : Recorder}
    (hflag : r'.flag = r.flag) (hrefs : r'.references = r.references) (a : Access) :
    a.looks cfg cuts r' = a.looks cfg cuts r := by
  cases a with
  | load l => simp only [looks, Load.readsReferent, Load.logsSlot, hflag, hrefs]
  | _ => rfl

namespace Recorder

/-- The events that reach the collector or another object. -/
def told (r : Recorder) : List Event := r.events.filter Event.isTold

/-- What is known of the base of a load is true. -/
def IsTruthful (r : Recorder) : Access → Prop
  | .load l => l.facts.excludeReference = true → l.base ∉ r.references
  | _ => True

/-! ## Unlog bits -/

/-- Whether the bit of a region is set. -/
def isUnlogged (bits : UnlogBits) (region : Word) (r : Recorder) : Bool :=
  testBit (r.byteAt (bits.home region)) (place region)

/-- A world with another byte of metadata. -/
def setByte (a : Address) (byte : UInt8) (r : Recorder) : Recorder :=
  { r with metadata := r.metadata.insert a byte }

variable {bits : UnlogBits} {r : Recorder}

@[simp] theorem byteAt_setByte (a b : Address) (byte : UInt8) (r : Recorder) :
    (r.setByte a byte).byteAt b = if b = a then byte else r.byteAt b := by
  simp only [byteAt, setByte, Assoc.getD, Assoc.get?_insert]
  split <;> rfl

theorem isUnlogged_setByte_of_withBit (region other : Word) :
    (r.setByte (bits.home region) (withBit (r.byteAt (bits.home region)) (place region))).isUnlogged
      bits other = (decide (region = other) || r.isUnlogged bits other) := by
  rw [isUnlogged, isUnlogged, byteAt_setByte]
  exact testBit_home_of_withBit r.byteAt region other

theorem isUnlogged_setByte_of_withoutBit (region other : Word) :
    (r.setByte (bits.home region)
      (withoutBit (r.byteAt (bits.home region)) (place region))).isUnlogged bits other =
        (r.isUnlogged bits other && decide (region ≠ other)) := by
  rw [isUnlogged, isUnlogged, byteAt_setByte]
  exact testBit_home_of_withoutBit r.byteAt region other

theorem markUnlogged_eq (h : bits.logRegion ≤ 60) (slot : Address) (r : Recorder) :
    r.markUnlogged bits slot = .ok (r.setByte (bits.home (bits.region slot))
      (withBit (r.byteAt (bits.home (bits.region slot))) (place (bits.region slot)))) := by
  rw [markUnlogged, byteAddress_eq_home h, bitIndex_eq_place h]
  rfl

/-- A bit that is set stands in a byte that was set once, so clearing finds it. -/
theorem markLogged_eq (h : bits.logRegion ≤ 60) {slot : Address}
    (hset : r.isUnlogged bits (bits.region slot) = true) :
    r.markLogged bits slot = .ok (r.setByte (bits.home (bits.region slot))
      (withoutBit (r.byteAt (bits.home (bits.region slot))) (place (bits.region slot)))) := by
  rw [markLogged, byteAddress_eq_home h]
  cases hget : r.metadata.get? (bits.home (bits.region slot)) with
  | none =>
    have hzero : r.byteAt (bits.home (bits.region slot)) = 0 := by
      simp [byteAt, Assoc.getD, hget]
    rw [isUnlogged, hzero, testBit_eq (toNat_place_lt _)] at hset
    simp at hset
  | some byte =>
    have hbyte : r.byteAt (bits.home (bits.region slot)) = byte := by
      simp [byteAt, Assoc.getD, hget]
    rw [hbyte]
    simp only [bind, Except.bind, hget, bitIndex_eq_place h]
    rfl

theorem afterCall_writeSlow {src : ObjectRef} {slot : Address} {target : ObjectRef}
    (h : r.logOnWrite = some bits) :
    afterCall (.writeSlow src slot target) r = r.markLogged bits slot := by
  simp only [afterCall, h]

theorem call_eq {c : Call} {r' : Recorder} (h : afterCall c (r.record (.call c)) = .ok r') :
    surroundings.call c r = .ok () r' := by
  have hrun : surroundings.call c r =
      (Act.lift (afterCall c (r.record (.call c))) >>= set) (r.record (.call c)) := rfl
  rw [hrun, h]
  rfl

/-! ## What an access may write -/

/-- A world with nothing recorded. -/
def cleared (r : Recorder) : Recorder := { r with events := [] }

/-- A world with more events. -/
def add (events : List Event) (r : Recorder) : Recorder := { r with events := r.events ++ events }

@[simp] theorem isUnlogged_cleared (region : Word) :
    r.cleared.isUnlogged bits region = r.isUnlogged bits region := rfl

@[simp] theorem isUnlogged_add (events : List Event) (region : Word) :
    (r.add events).isUnlogged bits region = r.isUnlogged bits region := rfl

@[simp] theorem events_cleared_add (events : List Event) :
    (r.cleared.add events).events = events := rfl

/-- The world after a write that looked at the bit of its slot, and reported the slot if the bit was
set. -/
def afterWrite (bits : UnlogBits) (src : ObjectRef) (slot : Address) (target : ObjectRef)
    (r : Recorder) : Recorder :=
  let region := bits.region slot
  let home := bits.home region
  if r.isUnlogged bits region then
    (r.setByte home (withoutBit (r.byteAt home) (place region))).add
      [.loadMetadata home, .call (.writeSlow src slot target)]
  else r.add [.loadMetadata home]

theorem recording_of_ok {act : Act Recorder Unit} {r' : Recorder}
    (h : act r.cleared = .ok () r') : recording act r = (⟨r'.events, none⟩, r') := by
  have hattempt : act.attempt r.cleared = (.ok (), r') := by
    rw [Act.attempt, h]
  rw [cleared] at hattempt
  rw [recording, hattempt]

section
variable (src : ObjectRef) (slot : Address) (target : ObjectRef)

theorem events_afterWrite :
    (r.afterWrite bits src slot target).events =
      r.events ++ .loadMetadata (bits.home (bits.region slot)) ::
        if r.isUnlogged bits (bits.region slot) then [.call (.writeSlow src slot target)] else [] := by
  simp only [afterWrite]
  split <;> simp [add, setByte]

theorem logOnWrite_afterWrite : (r.afterWrite bits src slot target).logOnWrite = r.logOnWrite := by
  simp only [afterWrite]
  split <;> rfl

theorem flag_afterWrite : (r.afterWrite bits src slot target).flag = r.flag := by
  simp only [afterWrite]
  split <;> rfl

theorem references_afterWrite :
    (r.afterWrite bits src slot target).references = r.references := by
  simp only [afterWrite]
  split <;> rfl

/-- A write leaves the bit of its own slot cleared, and all other bits as they were. -/
theorem isUnlogged_afterWrite (region : Word) :
    (r.afterWrite bits src slot target).isUnlogged bits region =
      (r.isUnlogged bits region && decide (bits.region slot ≠ region)) := by
  simp only [afterWrite]
  split
  · exact isUnlogged_setByte_of_withoutBit (bits.region slot) region
  · by_cases hr : bits.region slot = region
    · subst hr
      simp_all [add, isUnlogged, byteAt]
    · rw [decide_eq_true hr, Bool.and_true]
      rfl

end

/-- Where slots are logged as they are reported, a computation ends without a fault. It adds neutral
events, and ends with one write of the slot if it `looks`, and with none if it does not. -/
def WritesIf (bits : UnlogBits) (slot? : Option Address) (looks : Recorder → Bool)
    (act : Act Recorder Unit) : Prop :=
  ∀ r : Recorder, r.logOnWrite = some bits →
    ∃ neutral : List Event, (∀ e ∈ neutral, e.isNeutral = true) ∧
      (looks r = false ∧ act r = .ok () (r.add neutral) ∨
        looks r = true ∧ ∃ src slot target, slot? = some slot ∧
          act r = .ok () ((r.add neutral).afterWrite bits src slot target))

namespace WritesIf
variable {slot? : Option Address} {looks looks' : Recorder → Bool} {act act' : Act Recorder Unit}

theorem congr (h : WritesIf bits slot? looks act) (hlooks : ∀ r, looks r = looks' r) :
    WritesIf bits slot? looks' act := by
  rwa [← funext hlooks]

theorem nothing : WritesIf bits slot? (fun _ => false) (pure ()) := by
  intro r _
  refine ⟨[], by simp, .inl ⟨rfl, ?_⟩⟩
  simp [add]
  rfl

theorem ite {c : Prop} [Decidable c] (h : WritesIf bits slot? looks act)
    (h' : WritesIf bits slot? looks' act') :
    WritesIf bits slot? (fun r => if c then looks r else looks' r) (if c then act else act') := by
  by_cases hc : c
  · simpa only [if_pos hc] using h
  · simpa only [if_neg hc] using h'

/-- A test of what is known may keep a computation from running. -/
theorem skipIf (c : Bool) (h : WritesIf bits slot? looks act) :
    WritesIf bits slot? (fun r => !c && looks r) (if c then pure () else act) := by
  cases c with
  | false => simpa using h
  | true => simpa using nothing

/-- A step that only adds a neutral event may come first. -/
theorem after {α : Type} {ask : Act Recorder α} {answer : Recorder → α}
    {looks : α → Recorder → Bool} {k : α → Act Recorder Unit} {e : Event}
    (he : e.isNeutral = true) (hask : ∀ r, ask r = .ok (answer r) (r.record e))
    (hlooks : ∀ a r, looks a (r.record e) = looks a r)
    (hk : ∀ a, WritesIf bits slot? (looks a) (k a)) :
    WritesIf bits slot? (fun r => looks (answer r) r) (ask >>= k) := by
  intro r hr
  obtain ⟨neutral, hneutral, hact⟩ := hk (answer r) (r.record e) hr
  have hadd : (r.record e).add neutral = r.add (e :: neutral) := by
    simp [add, record]
  refine ⟨e :: neutral, ?_, ?_⟩
  · intro e' he'
    rcases List.mem_cons.mp he' with rfl | he'
    · exact he
    · exact hneutral e' he'
  · simp only [Act.bind_of_ok (hask r), ← hadd, ← hlooks (answer r) r]
    exact hact

/-- A step that only adds a neutral event may come alone. -/
theorem single {act : Act Recorder Unit} {e : Event} (he : e.isNeutral = true)
    (h : ∀ r, r.logOnWrite = some bits → act r = .ok () (r.record e)) :
    WritesIf bits slot? (fun _ => false) act := by
  intro r hr
  exact ⟨[e], by simpa using he, .inl ⟨rfl, h r hr⟩⟩

theorem call {c : Call} (hc : (Event.call c).isNeutral = true) :
    WritesIf bits slot? (fun _ => false) (surroundings.call c) := by
  refine single hc ?_
  intro r _
  cases c with
  | writeSlow => cases hc
  | _ => rfl

theorem preWrite {cfg : Config} (h : cfg.unlogBits.logRegion ≤ 60) (hf : cfg.fastPath = true)
    (src : ObjectRef) (slot : Address) (target : ObjectRef) :
    WritesIf cfg.unlogBits (some slot) (fun _ => true)
      (Protocol.preWrite cfg surroundings src slot target) := by
  intro r hr
  refine ⟨[], by simp, .inr ⟨rfl, src, slot, target, rfl, ?_⟩⟩
  have hnil : r.add [] = r := by simp [add]
  have hlook : Protocol.preWrite cfg surroundings src slot target r =
      (if r.isUnlogged cfg.unlogBits (cfg.unlogBits.region slot) then
        surroundings.call (.writeSlow src slot target) else pure ())
        (r.record (.loadMetadata (cfg.unlogBits.home (cfg.unlogBits.region slot)))) := by
    rw [Protocol.preWrite_of_fast h hf]
    rfl
  rw [hnil, hlook, afterWrite]
  cases hset : r.isUnlogged cfg.unlogBits (cfg.unlogBits.region slot) with
  | false => rfl
  | true =>
    refine call_eq ((afterCall_writeSlow ?_).trans ((markLogged_eq h ?_).trans ?_))
    · exact hr
    · exact hset
    · simp [setByte, add, record, byteAt]

theorem report {cfg : Config} (h : cfg.unlogBits.logRegion ≤ 60) (hf : cfg.fastPath = true)
    (l : Load) :
    WritesIf cfg.unlogBits (some l.slot) (fun r => l.logsSlot cfg r)
      (Protocol.report cfg surroundings l) := by
  refine (after (e := .loadFlag) rfl (fun r => rfl) (fun _ _ => rfl) fun flag => skipIf _
    (?_ : WritesIf _ _ (fun _ => cfg.loadMode == .slotLogging) _)).congr fun r => ?_
  · cases cfg.loadMode with
    | referenceCall => exact call rfl
    | slotLogging => exact preWrite h hf _ _ _
  · rw [Bool.not_or]
    rfl

/-- An access writes about its own slot only, and just when it looks at the bit. -/
theorem run {cfg : Config} (h : cfg.unlogBits.logRegion ≤ 60) (hf : cfg.fastPath = true)
    (cuts : Shortcuts) (a : Access) :
    WritesIf cfg.unlogBits a.slot? (fun r => a.looks cfg cuts r)
      (Protocol.run cfg cuts surroundings a) := by
  cases a with
  | store s =>
    refine (((preWrite h hf _ _ _).skipIf _).skipIf _).congr fun r => ?_
    rw [Bool.not_not, Bool.and_true]
    rfl
  | load l =>
    have hcheck : WritesIf cfg.unlogBits (some l.slot)
        (fun r => (l.base != 0 && r.references.contains l.base) && l.logsSlot cfg r)
        (do
          if !(← surroundings.isReference l.base) then return
          Protocol.report cfg surroundings l) := by
      refine (after (e := .checkReference l.base) rfl (fun r => rfl) (fun _ _ => rfl)
        fun isRef => (report h hf l).skipIf (!isRef)).congr fun r => ?_
      rw [Bool.not_not]
      rfl
    refine ((ite ((ite nothing hcheck).skipIf _) (report h hf l)).skipIf _).congr fun r => ?_
    rw [Access.looks, Load.readsReferent, Bool.not_not, Bool.and_assoc (l.needsBarrier cfg)]
    congr 1
    by_cases hu : l.strength = .unknown
    · by_cases ho : l.offset = cfg.referentOffset <;> simp [hu, ho, Bool.and_assoc]
    · simp [hu]
  | arrayCopy c => exact ((call rfl).skipIf _).congr fun _ => Bool.and_false _
  | clone c =>
    have hreport : WritesIf cfg.unlogBits none (fun _ => false) (do
        surroundings.call (.clonePre c.dst)
        surroundings.fence) :=
      after (e := .call (.clonePre c.dst)) rfl (fun r => rfl) (fun _ _ => rfl) fun _ =>
        single (e := .fence) rfl fun _ _ => rfl
    refine (after (e := .copy c.src c.dst c.size) rfl (fun r => rfl) (fun _ _ => rfl) fun _ =>
      hreport.skipIf c.freshTarget).congr fun _ => Bool.and_false _

end WritesIf

end Recorder
end HeapBridge.Barrier
