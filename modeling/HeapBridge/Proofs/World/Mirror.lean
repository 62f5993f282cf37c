import HeapBridge.Proofs.Barrier.Tier
import HeapBridge.Proofs.Memory.Copying
import HeapBridge.Proofs.Metadata.RegionSet
import HeapBridge.Proofs.World.Sweeping
import HeapBridge.World.Barriers
import Mathlib.Data.List.Basic

/-!
# The recorded world and the real one

A barrier cannot tell the recording world from the real one, as long as both hold the same bits, the
same flag and the same reference objects. `Mirrors` says so of one computation: whatever it records,
the real world answers alike, makes the copies, and sees exactly the calls that were recorded. The
steps of surroundings mirror each other one by one, and sequencing keeps it, so whole runs do. The
recording world leaves memory alone, so no copy may write over a byte that the run looks at.
-/
namespace HeapBridge
open Barrier Memory

/-! ## What a record says of the real world -/

namespace Barrier

/-- The copies that an access makes. -/
def Access.moves : Access → List Move
  | .clone c => [⟨c.src, c.dst, c.size⟩]
  | .store _ | .load _ | .arrayCopy _ => []

/-- The copy that an event is, if it is one. -/
def Event.move? : Event → Option Move
  | .copy src dst size => some ⟨src, dst, size⟩
  | _ => none

/-- A call about an array copy. -/
def Call.isArrayCopy : Call → Bool
  | .arrayCopyPre .. => true
  | _ => false

/-- The call in an event, if it is one. -/
def Event.call? : Event → Option Call
  | .call c => some c
  | _ => none

end Barrier

namespace World

/-- A call as the collector sees it. -/
def passed (mutator : Option Thread) (c : Call) : Event :=
  match mutator, c with
  | some t, .arrayCopyPre src dst count => .mutatorArrayCopy t src dst count
  | _, c => .barrier c

/-- What a recorded event leaves in the trace of the real world. -/
def echo (mutator : Option Thread) : Barrier.Event → List Event
  | .call c => [passed mutator c]
  | .checkReference o => if o = 0 then [] else [.isReference o]
  | .loadMetadata _ | .loadFlag | .copy .. | .fence => []

/-- The real world after what was recorded has happened there, with the copies that were made. -/
def after (mutator : Option Thread) (events : List Barrier.Event) (moves : List Move) (w : World) :
    World :=
  { w with
    memory := Move.applyAll moves w.memory
    trace := w.trace ++ events.flatMap (echo mutator) }

variable {mutator : Option Thread} {w : World}

theorem after_after (events events' : List Barrier.Event) (moves moves' : List Move) :
    (w.after mutator events moves).after mutator events' moves' =
      w.after mutator (events ++ events') (moves ++ moves') := by
  simp only [after, Move.applyAll_append, List.flatMap_append, List.append_assoc]

/-- What leaves no trace and copies nothing leaves the real world as it is. -/
theorem after_of_silent {events : List Barrier.Event} (h : events.flatMap (echo mutator) = []) :
    w.after mutator events [] = w := by
  rw [after, h, List.append_nil]
  rfl

theorem call?_passed (mutator : Option Thread) (c : Call) :
    (passed mutator c).call? = some c := by
  cases mutator <;> cases c <;> rfl

theorem isMutatorArrayCopy_passed (mutator : Option Thread) (c : Call) :
    (passed mutator c).isMutatorArrayCopy = (mutator.isSome && c.isArrayCopy) := by
  cases mutator <;> cases c <;> rfl

/-- Only calls leave something that the collector has seen. -/
theorem filterMap_echo (mutator : Option Thread) (e : Barrier.Event) :
    (echo mutator e).filterMap Event.call? = e.call?.toList := by
  cases e with
  | call c => simp [echo, call?_passed, Barrier.Event.call?]
  | checkReference o =>
    rw [echo]
    split <;> rfl
  | loadMetadata | loadFlag | copy | fence => rfl

theorem countP_echo (mutator : Option Thread) (e : Barrier.Event) :
    (echo mutator e).countP Event.isMutatorArrayCopy =
      e.call?.toList.countP (mutator.isSome && ·.isArrayCopy) := by
  cases e with
  | call c => simp [echo, isMutatorArrayCopy_passed, Barrier.Event.call?]
  | checkReference o =>
    rw [echo]
    split <;> rfl
  | loadMetadata | loadFlag | copy | fence => rfl

/-- The collector has seen the calls that were recorded, in their order. -/
theorem calls_after (events : List Barrier.Event) (moves : List Move) :
    (w.after mutator events moves).calls = w.calls ++ events.filterMap Barrier.Event.call? := by
  rw [calls, after, List.filterMap_append, List.filterMap_flatMap,
    List.filterMap_eq_flatMap_toList Barrier.Event.call?]
  simp only [filterMap_echo]
  rfl

/-- Array copies are reported together with their thread, if there is one. -/
theorem tallyOf_after (events : List Barrier.Event) (moves : List Move) :
    (w.after mutator events moves).tallyOf Event.isMutatorArrayCopy =
      w.tallyOf Event.isMutatorArrayCopy +
        (events.filterMap Barrier.Event.call?).countP (mutator.isSome && ·.isArrayCopy) := by
  rw [tallyOf, after, List.countP_append, List.countP_flatMap,
    List.filterMap_eq_flatMap_toList Barrier.Event.call?, List.countP_flatMap]
  simp only [Function.comp_def, countP_echo]
  rfl

end World

namespace Barrier.Recorder
variable {r : Recorder} {w : World} {events events' : List Event} {moves moves' : List Move}

/-- A recording world with the flag and the reference objects of a real one. It does not log what is
reported. -/
structure Resembles (r : Recorder) (w : World) : Prop where
  flag : r.flag = if w.marking then 1 else 0
  references : ∀ o, o ∈ r.references ↔ o ∈ w.host.references
  logOnWrite : r.logOnWrite = none

/-- A memory in which a recorded run can take place. -/
structure Fits (r : Recorder) (events : List Event) (moves : List Move) (m : Memory) : Prop where
  /-- The bytes that the run looks at are in memory as they are in the record. -/
  looks : ∀ a, .loadMetadata a ∈ events → m.admits a .byte = true ∧ m.byte a = r.byteAt a
  copies : ∀ v ∈ moves, v.Fits m
  /-- No copy writes over a byte that the run looks at. -/
  spares : ∀ v ∈ moves, ∀ a, .loadMetadata a ∈ events → v.Spares a

theorem Resembles.after (h : r.Resembles w) (mutator : Option Thread) :
    (r.add events).Resembles (w.after mutator events moves) :=
  ⟨h.flag, h.references, h.logOnWrite⟩

namespace Fits
variable {m : Memory}

theorem left (h : r.Fits (events ++ events') (moves ++ moves') m) : r.Fits events moves m where
  looks a ha := h.looks a (List.mem_append_left events' ha)
  copies v hv := h.copies v (List.mem_append_left moves' hv)
  spares v hv a ha :=
    h.spares v (List.mem_append_left moves' hv) a (List.mem_append_left events' ha)

/-- The copies of the first part leave the bytes alone that the rest looks at. -/
theorem right (h : r.Fits (events ++ events') (moves ++ moves') m) :
    (r.add events).Fits events' moves' (Move.applyAll moves m) where
  looks a ha := by
    have ha' := List.mem_append_right events ha
    obtain ⟨hadmits, hbyte⟩ := h.looks a ha'
    refine ⟨(Move.admits_applyAll ..).trans hadmits, ?_⟩
    exact (Move.byte_applyAll_of_spares
      (fun v hv => h.spares v (List.mem_append_left moves' hv) a ha') m).trans hbyte
  copies v hv := by
    obtain ⟨hsrc, hdst⟩ := h.copies v (List.mem_append_right moves hv)
    exact ⟨(Move.covers_applyAll ..).trans hsrc, (Move.covers_applyAll ..).trans hdst⟩
  spares v hv a ha :=
    h.spares v (List.mem_append_right moves hv) a (List.mem_append_right events ha)

end Fits

theorem add_add (events events' : List Event) (r : Recorder) :
    (r.add events).add events' = r.add (events ++ events') := by
  simp only [add, List.append_assoc]

theorem add_nil (r : Recorder) : r.add [] = r := by
  rw [add, List.append_nil]

end Barrier.Recorder

namespace Barrier

/-- Runs accesses one after the other, each in a tier of its own. -/
def runAll {σ : Type} (cfg : Config) (env : Surroundings σ) (runs : List (Tier × Access)) :
    Act σ Unit :=
  runs.forM fun run => run.1.run cfg env run.2

/-- The copies that accesses make, in their order. -/
def movesOf (runs : List (Tier × Access)) : List Move := runs.flatMap (·.2.moves)

end Barrier

/-! ## Steps -/

section
variable {α β : Type} {mutator : Option Thread} {moves moves' : List Move}
  {model : Act Recorder α} {live : Act World α}

/-- A computation in the recording world and one in the real world do the same. The first ends and
records what it does. Wherever that can take place, the second ends with the same answer and the
real world has seen the same. -/
def Mirrors (mutator : Option Thread) (moves : List Move) (model : Act Recorder α)
    (live : Act World α) : Prop :=
  ∀ r : Recorder, r.logOnWrite = none → ∃ a events, model r = .ok a (r.add events) ∧
    events.filterMap Event.move? = moves ∧
    ∀ w : World, r.Resembles w → r.Fits events moves w.memory →
      live w = .ok a (w.after mutator events moves)

namespace Mirrors

theorem pure (a : α) : Mirrors mutator [] (Pure.pure a) (Pure.pure a) := by
  intro r _
  refine ⟨a, [], ?_, rfl, fun w _ _ => ?_⟩
  · rw [r.add_nil]
    rfl
  · rw [World.after_of_silent rfl]
    rfl

theorem bind {k : α → Act Recorder β} {k' : α → Act World β} (h : Mirrors mutator moves model live)
    (hk : ∀ a, Mirrors mutator moves' (k a) (k' a)) :
    Mirrors mutator (moves ++ moves') (model >>= k) (live >>= k') := by
  intro r hr
  obtain ⟨a, events, hmodel, hmoves, hlive⟩ := h r hr
  obtain ⟨b, events', hmodel', hmoves', hlive'⟩ := hk a (r.add events) hr
  refine ⟨b, events ++ events', ?_, ?_, fun w hw hfits => ?_⟩
  · rw [Act.bind_of_ok hmodel, hmodel', Recorder.add_add]
  · rw [List.filterMap_append, hmoves, hmoves']
  · rw [Act.bind_of_ok (hlive w hw hfits.left), hlive' _ (hw.after mutator) hfits.right,
      World.after_after]

theorem ite {c : Prop} [Decidable c] {model' : Act Recorder α} {live' : Act World α}
    (h : Mirrors mutator moves model live) (h' : Mirrors mutator moves model' live') :
    Mirrors mutator moves (if c then model else model') (if c then live else live') := by
  split
  · exact h
  · exact h'

/-- A step that records one event. -/
theorem single {e : Event}
    (h : ∀ r : Recorder, r.logOnWrite = none → ∃ a, model r = .ok a (r.record e) ∧
      ∀ w : World, r.Resembles w → r.Fits [e] e.move?.toList w.memory →
        live w = .ok a (w.after mutator [e] e.move?.toList)) :
    Mirrors mutator e.move?.toList model live := by
  intro r hr
  obtain ⟨a, hmodel, hlive⟩ := h r hr
  refine ⟨a, [e], hmodel, ?_, hlive⟩
  cases h : e.move? <;> simp [h]

theorem loadMetadata (a : Address) : Mirrors mutator [] (Recorder.surroundings.loadMetadata a)
    ((World.surroundings mutator).loadMetadata a) := by
  refine single (e := .loadMetadata a) fun r _ => ⟨r.byteAt a, rfl, fun w _ hfits => ?_⟩
  obtain ⟨hadmits, hbyte⟩ := hfits.looks a List.mem_cons_self
  have hload : w.memory.load a .byte = .ok (r.byteAt a).toUInt64 := by
    rw [Memory.load_byte hadmits, hbyte]
  change ((World.readMemory (·.load a .byte)) >>= _) w = .ok _ (w.after mutator [_] [])
  rw [Act.bind_of_ok (World.readMemory_of_ok hload), World.after_of_silent rfl]
  exact congrArg (EStateM.Result.ok · w) (UInt8.toUInt8_toUInt64 _)

theorem loadFlag : Mirrors mutator [] Recorder.surroundings.loadFlag
    (World.surroundings mutator).loadFlag := by
  refine single (e := .loadFlag) fun r _ => ⟨r.flag, rfl, fun w hw _ => ?_⟩
  change _ = EStateM.Result.ok _ (w.after mutator [_] [])
  rw [World.after_of_silent rfl, hw.flag]
  rfl

theorem isReference (o : ObjectRef) : Mirrors mutator [] (Recorder.surroundings.isReference o)
    ((World.surroundings mutator).isReference o) := by
  refine single (e := .checkReference o) fun r _ =>
    ⟨o != 0 && r.references.contains o, rfl, fun w hw _ => ?_⟩
  change World.isReferenceObject o w = .ok _ (w.after mutator [_] [])
  by_cases ho : o = 0
  · subst ho
    rw [World.after_of_silent rfl]
    rfl
  · have hknown : (o != 0 && r.references.contains o) = w.host.references.contains o := by
      rw [bne_iff_ne.mpr ho, Bool.true_and, Bool.eq_iff_iff, List.contains_iff_mem,
        List.contains_iff_mem]
      exact hw.references o
    have hecho : World.echo mutator (.checkReference o) = [.isReference o] := if_neg ho
    rw [World.isReferenceObject, if_neg ho, hknown, World.after, List.flatMap_singleton, hecho]
    rfl

theorem call (c : Call) : Mirrors mutator [] (Recorder.surroundings.call c)
    ((World.surroundings mutator).call c) := by
  refine single (e := .call c) fun r hr => ⟨(), Recorder.call_eq ?_, fun w _ _ => ?_⟩
  · have hnobody : (r.record (.call c)).logOnWrite = none := hr
    cases c <;> simp only [Recorder.afterCall, hnobody]
  · have hpass : (World.surroundings mutator).call c = World.emit (World.passed mutator c) := by
      cases mutator <;> cases c <;> rfl
    rw [hpass]
    rfl

theorem copy (src dst : ObjectRef) (size : Word) :
    Mirrors mutator [⟨src, dst, size⟩] (Recorder.surroundings.copy src dst size)
      ((World.surroundings mutator).copy src dst size) := by
  refine single (e := .copy src dst size) fun r _ => ⟨(), rfl, fun w _ hfits => ?_⟩
  have hcopy : w.memory.copy src dst size = .ok (Move.apply ⟨src, dst, size⟩ w.memory) :=
    Memory.copy_of_fits (hfits.copies _ List.mem_cons_self)
  change World.updateMemory (·.copy src dst size) w = _
  rw [World.updateMemory_of_ok hcopy, World.after]
  simp [World.echo, Event.move?, Move.applyAll]

theorem fence : Mirrors mutator [] Recorder.surroundings.fence
    (World.surroundings mutator).fence := by
  refine single (e := .fence) fun r _ => ⟨(), rfl, fun w _ _ => ?_⟩
  change _ = EStateM.Result.ok _ (w.after mutator [_] [])
  rw [World.after_of_silent rfl]
  rfl

/-! ## Runs -/

section
variable {cfg : Config} (h : cfg.unlogBits.logRegion ≤ 60)
include h

theorem preWrite (src : ObjectRef) (slot : Address) (target : ObjectRef) :
    Mirrors mutator [] (Protocol.preWrite cfg Recorder.surroundings src slot target)
      (Protocol.preWrite cfg (World.surroundings mutator) src slot target) := by
  cases hf : cfg.fastPath with
  | true =>
    rw [Protocol.preWrite_of_fast h hf, Protocol.preWrite_of_fast h hf]
    exact (loadMetadata _).bind fun _ => ite (call _) (pure ())
  | false =>
    rw [Protocol.preWrite_of_slow hf, Protocol.preWrite_of_slow hf]
    exact call _

theorem report (l : Load) : Mirrors mutator [] (Protocol.report cfg Recorder.surroundings l)
    (Protocol.report cfg (World.surroundings mutator) l) := by
  refine loadFlag.bind fun _ => ite (pure ()) ?_
  cases cfg.loadMode with
  | referenceCall => exact call _
  | slotLogging => exact preWrite h _ _ _

theorem protocol (cuts : Shortcuts) (a : Access) :
    Mirrors mutator a.moves (Protocol.run cfg cuts Recorder.surroundings a)
      (Protocol.run cfg cuts (World.surroundings mutator) a) := by
  cases a with
  | store s => exact ite (pure ()) (ite (pure ()) (preWrite h _ _ _))
  | load l =>
    refine ite (pure ()) (ite (ite (pure ()) (ite (pure ()) ?_)) (report h l))
    exact (isReference _).bind fun _ => ite (pure ()) (report h l)
  | arrayCopy c => exact ite (pure ()) (call _)
  | clone c =>
    refine (copy _ _ _).bind fun _ => ite (pure ()) ?_
    exact (call _).bind fun _ => fence

theorem tier (t : Tier) (a : Access) :
    Mirrors mutator a.moves (t.run cfg Recorder.surroundings a)
      (t.run cfg (World.surroundings mutator) a) := by
  rw [Tier.run_eq h, Tier.run_eq h]
  exact protocol h (t.shortcuts cfg) a

/-- Accesses that mirror each other one by one do so one after the other. -/
theorem runAll (runs : List (Tier × Access)) :
    Mirrors mutator (movesOf runs) (Barrier.runAll cfg Recorder.surroundings runs)
      (Barrier.runAll cfg (World.surroundings mutator) runs) := by
  induction runs with
  | nil => exact pure ()
  | cons run runs ih => exact (tier h run.1 run.2).bind fun _ => ih

end

end Mirrors
end

/-- What a run in the real world has to do with what was recorded of it. -/
structure World.Echoes (mutator : Option Thread) (moves : List Move) (recorded : Recorder)
    (w w' : World) : Prop where
  /-- The collector has seen the recorded calls, in their order. -/
  calls : w'.calls = w.calls ++ recorded.calls
  /-- It has been told of the thread at each array copy, if there is one to tell of. -/
  arrayCopies : w'.tallyOf Event.isMutatorArrayCopy = w.tallyOf Event.isMutatorArrayCopy +
    if mutator.isSome then recorded.calls.countP Call.isArrayCopy else 0
  /-- The recorded copies are those that the accesses make. -/
  copies : recorded.events.filterMap Barrier.Event.move? = moves
  /-- Nothing else was written, and each copy was made as if through a buffer. -/
  memory : w'.memory = Move.applyAll moves w.memory
  trace : w'.trace = w.trace ++ recorded.events.flatMap (echo mutator)
  rest : w' = { w with memory := w'.memory, trace := w'.trace }
  resembles : recorded.Resembles w'

theorem World.echoes_after {mutator : Option Thread} {moves : List Move} {w : World}
    (recorded : Recorder) (hcopies : recorded.events.filterMap Barrier.Event.move? = moves)
    (hresembles : recorded.Resembles w) :
    World.Echoes mutator moves recorded w (w.after mutator recorded.events moves) where
  calls := World.calls_after recorded.events moves
  arrayCopies := by
    rw [World.tallyOf_after]
    cases mutator with
    | none => simp
    | some _ => rfl
  copies := hcopies
  memory := rfl
  trace := rfl
  rest := rfl
  resembles := ⟨hresembles.flag, hresembles.references, hresembles.logOnWrite⟩

/-- Accesses go in the real world as they go in the recording world, which holds the same bytes of
unlog bits, the same flag and the same reference objects. Both runs end. -/
theorem World.run_echoes_recorded {cfg : Config} (h : cfg.unlogBits.logRegion ≤ 60)
    (mutator : Option Thread) (runs : List (Tier × Access)) {r : Recorder} {w : World}
    (hr : r.Resembles w)
    (hfits : r.Fits (Recorder.recording (runAll cfg Recorder.surroundings runs) r).1.events
      (movesOf runs) w.memory) :
    let recorded := Recorder.recording (runAll cfg Recorder.surroundings runs) r
    recorded.1.fault = none ∧ ∃ w', runAll cfg (World.surroundings mutator) runs w = .ok () w' ∧
      World.Echoes mutator (movesOf runs) recorded.2 w w' := by
  have hmirrors : Mirrors mutator (movesOf runs) _ _ := Mirrors.runAll h runs
  obtain ⟨⟨⟩, events, hmodel, hcopies, hlive⟩ := hmirrors r.cleared hr.logOnWrite
  have hresembles : r.cleared.Resembles w := ⟨hr.flag, hr.references, hr.logOnWrite⟩
  rw [Recorder.recording_of_ok hmodel] at hfits ⊢
  refine ⟨rfl, _, hlive w hresembles ⟨hfits.looks, hfits.copies, hfits.spares⟩, ?_⟩
  exact World.echoes_after (r.cleared.add events) hcopies
    ⟨hr.flag, hr.references, hr.logOnWrite⟩

/-- A store that is reported, a clone over part of its own source, an array copy, and the load of a
referent. The store and the load look at the same bit, which the clone between them spares. -/
theorem World.run_echoes_recorded_mixed :
    let cfg : Config := ⟨true, ⟨0xfc00000, 3⟩, false, true, .slotLogging, true, 16⟩
    let runs : List (Tier × Access) :=
      [(.direct, .store ⟨0x10000800, 0x10001000, 0x10002000, true, false, false, false⟩),
        (.baseline, .clone ⟨0x10002000, 0x10002004, 8, false⟩),
        (.optimizing, .arrayCopy ⟨0x10003000, 0x10004000, 2, true, false⟩),
        (.optimizing, .load
          ⟨0x10002000, 16, false, 0x10001000, 0x10002000, .unknown, true, .maybeReference⟩)]
    let r : Recorder := ⟨Assoc.empty.insert 0x10000040 1, 1, [0x10002000], none, []⟩
    let w : World := { World.initial with
      memory := World.arena.withBytes 0x10000040 [1]
      marking := true
      host := { World.initial.host with references := [0x10002000] } }
    let recorded := Recorder.recording (runAll cfg Recorder.surroundings runs) r
    recorded.2.calls = [.writeSlow 0x10000800 0x10001000 0x10002000, .clonePre 0x10002004,
      .arrayCopyPre 0x10003000 0x10004000 2, .writeSlow 0x10002000 0x10001000 0x10002000] ∧
    recorded.1.fault = none ∧
    ∃ w', runAll cfg (World.surroundings (some ⟨1⟩)) runs w = .ok () w' ∧
      World.Echoes (some ⟨1⟩) (movesOf runs) recorded.2 w w' := by
  intro cfg runs r w recorded
  have hevents : recorded.1.events =
      [.loadMetadata 0x10000040, .call (.writeSlow 0x10000800 0x10001000 0x10002000),
        .copy 0x10002000 0x10002004 8, .call (.clonePre 0x10002004), .fence,
        .call (.arrayCopyPre 0x10003000 0x10004000 2), .checkReference 0x10002000, .loadFlag,
        .loadMetadata 0x10000040, .call (.writeSlow 0x10002000 0x10001000 0x10002000)] := by
    decide
  have hresembles : r.Resembles w := ⟨rfl, fun _ => Iff.rfl, rfl⟩
  have hlooks : ∀ a, .loadMetadata a ∈ recorded.1.events → a = 0x10000040 := by
    rw [hevents]
    simp
  have hmoves : movesOf runs = [⟨0x10002000, 0x10002004, 8⟩] := rfl
  have hfits : r.Fits recorded.1.events (movesOf runs) w.memory := by
    rw [hmoves]
    constructor
    · intro a ha
      rw [hlooks a ha]
      exact ⟨by decide, by decide⟩
    · intro v hv
      rw [List.mem_singleton.mp hv]
      exact ⟨by decide, by decide⟩
    · intro v hv a ha
      rw [List.mem_singleton.mp hv, hlooks a ha]
      exact (by decide : (8 : Word) ≤ 0x10000040 - 0x10002004)
  exact ⟨by decide, World.run_echoes_recorded (by decide) (some ⟨1⟩) runs hresembles hfits⟩

end HeapBridge
