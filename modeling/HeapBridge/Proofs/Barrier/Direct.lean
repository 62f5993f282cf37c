import HeapBridge.Barrier.Direct
import HeapBridge.Proofs.Barrier.Facts
import HeapBridge.Proofs.Barrier.Protocol

/-!
# Direct calls follow the protocol

A direct call computes the place of a bit in another order than the protocol, and asks its questions
before it acts on the answers. It takes the same steps nonetheless.
-/
namespace HeapBridge.Barrier.Direct
open Metadata UnlogBits
variable {σ : Type} {cfg : Config} {env : Surroundings σ}

theorem writePre_eq (h : cfg.unlogBits.logRegion ≤ 60) (src : ObjectRef) (slot : Address)
    (target : ObjectRef) :
    writePre cfg env src slot target = Protocol.preWrite cfg env src slot target := by
  cases hf : cfg.fastPath with
  | true =>
    rw [Protocol.preWrite_of_fast h hf, writePre, if_pos hf]
    simp only [logPerByte_of_le h, shiftRight_logPerByte h, shiftRight_logRegion h, Act.lift_ok,
      pure_bind, word_bit_eq, bit_beq_one, home]
  | false => rw [Protocol.preWrite_of_slow hf, writePre, hf, if_neg Bool.false_ne_true]

theorem loadReference_eq (h : cfg.unlogBits.logRegion ≤ 60) (l : Load) :
    loadReference cfg env l.slot l.value = Protocol.report cfg env l := by
  simp only [loadReference, Protocol.report, writePre_eq h]
  congr 1
  funext flag
  have hneither : (flag != 0 && l.value != 0) = !(flag == 0 || l.value == 0) :=
    (Bool.not_or _ _).symm
  rw [hneither]
  cases flag == 0 || l.value == 0 <;> rfl

theorem loadReferenceAt_eq (h : cfg.unlogBits.logRegion ≤ 60) (l : Load) :
    loadReferenceAt cfg env l = Protocol.run cfg .direct env (.load l) := by
  simp only [loadReferenceAt, Protocol.run, Shortcuts.direct, Bool.false_and, loadReference_eq h]
  cases l.needsBarrier cfg with
  | false => rfl
  | true =>
    by_cases hu : l.strength = .unknown
    · by_cases ho : l.offset = cfg.referentOffset
      · have hflip : ∀ b : Bool, (if b then Protocol.report cfg env l else pure ()) =
            if !b then pure () else Protocol.report cfg env l := by
          intro b
          cases b <;> rfl
        simp only [hu, ho, if_true, ne_eq, not_true_eq_false, if_false, hflip]
        rfl
      · simp [hu, ho]
    · simp [hu]

theorem run_eq (h : cfg.unlogBits.logRegion ≤ 60) (access : Access) :
    run cfg env access = Protocol.run cfg .direct env access := by
  cases access with
  | store s =>
    simp only [run, Protocol.run, Shortcuts.direct, Bool.false_and, writePre_eq h]
    cases s.inHeap <;> rfl
  | load l => exact loadReferenceAt_eq h l
  | arrayCopy c =>
    rw [run, Protocol.run_arrayCopy, arrayCopyPre]
    cases c.ofReferences && !c.freshTarget with
    | false => rfl
    | true => cases cfg.noArrayCopy <;> cases c.count == 0 <;> rfl
  | clone c =>
    simp only [run, cloneInHeap, Protocol.run]
    cases c.freshTarget <;> rfl

/-- A direct call follows the protocol for every access, and so do direct calls one after the other.
-/
theorem run_refines_protocol (h : cfg.unlogBits.logRegion ≤ 60) :
    (∀ access, Refines (fun _ env => run cfg env access)
      (fun _ env => Protocol.run cfg .direct env access)) ∧
    ∀ accesses : List Access, Refines (fun _ env => accesses.forM (run cfg env))
      (fun _ env => accesses.forM (Protocol.run cfg .direct env)) := by
  constructor
  · intro access
    exact .of_eq (fun _ => run_eq h access) fun _ he => Protocol.run_total h he .direct access
  · intro accesses
    refine .of_eq (fun env => ?_) fun env he => ?_
    · have heach : run cfg env = Protocol.run cfg .direct env := funext (run_eq h)
      rw [heach]
    · exact .forM fun access _ => Protocol.run_total h he .direct access

/-- A store through the referent field of a reference object, and a reflective load of it. The loaded
value is logged by its slot, in metadata with a bias that wraps. -/
theorem run_refines_protocol_logged :
    let cfg : Config := ⟨true, ⟨0xfffffffffffffff0, 3⟩, false, true, .slotLogging, true, 16⟩
    let store : Access := .store ⟨0x1000, 0x1010, 0x2000, true, false, true, false⟩
    let load : Access := .load ⟨0x1000, 16, false, 0x1010, 0x2000, .unknown, true, .notReference⟩
    cfg.unlogBits.logRegion ≤ 60 ∧
      Refines (fun _ env => run cfg env load) (fun _ env => Protocol.run cfg .direct env load) ∧
      Refines (fun _ env => [store, load].forM (run cfg env))
        (fun _ env => [store, load].forM (Protocol.run cfg .direct env)) :=
  ⟨by decide, (run_refines_protocol (by decide)).1 _, (run_refines_protocol (by decide)).2 _⟩

end HeapBridge.Barrier.Direct
