import HeapBridge.Barrier.Protocol
import HeapBridge.Proofs.Barrier.Surroundings
import HeapBridge.Proofs.Metadata.Region

/-!
# The protocol in normal form

The checked arithmetic of the protocol succeeds for all widths that a region can have, so a write
barrier is a look at the bit of a region and perhaps a call. The protocol ends wherever its
surroundings let it.
-/
namespace HeapBridge.Barrier.Protocol
open Metadata UnlogBits
variable {σ : Type} {cfg : Config} {env : Surroundings σ}

theorem preWrite_of_fast (h : cfg.unlogBits.logRegion ≤ 60) (hf : cfg.fastPath = true)
    (src : ObjectRef) (slot : Address) (target : ObjectRef) :
    preWrite cfg env src slot target = (do
      let byte ← env.loadMetadata (cfg.unlogBits.home (cfg.unlogBits.region slot))
      if testBit byte (place (cfg.unlogBits.region slot)) then
        env.call (.writeSlow src slot target)) := by
  simp [preWrite, hf, byteAddress_eq_home h, isUnloggedIn_eq_testBit h]

theorem preWrite_of_slow (hf : cfg.fastPath = false) (src : ObjectRef) (slot : Address)
    (target : ObjectRef) :
    preWrite cfg env src slot target = env.call (.writePre src slot target) := by
  simp [preWrite, hf]

/-- What is done about a loaded value while marking runs. -/
def tellLoaded (cfg : Config) (env : Surroundings σ) (value : ObjectRef) (slot : Address) :
    Act σ Unit :=
  match cfg.loadMode with
  | .referenceCall => env.call (.loadReference value)
  | .slotLogging => preWrite cfg env value slot value

theorem tellLoaded_of_call (hm : cfg.loadMode = .referenceCall) (value : ObjectRef)
    (slot : Address) : tellLoaded cfg env value slot = env.call (.loadReference value) := by
  rw [tellLoaded, hm]

theorem tellLoaded_of_logging (hm : cfg.loadMode = .slotLogging) (value : ObjectRef)
    (slot : Address) : tellLoaded cfg env value slot = preWrite cfg env value slot value := by
  rw [tellLoaded, hm]

theorem report_eq (l : Load) :
    report cfg env l = (do
      let flag ← env.loadFlag
      if flag == 0 || l.value == 0 then return
      tellLoaded cfg env l.value l.slot) := rfl

/-- What is known before an array copy decides first, the length decides last. -/
theorem run_arrayCopy (cuts : Shortcuts) (c : ArrayCopy) :
    run cfg cuts env (.arrayCopy c) =
      if c.ofReferences && !c.freshTarget && !cfg.noArrayCopy then
        if c.count == 0 then pure () else env.call (.arrayCopyPre c.src c.dst c.count)
      else pure () := by
  rw [run]
  cases c.ofReferences <;> cases c.freshTarget <;> cases cfg.noArrayCopy <;> simp

theorem preWrite_total (h : cfg.unlogBits.logRegion ≤ 60) (he : env.Faultless) (src : ObjectRef)
    (slot : Address) (target : ObjectRef) : (preWrite cfg env src slot target).Total := by
  cases hf : cfg.fastPath with
  | true =>
    rw [preWrite_of_fast h hf]
    exact (he.loadMetadata _).bind fun _ => .ite (he.call _) (.pure _)
  | false =>
    rw [preWrite_of_slow hf]
    exact he.call _

theorem report_total (h : cfg.unlogBits.logRegion ≤ 60) (he : env.Faultless) (l : Load) :
    (report cfg env l).Total := by
  refine he.loadFlag.bind fun _ => .ite (.pure _) ?_
  cases cfg.loadMode with
  | referenceCall => exact he.call _
  | slotLogging => exact preWrite_total h he _ _ _

/-- The protocol has no fault of its own. -/
theorem run_total (h : cfg.unlogBits.logRegion ≤ 60) (he : env.Faultless) (cuts : Shortcuts)
    (access : Access) : (run cfg cuts env access).Total := by
  cases access with
  | store s => exact .ite (.pure _) (.ite (.pure _) (preWrite_total h he _ _ _))
  | load l =>
    have hr := report_total h he l
    refine .ite (.pure _) (.ite (.ite (.pure _) (.ite (.pure _) ?_)) hr)
    exact (he.isReference _).bind fun _ => .ite (.pure _) hr
  | arrayCopy c => exact .ite (.pure _) (he.call _)
  | clone c =>
    exact (he.copy _ _ _).bind fun _ => .ite (.pure _) ((he.call _).bind fun _ => he.fence)

end HeapBridge.Barrier.Protocol
