import HeapBridge.Barrier.Config
import HeapBridge.Barrier.Surroundings

/-!
# The barrier protocol

What every barrier has to do, access by access. A write looks at the unlog bit of its slot and calls
the collector if the slot has not been logged in this cycle. A load that may read a weak reference
reports what it loaded while marking runs. Array copies and clones report their target.
-/
namespace HeapBridge.Barrier.Protocol
variable {σ : Type}

/-- The rule for a slot that is about to change. -/
def preWrite (cfg : Config) (env : Surroundings σ) (src : ObjectRef) (slot : Address)
    (target : ObjectRef) : Act σ Unit := do
  if !cfg.fastPath then env.call (.writePre src slot target)
  else
    let byte ← env.loadMetadata (← Act.lift (cfg.unlogBits.byteAddress slot))
    if ← Act.lift (cfg.unlogBits.isUnloggedIn byte slot) then
      env.call (.writeSlow src slot target)

/-- The rule for a value that a load may have to report. -/
def report (cfg : Config) (env : Surroundings σ) (l : Load) : Act σ Unit := do
  let flag ← env.loadFlag
  if flag == 0 || l.value == 0 then return
  match cfg.loadMode with
  | .referenceCall => env.call (.loadReference l.value)
  | .slotLogging => preWrite cfg env l.value l.slot l.value

/-- The protocol for one access, with the shortcuts that its compiler may take. -/
def run (cfg : Config) (cuts : Shortcuts) (env : Surroundings σ) : Access → Act σ Unit
  | .store s => do
    if !s.inHeap then return
    if cuts.elideNullStores && s.isElidable then return
    preWrite cfg env s.src s.slot s.target
  | .load l => do
    if !l.needsBarrier cfg then return
    if l.strength = .unknown then
      if cuts.shortCircuitLoads && l.cannotReadReferent cfg then return
      if l.offset ≠ cfg.referentOffset then return
      if !(← env.isReference l.base) then return
    report cfg env l
  | .arrayCopy c => do
    if cfg.noArrayCopy || !c.ofReferences || c.freshTarget || c.count == 0 then return
    env.call (.arrayCopyPre c.src c.dst c.count)
  | .clone c => do
    env.copy c.src c.dst c.size
    if c.freshTarget then return
    env.call (.clonePre c.dst)
    env.fence

end HeapBridge.Barrier.Protocol
