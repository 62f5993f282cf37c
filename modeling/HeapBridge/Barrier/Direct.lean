import HeapBridge.Barrier.Config
import HeapBridge.Barrier.Surroundings

/-!
# Barriers as direct calls

The interpreter, native code and the accessors of the virtual machine call these entries around
each access. They know nothing about an access before it happens.
-/
namespace HeapBridge.Barrier.Direct
variable {σ : Type}

/-- Called before `target` is written into `slot` of `src`. -/
def writePre (cfg : Config) (env : Surroundings σ) (src : ObjectRef) (slot : Address)
    (target : ObjectRef) : Act σ Unit := do
  if cfg.fastPath then
    let log ← Act.lift cfg.unlogBits.logPerByte
    let index ← Act.lift (Word.shiftRight slot log.toUInt64)
    let region ← Act.lift (Word.shiftRight slot cfg.unlogBits.logRegion.toUInt64)
    let byte ← env.loadMetadata (cfg.unlogBits.base + index)
    if (byte.toUInt64 >>> (region &&& 7)) &&& 1 == 1 then env.call (.writeSlow src slot target)
  else env.call (.writePre src slot target)

/-- Called with a value that was loaded from `slot`. Reports it while marking runs. -/
def loadReference (cfg : Config) (env : Surroundings σ) (slot : Address) (value : ObjectRef) :
    Act σ Unit := do
  let flag ← env.loadFlag
  if flag != 0 && value != 0 then
    match cfg.loadMode with
    | .referenceCall => env.call (.loadReference value)
    | .slotLogging => writePre cfg env value slot value

/-- Called after a load that is not known to be strong. -/
def loadReferenceAt (cfg : Config) (env : Surroundings σ) (l : Load) : Act σ Unit := do
  if l.needsBarrier cfg then
    let reads ←
      if l.strength = .unknown then
        if l.offset = cfg.referentOffset then env.isReference l.base else pure false
      else pure true
    if reads then loadReference cfg env l.slot l.value

/-- Called before slots are copied. -/
def arrayCopyPre (cfg : Config) (env : Surroundings σ) (src dst : Address) (count : Word) :
    Act σ Unit := do
  if !(cfg.noArrayCopy || count == 0) then env.call (.arrayCopyPre src dst count)

/-- Copies an object, and reports the target unless it is fresh. -/
def cloneInHeap (env : Surroundings σ) (src dst : ObjectRef) (size : Word) (freshTarget : Bool) :
    Act σ Unit := do
  env.copy src dst size
  if !freshTarget then
    env.call (.clonePre dst)
    env.fence

/-- The barrier of one access. -/
def run (cfg : Config) (env : Surroundings σ) : Access → Act σ Unit
  | .store s => if s.inHeap then writePre cfg env s.src s.slot s.target else pure ()
  | .load l => loadReferenceAt cfg env l
  | .arrayCopy c =>
    if c.ofReferences && !c.freshTarget then arrayCopyPre cfg env c.src c.dst c.count else pure ()
  | .clone c => cloneInHeap env c.src c.dst c.size c.freshTarget

end HeapBridge.Barrier.Direct
