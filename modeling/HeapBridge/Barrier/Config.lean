import HeapBridge.Barrier.Access
import HeapBridge.Metadata.UnlogBits
import HeapBridge.Settings

/-!
# Barrier configuration

What is fixed about barriers when the mutator side starts, and which accesses need none because of
it.
-/
namespace HeapBridge.Barrier

open Metadata

/-- The parameters of all barriers. -/
structure Config where
  /-- A store looks at the unlog bit itself. Otherwise every store calls the collector. -/
  fastPath : Bool
  unlogBits : UnlogBits
  noArrayCopy : Bool
  loadBarrier : Bool
  loadMode : LoadMode
  /-- Compiled loads may rely on what is known of their base. -/
  shortCircuit : Bool
  /-- Where a reference object keeps its referent. -/
  referentOffset : Int64
deriving DecidableEq, Inhabited

/-- The parameters that follow from the settings, the collector and the virtual machine. -/
def Config.ofSettings (s : Settings) (metadataBase : Address) (referentOffset : Int64) : Config where
  fastPath := s.get .barrierFastPath
  unlogBits := .forSlots metadataBase (s.get .compressedReferences)
  noArrayCopy := s.get .noArrayCopyBarrier
  loadBarrier := s.get .loadBarrier
  loadMode := s.get .loadBarrierMode
  shortCircuit := s.get .unknownLoadShortCircuit
  referentOffset := referentOffset

/-- A load from the heap that is not known to be strong may have to be reported. -/
def Load.needsBarrier (l : Load) (cfg : Config) : Bool :=
  cfg.loadBarrier && l.inHeap && l.strength != .strong

/-- What is known before a load runs rules out that it reads a referent. -/
def Load.cannotReadReferent (l : Load) (cfg : Config) : Bool :=
  (l.offsetIsConstant && l.offset != cfg.referentOffset) || l.facts.excludeReference

/-- What a compiler may leave out on top of the protocol. -/
structure Shortcuts where
  elideNullStores : Bool
  shortCircuitLoads : Bool
deriving DecidableEq, Inhabited

namespace Shortcuts

/-- A direct call knows nothing beforehand. -/
def direct : Shortcuts := ⟨false, false⟩

def baseline : Shortcuts := ⟨true, false⟩

def optimizing (cfg : Config) : Shortcuts := ⟨true, cfg.shortCircuit⟩

end Shortcuts
end HeapBridge.Barrier
