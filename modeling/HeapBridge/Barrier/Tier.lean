import HeapBridge.Barrier.Direct
import HeapBridge.Barrier.Graph
import HeapBridge.Barrier.Machine
import HeapBridge.Barrier.Protocol

/-!
# Tiers

The three ways in which an access reaches its barrier: by a direct call, through the code of the
baseline compiler, and through the graph of the optimizing compiler. Beside each of them stands the
protocol, which says what it has to do.
-/
namespace HeapBridge.Barrier

/-- A way of executing accesses. -/
inductive Tier
  | direct
  | baseline
  | optimizing
deriving DecidableEq, Inhabited

namespace Tier

def all : List Tier := [direct, baseline, optimizing]

def name : Tier → String
  | direct => "runtime"
  | baseline => "baseline"
  | optimizing => "optimizing"

/-- What a tier may leave out. -/
def shortcuts (cfg : Config) : Tier → Shortcuts
  | direct => .direct
  | baseline => .baseline
  | optimizing => .optimizing cfg

/-- Executes an access in a tier. The compiled tiers compile it first. -/
def run {σ : Type} (cfg : Config) (env : Surroundings σ) (access : Access) : Tier → Act σ Unit
  | direct => Direct.run cfg env access
  | baseline => do
    let code ← Act.lift (Machine.compile cfg access)
    code.run env access
  | optimizing => do
    let graph ← Act.lift (Graph.ofAccess cfg access)
    graph.run env access

end Tier

/-- Something that executes accesses: a tier, or the protocol with the shortcuts of a tier. -/
inductive Executor
  | tier (t : Tier)
  | protocol (t : Tier)
deriving DecidableEq, Inhabited

namespace Executor

def all : List Executor := Tier.all.map tier ++ Tier.all.map protocol

def name : Executor → String
  | tier t => t.name
  | protocol t => "protocol:" ++ t.name

/-- Executes an access. -/
def run {σ : Type} (cfg : Config) (env : Surroundings σ) (access : Access) :
    Executor → Act σ Unit
  | tier t => t.run cfg env access
  | protocol t => Protocol.run cfg (t.shortcuts cfg) env access

end Executor
end HeapBridge.Barrier
