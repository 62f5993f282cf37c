import HeapBridge.Fault

/-!
# The surroundings of a barrier

Everything that a barrier reads or does outside itself, over an arbitrary state. Two barriers that
act alike in all surroundings cannot be told apart.
-/
namespace HeapBridge.Barrier

/-- The world as a barrier sees it. -/
structure Surroundings (σ : Type) where
  /-- Loads one byte of unlog bits. -/
  loadMetadata : Address → Act σ UInt8
  /-- Loads the flag that is set while marking runs beside the application. -/
  loadFlag : Act σ UInt8
  /-- Whether an object is a reference object. Null is none. -/
  isReference : ObjectRef → Act σ Bool
  call : Call → Act σ Unit
  /-- Copies the body of one object over another. -/
  copy : ObjectRef → ObjectRef → Word → Act σ Unit
  fence : Act σ Unit

/-- An observable step of a barrier. -/
inductive Event
  | loadMetadata (a : Address)
  | loadFlag
  | checkReference (o : ObjectRef)
  | call (c : Call)
  | copy (src dst : ObjectRef) (size : Word)
  | fence
deriving DecidableEq, Inhabited

end HeapBridge.Barrier
