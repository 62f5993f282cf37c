import HeapBridge.Alloc.Context
import Mathlib.Tactic.Common

/-!
# Where a request is served

A request is offered to at most two buffers of the working copy, one after the other, and taken from
the first that holds it. `Config.servingPair` is that buffer. It settles what an allocation does:
either the cursor of the buffer moves and nothing else happens, or the collector is asked
(`Context.alloc_eq`).
-/
namespace HeapBridge.Alloc

namespace Bump
variable {b : Bump} {size : Word}

/-- Whether `size` bytes are left. -/
def Holds (b : Bump) (size : Word) : Prop := b.cursor.toNat + size.toNat ≤ b.limit.toNat

instance (b : Bump) (size : Word) : Decidable (b.Holds size) := Nat.decLe _ _

/-- The buffer without its first `size` bytes. -/
def advance (b : Bump) (size : Word) : Bump := { b with cursor := b.cursor + size }

@[simp] theorem limit_advance (b : Bump) (size : Word) : (b.advance size).limit = b.limit := rfl

theorem toNat_cursor_advance (h : b.Holds size) :
    (b.advance size).cursor.toNat = b.cursor.toNat + size.toNat := by
  have hlimit : b.limit.toNat < 2 ^ 64 := b.limit.toNat_lt
  have hend : b.cursor.toNat + size.toNat ≤ b.limit.toNat := h
  change (b.cursor + size).toNat = _
  rw [UInt64.toNat_add, Nat.mod_eq_of_lt (by omega)]

theorem take?_eq (b : Bump) (size : Word) :
    b.take? size = if b.Holds size then some (b.cursor, b.advance size) else none := by
  by_cases h : b.Holds size
  · rw [if_pos h, take?_eq_some_iff]
    refine ⟨rfl, rfl, toNat_cursor_advance h, ?_⟩
    rw [UInt64.le_iff_toNat_le, toNat_cursor_advance h]
    exact h
  · rw [if_neg h, Option.eq_none_iff_forall_ne_some]
    rintro ⟨a, b'⟩ hb
    obtain ⟨-, -, hcursor, hle⟩ := take?_eq_some_iff.mp hb
    apply h
    rw [Holds, ← hcursor]
    exact UInt64.le_iff_toNat_le.mp hle

end Bump

theorem exists_checkIndex_iff {size : Nat} {index : UInt8} {k : PairKey} :
    (∃ x, checkIndex size index k = .ok x) ↔ index.toNat < size := by
  unfold checkIndex
  split <;> simp_all

namespace Selector
variable {s : Selector}

/-- Whether all buffers of a selected allocator are in the record. -/
def IsValid (s : Selector) : Prop := ∀ size, ∃ k, s.pair size = .ok k

/-- The key of a buffer of a selected allocator, if there is one. -/
def key? (s : Selector) (size : PairSize) : Option PairKey := (s.pair size).toOption.join

theorem pair_eq (h : s.IsValid) (size : PairSize) : s.pair size = .ok (s.key? size) := by
  obtain ⟨k, hk⟩ := h size
  rw [key?, hk]
  rfl

/-- Only an index of an allocator with a buffer is ever looked at. -/
theorem isValid_iff : s.IsValid ↔
    match s with
    | .bump i => i.toNat < 6
    | .immix i | .markCompact i => i.toNat < 1
    | _ => True := by
  constructor
  · intro h
    have hsmall := h .small
    cases s <;> simp_all [pair, smallPair, exists_checkIndex_iff]
  · intro h size
    cases s <;> cases size <;> simp_all [pair, smallPair, largePair, exists_checkIndex_iff]

end Selector

namespace Record
variable {r : Record} {k : PairKey} {size : Word}

/-- The record without the first `size` bytes of a buffer. -/
def advance (r : Record) (k : PairKey) (size : Word) : Record :=
  r.setPair k ((r.pair k).advance size)

@[simp] theorem pair_advance (r : Record) (k x : PairKey) (size : Word) :
    (r.advance k size).pair x = if x = k then (r.pair k).advance size else r.pair x := rfl

/-- Taking from a buffer succeeds if the buffer is there and holds the bytes. -/
theorem take?_eq (r : Record) (k : Option PairKey) (size : Word) :
    r.take? k size = (k.toList.find? fun x => (r.pair x).Holds size).map
      fun x => ((r.pair x).cursor, r.advance x size) := by
  cases k with
  | none => rfl
  | some k =>
    change ((r.pair k).take? size).bind _ = _
    rw [Bump.take?_eq]
    by_cases h : (r.pair k).Holds size <;> simp [h, advance]

end Record

namespace Config
variable {cfg : Config} {size : Word} {r : Record} {k : PairKey}

/-- Whether allocation can do its work: the limit of large objects is set, and the selected
allocator exists. -/
structure IsSet (cfg : Config) : Prop where
  limit_ne_zero : cfg.largeObjectLimit ≠ 0
  selector_isValid : cfg.selector.IsValid

/-- The buffers that may serve a request of some size, in the order in which they are tried. -/
def offers (cfg : Config) (size : Word) : List PairKey :=
  (cfg.selector.key? .small).toList ++
    if cfg.largeBumpThreshold < size then (cfg.selector.key? .large).toList else []

/-- The buffer that a request is served from, if it is not left to the collector. -/
def servingPair (cfg : Config) (size : Word) (r : Record) : Option PairKey :=
  if cfg.largeObjectLimit ≤ size ∨ cfg.fastDisabled then none
  else (cfg.offers size).find? fun k => (r.pair k).Holds size

/-- What a request asks the collector for. Large requests have the semantics of large objects. -/
def semanticsFor (cfg : Config) (size : Word) (sem : Semantics) : Semantics :=
  if cfg.largeObjectLimit ≤ size then .largeObject else sem

/-- A buffer that serves a request is one of the two that the selector names. -/
theorem key?_of_servingPair (h : cfg.servingPair size r = some k) :
    cfg.selector.key? .small = some k ∨ cfg.selector.key? .large = some k := by
  unfold servingPair at h
  split at h
  · cases h
  · have hmem := List.mem_of_find?_eq_some h
    rw [offers, List.mem_append, Option.mem_toList] at hmem
    rcases hmem with hsmall | hlarge
    · exact .inl hsmall
    · split at hlarge
      · exact .inr (Option.mem_toList.mp hlarge)
      · cases hlarge

theorem holds_of_servingPair (h : cfg.servingPair size r = some k) : (r.pair k).Holds size := by
  unfold servingPair at h
  split at h
  · cases h
  · simpa using List.find?_some h

end Config

namespace Context
variable {σ : Type} {cfg : Config}

theorem allocInline_eq (h : cfg.selector.IsValid) (size : Word) (r : Record) :
    allocInline cfg size r = .ok (((cfg.offers size).find? fun k => (r.pair k).Holds size).map
      fun k => ((r.pair k).cursor, r.advance k size)) := by
  have hsmall : cfg.selector.smallPair = .ok (cfg.selector.key? .small) :=
    Selector.pair_eq h .small
  have hlarge : cfg.selector.largePair = .ok (cfg.selector.key? .large) :=
    Selector.pair_eq h .large
  unfold allocInline Config.offers
  rw [hsmall, hlarge, List.find?_append, Option.map_or, ← Record.take?_eq]
  dsimp only [Bind.bind, Except.bind]
  cases r.take? (cfg.selector.key? .small) size with
  | some served => rfl
  | none =>
    by_cases hsize : cfg.largeBumpThreshold < size
    · simp only [if_pos hsize, Option.none_or, Record.take?_eq]
      rfl
    · simp only [if_neg hsize, Option.none_or, List.find?_nil, Option.map_none]
      rfl

/-- The way of a request is settled before any collector is asked. -/
theorem alloc_way (cfg : Config) (size : Word) (sem : Semantics) (c : Context) :
    (∃ f, ∀ {σ : Type} (svc : Service σ), alloc svc cfg size sem c = throw f) ∨
      (∃ a r, ∀ {σ : Type} (svc : Service σ),
        alloc svc cfg size sem c = pure (a, { c with record := r })) ∨
      ∃ sem', ∀ {σ : Type} (svc : Service σ),
        alloc svc cfg size sem c = allocSlow svc size sem' c := by
  by_cases hunset : cfg.largeObjectLimit = 0
  · exact .inl ⟨.largeObjectLimitUnset, fun svc => if_pos hunset⟩
  by_cases hlarge : cfg.largeObjectLimit ≤ size
  · exact .inr (.inr ⟨.largeObject, fun svc => (if_neg hunset).trans (if_pos hlarge)⟩)
  by_cases hdisabled : cfg.fastDisabled
  · refine .inr (.inr ⟨sem, fun svc => ?_⟩)
    exact (if_neg hunset).trans ((if_neg hlarge).trans (if_pos hdisabled))
  have hfast : ∀ {σ : Type} (svc : Service σ), alloc svc cfg size sem c = _ := fun svc =>
    (if_neg hunset).trans ((if_neg hlarge).trans (if_neg hdisabled))
  rcases hinline : allocInline cfg size c.record with f | _ | ⟨a, r⟩
  · exact .inl ⟨f, fun svc => by rw [hfast, hinline]; rfl⟩
  · exact .inr (.inr ⟨sem, fun svc => by rw [hfast, hinline]; rfl⟩)
  · exact .inr (.inl ⟨a, r, fun svc => by rw [hfast, hinline]; rfl⟩)

/-- An allocation moves the cursor of the buffer that serves it, or asks the collector. -/
theorem alloc_eq (svc : Service σ) (h : cfg.IsSet) (size : Word) (sem : Semantics) (c : Context) :
    alloc svc cfg size sem c =
      match cfg.servingPair size c.record with
      | some k => pure ((c.record.pair k).cursor, { c with record := c.record.advance k size })
      | none => allocSlow svc size (cfg.semanticsFor size sem) c := by
  unfold alloc Config.servingPair Config.semanticsFor
  rw [if_neg h.limit_ne_zero]
  by_cases hlarge : cfg.largeObjectLimit ≤ size
  · simp [hlarge]
  · by_cases hdisabled : cfg.fastDisabled
    · simp [hlarge, hdisabled]
    · rw [if_neg hlarge, if_neg hdisabled, allocInline_eq h.selector_isValid, Act.lift_ok,
        pure_bind, if_neg (by simp [hlarge, hdisabled]), if_neg hlarge]
      cases (cfg.offers size).find? fun k => (c.record.pair k).Holds size <;> rfl

end Context
end HeapBridge.Alloc
