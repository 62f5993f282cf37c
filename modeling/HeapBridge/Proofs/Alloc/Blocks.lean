import HeapBridge.Proofs.Alloc.Contact
import HeapBridge.World.Allocation
import Mathlib.Data.Nat.Bitwise

/-!
# The blocks of a run

Requests that the collector has no part in get blocks. The blocks from one buffer lie one behind the
other from where its cursor stood when the run began, so no two of them overlap and none leaves the
buffer; and nothing but the cursors of the selected buffers moves. `served` says what one request
does. The accounts of a run follow from it by induction on the requests.
-/
namespace HeapBridge.Alloc
variable {σ : Type}

/-! ## Blocks -/

/-- Bytes that were handed out. -/
structure Block where
  start : Address
  size : Word
deriving DecidableEq

namespace Block

/-- The first place behind a block. It need not be an address. -/
def stop (x : Block) : Nat := x.start.toNat + x.size.toNat

/-- Whether a place is in a block. -/
def Covers (x : Block) (place : Nat) : Prop := x.start.toNat ≤ place ∧ place < x.stop

/-- Whether a block lies in what is left of a buffer. -/
def Within (x : Block) (b : Bump) : Prop := b.cursor.toNat ≤ x.start.toNat ∧ x.stop ≤ b.limit.toNat

end Block

/-- Whether a place is in what is left of a buffer. -/
def Bump.Covers (b : Bump) (place : Nat) : Prop := b.cursor.toNat ≤ place ∧ place < b.limit.toNat

/-- No place is in both. -/
def Apart (p q : Nat → Prop) : Prop := ∀ place, p place → ¬ q place

theorem Block.Within.covers {x : Block} {b : Bump} (h : x.Within b) {place : Nat}
    (hplace : x.Covers place) : b.Covers place :=
  ⟨Nat.le_trans h.1 hplace.1, Nat.lt_of_lt_of_le hplace.2 h.2⟩

/-- Blocks that lie one behind the other, from one place to another. -/
inductive Tiles : Nat → List Block → Nat → Prop
  | nil (n : Nat) : Tiles n [] n
  | cons {xs : List Block} {last : Nat} (x : Block) (h : Tiles x.stop xs last) :
      Tiles x.start.toNat (x :: xs) last

namespace Tiles
variable {first last : Nat} {xs : List Block}

theorem last_eq (h : Tiles first xs last) : last = first + (xs.map (·.size.toNat)).sum := by
  induction h with
  | nil => simp
  | cons x _ ih =>
    rw [ih, List.map_cons, List.sum_cons, Block.stop]
    omega

theorem bounds (h : Tiles first xs last) : ∀ x ∈ xs, first ≤ x.start.toNat ∧ x.stop ≤ last := by
  induction h with
  | nil => simp
  | cons x h ih =>
    have hlast := h.last_eq
    intro y hy
    rcases List.mem_cons.mp hy with rfl | hy
    · exact ⟨Nat.le_refl _, by omega⟩
    · have hstart := (ih y hy).1
      unfold Block.stop at hstart
      exact ⟨by omega, (ih y hy).2⟩

theorem pairwise_apart (h : Tiles first xs last) :
    xs.Pairwise fun x y => Apart x.Covers y.Covers := by
  induction h with
  | nil => exact .nil
  | cons x h ih =>
    refine List.pairwise_cons.mpr ⟨fun y hy => ?_, ih⟩
    have hstart : x.stop ≤ y.start.toNat := (h.bounds y hy).1
    intro place hx hy
    exact Nat.lt_irrefl place (Nat.lt_of_lt_of_le hx.2 (Nat.le_trans hstart hy.1))

end Tiles

/-! ## One buffer -/

/-- What was taken from a buffer in between. -/
structure Drawn (b : Bump) (blocks : List Block) (b' : Bump) : Prop where
  tiles : Tiles b.cursor.toNat blocks b'.cursor.toNat
  limit_eq : b'.limit = b.limit
  cursor_le : blocks ≠ [] → b'.cursor.toNat ≤ b.limit.toNat

namespace Drawn
variable {b b' : Bump} {blocks : List Block} {size : Word}

theorem nil (b : Bump) : Drawn b [] b := ⟨.nil _, rfl, fun h => absurd rfl h⟩

theorem cons (hholds : b.Holds size) (h : Drawn (b.advance size) blocks b') :
    Drawn b (⟨b.cursor, size⟩ :: blocks) b' := by
  have hcursor := Bump.toNat_cursor_advance hholds
  have htiles := h.tiles
  rw [hcursor] at htiles
  refine ⟨.cons ⟨b.cursor, size⟩ htiles, h.limit_eq, fun _ => ?_⟩
  -- with no later block the cursor ends behind this one, which the buffer held
  by_cases hlast : blocks = []
  · subst hlast
    rw [htiles.last_eq]
    simpa [Bump.Holds] using hholds
  · exact h.cursor_le hlast

theorem within (h : Drawn b blocks b') : ∀ x ∈ blocks, x.Within b := by
  intro x hx
  have hbounds := h.tiles.bounds x hx
  exact ⟨hbounds.1, Nat.le_trans hbounds.2 (h.cursor_le (List.ne_nil_of_mem hx))⟩

theorem eq_of_nil (h : Drawn b [] b') : b' = b := by
  obtain ⟨cursor, limit⟩ := b
  obtain ⟨cursor', limit'⟩ := b'
  have hlast : cursor'.toNat = cursor.toNat := by simpa using h.tiles.last_eq
  have hlimit : limit' = limit := h.limit_eq
  rw [UInt64.toNat_inj.mp hlast, hlimit]

end Drawn

/-! ## Requests -/

structure Request where
  size : Word
  sem : Semantics
deriving DecidableEq

/-- Serves a request from a context in place. -/
def Request.act (svc : Service σ) (cfg : Config) (req : Request) : Act (Context × σ) Address :=
  Context.inPlace (Context.alloc svc cfg req.size req.sem)

/-- A request that a buffer holds moves the cursor of that buffer. -/
theorem observe_act_of_some {svc : Service σ} {cfg : Config} (hset : cfg.IsSet) {req : Request}
    {c : Context} (s : σ) {k : PairKey} (h : cfg.servingPair req.size c.record = some k) :
    (observe (req.act svc.observed cfg) c s).1 =
      ⟨c, .ok (c.record.pair k).cursor, [],
        { c with record := c.record.advance k req.size }⟩ := by
  unfold observe Request.act
  rw [Context.attempt_inPlace, Context.alloc_eq _ hset, h]
  rfl

/-- A step that the collector had no part in. -/
def Step.isInline {α : Type} (step : Step α) : Bool := step.contacts.isEmpty

/-- The block that a request got without the collector. -/
def blockOf (p : Request × Step Address) : Option Block :=
  if p.2.isInline then p.2.answer.toOption.map fun a => ⟨a, p.1.size⟩ else none

/-- The same, if the block came from the buffer under `k`. -/
def blockFrom (cfg : Config) (k : PairKey) (p : Request × Step Address) : Option Block :=
  if cfg.servingPair p.1.size p.2.before.record = some k then blockOf p else none

/-- The blocks of a run that came from one buffer. -/
def blocksFrom (cfg : Config) (k : PairKey) (steps : List (Request × Step Address)) : List Block :=
  steps.filterMap (blockFrom cfg k)

/-- Buffers that the selector does not name serve nothing. -/
theorem blocksFrom_eq_nil {cfg : Config} {k : PairKey} (hsmall : cfg.selector.key? .small ≠ some k)
    (hlarge : cfg.selector.key? .large ≠ some k) (steps : List (Request × Step Address)) :
    blocksFrom cfg k steps = [] := by
  apply List.filterMap_eq_nil_iff.mpr
  intro p _
  rw [blockFrom, if_neg]
  intro hpair
  rcases Config.key?_of_servingPair hpair with h | h
  · exact hsmall h
  · exact hlarge h

/-- What a request does to a context. -/
inductive Served (cfg : Config) (req : Request) (c : Context) : Step Address → Prop
  | inline (k : PairKey) (h : cfg.servingPair req.size c.record = some k) :
      Served cfg req c ⟨c, .ok (c.record.pair k).cursor, [],
        { c with record := c.record.advance k req.size }⟩
  | asked (answer : Except Fault Address) (contacts : List Contact) (hne : contacts ≠ [])
      (h : cfg.servingPair req.size c.record = none) : Served cfg req c ⟨c, answer, contacts, c⟩

theorem served {svc : Service σ} {cfg : Config} (hset : cfg.IsSet) (hleaves : svc.LeavesRecord)
    (req : Request) (c : Context) (s : σ) :
    Served cfg req c (observe (req.act svc.observed cfg) c s).1 := by
  rcases hpair : cfg.servingPair req.size c.record with _ | k
  · obtain ⟨outcome, contacts, ⟨a, rfl, hend⟩, hstep⟩ :=
      observe_inPlace _ c (Context.watched_alloc_of_none svc hset req.sem hpair) s
    unfold Request.act
    rw [hstep]
    rcases hend with ⟨f, rfl⟩ | ⟨r, rfl, hr⟩
    · exact .asked _ _ (List.cons_ne_nil _ _) hpair
    · rw [hr hleaves]
      exact .asked _ _ (List.cons_ne_nil _ _) hpair
  · rw [observe_act_of_some hset s hpair]
    exact .inline k hpair

namespace Served
variable {cfg : Config} {req : Request} {c : Context} {step : Step Address}

theorem thread_eq (h : Served cfg req c step) : step.after.record.thread = c.record.thread := by
  cases h <;> rfl

theorem lease_eq (h : Served cfg req c step) : step.after.lease = c.lease := by
  cases h <;> rfl

/-- A request draws a block from the cursor of a buffer, or leaves the buffer as it is. -/
theorem draws (h : Served cfg req c step) (k : PairKey) :
    (blockFrom cfg k (req, step) = some ⟨(c.record.pair k).cursor, req.size⟩ ∧
        (c.record.pair k).Holds req.size ∧
        step.after.record.pair k = (c.record.pair k).advance req.size) ∨
      (blockFrom cfg k (req, step) = none ∧ step.after.record.pair k = c.record.pair k) := by
  cases h with
  | inline l hpair =>
    by_cases hkey : l = k
    · subst hkey
      refine .inl ⟨?_, Config.holds_of_servingPair hpair, ?_⟩
      · rw [blockFrom, if_pos hpair]
        rfl
      · rw [Record.pair_advance, if_pos rfl]
    · refine .inr ⟨?_, ?_⟩
      · rw [blockFrom, if_neg]
        simpa [hpair] using hkey
      · rw [Record.pair_advance, if_neg (Ne.symm hkey)]
  | asked answer contacts hne hpair =>
    refine .inr ⟨?_, rfl⟩
    rw [blockFrom, if_neg]
    simp [hpair]

/-- A request that is served inline has a block in a buffer that the selector names. -/
theorem exists_block (h : Served cfg req c step) (hinline : step.isInline) :
    ∃ k x, (cfg.selector.key? .small = some k ∨ cfg.selector.key? .large = some k) ∧
      blockOf (req, step) = some x ∧ blockFrom cfg k (req, step) = some x := by
  cases h with
  | inline k hpair =>
    refine ⟨k, ⟨(c.record.pair k).cursor, req.size⟩, Config.key?_of_servingPair hpair, rfl, ?_⟩
    rw [blockFrom, if_pos hpair]
    rfl
  | asked answer contacts hne hpair => exact absurd (List.isEmpty_iff.mp hinline) hne

theorem after_eq (h : Served cfg req c step) (hasked : ¬ step.isInline) :
    step.after = step.before := by
  cases h with
  | inline k hpair => exact absurd rfl hasked
  | asked answer contacts hne hpair => rfl

end Served

/-! ## Runs of requests -/

section Runs
variable {svc : Service σ} {cfg : Config}

/-- What a run of requests takes from one buffer. -/
theorem drawn_history (hset : cfg.IsSet) (hleaves : svc.LeavesRecord) (k : PairKey)
    (reqs : List Request) (c : Context) (s : σ) :
    Drawn (c.record.pair k) (blocksFrom cfg k (history (Request.act svc.observed cfg) reqs c s))
      ((contextAfter (Request.act svc.observed cfg) reqs c s).record.pair k) := by
  induction reqs generalizing c s with
  | nil => exact .nil _
  | cons req reqs ih =>
    have hrest := ih (observe (req.act svc.observed cfg) c s).1.after
      (observe (req.act svc.observed cfg) c s).2
    rw [history_cons, contextAfter_cons, blocksFrom]
    -- the rest of the run draws from what the first request left of the buffer
    rcases (served hset hleaves req c s).draws k with ⟨hblock, hholds, hafter⟩ | ⟨hblock, hafter⟩
    · rw [List.filterMap_cons_some hblock]
      rw [hafter] at hrest
      exact hrest.cons hholds
    · rw [List.filterMap_cons_none hblock]
      rw [hafter] at hrest
      exact hrest

theorem same_owner_history (hset : cfg.IsSet) (hleaves : svc.LeavesRecord) (reqs : List Request)
    (c : Context) (s : σ) :
    (contextAfter (Request.act svc.observed cfg) reqs c s).record.thread = c.record.thread ∧
      (contextAfter (Request.act svc.observed cfg) reqs c s).lease = c.lease := by
  induction reqs generalizing c s with
  | nil => exact ⟨rfl, rfl⟩
  | cons req reqs ih =>
    have hserved := served hset hleaves req c s
    obtain ⟨hthread, hlease⟩ := ih _ _
    rw [contextAfter_cons]
    exact ⟨hthread.trans hserved.thread_eq, hlease.trans hserved.lease_eq⟩

/-- What one run of requests comes to. -/
structure Accounts (cfg : Config) (c : Context) (steps : List (Request × Step Address))
    (c' : Context) : Prop where
  /-- A request that is served inline gets a block in what a selected buffer held at first. -/
  inline : ∀ p ∈ steps, p.2.isInline → ∃ k x,
    (cfg.selector.key? .small = some k ∨ cfg.selector.key? .large = some k) ∧
      blockOf p = some x ∧ x ∈ blocksFrom cfg k steps ∧ x.Within (c.record.pair k)
  /-- Any other request changes nothing. -/
  asked : ∀ p ∈ steps, ¬ p.2.isInline → p.2.after = p.2.before
  tiles : ∀ k, Tiles (c.record.pair k).cursor.toNat (blocksFrom cfg k steps)
    (c'.record.pair k).cursor.toNat
  pairwise_apart : ∀ k, (blocksFrom cfg k steps).Pairwise fun x y => Apart x.Covers y.Covers
  /-- Blocks from two buffers do not overlap if the buffers did not at first. -/
  apart : ∀ k l, Apart (c.record.pair k).Covers (c.record.pair l).Covers →
    ∀ x ∈ blocksFrom cfg k steps, ∀ y ∈ blocksFrom cfg l steps, Apart x.Covers y.Covers
  cursor_eq : ∀ k, (c'.record.pair k).cursor.toNat =
    (c.record.pair k).cursor.toNat + ((blocksFrom cfg k steps).map (·.size.toNat)).sum
  cursor_le : ∀ k, blocksFrom cfg k steps ≠ [] →
    (c'.record.pair k).cursor ≤ (c.record.pair k).limit
  limit_eq : ∀ k, (c'.record.pair k).limit = (c.record.pair k).limit
  /-- No buffer moves but the two that are selected. -/
  others : ∀ k, cfg.selector.key? .small ≠ some k → cfg.selector.key? .large ≠ some k →
    c'.record.pair k = c.record.pair k
  thread_eq : c'.record.thread = c.record.thread
  lease_eq : c'.lease = c.lease

/-- Requests that are served inline get blocks of the selected buffers, one behind the other, and
nothing but the cursors of these buffers moves. -/
theorem accounts_of_requests (hset : cfg.IsSet) (hleaves : svc.LeavesRecord) (reqs : List Request)
    (c : Context) (s : σ) :
    Accounts cfg c (history (Request.act svc.observed cfg) reqs c s)
      (contextAfter (Request.act svc.observed cfg) reqs c s) := by
  have hdrawn := fun k => drawn_history hset hleaves k reqs c s
  have hserved := forall_mem_history (fun req step => Served cfg req step.before step)
    (served hset hleaves) reqs c s
  have howner := same_owner_history hset hleaves reqs c s
  constructor
  · intro p hp hinline
    obtain ⟨k, x, hkey, hblock, hfrom⟩ := (hserved p hp).exists_block hinline
    have hmem := List.mem_filterMap.mpr ⟨p, hp, hfrom⟩
    exact ⟨k, x, hkey, hblock, hmem, (hdrawn k).within x hmem⟩
  · intro p hp hasked
    exact (hserved p hp).after_eq hasked
  · intro k
    exact (hdrawn k).tiles
  · intro k
    exact (hdrawn k).tiles.pairwise_apart
  · intro k l hapart x hx y hy place hplace hplace'
    have hfirst := ((hdrawn k).within x hx).covers hplace
    exact hapart place hfirst (((hdrawn l).within y hy).covers hplace')
  · intro k
    exact (hdrawn k).tiles.last_eq
  · intro k hne
    exact UInt64.le_iff_toNat_le.mpr ((hdrawn k).cursor_le hne)
  · intro k
    exact (hdrawn k).limit_eq
  · intro k hsmall hlarge
    have hnone := hdrawn k
    rw [blocksFrom_eq_nil hsmall hlarge] at hnone
    exact hnone.eq_of_nil
  · exact howner.1
  · exact howner.2

/-- Two buffers side by side, and requests that go to either of them and to the collector. -/
theorem accounts_of_requests_both_buffers :
    let cfg : Config := ⟨0x1000, .immix 0, false, 64⟩
    let svc : Service World :=
      { World.service with alloc := fun r _ _ _ _ => pure (StandIn.Collector.slowResult, r) }
    let record := Record.zeroed.setPair .immix ⟨0x1000, 0x1080⟩
    let c : Context := ⟨record.setPair .immixLarge ⟨0x1080, 0x1100⟩, some 0⟩
    let reqs : List Request :=
      [⟨72, .default⟩, ⟨0, .code⟩, ⟨72, .default⟩, ⟨56, .default⟩, ⟨64, .default⟩,
        ⟨0xffffffffffffffff, .default⟩]
    let steps := history (Request.act svc.observed cfg) reqs c World.initial
    (cfg.IsSet ∧ svc.LeavesRecord) ∧
      (blocksFrom cfg .immix steps = [⟨0x1000, 72⟩, ⟨0x1048, 0⟩, ⟨0x1048, 56⟩] ∧
        blocksFrom cfg .immixLarge steps = [⟨0x1080, 72⟩]) ∧
      Accounts cfg c steps (contextAfter (Request.act svc.observed cfg) reqs c World.initial) := by
  intro cfg svc record c reqs steps
  have hset : cfg.IsSet := ⟨by decide, Selector.isValid_iff.mpr Nat.zero_lt_one⟩
  have hleaves : svc.LeavesRecord := by
    constructor
    · rintro r size align offset sem a r' ⟨s, h⟩
      cases h
      rfl
    · rintro r o size sem r' ⟨s, h⟩
      cases h
      rfl
  exact ⟨⟨hset, hleaves⟩, ⟨by decide, by decide⟩, accounts_of_requests hset hleaves reqs c _⟩

end Runs
end HeapBridge.Alloc
