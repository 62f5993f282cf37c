import HeapBridge.Proofs.Barrier.Direct
import HeapBridge.Proofs.Barrier.Graph
import HeapBridge.Proofs.Barrier.Machine.Refinement

/-!
# Tests of a bit

The unlog bit of a slot is looked up in five ways, each with arithmetic of its own: in memory, in a
byte that was loaded before, by a direct call, by a stretch of linear code and by an expression of a
graph. All of them find the byte of the region of the slot, whatever the bias of the table, and take
the same bit of it.
-/
namespace HeapBridge.Barrier
open Metadata UnlogBits
variable {σ : Type} {cfg : Config}

/-! ## Linear code -/

namespace Machine
variable {code : Code} {access : Access} {env : Surroundings σ}

/-- A run that is at `pc` in state `s` is at `pc'` in state `s'` after `n` instructions, with
registers of which `post` holds. -/
def Leads (code : Code) (access : Access) (env : Surroundings σ) (n pc : Nat) (rs : Registers)
    (s : σ) (pc' : Nat) (s' : σ) (post : Registers → Prop) : Prop :=
  ∃ rs', post rs' ∧
    ∀ fuel, runFrom code access env (n + fuel) pc rs s = runFrom code access env fuel pc' rs' s'

namespace Leads
variable {n pc pc' : Nat} {rs : Registers} {s s' : σ} {post : Registers → Prop}

theorem here (h : post rs) : Leads code access env 0 pc rs s pc s post :=
  ⟨rs, h, fun fuel => by rw [Nat.zero_add]⟩

theorem step {α : Type} {ask : Act σ α} {next : α → Registers} {t : σ} {a : α}
    (h : step code access env pc rs = ask >>= fun a => pure (some (pc + 1, next a)))
    (hask : ask s = .ok a t) (hrest : Leads code access env n (pc + 1) (next a) t pc' s' post) :
    Leads code access env (n + 1) pc rs s pc' s' post := by
  obtain ⟨rs', hpost, hrun⟩ := hrest
  refine ⟨rs', hpost, fun fuel => ?_⟩
  rw [Nat.add_right_comm, runFrom, h, bind_assoc, Act.bind_of_ok hask]
  exact hrun fuel

/-- An instruction that only puts a word into a register. -/
theorem put {dst : Reg} {w : Word}
    (h : Machine.step code access env pc rs = pure (some (pc + 1, rs.put dst w)))
    (hrest : Leads code access env n (pc + 1) (rs.put dst w) s pc' s' post) :
    Leads code access env (n + 1) pc rs s pc' s' post := by
  have hask : Machine.step code access env pc rs =
      (pure () : Act σ Unit) >>= fun _ => pure (some (pc + 1, rs.put dst w)) := by
    rw [h, pure_bind]
  exact step hask rfl hrest

end Leads

section
variable {pc : Nat} {rs : Registers} {dst : Reg}

theorem Registers.set_of_lt (hd : dst.index < rs.size) (w : Word) :
    rs.set dst w = .ok (rs.put dst w) := if_pos hd

@[simp] theorem Registers.size_put (r : Reg) (w : Word) : (rs.put r w).size = rs.size := by
  rw [put]

theorem Registers.get_put {i : Nat} (hd : i < rs.size) (r : Reg) (w : Word) :
    (rs.put ⟨i⟩ w).get r = if r = ⟨i⟩ then .ok w else rs.get r := by
  obtain ⟨j⟩ := r
  by_cases hi : j = i
  · subst hi
    simp [get, put, hd]
  · simp [get, put, hi]

theorem step_move {src : Source} {w : Word} (h : code.instrs[pc]? = some (.move dst src))
    (hw : rs.read src = .ok w) (hd : dst.index < rs.size) :
    step code access env pc rs = pure (some (pc + 1, rs.put dst w)) := by
  simp [step, h, hw, Registers.set_of_lt hd]

theorem step_shiftRight {amount : Source} {w n x : Word}
    (h : code.instrs[pc]? = some (.shiftRight dst amount)) (hn : rs.read amount = .ok n)
    (hw : rs.get dst = .ok w) (hx : Word.shiftRight w n = .ok x) (hd : dst.index < rs.size) :
    step code access env pc rs = pure (some (pc + 1, rs.put dst x)) := by
  simp [step, h, hn, hw, hx, Registers.set_of_lt hd]

theorem step_mask {bits : Source} {w b : Word} (h : code.instrs[pc]? = some (.mask dst bits))
    (hb : rs.read bits = .ok b) (hw : rs.get dst = .ok w) (hd : dst.index < rs.size) :
    step code access env pc rs = pure (some (pc + 1, rs.put dst (w &&& b))) := by
  simp [step, h, hb, hw, Registers.set_of_lt hd]

theorem step_loadByte {base index : Reg} {b i : Word}
    (h : code.instrs[pc]? = some (.loadByte dst base index)) (hb : rs.get base = .ok b)
    (hi : rs.get index = .ok i) (hd : dst.index < rs.size) :
    step code access env pc rs = env.loadMetadata (b + i) >>= fun byte =>
      pure (some (pc + 1, rs.put dst byte.toUInt64)) := by
  simp [step, h, hb, hi, Registers.set_of_lt hd]

end

/-- The test of a bit leaves it in its third register, and all registers below its own alone. -/
theorem leads_bitTest (h : cfg.unlogBits.logRegion ≤ 60) {x : Reg} {r pc : Nat}
    {rs : Registers} {slot : Address} {byte : UInt8} {s s' : σ}
    (hat : code.At pc (bitTest cfg x r)) (hx : rs.get x = .ok slot) (hlt : x.index < r)
    (hr : r + 4 ≤ rs.size)
    (hload : env.loadMetadata (cfg.unlogBits.home (cfg.unlogBits.region slot)) s = .ok byte s') :
    Leads code access env 9 pc rs s (pc + 9) s' fun rs' =>
      rs'.get ⟨r + 2⟩ =
        .ok (if testBit byte (place (cfg.unlogBits.region slot)) then 1 else 0) ∧
      ∀ y : Reg, y.index < r → rs'.get y = rs.get y := by
  obtain ⟨h0, h1, h2, h3, h4, h5, h6, h7, h8, -⟩ := hat
  have hd0 : r < rs.size := by omega
  have hd1 : r + 1 < rs.size := by omega
  have hd2 : r + 2 < rs.size := by omega
  have hd3 : r + 3 < rs.size := by omega
  have hne : ∀ y : Reg, y.index < r → ∀ i, r ≤ i → y ≠ ⟨i⟩ := by
    rintro y hy i hi rfl
    exact absurd hy (Nat.not_lt.mpr hi)
  refine .put (step_move h0 hx hd0) ?_
  refine .put (step_shiftRight (w := slot) h1 rfl ?_ (shiftRight_logPerByte h slot) hd0) ?_
  · simp [Registers.get_put, hd0]
  refine .put (step_move h2 rfl hd1) ?_
  refine .step (step_loadByte h3 ?_ ?_ hd2) hload ?_
  · simp [Registers.get_put, hd1]
  · simp [Registers.get_put, hd0, hd1]
  refine .put (step_move (w := slot) h4 ?_ hd3) ?_
  · simp [Registers.read, Registers.get_put, hd0, hd1, hd2, hne x hlt, hx]
  refine .put (step_shiftRight (w := slot) h5 rfl ?_ (shiftRight_logRegion h slot) hd3) ?_
  · simp [Registers.get_put, hd3]
  refine .put (step_mask (w := cfg.unlogBits.region slot) h6 rfl ?_ hd3) ?_
  · simp [Registers.get_put, hd3]
  refine .put (step_shiftRight (w := byte.toUInt64) h7 ?_ ?_
    (Word.shiftRight_of_lt (and_seven_lt (cfg.unlogBits.region slot))) hd2) ?_
  · simp [Registers.read, Registers.get_put, hd3]
  · simp [Registers.get_put, hd2, hd3]
  refine .put (step_mask (w := byte.toUInt64 >>> (cfg.unlogBits.region slot &&& 7)) h8 rfl ?_
    hd2) ?_
  · simp [Registers.get_put, hd2]
  refine .here ⟨?_, fun y hy => ?_⟩
  · simp [Registers.get_put, hd2, word_bit_eq]
  · simp [Registers.get_put, hd0, hd1, hd2, hd3, hne y hy]

end Machine

/-! ## Five ways -/

/-- All that is asked about a slot whose bit lies at place `i` of the byte at `a`, if that byte is
`byte`, is answered by `b`. -/
structure TestsAlike (u : UnlogBits) (slot a : Address) (i byte : UInt8) (b : Bool) : Prop where
  bit_eq : b = byte.toNat.testBit i.toNat
  /-- In a byte that was loaded before. -/
  loaded : u.isUnloggedIn byte slot = .ok b
  memory : ∀ m : Memory, m.load a .byte = .ok byte.toUInt64 → u.isUnlogged m slot = .ok b
  /-- A direct call for a write tells the collector if the bit is set. -/
  direct : ∀ cfg : Config, cfg.unlogBits = u → cfg.fastPath = true →
    ∀ {σ : Type} (env : Surroundings σ) (s s' : σ), env.loadMetadata a s = .ok byte s' →
    ∀ src target, Direct.writePre cfg env src slot target s =
      (if b then env.call (.writeSlow src slot target) else pure ()) s'
  /-- The stretch of code that is emitted for a slot in register `x` leaves the bit in the register
  that it names, and goes on behind itself. -/
  code : ∀ cfg : Config, cfg.unlogBits = u → ∀ (x : Machine.Reg) (e : Machine.Emitter),
    x.index < e.nextReg → ∃ bit test e', Machine.unlogBit cfg x e = .ok (bit, e') ∧
      e'.instrs = e.instrs ++ test ∧
      ∀ {σ : Type} (env : Surroundings σ) (s s' : σ), env.loadMetadata a s = .ok byte s' →
      ∀ code access pc rs, Machine.Code.At code pc test → e'.nextReg ≤ rs.size →
        rs.get x = .ok slot →
        Machine.Leads code access env test.length pc rs s (pc + test.length) s' fun rs' =>
          rs'.get bit = .ok (if b then 1 else 0) ∧
          ∀ y : Machine.Reg, y.index < e.nextReg → rs'.get y = rs.get y
  /-- The block that is built for an expression of the slot is guarded by one of the bit. -/
  graph : ∀ cfg : Config, cfg.unlogBits = u → cfg.fastPath = true → ∀ src x target : Node,
    ∃ bit, (∀ before, Graph.writeBarrier cfg src x target before =
        .ok ((), before ++
          [.ifThen bit .ne (.con 0) .thousandth [.call .writeSlow [src, x, target]]])) ∧
      ∀ access, Graph.Is access x slot →
        ∀ {σ : Type} (env : Surroundings σ) (s s' : σ), env.loadMetadata a s = .ok byte s' →
          Graph.eval env access bit s = .ok (if b then 1 else 0) s'

section
variable {u : UnlogBits}

theorem isUnlogged_of_load (h : u.logRegion ≤ 60) {m : Memory} {slot : Address} {byte : UInt8}
    (hload : m.load (u.home (u.region slot)) .byte = .ok byte.toUInt64) :
    u.isUnlogged m slot = .ok (testBit byte (place (u.region slot))) := by
  have hbyte : u.loadByte m slot = .ok byte := by
    rw [loadByte, byteAddress_eq_home h]
    change (m.load (u.home (u.region slot)) .byte >>= fun w => .ok w.toUInt8) = _
    rw [hload]
    change Except.ok byte.toUInt64.toUInt8 = _
    rw [UInt8.toUInt8_toUInt64]
  rw [isUnlogged, hbyte]
  exact isUnloggedIn_eq_testBit h byte slot

theorem testsAlike (h : u.logRegion ≤ 60) (slot : Address) (byte : UInt8) :
    TestsAlike u slot (u.home (u.region slot)) (place (u.region slot)) byte
      (testBit byte (place (u.region slot))) where
  bit_eq := testBit_eq (toNat_place_lt _)
  loaded := isUnloggedIn_eq_testBit h byte slot
  memory _ hload := isUnlogged_of_load h hload
  direct := by
    rintro cfg rfl hf σ env s s' hload src target
    rw [Direct.writePre_eq h, Protocol.preWrite_of_fast h hf, Act.bind_of_ok hload]
  code := by
    rintro cfg rfl x e hx
    refine ⟨_, _, _, Machine.unlogBit_eq h x e, rfl, ?_⟩
    intro σ env s s' hload code access pc rs hat hsize hslot
    exact Machine.leads_bitTest h hat hslot hx hsize hload
  graph := by
    rintro cfg rfl hf src x target
    refine ⟨Graph.bitNode cfg x, fun before => ?_, ?_⟩
    · rw [Graph.writeBarrier_of_fast h hf]
      rfl
    · intro access hx σ env s s' hload
      rw [Graph.eval_bitNode h hx, Act.bind_of_ok hload]
      rfl

end

/-- The bits of slots lie at `placeOf` in the bytes at `byteOf`, one bit for each region, and all
ways to look up the bit of a slot agree. -/
structure AddressedByRegion (u : UnlogBits) (byteOf : Address → Address)
    (placeOf : Address → UInt8) : Prop where
  byteAddress_eq : ∀ s, u.byteAddress s = .ok (byteOf s)
  bitIndex_eq : ∀ s, u.bitIndex s = .ok (placeOf s)
  placeOf_lt : ∀ s, placeOf s < 8
  eq_iff : ∀ s t, (byteOf s, placeOf s) = (byteOf t, placeOf t) ↔
    s >>> u.logRegion.toUInt64 = t >>> u.logRegion.toUInt64
  alike : ∀ slot byte, ∃ b, TestsAlike u slot (byteOf slot) (placeOf slot) byte b

/-- Every slot has a bit, which it shares with the slots of its region and with no other, whatever
the base is. -/
theorem bits_addressed_by_region {u : UnlogBits} (h : u.logRegion ≤ 60) :
    ∃ byteOf placeOf, AddressedByRegion u byteOf placeOf := by
  refine ⟨fun s => u.home (u.region s), fun s => place (u.region s), ?_, ?_, ?_, ?_, ?_⟩
  · exact byteAddress_eq_home h
  · exact bitIndex_eq_place h
  · exact fun s => UInt8.lt_iff_toNat_lt.mpr (toNat_place_lt _)
  · intro s t
    have hregion : u.region s = u.region t ↔
        s >>> u.logRegion.toUInt64 = t >>> u.logRegion.toUInt64 := Iff.rfl
    rw [← hregion]
    constructor
    · intro heq
      obtain ⟨hbyte, hplace⟩ := Prod.mk.inj heq
      exact eq_of_home_of_place hbyte hplace
    · intro heq
      rw [heq]
  · exact fun slot byte => ⟨_, testsAlike h slot byte⟩

/-- Bases that make addresses wrap, with regions of four bytes and with sixteen regions in all. -/
theorem bits_addressed_by_region_biased :
    let narrow : UnlogBits := ⟨0xfffffffffffffff0, 2⟩
    let coarse : UnlogBits := ⟨0xffffffffffffffff, 60⟩
    (narrow.logRegion ≤ 60 ∧ ∃ byteOf placeOf, AddressedByRegion narrow byteOf placeOf) ∧
      coarse.logRegion ≤ 60 ∧ ∃ byteOf placeOf, AddressedByRegion coarse byteOf placeOf :=
  ⟨⟨by decide, bits_addressed_by_region (by decide)⟩, by decide,
    bits_addressed_by_region (by decide)⟩

end HeapBridge.Barrier
