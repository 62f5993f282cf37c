import HeapBridge.Proofs.Barrier.Facts
import HeapBridge.Proofs.Barrier.Machine.Execution
import HeapBridge.Proofs.Barrier.Machine.Placement
import HeapBridge.Proofs.Barrier.Protocol

/-!
# Linear code follows the protocol

A body and its stub, wherever they stand in some code, do what the protocol asks of an access that
agrees with the compiled one. The stub is executed within the body, before the place at which it
comes back, so a run is a walk along the body with the stub put in.
-/
namespace HeapBridge.Barrier.Machine
open Metadata UnlogBits
variable {σ : Type} {code : Code} {access : Access} {env : Surroundings σ} {cfg : Config}

/-! ## Parts of bodies and stubs -/

theorem length_bitTest (slot : Reg) (r : Nat) : (bitTest cfg slot r).length = 9 := rfl

/-- The test of a bit loads one byte and leaves the registers below its own alone. -/
theorem acts_bitTest (h : cfg.unlogBits.logRegion ≤ 60) {slot : Reg} {r pc : Nat}
    {m : Known} {x : Address} {places : List Nat} {k : UInt8 → Act σ Unit}
    (hat : code.At pc (bitTest cfg slot r)) (hslot : m.get? slot = some x) (hlt : slot.index < r)
    (hr : r + 4 ≤ code.registers)
    (hk : ∀ byte m', (∀ s : Reg, s.index < r → m'.get? s = m.get? s) →
      m'.get? ⟨r + 2⟩ = some (if testBit byte (place (cfg.unlogBits.region x)) then 1 else 0) →
      Acts code access env places (pc + 9) m' (k byte)) :
    Acts code access env (List.range' pc 9 ++ places) pc m
      (env.loadMetadata (cfg.unlogBits.home (cfg.unlogBits.region x)) >>= k) := by
  obtain ⟨h0, h1, h2, h3, h4, h5, h6, h7, h8, -⟩ := hat
  have hne : ∀ i, r ≤ i → ∀ s : Reg, s.index < r → s ≠ ⟨i⟩ := by
    rintro i hi s hs rfl
    exact absurd hs (Nat.not_lt.mpr hi)
  have hd : ∀ i, i < 4 → r + i < code.registers := fun i hi => by omega
  refine .move h0 hslot (hd 0 (by decide)) ?_
  refine .shiftRight h1 (by simp) rfl (shiftRight_logPerByte h x) (hd 0 (by decide)) ?_
  refine .move h2 rfl (hd 1 (by decide)) ?_
  refine .loadByte h3 (by simp) (by simp) (hd 2 (by decide)) fun byte => ?_
  refine .move h4 (by simp [hne _ _ slot hlt, hslot]; rfl) (hd 3 (by decide)) ?_
  refine .shiftRight h5 (by simp) rfl (shiftRight_logRegion h x) (hd 3 (by decide)) ?_
  refine .mask h6 (by simp; rfl) rfl (hd 3 (by decide)) ?_
  refine .shiftRight h7 (by simp; rfl) (by simp; rfl) (Word.shiftRight_of_lt (and_seven_lt _))
    (hd 2 (by decide)) ?_
  refine .mask h8 (by simp; rfl) rfl (hd 2 (by decide)) ?_
  refine hk byte _ ?_ ?_
  · intro s hs
    simp [hne _ _ s hs]
  · simp [word_bit_eq]

theorem acts_writeCall {src slot value : Reg} {s x v : Word} {c : Call} {pc : Nat} {m : Known}
    {places : List Nat} {k : Act σ Unit}
    (hat : code.instrs[pc]? = some (writeCall cfg src slot value)) (hs : m.get? src = some s)
    (hx : m.get? slot = some x) (hv : m.get? value = some v)
    (hc : (if cfg.fastPath then .writeSlow s x v else .writePre s x v) = c)
    (hk : Acts code access env places (pc + 1) m k) :
    Acts code access env (pc :: places) pc m (env.call c >>= fun _ => k) := by
  have hargs : [src, slot, value].mapM m.get? = some [s, x, v] := by simp [hs, hx, hv]
  refine .call hat hargs ?_ hk
  rw [← hc]
  split <;> rfl

/-- A write barrier with the jump behind it, wherever that leads. -/
theorem acts_lateWrite (h : cfg.unlogBits.logRegion ≤ 60) {src value : Reg} {done : Label}
    {r pc : Nat} {m : Known} {s x v : Word} {places : List Nat} {k : Act σ Unit}
    (hat : code.At pc (lateWrite cfg src value done r ++ [.jump done]))
    (hop : access.operand? .slot = some x) (hs : m.get? src = some s) (hv : m.get? value = some v)
    (hsr : src.index < r) (hvr : value.index < r) (hr : r + lateRegs cfg ≤ code.registers)
    (hk : ∀ m', Acts code access env places (code.placeOf done) m' k) :
    Acts code access env (List.range' pc ((lateWrite cfg src value done r).length + 1) ++ places)
      pc m (Protocol.preWrite cfg env s x v >>= fun _ => k) := by
  have hne : ∀ t : Reg, t.index < r → t ≠ ⟨r⟩ := by
    rintro t ht rfl
    exact absurd ht (Nat.lt_irrefl _)
  cases hf : cfg.fastPath with
  | false =>
    rw [Protocol.preWrite_of_slow hf]
    simp only [lateWrite, skipCode, hf, Bool.false_eq_true, if_false, lateRegs] at hat hr ⊢
    obtain ⟨h0, h1, h2, -⟩ := hat
    refine .arg h0 hop hr ?_
    refine acts_writeCall h1 ?_ ?_ ?_ (by rw [hf]; rfl) ?_
    · simp [hne src hsr, hs]
    · simp
    · simp [hne value hvr, hv]
    · exact .jump h2 (hk _)
  | true =>
    rw [Protocol.preWrite_of_fast h hf, bind_assoc]
    simp only [lateWrite, skipCode, hf, if_true, lateRegs, List.cons_append, List.append_assoc,
      List.nil_append, Code.At, Code.at_append, length_bitTest] at hat hr ⊢
    obtain ⟨h0, htest, h1, h2, h3, -⟩ := hat
    have hlt : r < code.registers := by omega
    change Acts code access env
      (pc :: (List.range' (pc + 1) 9 ++ (List.range' (pc + 10) 3 ++ places))) pc m _
    refine .arg h0 hop hlt ?_
    refine acts_bitTest h htest (by simp) (Nat.lt_succ_self r) (by omega) ?_
    intro byte m' hm hbit
    have hm' : ∀ t : Reg, t.index < r → m'.get? t = m.get? t := by
      intro t ht
      rw [hm t (Nat.lt_succ_of_lt ht), Known.get?_put, if_neg (hne t ht)]
    refine .branch h1 hbit rfl ?_ ?_
    · intro ht
      rw [Cond.holds, bit_bne_one, Bool.not_eq_true'] at ht
      rw [ht, if_neg (by decide), pure_bind]
      exact .skip (.skip (hk m'))
    · intro ht
      rw [Cond.holds, bit_bne_one, Bool.not_eq_false'] at ht
      rw [ht, if_pos rfl]
      refine acts_writeCall h2 ?_ ?_ ?_ (by rw [hf]; rfl) (.jump h3 (hk m'))
      · rw [hm' src hsr, hs]
      · rw [hm ⟨r⟩ (Nat.lt_succ_self r), Known.get?_put, if_pos rfl]
      · rw [hm' value hvr, hv]

/-! ## Stubs

A stub is entered by its label and comes back to the place `p` at which the body goes on. -/

/-- Who leaves for a label goes on behind the place at which it is bound. -/
theorem acts_placeOf (hd : (boundIn code.instrs).Nodup) {l : Label} {p : Nat} {m : Known}
    {places : List Nat} {act : Act σ Unit} (hp : code.instrs[p]? = some (.bind l))
    (hk : Acts code access env places (p + 1) m act) :
    Acts code access env (p :: places) (code.placeOf l) m act := by
  rw [Code.placeOf_eq hd hp]
  exact .bind hp hk

/-- The stub of a store that tested its bit in the body. -/
theorem acts_writeStub (hd : (boundIn code.instrs).Nodup) {src slot value : Reg}
    {entry done : Label} {p q t : Nat} {m : Known} {s x v : Word} {c : Call} {places : List Nat}
    {k : Act σ Unit}
    (hat : code.At q (stubPiece cfg t ⟨entry, done, .write src (some slot) value⟩).instrs)
    (hback : code.instrs[p]? = some (.bind done)) (hs : m.get? src = some s)
    (hx : m.get? slot = some x) (hv : m.get? value = some v)
    (hc : (if cfg.fastPath then .writeSlow s x v else .writePre s x v) = c)
    (hk : ∀ m', Acts code access env places (p + 1) m' k) :
    Acts code access env (List.range' q 3 ++ (p :: places)) (code.placeOf entry) m
      (env.call c >>= fun _ => k) := by
  obtain ⟨h0, h1, h2, -⟩ := hat
  refine acts_placeOf hd h0 (acts_writeCall h1 hs hx hv hc (.jump h2 ?_))
  exact acts_placeOf hd hback (hk m)

/-- The stub of a store that had to be patched. -/
theorem acts_lateStub (h : cfg.unlogBits.logRegion ≤ 60) (hd : (boundIn code.instrs).Nodup)
    {src value : Reg} {entry done : Label} {p q t : Nat} {m : Known} {s x v : Word}
    {places : List Nat} {k : Act σ Unit}
    (hat : code.At q (stubPiece cfg t ⟨entry, done, .write src none value⟩).instrs)
    (hback : code.instrs[p]? = some (.bind done)) (hop : access.operand? .slot = some x)
    (hs : m.get? src = some s) (hv : m.get? value = some v) (hst : src.index < t)
    (hvt : value.index < t) (ht : t + lateRegs cfg ≤ code.registers)
    (hk : ∀ m', Acts code access env places (p + 1) m' k) :
    Acts code access env
      (List.range' q (stubPiece cfg t ⟨entry, done, .write src none value⟩).instrs.length ++
        (p :: places))
      (code.placeOf entry) m (Protocol.preWrite cfg env s x v >>= fun _ => k) := by
  obtain ⟨h0, hat⟩ := hat
  have hlen : (stubPiece cfg t ⟨entry, done, .write src none value⟩).instrs.length =
      (lateWrite cfg src value done t).length + 1 + 1 := by
    simp [stubPiece, stubBody]
  rw [hlen, List.range'_succ]
  refine acts_placeOf hd h0 (acts_lateWrite h hat hop hs hv hst hvt ht ?_)
  intro m'
  exact acts_placeOf hd hback (hk m')

/-- The stub of a load, entered while marking runs. -/
theorem acts_loadStub (h : cfg.unlogBits.logRegion ≤ 60) (hd : (boundIn code.instrs).Nodup)
    {value : Reg} {entry done : Label} {p q t : Nat} {m : Known} {x v : Word} {places : List Nat}
    {k : Act σ Unit} (hat : code.At q (stubPiece cfg t ⟨entry, done, .load value⟩).instrs)
    (hback : code.instrs[p]? = some (.bind done)) (hop : access.operand? .slot = some x)
    (hv : m.get? value = some v) (hvt : value.index < t)
    (ht : t + stubRegs cfg ⟨entry, done, .load value⟩ ≤ code.registers)
    (hk : ∀ m', Acts code access env places (p + 1) m' k) :
    Acts code access env
      (List.range' q (stubPiece cfg t ⟨entry, done, .load value⟩).instrs.length ++ (p :: places))
      (code.placeOf entry) m
      ((if v == 0 then pure () else Protocol.tellLoaded cfg env v x) >>= fun _ => k) := by
  have hdone : ∀ m', Acts code access env (p :: places) (code.placeOf done) m' k :=
    fun m' => acts_placeOf hd hback (hk m')
  cases hm : cfg.loadMode with
  | referenceCall =>
    rw [Protocol.tellLoaded_of_call hm]
    simp only [stubPiece, stubBody, hm] at hat ⊢
    obtain ⟨h0, h1, h2, h3, -⟩ := hat
    refine acts_placeOf hd h0 (.branch h1 hv rfl ?_ ?_)
    · intro hz
      rw [Cond.holds] at hz
      rw [if_pos hz, pure_bind]
      exact .skip (.skip (hdone m))
    · intro hz
      rw [Cond.holds] at hz
      rw [hz, if_neg Bool.false_ne_true]
      refine .call h2 (by simp [hv]; rfl) rfl ?_
      exact .jump h3 (hdone m)
  | slotLogging =>
    rw [Protocol.tellLoaded_of_logging hm]
    simp only [stubPiece, stubBody, stubRegs, hm] at hat ht ⊢
    obtain ⟨h0, h1, hat⟩ := hat
    have hlen : (Instr.bind entry :: .branch .equal value (.imm 0) done ::
        lateWrite cfg value value done t ++ [Instr.jump done]).length =
        (lateWrite cfg value value done t).length + 1 + 1 + 1 := by simp
    rw [hlen, List.range'_succ, List.range'_succ]
    refine acts_placeOf hd h0 (.branch h1 hv rfl ?_ ?_)
    · intro hz
      rw [Cond.holds] at hz
      rw [if_pos hz, pure_bind]
      exact (hdone m).skipAll _
    · intro hz
      rw [Cond.holds] at hz
      rw [hz, if_neg Bool.false_ne_true]
      exact acts_lateWrite h hat hop hv hv hvt hvt ht hdone

/-! ## Bodies with their stubs -/

/-- A piece does what `act` does and goes on behind its body. No place of the body or the stub is
executed twice. -/
def Code.Performs (code : Code) (access : Access) (env : Surroundings σ) (cfg : Config)
    (p : Piece) (pc q t : Nat) (act : Act σ Unit) : Prop :=
  ∃ visited : List Nat,
    visited.Perm (List.range' pc p.instrs.length ++ List.range' q (p.tail cfg t).instrs.length) ∧
    ∀ m places k, (∀ m', Acts code access env places (pc + p.instrs.length) m' k) →
      Acts code access env (visited ++ places) pc m (act >>= fun _ => k)

/-- A stub within a body is a detour between two parts of it. -/
theorem perm_detour (pc a b q n : Nat) :
    (List.range' pc a ++ (List.range' q n ++ List.range' (pc + a) b)).Perm
      (List.range' pc (a + b) ++ List.range' q n) := by
  rw [← List.range'_append_1, List.append_assoc]
  exact List.perm_append_comm.append_left _

/-- A body may be one place longer than the part that has the stub. -/
theorem perm_stretch {visited rest : List Nat} {pc a : Nat}
    (h : visited.Perm (List.range' pc a ++ rest)) :
    (visited ++ [pc + a]).Perm (List.range' pc (a + 1) ++ rest) := by
  have hswap : ((List.range' pc a ++ rest) ++ [pc + a]).Perm
      ((List.range' pc a ++ [pc + a]) ++ rest) := by
    rw [List.append_assoc, List.append_assoc]
    exact List.perm_append_comm.append_left _
  rw [List.range'_1_concat]
  exact (h.append_right _).trans hswap

/-- A store whose offset has to be filled in first does all that it does in its stub. -/
theorem Code.Hosts.performs_store_patched (h : cfg.unlogBits.logRegion ≤ 60)
    (hd : (boundIn code.instrs).Nodup) {r l pc q t : Nat} {s x v : Word}
    (hh : code.Hosts cfg (storePiece cfg true r l) pc r q t)
    (hs : access.operand? .base = some s) (hx : access.operand? .slot = some x)
    (hv : access.operand? .value = some v) :
    code.Performs access env cfg (storePiece cfg true r l) pc q t
      (Protocol.preWrite cfg env s x v) := by
  obtain ⟨hbody, htail, hrt, htr⟩ := hh
  simp only [storePiece, if_true] at hbody htail hrt htr ⊢
  obtain ⟨h0, h1, h2, h3, -⟩ := hbody
  refine ⟨_, perm_detour pc 3 1 q _, ?_⟩
  intro m places k hk
  rw [List.append_assoc, List.append_assoc]
  refine .arg h0 hs (by simp; omega) (.arg h1 hv (by simp; omega) (.jump h2 ?_))
  refine acts_lateStub h hd htail h3 hx ?_ ?_ ?_ ?_ htr hk
  · simp
  · simp
  · simp
    omega
  · simp
    omega

/-- A store that looks at the bit itself leaves for its stub if the bit is set. -/
theorem Code.Hosts.performs_store_fast (h : cfg.unlogBits.logRegion ≤ 60)
    (hf : cfg.fastPath = true) (hd : (boundIn code.instrs).Nodup) {r l pc q t : Nat} {s x v : Word}
    (hh : code.Hosts cfg (storePiece cfg false r l) pc r q t)
    (hs : access.operand? .base = some s) (hx : access.operand? .slot = some x)
    (hv : access.operand? .value = some v) :
    code.Performs access env cfg (storePiece cfg false r l) pc q t
      (Protocol.preWrite cfg env s x v) := by
  obtain ⟨hbody, htail, hrt, htr⟩ := hh
  simp only [storePiece, hf, Bool.false_eq_true, if_false, if_true, List.cons_append,
    List.nil_append, Code.At, Code.at_append, length_bitTest] at hbody htail hrt htr ⊢
  obtain ⟨h0, h1, h2, htest, h3, h4, -⟩ := hbody
  refine ⟨_, perm_detour pc 13 1 q _, ?_⟩
  intro m places k hk
  rw [Protocol.preWrite_of_fast h hf, bind_assoc]
  change Acts code access env (pc :: (pc + 1) :: (pc + 2) :: (List.range' (pc + 3) 9 ++
    ((pc + 12) :: (List.range' q 3 ++ ((pc + 13) :: places))))) pc m _
  refine .arg h0 hs (by simp; omega) (.arg h1 hv (by simp; omega) ?_)
  refine .arg h2 hx (by simp; omega) ?_
  refine acts_bitTest h htest (by simp) (by simp) (by omega) ?_
  intro byte m₁ hm hbit
  refine .branch h3 hbit rfl ?_ ?_
  · intro ht
    rw [Cond.holds, bit_beq_one] at ht
    rw [ht, if_pos rfl]
    refine acts_writeStub (s := s) (x := x) (v := v) hd htail h4 ?_ ?_ ?_ (by rw [hf]; rfl) hk
    · rw [hm _ (by simp)]
      simp
    · rw [hm _ (by simp)]
      simp
    · rw [hm _ (by simp)]
      simp
  · intro ht
    rw [Cond.holds, bit_beq_one] at ht
    rw [ht, if_neg Bool.false_ne_true, pure_bind]
    exact Acts.skipAll (.bind h4 (hk m₁)) _

/-- A store that does not look at the bit always leaves for its stub. -/
theorem Code.Hosts.performs_store_slow (hf : cfg.fastPath = false)
    (hd : (boundIn code.instrs).Nodup) {r l pc q t : Nat} {s x v : Word}
    (hh : code.Hosts cfg (storePiece cfg false r l) pc r q t)
    (hs : access.operand? .base = some s) (hx : access.operand? .slot = some x)
    (hv : access.operand? .value = some v) :
    code.Performs access env cfg (storePiece cfg false r l) pc q t
      (Protocol.preWrite cfg env s x v) := by
  obtain ⟨hbody, htail, hrt, htr⟩ := hh
  simp only [storePiece, hf, Bool.false_eq_true, if_false] at hbody htail hrt htr ⊢
  obtain ⟨h0, h1, h2, h3, h4, -⟩ := hbody
  refine ⟨_, perm_detour pc 4 1 q _, ?_⟩
  intro m places k hk
  rw [Protocol.preWrite_of_slow hf, List.append_assoc, List.append_assoc]
  refine .arg h0 hs (by simp; omega) (.arg h1 hv (by simp; omega) ?_)
  refine .arg h2 hx (by simp; omega) (.jump h3 ?_)
  refine acts_writeStub (s := s) (x := x) (v := v) hd htail h4 ?_ ?_ ?_ (by rw [hf]; rfl) hk
  · simp
  · simp
  · simp

theorem Code.Hosts.performs_store (h : cfg.unlogBits.logRegion ≤ 60)
    (hd : (boundIn code.instrs).Nodup) {patched : Bool} {r l pc q t : Nat} {s x v : Word}
    (hh : code.Hosts cfg (storePiece cfg patched r l) pc r q t)
    (hs : access.operand? .base = some s) (hx : access.operand? .slot = some x)
    (hv : access.operand? .value = some v) :
    code.Performs access env cfg (storePiece cfg patched r l) pc q t
      (Protocol.preWrite cfg env s x v) := by
  cases patched with
  | true => exact hh.performs_store_patched h hd hs hx hv
  | false =>
    cases hf : cfg.fastPath with
    | true => exact hh.performs_store_fast h hf hd hs hx hv
    | false => exact hh.performs_store_slow hf hd hs hx hv

theorem Code.Hosts.performs_report (h : cfg.unlogBits.logRegion ≤ 60)
    (hd : (boundIn code.instrs).Nodup) {r l pc q t : Nat} {ld : Load}
    (hh : code.Hosts cfg (reportPiece r l) pc r q t)
    (hx : access.operand? .slot = some ld.slot) (hv : access.operand? .value = some ld.value) :
    code.Performs access env cfg (reportPiece r l) pc q t (Protocol.report cfg env ld) := by
  obtain ⟨hbody, htail, hrt, htr⟩ := hh
  simp only [reportPiece] at hbody htail hrt htr ⊢
  obtain ⟨h0, h1, h2, h3, -⟩ := hbody
  refine ⟨_, perm_detour pc 3 1 q _, ?_⟩
  intro m places k hk
  rw [Protocol.report_eq, bind_assoc, List.append_assoc, List.append_assoc]
  refine .arg h0 hv (by simp; omega) (.loadFlag h1 (by simp; omega) fun flag => ?_)
  refine .branch (l := flag.toUInt64) (r := 0) h2 (by simp) rfl ?_ ?_
  · intro ht
    rw [Cond.holds, flag_bne_zero, Bool.not_eq_true'] at ht
    rw [ht, Bool.false_or]
    have hv' : ((m.put ⟨r⟩ ld.value).put ⟨r + 1⟩ flag.toUInt64).get? ⟨r⟩ = some ld.value := by simp
    exact acts_loadStub h hd htail h3 hx hv' (by simp; omega) htr hk
  · intro ht
    rw [Cond.holds, flag_bne_zero, Bool.not_eq_false'] at ht
    rw [ht, Bool.true_or, if_pos rfl, pure_bind]
    exact Acts.skipAll (.bind h3 (hk _)) _

theorem Code.Hosts.performs_guarded (h : cfg.unlogBits.logRegion ≤ 60)
    (hd : (boundIn code.instrs).Nodup) {r l pc q t : Nat} {ld : Load}
    (hh : code.Hosts cfg (guardedPiece cfg r l) pc r q t)
    (hb : access.operand? .base = some ld.base)
    (ho : access.operand? .offset = some ld.offset.toUInt64)
    (hx : access.operand? .slot = some ld.slot) (hv : access.operand? .value = some ld.value) :
    code.Performs access env cfg (guardedPiece cfg r l) pc q t
      (if ld.offset ≠ cfg.referentOffset then pure () else
        env.isReference ld.base >>= fun b =>
          if !b then pure () else Protocol.report cfg env ld) := by
  obtain ⟨hbody, htail, hrt, htr⟩ := hh
  simp only [guardedPiece, Code.at_append] at hbody
  obtain ⟨⟨⟨h0, h1, h2, h3, h4, -⟩, hreport⟩, h5, -⟩ := hbody
  have hrt' : r + 5 ≤ t := hrt
  have hlow : r + 3 + (reportPiece (r + 3) (l + 1)).regs ≤ t := by
    simp only [reportPiece]
    omega
  have hin : code.Hosts cfg (reportPiece (r + 3) (l + 1)) (pc + 5) (r + 3) q t :=
    ⟨hreport, htail, hlow, htr⟩
  have hperforms : code.Performs access env cfg (reportPiece (r + 3) (l + 1)) (pc + 5) q t
      (Protocol.report cfg env ld) := hin.performs_report h hd hx hv
  obtain ⟨visited, hperm, hacts⟩ := hperforms
  refine ⟨List.range' pc 5 ++ (visited ++ [pc + 9]), ?_, ?_⟩
  · have hstretched := perm_stretch hperm
    exact hstretched.append_left (List.range' pc 5)
  · intro m places k hk
    rw [List.append_assoc, List.append_assoc]
    have hdone : ∀ m', Acts code access env ([pc + 9] ++ places) (code.placeOf ⟨l⟩) m' k :=
      fun m' => acts_placeOf hd h5 (hk m')
    refine .arg h0 ho (by simp; omega) ?_
    refine .branch (l := ld.offset.toUInt64) h1 (by simp) rfl ?_ ?_
    · intro ht
      rw [Cond.holds, bne, offset_beq, ← bne, bne_iff_ne] at ht
      rw [if_pos ht, pure_bind]
      exact .skip (.skip (.skip ((hdone _).skipAll _)))
    · intro ht
      rw [Cond.holds, bne, offset_beq, ← bne, ← Bool.not_eq_true, bne_iff_ne] at ht
      rw [if_neg ht, bind_assoc]
      refine .arg h2 hb (by simp; omega) (.isReference h3 (by simp) (by simp; omega) fun b => ?_)
      refine .branch (l := if b then 1 else 0) (r := 0) h4 (by simp) rfl ?_ ?_
      · intro hz
        rw [Cond.holds, bit_beq_zero] at hz
        rw [hz, if_pos rfl, pure_bind]
        exact (hdone _).skipAll _
      · intro hz
        rw [Cond.holds, bit_beq_zero] at hz
        rw [hz, if_neg Bool.false_ne_true]
        exact hacts _ _ _ fun m' => .bind h5 (hk m')

theorem Code.Hosts.performs_arrayCopy (hd : (boundIn code.instrs).Nodup) {r l pc q t : Nat}
    {c : ArrayCopy} (hh : code.Hosts cfg (arrayCopyPiece r l) pc r q t)
    (hs : access.operand? .src = some c.src) (ht : access.operand? .dst = some c.dst)
    (hn : access.operand? .count = some c.count) :
    code.Performs access env cfg (arrayCopyPiece r l) pc q t
      (if c.count == 0 then pure () else env.call (.arrayCopyPre c.src c.dst c.count)) := by
  obtain ⟨⟨h0, h1, h2, h3, h4, h5, -⟩, -, hrt, htr⟩ := hh
  have hrt' : r + 3 ≤ t := hrt
  have hreg : r + 3 ≤ code.registers := by omega
  refine ⟨List.range' pc 6, .of_eq (List.append_nil _).symm, ?_⟩
  intro m places k hk
  refine .arg h0 hn (by simp; omega) (.branch (l := c.count) (r := 0) h1 (by simp) rfl ?_ ?_)
  · intro hz
    rw [Cond.holds] at hz
    rw [if_pos hz, pure_bind]
    exact .skip (.skip (.skip (acts_placeOf hd h5 (hk _))))
  · intro hz
    rw [Cond.holds] at hz
    rw [hz, if_neg Bool.false_ne_true]
    refine .arg h2 hs (by simp; omega) (.arg h3 ht (by simp; omega) ?_)
    refine .call h4 (by simp; rfl) rfl ?_
    exact .bind h5 (hk _)

theorem Code.Hosts.performs_clone {r pc q t : Nat} {c : Clone}
    (hh : code.Hosts cfg (clonePiece c.freshTarget r) pc r q t)
    (hs : access.operand? .base = some c.src) (ht : access.operand? .dst = some c.dst)
    (hn : access.operand? .size = some c.size) :
    code.Performs access env cfg (clonePiece c.freshTarget r) pc q t
      (Protocol.run cfg .baseline env (.clone c)) := by
  obtain ⟨hbody, -, hrt, htr⟩ := hh
  have hrt' : r + 3 ≤ t := hrt
  have hreg : r + 3 ≤ code.registers := by omega
  refine ⟨List.range' pc _, .of_eq (List.append_nil _).symm, ?_⟩
  intro m places k hk
  cases hf : c.freshTarget with
  | true =>
    rw [hf] at hbody hk
    obtain ⟨h0, h1, h2, h3, -⟩ := hbody
    simp only [Protocol.run, hf, if_true, bind_assoc, pure_bind]
    refine .arg h0 hs (by simp; omega) (.arg h1 ht (by simp; omega) ?_)
    refine .arg h2 hn (by simp; omega) ?_
    exact .copy h3 (by simp) (by simp) (by simp) (hk _)
  | false =>
    rw [hf] at hbody hk
    obtain ⟨h0, h1, h2, h3, h4, h5, -⟩ := hbody
    simp only [Protocol.run, hf, Bool.false_eq_true, if_false, bind_assoc]
    refine .arg h0 hs (by simp; omega) (.arg h1 ht (by simp; omega) ?_)
    refine .arg h2 hn (by simp; omega) ?_
    refine .copy h3 (by simp) (by simp) (by simp) ?_
    refine .call h4 (by simp; rfl) rfl ?_
    exact .fence h5 (hk _)

theorem performs_empty (pc q t : Nat) :
    code.Performs access env cfg .empty pc q t (pure ()) :=
  ⟨[], .refl _, fun m _ _ hk => hk m⟩

/-- The body of an access and its stub follow the protocol for every access that agrees with it,
with operands taken from yet another access that has them. -/
theorem Code.Hosts.performs (h : cfg.unlogBits.logRegion ≤ 60)
    (hd : (boundIn code.instrs).Nodup) {a b : Access} {r l pc q t : Nat}
    (hab : a.AgreesForBaseline b)
    (hop : ∀ o w, b.operand? o = some w → access.operand? o = some w)
    (hh : code.Hosts cfg (piece cfg r l a) pc r q t) :
    code.Performs access env cfg (piece cfg r l a) pc q t (Protocol.run cfg .baseline env b) := by
  match a, b with
  | .store s, .store u =>
    obtain ⟨hin, hnull, hfresh⟩ := hab
    simp only [piece, hin, Store.isElidable_congr hnull hfresh] at hh ⊢
    simp only [Protocol.run, Shortcuts.baseline, Bool.true_and]
    cases hi : u.inHeap with
    | false => exact performs_empty pc q t
    | true =>
      cases he : u.isElidable with
      | true => exact performs_empty pc q t
      | false =>
        simp only [hi, he] at hh
        exact hh.performs_store h hd (hop .base _ rfl) (hop .slot _ rfl) (hop .value _ rfl)
  | .load ld, .load u =>
    obtain ⟨hin, hstrength⟩ := hab
    have hneeds := Load.needsBarrier_congr hin hstrength cfg
    simp only [piece, hneeds, hstrength] at hh ⊢
    simp only [Protocol.run, Shortcuts.baseline, Bool.false_and]
    cases hb : u.needsBarrier cfg with
    | false => exact performs_empty pc q t
    | true =>
      simp only [hb, if_true] at hh
      by_cases hu : u.strength = .unknown
      · simp only [hu, if_true] at hh ⊢
        exact hh.performs_guarded h hd (hop .base _ rfl) (hop .offset _ rfl) (hop .slot _ rfl)
          (hop .value _ rfl)
      · simp only [hu, if_false] at hh ⊢
        exact hh.performs_report h hd (hop .slot _ rfl) (hop .value _ rfl)
  | .arrayCopy c, .arrayCopy d =>
    obtain ⟨hrefs, hfresh⟩ := hab
    simp only [piece, hrefs, hfresh] at hh ⊢
    rw [Protocol.run_arrayCopy]
    cases hr : d.ofReferences && !d.freshTarget && !cfg.noArrayCopy with
    | false => exact performs_empty pc q t
    | true =>
      simp only [hr] at hh
      exact hh.performs_arrayCopy hd (hop .src _ rfl) (hop .dst _ rfl) (hop .count _ rfl)
  | .clone c, .clone d =>
    simp only [Access.AgreesForBaseline] at hab
    simp only [piece, hab] at hh ⊢
    exact hh.performs_clone (hop .base _ rfl) (hop .dst _ rfl) (hop .size _ rfl)

/-! ## The code of one access -/

/-- The code of an access follows the protocol for every access that agrees with it. -/
theorem run_codeOf (h : cfg.unlogBits.logRegion ≤ 60) {a b : Access} (hab : a.AgreesForBaseline b) :
    (codeOf cfg a).run env b = Protocol.run cfg .baseline env b := by
  have hperforms : (codeOf cfg a).Performs b env cfg (piece cfg 0 0 a) 0
      ((piece cfg 0 0 a).instrs.length + 1) (piece cfg 0 0 a).regs
      (Protocol.run cfg .baseline env b) :=
    (codeOf_hosts a).performs h (nodup_boundIn_codeOf a) hab fun _ _ => id
  obtain ⟨visited, hperm, hacts⟩ := hperforms
  have hret : ∀ m, Acts (codeOf cfg a) b env [(piece cfg 0 0 a).instrs.length]
      (0 + (piece cfg 0 0 a).instrs.length) m (pure ()) := by
    intro m
    rw [Nat.zero_add]
    exact .ret (by simp [codeOf])
  have hlen : (visited ++ [(piece cfg 0 0 a).instrs.length]).length =
      (codeOf cfg a).instrs.length := by
    simp [hperm.length_eq, codeOf]
    omega
  have hrun := ((hacts .nothing _ _ hret).sound .nothing Known.isOf_nothing).runs _
    (Nat.le_of_eq hlen)
  rwa [bind_pure_unit] at hrun

/-- An access compiles, and its code follows the protocol whatever access it is run for, as long as
that one agrees with the compiled one. -/
theorem compile_refines_protocol (h : cfg.unlogBits.logRegion ≤ 60) {a b : Access}
    (hab : a.AgreesForBaseline b) :
    ∃ code, compile cfg a = .ok code ∧
      Refines (fun _ env => code.run env b) (fun _ env => Protocol.run cfg .baseline env b) := by
  refine ⟨codeOf cfg a, compile_eq h a, ?_⟩
  exact .of_eq (fun _ => run_codeOf h hab) fun _ he => Protocol.run_total h he .baseline b

/-- Code of a store whose field had to be patched serves another store, to a slot that nobody knew
when it was compiled. -/
theorem compile_refines_protocol_patched :
    ∃ code, compile ⟨true, ⟨0xfffffffffffffff0, 3⟩, false, true, .slotLogging, true, 16⟩
        (.store ⟨0x1000, 0, 0x2000, true, false, true, true⟩) = .ok code ∧
      Refines (fun _ env => code.run env (.store ⟨8, 0x7f38, 0, true, false, true, false⟩))
        (fun _ env => Protocol.run
          ⟨true, ⟨0xfffffffffffffff0, 3⟩, false, true, .slotLogging, true, 16⟩ .baseline env
          (.store ⟨8, 0x7f38, 0, true, false, true, false⟩)) :=
  compile_refines_protocol (by decide) ⟨rfl, rfl, rfl⟩

end HeapBridge.Barrier.Machine
