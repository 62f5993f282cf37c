import HeapBridge.Barrier.Machine
import HeapBridge.Proofs.Barrier.Surroundings

/-!
# What linear code does

`Acts` relates a place in some code, and what is known of the registers there, to all that happens
from there on. Its rules are those of the instructions, read backwards from the return. A derivation
lists the places that may be executed, in the order in which they are reached, and looks only into
registers that were written before. A run with enough steps then does what the derivation says. The
places that it executes (`Executes`) are those of its trail, and all of them were listed.
-/
namespace HeapBridge.Barrier.Machine
variable {σ : Type} {code : Code} {access : Access} {env : Surroundings σ}

/-! ## Registers -/

/-- What is known of the registers: those that a run has written so far, with their words. -/
def Known := Nat → Option Word

namespace Known

/-- Nothing has been written. -/
def nothing : Known := fun _ => none

/-- What is known after a register was written. -/
def put (m : Known) (r : Reg) (w : Word) : Known := fun i => if i = r.index then some w else m i

/-- The word in a register. -/
def get? (m : Known) (r : Reg) : Option Word := m r.index

/-- The word that a source stands for. -/
def read? (m : Known) : Source → Option Word
  | .reg r => m.get? r
  | .imm w => some w

@[simp] theorem get?_put (m : Known) (r s : Reg) (w : Word) :
    (m.put r w).get? s = if s = r then some w else m.get? s := by
  cases r
  cases s
  simp [get?, put]

@[simp] theorem read?_reg (m : Known) (r : Reg) : m.read? (.reg r) = m.get? r := rfl
@[simp] theorem read?_imm (m : Known) (w : Word) : m.read? (.imm w) = some w := rfl

/-- The registers of some code hold what is known of them. -/
structure HoldsIn (m : Known) (code : Code) (rs : Registers) : Prop where
  size_eq : rs.size = code.registers
  get_eq : ∀ r w, m.get? r = some w → rs.get r = .ok w

end Known

/-- Registers with a word put into one of them. -/
def Registers.put (rs : Registers) (r : Reg) (w : Word) : Registers :=
  { rs with value := fun i => if i = r.index then w else rs.value i }

namespace Known.HoldsIn
variable {m : Known} {rs : Registers}

theorem nothing : Known.nothing.HoldsIn code (.zeroed code.registers) := by
  constructor
  · rfl
  · intro r w h
    cases h

theorem put (h : m.HoldsIn code rs) {dst : Reg} (hd : dst.index < code.registers) (w : Word) :
    (m.put dst w).HoldsIn code (rs.put dst w) := by
  constructor
  · exact h.size_eq
  · intro r x hx
    rw [Known.get?_put] at hx
    by_cases hr : r = dst
    · subst hr
      simp only [if_true, Option.some.injEq] at hx
      simp [Registers.get, Registers.put, h.size_eq, hd, hx]
    · have hne : r.index ≠ dst.index := fun e => hr (by cases r; cases dst; simp_all)
      rw [if_neg hr] at hx
      simpa [Registers.get, Registers.put, hne] using h.get_eq r x hx

theorem set_eq (h : m.HoldsIn code rs) {dst : Reg} (hd : dst.index < code.registers) (w : Word) :
    rs.set dst w = .ok (rs.put dst w) := if_pos (h.size_eq ▸ hd)

theorem read_eq (h : m.HoldsIn code rs) {src : Source} {w : Word} (hw : m.read? src = some w) :
    rs.read src = .ok w := by
  cases src with
  | reg r => exact h.get_eq r w hw
  | imm x =>
    cases hw
    rfl

theorem mapM_eq (h : m.HoldsIn code rs) {args : List Reg} {words : List Word}
    (hw : args.mapM m.get? = some words) : args.mapM rs.get = .ok words := by
  induction args generalizing words with
  | nil =>
    cases hw
    rfl
  | cons r args ih =>
    simp only [List.mapM_cons, Option.pure_def, Option.bind_eq_bind, Option.bind_eq_some_iff,
      Option.some.injEq] at hw
    obtain ⟨w, hr, ws, hargs, rfl⟩ := hw
    rw [List.mapM_cons, h.get_eq r w hr, ih hargs]
    rfl

end Known.HoldsIn

/-! ## Rules -/

/-- From `pc` on, with the words `m` in the registers, code acts as `act`. It executes none but the
instructions at `places`, in this order and each at most as often as it is listed. -/
inductive Acts (code : Code) (access : Access) (env : Surroundings σ) :
    List Nat → Nat → Known → Act σ Unit → Prop
  /-- A place that is listed may be left out. -/
  | skip {p places pc m act} (hk : Acts code access env places pc m act) :
    Acts code access env (p :: places) pc m act
  | ret {places pc m} (h : code.instrs[pc]? = some .ret) :
    Acts code access env (pc :: places) pc m (pure ())
  | arg {places pc m act dst operand w} (h : code.instrs[pc]? = some (.arg dst operand))
    (hw : access.operand? operand = some w) (hd : dst.index < code.registers)
    (hk : Acts code access env places (pc + 1) (m.put dst w) act) :
    Acts code access env (pc :: places) pc m act
  | move {places pc m act dst src w} (h : code.instrs[pc]? = some (.move dst src))
    (hw : m.read? src = some w) (hd : dst.index < code.registers)
    (hk : Acts code access env places (pc + 1) (m.put dst w) act) :
    Acts code access env (pc :: places) pc m act
  | shiftRight {places pc m act dst amount w n x}
    (h : code.instrs[pc]? = some (.shiftRight dst amount)) (hw : m.get? dst = some w)
    (hn : m.read? amount = some n) (hx : Word.shiftRight w n = .ok x)
    (hd : dst.index < code.registers)
    (hk : Acts code access env places (pc + 1) (m.put dst x) act) :
    Acts code access env (pc :: places) pc m act
  | mask {places pc m act dst bits w b} (h : code.instrs[pc]? = some (.mask dst bits))
    (hw : m.get? dst = some w) (hb : m.read? bits = some b) (hd : dst.index < code.registers)
    (hk : Acts code access env places (pc + 1) (m.put dst (w &&& b)) act) :
    Acts code access env (pc :: places) pc m act
  | loadByte {places pc m k dst base index b i}
    (h : code.instrs[pc]? = some (.loadByte dst base index)) (hb : m.get? base = some b)
    (hi : m.get? index = some i) (hd : dst.index < code.registers)
    (hk : ∀ byte, Acts code access env places (pc + 1) (m.put dst byte.toUInt64) (k byte)) :
    Acts code access env (pc :: places) pc m (env.loadMetadata (b + i) >>= k)
  | loadFlag {places pc m k dst} (h : code.instrs[pc]? = some (.loadFlag dst))
    (hd : dst.index < code.registers)
    (hk : ∀ flag, Acts code access env places (pc + 1) (m.put dst flag.toUInt64) (k flag)) :
    Acts code access env (pc :: places) pc m (env.loadFlag >>= k)
  | isReference {places pc m k dst object o}
    (h : code.instrs[pc]? = some (.isReference dst object)) (ho : m.get? object = some o)
    (hd : dst.index < code.registers)
    (hk : ∀ b, Acts code access env places (pc + 1) (m.put dst (if b then 1 else 0)) (k b)) :
    Acts code access env (pc :: places) pc m (env.isReference o >>= k)
  | branch {places pc m act cond lhs rhs target l r}
    (h : code.instrs[pc]? = some (.branch cond lhs rhs target)) (hl : m.get? lhs = some l)
    (hr : m.read? rhs = some r)
    (ht : cond.holds l r = true → Acts code access env places (code.placeOf target) m act)
    (hf : cond.holds l r = false → Acts code access env places (pc + 1) m act) :
    Acts code access env (pc :: places) pc m act
  | jump {places pc m act target} (h : code.instrs[pc]? = some (.jump target))
    (hk : Acts code access env places (code.placeOf target) m act) :
    Acts code access env (pc :: places) pc m act
  | bind {places pc m act label} (h : code.instrs[pc]? = some (.bind label))
    (hk : Acts code access env places (pc + 1) m act) :
    Acts code access env (pc :: places) pc m act
  | call {places pc m act entry args words c} (h : code.instrs[pc]? = some (.call entry args))
    (ha : args.mapM m.get? = some words) (hc : entry.bind? words = some c)
    (hk : Acts code access env places (pc + 1) m act) :
    Acts code access env (pc :: places) pc m (env.call c >>= fun _ => act)
  | copy {places pc m act src dst size s d n} (h : code.instrs[pc]? = some (.copy src dst size))
    (hs : m.get? src = some s) (hd : m.get? dst = some d) (hn : m.get? size = some n)
    (hk : Acts code access env places (pc + 1) m act) :
    Acts code access env (pc :: places) pc m (env.copy s d n >>= fun _ => act)
  | fence {places pc m act} (h : code.instrs[pc]? = some .fence)
    (hk : Acts code access env places (pc + 1) m act) :
    Acts code access env (pc :: places) pc m (env.fence >>= fun _ => act)

theorem Acts.skipAll {places : List Nat} {pc : Nat} {m : Known} {act : Act σ Unit}
    (h : Acts code access env places pc m act) (ps : List Nat) :
    Acts code access env (ps ++ places) pc m act := by
  induction ps with
  | nil => exact h
  | cons p ps ih => exact .skip ih

/-! ## Trails -/

/-- The registers that a source looks into. -/
def Source.reads : Source → List Reg
  | .reg r => [r]
  | .imm _ => []

namespace Instr

/-- The registers that an instruction looks into. -/
def reads : Instr → List Reg
  | .move _ src => src.reads
  | .shiftRight dst amount => dst :: amount.reads
  | .mask dst bits => dst :: bits.reads
  | .loadByte _ base index => [base, index]
  | .isReference _ object => [object]
  | .branch _ lhs rhs _ => lhs :: rhs.reads
  | .call _ args => args
  | .copy src dst size => [src, dst, size]
  | .arg .. | .loadFlag _ | .jump _ | .bind _ | .fence | .ret => []

/-- The register that an instruction puts a word into, if there is one. -/
def writes : Instr → List Reg
  | .arg dst _ | .move dst _ | .shiftRight dst _ | .mask dst _ | .loadByte dst _ _ | .loadFlag dst
  | .isReference dst _ => [dst]
  | .branch .. | .jump _ | .bind _ | .call .. | .copy .. | .fence | .ret => []

end Instr

/-- The places that a run executes from `pc` on, in order, as far as it gets in `fuel` steps. -/
def trail (code : Code) (access : Access) (env : Surroundings σ) :
    Nat → Nat → Registers → σ → List Nat
  | 0, _, _, _ => []
  | fuel + 1, pc, rs, s =>
    pc :: match step code access env pc rs s with
      | .ok (some (next, rs')) t => trail code access env fuel next rs' t
      | _ => []

theorem trail_of_step {α : Type} {pc : Nat} {rs : Registers} {ask : Act σ α} {next : α → Nat}
    {rs' : α → Registers}
    (h : step code access env pc rs = ask >>= fun a => pure (some (next a, rs' a))) (fuel : Nat)
    (s : σ) :
    trail code access env (fuel + 1) pc rs s =
      pc :: match ask s with
        | .ok a t => trail code access env fuel (next a) (rs' a) t
        | .error _ _ => [] := by
  rw [trail, h]
  cases hask : ask s with
  | ok a t =>
    rw [Act.bind_of_ok hask]
    rfl
  | error e t => rw [Act.bind_of_error hask]

/-- A run from `pc` on that comes to its end or to a fault: the places that it executes, in order,
and what it comes to. -/
inductive Executes (code : Code) (access : Access) (env : Surroundings σ) :
    Nat → Registers → σ → List Nat → EStateM.Result Fault σ Unit → Prop
  | ends {pc rs s t} (h : step code access env pc rs s = .ok none t) :
    Executes code access env pc rs s [pc] (.ok () t)
  | fails {pc rs s e t} (h : step code access env pc rs s = .error e t) :
    Executes code access env pc rs s [pc] (.error e t)
  | goesOn {pc rs s next rs' t places r}
    (h : step code access env pc rs s = .ok (some (next, rs')) t)
    (hk : Executes code access env next rs' t places r) :
    Executes code access env pc rs s (pc :: places) r

namespace Executes
variable {pc : Nat} {rs : Registers} {s : σ} {places : List Nat} {r : EStateM.Result Fault σ Unit}

/-- As many steps as there are places are enough for a run that comes to its end. -/
theorem runFrom_eq (h : Executes code access env pc rs s places r) {fuel : Nat}
    (hfuel : places.length ≤ fuel) : runFrom code access env fuel pc rs s = r := by
  induction h generalizing fuel with
  | ends h =>
    obtain ⟨f, rfl⟩ := Nat.exists_eq_add_of_le' hfuel
    rw [List.length_singleton, runFrom, Act.bind_of_ok h]
    rfl
  | fails h =>
    obtain ⟨f, rfl⟩ := Nat.exists_eq_add_of_le' hfuel
    rw [List.length_singleton, runFrom, Act.bind_of_error h]
  | @goesOn pc rs s next rs' t places r h _ ih =>
    obtain ⟨f, rfl⟩ := Nat.exists_eq_add_of_le' hfuel
    rw [List.length_cons, ← Nat.add_assoc, runFrom, Act.bind_of_ok h]
    exact ih (Nat.le_add_left places.length f)

/-- The trail is where the run executes, as far as it gets. -/
theorem trail_eq (h : Executes code access env pc rs s places r) (fuel : Nat) :
    trail code access env fuel pc rs s = places.take fuel := by
  induction h generalizing fuel with
  | ends h | fails h =>
    cases fuel with
    | zero => rfl
    | succ fuel => rw [trail, h, List.take_succ_cons, List.take_nil]
  | goesOn h _ ih =>
    cases fuel with
    | zero => rfl
    | succ fuel =>
      rw [trail, h, List.take_succ_cons]
      exact congrArg (_ :: ·) (ih fuel)

end Executes

/-- A run that takes fewer steps than it may executes the places of its trail, and no others. -/
theorem executes_of_length_trail_lt {fuel pc : Nat} {rs : Registers} {s : σ}
    (h : (trail code access env fuel pc rs s).length < fuel) :
    Executes code access env pc rs s (trail code access env fuel pc rs s)
      (runFrom code access env fuel pc rs s) := by
  induction fuel generalizing pc rs s with
  | zero => exact absurd h (Nat.not_lt_zero _)
  | succ fuel ih =>
    cases hstep : step code access env pc rs s with
    | error e t =>
      rw [runFrom, trail, Act.bind_of_error hstep, hstep]
      exact .fails hstep
    | ok next t =>
      rw [trail, hstep] at h
      rw [runFrom, trail, Act.bind_of_ok hstep, hstep]
      cases next with
      | none => exact .ends hstep
      | some next => exact .goesOn hstep (ih (Nat.lt_of_succ_lt_succ h))

/-- Every place of a trail has an instruction. It looks only into registers that are `written` or
that an instruction before it writes, and writes only to registers that the code has. -/
def Code.Supplies (code : Code) : List Reg → List Nat → Prop
  | _, [] => True
  | written, pc :: places =>
    ∃ i, code.instrs[pc]? = some i ∧ (∀ r ∈ i.reads, r ∈ written) ∧
      (∀ r ∈ i.writes, r.index < code.registers) ∧ code.Supplies (written ++ i.writes) places

namespace Known

/-- Only what was written is known. -/
def IsOf (m : Known) (written : List Reg) : Prop := ∀ r w, m.get? r = some w → r ∈ written

theorem isOf_nothing : Known.nothing.IsOf [] := nofun

namespace IsOf
variable {m : Known} {written : List Reg}

theorem put (h : m.IsOf written) (dst : Reg) (w : Word) : (m.put dst w).IsOf (written ++ [dst]) := by
  intro r x hx
  rw [Known.get?_put] at hx
  by_cases hr : r = dst
  · exact List.mem_append_right _ (List.mem_singleton.mpr hr)
  · rw [if_neg hr] at hx
    exact List.mem_append_left _ (h r x hx)

theorem same (h : m.IsOf written) : m.IsOf (written ++ []) := by rwa [List.append_nil]

theorem source (h : m.IsOf written) {src : Source} {w : Word} (hw : m.read? src = some w) :
    ∀ r ∈ src.reads, r ∈ written := by
  cases src with
  | reg r => simpa [Source.reads] using h r w hw
  | imm _ => nofun

theorem args (h : m.IsOf written) {rs : List Reg} {words : List Word}
    (hw : rs.mapM m.get? = some words) : ∀ r ∈ rs, r ∈ written := by
  induction rs generalizing words with
  | nil => nofun
  | cons r rs ih =>
    simp only [List.mapM_cons, Option.pure_def, Option.bind_eq_bind, Option.bind_eq_some_iff,
      Option.some.injEq] at hw
    obtain ⟨w, hr, ws, hrs, -⟩ := hw
    intro x hx
    obtain rfl | hx := List.mem_cons.mp hx
    · exact h x w hr
    · exact ih hrs x hx

end IsOf
end Known

/-! ## Soundness -/

/-- From `pc` on, code acts as `act` if it may execute as many instructions as there are `places`.
Its trail is one of these places, in their order, and is supplied by what is `written`. -/
structure Sound (code : Code) (access : Access) (env : Surroundings σ) (written : List Reg)
    (places : List Nat) (pc : Nat) (rs : Registers) (act : Act σ Unit) : Prop where
  runs : ∀ fuel, places.length ≤ fuel → runFrom code access env fuel pc rs = act
  within : ∀ fuel s, (trail code access env fuel pc rs s).Sublist places
  supplied : ∀ fuel s, code.Supplies written (trail code access env fuel pc rs s)

namespace Sound
variable {written : List Reg} {places : List Nat} {pc : Nat} {rs : Registers} {act : Act σ Unit}

/-- Code that acts as `act` comes to what that comes to, and its trail is all that it executes. -/
theorem executes (h : Sound code access env written places pc rs act) (s : σ) {fuel : Nat}
    (hfuel : places.length ≤ fuel) :
    Executes code access env pc rs s (trail code access env fuel pc rs s) (act s) := by
  have hlen : (trail code access env (fuel + 1) pc rs s).length ≤ fuel :=
    Nat.le_trans (h.within (fuel + 1) s).length_le hfuel
  have hex := executes_of_length_trail_lt (Nat.lt_succ_of_le hlen)
  have htrail := (hex.trail_eq fuel).trans (List.take_of_length_le hlen)
  rwa [h.runs (fuel + 1) (Nat.le_succ_of_le hfuel), ← htrail] at hex

theorem skip (h : Sound code access env written places pc rs act) (p : Nat) :
    Sound code access env written (p :: places) pc rs act where
  runs fuel hfuel := h.runs fuel (Nat.le_of_succ_le hfuel)
  within fuel s := (h.within fuel s).cons p
  supplied := h.supplied

theorem ret (h : code.instrs[pc]? = some .ret) :
    Sound code access env written (pc :: places) pc rs (pure ()) := by
  have hstep : step code access env pc rs = pure none := by simp [step, h]
  constructor
  · intro fuel hfuel
    obtain ⟨f, rfl⟩ := Nat.exists_eq_add_of_le' hfuel
    rw [List.length_cons, ← Nat.add_assoc, runFrom, hstep, pure_bind]
  · intro fuel s
    cases fuel with
    | zero => exact List.nil_sublist _
    | succ fuel =>
      rw [trail, hstep]
      exact (List.nil_sublist _).cons_cons pc
  · intro fuel s
    cases fuel with
    | zero => trivial
    | succ fuel =>
      rw [trail, hstep]
      exact ⟨.ret, h, nofun, nofun, trivial⟩

/-- A step that asks the surroundings for something, and what follows it. -/
theorem of_step {α : Type} {i : Instr} {ask : Act σ α} {next : α → Nat} {rs' : α → Registers}
    {k : α → Act σ Unit} (h : code.instrs[pc]? = some i) (hreads : ∀ r ∈ i.reads, r ∈ written)
    (hwrites : ∀ r ∈ i.writes, r.index < code.registers)
    (hstep : step code access env pc rs = ask >>= fun a => pure (some (next a, rs' a)))
    (hk : ∀ a, Sound code access env (written ++ i.writes) places (next a) (rs' a) (k a)) :
    Sound code access env written (pc :: places) pc rs (ask >>= k) := by
  constructor
  · intro fuel hfuel
    obtain ⟨f, rfl⟩ := Nat.exists_eq_add_of_le' hfuel
    rw [List.length_cons, ← Nat.add_assoc, runFrom, hstep, bind_assoc]
    congr 1
    funext a
    rw [pure_bind]
    exact (hk a).runs _ (Nat.le_add_left _ _)
  · intro fuel s
    cases fuel with
    | zero => exact List.nil_sublist _
    | succ fuel =>
      rw [trail_of_step hstep]
      cases ask s with
      | ok a t => exact ((hk a).within fuel t).cons_cons pc
      | error f t => exact (List.nil_sublist _).cons_cons pc
  · intro fuel s
    cases fuel with
    | zero => trivial
    | succ fuel =>
      rw [trail_of_step hstep]
      refine ⟨i, h, hreads, hwrites, ?_⟩
      cases ask s with
      | ok a t => exact (hk a).supplied fuel t
      | error f t => trivial

/-- A step that asks for nothing, and what follows it. -/
theorem of_step_pure {i : Instr} {next : Nat} {rs' : Registers} (h : code.instrs[pc]? = some i)
    (hreads : ∀ r ∈ i.reads, r ∈ written) (hwrites : ∀ r ∈ i.writes, r.index < code.registers)
    (hstep : step code access env pc rs = pure (some (next, rs')))
    (hk : Sound code access env (written ++ i.writes) places next rs' act) :
    Sound code access env written (pc :: places) pc rs act := by
  have hask : step code access env pc rs = (pure () : Act σ Unit) >>= fun _ =>
      pure (some (next, rs')) := by
    rw [hstep, pure_bind]
  have hsound := of_step h hreads hwrites hask fun _ => hk
  rwa [pure_bind] at hsound

end Sound

/-- Code does what it was found to do. -/
theorem Acts.sound {places : List Nat} {pc : Nat} {m : Known} {act : Act σ Unit}
    (h : Acts code access env places pc m act) {written : List Reg} {rs : Registers}
    (hm : m.HoldsIn code rs) (hw : m.IsOf written) :
    Sound code access env written places pc rs act := by
  induction h generalizing written rs with
  | skip _ ih => exact (ih hm hw).skip _
  | ret h => exact .ret h
  | @arg _ _ _ _ dst _ w h hop hd _ ih =>
    refine .of_step_pure h nofun ?_ ?_ (ih (hm.put hd w) (hw.put dst w))
    · simpa [Instr.writes] using hd
    · simp [step, h, hop, hm.set_eq hd]
  | @move _ _ _ _ dst _ w h hsrc hd _ ih =>
    refine .of_step_pure h (hw.source hsrc) ?_ ?_ (ih (hm.put hd w) (hw.put dst w))
    · simpa [Instr.writes] using hd
    · simp [step, h, hm.read_eq hsrc, hm.set_eq hd]
  | @shiftRight _ _ _ _ dst _ _ _ x h hx hn hshift hd _ ih =>
    refine .of_step_pure h ?_ ?_ ?_ (ih (hm.put hd x) (hw.put dst x))
    · exact List.forall_mem_cons.mpr ⟨hw _ _ hx, hw.source hn⟩
    · simpa [Instr.writes] using hd
    · simp [step, h, hm.get_eq _ _ hx, hm.read_eq hn, hshift, hm.set_eq hd]
  | @mask _ _ _ _ dst _ w b h hx hb hd _ ih =>
    refine .of_step_pure h ?_ ?_ ?_ (ih (hm.put hd (w &&& b)) (hw.put dst _))
    · exact List.forall_mem_cons.mpr ⟨hw _ _ hx, hw.source hb⟩
    · simpa [Instr.writes] using hd
    · simp [step, h, hm.get_eq _ _ hx, hm.read_eq hb, hm.set_eq hd]
  | @loadByte _ _ _ _ dst _ _ _ _ h hb hi hd _ ih =>
    refine .of_step h ?_ ?_ ?_ fun byte => ih byte (hm.put hd _) (hw.put dst _)
    · simpa [Instr.reads] using ⟨hw _ _ hb, hw _ _ hi⟩
    · simpa [Instr.writes] using hd
    · simp [step, h, hm.get_eq _ _ hb, hm.get_eq _ _ hi, hm.set_eq hd]
  | @loadFlag _ _ _ _ dst h hd _ ih =>
    refine .of_step h nofun ?_ ?_ fun flag => ih flag (hm.put hd _) (hw.put dst _)
    · simpa [Instr.writes] using hd
    · simp [step, h, hm.set_eq hd]
  | @isReference _ _ _ _ dst _ _ h ho hd _ ih =>
    refine .of_step h ?_ ?_ ?_ fun b => ih b (hm.put hd _) (hw.put dst _)
    · simpa [Instr.reads] using hw _ _ ho
    · simpa [Instr.writes] using hd
    · simp [step, h, hm.get_eq _ _ ho, hm.set_eq hd]
  | @branch _ _ _ _ cond lhs rhs _ l r h hl hr _ _ iht ihf =>
    have hreads : ∀ x ∈ lhs :: rhs.reads, x ∈ written :=
      List.forall_mem_cons.mpr ⟨hw _ _ hl, hw.source hr⟩
    cases hc : cond.holds l r with
    | true =>
      refine .of_step_pure h hreads nofun ?_ (iht hc hm hw.same)
      simp [step, h, hm.get_eq _ _ hl, hm.read_eq hr, hc]
    | false =>
      refine .of_step_pure h hreads nofun ?_ (ihf hc hm hw.same)
      simp [step, h, hm.get_eq _ _ hl, hm.read_eq hr, hc]
  | jump h _ ih => exact .of_step_pure h nofun nofun (by simp [step, h]) (ih hm hw.same)
  | bind h _ ih => exact .of_step_pure h nofun nofun (by simp [step, h]) (ih hm hw.same)
  | call h ha hc _ ih =>
    refine .of_step h (hw.args ha) nofun ?_ fun _ => ih hm hw.same
    simp [step, h, hm.mapM_eq ha, hc]
  | copy h hs hd hn _ ih =>
    refine .of_step h ?_ nofun ?_ fun _ => ih hm hw.same
    · simpa [Instr.reads] using ⟨hw _ _ hs, hw _ _ hd, hw _ _ hn⟩
    · simp [step, h, hm.get_eq _ _ hs, hm.get_eq _ _ hd, hm.get_eq _ _ hn]
  | fence h _ ih => exact .of_step h nofun nofun (by simp [step, h]) fun _ => ih hm hw.same

end HeapBridge.Barrier.Machine
