import HeapBridge.Proofs.World.Walk
import Mathlib.Logic.Function.Basic

/-!
# Threads that cross into the virtual machine

A thread that enters the virtual machine is given the number of the state it came from, and gives it
back when it leaves; a thread that blocks for a collection is put back into the state it was blocked
in. Such calls nest, and any number of threads make them in any order. What a thread keeps for the
calls it is in says where it is and brings it back to where it started, call by call.
-/
namespace HeapBridge.World
variable {w w' w₀ : World} {t : Thread} {s : ThreadState} {code : Int}

/-! ## One call -/

/-- A thread that the virtual machine knows does something. -/
def actAs {α : Type} (t : Thread) (act : Act World α) : Act World α := do
  attach t
  act

/-- A thread is put into another state, and the virtual machine is told. -/
def relocated (t : Thread) (s : ThreadState) (w : World) : World :=
  { w with trace := w.trace ++ [.setState t s], host := w.host.setState t s }

/-- A thread is the one that calls. -/
def calledBy (t : Thread) (w : World) : World := { w with thread := t }

@[simp] theorem host_calledBy (t : Thread) (w : World) : (calledBy t w).host = w.host := rfl
@[simp] theorem thread_calledBy (t : Thread) (w : World) : (calledBy t w).thread = t := rfl
@[simp] theorem host_relocated (t : Thread) (s : ThreadState) (w : World) :
    (relocated t s w).host = w.host.setState t s := rfl

theorem actAs_eq {α : Type} (t : Thread) (act : Act World α) (w : World) :
    actAs t act w = act (calledBy t w) := rfl

theorem listedHost_of_broken (h : w.host.listBroken = true) :
    listedHost w = .error .threadListBroken w := by
  change (Act.lift w.host.listed : Act World StandIn.Host) w = _
  rw [StandIn.Host.listed, if_pos h]
  rfl

theorem enterVm_eq (hintact : w.host.listBroken = false) :
    enterVm w = if w.host.isApplicationThread w.thread then
        .ok (w.host.state w.thread).code (relocated w.thread .inVm w)
      else .error (.enterByOther w.thread) w := by
  rw [enterVm, Act.get_bind, Act.bind_of_ok (listedHost_of_intact hintact)]
  cases w.host.isApplicationThread w.thread <;> rfl

theorem leaveVm_eq (hintact : w.host.listBroken = false) (code : Int) :
    leaveVm code w =
      if w.host.isApplicationThread w.thread then
        if w.host.state w.thread = .inVm then
          match ThreadState.ofCode? code with
          | none => .error (.noThreadState code) w
          | some s => .ok () (relocated w.thread s w)
        else .error .leaveUnmatched w
      else .error .leaveByOther w := by
  rw [leaveVm, Act.get_bind, Act.bind_of_ok (listedHost_of_intact hintact)]
  cases w.host.isApplicationThread w.thread
  · rfl
  · by_cases hstate : w.host.state w.thread = .inVm
    · simp only [hstate, if_true]
      cases ThreadState.ofCode? code <;> rfl
    · simp only [if_neg hstate, if_true]
      rfl

theorem beginBlock_eq (hintact : w.host.listBroken = false) (t : Thread) :
    beginBlock t w = if w.host.isApplicationThread t then
        .ok (some (w.host.state t)) (relocated t .blocked w)
      else .ok none w := by
  rw [beginBlock, Act.bind_of_ok (listedHost_of_intact hintact)]
  cases w.host.isApplicationThread t <;> rfl

/-- A thread that cannot enter or leave stays where it is. -/
theorem enterVm_error {f : Fault} (h : enterVm w = .error f w') : w' = w := by
  cases hintact : w.host.listBroken
  · rw [enterVm_eq hintact] at h
    split at h <;> cases h
    rfl
  · rw [enterVm, Act.get_bind, Act.bind_of_error (listedHost_of_broken hintact)] at h
    cases h
    rfl

theorem leaveVm_error {f : Fault} (h : leaveVm code w = .error f w') : w' = w := by
  cases hintact : w.host.listBroken
  · rw [leaveVm_eq hintact] at h
    split at h
    case isTrue =>
      split at h
      case isTrue =>
        split at h <;> cases h
        rfl
      case isFalse =>
        cases h
        rfl
    case isFalse =>
      cases h
      rfl
  · rw [leaveVm, Act.get_bind, Act.bind_of_error (listedHost_of_broken hintact)] at h
    cases h
    rfl

/-! ## Nested calls -/

/-- What a thread keeps for the end of a call that it is in. -/
inductive Passage
  /-- It is in the virtual machine, and gives a number back when it leaves. -/
  | visit (code : Int)
  /-- It is blocked for a collection, and is put back into a state if it has one. -/
  | block (previous : Option ThreadState)
deriving DecidableEq

variable {kept : Thread → List Passage} {ps qs : List Passage}

/-- Whether a thread is in the middle of being blocked for a collection, and makes no other call. -/
def isBlocked : List Passage → Bool
  | .block _ :: _ => true
  | _ => false

/-- A call of a thread begins or ends, as the calls that the thread is in have it. -/
inductive Crossing (t : Thread) (w : World) : List Passage → List Passage → World → Prop
  | enter {ps : List Passage} {code : Int} {w' : World} (hfree : isBlocked ps = false)
    (hcall : actAs t enterVm w = .ok code w') : Crossing t w ps (.visit code :: ps) w'
  | leave {ps : List Passage} {code : Int} {w' : World}
    (hcall : actAs t (leaveVm code) w = .ok () w') : Crossing t w (.visit code :: ps) ps w'
  | block {ps : List Passage} {previous : Option ThreadState} {w' : World}
    (hfree : isBlocked ps = false) (hcall : actAs t (beginBlock t) w = .ok previous w') :
    Crossing t w ps (.block previous :: ps) w'
  | unblock {ps : List Passage} {previous : Option ThreadState} {w' : World}
    (hcall : actAs t (endBlock t previous) w = .ok () w') :
    Crossing t w (.block previous :: ps) ps w'

/-- What else happens, as long as it does not move threads. -/
structure Aloof (w w' : World) : Prop where
  threads : w'.host.threads = w.host.threads
  listBroken : w'.host.listBroken = w.host.listBroken
  state : w'.host.state = w.host.state

/-- Calls of any number of threads in any order, among other things, with what every thread keeps
for the calls it is in. -/
inductive Crosses (w₀ : World) : (Thread → List Passage) → World → Prop
  | start : Crosses w₀ (fun _ => []) w₀
  | call {kept : Thread → List Passage} {w w' : World} {ps : List Passage} (t : Thread)
    (h : Crosses w₀ kept w) (hcall : Crossing t w (kept t) ps w') :
    Crosses w₀ (Function.update kept t ps) w'
  | meanwhile {kept : Thread → List Passage} {w w' : World} (h : Crosses w₀ kept w)
    (haloof : Aloof w w') : Crosses w₀ kept w'

/-- Where a thread is that started in a state and keeps something for the calls it is in. -/
def stateIn (s : ThreadState) : List Passage → ThreadState
  | [] => s
  | .visit _ :: _ => .inVm
  | .block (some _) :: _ => .blocked
  | .block none :: ps => stateIn s ps

/-- What a thread keeps brings it back to where it was before each of its calls. -/
inductive Restores (isApplication : Bool) (s : ThreadState) : List Passage → Prop
  | nil : Restores isApplication s []
  | visit {ps : List Passage} (happ : isApplication = true) (hfree : isBlocked ps = false)
    (h : Restores isApplication s ps) :
    Restores isApplication s (.visit (stateIn s ps).code :: ps)
  | block {ps : List Passage} (hfree : isBlocked ps = false) (h : Restores isApplication s ps) :
    Restores isApplication s
      (.block (if isApplication then some (stateIn s ps) else none) :: ps)

/-- Every thread is where its calls have brought it, and what it keeps for them brings it back. -/
structure Located (w₀ : World) (kept : Thread → List Passage) (w : World) : Prop where
  threads : w.host.threads = w₀.host.threads
  intact : w.host.listBroken = false
  state : ∀ t, w.host.state t = stateIn (w₀.host.state t) (kept t)
  restores : ∀ t, Restores (w₀.host.isApplicationThread t) (w₀.host.state t) (kept t)

namespace Located

theorem isApplicationThread_eq (h : Located w₀ kept w) (t : Thread) :
    w.host.isApplicationThread t = w₀.host.isApplicationThread t := by
  rw [StandIn.Host.isApplicationThread, h.threads, StandIn.Host.isApplicationThread]

/-- A thread keeps something else and is where that says, and no other thread notices. -/
theorem move (h : Located w₀ kept w) (hthreads : w'.host.threads = w.host.threads)
    (hintact : w'.host.listBroken = w.host.listBroken)
    (hself : w'.host.state t = stateIn (w₀.host.state t) ps)
    (hothers : ∀ x, x ≠ t → w'.host.state x = w.host.state x)
    (hps : Restores (w₀.host.isApplicationThread t) (w₀.host.state t) ps) :
    Located w₀ (Function.update kept t ps) w' := by
  refine ⟨hthreads.trans h.threads, hintact.trans h.intact, ?_, ?_⟩
  · intro x
    by_cases hx : x = t
    · subst hx
      rw [Function.update_self, hself]
    · rw [Function.update_of_ne hx, hothers x hx, h.state x]
  · intro x
    by_cases hx : x = t
    · subst hx
      rw [Function.update_self]
      exact hps
    · rw [Function.update_of_ne hx]
      exact h.restores x

/-! What comes of each call. -/

theorem enterVm_eq (h : Located w₀ kept w) (t : Thread) :
    actAs t enterVm w = if w₀.host.isApplicationThread t then
        .ok (stateIn (w₀.host.state t) (kept t)).code (relocated t .inVm (calledBy t w))
      else .error (.enterByOther t) (calledBy t w) := by
  rw [actAs_eq, World.enterVm_eq (w := calledBy t w) h.intact]
  simp only [host_calledBy, thread_calledBy, h.isApplicationThread_eq, h.state]

theorem leaveVm_eq (h : Located w₀ kept w) (hkept : kept t = .visit code :: ps) :
    actAs t (leaveVm code) w =
      .ok () (relocated t (stateIn (w₀.host.state t) ps) (calledBy t w)) := by
  have hstate := h.state t
  have hrestores := h.restores t
  rw [hkept] at hstate hrestores
  cases hrestores with
  | visit happ _ _ =>
    rw [actAs_eq, World.leaveVm_eq (w := calledBy t w) h.intact]
    simp only [host_calledBy, thread_calledBy, h.isApplicationThread_eq, happ, if_true, hstate,
      stateIn, ThreadState.ofCode?_code]

theorem beginBlock_eq (h : Located w₀ kept w) (t : Thread) :
    actAs t (beginBlock t) w = if w₀.host.isApplicationThread t then
        .ok (some (stateIn (w₀.host.state t) (kept t))) (relocated t .blocked (calledBy t w))
      else .ok none (calledBy t w) := by
  rw [actAs_eq, World.beginBlock_eq (w := calledBy t w) h.intact]
  simp only [host_calledBy, h.isApplicationThread_eq, h.state]

theorem endBlock_eq (h : Located w₀ kept w) {previous : Option ThreadState}
    (hkept : kept t = .block previous :: ps) :
    actAs t (endBlock t previous) w = .ok () (if w₀.host.isApplicationThread t then
        relocated t (stateIn (w₀.host.state t) ps) (calledBy t w)
      else (calledBy t w)) := by
  have hrestores := h.restores t
  rw [hkept] at hrestores
  cases hrestores with
  | block _ _ => cases w₀.host.isApplicationThread t <;> rfl

theorem relocate (h : Located w₀ kept w) (hself : s = stateIn (w₀.host.state t) ps)
    (hps : Restores (w₀.host.isApplicationThread t) (w₀.host.state t) ps) :
    Located w₀ (Function.update kept t ps) (relocated t s (calledBy t w)) := by
  refine h.move rfl rfl ?_ ?_ hps
  · rw [host_relocated, StandIn.Host.state_setState, if_pos rfl, hself]
  · intro x hx
    rw [host_relocated, StandIn.Host.state_setState, if_neg hx, host_calledBy]

theorem call (h : Located w₀ kept w) (hcall : Crossing t w (kept t) ps w') :
    Located w₀ (Function.update kept t ps) w' := by
  have hrestores := h.restores t
  have hstate := h.state t
  generalize hkept : kept t = qs at hcall
  cases hcall with
  | enter hfree hcall =>
    rw [h.enterVm_eq] at hcall
    split at hcall
    case isTrue happ =>
      cases hcall
      rw [hkept] at hrestores ⊢
      exact h.relocate rfl (.visit happ hfree hrestores)
    case isFalse => cases hcall
  | leave hcall =>
    rw [h.leaveVm_eq hkept] at hcall
    cases hcall
    rw [hkept] at hrestores
    cases hrestores with
    | visit _ _ hrestores => exact h.relocate rfl hrestores
  | block hfree hcall =>
    rw [h.beginBlock_eq] at hcall
    rw [hkept] at hrestores hcall
    have hblock := Restores.block hfree hrestores
    split at hcall
    case isTrue happ =>
      cases hcall
      rw [if_pos happ] at hblock
      exact h.relocate rfl hblock
    case isFalse hother =>
      cases hcall
      rw [if_neg hother] at hblock
      exact h.move rfl rfl (hkept ▸ hstate) (fun _ _ => rfl) hblock
  | unblock hcall =>
    rw [h.endBlock_eq hkept] at hcall
    cases hcall
    rw [hkept] at hrestores hstate
    cases hrestores with
    | block _ hrestores =>
      split
      case isTrue => exact h.relocate rfl hrestores
      case isFalse hother =>
        rw [if_neg hother] at hstate
        exact h.move rfl rfl hstate (fun _ _ => rfl) hrestores

theorem meanwhile (h : Located w₀ kept w) (haloof : Aloof w w') : Located w₀ kept w' where
  threads := haloof.threads.trans h.threads
  intact := haloof.listBroken.trans h.intact
  state t := by rw [haloof.state, h.state]
  restores := h.restores

end Located

theorem Crosses.located (hintact : w₀.host.listBroken = false) (h : Crosses w₀ kept w) :
    Located w₀ kept w := by
  induction h with
  | start => exact ⟨rfl, hintact, fun _ => rfl, fun _ => .nil⟩
  | call t _ hcall ih => exact ih.call hcall
  | meanwhile _ haloof ih => exact ih.meanwhile haloof

/-! ## Back again -/

/-- A thread that is in a call and not blocked is in the virtual machine. -/
theorem stateIn_eq_inVm (hps : ps ≠ []) (hfree : isBlocked ps = false) (s : ThreadState) :
    stateIn s ps = .inVm := by
  cases ps with
  | nil => exact absurd rfl hps
  | cons p ps =>
    cases p with
    | visit code => rfl
    | block previous => cases hfree

/-- What threads can rely on between calls. -/
structure Restored (w₀ : World) (kept : Thread → List Passage) (w : World) : Prop where
  /-- A thread that is in no call is where it started. -/
  back : ∀ t, kept t = [] → w.host.state t = w₀.host.state t
  /-- A thread that is in a call and not blocked is in the virtual machine. -/
  inVm : ∀ t, kept t ≠ [] → isBlocked (kept t) = false → w.host.state t = .inVm
  /-- An application thread can enter the virtual machine, and any thread can block. -/
  begins : ∀ t, isBlocked (kept t) = false →
    (w₀.host.isApplicationThread t = true →
      ∃ code w', Crossing t w (kept t) (.visit code :: kept t) w') ∧
      ∃ previous w', Crossing t w (kept t) (.block previous :: kept t) w'
  /-- The call that a thread entered last can end. -/
  ends : ∀ t p ps, kept t = p :: ps → ∃ w', Crossing t w (kept t) ps w'
  /-- A call moves no other thread. -/
  others : ∀ t ps w', Crossing t w (kept t) ps w' → ∀ x, x ≠ t → w'.host.state x = w.host.state x
  /-- Entering fails for other threads only. -/
  enterFails : ∀ t, (∃ f w', actAs t enterVm w = .error f w') ↔
    w₀.host.isApplicationThread t = false
  /-- Leaving fails for other threads, out of the virtual machine and with an unknown number. -/
  leaveFails : ∀ t code, (∃ f w', actAs t (leaveVm code) w = .error f w') ↔
    w₀.host.isApplicationThread t = false ∨ w.host.state t ≠ .inVm ∨
      ThreadState.ofCode? code = none
  /-- Where it fails, no thread is moved. -/
  stays : ∀ t f w', (actAs t enterVm w = .error f w' ∨
    ∃ code, actAs t (leaveVm code) w = .error f w') → w'.host.state = w.host.state

namespace Located

theorem ends (h : Located w₀ kept w) {p : Passage} (hkept : kept t = p :: ps) :
    ∃ w', Crossing t w (kept t) ps w' := by
  rw [hkept]
  cases p with
  | visit code => exact ⟨_, .leave (h.leaveVm_eq hkept)⟩
  | block previous => exact ⟨_, .unblock (h.endBlock_eq hkept)⟩

theorem enterFails (h : Located w₀ kept w) (t : Thread) :
    (∃ f w', actAs t enterVm w = .error f w') ↔ w₀.host.isApplicationThread t = false := by
  rw [h.enterVm_eq]
  cases w₀.host.isApplicationThread t <;> simp

theorem leaveFails (h : Located w₀ kept w) (t : Thread) (code : Int) :
    (∃ f w', actAs t (leaveVm code) w = .error f w') ↔
      w₀.host.isApplicationThread t = false ∨ w.host.state t ≠ .inVm ∨
        ThreadState.ofCode? code = none := by
  rw [actAs_eq, World.leaveVm_eq (w := calledBy t w) h.intact]
  simp only [host_calledBy, thread_calledBy, h.isApplicationThread_eq]
  cases w₀.host.isApplicationThread t
  · simp
  · by_cases hstate : w.host.state t = .inVm
    · cases ThreadState.ofCode? code <;> simp [hstate]
    · simp [hstate]

theorem restored (h : Located w₀ kept w) : Restored w₀ kept w where
  back t hkept := by rw [h.state, hkept, stateIn]
  inVm t hkept hfree := by rw [h.state, stateIn_eq_inVm hkept hfree]
  begins t hfree := by
    refine ⟨fun happ => ?_, ?_⟩
    · have hcall := h.enterVm_eq t
      rw [if_pos happ] at hcall
      exact ⟨_, _, .enter hfree hcall⟩
    · have hcall := h.beginBlock_eq t
      split at hcall
      · exact ⟨_, _, .block hfree hcall⟩
      · exact ⟨_, _, .block hfree hcall⟩
  ends _ _ _ hkept := h.ends hkept
  others t ps w' hcall x hx := by
    have hafter := (h.call hcall).state x
    rw [Function.update_of_ne hx] at hafter
    rw [hafter, h.state]
  enterFails := h.enterFails
  leaveFails := h.leaveFails
  stays t f w' hfails := by
    rcases hfails with hcall | ⟨code, hcall⟩
    · rw [enterVm_error (w := calledBy t w) hcall, host_calledBy]
    · rw [leaveVm_error (w := calledBy t w) hcall, host_calledBy]

end Located

/-- Calls that nest bring every thread back to where it started, whatever others do meanwhile. -/
theorem states_restored (hintact : w₀.host.listBroken = false) (h : Crosses w₀ kept w) :
    Restored w₀ kept w := (h.located hintact).restored

/-- Two application threads in a world that has just started. -/
def twoThreads : World := { initial with host := .withThreads 2 }

/-- The two threads. -/
def firstThread : Thread := StandIn.Host.threadOf 1
def secondThread : Thread := StandIn.Host.threadOf 2

/-- One thread enters the virtual machine twice and blocks there while another one enters, and is
back in it when the block is over. -/
theorem states_restored_nested :
    ∃ kept w, Crosses twoThreads kept w ∧ twoThreads.host.listBroken = false ∧
      kept firstThread = [.visit ThreadState.inVm.code, .visit ThreadState.inManaged.code] ∧
      w.host.state firstThread = .inVm ∧ ∃ w', Crossing firstThread w (kept firstThread)
        [.visit ThreadState.inManaged.code] w' := by
  have hstart : Crosses twoThreads (fun _ => []) twoThreads := .start
  have henter := hstart.call firstThread (.enter rfl rfl)
  have hagain := henter.call firstThread (.enter rfl rfl)
  have hblock := hagain.call firstThread (.block rfl rfl)
  have hother := hblock.call secondThread (.enter rfl rfl)
  have hrun := hother.call firstThread (.unblock rfl)
  have hrestored := states_restored rfl hrun
  exact ⟨_, _, hrun, rfl, rfl, hrestored.inVm firstThread nofun rfl,
    hrestored.ends firstThread _ _ rfl⟩

end HeapBridge.World
