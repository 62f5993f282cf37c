import HeapBridge.Proofs.Pause.Sights

/-!
# Requesters and their operations

A requester is free, or somewhere on its way through an operation that the VM thread executes for
it. What the threads beside the VM thread can do to that is listed once (`Standing.Goes`). Such a
move concerns one requester, and leaves the VM thread alone, apart from what is sent to it and from
waking it (`Concerns`).
-/
namespace HeapBridge.Pause

/-- How far a requester is with its operation. -/
inductive Standing
  | free
  /-- The prologue is done, and the operation is about to be sent. -/
  | preparing
  | waiting (role : Role)
  | finishing (role : Role)
  | broken

def Stage.standing : Stage → Standing
  | submitting => .preparing
  | awaitingReply => .waiting .companion
  | cleaning => .finishing .companion
  | failed _ => .broken
  | _ => .free

def Caller.standing : Caller → Standing
  | handedOver role => .waiting role
  | replied role => .finishing role
  | failed _ => .broken
  | _ => .free

namespace System

def standing (s : System) : Requester → Standing
  | .companion => s.companion.standing
  | .caller n => (s.caller n).standing

end System

@[simp] theorem Stage.standing_awake (st : Stage) : st.awake.standing = st.standing := by
  cases st <;> rfl

@[simp] theorem Caller.standing_awake (c : Caller) : c.awake.standing = c.standing := by
  cases c <;> rfl

@[simp] theorem Duty.awake_awake (d : Duty) : d.awake.awake = d.awake := by
  cases d <;> rfl

variable {r : Requester} {s t u : System} {m : System.Move} {os : List Order}

namespace System

@[simp] theorem standing_wakeAll (s : System) : s.wakeAll.standing = s.standing := by
  funext r
  cases r with
  | companion => exact Stage.standing_awake _
  | caller n => exact Caller.standing_awake _

@[simp] theorem standing_note (s : System) (mark : Mark) (role : Role) :
    (s.note mark role).standing = s.standing := by
  funext r
  cases r <;> rfl

theorem standing_setCaller_of_ne {n : Nat} {c : Caller} (h : r ≠ .caller n) :
    (s.setCaller n c).standing r = s.standing r := by
  cases r with
  | companion => rfl
  | caller x =>
    have hx : x ≠ n := fun hx => h (congrArg Requester.caller hx)
    simp [standing, hx]

theorem standing_setCaller_self {n : Nat} {c : Caller} :
    (s.setCaller n c).standing (.caller n) = c.standing := by
  simp [standing]

theorem standing_setCaller {n : Nat} {c : Caller} (h : c.standing = (s.caller n).standing) :
    (s.setCaller n c).standing = s.standing := by
  funext r
  by_cases hr : r = .caller n
  · rw [hr, standing_setCaller_self, h]
    rfl
  · exact standing_setCaller_of_ne hr

/-- One who waits is told, and nobody else. -/
theorem standing_reply {role : Role} (hwaiting : s.standing r = .waiting role) :
    (s.reply r).standing r = .finishing role ∧
      ∀ r', r' ≠ r → (s.reply r).standing r' = s.standing r' := by
  cases r with
  | companion =>
    cases hstage : s.companion <;> simp only [standing, hstage, Stage.standing, reduceCtorEq,
      Standing.waiting.injEq] at hwaiting
    subst hwaiting
    refine ⟨by simp [reply, hstage, standing, Stage.standing], ?_⟩
    intro r' hr'
    cases r' with
    | companion => exact absurd rfl hr'
    | caller n => simp [reply, hstage, standing]
  | caller n =>
    cases hcaller : s.caller n <;> simp only [standing, hcaller, Caller.standing, reduceCtorEq,
      Standing.waiting.injEq] at hwaiting
    subst hwaiting
    simp only [reply, hcaller]
    exact ⟨standing_setCaller_self, fun _ hr' => standing_setCaller_of_ne hr'⟩

end System

/-! ## The VM thread from outside -/

/-- The VM thread was at most woken, and given orders. -/
structure Undisturbed (s : System) (os : List Order) (t : System) : Prop where
  queue : t.vm.queue = s.vm.queue ++ os
  life : t.vm.life = s.vm.life
  duties : t.vm.duties.map Duty.awake = s.vm.duties.map Duty.awake
  atSafepoint : t.atSafepoint = s.atSafepoint
  worldStopped : t.worldStopped = s.worldStopped

namespace Undisturbed

theorem still (hvm : t.vm = s.vm) (hatSafepoint : t.atSafepoint = s.atSafepoint)
    (hworldStopped : t.worldStopped = s.worldStopped) : Undisturbed s [] t :=
  ⟨by simp [hvm], by rw [hvm], by rw [hvm], hatSafepoint, hworldStopped⟩

/-- Everybody was woken. -/
theorem woken (hvm : t.vm = s.wakeAll.vm) (hatSafepoint : t.atSafepoint = s.atSafepoint)
    (hworldStopped : t.worldStopped = s.worldStopped) : Undisturbed s [] t := by
  refine ⟨by simp [hvm, System.wakeAll], by rw [hvm]; rfl, ?_, hatSafepoint, hworldStopped⟩
  rw [hvm]
  simp [System.wakeAll]

theorem sent (o : Order) (hvm : t.vm = { s.vm with queue := s.vm.queue ++ [o] })
    (hatSafepoint : t.atSafepoint = s.atSafepoint)
    (hworldStopped : t.worldStopped = s.worldStopped) : Undisturbed s [o] t :=
  ⟨by rw [hvm], by rw [hvm], by rw [hvm], hatSafepoint, hworldStopped⟩

end Undisturbed

/-! ## Moves beside the VM thread -/

/-- What can happen to a requester in a move that is not the VM thread's, what is sent in the move,
and what can be seen of the requester's operation. -/
inductive Standing.Goes (alive : Prop) (r : Requester) :
    Standing → List Order → List Moment → Standing → Prop
  | stay (st : Standing) : Goes alive r st [] [] st
  /-- Only the companion takes a rest between its prologue and the sending. -/
  | prepare (hr : r = .companion) :
    Goes alive r .free [] [.prologue .companion System.stopOperation.body] .preparing
  | send (halive : alive) (hr : r = .companion) :
    Goes alive r .preparing [.run System.stopOperation] [] (.waiting .companion)
  | hand (halive : alive) (role : Role) (body : List Action) :
    Goes alive r .free [.run ⟨r, body⟩] [.prologue role body] (.waiting role)
  /-- The prologue is done before it is noticed that the VM thread is gone. -/
  | refuse (hgone : ¬ alive) (role : Role) (body : List Action) :
    Goes alive r .free [] [.prologue role body] .broken
  | finish (role : Role) : Goes alive r (.finishing role) [] [.epilogue role] .free
  | fail {st : Standing} (h : st = .free ∨ ¬ alive) : Goes alive r st [] [] .broken
  | terminate (halive : alive) (st : Standing) : Goes alive r st [.terminate] [] st

/-- A move that concerns one requester, and leaves the VM thread to itself. -/
structure Concerns (s : System) (m : System.Move) (t : System) : Prop where
  undisturbed : Undisturbed s (s.sends m) t
  goes : ∃ r ms, (∀ r', r' ≠ r → t.standing r' = s.standing r') ∧
    s.sights m = ms.map (s.sight r.party r) ∧
    Standing.Goes (s.vm.life = .running) r (s.standing r) (s.sends m) ms (t.standing r)

namespace Concerns

/-- Nothing happens to any requester. -/
theorem quiet (hsends : s.sends m = []) (hsights : s.sights m = []) (h : Undisturbed s [] t)
    (hstanding : t.standing = s.standing) : Concerns s m t := by
  refine ⟨hsends ▸ h, .companion, [], fun r' _ => by rw [hstanding], hsights, ?_⟩
  rw [hsends, hstanding]
  exact .stay _

/-- Something happens to the companion. -/
theorem companion (h : Undisturbed s (s.sends m) t)
    (hcaller : ∀ n, (t.caller n).standing = (s.caller n).standing) (ms : List Moment)
    (hsights : s.sights m = ms.map (s.sight .companion .companion))
    (hgoes : Standing.Goes (s.vm.life = .running) .companion s.companion.standing (s.sends m) ms
      t.companion.standing) : Concerns s m t := by
  refine ⟨h, .companion, ms, ?_, hsights, hgoes⟩
  intro r' hr'
  cases r' with
  | companion => exact absurd rfl hr'
  | caller n => exact hcaller n

end Concerns

/-- Outside of any operation nothing of one can be seen, unless the companion takes the heap
lock. -/
theorem System.sightsOf_companion (hfree : s.companion.standing = .free)
    (hlocking : s.companion ≠ .locking) : s.sightsOf .companion = [] := by
  cases hstage : s.companion <;> simp_all [sightsOf, Stage.standing]

/-- The companion is in no operation, or it has failed. -/
structure Loose (s t : System) : Prop where
  undisturbed : Undisturbed s [] t
  caller : ∀ n, (t.caller n).standing = (s.caller n).standing
  companion : t.companion.standing = .free ∨ t.companion.standing = .broken

namespace Loose

theorem still (hvm : t.vm = s.vm) (hatSafepoint : t.atSafepoint = s.atSafepoint)
    (hworldStopped : t.worldStopped = s.worldStopped) (hcaller : t.caller = s.caller)
    (hcompanion : t.companion.standing = .free ∨ t.companion.standing = .broken) : Loose s t :=
  ⟨.still hvm hatSafepoint hworldStopped, fun n => by rw [hcaller], hcompanion⟩

theorem woken (hvm : t.vm = s.wakeAll.vm) (hatSafepoint : t.atSafepoint = s.atSafepoint)
    (hworldStopped : t.worldStopped = s.worldStopped) (hcaller : t.caller = s.wakeAll.caller)
    (hcompanion : t.companion.standing = .free ∨ t.companion.standing = .broken) : Loose s t := by
  refine ⟨.woken hvm hatSafepoint hworldStopped, fun n => ?_, hcompanion⟩
  rw [hcaller]
  exact Caller.standing_awake _

theorem companionIdle : Loose s s.companionIdle := by
  unfold System.companionIdle
  split_ifs <;> exact .still rfl rfl rfl rfl (by simp [Stage.standing])

theorem companionChooses : Loose s s.companionChooses := by
  unfold System.companionChooses
  split_ifs
  · exact .still rfl rfl rfl rfl (.inr rfl)
  · exact .woken rfl rfl rfl rfl (.inl rfl)
  · exact .still rfl rfl rfl rfl (.inl rfl)

theorem companionCloses : Loose s s.companionCloses := by
  unfold System.companionCloses
  split_ifs
  · exact .still rfl rfl rfl rfl (.inl rfl)
  · exact .still rfl rfl rfl rfl (.inr rfl)
  · exact .still rfl rfl rfl rfl (.inr rfl)
  · exact .woken rfl rfl rfl rfl (.inl rfl)

/-- A step of the companion outside of any operation, as long as it does not take the heap lock. -/
theorem stepCompanion (hfree : s.companion.standing = .free) (hlocking : s.companion ≠ .locking)
    (hstep : s.stepCompanion = some t) : Loose s t := by
  cases hstage : s.companion with
  | locking => exact absurd hstage hlocking
  | submitting | awaitingReply | cleaning | failed _ =>
    rw [hstage] at hfree
    cases hfree
  | ended => simp only [System.stepCompanion, hstage, reduceCtorEq] at hstep
  | entering =>
    simp only [System.stepCompanion, hstage, Option.some.injEq] at hstep
    subst hstep
    split
    · exact .still rfl rfl rfl rfl (.inr rfl)
    · exact companionIdle
  | idle asleep =>
    cases asleep <;> simp only [System.stepCompanion, hstage, reduceCtorEq,
      Option.some.injEq] at hstep
    exact hstep ▸ companionIdle
  | choosing =>
    simp only [System.stepCompanion, hstage, Option.some.injEq] at hstep
    exact hstep ▸ companionChooses
  | handedOff asleep =>
    cases asleep <;> simp only [System.stepCompanion, hstage, reduceCtorEq,
      Option.some.injEq] at hstep
    subst hstep
    refine .still rfl rfl rfl rfl (.inl ?_)
    split <;> rfl
  | closing =>
    simp only [System.stepCompanion, hstage, Option.some.injEq] at hstep
    exact hstep ▸ companionCloses
  | top | probing | stalling | clearing | announcing | unlocking =>
    simp only [System.stepCompanion, hstage] at hstep
    grind [Loose.still, Stage.standing, System.log]

/-- A step that the companion makes out of any operation. -/
theorem concerns (h : Loose s t) (hfree : s.companion.standing = .free)
    (hlocking : s.companion ≠ .locking) : Concerns s (.proceed .companion) t := by
  have hsends : s.sends (.proceed .companion) = [] := by
    have hstage : s.companion ≠ .submitting := by
      intro hstage
      simp [hstage, Stage.standing] at hfree
    simp [System.sends, hstage]
  refine .companion (hsends ▸ h.undisturbed) h.caller []
    (System.sightsOf_companion hfree hlocking) ?_
  rw [hsends, hfree]
  rcases h.companion with hcompanion | hcompanion <;> rw [hcompanion]
  · exact .stay _
  · exact .fail (.inl rfl)

end Loose

namespace System

/-- The companion takes the heap lock, which is the prologue of its operation. -/
theorem concerns_of_locking (hstage : s.companion = .locking) (hstep : s.stepCompanion = some t) :
    Concerns s (.proceed .companion) t := by
  simp only [stepCompanion, hstage] at hstep
  split at hstep <;> cases hstep
  have hsends : s.sends (.proceed .companion) = [] := by simp [sends, hstage]
  refine .companion (hsends ▸ .still rfl rfl rfl) (fun _ => rfl)
    [.prologue .companion stopOperation.body] (by simp [sights, sightsOf, hstage]) ?_
  rw [hsends, hstage]
  exact .prepare rfl

/-- The companion sends its operation, or finds that nobody is left to execute it. -/
theorem concerns_of_submitting (hstage : s.companion = .submitting)
    (hstep : s.stepCompanion = some t) : Concerns s (.proceed .companion) t := by
  simp only [stepCompanion, hstage, Option.some.injEq] at hstep
  subst hstep
  have hsights : s.sights (.proceed .companion) = [] := by simp [sights, sightsOf, hstage]
  by_cases hlife : s.vm.life = .running
  · have hsends : s.sends (.proceed .companion) = [.run stopOperation] := by
      simp [sends, hstage, hlife]
    rw [if_pos hlife]
    refine .companion (hsends ▸ .sent _ rfl rfl rfl) (fun _ => rfl) [] hsights ?_
    rw [hsends, hstage]
    exact .send hlife rfl
  · have hsends : s.sends (.proceed .companion) = [] := by simp [sends, hlife]
    rw [if_neg hlife]
    refine .companion (hsends ▸ .still rfl rfl rfl) (fun _ => rfl) [] hsights ?_
    rw [hsends, hstage]
    exact .fail (.inr hlife)

/-- The companion does not wait for an answer that cannot come. -/
theorem concerns_of_awaitingReply (hstage : s.companion = .awaitingReply)
    (hstep : s.stepCompanion = some t) : Concerns s (.proceed .companion) t := by
  simp only [stepCompanion, hstage] at hstep
  split at hstep
  case isTrue => cases hstep
  case isFalse hlife =>
    cases hstep
    have hsends : s.sends (.proceed .companion) = [] := by simp [sends, hlife]
    refine .companion (hsends ▸ .still rfl rfl rfl) (fun _ => rfl) []
      (by simp [sights, sightsOf, hstage]) ?_
    rw [hsends, hstage]
    exact .fail (.inr hlife)

/-- The companion makes the epilogue of its operation. -/
theorem concerns_of_cleaning (hstage : s.companion = .cleaning)
    (hstep : s.stepCompanion = some t) : Concerns s (.proceed .companion) t := by
  simp only [stepCompanion, hstage, Option.some.injEq] at hstep
  subst hstep
  have hsends : s.sends (.proceed .companion) = [] := by simp [sends, hstage]
  refine .companion (hsends ▸ .still rfl rfl rfl) (fun _ => rfl) [.epilogue .companion]
    (by simp [sights, sightsOf, hstage]) ?_
  rw [hsends, hstage]
  exact .finish _

theorem concerns_stepCompanion (hstep : s.stepCompanion = some t) :
    Concerns s (.proceed .companion) t := by
  cases hstage : s.companion with
  | locking => exact concerns_of_locking hstage hstep
  | submitting => exact concerns_of_submitting hstage hstep
  | awaitingReply => exact concerns_of_awaitingReply hstage hstep
  | cleaning => exact concerns_of_cleaning hstage hstep
  | failed _ => simp only [stepCompanion, hstage, reduceCtorEq] at hstep
  | _ =>
    have hfree : s.companion.standing = .free := by rw [hstage]; rfl
    have hlocking : s.companion ≠ .locking := by rw [hstage]; exact Stage.noConfusion
    exact (Loose.stepCompanion hfree hlocking hstep).concerns hfree hlocking

theorem concerns_stepCaller {n : Nat} (hstep : s.stepCaller n = some t) :
    Concerns s (.proceed (.caller n)) t := by
  have hsends : s.sends (.proceed (.caller n)) = [] := by simp [sends]
  cases hcaller : s.caller n with
  | away | failed _ => simp [stepCaller, hcaller] at hstep
  | awaiting state asleep =>
    cases asleep <;> simp only [stepCaller, hcaller, reduceCtorEq, Option.some.injEq] at hstep
    subst hstep
    refine .quiet hsends (by simp [sights, sightsOf, hcaller]) (.still rfl rfl rfl) ?_
    refine standing_setCaller ?_
    rw [hcaller]
    split <;> rfl
  | handedOver role =>
    simp only [stepCaller, hcaller] at hstep
    split at hstep
    case isTrue => cases hstep
    case isFalse hlife =>
      cases hstep
      refine ⟨hsends ▸ .still rfl rfl rfl, .caller n, [], fun _ => standing_setCaller_of_ne,
        by simp [sights, sightsOf, hcaller], ?_⟩
      rw [hsends, standing_setCaller_self, standing, hcaller]
      exact .fail (.inr hlife)
  | replied role =>
    simp only [stepCaller, hcaller, Option.some.injEq] at hstep
    subst hstep
    refine ⟨hsends ▸ .still rfl rfl rfl, .caller n, [.epilogue role],
      fun _ hr => by rw [standing_note, standing_setCaller_of_ne hr],
      by simp [sights, sightsOf, hcaller, Requester.party], ?_⟩
    rw [hsends, standing_note, standing_setCaller_self, standing, hcaller]
    exact .finish role

theorem concerns_stir {p : Party} (hstep : s.stir p = some t) : Concerns s (.stir p) t := by
  have hsends : s.sends (.stir p) = [] := by simp [sends]
  refine .quiet hsends rfl ?_ ?_
  · cases p with
    | companion =>
      obtain ⟨-, rfl⟩ | ⟨-, rfl⟩ := stir_companion_eq_some_iff.mp hstep <;>
        exact .still rfl rfl rfl
    | vmThread =>
      obtain ⟨rest, ⟨hd, rfl⟩ | ⟨hd, rfl⟩⟩ := stir_vmThread_eq_some_iff.mp hstep <;>
        exact ⟨by simp [setDuties], rfl, by rw [hd]; rfl, rfl, rfl⟩
    | caller n =>
      obtain ⟨state, -, rfl⟩ := stir_caller_eq_some_iff.mp hstep
      exact .still rfl rfl rfl
  · cases p with
    | companion =>
      funext r
      obtain ⟨hstage, rfl⟩ | ⟨hstage, rfl⟩ := stir_companion_eq_some_iff.mp hstep <;> cases r <;>
        simp [standing, hstage, Stage.standing]
    | vmThread =>
      obtain ⟨rest, ⟨-, rfl⟩ | ⟨-, rfl⟩⟩ := stir_vmThread_eq_some_iff.mp hstep <;> rfl
    | caller n =>
      obtain ⟨state, hcaller, rfl⟩ := stir_caller_eq_some_iff.mp hstep
      refine standing_setCaller ?_
      rw [hcaller]
      rfl

theorem standing_awaitState_of_away {n : Nat} {state : WorldState} (h : s.caller n = .away) :
    (s.awaitState n state).standing = s.standing := by
  refine standing_setCaller ?_
  rw [h]
  split <;> rfl

theorem concerns_execute {n : Nat} {role : Role} {body : List Action} (haway : s.caller n = .away) :
    Concerns s (.execute n role body) (s.execute n role body) := by
  have hfree : s.standing (.caller n) = .free := by rw [standing, haway]; rfl
  rw [execute]
  split
  case isTrue hlife =>
    have hsends : s.sends (.execute n role body) = [.run ⟨.caller n, body⟩] :=
      if_pos hlife
    refine ⟨hsends ▸ .sent _ rfl rfl rfl, .caller n, [.prologue role body],
      fun _ => standing_setCaller_of_ne, rfl, ?_⟩
    rw [hsends, hfree, standing_setCaller_self]
    exact .hand hlife role body
  case isFalse hlife =>
    have hsends : s.sends (.execute n role body) = [] := if_neg hlife
    refine ⟨hsends ▸ .still rfl rfl rfl, .caller n, [.prologue role body],
      fun _ => standing_setCaller_of_ne, rfl, ?_⟩
    rw [hsends, hfree, standing_setCaller_self]
    exact .refuse hlife role body

theorem concerns_terminateVmThread : Concerns s .terminateVmThread s.terminateVmThread := by
  rw [terminateVmThread]
  split
  case isTrue hlife =>
    have hsends : s.sends .terminateVmThread = [.terminate] := if_pos hlife
    have hundisturbed : Undisturbed s [.terminate]
        { s with vm := { s.vm with queue := s.vm.queue ++ [.terminate] } } :=
      .sent _ rfl rfl rfl
    refine ⟨by rwa [hsends], .companion, [], fun _ _ => rfl, rfl, ?_⟩
    rw [hsends]
    exact .terminate hlife _
  case isFalse hlife => exact .quiet (if_neg hlife) rfl (.still rfl rfl rfl) rfl

/-- Every move that is not the VM thread's is one of these. -/
theorem concerns_step (hm : m ≠ .proceed .vmThread) (hstep : s.step m = some t) :
    Concerns s m t := by
  cases m with
  | proceed p =>
    cases p with
    | companion => exact concerns_stepCompanion hstep
    | vmThread => exact absurd rfl hm
    | caller n => exact concerns_stepCaller hstep
  | stir p => exact concerns_stir hstep
  | request n state wait =>
    obtain ⟨haway, hrequest⟩ := step_request_eq_some_iff.mp hstep
    obtain ⟨-, rfl⟩ := request_eq_ok_iff.mp hrequest
    refine .quiet (by simp [sends]) rfl ?_ ?_
    · split <;> exact .woken rfl rfl rfl
    · have hwoken : ∀ sync, ({ s.wakeAll with sync := sync } : System).standing = s.standing :=
        fun _ => standing_wakeAll s
      split
      · rw [standing_awaitState_of_away (by simp only [wakeAll, haway, Caller.awake]), hwoken]
      · exact hwoken _
  | waitFor n state =>
    obtain ⟨haway, hwait⟩ := step_waitFor_eq_some_iff.mp hstep
    obtain ⟨-, rfl⟩ := waitFor_eq_ok_iff.mp hwait
    exact .quiet (by simp [sends]) rfl (.still rfl rfl rfl) (standing_awaitState_of_away haway)
  | execute n role body =>
    rw [step] at hstep
    split at hstep <;> cases hstep
    exact concerns_execute ‹_›
  | terminateCompanion =>
    simp only [step, terminateCompanion] at hstep
    split at hstep <;> cases hstep
    exact .quiet (by simp [sends]) rfl (.woken rfl rfl rfl) (standing_wakeAll s)
  | terminateVmThread =>
    cases hstep
    exact concerns_terminateVmThread
  | announce | setRegion _ | setPendingList _ | notifyLock =>
    cases hstep
    exact .quiet (by simp [sends]) rfl (.still rfl rfl rfl) rfl

end System
end HeapBridge.Pause
