import HeapBridge.Proofs.Pause.Sleepers
import Mathlib.Tactic.SplitIfs

/-!
# What can be seen of operations

The history tells what happened, but not for which operation. Here every move is given the moments
of operations that can be seen in it, with the thread that makes the move, the requester of the
operation, and the surroundings in which it happens. What an operation has to go through is written
down once and for all beside that (`life`), the inner operations of its body each in its place, to
any depth.
-/
namespace HeapBridge.Pause

/-! ## Moments -/

/-- What happens to an operation, from its prologue to its epilogue. -/
inductive Moment
  | prologue (role : Role) (body : List Action)
  /-- The VM thread takes it from the queue. -/
  | taken
  | opening
  | doing (a : Action)
  /-- An inner operation is done, and that is noted. -/
  | back
  | closing
  /-- The requester is told. -/
  | answering
  | epilogue (role : Role)

/-- The thread of a requester. -/
def Requester.party : Requester → System.Party
  | companion => .companion
  | caller n => .caller n

theorem Requester.party_ne_vmThread (r : Requester) : r.party ≠ .vmThread := by
  cases r <;> nofun

namespace Moment

/-- Whether a moment lies in the safepoint of its operation. -/
def isInside : Moment → Bool
  | doing _ | back | closing => true
  | _ => false

/-- The thread on which a moment has to be. -/
def party (r : Requester) : Moment → System.Party
  | prologue .. | epilogue _ => r.party
  | _ => .vmThread

end Moment

mutual
/-- The moments of an action. Those of an inner operation are in its place, and it opens nothing. -/
def Action.deeds : Action → List Moment
  | .nested body noted =>
    .doing (.nested body noted) :: (deedsAll body ++ if noted then [.back] else [])
  | .takePause => [.doing .takePause, .doing .stopWorld]
  | a => [.doing a]

/-- The moments of a body. -/
def deedsAll : List Action → List Moment
  | [] => []
  | a :: as => a.deeds ++ deedsAll as
end

/-- The moments of an operation on the VM thread. -/
def served (body : List Action) : List Moment :=
  [.taken, .opening] ++ deedsAll body ++ [.closing, .answering]

/-- All moments of an operation. -/
def life (role : Role) (body : List Action) : List Moment :=
  [.prologue role body] ++ served body ++ [.epilogue role]

/-- The life that begins at a moment, if one does. -/
def Moment.begun : Moment → List Moment
  | prologue role body => life role body
  | _ => []

/-! ## Sights -/

/-- A moment of an operation as it was seen. -/
structure Sight where
  party : System.Party
  requester : Requester
  moment : Moment
  atSafepoint : Bool
  worldStopped : Bool

/-- A moment on the VM thread as it should be: in the stopped world inside the safepoint, and in the
running world outside. -/
def Sight.due (r : Requester) (m : Moment) : Sight := ⟨.vmThread, r, m, m.isInside, m.isInside⟩

/-- What should be seen of an operation on the VM thread. -/
def Operation.service (op : Operation) : List Sight := (served op.body).map (Sight.due op.requester)

def Order.service : Order → List Sight
  | .run op => op.service
  | .terminate => []

/-- The operations that were sent before the VM thread was told to end. -/
def dueBy : List Order → List Operation
  | .run op :: orders => op :: dueBy orders
  | _ => []

/-- What was seen on the VM thread. -/
def onVmThread (seen : List Sight) : List Sight := seen.filter (·.party = .vmThread)

/-- What was seen of the operations of a requester. -/
def momentsOf (r : Requester) (seen : List Sight) : List Moment :=
  (seen.filter (·.requester = r)).map (·.moment)

/-- The requester of the operation that duties are left of. -/
def requesterOf : List Duty → Requester
  | [] => .companion
  | .reply r :: _ => r
  | _ :: ds => requesterOf ds

/-- The moment at which a duty is done. -/
def Duty.moment? : Duty → Option Moment
  | .openSafepoint => some .opening
  | .act a => some (.doing a)
  | .noteNested => some .back
  | .closeSafepoint => some .closing
  | .reply _ => some .answering
  | _ => none

namespace System

/-- A moment in the surroundings as they are. -/
def sight (s : System) (p : Party) (r : Requester) (m : Moment) : Sight :=
  ⟨p, r, m, s.atSafepoint, s.worldStopped⟩

/-- What can be seen of operations in a step of a thread. The heap lock is taken in the prologue of
the operation that stops the world, and given up in its epilogue. -/
def sightsOf (s : System) : Party → List Sight
  | .companion =>
    match s.companion with
    | .locking => [s.sight .companion .companion (.prologue .companion stopOperation.body)]
    | .cleaning => [s.sight .companion .companion (.epilogue .companion)]
    | _ => []
  | .vmThread =>
    match s.vm.duties, s.vm.queue with
    | d :: rest, _ => d.moment?.toList.map (s.sight .vmThread (requesterOf (d :: rest)))
    | [], .run op :: _ => [s.sight .vmThread op.requester .taken]
    | [], _ => []
  | .caller n =>
    match s.caller n with
    | .replied role => [s.sight (.caller n) (.caller n) (.epilogue role)]
    | _ => []

/-- What can be seen of operations in a move. -/
def sights (s : System) : Move → List Sight
  | .proceed p => s.sightsOf p
  | .execute n role body => [s.sight (.caller n) (.caller n) (.prologue role body)]
  | _ => []

/-- What is sent to the VM thread in a move. -/
def sends (s : System) (m : Move) : List Order :=
  if s.vm.life = .running then
    match m with
    | .proceed .companion => if s.companion = .submitting then [.run stopOperation] else []
    | .execute n _ body => [.run ⟨.caller n, body⟩]
    | .terminateVmThread => [.terminate]
    | _ => []
  else []

/-- Runs, with all that was sent to the VM thread and all that could be seen. -/
inductive Watches : List Order → List Sight → System → Prop
  | start : Watches [] [] .initial
  | move {orders : List Order} {seen : List Sight} {s t : System} (m : Move)
    (h : Watches orders seen s) (hstep : s.step m = some t) :
    Watches (orders ++ s.sends m) (seen ++ s.sights m) t

/-- Makes moves in a given order, and goes on with the notes. -/
def watch :
    List Move → List Order × List Sight × System → Option (List Order × List Sight × System)
  | [], log => some log
  | m :: ms, (orders, seen, s) =>
    (s.step m).bind fun t => watch ms (orders ++ s.sends m, seen ++ s.sights m, t)

end System

variable {s t : System} {m : System.Move} {orders orders' : List Order} {seen seen' : List Sight}

/-- The VM thread sends nothing to itself. -/
@[simp] theorem System.sends_vmThread (s : System) : s.sends (.proceed .vmThread) = [] := by
  simp [sends]

theorem System.Watches.follow (ms : List System.Move) (h : System.Watches orders seen s)
    (hwatch : System.watch ms (orders, seen, s) = some (orders', seen', t)) :
    System.Watches orders' seen' t := by
  induction ms generalizing orders seen s with
  | nil =>
    cases hwatch
    exact h
  | cons m ms ih =>
    obtain ⟨u, hstep, hrest⟩ := Option.bind_eq_some_iff.mp hwatch
    exact ih (h.move m hstep) hrest

/-- Every moment is seen on the thread on which it has to be. -/
theorem System.party_of_mem_sights {x : Sight} (hx : x ∈ s.sights m) :
    x.party = x.moment.party x.requester := by
  cases m with
  | proceed p =>
    cases p with
    | companion =>
      cases hstage : s.companion <;>
        simp only [sights, sightsOf, hstage, List.not_mem_nil, List.mem_singleton] at hx
      all_goals
        subst hx
        rfl
    | caller n =>
      cases hcaller : s.caller n <;>
        simp only [sights, sightsOf, hcaller, List.not_mem_nil, List.mem_singleton] at hx
      subst hx
      rfl
    | vmThread =>
      simp only [sights, sightsOf] at hx
      split at hx
      case h_1 d rest _ =>
        obtain ⟨moment, hmoment, rfl⟩ := List.mem_map.mp hx
        cases d <;> simp only [Duty.moment?, Option.toList, List.not_mem_nil,
          List.mem_singleton] at hmoment
        all_goals
          subst hmoment
          rfl
      case h_2 =>
        cases List.mem_singleton.mp hx
        rfl
      case h_3 => cases hx
  | execute n role body =>
    cases List.mem_singleton.mp hx
    rfl
  | _ => cases hx

theorem System.Watches.party_eq (h : System.Watches orders seen s) :
    ∀ x ∈ seen, x.party = x.moment.party x.requester := by
  induction h with
  | start => exact nofun
  | move m _ _ ih =>
    intro x hx
    rcases List.mem_append.mp hx with hold | hnew
    · exact ih x hold
    · exact System.party_of_mem_sights hnew

/-! ## The history -/

/-- Whether an event is a part of an operation that some thread has others execute. -/
def Event.isOfOperation : Event → Bool
  | safepointBegin | safepointEnd | mark .. => true
  | _ => false

/-- What the history tells of a sight. The companion's prologue and epilogue leave no mark. -/
def Sight.event? (x : Sight) : Option Event :=
  match x.moment, x.requester with
  | .opening, _ => some .safepointBegin
  | .closing, _ => some .safepointEnd
  | .doing .note, _ => some (.mark .body .vmThread x.atSafepoint x.worldStopped)
  | .back, _ => some (.mark .nested .vmThread x.atSafepoint x.worldStopped)
  | .prologue role _, .caller _ => some (.mark .prologue role x.atSafepoint x.worldStopped)
  | .epilogue role, .caller _ => some (.mark .epilogue role x.atSafepoint x.worldStopped)
  | _, _ => none

/-- The history goes on with what it tells of some sights, and with other things. -/
def Records (s : System) (xs : List Sight) (t : System) : Prop :=
  ∃ es, t.history = s.history ++ es ∧ es.filter Event.isOfOperation = xs.filterMap Sight.event?

namespace Records

variable {xs : List Sight}

theorem nothing (h : t.history = s.history) (hxs : xs.filterMap Sight.event? = []) :
    Records s xs t :=
  ⟨[], by simpa using h, by simp [hxs]⟩

theorem event {e : Event} (h : t.history = s.history ++ [e])
    (hxs : xs.filterMap Sight.event? = [e].filter Event.isOfOperation) : Records s xs t :=
  ⟨[e], h, hxs.symm⟩

end Records

namespace System

theorem history_companionIdle : s.companionIdle.history = s.history := by
  unfold companionIdle
  split_ifs <;> rfl

theorem history_companionChooses : s.companionChooses.history = s.history := by
  unfold companionChooses
  split_ifs <;> rfl

theorem history_companionCloses : s.companionCloses.history = s.history := by
  unfold companionCloses
  split_ifs <;> rfl

theorem history_reply {r : Requester} : (s.reply r).history = s.history := by
  unfold reply
  split <;> split <;> rfl

theorem records_stepCompanion (hstep : s.stepCompanion = some t) :
    Records s (s.sightsOf .companion) t := by
  have hxs : (s.sightsOf .companion).filterMap Sight.event? = [] := by
    cases hstage : s.companion <;> simp [sightsOf, hstage, sight, Sight.event?]
  unfold stepCompanion at hstep
  split at hstep <;> (try split at hstep) <;> cases hstep <;> first
    | exact .nothing rfl hxs
    | exact .nothing history_companionIdle hxs
    | exact .nothing history_companionChooses hxs
    | exact .nothing history_companionCloses hxs
    | exact .event rfl hxs

theorem records_discharge {d : Duty} {rest : List Duty} (hd : s.vm.duties = d :: rest)
    (hstep : s.discharge rest d = some t) : Records s (s.sightsOf .vmThread) t := by
  have hsights : s.sightsOf .vmThread =
      d.moment?.toList.map (s.sight .vmThread (requesterOf (d :: rest))) := by
    simp only [sightsOf, hd]
  rw [hsights]
  cases d with
  | openSafepoint | closeSafepoint | noteNested | checkLocker =>
    cases hstep
    exact .event rfl rfl
  | postpone | handBack | reportStopped =>
    cases hstep
    exact .nothing rfl rfl
  | reply r =>
    cases hstep
    exact .nothing history_reply rfl
  | park asleep | awaitHandOff asleep =>
    cases asleep <;> cases hstep
    exact .nothing rfl rfl
  | act a =>
    cases a with
    | note | request _ =>
      cases hstep
      exact .event rfl rfl
    | nested body noted | announce | takePause | giveUp | stopWorld =>
      cases hstep
      exact .nothing rfl rfl

theorem records_stepVmThread (hstep : s.stepVmThread = some t) :
    Records s (s.sightsOf .vmThread) t := by
  rw [stepVmThread] at hstep
  split at hstep
  case isFalse => cases hstep
  split at hstep
  case h_2 d rest hd => exact records_discharge hd hstep
  case h_1 hd =>
    rw [takeOrder] at hstep
    split at hstep
    case h_1 => cases hstep
    case h_2 hqueue | h_3 hqueue =>
      cases hstep
      refine .nothing rfl ?_
      simp [sightsOf, hd, hqueue, sight, Sight.event?]

theorem records_stepCaller {n : Nat} (hstep : s.stepCaller n = some t) :
    Records s (s.sightsOf (.caller n)) t := by
  cases hcaller : s.caller n with
  | away | failed _ => simp [stepCaller, hcaller] at hstep
  | awaiting state asleep =>
    cases asleep <;> simp only [stepCaller, hcaller, reduceCtorEq, Option.some.injEq] at hstep
    subst hstep
    exact .nothing rfl (by simp [sightsOf, hcaller])
  | handedOver role =>
    simp only [stepCaller, hcaller] at hstep
    split at hstep <;> cases hstep
    exact .nothing rfl (by simp [sightsOf, hcaller])
  | replied role =>
    simp only [stepCaller, hcaller, Option.some.injEq] at hstep
    subst hstep
    refine .event rfl ?_
    simp only [sightsOf, hcaller]
    rfl

theorem records_step (hstep : s.step m = some t) : Records s (s.sights m) t := by
  cases m with
  | proceed p =>
    cases p with
    | companion => exact records_stepCompanion hstep
    | vmThread => exact records_stepVmThread hstep
    | caller n => exact records_stepCaller hstep
  | stir p =>
    cases p with
    | companion =>
      obtain ⟨-, rfl⟩ | ⟨-, rfl⟩ := stir_companion_eq_some_iff.mp hstep <;> exact .nothing rfl rfl
    | vmThread =>
      obtain ⟨rest, ⟨-, rfl⟩ | ⟨-, rfl⟩⟩ := stir_vmThread_eq_some_iff.mp hstep <;>
        exact .nothing rfl rfl
    | caller n =>
      obtain ⟨state, -, rfl⟩ := stir_caller_eq_some_iff.mp hstep
      exact .nothing rfl rfl
  | request n state wait =>
    obtain ⟨-, hrequest⟩ := step_request_eq_some_iff.mp hstep
    obtain ⟨-, rfl⟩ := request_eq_ok_iff.mp hrequest
    cases wait <;> exact .nothing rfl rfl
  | waitFor n state =>
    obtain ⟨-, hwait⟩ := step_waitFor_eq_some_iff.mp hstep
    obtain ⟨-, rfl⟩ := waitFor_eq_ok_iff.mp hwait
    exact .nothing rfl rfl
  | execute n role body =>
    rw [step] at hstep
    split at hstep <;> cases hstep
    have hhistory : (s.execute n role body).history =
        s.history ++ [.mark .prologue role s.atSafepoint s.worldStopped] := by
      rw [execute]
      split <;> rfl
    exact .event hhistory rfl
  | terminateCompanion =>
    simp only [step, terminateCompanion] at hstep
    split at hstep <;> cases hstep
    exact .nothing rfl rfl
  | terminateVmThread =>
    cases hstep
    refine .nothing ?_ rfl
    rw [terminateVmThread]
    split <;> rfl
  | announce | setRegion _ | setPendingList _ | notifyLock =>
    cases hstep
    exact .nothing rfl rfl

/-- The safepoints and marks in the history are those of the moments that were seen. -/
theorem Watches.history_filter (h : Watches orders seen s) :
    s.history.filter Event.isOfOperation = seen.filterMap Sight.event? := by
  induction h with
  | start => rfl
  | move m _ hstep ih =>
    obtain ⟨es, hhistory, hes⟩ := records_step hstep
    rw [hhistory, List.filter_append, ih, hes, List.filterMap_append]

end System
end HeapBridge.Pause
