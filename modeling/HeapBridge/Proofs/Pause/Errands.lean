import HeapBridge.Pause.Step

/-!
# Errands

Beside the pauses of the companion the VM thread executes operations for other threads. Such an
operation may say that the VM thread takes the next pause, and then waits for it at once. This
module says what is left of an operation at any point of it, and what a step of the VM thread does
to that.
-/
namespace HeapBridge.Pause
variable {ds : List Duty} {q : List Order} {s t : System}

/-- Operations that leave pauses to the companion, or take them over as they have to: the pause is
announced, and waited for right after. -/
inductive Orderly : List Action → Prop
  | nil : Orderly []
  | note {as : List Action} (h : Orderly as) : Orderly (.note :: as)
  | request {as : List Action} (state : WorldState) (h : Orderly as) :
    Orderly (.request state :: as)
  | nested {as body : List Action} (noted : Bool) (hbody : Orderly body) (h : Orderly as) :
    Orderly (.nested body noted :: as)
  | pause {as : List Action} (h : Orderly as) : Orderly (.announce :: .takePause :: as)

/-- What may be left of an orderly operation whose safepoint is open. -/
inductive Remaining : List Duty → Prop
  | close (n : Nat) : Remaining [.closeSafepoint, .reply (.caller n)]
  | note {ds : List Duty} (h : Remaining ds) : Remaining (.act .note :: ds)
  | request {ds : List Duty} (state : WorldState) (h : Remaining ds) :
    Remaining (.act (.request state) :: ds)
  | nested {ds : List Duty} {body : List Action} (noted : Bool) (hbody : Orderly body)
    (h : Remaining ds) : Remaining (.act (.nested body noted) :: ds)
  | noteNested {ds : List Duty} (h : Remaining ds) : Remaining (.noteNested :: ds)
  | pause {ds : List Duty} (h : Remaining ds) : Remaining (.act .announce :: .act .takePause :: ds)

theorem Orderly.remaining {body : List Action} (h : Orderly body) (hrest : Remaining ds) :
    Remaining (body.map .act ++ ds) := by
  induction h with
  | nil => exact hrest
  | note _ ih => exact .note ih
  | request state _ ih => exact .request state ih
  | nested noted hbody _ _ ih => exact .nested noted hbody ih
  | pause _ ih => exact .pause ih

theorem Remaining.map_awake (h : Remaining ds) : ds.map Duty.awake = ds := by
  induction h with
  | close n => rfl
  | note _ ih | request _ _ ih | nested _ _ _ ih | noteNested _ ih | pause _ ih =>
    simp [Duty.awake, ih]

/-- Where the VM thread is in an orderly operation: whether a safepoint is open, and whether it
wants a pause for itself. -/
inductive Errand : Bool → Bool → List Duty → Prop
  | none : Errand false false []
  | opening {ds : List Duty} (h : Remaining ds) : Errand false false (.openSafepoint :: ds)
  | working {ds : List Duty} (h : Remaining ds) : Errand true false ds
  | taking {ds : List Duty} (h : Remaining ds) : Errand true true (.act .takePause :: ds)
  | waiting {ds : List Duty} (asleep : Bool) (h : Remaining ds) :
    Errand true true (.awaitHandOff asleep :: ds)
  | replying (n : Nat) : Errand false false [.reply (.caller n)]

/-- Between errands no safepoint is open. -/
theorem Errand.of_nil {isOpen wants : Bool} (h : Errand isOpen wants []) :
    isOpen = false ∧ wants = false := by
  cases h with
  | none => exact ⟨rfl, rfl⟩
  | working h => cases h

theorem Errand.map_awake {isOpen wants : Bool} (h : Errand isOpen wants ds) :
    Errand isOpen wants (ds.map Duty.awake) := by
  cases h with
  | none => exact .none
  | opening h | working h | taking h =>
    simp only [List.map_cons, Duty.awake, h.map_awake]
    constructor
    exact h
  | waiting _ h =>
    simp only [List.map_cons, Duty.awake, h.map_awake]
    exact .waiting false h
  | replying n => exact .replying n

theorem Errand.not_park {isOpen wants asleep : Bool} :
    ¬ Errand isOpen wants (.park asleep :: ds) := by
  intro h
  cases h with
  | working h => cases h

/-- Whoever waits to be given a pause wants it. -/
theorem Errand.wants_of_awaitHandOff {isOpen wants asleep : Bool}
    (h : Errand isOpen wants (.awaitHandOff asleep :: ds)) : wants = true := by
  cases h with
  | working h => cases h
  | waiting _ _ => rfl

/-- A pause is announced by a thread that does not want one yet, and waited for next. -/
theorem Errand.of_announce {isOpen wants : Bool} (h : Errand isOpen wants (.act .announce :: ds)) :
    wants = false ∧ ∃ rest, ds = .act .takePause :: rest := by
  cases h with
  | working h =>
    cases h with
    | pause _ => exact ⟨rfl, _, rfl⟩

/-- The VM thread looks again whether it has been given the pause. -/
theorem Errand.look {isOpen wants asleep : Bool}
    (h : Errand isOpen wants (.awaitHandOff asleep :: ds)) :
    Errand isOpen wants (.awaitHandOff false :: ds) := by
  cases h with
  | working h => cases h
  | waiting _ h => exact .waiting false h

/-- The queue of the VM thread, and whether the companion's operation is in it. -/
inductive Waits : Bool → List Order → Prop
  | nil : Waits false []
  | errand {stop : Bool} {q : List Order} (n : Nat) {body : List Action} (hbody : Orderly body)
    (h : Waits stop q) : Waits stop (.run ⟨.caller n, body⟩ :: q)
  | stop {q : List Order} (h : Waits false q) : Waits true (.run System.stopOperation :: q)

namespace Waits

theorem append_errand {stop : Bool} (h : Waits stop q) (n : Nat) {body : List Action}
    (hbody : Orderly body) : Waits stop (q ++ [.run ⟨.caller n, body⟩]) := by
  induction h with
  | nil => exact .errand n hbody .nil
  | errand m hfirst _ ih => exact .errand m hfirst ih
  | stop _ ih => exact .stop ih

theorem append_stop (h : Waits false q) : Waits true (q ++ [.run System.stopOperation]) := by
  generalize hnone : false = stop at h
  induction h with
  | nil => exact .stop .nil
  | errand m hfirst _ ih => exact .errand m hfirst (ih hnone)
  | stop _ _ => cases hnone

theorem of_cons {stop : Bool} {body : List Action} {n : Nat}
    (h : Waits stop (.run ⟨.caller n, body⟩ :: q)) : Waits stop q := by
  cases h with
  | errand _ _ h => exact h

theorem mem_stop (h : Waits true q) : .run System.stopOperation ∈ q := by
  generalize hsome : true = stop at h
  induction h with
  | nil => cases hsome
  | errand m _ _ ih => exact List.mem_cons_of_mem _ (ih hsome)
  | stop _ _ => exact List.mem_cons_self

end Waits

/-! ## Steps -/

/-- A step of the VM thread that the companion does not notice. -/
structure Aside (s t : System) : Prop where
  sync : t.sync = s.sync
  lock : t.lock = s.lock
  companion : t.companion = s.companion
  queue : t.vm.queue = s.vm.queue
  life : t.vm.life = s.vm.life
  halted : s.worldStopped = s.atSafepoint → t.worldStopped = t.atSafepoint
  /-- Only a thread that handed an operation over can be told that it is done. -/
  caller : ∀ n, (∀ role, s.caller n ≠ .handedOver role) → t.caller n = s.caller n

/-- What the VM thread does next in an operation. -/
inductive Chore (s : System) (wants : Bool) : System → Prop
  | goOn {t : System} (haside : Aside s t) (herrand : Errand t.atSafepoint wants t.vm.duties) :
    Chore s wants t
  | announce {rest : List Duty} (hwants : wants = false) (hopen : s.atSafepoint = true)
    (hduties : s.vm.duties = .act .announce :: .act .takePause :: rest) (hrest : Remaining rest) :
    Chore s wants { s.setDuties (.act .takePause :: rest) with
      sync := { s.sync with vmPauseAnnounced := true } }
  | take {rest : List Duty} (hhanded : s.sync.handedToVm = true) (hopen : s.atSafepoint = true)
    (hrest : Remaining rest) :
    Chore s wants (s.setDuties (.act .stopWorld :: .handBack :: rest))

/-- A change of what the VM thread has to do is not noticed. -/
theorem Aside.setDuties (s : System) (ds : List Duty) : Aside s (s.setDuties ds) :=
  ⟨rfl, rfl, rfl, rfl, rfl, id, fun _ _ => rfl⟩

theorem Aside.reply (s : System) (n : Nat) (ds : List Duty) :
    Aside s ((s.setDuties ds).reply (.caller n)) := by
  rw [System.reply]
  split
  case h_1 role hcaller =>
    refine ⟨rfl, rfl, rfl, rfl, rfl, id, fun x hx => ?_⟩
    rw [System.caller_setCaller, if_neg]
    · rfl
    · rintro rfl
      exact hx role hcaller
  case h_2 => exact .setDuties s ds

/-- Inside its safepoint an operation goes on, by cases on what is left of it. -/
theorem Remaining.chore (h : Remaining s.vm.duties) (hopen : s.atSafepoint = true)
    (hlife : s.vm.life = .running) (hstep : s.stepVmThread = some t) : Chore s false t := by
  have hworking : ∀ {ds}, Remaining ds → Errand s.atSafepoint false ds := by
    rw [hopen]
    exact .working
  generalize hds : s.vm.duties = ds at h
  simp only [System.stepVmThread, hlife, hds, if_true] at hstep
  cases h with
  | close n =>
    cases hstep
    exact .goOn ⟨rfl, rfl, rfl, rfl, rfl, fun _ => rfl, fun _ _ => rfl⟩ (.replying n)
  | note h | noteNested h | request _ h =>
    cases hstep
    exact .goOn ⟨rfl, rfl, rfl, rfl, rfl, id, fun _ _ => rfl⟩ (hworking h)
  | nested noted hbody h =>
    cases hstep
    refine .goOn (.setDuties s _) (hworking ?_)
    rw [System.inPlace, if_pos hopen]
    refine hbody.remaining ?_
    cases noted
    · exact h
    · exact .noteNested h
  | pause h =>
    cases hstep
    exact .announce rfl hopen hds h

theorem Errand.chore {wants : Bool} (h : Errand s.atSafepoint wants s.vm.duties)
    (hlife : s.vm.life = .running) (hbusy : s.vm.duties ≠ [])
    (hstep : s.stepVmThread = some t) : Chore s wants t := by
  have hwaiting : s.atSafepoint = true → ∀ {ds} asleep, Remaining ds →
      Errand s.atSafepoint true (.awaitHandOff asleep :: ds) := by
    intro hopen
    rw [hopen]
    exact .waiting
  generalize hopen : s.atSafepoint = isOpen at h
  generalize hds : s.vm.duties = ds at h
  cases h with
  | none => exact absurd hds hbusy
  | working h =>
    subst hds
    exact h.chore hopen hlife hstep
  | opening h =>
    simp only [System.stepVmThread, hlife, hds, if_true] at hstep
    cases hstep
    exact .goOn ⟨rfl, rfl, rfl, rfl, rfl, fun _ => rfl, fun _ _ => rfl⟩ (.working h)
  | taking h =>
    simp only [System.stepVmThread, hlife, hds, if_true] at hstep
    cases hstep
    exact .goOn (.setDuties s _) (hwaiting hopen false h)
  | waiting asleep h =>
    simp only [System.stepVmThread, hlife, hds, if_true] at hstep
    cases asleep <;> cases hstep
    cases hhanded : s.sync.handedToVm
    · exact .goOn (.setDuties s _) (hwaiting hopen true h)
    · rw [if_pos rfl, System.inPlace, if_pos hopen]
      exact .take hhanded hopen h
  | replying n =>
    simp only [System.stepVmThread, hlife, hds, if_true] at hstep
    cases hstep
    refine .goOn (.reply s n []) ?_
    have hrest : ((s.setDuties []).reply (.caller n)).atSafepoint = s.atSafepoint ∧
        ((s.setDuties []).reply (.caller n)).vm.duties = [] := by
      rw [System.reply]
      split <;> exact ⟨rfl, rfl⟩
    rw [hrest.1, hrest.2, hopen]
    exact .none

end HeapBridge.Pause
