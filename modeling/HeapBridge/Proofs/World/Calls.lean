import HeapBridge.Proofs.Pause.Halves
import HeapBridge.Proofs.World.Sweeping
import HeapBridge.Proofs.World.Walk
import HeapBridge.World.Pausing

/-!
# Stops and restarts under a schedule

The calls that stop and restart the world leave it to the threads when they return. Here they are
taken apart from one schedule: a call ends in any state that the threads can have reached when its
caller is back. On the schedule that threads take turns until all of them wait, these are the calls
themselves.
-/
namespace HeapBridge.World
open Pause (System)
variable {w w' : World} {s t : System} {run : System → Except Fault System}

/-- Asks for a state and waits for it, while the threads take their turns as `run` has it. -/
def requestUnder (run : System → Except Fault System) (state : WorldState) : Act World Unit := do
  checkRequester .request
  adopt (← Act.lift (run (← Act.lift ((← get).pause.request self state true))))

/-- Stops the world. -/
def stopAllUnder (run : System → Except Fault System) : Act World (List Thread) := do
  keepStackScan true
  emit .prologue
  requestUnder run .suspended
  emit .reportStart
  let h ← listedHost
  return h.threadList.filter h.hasRecord

/-- Restarts the world. -/
def resumeAllUnder (run : System → Except Fault System) : Act World Unit := do
  sweepAll
  emit .epilogue
  keepStackScan false
  requestUnder run .resumed
  modify fun w => { w with restarts := w.restarts.restart }

theorem stopAllUnder_finish : stopAllUnder (·.finish self) = stopAll := rfl
theorem resumeAllUnder_finish : resumeAllUnder (·.finish self) = resumeAll := rfl

/-! ## One call -/

/-- A collector thread that is none of the application threads, whose list is intact and without
repetition, and weak slots and live objects that can be read. -/
structure Ready (w : World) : Prop where
  distinct : w.host.threadList.Nodup
  intact : w.host.listBroken = false
  role : w.role.mayRequestPauses = true
  outside : w.host.isApplicationThread w.thread = false
  sweepable : Sweepable w

/-- Readiness is a matter of the list of threads, of who calls and of what a sweep reads. -/
theorem Ready.congr (h : Ready w) (hhost : w'.host = w.host) (hrole : w'.role = w.role)
    (hthread : w'.thread = w.thread) (hsweepable : Sweepable w') : Ready w' := by
  constructor
  · rw [hhost]
    exact h.distinct
  · rw [hhost]
    exact h.intact
  · rw [hrole]
    exact h.role
  · rw [hhost, hthread]
    exact h.outside
  · exact hsweepable

theorem Ready.swept (h : Ready w) (hswept : Swept w w') : Ready w' := by
  refine h.congr ?_ ?_ ?_ (hswept.sweepable h.sweepable)
  all_goals rw [hswept.rest]

theorem checkRequester_of_ready (h : Ready w) (call : PauseCall) :
    checkRequester call w = .ok () w := by
  rw [checkRequester, Act.get_bind, if_pos h.role]
  change (listedHost >>= _) w = _
  rw [Act.bind_of_ok (listedHost_of_intact h.intact), h.outside]
  rfl

/-- What happened meanwhile goes into the trace. -/
def adopted (t : System) (w : World) : World :=
  let fresh := t.history.drop w.pause.history.length
  { w with
    pause := t
    trace := w.trace ++ fresh.map .pause
    diagnostics := w.diagnostics ++ fresh.filterMap diagnosticOf? }

theorem Ready.adopted (h : Ready w) (t : System) : Ready (adopted t w) :=
  h.congr rfl rfl rfl (h.sweepable.congr rfl rfl rfl)

/-- A request goes through once the threads have brought its caller back. -/
theorem requestUnder_eq {state : WorldState} (hw : Ready w)
    (hrequest : w.pause.request self state true = .ok s) (hrun : run s = .ok t) :
    requestUnder run state w = .ok () (adopted t w) := by
  rw [requestUnder, Act.bind_of_ok (checkRequester_of_ready hw .request)]
  change ((Act.lift (w.pause.request self state true) : Act World System) >>=
    fun s => Act.lift (run s) >>= adopt) w = _
  rw [hrequest]
  change ((Act.lift (run s) : Act World System) >>= adopt) w = _
  rw [hrun]
  rfl

/-- Events of the threads that stop the world. -/
def Event.isOfPause : Event → Bool
  | pause _ => true
  | _ => false

theorem tally_adopted {e : Event} (he : e.isOfPause = false) (t : System) (w : World) :
    (adopted t w).tally e = w.tally e := by
  have hnone : ((t.history.drop w.pause.history.length).map Event.pause).count e = 0 := by
    refine List.count_eq_zero.mpr fun hmem => ?_
    obtain ⟨e', -, rfl⟩ := List.mem_map.mp hmem
    cases he
  rw [tally, adopted, List.count_append, hnone]
  rfl

/-- A world with one more event in its trace. -/
def emitted (e : Event) (w : World) : World := { w with trace := w.trace ++ [e] }

theorem tally_emitted (e e' : Event) (w : World) :
    (emitted e w).tally e' = w.tally e' + if e = e' then 1 else 0 := by
  simp [emitted, tally, List.count_append, List.count_singleton]

/-- The world in which a stop is asked for. -/
def askingStop (w : World) : World := emitted .prologue { w with stackScanKept := true }

/-- The world after a stop. -/
def stoppedIn (t : System) (w : World) : World := emitted .reportStart (adopted t (askingStop w))

theorem Ready.emitted (h : Ready w) (e : Event) : Ready (emitted e w) :=
  h.congr rfl rfl rfl (h.sweepable.congr rfl rfl rfl)

theorem Ready.askingStop (h : Ready w) : Ready (askingStop w) :=
  h.congr rfl rfl rfl (h.sweepable.congr rfl rfl rfl)

theorem Ready.stoppedIn (h : Ready w) (t : System) : Ready (stoppedIn t w) :=
  (h.askingStop.adopted t).emitted .reportStart

theorem stopAllUnder_eq (hw : Ready w) (hrequest : w.pause.request self .suspended true = .ok s)
    (hrun : run s = .ok t) :
    stopAllUnder run w = .ok w.host.boundThreads (stoppedIn t w) := by
  change (requestUnder run .suspended >>= _) (askingStop w) = _
  rw [Act.bind_of_ok (requestUnder_eq hw.askingStop hrequest hrun)]
  change (listedHost >>= _) (World.stoppedIn t w) = _
  rw [Act.bind_of_ok (listedHost_of_intact (hw.stoppedIn t).intact),
    ← StandIn.Host.filter_hasRecord hw.distinct]
  rfl

/-- The world in which a restart is asked for. -/
def askingRestart (w : World) : World := { emitted .epilogue w with stackScanKept := false }

/-- The world after a restart. -/
def restartedIn (t : System) (w : World) : World :=
  { adopted t (askingRestart w) with restarts := w.restarts.restart }

theorem Ready.askingRestart (h : Ready w) : Ready (askingRestart w) :=
  h.congr rfl rfl rfl (h.sweepable.congr rfl rfl rfl)

theorem Ready.restartedIn (h : Ready w) (t : System) : Ready (restartedIn t w) := by
  have hadopted := h.askingRestart.adopted t
  exact hadopted.congr rfl rfl rfl (hadopted.sweepable.congr rfl rfl rfl)

theorem resumeAllUnder_eq (hw : Ready w)
    (hrequest : w.pause.request self .resumed true = .ok s) :
    ∃ w', Swept w w' ∧
      ∀ run t, run s = .ok t → resumeAllUnder run w = .ok () (restartedIn t w') := by
  obtain ⟨w', hsweep, hswept⟩ := swept_sweepAll hw.sweepable
  refine ⟨w', hswept, fun run t hrun => ?_⟩
  have hasking := (hw.swept hswept).askingRestart
  have hpause : (askingRestart w').pause = w.pause := by
    change w'.pause = w.pause
    rw [hswept.rest]
  rw [resumeAllUnder, Act.bind_of_ok hsweep]
  change (requestUnder run .resumed >>= _) (askingRestart w') = _
  rw [Act.bind_of_ok (requestUnder_eq hasking (hpause ▸ hrequest) hrun)]
  rfl

end HeapBridge.World
