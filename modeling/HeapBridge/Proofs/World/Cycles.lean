import HeapBridge.Proofs.Pause.Settling
import HeapBridge.Proofs.World.Calls

/-!
# Whole pauses

One thread of the collector stops and restarts the world, over and over, while the others take their
turns in any order. Each pause leaves behind what it found, apart from counts: these grow with the
pauses, and those of the attempts with what was abandoned besides.
-/
namespace HeapBridge.World
open Pause (Returning Stopping System)
variable {h : StandIn.Host} {w w' w₀ : World} {n b k : Nat} {handed : List Thread}

/-! ## Calls that return -/

/-- A call that waits for a state returns. The threads have taken turns, and abandoned `k` attempts,
until its caller was back. -/
def Returns {α : Type} (state : WorldState) (call : (System → Except Fault System) → Act World α)
    (w : World) (k : Nat) (a : α) (w' : World) : Prop :=
  ∃ run s ms t, w.pause.request self state true = .ok s ∧ run s = .ok t ∧
    s.Interleaves self ms k t ∧ t.caller self = .away ∧ call run w = .ok a w'

/-- A stop returns, with the threads that it hands out. -/
abbrev Stops : World → Nat → List Thread → World → Prop := Returns .suspended stopAllUnder

/-- A restart returns. -/
abbrev Restarts : World → Nat → Unit → World → Prop := Returns .resumed resumeAllUnder

/-- Whatever the threads do, a call comes to its end. So it does as it is, which is on the schedule
that threads take turns until all of them wait. -/
structure Finishes {α : Type} (state : WorldState)
    (call : (System → Except Fault System) → Act World α) (itself : Act World α) (w : World) :
    Prop where
  accepted : ∃ s, w.pause.request self state true = .ok s
  /-- The threads go on until the caller is back. -/
  goes_on : ∀ s ms k t, w.pause.request self state true = .ok s → s.Interleaves self ms k t →
    Pause.GoesOn self state ms k t
  /-- With its caller back the call returns. -/
  returns : ∀ run s ms k t, w.pause.request self state true = .ok s → run s = .ok t →
    s.Interleaves self ms k t → t.caller self = .away → ∃ a w', call run w = .ok a w'
  /-- An open region can keep the world from being stopped, but not from being restarted. -/
  settles : (state = .suspended → w.pause.regionOpen = false) →
    ∃ a w', itself w = .ok a w' ∧ Returns state call w 0 a w'

/-- A call comes to its end if its request does. -/
theorem Finishes.of_request {α : Type} {state : WorldState}
    {call : (System → Except Fault System) → Act World α} {itself : Act World α} {s : System}
    (hitself : call (·.finish self) = itself)
    (hrequest : w.pause.request self state true = .ok s)
    (hgoes : ∀ ms k t, s.Interleaves self ms k t → Pause.GoesOn self state ms k t)
    (hcall : ∀ run t, run s = .ok t → ∃ a w', call run w = .ok a w')
    (hfinish : (state = .suspended → w.pause.regionOpen = false) →
      ∃ ms t, s.finish self = .ok t ∧ s.Interleaves self ms 0 t ∧ t.caller self = .away) :
    Finishes state call itself w := by
  have hsame {s' : System} (hs' : w.pause.request self state true = .ok s') : s' = s :=
    Except.ok.inj (hs'.symm.trans hrequest)
  refine ⟨⟨s, hrequest⟩, ?_, ?_, ?_⟩
  · rintro s' ms k t hs' hturns
    obtain rfl := hsame hs'
    exact hgoes ms k t hturns
  · rintro run s' ms k t hs' hrun - -
    obtain rfl := hsame hs'
    exact hcall run t hrun
  · intro hregion
    obtain ⟨ms, t, hrun, hturns, haway⟩ := hfinish hregion
    obtain ⟨a, w', hw'⟩ := hcall (·.finish self) t hrun
    exact ⟨a, w', hitself ▸ hw', _, s, ms, t, hrequest, hrun, hturns, haway, hw'⟩

/-- Pauses one after the other, with the number of attempts that each abandons. -/
inductive Cycles (w : World) : List Nat → World → Prop
  | refl : Cycles w [] w
  | cycle {ks : List Nat} {w₁ w₂ w₃ : World} {k j : Nat} {handed : List Thread}
    (h : Cycles w ks w₁) (hstop : Stops w₁ k handed w₂) (hrestart : Restarts w₂ j () w₃) :
    Cycles w (ks ++ [k]) w₃

/-! ## What the two partners are told -/

/-- What the collector and the virtual machine were told of stops and restarts. -/
structure Told (stops restarts : Nat) (w : World) : Prop where
  prologues : w.tally .prologue = stops
  reports : w.tally .reportStart = stops
  epilogues : w.tally .epilogue = restarts
  restarts : w.restarts.count = restarts

theorem Told.stoppedIn {stops restarts : Nat} (h : Told stops restarts w) (t : System) :
    Told (stops + 1) restarts (stoppedIn t w) := by
  have htally : ∀ e : Event, e.isOfPause = false → (World.stoppedIn t w).tally e =
      w.tally e + (if Event.prologue = e then 1 else 0) +
        if Event.reportStart = e then 1 else 0 := by
    intro e he
    rw [World.stoppedIn, tally_emitted, tally_adopted he, askingStop, tally_emitted]
    rfl
  refine ⟨?_, ?_, ?_, h.restarts⟩
  · rw [htally .prologue rfl, h.prologues]
    rfl
  · rw [htally .reportStart rfl, h.reports]
    rfl
  · rw [htally .epilogue rfl, h.epilogues]
    rfl

theorem Told.restartedIn {stops restarts : Nat} (h : Told stops restarts w) (hswept : Swept w w')
    (t : System) : Told stops (restarts + 1) (restartedIn t w') := by
  have htally : ∀ e : Event, e.isOfPause = false → e.isOfSweep = false →
      (World.restartedIn t w').tally e = w.tally e + if Event.epilogue = e then 1 else 0 := by
    intro e he hsweep
    rw [← hswept.tally e hsweep, ← tally_emitted]
    exact tally_adopted he t (askingRestart w')
  have hcount : w'.restarts = w.restarts := by rw [hswept.rest]
  refine ⟨?_, ?_, ?_, ?_⟩
  · rw [htally .prologue rfl rfl, h.prologues]
    rfl
  · rw [htally .reportStart rfl rfl, h.reports]
    rfl
  · rw [htally .epilogue rfl rfl, h.epilogues]
    rfl
  · rw [World.restartedIn, Pause.Restarts.count_restart, hcount, h.restarts]

/-! ## The invariant -/

/-- Between two pauses, after `n` of them and `b` attempts. -/
structure Running (h : StandIn.Host) (n b : Nat) (w : World) : Prop where
  ready : Ready w
  host : w.host = h
  away : w.pause.caller self = .away
  threads : ∃ p, Returning self b 0 p w.pause
  told : Told n n w

/-- In a pause, after `n` others and `b` attempts apart from the one that it goes on with. -/
structure Pausing (h : StandIn.Host) (n b : Nat) (w : World) : Prop where
  ready : Ready w
  host : w.host = h
  away : w.pause.caller self = .away
  threads : ∃ p a k, Stopping self a k p w.pause ∧ a + k = b
  told : Told (n + 1) n w
  kept : w.stackScanKept = true

/-- A world that is stopped, with the threads that were handed out. -/
structure IsStopped (h : StandIn.Host) (handed : List Thread) (w : World) : Prop where
  states : w.pause.states = (.suspended, .suspended)
  worldStopped : w.pause.worldStopped = true
  locked : w.pause.lock.locked = true
  kept : w.stackScanKept = true
  /-- Threads are handed out in the order of the list. -/
  order : handed.Sublist h.threadList
  /-- Every thread with a record is handed out once, and no other. -/
  once : ∀ t, handed.count t = if (t, true) ∈ h.threads then 1 else 0
  /-- A walk from the start visits the same. -/
  walk : ∃ w₁ w₂, resetWalk w = .ok () w₁ ∧ Walks w₁ handed w₂

/-- A world that runs. -/
structure IsRunning (w : World) : Prop where
  states : w.pause.states = (.resumed, .resumed)
  worldStopped : w.pause.worldStopped = false
  locked : w.pause.lock.locked = false
  kept : w.stackScanKept = false

/-! ## One pause -/

namespace Running

theorem finishes (hw : Running h n b w) : Finishes .suspended stopAllUnder stopAll w := by
  obtain ⟨p, hreturning⟩ := hw.threads
  obtain ⟨s, hrequest, hstopping⟩ := hreturning.stop hw.away
  refine .of_request stopAllUnder_finish hrequest (fun _ _ _ => hstopping.goesOn)
    (fun _ _ hrun => ⟨_, _, stopAllUnder_eq hw.ready hrequest hrun⟩) fun hregion => ?_
  have hclosed : s.regionOpen = false := (System.regionOpen_of_request hrequest).trans (hregion rfl)
  have hprompt : p.awake.abandoned = 0 := by
    have hresting := hreturning.releasing.isResting hw.away
    cases p <;> first | rfl | cases hresting
  exact (Stopping.smooth b).finish ⟨hstopping, hprompt, hclosed⟩

/-- A stop goes on with the books of the pauses before. -/
theorem stop (hw : Running h n b w) (hstop : Stops w k handed w') :
    Pausing h n (b + k) w' ∧ handed = h.boundThreads := by
  obtain ⟨p, hreturning⟩ := hw.threads
  obtain ⟨run, s, ms, t, hrequest, hrun, hturns, haway, hcall⟩ := hstop
  obtain ⟨s', hrequest', hstopping⟩ := hreturning.stop hw.away
  obtain rfl := Except.ok.inj (hrequest'.symm.trans hrequest)
  obtain ⟨q, hq, -⟩ := (Stopping.lasts self b).run hstopping hturns
  cases (stopAllUnder_eq hw.ready hrequest hrun).symm.trans hcall
  refine ⟨⟨hw.ready.stoppedIn t, hw.host, haway, ⟨q, b, k, hq, rfl⟩, hw.told.stoppedIn t, rfl⟩, ?_⟩
  rw [hw.host]

end Running

namespace Pausing

theorem finishes (hw : Pausing h n b w) : Finishes .resumed resumeAllUnder resumeAll w := by
  obtain ⟨p, a, k, hstopping, -⟩ := hw.threads
  obtain ⟨s, hrequest, hreturning⟩ := hstopping.restart hw.away
  obtain ⟨w', -, hcall⟩ := resumeAllUnder_eq hw.ready hrequest
  exact .of_request resumeAllUnder_finish hrequest (fun _ _ _ => hreturning.goesOn)
    (fun run t hrun => ⟨_, _, hcall run t hrun⟩)
    fun _ => (Returning.smooth (a + k + 1)).finish hreturning

theorem isStopped (hw : Pausing h n b w) : IsStopped h h.boundThreads w := by
  obtain ⟨p, a, k, hstopping, -⟩ := hw.threads
  obtain ⟨hstates, hstopped, hlocked⟩ := hstopping.stopped hw.away
  have hdistinct : h.threadList.Nodup := hw.host ▸ hw.ready.distinct
  refine ⟨hstates, hstopped, hlocked, hw.kept, ?_, StandIn.Host.count_boundThreads hdistinct, ?_⟩
  · rw [← StandIn.Host.filter_hasRecord hdistinct]
    exact List.filter_sublist
  · refine ⟨{ w with walk := none }, { w with walk := none }, rfl, ?_⟩
    rw [← hw.host]
    exact walks_boundThreads hw.ready.intact hw.ready.distinct

/-- A restart closes the books of a pause. -/
theorem restart (hw : Pausing h n b w) (hrestart : Restarts w k () w') :
    Running h (n + 1) (b + 1) w' ∧ IsRunning w' := by
  obtain ⟨p, a, k', hstopping, rfl⟩ := hw.threads
  obtain ⟨run, s, ms, t, hrequest, hrun, hturns, haway, hcall⟩ := hrestart
  obtain ⟨s', hrequest', hreturning⟩ := hstopping.restart hw.away
  obtain rfl := Except.ok.inj (hrequest'.symm.trans hrequest)
  obtain ⟨q, hq, -⟩ := (Returning.lasts self (a + k' + 1)).run hreturning hturns
  obtain rfl := hq.none_abandoned
  obtain ⟨u, hswept, hcall'⟩ := resumeAllUnder_eq hw.ready hrequest
  cases (hcall' run t hrun).symm.trans hcall
  obtain ⟨hstates, hstopped, hlocked, -, -⟩ := hq.returned haway
  have hhost : u.host = h := by
    rw [hswept.rest]
    exact hw.host
  have hready := (hw.ready.swept hswept).restartedIn t
  exact ⟨⟨hready, hhost, haway, ⟨q, hq⟩, hw.told.restartedIn hswept t⟩,
    hstates, hstopped, hlocked, rfl⟩

end Pausing

/-! ## All pauses -/

/-- A world in which the threads have started, and in which nothing was asked of them yet. -/
structure Fresh (w : World) : Prop where
  ready : Ready w
  away : w.pause.caller self = .away
  threads : ∃ ms k, System.initial.Interleaves self ms k w.pause
  told : Told 0 0 w

theorem Fresh.running (hw : Fresh w) : Running w.host 0 0 w := by
  obtain ⟨ms, k, hturns⟩ := hw.threads
  obtain ⟨p, hp, -⟩ := (Returning.lasts self 0).run (.initial self) hturns
  obtain rfl := hp.none_abandoned
  exact ⟨hw.ready, rfl, hw.away, ⟨p, hp⟩, hw.told⟩

/-- Pauses add up, by induction over them. -/
theorem Cycles.running {ks : List Nat} (hfresh : Fresh w₀) (hcycles : Cycles w₀ ks w) :
    Running w₀.host ks.length (ks.length + ks.sum) w := by
  induction hcycles with
  | refl => exact hfresh.running
  | @cycle ks w₁ w₂ w₃ k j handed _ hstop hrestart ih =>
    obtain ⟨hpausing, -⟩ := ih.stop hstop
    obtain ⟨hrunning, -⟩ := hpausing.restart hrestart
    have hattempts : (ks ++ [k]).length + (ks ++ [k]).sum = ks.length + ks.sum + k + 1 := by
      simp only [List.length_append, List.sum_append, List.length_singleton, List.sum_singleton]
      omega
    rw [hattempts, List.length_append, List.length_singleton]
    exact hrunning

/-- What holds after any pauses, and of the next one. -/
structure Kept (w₀ : World) (ks : List Nat) (w : World) : Prop where
  /-- Stops and restarts are counted by pauses. -/
  told : Told ks.length ks.length w
  /-- Safepoints and cleanups are counted by attempts. -/
  safepoints : w.pause.tally .safepointBegin = ks.length + ks.sum
  cleanups : w.pause.tally .cleanup = ks.length + ks.sum
  stop_finishes : Finishes .suspended stopAllUnder stopAll w
  stopped : ∀ k handed w₁, Stops w k handed w₁ → IsStopped w₀.host handed w₁
  restart_finishes : ∀ k handed w₁, Stops w k handed w₁ →
    Finishes .resumed resumeAllUnder resumeAll w₁
  restarted : ∀ k handed w₁ j w₂, Stops w k handed w₁ → Restarts w₁ j () w₂ → IsRunning w₂

/-- Through any number of pauses the world is stopped and restarted as it was the first time. -/
theorem kept_through_pauses {ks : List Nat} (hfresh : Fresh w₀) (hcycles : Cycles w₀ ks w) :
    Kept w₀ ks w := by
  have hrunning := hcycles.running hfresh
  obtain ⟨p, hreturning⟩ := hrunning.threads
  obtain ⟨-, -, -, hsafepoints, hcleanups⟩ := hreturning.returned hrunning.away
  refine ⟨hrunning.told, hsafepoints, hcleanups, hrunning.finishes, ?_, ?_, ?_⟩
  · intro k handed w₁ hstop
    obtain ⟨hpausing, rfl⟩ := hrunning.stop hstop
    exact hpausing.isStopped
  · intro k handed w₁ hstop
    exact (hrunning.stop hstop).1.finishes
  · intro k handed w₁ j w₂ hstop hrestart
    exact ((hrunning.stop hstop).1.restart hrestart).2

/-- Two threads with a record, and one without between them. The threads that stop the world wait.
-/
def threeThreads : World :=
  { World.initial with
    role := .collector
    pause := System.initial.settle
    host := { StandIn.Host.initial with
      threads := [(StandIn.Host.threadOf 1, true), (StandIn.Host.threadOf 2, false),
        (StandIn.Host.threadOf 3, true)] } }

/-- An attempt is abandoned for a region, and another one is made when that is left. -/
def retryMoves : List System.Move :=
  let go (party : System.Party) (n : Nat) : List System.Move := List.replicate n (.proceed party)
  List.flatten [[.setRegion true], go .companion 5, go .vmThread 7, go .companion 7,
    [.setRegion false], go .companion 4, go .vmThread 5, go (.caller self) 1]

/-- A pause in which an attempt is abandoned. -/
theorem kept_through_pauses_retried :
    Fresh threeThreads ∧ ∃ w, Cycles threeThreads [1] w ∧ Kept threeThreads [1] w := by
  have hfresh : Fresh threeThreads := by
    obtain ⟨ms, hturns, haway⟩ := (Returning.smooth 0).settle (.initial 0)
    exact ⟨⟨by decide, rfl, rfl, rfl, nofun, nofun⟩, haway, ⟨ms, 0, hturns⟩, rfl, rfl, rfl, rfl⟩
  have hfollow : ∃ s t, threeThreads.pause.request self .suspended true = .ok s ∧
      s.follow self retryMoves = some (1, t) ∧ t.caller self = .away := ⟨_, _, rfl, rfl, rfl⟩
  obtain ⟨s, t, hrequest, hfollow, haway⟩ := hfollow
  have hturns : s.Interleaves self retryMoves 1 t := System.Interleaves.refl.follow hfollow
  have hkept := kept_through_pauses hfresh .refl
  obtain ⟨handed, w₁, hcall⟩ :=
    hkept.stop_finishes.returns (fun _ => .ok t) s retryMoves 1 t hrequest rfl hturns haway
  have hstop : Stops threeThreads 1 handed w₁ :=
    ⟨_, s, retryMoves, t, hrequest, rfl, hturns, haway, hcall⟩
  obtain ⟨⟨⟩, w₂, -, hrestart⟩ := (hkept.restart_finishes 1 handed w₁ hstop).settles nofun
  have hcycles : Cycles threeThreads [1] w₂ := Cycles.refl.cycle hstop hrestart
  exact ⟨hfresh, w₂, hcycles, kept_through_pauses hfresh hcycles⟩

end HeapBridge.World
