import HeapBridge.Proofs.Barrier.Surroundings
import HeapBridge.World.Threads

/-!
# The walk over the threads

Calls for the next thread, up to the one that finds no more, give every thread that has a record, in
the order of the list.
-/
namespace HeapBridge

namespace StandIn.Host
variable {h : Host}

theorem find?_eq_some_of_nodup {threads : List (Thread × Bool)} {t : Thread × Bool}
    (hdistinct : (threads.map (·.1)).Nodup) (ht : t ∈ threads) :
    threads.find? (·.1 == t.1) = some t := by
  induction threads with
  | nil => cases ht
  | cons u threads ih =>
    obtain ⟨hfresh, hrest⟩ := List.nodup_cons.mp hdistinct
    obtain rfl | ht := List.mem_cons.mp ht
    · rw [List.find?_cons_of_pos (by simp)]
    · have hne : u.1 ≠ t.1 := fun heq => hfresh (List.mem_map.mpr ⟨t, ht, heq.symm⟩)
      rw [List.find?_cons_of_neg (by simpa using hne)]
      exact ih hrest ht

/-- Of distinct threads each has a record exactly if the list says so. -/
theorem hasRecord_eq (hdistinct : h.threadList.Nodup) {t : Thread × Bool} (ht : t ∈ h.threads) :
    h.hasRecord t.1 = t.2 := by
  rw [hasRecord, find?_eq_some_of_nodup hdistinct ht]
  rfl

/-- The threads with a record, in the order of the list. -/
def boundThreads (h : Host) : List Thread := (h.threads.filter (·.2)).map (·.1)

theorem filter_hasRecord (hdistinct : h.threadList.Nodup) :
    h.threadList.filter h.hasRecord = h.boundThreads := by
  rw [threadList, List.filter_map, boundThreads]
  congr 1
  exact List.filter_congr fun t ht => hasRecord_eq hdistinct ht

/-- Every thread with a record is named once, and no other is. -/
theorem count_boundThreads (hdistinct : h.threadList.Nodup) (t : Thread) :
    h.boundThreads.count t = if (t, true) ∈ h.threads then 1 else 0 := by
  have hnodup : h.boundThreads.Nodup := by
    rw [← filter_hasRecord hdistinct]
    exact hdistinct.filter _
  have hmem : t ∈ h.boundThreads ↔ (t, true) ∈ h.threads := by simp [boundThreads]
  simp only [hnodup.count, hmem]

end StandIn.Host

namespace World
variable {w w' u : World} {ts : List Thread}

/-- Calls for the next thread, up to the one that finds no more. -/
inductive Walks : World → List Thread → World → Prop
  | done {w w' : World} (h : nextMutator w = .ok none w') : Walks w [] w'
  | next {w w' w'' : World} {t : Thread} {ts : List Thread} (h : nextMutator w = .ok (some t) w')
    (hrest : Walks w' ts w'') : Walks w (t :: ts) w''

/-- A walk goes the way of its first call. -/
theorem Walks.congr (hwalk : Walks w ts w') (hnext : nextMutator u = nextMutator w) :
    Walks u ts w' := by
  cases hwalk with
  | done h => exact .done (hnext.trans h)
  | next h hrest => exact .next (hnext.trans h) hrest

theorem listedHost_of_intact (h : w.host.listBroken = false) :
    listedHost w = .ok w.host w := by
  change (Act.lift w.host.listed : Act World StandIn.Host) w = _
  rw [StandIn.Host.listed_of_intact h]
  rfl

/-- A walk that is under way goes on with what is left, and a new one begins with the whole list. -/
theorem pendingWalk_of_intact (hintact : w.host.listBroken = false) :
    pendingWalk w = .ok (w.walk.getD w.host.threadList) w := by
  rw [pendingWalk, Act.get_bind]
  cases w.walk with
  | some threads => rfl
  | none =>
    change (listedHost >>= fun h => pure h.threadList) w = _
    rw [Act.bind_of_ok (listedHost_of_intact hintact)]
    rfl

theorem nextMutator_eq (hintact : w.host.listBroken = false) (threads : List Thread)
    (hleft : w.walk.getD w.host.threadList = threads) :
    nextMutator w = match threads.dropWhile fun t => !w.host.hasRecord t with
      | [] => .ok none { w with walk := none }
      | t :: rest => .ok (some t) { w with walk := some rest } := by
  have hlook (u : World) (hu : u.host = w.host) : (discard listedHost) u = .ok () u := by
    change EStateM.map _ listedHost u = _
    rw [EStateM.map, listedHost_of_intact (hu ▸ hintact)]
  rw [nextMutator, Act.bind_of_ok (pendingWalk_of_intact hintact), hleft, Act.get_bind, hintact]
  simp only [Bool.not_false, Bool.true_and]
  cases threads.dropWhile fun t => !w.host.hasRecord t with
  | nil => rfl
  | cons t rest =>
    change (discard listedHost >>= fun _ => pure (some t)) { w with walk := some rest } = _
    rw [Act.bind_of_ok (hlook { w with walk := some rest } rfl)]
    rfl

/-- What is left of a walk gives the threads with a record that are left. -/
theorem walks_of_pending (hintact : w.host.listBroken = false) (threads : List Thread) :
    Walks { w with walk := some threads } (threads.filter w.host.hasRecord)
      { w with walk := none } := by
  induction threads with
  | nil => exact .done (nextMutator_eq (w := { w with walk := some [] }) hintact [] rfl)
  | cons t threads ih =>
    have hnext := nextMutator_eq (w := { w with walk := some (t :: threads) }) hintact
      (t :: threads) rfl
    cases hrecord : w.host.hasRecord t with
    | true =>
      rw [List.filter_cons_of_pos hrecord]
      simp only [List.dropWhile_cons, hrecord, Bool.not_true, Bool.false_eq_true, if_false] at hnext
      exact .next hnext ih
    | false =>
      -- such a thread is skipped within the same call
      rw [List.filter_cons_of_neg (by simp [hrecord])]
      refine ih.congr ?_
      simp only [List.dropWhile_cons, hrecord, Bool.not_false, if_true] at hnext
      exact hnext.trans
        (nextMutator_eq (w := { w with walk := some threads }) hintact threads rfl).symm

/-- A walk from the start gives all threads with a record. -/
theorem walks_boundThreads (hintact : w.host.listBroken = false)
    (hdistinct : w.host.threadList.Nodup) :
    Walks { w with walk := none } w.host.boundThreads { w with walk := none } := by
  rw [← StandIn.Host.filter_hasRecord hdistinct]
  refine (walks_of_pending hintact w.host.threadList).congr ?_
  exact (nextMutator_eq (w := { w with walk := none }) hintact w.host.threadList rfl).trans
    (nextMutator_eq (w := { w with walk := some w.host.threadList }) hintact
      w.host.threadList rfl).symm

end World
end HeapBridge
