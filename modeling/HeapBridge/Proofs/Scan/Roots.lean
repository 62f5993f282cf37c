import HeapBridge.Proofs.Barrier.Surroundings
import HeapBridge.Proofs.Scan.Visits
import HeapBridge.World.Scanning

/-!
# Roots in packets

Roots reach the collector as the greedy partition of what their slots report, in the order of the
visits: no slot is lost, none comes twice and none changes its place, whatever buffers the collector
lends. A scan of several sources is a scan of their slots in one run, so the packets of all threads
are the greedy partition of what the threads report one by one.
-/
namespace HeapBridge
open Scan
open Slot (Encoding)

/-! ## Scans of several sources -/

namespace World
variable {c : Closure} {supply : Supply} {f : Filling}

/-- Announcements aside, sources are visited as one list of slots. -/
theorem scanInto_eq (sources : List (Event × List Visit)) (f : Filling) (w : World) :
    ∃ w', scanInto c supply sources f w =
      .ok (c.visitUntil w.heapEncoding w.memory supply (sources.flatMap (·.2)) f) w' := by
  induction sources generalizing f w with
  | nil => exact ⟨w, rfl⟩
  | cons source sources ih =>
    obtain ⟨event, visits⟩ := source
    have hnamed : emit event w = .ok () { w with trace := w.trace ++ [event] } := rfl
    rw [scanInto, Act.bind_of_ok hnamed, Act.get_bind, List.flatMap_cons,
      Closure.visitUntil_append]
    obtain ⟨f₁, fault⟩ := c.visitUntil w.heapEncoding w.memory supply visits f
    cases fault with
    | none => exact ih f₁ { w with trace := w.trace ++ [event] }
    | some fault => exact ⟨_, rfl⟩

/-- A scan reports the greedy partition of the slots before the first that is refused. -/
theorem scan_eq (hsupply : ∀ i, 0 < supply i) (sources : List (Event × List Visit)) (w : World) :
    ∃ r w', scan c supply sources w = .ok r w' ∧
      r.fault = (sources.flatMap (·.2)).findSome? (c.refusal? w.heapEncoding w.memory) ∧
      IsGreedy supply ((c.accepted w.heapEncoding w.memory (sources.flatMap (·.2))).filterMap
        (c.report? w.heapEncoding w.memory)) r.filled.packets := by
  obtain ⟨w', hinto⟩ := scanInto_eq (c := c) sources (.start supply) w
  obtain ⟨f, huntil, hholds⟩ := Closure.visitUntil_holds (c := c) (e := w.heapEncoding)
    (m := w.memory) hsupply (Filling.holds_start hsupply) (sources.flatMap (·.2))
  rw [huntil] at hinto
  refine ⟨_, w', Act.bind_of_ok hinto, rfl, ?_⟩
  simpa using hholds.isGreedy hsupply

end World

/-! ## Threads -/

theorem findSome?_flatMap {α β γ : Type} (f : β → Option γ) (g : α → List β) (as : List α) :
    (as.flatMap g).findSome? f = as.findSome? fun a => (g a).findSome? f := by
  induction as with
  | nil => rfl
  | cons a as ih =>
    rw [List.flatMap_cons, List.findSome?_append, ih, List.findSome?_cons]
    cases (g a).findSome? f <;> rfl

/-- Items up to the first that has a property, and that one. -/
def through {α : Type} (p : α → Bool) : List α → List α
  | [] => []
  | a :: as => if p a then [a] else a :: through p as

theorem through_of_forall_not {α : Type} {p : α → Bool} {as : List α} (h : ∀ a ∈ as, ¬ p a) :
    through p as = as := by
  induction as with
  | nil => rfl
  | cons a as ih =>
    rw [through, if_neg (h a List.mem_cons_self),
      ih fun b hb => h b (List.mem_cons_of_mem a hb)]

namespace Scan.Closure
variable {c : Closure} {e : Option Encoding} {m : Memory} {α : Type}

/-- Slots are accepted in two parts as long as none of the first is refused. -/
theorem accepted_append (vs ws : List Visit) :
    c.accepted e m (vs ++ ws) = c.accepted e m vs ++
      if (vs.findSome? (c.refusal? e m)).isSome then [] else c.accepted e m ws := by
  induction vs with
  | nil => rfl
  | cons v vs ih =>
    cases hv : c.refusal? e m v with
    | none => simpa [accepted, hv] using ih
    | some fault => simp [accepted, hv]

/-- The slots of several items are accepted item by item, through the first that has a refused
slot. -/
theorem accepted_flatMap (visits : α → List Visit) (as : List α) :
    c.accepted e m (as.flatMap visits) =
      (through (fun a => ((visits a).findSome? (c.refusal? e m)).isSome) as).flatMap
        fun a => c.accepted e m (visits a) := by
  induction as with
  | nil => rfl
  | cons a as ih =>
    rw [List.flatMap_cons, accepted_append, through]
    split
    · simp
    · rw [List.flatMap_cons, ih]

end Scan.Closure

/-! ## Packets -/

namespace Scan

/-- The packets of a run of visits, and the refusals with their places. -/
def packets (c : Closure) (e : Option Encoding) (m : Memory) (supply : Supply) (vs : List Visit) :
    List (List Word) × List (Nat × Fault) :=
  let (f, faults) := c.visitAll e m supply 0 vs (.start supply)
  ((f.finish supply).packets, faults)

/-- A run of visits to roots reports the slots that hold an object, as a greedy partition, and no
other slot leaves a trace in its packets. -/
structure ReportsRoots (e : Option Encoding) (m : Memory) (supply : Supply) (vs : List Visit) :
    Prop where
  greedy : IsGreedy supply (vs.filterMap (Visit.edge? e m)) (packets .roots e m supply vs).1
  length_eq : ∀ capacity, (∀ i, supply i = capacity) → (packets .roots e m supply vs).1.length =
    ((vs.filterMap (Visit.edge? e m)).length + capacity - 1) / capacity
  no_trace : (packets .roots e m supply (vs.filter fun v => (v.edge? e m).isSome)).1 =
    (packets .roots e m supply vs).1
  faults_eq : (packets .roots e m supply vs).2 =
    vs.zipIdx.filterMap fun p => (p.1.refusal? e m).map (p.2, ·)

theorem packets_eq (c : Closure) (e : Option Encoding) (m : Memory) {supply : Supply}
    (hsupply : ∀ i, 0 < supply i) (vs : List Visit) :
    IsGreedy supply (vs.filterMap (c.report? e m)) (packets c e m supply vs).1 ∧
      (packets c e m supply vs).2 = c.refusals e m 0 vs := by
  obtain ⟨f, hrun, hholds⟩ := Closure.visitAll_holds (c := c) (e := e) (m := m) hsupply
    (Filling.holds_start hsupply) 0 vs
  rw [packets, hrun]
  exact ⟨by simpa using hholds.isGreedy hsupply, rfl⟩

theorem isGreedy_roots (e : Option Encoding) (m : Memory) {supply : Supply}
    (hsupply : ∀ i, 0 < supply i) (vs : List Visit) :
    IsGreedy supply (vs.filterMap (Visit.edge? e m)) (packets .roots e m supply vs).1 := by
  rw [← funext (Visit.report?_roots e m)]
  exact (packets_eq .roots e m hsupply vs).1

theorem reportsRoots {e : Option Encoding} (hdecodes : ∀ enc ∈ e, enc.Decodes) (m : Memory)
    {supply : Supply} (hsupply : ∀ i, 0 < supply i) (vs : List Visit) :
    ReportsRoots e m supply vs := by
  have hgreedy := isGreedy_roots e m hsupply vs
  constructor
  · exact hgreedy
  · exact fun capacity hcapacity => hgreedy.length_eq (hcapacity 0 ▸ hsupply 0) hcapacity
  · have hsame : (vs.filter fun v => (v.edge? e m).isSome).filterMap (Visit.edge? e m) =
        vs.filterMap (Visit.edge? e m) := by
      rw [List.filterMap_filter]
      refine List.filterMap_congr fun v _ => ?_
      cases v.edge? e m <;> rfl
    have hfiltered := isGreedy_roots e m hsupply (vs.filter fun v => (v.edge? e m).isSome)
    rw [hsame] at hfiltered
    exact hfiltered.unique hgreedy
  · simp only [(packets_eq .roots e m hsupply vs).2, Closure.refusals,
      Visit.refusal?_roots hdecodes]

end Scan

namespace World

/-- The scan of all threads in world `w`, of which `r` came, and the scans of the single threads, of
which `own` came. The scan of all threads ends with the first thread whose own scan fails. -/
structure ThreadsReported (w : World) (supply : Supply) (r : ScanResult)
    (own : Thread → ScanResult) : Prop where
  fault_eq : r.fault = w.host.threadList.findSome? fun t => (own t).fault
  through_fault : IsGreedy supply
    ((through (fun t => (own t).fault.isSome) w.host.threadList).flatMap fun t =>
      (own t).filled.packets.flatten) r.filled.packets
  greedy : (∀ t ∈ w.host.threadList, (own t).fault = none) →
    IsGreedy supply (w.host.threadList.flatMap fun t => (own t).filled.packets.flatten)
      r.filled.packets

theorem threadsReported {w : World} (hlist : w.host.listBroken = false) {supply : Supply}
    (hsupply : ∀ i, 0 < supply i) (lent : Thread → Supply) (hlent : ∀ t i, 0 < lent t i) :
    ∃ r own, (∃ w', scanAllThreadRoots supply w = .ok r w') ∧
      (∀ t, ∃ w', scanThreadRoots t (lent t) w = .ok (own t) w') ∧
      ThreadsReported w supply r own := by
  have hown : ∀ t, ∃ r, (∃ w', scanThreadRoots t (lent t) w = .ok r w') ∧
      r.fault = (w.host.threadRoots t).findSome? (Closure.roots.refusal? w.heapEncoding w.memory) ∧
      IsGreedy (lent t) ((Closure.roots.accepted w.heapEncoding w.memory
        (w.host.threadRoots t)).filterMap (Closure.roots.report? w.heapEncoding w.memory))
        r.filled.packets := by
    intro t
    obtain ⟨r, w', hrun, hfault, hgreedy⟩ :=
      scan_eq (c := .roots) (hlent t) [threadSource w.host t] w
    simp only [threadSource, List.flatMap_singleton] at hfault hgreedy
    exact ⟨r, ⟨w', hrun⟩, hfault, hgreedy⟩
  choose own hruns hfaults hgreedies using hown
  obtain ⟨r, w', hrun, hfault, hgreedy⟩ :=
    scan_eq (c := .roots) hsupply (w.host.threadList.map (threadSource w.host)) w
  have hall : scanAllThreadRoots supply w = .ok r w' := by
    rw [← hrun, scanAllThreadRoots, Act.get_bind, StandIn.Host.listed_of_intact hlist]
  simp only [List.flatMap_map, threadSource] at hfault hgreedy
  refine ⟨r, own, ⟨w', hall⟩, hruns, ?_⟩
  have hthrough : IsGreedy supply
      ((through (fun t => (own t).fault.isSome) w.host.threadList).flatMap fun t =>
        (own t).filled.packets.flatten) r.filled.packets := by
    simpa only [hfaults, (hgreedies _).flatten, Closure.accepted_flatMap, List.filterMap_flatMap]
      using hgreedy
  constructor
  · simp only [hfault, hfaults, findSome?_flatMap]
  · exact hthrough
  · intro hnone
    rwa [through_of_forall_not fun t ht => by simp [hnone t ht]] at hthrough

end World

/-- Roots are neither lost nor doubled nor moved: visits to any slots over any buffers that can hold
something report the greedy partition of the slots that hold an object, and a scan of all threads
reports the greedy partition of what the scans of the single threads report. -/
theorem roots_reported_in_order {e : Option Encoding} (hdecodes : ∀ enc ∈ e, enc.Decodes)
    (m : Memory) {supply : Supply} (hsupply : ∀ i, 0 < supply i) (vs : List Visit) {w : World}
    (hlist : w.host.listBroken = false) (lent : Thread → Supply) (hlent : ∀ t i, 0 < lent t i) :
    ReportsRoots e m supply vs ∧
      ∃ r own, (∃ w', World.scanAllThreadRoots supply w = .ok r w') ∧
        (∀ t, ∃ w', World.scanThreadRoots t (lent t) w = .ok (own t) w') ∧
        World.ThreadsReported w supply r own :=
  ⟨reportsRoots hdecodes m hsupply vs, World.threadsReported hlist hsupply lent hlent⟩

/-- Buffers of one and of two words. A marked slot among five is refused and an empty one is passed
over; the second of two threads has a marked slot as well. -/
theorem roots_reported_in_order_mixed :
    let enc : Encoding := ⟨0x800000000, 3⟩
    let m := ((Memory.zeroed 0x1000 0x40).setByte 0x1008 0x50).setByte 0x1010 0x60
    let vs : List Visit := [.wide 0x1008, .narrow 0x1010, .wide 0x8000000000001008, .wide 0x1020,
      .wide 0x1010]
    let supply := Supply.ofList [1, 2]
    let host := ((StandIn.Host.withThreads 2).setThreadRoots (StandIn.Host.threadOf 1)
      [.wide 0x10000000]).setThreadRoots (StandIn.Host.threadOf 2) [.wide 0x8000000010000000]
    let w : World := { World.initial with host := host }
    ReportsRoots (some enc) m supply vs ∧
      ∃ r own, (∃ w', World.scanAllThreadRoots supply w = .ok r w') ∧
        (∀ t, ∃ w', World.scanThreadRoots t (fun _ => 3) w = .ok (own t) w') ∧
        World.ThreadsReported w supply r own := by
  intro enc m vs supply host w
  have hdecodes : ∀ enc' ∈ some enc, enc'.Decodes := by
    rintro enc' ⟨⟩
    exact Encoding.decodes_of_le (by decide) (by decide)
  have hsupply : ∀ i, 0 < supply i := by
    intro i
    match i with
    | 0 => decide
    | 1 => decide
    | i + 2 => simp [supply, Supply.ofList]
  exact roots_reported_in_order hdecodes m hsupply vs rfl (fun _ _ => 3) fun _ _ => by decide

end HeapBridge
