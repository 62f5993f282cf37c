import HeapBridge.Proofs.Object.Settling
import HeapBridge.Proofs.Watching
import HeapBridge.Proofs.World.Sweeping
import HeapBridge.World.Pausing

/-!
# Weak slots at the end of a pause

Sweeping lets weak slots settle, one after the other. That one slot does is the step, and what
follows the ways in which steps are put together takes it to a storage and to all storages, in any
order of these.
-/
namespace HeapBridge.World
open Memory Object Scan
variable {h : StandIn.Host} {w : World} {slots slots' : List Address}
  {events events' : Memory → List Event} {act act' : Act World Unit}

/-! ## Sweeping by parts -/

/-- Where the virtual machine is `h`, a computation lets slots settle. It changes nothing else, and
what it leaves in the trace depends on nothing but what the slots hold. -/
structure LetsSettle (h : StandIn.Host) (slots : List Address) (events : Memory → List Event)
    (act : Act World Unit) : Prop where
  run : ∀ w : World, w.host = h → Settleable w.collector.isLive slots w.memory →
    ∃ m, Settles w.collector.isLive slots w.memory m ∧
      act w = .ok () { w with memory := m, trace := w.trace ++ events w.memory }
  congr : ∀ live m m', Alike live slots m m' → events m' = events m

namespace LetsSettle

theorem nil (h : StandIn.Host) : LetsSettle h [] (fun _ => []) (pure ()) where
  run w _ _ := ⟨w.memory, .nil _ _, by rw [List.append_nil]; rfl⟩
  congr _ _ _ _ := rfl

theorem emit (h : StandIn.Host) (e : Event) : LetsSettle h [] (fun _ => [e]) (emit e) where
  run w _ _ := ⟨w.memory, .nil _ _, rfl⟩
  congr _ _ _ _ := rfl

theorem bind (hact : LetsSettle h slots events act) (hact' : LetsSettle h slots' events' act') :
    LetsSettle h (slots ++ slots') (fun m => events m ++ events' m) (act >>= fun _ => act') where
  run w hhost hslots := by
    obtain ⟨m, hsettles, hrun⟩ :=
      hact.run w hhost (hslots.sublist (List.sublist_append_left slots slots'))
    -- what the first part changes is nothing that the second one looks at
    have halike := hsettles.alike hslots
    have hslots' := (hslots.sublist (List.sublist_append_right slots slots')).alike halike
    obtain ⟨m', hsettles', hrun'⟩ :=
      hact'.run { w with memory := m, trace := w.trace ++ events w.memory } hhost hslots'
    refine ⟨m', hsettles.append hslots hsettles', ?_⟩
    rw [Act.bind_of_ok hrun, hrun', hact'.congr _ _ _ halike, List.append_assoc]
  congr live m m' halike := by
    rw [hact.congr live m m' (halike.sublist (List.sublist_append_left slots slots')),
      hact'.congr live m m' (halike.sublist (List.sublist_append_right slots slots'))]

theorem forM {ι : Type} {items : List ι} {slots : ι → List Address}
    {events : ι → Memory → List Event} {act : ι → Act World Unit}
    (hact : ∀ i ∈ items, LetsSettle h (slots i) (events i) (act i)) :
    LetsSettle h (items.flatMap slots) (fun m => items.flatMap (events · m)) (items.forM act) := by
  induction items with
  | nil => exact nil h
  | cons i items ih =>
    exact bind (hact i List.mem_cons_self) (ih fun j hj => hact j (List.mem_cons_of_mem i hj))

end LetsSettle

/-! ## One slot -/

/-- What the collector is asked for the sake of a slot. -/
def inquiry (slot : Address) (m : Memory) : List Event :=
  if m.word slot = 0 then [] else [.isLive (m.word slot)]

theorem updateMemory_store {slot : Address} (hslot : w.memory.admits slot .wide = true) (v : Word) :
    updateMemory (·.store slot .wide v) w = .ok () { w with memory := w.memory.setWord slot v } :=
  updateMemory_of_ok (store_eq_setWord hslot v)

/-- A slot with a live object follows it. -/
theorem follow_settles {slot : Address} (hslots : Settleable w.collector.isLive [slot] w.memory)
    (hsurvives : Survives w.collector.isLive (w.memory.word slot)) :
    ∃ m, Settles w.collector.isLive [slot] w.memory m ∧
      follow slot w = .ok () { w with memory := m } := by
  have hslot := hslots.mapped slot List.mem_cons_self
  have hheader := hslots.headers slot List.mem_cons_self hsurvives
  have hplace : Object.placeOf? w.memory (w.memory.word slot) =
      .ok (forwardedTo? (w.memory.word (w.memory.word slot))) := by
    rw [Object.placeOf?, Object.header, load_eq_word hheader]
    rfl
  rw [follow, Act.bind_of_ok (readMemory_of_ok (load_eq_word hslot)), if_neg hsurvives.1]
  change ∃ m, _ ∧ (readMemory (Object.placeOf? · (w.memory.word slot)) >>= _) w = _
  rw [Act.bind_of_ok (readMemory_of_ok hplace), forwardedTo?_eq]
  cases hmoved : moved (w.memory.word (w.memory.word slot)) with
  | false =>
    refine ⟨w.memory, .of_eq (List.forall_mem_singleton.mpr ?_), rfl⟩
    rw [settled_of_survives hsurvives, hmoved]
    rfl
  | true =>
    refine ⟨_, .setWord ?_, updateMemory_store hslot _⟩
    rw [settled_of_survives hsurvives, hmoved]
    rfl

theorem LetsSettle.sweepSlot (h : StandIn.Host) (slot : Address) :
    LetsSettle h [slot] (inquiry slot) (sweepSlot slot) where
  run w _ hslots := by
    have hslot := hslots.mapped slot List.mem_cons_self
    rw [World.sweepSlot, Act.bind_of_ok (readMemory_of_ok (load_eq_word hslot))]
    change ∃ m, _ ∧ (if w.memory.word slot = 0 then _ else _ : Act World Unit) w = _
    unfold inquiry
    by_cases hnull : w.memory.word slot = 0
    · refine ⟨w.memory, .of_eq (List.forall_mem_singleton.mpr ?_), ?_⟩
      · rw [settled_of_not_survives fun hsurvives => hsurvives.1 hnull, hnull]
      · rw [if_pos hnull, if_pos hnull, List.append_nil]
        rfl
    · rw [if_neg hnull, if_neg hnull]
      have hasked : isLive (w.memory.word slot) w = .ok (w.collector.isLive (w.memory.word slot))
          { w with trace := w.trace ++ [.isLive (w.memory.word slot)] } := rfl
      rw [Act.bind_of_ok hasked]
      cases hlives : w.collector.isLive (w.memory.word slot) with
      | true =>
        exact follow_settles (w := { w with trace := w.trace ++ [.isLive (w.memory.word slot)] })
          hslots ⟨hnull, hlives⟩
      | false =>
        have hdead : ¬ Survives w.collector.isLive (w.memory.word slot) :=
          fun hsurvives => Bool.false_ne_true (hlives.symm.trans hsurvives.2)
        exact ⟨_, .setWord (settled_of_not_survives hdead), updateMemory_store
          (w := { w with trace := w.trace ++ [.isLive (w.memory.word slot)] }) hslot 0⟩
  congr live m m' halike := by
    rw [inquiry, inquiry, (halike.words slot List.mem_cons_self).2]

/-! ## All slots -/

/-- What is asked and announced while a storage is swept. -/
def sweepEvents (h : StandIn.Host) (storage : WeakStorage) (m : Memory) : List Event :=
  .sweep storage :: (h.weakSlots storage).flatMap (inquiry · m)

theorem LetsSettle.sweep (h : StandIn.Host) (storage : WeakStorage) :
    LetsSettle h (h.weakSlots storage) (sweepEvents h storage) (sweep storage) := by
  have hslots := bind (.emit h (.sweep storage))
    (forM fun slot (_ : slot ∈ h.weakSlots storage) => sweepSlot h slot)
  rw [List.nil_append, List.flatMap_singleton'] at hslots
  refine ⟨?_, hslots.congr⟩
  rintro w rfl hsettleable
  exact hslots.run w rfl hsettleable

/-- The weak slots of all storages. -/
def weakSlots (w : World) : List Address := WeakStorage.all.flatMap w.host.weakSlots

/-- What is asked and announced while storages are swept in an order. -/
def sweepAllEvents (h : StandIn.Host) (order : List WeakStorage) (m : Memory) : List Event :=
  order.flatMap (sweepEvents h · m)

theorem LetsSettle.sweepAll (h : StandIn.Host) (order : List WeakStorage) :
    LetsSettle h (order.flatMap h.weakSlots) (sweepAllEvents h order) (order.forM World.sweep) :=
  forM fun storage _ => sweep h storage

/-- Storages swept in any order leave the one memory behind that their slots settle to. -/
theorem forM_sweep_eq {order : List WeakStorage} {m : Memory} (horder : order.Perm WeakStorage.all)
    (hslots : Settleable w.collector.isLive w.weakSlots w.memory)
    (hm : Settles w.collector.isLive w.weakSlots w.memory m) :
    order.forM sweep w =
      .ok () { w with memory := m, trace := w.trace ++ sweepAllEvents w.host order w.memory } := by
  have hperm : (order.flatMap w.host.weakSlots).Perm w.weakSlots := horder.flatMap_right _
  obtain ⟨m', hm', hrun⟩ := (LetsSettle.sweepAll w.host order).run w rfl (hslots.perm hperm)
  obtain rfl := hm.unique (hm'.perm hperm.symm)
  exact hrun

/-! ## The end of a pause -/

theorem keeps_checkRequester (call : PauseCall) : (checkRequester call).Keeps World.memory := by
  refine .get_bind fun w => ?_
  have houtside : (do
      if (← listedHost).isApplicationThread w.thread then throw (.pauseCallByApplication call) :
        Act World Unit).Keeps World.memory := by
    refine .bind (.get_bind fun _ => .lift _) fun h => ?_
    split
    · exact .throw _
    · exact .pure ()
  dsimp only
  split
  · exact houtside
  · exact .bind (.throw _) fun _ => houtside

theorem keeps_request (state : WorldState) (wait : Bool) :
    (request state wait).Keeps World.memory :=
  .bind (keeps_checkRequester .request) fun _ => .get_bind fun _ => .bind (.lift _) fun _ =>
    .bind (.lift _) fun _ => .modify fun _ => rfl

/-- Whatever comes of a restart, memory is what the sweep before it left behind. -/
theorem memory_resumeAll {w' : World} (h : sweepAll w = .ok () w') :
    (resumeAll.attempt w).2.memory = w'.memory := by
  have hrest : (do
      emit .epilogue
      keepStackScan false
      request .resumed true
      modify fun w => { w with restarts := w.restarts.restart } : Act World Unit).Keeps
        World.memory :=
    .bind (.modify fun _ => rfl) fun _ => .bind (.modify fun _ => rfl) fun _ =>
      .bind (keeps_request .resumed true) fun _ => .modify fun _ => rfl
  rw [resumeAll, Act.attempt, Act.bind_of_ok h]
  exact hrest w'

/-- What the sweep at the end of a pause comes to, if it leaves memory `m` behind. -/
structure SettlesAll (w : World) (m : Memory) : Prop where
  /-- Slots hold what they settle to, and no byte beside them has changed. -/
  settles : Settles w.collector.isLive w.weakSlots w.memory m
  /-- In whatever order the storages are swept, nothing else changes in the world. -/
  swept : ∀ order : List WeakStorage, order.Perm WeakStorage.all → order.forM sweep w =
    .ok () { w with memory := m, trace := w.trace ++ sweepAllEvents w.host order w.memory }
  /-- The storages by their numbers are all of them in order, -/
  numbered : [0, 1, 2, 3].forM sweepNumbered = sweepAll
  /-- and it is their sweep that a restart begins with, whatever comes of it then. -/
  resumed : (resumeAll.attempt w).2.memory = m
  /-- Of the bytes beside the slots only the headers of live objects in slots are ever read: in any
  memory that agrees in these, the sweep asks the same, and slots settle to the same. All else may
  hold anything there, or be missing, and whoever reads what is missing fails. -/
  unread : ∀ m₁, Alike w.collector.isLive w.weakSlots w.memory m₁ → ∃ m₂,
    sweepAll { w with memory := m₁ } = .ok () { w with
      memory := m₂, trace := w.trace ++ sweepAllEvents w.host WeakStorage.all w.memory } ∧
    (∀ slot ∈ w.weakSlots, m₂.word slot = m.word slot) ∧
    ∀ x, (∀ slot ∈ w.weakSlots, ¬ InWord slot x) → m₂.byte x = m₁.byte x
  /-- Once all objects that moved have arrived, another sweep changes no memory. -/
  again : Arrived w.collector.isLive w.weakSlots w.memory →
    ∀ order : List WeakStorage, order.Perm WeakStorage.all → ∀ trace,
      order.forM sweep { w with memory := m, trace := trace } =
        .ok () { w with memory := m, trace := trace ++ sweepAllEvents w.host order m }

/-- Weak slots that share bytes neither with each other nor with the headers of live objects in them
settle at the end of a pause. -/
theorem weak_slots_settle (w : World)
    (hslots : Settleable w.collector.isLive w.weakSlots w.memory) : ∃ m, SettlesAll w m := by
  obtain ⟨m, hm, hrun⟩ := (LetsSettle.sweepAll w.host WeakStorage.all).run w rfl hslots
  refine ⟨m, hm, fun order horder => forM_sweep_eq horder hslots hm, rfl, memory_resumeAll hrun,
    ?_, ?_⟩
  · intro m₁ halike
    obtain ⟨m₂, hm₂, hrun₂⟩ := (LetsSettle.sweepAll w.host WeakStorage.all).run
      { w with memory := m₁ } rfl (hslots.alike halike)
    rw [(LetsSettle.sweepAll w.host WeakStorage.all).congr _ _ _ halike] at hrun₂
    refine ⟨m₂, hrun₂, fun slot hslot => ?_, hm₂.byte⟩
    rw [hm₂.word slot hslot, hm.word slot hslot]
    exact halike.settled_eq hslot
  · intro harrived order horder trace
    obtain ⟨hslots', hm'⟩ := hm.again hslots harrived
    exact forM_sweep_eq (w := { w with memory := m, trace := trace }) horder hslots' hm'

/-- A world with weak slots in three storages. Of the objects in them one has moved, one is dead,
one is where it was, and one has moved to null. The header of the dead one says that it has moved,
too. -/
def paused : World :=
  { initial with
    memory := [(0x10000000, 0x10000100), (0x10000008, 0x10000200), (0x10000010, 0x10000300),
      (0x10000018, 0), (0x10000020, 0x10000400), (0x10000100, 0x0100000010000500),
      (0x10000200, 0x0300000010000500), (0x10000300, 7), (0x10000400, 0x0200000000000000),
      (0x10000500, 0xff)].foldl (fun m p => m.setWord p.1 p.2) arena
    host := ((StandIn.Host.initial.setWeakSlots .handles [0x10000000, 0x10000008]).setWeakSlots
      .vm [0x10000010, 0x10000018]).setWeakSlots .recorder [0x10000020]
    collector := { StandIn.Collector.initial with
      live := [0x10000100, 0x10000300, 0x10000400, 0x10000500] } }

theorem weak_slots_settle_paused :
    (Settleable paused.collector.isLive paused.weakSlots paused.memory ∧
      Arrived paused.collector.isLive paused.weakSlots paused.memory) ∧
      ∃ m, SettlesAll paused m ∧
        paused.weakSlots.map m.word = [0x10000500, 0, 0x10000300, 0, 0] := by
  have hslots : Settleable paused.collector.isLive paused.weakSlots paused.memory := by
    constructor <;> decide +kernel
  obtain ⟨m, hm⟩ := weak_slots_settle paused hslots
  refine ⟨⟨hslots, by decide +kernel⟩, m, hm, ?_⟩
  rw [List.map_congr_left hm.settles.word]
  decide +kernel

end HeapBridge.World
