import HeapBridge.Proofs.Pause.Accounts
import Mathlib.Data.List.Basic

/-!
# Safepoints do not nest

What the books of a run say about safepoints: the VM thread opens and closes one for each operation
that it takes, in the order in which the operations were sent, and whatever they do to any depth is
done in between. Operations that wait for nobody are all evaluated once the VM thread is left to
itself.
-/
namespace HeapBridge.Pause
variable {r : Requester} {s t : System} {m : System.Move} {d : Duty} {rest : List Duty}
  {orders : List Order} {seen : List Sight} {taken : List Operation} {cur : Option Requester}
  {left : List Sight}

/-! ## Safepoints of a service -/

def Event.isSafepoint : Event → Bool
  | safepointBegin | safepointEnd => true
  | _ => false

/-- The end of a safepoint that is reached at a sight. -/
def Sight.safepoint? (x : Sight) : Option Event :=
  match x.moment with
  | .opening => some .safepointBegin
  | .closing => some .safepointEnd
  | _ => none

theorem Sight.filter_event? (x : Sight) : x.event?.filter Event.isSafepoint = x.safepoint? := by
  obtain ⟨p, r, m, isOpen, isStopped⟩ := x
  cases m with
  | doing a => cases a <;> rfl
  | prologue | epilogue => cases r <;> rfl
  | _ => rfl

/-- Whether a moment is one of a body. -/
def Moment.isDeed : Moment → Bool
  | doing _ | back => true
  | _ => false

mutual
theorem Action.isDeed_of_mem_deeds : (a : Action) → ∀ m ∈ a.deeds, m.isDeed = true
  | .nested body noted => by
    intro m hm
    rw [Action.deeds, List.mem_cons, List.mem_append] at hm
    obtain rfl | hbody | hback := hm
    · rfl
    · exact isDeed_of_mem_deedsAll body m hbody
    · cases noted
      · cases hback
      · exact List.mem_singleton.mp hback ▸ rfl
  | .note | .announce | .takePause | .request _ | .giveUp | .stopWorld => by
    simp [Action.deeds, Moment.isDeed]

theorem isDeed_of_mem_deedsAll : (as : List Action) → ∀ m ∈ deedsAll as, m.isDeed = true
  | [] => nofun
  | a :: as => by
    intro m hm
    rcases List.mem_append.mp hm with ha | has
    · exact a.isDeed_of_mem_deeds m ha
    · exact isDeed_of_mem_deedsAll as m has
end

/-- A safepoint is opened and closed for an operation, and no other one, however deep it goes. -/
theorem Operation.safepoints_service (op : Operation) :
    op.service.filterMap Sight.safepoint? = [.safepointBegin, .safepointEnd] := by
  have hdeeds : (deedsAll op.body).filterMap (Sight.safepoint? ∘ Sight.due op.requester) = [] := by
    refine List.filterMap_eq_nil_iff.mpr fun m hm => ?_
    have hdeed := isDeed_of_mem_deedsAll op.body m hm
    cases m <;> first | rfl | cases hdeed
  simp only [service, served, List.filterMap_map, List.filterMap_append, hdeeds]
  rfl

theorem safepoints_services (ops : List Operation) :
    (ops.flatMap Operation.service).filterMap Sight.safepoint? =
      (List.replicate ops.length [.safepointBegin, .safepointEnd]).flatten := by
  rw [List.filterMap_flatMap]
  simp only [Operation.safepoints_service]
  rw [List.flatMap_def, List.map_const']

/-! ## Safepoints of a run -/

/-- Safepoints are opened and closed on the VM thread only. -/
theorem System.Watches.history_safepoints (h : System.Watches orders seen s) :
    s.history.filter Event.isSafepoint = (onVmThread seen).filterMap Sight.safepoint? := by
  have hops : (s.history.filter Event.isOfOperation).filter Event.isSafepoint =
      s.history.filter Event.isSafepoint := by
    rw [List.filter_filter]
    refine List.filter_congr fun e _ => ?_
    cases e <;> rfl
  rw [← hops, h.history_filter, List.filter_filterMap, onVmThread, List.filterMap_filter]
  simp only [Sight.filter_event?]
  refine List.filterMap_congr fun x hx => ?_
  split
  · rfl
  case isFalse hparty =>
    have hwhere := h.party_eq x hx
    obtain ⟨p, r, m, isOpen, isStopped⟩ := x
    cases m <;> first | rfl | exact absurd hwhere (by simpa [Moment.party] using hparty)

theorem dueBy_append (ops : List Operation) (orders : List Order) :
    dueBy (ops.map .run ++ orders) = ops ++ dueBy orders := by
  induction ops with
  | nil => rfl
  | cons op ops ih => exact congrArg (op :: ·) ih

namespace Accounted

/-- The operations that were taken are those that were sent first, and all of them once the VM
thread has ended or has nothing left. -/
theorem dueBy_eq (h : Accounted orders seen s taken cur left) :
    ∃ later, dueBy orders = taken ++ later ∧
      (s.vm.life = .ended ∨ s.vm.queue = [] → later = []) := by
  rw [h.orders_eq, List.append_assoc, dueBy_append]
  refine ⟨_, rfl, ?_⟩
  rintro (hended | hqueue)
  · rw [hended]
    rfl
  · rw [hqueue]
    cases s.vm.life <;> rfl

theorem onVmThread_prefix (h : Accounted orders seen s taken cur left) :
    onVmThread seen <+: (dueBy orders).flatMap Operation.service := by
  obtain ⟨later, hdue, -⟩ := h.dueBy_eq
  rw [hdue, List.flatMap_append, ← h.seen_eq, List.append_assoc]
  exact List.prefix_append _ _

/-- Between two operations everything has been seen of those that were taken. -/
theorem between (h : Accounted orders seen s taken cur left) (hduties : s.vm.duties = [])
    (hlife : s.vm.life ≠ .lost) : s.IsOpen false ∧ cur = none ∧ left = [] := by
  cases h.place with
  | between _ _ hopen => exact ⟨hopen, rfl, rfl⟩
  | serving _ hserving _ =>
    rw [hduties] at hserving
    cases hserving with
    | inside hinside => cases hinside
  | lost _ hlost _ => exact absurd hlost hlife

/-- A VM thread that has ended or has nothing left has evaluated all that was sent before. -/
theorem complete (h : Accounted orders seen s taken cur left) (hlife : s.vm.life ≠ .lost)
    (hduties : s.vm.duties = []) (hqueue : s.vm.life = .ended ∨ s.vm.queue = []) :
    onVmThread seen = (dueBy orders).flatMap Operation.service := by
  obtain ⟨later, hdue, hlater⟩ := h.dueBy_eq
  obtain ⟨-, -, rfl⟩ := h.between hduties hlife
  rw [hdue, hlater hqueue, List.append_nil, ← h.seen_eq, List.append_nil]

end Accounted

/-! ## The VM thread alone -/

mutual
/-- Whether an action waits for nobody and does not give up. -/
def Action.isPlain : Action → Bool
  | .note | .announce | .request _ => true
  | .nested body _ => allPlain body
  | .takePause | .giveUp | .stopWorld => false

/-- Whether all actions of a body are plain. -/
def allPlain : List Action → Bool
  | [] => true
  | a :: as => a.isPlain && allPlain as
end

def Duty.isPlain : Duty → Bool
  | .act a => a.isPlain
  | .openSafepoint | .noteNested | .closeSafepoint | .reply _ => true
  | _ => false

def Order.isPlain : Order → Bool
  | .run op => allPlain op.body
  | .terminate => true

/-- The VM thread has only operations to evaluate that wait for nobody. -/
structure System.IsPlain (s : System) : Prop where
  duties : ∀ d ∈ s.vm.duties, d.isPlain = true
  queue : ∀ o ∈ s.vm.queue, o.isPlain = true

theorem isPlain_map_act {body : List Action} (h : allPlain body = true) :
    ∀ d ∈ body.map Duty.act, d.isPlain = true := by
  induction body with
  | nil => exact nofun
  | cons a as ih =>
    obtain ⟨ha, has⟩ := Bool.and_eq_true_iff.mp h
    exact List.forall_mem_cons.mpr ⟨ha, ih has⟩

theorem isPlain_inSafepoint {ds : List Duty} (h : ∀ d ∈ ds, d.isPlain = true) :
    ∀ d ∈ System.inSafepoint ds, d.isPlain = true := by
  refine List.forall_mem_append.mpr ⟨List.forall_mem_append.mpr ⟨?_, h⟩, ?_⟩ <;> simp [Duty.isPlain]

namespace System

/-- A plain duty can be done at any time, and leaves plain ones. -/
theorem exists_discharge (hd : d.isPlain = true) :
    ∃ t front, s.discharge rest d = some t ∧ (∀ d' ∈ front, d'.isPlain = true) ∧
      t.vm = { s.vm with duties := front ++ rest } := by
  cases d with
  | openSafepoint | noteNested | closeSafepoint => exact ⟨_, [], rfl, nofun, rfl⟩
  | reply r => exact ⟨_, [], rfl, nofun, vm_reply _ r⟩
  | act a =>
    cases a with
    | note | announce | request _ => exact ⟨_, [], rfl, nofun, rfl⟩
    | nested body noted =>
      refine ⟨_, s.inPlace (body.map .act) ++ (if noted then [.noteNested] else []), rfl, ?_, ?_⟩
      · refine List.forall_mem_append.mpr ⟨?_, by cases noted <;> simp [Duty.isPlain]⟩
        rw [inPlace]
        split
        · exact isPlain_map_act hd
        · exact isPlain_inSafepoint (isPlain_map_act hd)
      · cases noted <;> simp [setDuties]
    | takePause | giveUp | stopWorld => cases hd
  | _ => cases hd

theorem exists_moment_of_isPlain (hd : d.isPlain = true) : ∃ m, d.moment? = some m := by
  cases d <;> first | exact ⟨_, rfl⟩ | cases hd

theorem onVmThread_sights :
    onVmThread (s.sights (.proceed .vmThread)) = s.sights (.proceed .vmThread) := by
  refine List.filter_eq_self.mpr fun x hx => decide_eq_true ?_
  simp only [sights, sightsOf] at hx
  split at hx
  · obtain ⟨m, -, rfl⟩ := List.mem_map.mp hx
    rfl
  · exact List.mem_singleton.mp hx ▸ rfl
  · cases hx

theorem takeOrder_of_run {op : Operation} {queue : List Order}
    (hqueue : s.vm.queue = .run op :: queue) :
    s.takeOrder = some { s with vm := { s.vm with
      queue, duties := inSafepoint (op.body.map .act) ++ [.reply op.requester] } } := by
  rw [takeOrder, hqueue]

theorem takeOrder_of_terminate {queue : List Order} (hqueue : s.vm.queue = .terminate :: queue) :
    s.takeOrder = some { s with vm := { s.vm with queue, life := .ended } } := by
  rw [takeOrder, hqueue]

/-- With a plain duty to do the VM thread goes on, and shows a moment. -/
theorem IsPlain.exists_step_of_duties (h : s.IsPlain) (hlife : s.vm.life = .running)
    (hduties : s.vm.duties = d :: rest) :
    ∃ t, s.stepVmThread = some t ∧ t.vm.life = .running ∧ t.IsPlain ∧
      (s.sights (.proceed .vmThread)).length = 1 := by
  have hplain := h.duties
  rw [hduties] at hplain
  obtain ⟨hd, hrest⟩ := List.forall_mem_cons.mp hplain
  obtain ⟨t, front, hdischarge, hfront, hvm⟩ := exists_discharge hd
  obtain ⟨m, hm⟩ := exists_moment_of_isPlain hd
  refine ⟨t, ?_, by rw [hvm, hlife], ⟨?_, ?_⟩, by simp [sights, sightsOf, hduties, hm]⟩
  · simpa [stepVmThread, hlife, hduties] using hdischarge
  · rw [hvm]
    exact List.forall_mem_append.mpr ⟨hfront, hrest⟩
  · rw [hvm]
    exact h.queue

/-- With plain operations in its queue the VM thread takes one and shows that, or it ends. -/
theorem IsPlain.exists_step_of_queue (h : s.IsPlain) (hlife : s.vm.life = .running)
    (hduties : s.vm.duties = []) (hqueue : s.vm.queue ≠ []) :
    ∃ t, s.stepVmThread = some t ∧ (t.vm.life = .ended ∧ t.vm.duties = [] ∨
      t.vm.life = .running ∧ t.IsPlain ∧ (s.sights (.proceed .vmThread)).length = 1) := by
  have hstep : s.stepVmThread = s.takeOrder := by simp [stepVmThread, hlife, hduties]
  obtain ⟨o, queue, hqueue⟩ := List.exists_cons_of_ne_nil hqueue
  have hplain := h.queue
  rw [hqueue] at hplain
  obtain ⟨ho, hlater⟩ := List.forall_mem_cons.mp hplain
  cases o with
  | terminate => exact ⟨_, hstep.trans (takeOrder_of_terminate hqueue), .inl ⟨rfl, hduties⟩⟩
  | run op =>
    refine ⟨_, hstep.trans (takeOrder_of_run hqueue), .inr ⟨hlife, ⟨?_, hlater⟩, ?_⟩⟩
    · exact List.forall_mem_append.mpr
        ⟨isPlain_inSafepoint (isPlain_map_act ho), by simp [Duty.isPlain]⟩
    · simp [sights, sightsOf, hduties, hqueue]

theorem IsPlain.exists_step (h : s.IsPlain) (hlife : s.vm.life = .running)
    (hbusy : ¬ (s.vm.duties = [] ∧ s.vm.queue = [])) :
    ∃ t, s.stepVmThread = some t ∧ (t.vm.life = .ended ∧ t.vm.duties = [] ∨
      t.vm.life = .running ∧ t.IsPlain ∧ (s.sights (.proceed .vmThread)).length = 1) := by
  cases hduties : s.vm.duties with
  | cons d rest =>
    obtain ⟨t, hstep, hnext⟩ := h.exists_step_of_duties hlife hduties
    exact ⟨t, hstep, .inr hnext⟩
  | nil => exact h.exists_step_of_queue hlife hduties fun hqueue => hbusy ⟨hduties, hqueue⟩

/-- The VM thread makes a step and goes on alone. -/
theorem watch_vmThread {k : Nat} (hstep : s.stepVmThread = some t) :
    watch (List.replicate (k + 1) (.proceed .vmThread)) (orders, seen, s) =
      watch (List.replicate k (.proceed .vmThread))
        (orders, seen ++ s.sights (.proceed .vmThread), t) := by
  have hmove : s.step (.proceed .vmThread) = some t := hstep
  rw [List.replicate_succ, watch, hmove, sends_vmThread, List.append_nil, Option.bind_some]

/-- The VM thread has nothing to do and no operation in hand. -/
def IsDrained (s : System) : Prop :=
  s.vm.life ≠ .lost ∧ s.vm.duties = [] ∧ (s.vm.life = .ended ∨ s.vm.queue = [])

theorem Watches.onVmThread_prefix (h : Watches orders seen s) :
    onVmThread seen <+: (dueBy orders).flatMap Operation.service := by
  obtain ⟨taken, cur, left, h⟩ := h.exists_accounted
  exact h.onVmThread_prefix

/-- Left to itself the VM thread gets through plain operations: every step shows one of the moments
that are due, and there are only so many. -/
theorem Watches.exists_drained (n : Nat) (h : Watches orders seen s) (hlife : s.vm.life = .running)
    (hplain : s.IsPlain) (hn : ((dueBy orders).flatMap Operation.service).length <
      (onVmThread seen).length + n) :
    ∃ k seen' t, watch (List.replicate k (.proceed .vmThread)) (orders, seen, s) =
      some (orders, seen', t) ∧ t.IsDrained := by
  induction n generalizing seen s with
  | zero => exact absurd h.onVmThread_prefix.length_le (by omega)
  | succ n ih =>
    by_cases hidle : s.vm.duties = [] ∧ s.vm.queue = []
    · exact ⟨0, seen, s, rfl, by rw [hlife]; nofun, hidle.1, .inr hidle.2⟩
    · obtain ⟨t, hstep, ⟨hended, hduties⟩ | ⟨hlife', hplain', hone⟩⟩ :=
        hplain.exists_step hlife hidle
      · exact ⟨1, _, t, watch_vmThread hstep, by rw [hended]; nofun, hduties, .inl hended⟩
      · have hmove : s.step (.proceed .vmThread) = some t := hstep
        have hnext := h.move _ hmove
        rw [sends_vmThread, List.append_nil] at hnext
        have hlength : (onVmThread (seen ++ s.sights (.proceed .vmThread))).length =
            (onVmThread seen).length + 1 := by
          rw [onVmThread_append, onVmThread_sights, List.length_append, hone]
        obtain ⟨k, seen', u, hwatch, hdrained⟩ := ih hnext hlife' hplain' (by omega)
        exact ⟨k + 1, seen', u, (watch_vmThread hstep).trans hwatch, hdrained⟩

end System

/-! ## All runs -/

/-- How operations are evaluated, given what was sent to the VM thread and what could be seen. -/
structure OneByOne (orders : List Order) (seen : List Sight) (s : System) : Prop where
  /-- What is in the queue is what was sent last. -/
  queued : s.vm.queue <:+ orders
  /-- The VM thread evaluates the operations one after the other, in the order in which they were
  sent. Each is taken, has its one safepoint around all that it does, and is answered. -/
  inOrder : onVmThread seen <+: (dueBy orders).flatMap Operation.service
  /-- Whatever an operation does itself or in others is done in a safepoint of the stopped world. -/
  stopped : ∀ x ∈ seen, ∀ a, x.moment = .doing a → x.atSafepoint = true ∧ x.worldStopped = true
  /-- A safepoint is closed before another one is opened. -/
  apart : s.history.filter Event.isSafepoint <+:
    (List.replicate (dueBy orders).length [Event.safepointBegin, .safepointEnd]).flatten
  /-- Between operations the world runs, and safepoints were opened and closed for the operations
  that are done, one for each. -/
  between : s.vm.duties = [] → s.vm.life ≠ .lost → s.IsOpen false ∧
    ∃ k, onVmThread seen = ((dueBy orders).take k).flatMap Operation.service ∧
      s.history.filter Event.isSafepoint =
        (List.replicate k [Event.safepointBegin, .safepointEnd]).flatten
  /-- Once the VM thread has ended, all operations that were sent before that are done. -/
  complete : s.IsDrained → onVmThread seen = (dueBy orders).flatMap Operation.service
  /-- The VM thread alone gets through operations that wait for nobody. -/
  drains : s.vm.life = .running → s.IsPlain → ∃ k seen' t,
    System.watch (List.replicate k (.proceed .vmThread)) (orders, seen, s) =
      some (orders, seen', t) ∧ t.IsDrained ∧
      onVmThread seen' = (dueBy orders).flatMap Operation.service
  /-- An operation has its prologue, its service and its epilogue once each and in this order, and a
  requester has one operation at a time. -/
  lives : ∀ r, momentsOf r seen <+: (momentsOf r seen).flatMap Moment.begun
  /-- Requesters that are free have seen their operations through. -/
  free : ∀ r, s.standing r = .free → momentsOf r seen = (momentsOf r seen).flatMap Moment.begun
  /-- Nobody waits for a VM thread that has nothing to do. -/
  answered : s.vm.life = .running → s.vm.duties = [] → s.vm.queue = [] →
    ∀ r role, s.standing r ≠ .waiting role
  /-- Prologues and epilogues are on the thread of the requester, and everything else is on the VM
  thread. -/
  parties : ∀ x ∈ seen, x.party = x.moment.party x.requester
  /-- The history tells the same. -/
  recorded : s.history.filter Event.isOfOperation = seen.filterMap Sight.event?

namespace Accounted

theorem stopped (h : Accounted orders seen s taken cur left) {x : Sight}
    (hx : x ∈ onVmThread seen) : x.atSafepoint = x.moment.isInside ∧
      x.worldStopped = x.moment.isInside := by
  obtain ⟨op, -, hop⟩ := List.mem_flatMap.mp (h.onVmThread_prefix.mem hx)
  obtain ⟨m, -, rfl⟩ := List.mem_map.mp hop
  exact ⟨rfl, rfl⟩

theorem lives_prefix (h : Accounted orders seen s taken cur left) (r : Requester) :
    momentsOf r seen <+: (momentsOf r seen).flatMap Moment.begun := by
  obtain ⟨tail, -, heq⟩ := h.lives r
  rw [← heq, momentsOf_append, List.append_assoc]
  exact List.prefix_append _ _

theorem lives_of_free (h : Accounted orders seen s taken cur left) (hfree : s.standing r = .free) :
    momentsOf r seen = (momentsOf r seen).flatMap Moment.begun := by
  obtain ⟨tail, htail, heq⟩ := h.lives r
  have hnone : momentsOf r (left ++ s.vm.queue.flatMap Order.service) = [] := by
    refine momentsOf_eq_nil ?_
    rintro x hx rfl
    exact h.owed.not_mem (by simp [hfree]) (by simp [hfree]) (h.place.mem_owedTo hx)
  rw [hfree] at htail
  cases htail
  simpa [momentsOf_append, hnone] using heq

end Accounted

/-- Safepoints do not nest, whatever operations other threads send and whatever those execute in
turn: the VM thread evaluates one after the other, each in a safepoint of its own. -/
theorem safepoints_never_nest (h : System.Watches orders seen s) : OneByOne orders seen s := by
  obtain ⟨taken, cur, left, hbooks⟩ := h.exists_accounted
  have hcomplete : ∀ {seen s}, System.Watches orders seen s → s.IsDrained →
      onVmThread seen = (dueBy orders).flatMap Operation.service := by
    intro seen s h hdrained
    obtain ⟨taken, cur, left, hbooks⟩ := h.exists_accounted
    exact hbooks.complete hdrained.1 hdrained.2.1 hdrained.2.2
  refine ⟨?queued, hbooks.onVmThread_prefix, ?stopped, ?apart, ?between, hcomplete h, ?drains,
    hbooks.lives_prefix, fun r => hbooks.lives_of_free, ?answered, h.party_eq, h.history_filter⟩
  case queued =>
    rw [hbooks.orders_eq]
    exact List.suffix_append _ _
  case stopped =>
    intro x hx a hmoment
    have hparty : x.party = .vmThread := by rw [h.party_eq x hx, hmoment]; rfl
    have hflags := hbooks.stopped (List.mem_filter.mpr ⟨hx, decide_eq_true hparty⟩)
    rwa [hmoment] at hflags
  case apart =>
    rw [h.history_safepoints, ← safepoints_services]
    exact hbooks.onVmThread_prefix.filterMap _
  case between =>
    intro hduties hlife
    obtain ⟨hopen, -, rfl⟩ := hbooks.between hduties hlife
    obtain ⟨later, hdue, -⟩ := hbooks.dueBy_eq
    have hseen := hbooks.seen_eq
    rw [List.append_nil] at hseen
    refine ⟨hopen, taken.length, by simp [hdue, hseen], ?_⟩
    rw [h.history_safepoints, hseen, safepoints_services]
  case drains =>
    intro hlife hplain
    obtain ⟨k, seen', t, hwatch, hdrained⟩ := h.exists_drained
      (((dueBy orders).flatMap Operation.service).length + 1) hlife hplain (by omega)
    exact ⟨k, seen', t, hwatch, hdrained, hcomplete (h.follow _ hwatch) hdrained⟩
  case answered =>
    intro hlife hduties hqueue r role hwaiting
    obtain ⟨-, rfl, -⟩ := hbooks.between hduties (by rw [hlife]; nofun)
    have howed := hbooks.owed.mem hlife r role hwaiting
    rw [hqueue] at howed
    cases howed

namespace System

/-- An operation that executes others, one of them from inside the other. -/
def nestingBody : List Action := [.note, .nested [.note, .nested [.note] true] true]

/-- Two threads send operations that execute others, and the VM thread is told to end after them. -/
def nestingMoves : List Move :=
  [.execute 0 .mutator nestingBody, .execute 1 .collector [.nested [] true, .note],
    .terminateVmThread] ++ List.replicate 19 (.proceed .vmThread) ++
    [.proceed (.caller 1), .proceed (.caller 0)]

end System

/-- Two operations with three others inside have two safepoints, and both requesters are free again
when the VM thread has ended. -/
theorem safepoints_never_nest_inside :
    ∃ orders seen s, System.Watches orders seen s ∧ OneByOne orders seen s ∧
      dueBy orders = [⟨.caller 0, System.nestingBody⟩, ⟨.caller 1, [.nested [] true, .note]⟩] ∧
      s.vm.life = .ended ∧ onVmThread seen = (dueBy orders).flatMap Operation.service ∧
      s.history.filter Event.isSafepoint =
        [.safepointBegin, .safepointEnd, .safepointBegin, .safepointEnd] ∧
      momentsOf (.caller 0) seen = life .mutator System.nestingBody := by
  have hrun : ∃ orders seen s,
      System.watch System.nestingMoves ([], [], .initial) = some (orders, seen, s) ∧
      dueBy orders = [⟨.caller 0, System.nestingBody⟩, ⟨.caller 1, [.nested [] true, .note]⟩] ∧
      s.vm = ⟨[], [], .ended⟩ ∧
      s.history.filter Event.isSafepoint =
        [.safepointBegin, .safepointEnd, .safepointBegin, .safepointEnd] ∧
      momentsOf (.caller 0) seen = life .mutator System.nestingBody :=
    ⟨_, _, _, rfl, rfl, rfl, rfl, rfl⟩
  obtain ⟨orders, seen, s, hwatch, hdue, hvm, hsafepoints, hlife⟩ := hrun
  have hwatches := System.Watches.start.follow _ hwatch
  have hone := safepoints_never_nest hwatches
  have hdrained : s.IsDrained := by
    rw [System.IsDrained, hvm]
    exact ⟨nofun, rfl, .inl rfl⟩
  exact ⟨orders, seen, s, hwatches, hone, hdue, by rw [hvm], hone.complete hdrained, hsafepoints,
    hlife⟩

end HeapBridge.Pause
