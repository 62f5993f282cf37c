import HeapBridge.Proofs.Pause.Services

/-!
# The books of a run

What was seen on the VM thread and what is left of its operation are together the services of the
operations that it has taken. What a requester has seen, with what it is owed and what it has yet to
do itself, are the lives of the operations that it has begun. `Accounted` says so of a state and of
all that was sent and seen on the way to it, and every move keeps it.
-/
namespace HeapBridge.Pause
variable {r : Requester} {s t : System} {m : System.Move} {rest : List Duty} {d : Duty}
  {cur cur' : Option Requester} {left left' : List Sight} {os : List Order}

/-! ## Who is owed an operation -/

def Order.requester? : Order → Option Requester
  | .run op => some op.requester
  | .terminate => none

/-- Those whose operations the VM thread is in, or has in its queue. -/
def owedTo (cur : Option Requester) (queue : List Order) : List Requester :=
  cur.toList ++ queue.filterMap Order.requester?

/-- Everybody is owed at most one operation, and waits for it. -/
structure Owed (alive : Prop) (rs : List Requester) (standing : Requester → Standing) : Prop where
  nodup : rs.Nodup
  waits : ∀ r ∈ rs, (∃ role, standing r = .waiting role) ∨ ¬ alive ∧ standing r = .broken
  mem : alive → ∀ r role, standing r = .waiting role → r ∈ rs

namespace Owed
variable {alive alive' : Prop} {rs : List Requester} {standing standing' : Requester → Standing}
  {ms : List Moment}

theorem not_mem (h : Owed alive rs standing) (hwaiting : ∀ role, standing r ≠ .waiting role)
    (hbroken : standing r ≠ .broken) : r ∉ rs := by
  intro hr
  rcases h.waits r hr with ⟨role, hrole⟩ | ⟨-, hbroke⟩
  · exact hwaiting role hrole
  · exact hbroken hbroke

/-- One who is owed nothing does not begin to wait. -/
theorem update (h : Owed alive rs standing) (hothers : ∀ r', r' ≠ r → standing' r' = standing r')
    (hr : r ∉ rs) (hwaiting : ∀ role, standing' r ≠ .waiting role) : Owed alive rs standing' where
  nodup := h.nodup
  waits r' hr' := by
    rw [hothers r' (ne_of_mem_of_not_mem hr' hr)]
    exact h.waits r' hr'
  mem halive r' role hrole := by
    have hne : r' ≠ r := fun heq => hwaiting role (heq ▸ hrole)
    exact h.mem halive r' role ((hothers r' hne).symm.trans hrole)

/-- One who is owed nothing sends an operation. -/
theorem join (h : Owed alive rs standing) (hothers : ∀ r', r' ≠ r → standing' r' = standing r')
    (hr : r ∉ rs) {role : Role} (hwaiting : standing' r = .waiting role) :
    Owed alive (rs ++ [r]) standing' where
  nodup := by
    refine List.nodup_append.mpr ⟨h.nodup, by simp, ?_⟩
    rintro a ha b hb rfl
    exact hr (List.mem_singleton.mp hb ▸ ha)
  waits r' hr' := by
    rcases List.mem_append.mp hr' with hold | hnew
    · rw [hothers r' (ne_of_mem_of_not_mem hold hr)]
      exact h.waits r' hold
    · rw [List.mem_singleton.mp hnew]
      exact .inl ⟨role, hwaiting⟩
  mem halive r' role' hrole := by
    by_cases hr' : r' = r
    · simp [hr']
    · rw [hothers r' hr'] at hrole
      exact List.mem_append_left _ (h.mem halive r' role' hrole)

/-- One whose operation is done waits no more. -/
theorem leave (h : Owed alive (r :: rs) standing)
    (hothers : ∀ r', r' ≠ r → standing' r' = standing r')
    (hwaiting : ∀ role, standing' r ≠ .waiting role) : Owed alive rs standing' where
  nodup := h.nodup.of_cons
  waits r' hr' := by
    have hne : r' ≠ r := ne_of_mem_of_not_mem hr' (List.nodup_cons.mp h.nodup).1
    rw [hothers r' hne]
    exact h.waits r' (List.mem_cons_of_mem r hr')
  mem halive r' role hrole := by
    have hne : r' ≠ r := fun heq => hwaiting role (heq ▸ hrole)
    rw [hothers r' hne] at hrole
    exact (List.mem_cons.mp (h.mem halive r' role hrole)).resolve_left hne

/-- The VM thread is gone. -/
theorem orphan (h : Owed alive rs standing) (halive : alive) (hgone : ¬ alive') :
    Owed alive' rs standing where
  nodup := h.nodup
  waits r hr := .inl ((h.waits r hr).resolve_right fun hbroke => hbroke.1 halive)
  mem halive' := absurd halive' hgone

/-- One who waits in vain gives up. -/
theorem abandon (h : Owed alive rs standing) (hothers : ∀ r', r' ≠ r → standing' r' = standing r')
    (hgone : ¬ alive) (hbroken : standing' r = .broken) : Owed alive rs standing' where
  nodup := h.nodup
  waits r' hr' := by
    by_cases hne : r' = r
    · exact .inr ⟨hgone, hne ▸ hbroken⟩
    · rw [hothers r' hne]
      exact h.waits r' hr'
  mem halive := absurd halive hgone

theorem goes (h : Owed alive rs standing) (hothers : ∀ r', r' ≠ r → standing' r' = standing r')
    (hgoes : Standing.Goes alive r (standing r) os ms (standing' r)) :
    Owed alive (rs ++ os.filterMap Order.requester?) standing' := by
  have hmem : (∀ role, standing r ≠ .waiting role) → standing r ≠ .broken → r ∉ rs := h.not_mem
  have hstay : standing' r = standing r → standing' = standing := by
    intro heq
    funext r'
    by_cases hr : r' = r
    · rw [hr, heq]
    · exact hothers r' hr
  generalize hst : standing r = st at hgoes hmem hstay
  generalize hst' : standing' r = st' at hgoes hstay
  cases hgoes with
  | stay | terminate _ _ =>
    rw [hstay rfl]
    exact (List.append_nil rs).symm ▸ h
  | prepare _ | refuse _ _ _ | finish _ =>
    have hr : r ∉ rs := hmem (by simp) (by simp)
    simpa using h.update hothers hr (by simp [hst'])
  | send _ hr =>
    cases hr
    exact h.join hothers (hmem (by simp) (by simp)) hst'
  | hand _ role body => exact h.join hothers (hmem (by simp) (by simp)) hst'
  | fail hfail =>
    rw [List.filterMap_nil, List.append_nil]
    rcases hfail with rfl | hgone
    · exact h.update hothers (hmem (by simp) (by simp)) (by simp [hst'])
    · exact h.abandon hothers hgone hst'

end Owed

/-! ## What a requester has seen -/

section Moments
variable {seen seen' sights : List Sight} {ms : List Moment}

@[simp] theorem momentsOf_nil : momentsOf r [] = [] := rfl

@[simp] theorem momentsOf_append :
    momentsOf r (seen ++ seen') = momentsOf r seen ++ momentsOf r seen' := by
  simp [momentsOf]

theorem momentsOf_map (look : Moment → Sight) (hrequester : ∀ m, (look m).requester = r)
    (hmoment : ∀ m, (look m).moment = m) (ms : List Moment) : momentsOf r (ms.map look) = ms := by
  have hall : (ms.map look).filter (·.requester = r) = ms.map look := by
    refine List.filter_eq_self.mpr fun x hx => ?_
    obtain ⟨m, -, rfl⟩ := List.mem_map.mp hx
    simp [hrequester]
  rw [momentsOf, hall, List.map_map]
  exact List.map_id'' hmoment ms

theorem momentsOf_eq_nil (h : ∀ x ∈ seen, x.requester ≠ r) : momentsOf r seen = [] := by
  have hnone : seen.filter (·.requester = r) = [] := by
    simpa [List.filter_eq_nil_iff] using h
  rw [momentsOf, hnone, List.map_nil]

theorem momentsOf_map_of_ne (look : Moment → Sight) {r' : Requester}
    (hrequester : ∀ m, (look m).requester = r) (hr : r' ≠ r) (ms : List Moment) :
    momentsOf r' (ms.map look) = [] := by
  refine momentsOf_eq_nil fun x hx => ?_
  obtain ⟨m, -, rfl⟩ := List.mem_map.mp hx
  rw [hrequester]
  exact hr.symm

theorem momentsOf_service (op : Operation) : momentsOf op.requester op.service = served op.body :=
  momentsOf_map (Sight.due op.requester) (fun _ => rfl) (fun _ => rfl) _

theorem momentsOf_service_of_ne {op : Operation} (hr : r ≠ op.requester) :
    momentsOf r op.service = [] :=
  momentsOf_map_of_ne (Sight.due op.requester) (fun _ => rfl) hr _

@[simp] theorem onVmThread_append :
    onVmThread (seen ++ seen') = onVmThread seen ++ onVmThread seen' :=
  List.filter_append ..

@[simp] theorem onVmThread_map_due (r : Requester) (ms : List Moment) :
    onVmThread (ms.map (Sight.due r)) = ms.map (Sight.due r) := by
  refine List.filter_eq_self.mpr fun x hx => ?_
  obtain ⟨m, -, rfl⟩ := List.mem_map.mp hx
  rfl

/-- What a requester still has to see after its service, or in place of one that never comes. -/
def Standing.Tail : Standing → List Moment → Prop
  | free, tail => tail = []
  | preparing, tail => tail = served System.stopOperation.body ++ [.epilogue .companion]
  | waiting role, tail | finishing role, tail => tail = [.epilogue role]
  | broken, _ => True

/-- What every requester has seen, and what it still has to see, are the lives that it has begun. -/
def Lives (seen rest : List Sight) (standing : Requester → Standing) : Prop :=
  ∀ r, ∃ tail, (standing r).Tail tail ∧
    momentsOf r (seen ++ rest) ++ tail = (momentsOf r seen).flatMap Moment.begun

namespace Lives
variable {standing standing' : Requester → Standing} {rest : List Sight} {alive : Prop}
  {p : System.Party}

/-- Moments on the VM thread begin no life. -/
theorem begun_momentsOf (hsights : ∀ x ∈ sights, x.moment.begun = []) :
    (momentsOf r sights).flatMap Moment.begun = [] := by
  refine List.flatMap_eq_nil_iff.mpr fun m hm => ?_
  obtain ⟨x, hx, rfl⟩ := List.mem_map.mp hm
  exact hsights x (List.mem_filter.mp hx).1

/-- The VM thread shows what was due next. -/
theorem show_next (h : Lives seen (sights ++ rest) standing)
    (hsights : ∀ x ∈ sights, x.moment.begun = [])
    (htail : ∀ r tail, (standing r).Tail tail → (standing' r).Tail tail) :
    Lives (seen ++ sights) rest standing' := by
  intro r
  obtain ⟨tail, hr, heq⟩ := h r
  refine ⟨tail, htail r tail hr, ?_⟩
  rw [List.append_assoc, heq, momentsOf_append, List.flatMap_append, begun_momentsOf hsights,
    List.append_nil]

/-- What is sent in a move that concerns one requester is its own operation. -/
theorem momentsOf_sent {st st' : Standing} {r' : Requester}
    (hgoes : Standing.Goes alive r st os ms st') (hr : r' ≠ r) :
    momentsOf r' (os.flatMap Order.service) = [] := by
  cases hgoes with
  | send _ hcompanion =>
    subst hcompanion
    rw [List.flatMap_singleton]
    exact momentsOf_service_of_ne hr
  | hand _ role body =>
    rw [List.flatMap_singleton]
    exact momentsOf_service_of_ne hr
  | _ => rfl

/-- A requester goes on, with nothing due to it unless it waits. -/
theorem goes (h : Lives seen rest standing) (hothers : ∀ r', r' ≠ r → standing' r' = standing r')
    (hgoes : Standing.Goes alive r (standing r) os ms (standing' r))
    (hrest : (∀ role, standing r ≠ .waiting role) → standing r ≠ .broken → momentsOf r rest = []) :
    Lives (seen ++ ms.map (s.sight p r)) (rest ++ os.flatMap Order.service) standing' := by
  intro r'
  obtain ⟨tail, htail, heq⟩ := h r'
  by_cases hr : r' = r
  · subst hr
    have hown : momentsOf r' (ms.map (s.sight p r')) = ms :=
      momentsOf_map (s.sight p r') (fun _ => rfl) (fun _ => rfl) ms
    simp only [momentsOf_append, hown, List.flatMap_append] at heq ⊢
    generalize standing r' = st at hgoes hrest htail
    generalize standing' r' = st' at hgoes
    have hfree : st = .free → momentsOf r' rest = [] ∧
        (momentsOf r' seen).flatMap Moment.begun = momentsOf r' seen := by
      rintro rfl
      have hnone := hrest (by simp) (by simp)
      cases htail
      exact ⟨hnone, by simpa [hnone] using heq.symm⟩
    cases hgoes with
    | stay | terminate _ _ => exact ⟨tail, htail, by simpa [Order.service] using heq⟩
    | fail _ => exact ⟨tail, trivial, by simpa using heq⟩
    | prepare _ =>
      obtain ⟨hnone, hbegun⟩ := hfree rfl
      exact ⟨_, rfl, by simp [hnone, hbegun, Moment.begun, life]⟩
    | refuse _ role body =>
      obtain ⟨hnone, hbegun⟩ := hfree rfl
      exact ⟨served body ++ [.epilogue role], trivial,
        by simp [hnone, hbegun, Moment.begun, life]⟩
    | send _ hr =>
      have hnone := hrest (by simp) (by simp)
      cases htail
      cases hr
      have hserved : momentsOf .companion System.stopOperation.service =
          served System.stopOperation.body := momentsOf_service System.stopOperation
      exact ⟨_, rfl, by simpa [hnone, hserved, Order.service] using heq⟩
    | hand _ role body =>
      obtain ⟨hnone, hbegun⟩ := hfree rfl
      have hserved : momentsOf r' (Operation.service ⟨r', body⟩) = served body :=
        momentsOf_service ⟨r', body⟩
      exact ⟨_, rfl, by simp [hnone, hbegun, hserved, Order.service, Moment.begun, life]⟩
    | finish role =>
      have hnone := hrest (by simp) (by simp)
      cases htail
      exact ⟨_, rfl, by simpa [hnone, Moment.begun] using heq⟩
  · have hnone : momentsOf r' (ms.map (s.sight p r)) = [] :=
      momentsOf_map_of_ne (s.sight p r) (fun _ => rfl) hr ms
    refine ⟨tail, hothers r' hr ▸ htail, ?_⟩
    simpa [hnone, momentsOf_sent hgoes hr] using heq

end Lives

end Moments

/-! ## The books -/

/-- The order that has ended the VM thread, if one has. -/
def Life.spent : Life → List Order
  | ended => [.terminate]
  | _ => []

/-- How everything that was sent and seen fits together, with the operations that were taken. -/
structure Accounted (orders : List Order) (seen : List Sight) (s : System) (taken : List Operation)
    (cur : Option Requester) (left : List Sight) : Prop where
  place : Place s cur left
  orders_eq : orders = taken.map .run ++ s.vm.life.spent ++ s.vm.queue
  seen_eq : onVmThread seen ++ left = taken.flatMap Operation.service
  owed : Owed (s.vm.life = .running) (owedTo cur s.vm.queue) s.standing
  lives : Lives seen (left ++ s.vm.queue.flatMap Order.service) s.standing

/-- Whoever something is due to is owed an operation. -/
theorem Place.mem_owedTo (h : Place s cur left) {x : Sight}
    (hx : x ∈ left ++ s.vm.queue.flatMap Order.service) :
    x.requester ∈ owedTo cur s.vm.queue := by
  rcases List.mem_append.mp hx with hleft | hqueue
  · exact List.mem_append_left _ (by simp [h.eq_some_of_mem hleft])
  · obtain ⟨o, ho, hx⟩ := List.mem_flatMap.mp hqueue
    refine List.mem_append_right _ (List.mem_filterMap.mpr ⟨o, ho, ?_⟩)
    cases o with
    | terminate => cases hx
    | run op =>
      obtain ⟨m, -, rfl⟩ := List.mem_map.mp hx
      rfl

namespace Accounted
variable {orders : List Order} {seen : List Sight} {taken : List Operation}

theorem initial : Accounted [] [] .initial [] none [] where
  place := .between nofun rfl ⟨rfl, rfl⟩
  orders_eq := rfl
  seen_eq := rfl
  owed := ⟨.nil, nofun, fun _ r _ h => by cases r <;> cases h⟩
  lives r := ⟨[], by cases r <;> rfl, rfl⟩

/-- Such a move adds to what was sent, and to what its requester has seen. -/
theorem concerns (h : Accounted orders seen s taken cur left) (hconcerns : Concerns s m t) :
    Accounted (orders ++ s.sends m) (seen ++ s.sights m) t taken cur left := by
  obtain ⟨hst, r, ms, hothers, hsights, hgoes⟩ := hconcerns
  refine ⟨h.place.undisturbed hst, ?_, ?_, ?_, ?_⟩
  · rw [h.orders_eq, hst.life, hst.queue, List.append_assoc]
  · have hnone : onVmThread (s.sights m) = [] := by
      refine List.filter_eq_nil_iff.mpr fun x hx => ?_
      rw [hsights] at hx
      obtain ⟨_, -, rfl⟩ := List.mem_map.mp hx
      exact fun htrue => r.party_ne_vmThread (of_decide_eq_true htrue)
    rw [onVmThread_append, hnone, List.append_nil, h.seen_eq]
  · have howed := h.owed.goes hothers hgoes
    rw [hst.life, hst.queue, owedTo, List.filterMap_append, ← List.append_assoc]
    exact howed
  · rw [hst.queue, List.flatMap_append, ← List.append_assoc, hsights]
    refine h.lives.goes hothers hgoes fun hwaiting hbroken => momentsOf_eq_nil ?_
    rintro x hx rfl
    exact h.owed.not_mem hwaiting hbroken (h.place.mem_owedTo hx)

/-- A step of the VM thread shows what was due next, of the operation it is in or of one that it
takes. -/
theorem advance (h : Accounted orders seen s taken cur left) (r : Requester) (ms : List Moment)
    (ops : List Operation) (hplace : Place t cur' left')
    (hqueue : s.vm.life.spent ++ s.vm.queue = ops.map .run ++ t.vm.life.spent ++ t.vm.queue)
    (hbegun : ∀ m ∈ ms, m.begun = [])
    (hleft : ms.map (Sight.due r) ++ left' = left ++ ops.flatMap Operation.service)
    (howed : Owed (t.vm.life = .running) (owedTo cur' t.vm.queue) t.standing)
    (htail : ∀ r tail, (s.standing r).Tail tail → (t.standing r).Tail tail) :
    Accounted orders (seen ++ ms.map (Sight.due r)) t (taken ++ ops) cur' left' := by
  have hservice : ∀ life : Life, life.spent.flatMap Order.service = [] := fun life => by
    cases life <;> rfl
  have hruns : (ops.map Order.run).flatMap Order.service = ops.flatMap Operation.service := by
    rw [List.flatMap_map]
    rfl
  refine ⟨hplace, ?_, ?_, howed, ?_⟩
  · rw [h.orders_eq, List.append_assoc, hqueue]
    simp
  · rw [onVmThread_append, onVmThread_map_due, List.append_assoc, hleft, ← List.append_assoc,
      h.seen_eq, List.flatMap_append]
  · have hnext := congrArg (List.flatMap Order.service) hqueue
    simp only [List.flatMap_append, hservice, hruns, List.nil_append, List.append_nil] at hnext
    have hlives := h.lives
    rw [hnext, ← List.append_assoc, ← hleft, List.append_assoc] at hlives
    refine hlives.show_next ?_ htail
    intro x hx
    obtain ⟨m, hm, rfl⟩ := List.mem_map.mp hx
    exact hbegun m hm

/-- The VM thread does one duty of its operation and stays in it. -/
theorem serve {isOpen isOpen' : Bool} {front : List Duty}
    (h : Accounted orders seen s taken (some r) (dueOf r s.vm.duties))
    (hlife : s.vm.life = .running) (hduties : s.vm.duties = d :: rest)
    (hserving : Serving r isOpen (d :: rest)) (hopen : s.IsOpen isOpen)
    (hreplaced : Replaced s d rest t front) (hserving' : Serving r isOpen' (front ++ rest))
    (hopen' : t.IsOpen isOpen') :
    Accounted orders (seen ++ s.sights (.proceed .vmThread)) t taken (some r)
      (dueOf r t.vm.duties) := by
  have hvm := hreplaced.vm
  have hplace : Place t (some r) (dueOf r t.vm.duties) :=
    .serving (by rw [hvm]; exact hlife) (by rw [hvm]; exact hserving') hopen'
  have howed : Owed (t.vm.life = .running) (owedTo (some r) t.vm.queue) t.standing := by
    rw [hvm, hreplaced.standing]
    exact h.owed
  rw [hserving.sights_eq hduties hopen, ← List.append_nil taken]
  refine h.advance r d.moment?.toList [] hplace (by rw [hvm]; rfl)
    (fun m hm => Duty.begun_of_mem_moment? hm) ?_ howed
    (by rw [hreplaced.standing]; exact fun _ _ htail => htail)
  simp [dueOf, hduties, hvm, hreplaced.coming_eq]

/-- The VM thread gives up. What was left of its operation is never seen. -/
theorem lose (h : Accounted orders seen s taken (some r) (dueOf r s.vm.duties))
    (hlife : s.vm.life = .running) (hduties : s.vm.duties = .act .giveUp :: rest)
    (hserving : Serving r true (.act .giveUp :: rest)) (hopen : s.IsOpen true) :
    Accounted orders (seen ++ s.sights (.proceed .vmThread))
      { s with vm := { s.vm with duties := [], life := .lost } } taken (some r) (dueOf r rest) := by
  have howed : Owed (Life.lost = .running) (owedTo (some r) s.vm.queue) s.standing :=
    h.owed.orphan hlife nofun
  rw [hserving.sights_eq hduties hopen, ← List.append_nil taken]
  refine h.advance r [.doing .giveUp] [] (.lost (coming rest) rfl rfl) (by rw [hlife]; rfl)
    (by simp [Moment.begun]) ?_ howed (fun _ _ htail => htail)
  simp [dueOf, hduties, Duty.coming, Action.deeds]

/-- The VM thread tells the requester, who has waited for it, and is between operations. -/
theorem answer (h : Accounted orders seen s taken (some r) (dueOf r s.vm.duties))
    (hlife : s.vm.life = .running) (hduties : s.vm.duties = [.reply r]) (hopen : s.IsOpen false) :
    Accounted orders (seen ++ s.sights (.proceed .vmThread)) ((s.setDuties []).reply r) taken none
      [] := by
  obtain ⟨role, hwaiting⟩ : ∃ role, s.standing r = .waiting role :=
    (h.owed.waits r (List.mem_cons_self ..)).resolve_right fun hbroke => hbroke.1 hlife
  have hwaiting' : (s.setDuties []).standing r = .waiting role := by
    rw [System.standing_setDuties, hwaiting]
  obtain ⟨hfinishing, hothers⟩ := System.standing_reply hwaiting'
  rw [System.standing_setDuties] at hothers
  have hvm : ((s.setDuties []).reply r).vm = { s.vm with duties := [] } := System.vm_reply _ r
  have hopen' : (s.setDuties []).IsOpen false := hopen
  have hplace : Place ((s.setDuties []).reply r) none [] :=
    .between (by rw [hvm, hlife]; nofun) (by rw [hvm]) (System.isOpen_reply hopen' r)
  have howed : Owed (s.vm.life = .running) (owedTo none s.vm.queue)
      ((s.setDuties []).reply r).standing :=
    h.owed.leave hothers fun role' hrole => by simp [hfinishing] at hrole
  rw [Serving.answering.sights_eq hduties hopen, ← List.append_nil taken]
  refine h.advance r [.answering] [] hplace (by rw [hvm]; rfl) (by simp [Moment.begun]) ?_
    (by rw [hvm]; exact howed) ?_
  · simp [dueOf, hduties, Duty.coming, Duty.moment?]
  · intro r' tail htail
    by_cases hr : r' = r
    · subst hr
      rw [hwaiting] at htail
      rw [hfinishing]
      exact htail
    · rwa [hothers r' hr]

/-- The VM thread goes on with the operation that it is in. -/
theorem discharge (h : Accounted orders seen s taken (some r) (dueOf r s.vm.duties))
    (hlife : s.vm.life = .running) (hduties : s.vm.duties = d :: rest) {isOpen : Bool}
    (hserving : Serving r isOpen (d :: rest)) (hopen : s.IsOpen isOpen)
    (hstep : s.discharge rest d = some t) :
    ∃ cur' left', Accounted orders (seen ++ s.sights (.proceed .vmThread)) t taken cur' left' := by
  cases hserving with
  | opening hinside =>
    cases hstep
    have hreplaced : Replaced s .openSafepoint rest (s.setDuties rest).openSafepoint [] :=
      ⟨nofun, rfl, rfl, System.standing_setDuties s rest⟩
    exact ⟨_, _, h.serve hlife hduties (.opening hinside) hopen hreplaced (.inside hinside)
      ⟨rfl, rfl⟩⟩
  | answering =>
    cases hstep
    exact ⟨_, _, h.answer hlife hduties hopen⟩
  | inside hinside =>
    cases hinside with
    | close =>
      cases hstep
      have hreplaced : Replaced s .closeSafepoint [.reply r]
          (s.setDuties [.reply r]).closeSafepoint [] :=
        ⟨nofun, rfl, rfl, System.standing_setDuties s [.reply r]⟩
      exact ⟨_, _, h.serve hlife hduties (.inside .close) hopen hreplaced .answering ⟨rfl, rfl⟩⟩
    | inner hd hrest =>
      by_cases hgive : d = .act .giveUp
      · subst hgive
        cases hstep
        exact ⟨_, _, h.lose hlife hduties (.inside (.inner hd hrest)) hopen⟩
      · obtain ⟨front, hopen', hreplaced⟩ := System.replaced_of_discharge hd hopen hgive hstep
        exact ⟨_, _, h.serve hlife hduties (.inside (.inner hd hrest)) hopen hreplaced
          (.inside (hrest.append hreplaced.inner)) hopen'⟩

/-- The VM thread takes the operation that was sent first, or ends. -/
theorem takeOrder (h : Accounted orders seen s taken none []) (hlife : s.vm.life = .running)
    (hduties : s.vm.duties = []) (hopen : s.IsOpen false) (hstep : s.takeOrder = some t) :
    ∃ taken' cur' left',
      Accounted orders (seen ++ s.sights (.proceed .vmThread)) t taken' cur' left' := by
  rw [System.takeOrder] at hstep
  split at hstep
  case h_1 => cases hstep
  case h_2 op queue hqueue =>
    cases hstep
    have hsights : s.sights (.proceed .vmThread) = [Moment.taken].map (Sight.due op.requester) := by
      simp [System.sights, System.sightsOf, hduties, hqueue, System.sight, Sight.due, hopen.1,
        hopen.2, Moment.isInside]
    have hserving : Serving op.requester false
        (System.inSafepoint (op.body.map .act) ++ [.reply op.requester]) := by
      have hinside : Inside op.requester
          (op.body.map .act ++ [.closeSafepoint, .reply op.requester]) :=
        Inside.close.append (by simp [Duty.isInner])
      simpa [System.inSafepoint] using Serving.opening hinside
    have howed : Owed (s.vm.life = .running) (owedTo (some op.requester) queue) s.standing := by
      have howed := h.owed
      rwa [hqueue] at howed
    rw [hsights]
    refine ⟨taken ++ [op], _, _, h.advance op.requester [.taken] [op]
      (.serving hlife hserving hopen) ?_ (by simp [Moment.begun]) ?_ howed (fun _ _ htail => htail)⟩
    · rw [hlife, hqueue]
      rfl
    · simp [dueOf, System.inSafepoint, Duty.coming, Duty.moment?, Operation.service, served]
  case h_3 queue hqueue =>
    cases hstep
    have hsights : s.sights (.proceed .vmThread) = [].map (Sight.due .companion) := by
      simp [System.sights, System.sightsOf, hduties, hqueue]
    have howed : Owed (Life.ended = .running) (owedTo none queue) s.standing := by
      have howed := h.owed
      rw [hqueue] at howed
      exact howed.orphan hlife (by decide)
    have hplace : Place { s with vm := { s.vm with queue, life := .ended } } none [] :=
      .between (by simp) hduties hopen
    rw [hsights]
    refine ⟨taken ++ [], _, _, h.advance .companion [] [] hplace ?_ (by simp) rfl howed
      (fun _ _ htail => htail)⟩
    rw [hlife, hqueue]
    rfl

theorem stepVmThread (h : Accounted orders seen s taken cur left)
    (hstep : s.stepVmThread = some t) :
    ∃ taken' cur' left',
      Accounted orders (seen ++ s.sights (.proceed .vmThread)) t taken' cur' left' := by
  rw [System.stepVmThread] at hstep
  split at hstep
  case isFalse => cases hstep
  case isTrue hlife =>
    cases hplace : h.place with
    | between _ hduties hopen =>
      rw [hduties] at hstep
      exact h.takeOrder hlife hduties hopen hstep
    | serving _ hserving hopen =>
      split at hstep
      case h_1 hduties =>
        rw [hduties] at hserving
        cases hserving with
        | inside hinside => cases hinside
      case h_2 d rest hduties =>
        rw [hduties] at hserving
        obtain ⟨cur', left', hnext⟩ := h.discharge hlife hduties hserving hopen hstep
        exact ⟨taken, cur', left', hnext⟩
    | lost _ hlost _ =>
      rw [hlife] at hlost
      cases hlost

end Accounted

/-- Every run keeps the books. -/
theorem System.Watches.exists_accounted {orders : List Order} {seen : List Sight}
    (h : System.Watches orders seen s) :
    ∃ taken cur left, Accounted orders seen s taken cur left := by
  induction h with
  | start => exact ⟨[], none, [], .initial⟩
  | @move orders seen s t m _ hstep ih =>
    obtain ⟨taken, cur, left, h⟩ := ih
    by_cases hm : m = .proceed .vmThread
    · subst hm
      rw [System.sends_vmThread, List.append_nil]
      exact h.stepVmThread hstep
    · exact ⟨taken, cur, left, h.concerns (System.concerns_step hm hstep)⟩

end HeapBridge.Pause
