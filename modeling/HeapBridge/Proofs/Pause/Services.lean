import HeapBridge.Proofs.Pause.Standing

/-!
# One service after the other

From what the VM thread still has to do it can be told which moments of its operation are to come
(`coming`). A step shows the first of them and leaves the others, however deep the operations are
nested: inside a safepoint nothing opens another one, since what is done in place takes the one that
is open. `Place` is where the VM thread can be, with what should still be seen of its operation.
-/
namespace HeapBridge.Pause
variable {r : Requester} {s t : System} {m : System.Move} {ds ds' rest : List Duty} {d : Duty}

/-! ## What is to come -/

/-- The moments that are to come of a duty. -/
def Duty.coming : Duty → List Moment
  | .act a => a.deeds
  | .awaitHandOff _ => [.doing .stopWorld]
  | d => d.moment?.toList

/-- The moments that are to come of duties. -/
def coming (ds : List Duty) : List Moment := ds.flatMap Duty.coming

@[simp] theorem coming_nil : coming [] = [] := rfl

@[simp] theorem coming_cons : coming (d :: ds) = d.coming ++ coming ds := rfl

@[simp] theorem coming_append : coming (ds ++ ds') = coming ds ++ coming ds' :=
  List.flatMap_append

@[simp] theorem coming_map_act (body : List Action) : coming (body.map .act) = deedsAll body := by
  induction body with
  | nil => rfl
  | cons a as ih =>
    rw [List.map_cons, coming_cons, ih]
    rfl

@[simp] theorem Duty.coming_awake (d : Duty) : d.awake.coming = d.coming := by
  cases d <;> rfl

@[simp] theorem coming_map_awake (ds : List Duty) : coming (ds.map Duty.awake) = coming ds := by
  simp [coming, List.flatMap_map]

/-- Whether a duty is done inside the safepoint, and not at its ends. -/
def Duty.isInner : Duty → Bool
  | .openSafepoint | .closeSafepoint | .reply _ => false
  | _ => true

@[simp] theorem Duty.isInner_awake (d : Duty) : d.awake.isInner = d.isInner := by
  cases d <;> rfl

/-- What is left of an operation whose safepoint is open. -/
inductive Inside (r : Requester) : List Duty → Prop
  | close : Inside r [.closeSafepoint, .reply r]
  | inner {d : Duty} {ds : List Duty} (hd : d.isInner = true) (h : Inside r ds) :
    Inside r (d :: ds)

/-- What is left of an operation, and whether its safepoint is open. -/
inductive Serving (r : Requester) : Bool → List Duty → Prop
  | opening {ds : List Duty} (h : Inside r ds) : Serving r false (.openSafepoint :: ds)
  | inside {ds : List Duty} (h : Inside r ds) : Serving r true ds
  | answering : Serving r false [.reply r]

namespace Inside

theorem append (hds : ∀ d ∈ ds, d.isInner = true) (h : Inside r ds') : Inside r (ds ++ ds') := by
  induction ds with
  | nil => exact h
  | cons d ds ih =>
    obtain ⟨hd, hrest⟩ := List.forall_mem_cons.mp hds
    exact .inner hd (ih hrest)

theorem requesterOf_eq (h : Inside r ds) : requesterOf ds = r := by
  induction h with
  | close => rfl
  | @inner d ds hd _ ih => cases d <;> first | exact ih | cases hd

/-- It makes no difference who sleeps. -/
theorem of_awake (h : Inside r ds) (hawake : ds'.map Duty.awake = ds.map Duty.awake) :
    Inside r ds' := by
  induction h generalizing ds' with
  | close =>
    obtain ⟨d₁, ds₁, rfl, h₁, hrest⟩ := List.map_eq_cons_iff.mp hawake
    obtain ⟨d₂, ds₂, rfl, h₂, hnil⟩ := List.map_eq_cons_iff.mp hrest
    cases List.map_eq_nil_iff.mp hnil
    cases d₁ <;> simp only [Duty.awake, reduceCtorEq] at h₁
    cases d₂ <;> simp only [Duty.awake, reduceCtorEq, Duty.reply.injEq] at h₂
    exact h₂ ▸ .close
  | @inner d ds hd _ ih =>
    obtain ⟨d₁, ds₁, rfl, h₁, hrest⟩ := List.map_eq_cons_iff.mp hawake
    refine .inner ?_ (ih hrest)
    rw [← Duty.isInner_awake, h₁, Duty.isInner_awake, hd]

end Inside

namespace Serving
variable {isOpen : Bool}

theorem requesterOf_eq (h : Serving r isOpen ds) : requesterOf ds = r := by
  cases h with
  | opening h | inside h => exact h.requesterOf_eq
  | answering => rfl

theorem of_awake (h : Serving r isOpen ds) (hawake : ds'.map Duty.awake = ds.map Duty.awake) :
    Serving r isOpen ds' := by
  cases h with
  | opening h =>
    obtain ⟨d₁, ds₁, rfl, h₁, hrest⟩ := List.map_eq_cons_iff.mp hawake
    cases d₁ <;> simp only [Duty.awake, reduceCtorEq] at h₁
    exact .opening (h.of_awake hrest)
  | inside h => exact .inside (h.of_awake hawake)
  | answering =>
    obtain ⟨d₁, ds₁, rfl, h₁, hnil⟩ := List.map_eq_cons_iff.mp hawake
    cases List.map_eq_nil_iff.mp hnil
    cases d₁ <;> simp only [Duty.awake, reduceCtorEq, Duty.reply.injEq] at h₁
    exact h₁ ▸ .answering

/-- A moment lies inside just if the safepoint is open at its duty. -/
theorem isInside_of_moment {m : Moment} (h : Serving r isOpen (d :: ds)) (hm : d.moment? = some m) :
    m.isInside = isOpen := by
  cases h with
  | opening _ | answering => exact Option.some.inj hm ▸ rfl
  | inside h =>
    cases h with
    | close => exact Option.some.inj hm ▸ rfl
    | inner hd _ =>
      cases d <;> simp only [Duty.moment?, reduceCtorEq, Option.some.injEq] at hm <;>
        first | exact hm ▸ rfl | cases hd

end Serving

/-! ## Duties inside a safepoint -/

/-- What a duty inside an open safepoint comes to: others in its place, and what was to come of it
begins with the moment at which it is done. -/
structure Replaced (s : System) (d : Duty) (rest : List Duty) (t : System) (front : List Duty) :
    Prop where
  inner : ∀ d' ∈ front, d'.isInner = true
  coming_eq : d.coming = d.moment?.toList ++ coming front
  vm : t.vm = { s.vm with duties := front ++ rest }
  standing : t.standing = s.standing

namespace System

/-- Whether a safepoint is open. The world is stopped for it, and runs without one. -/
def IsOpen (s : System) (isOpen : Bool) : Prop := s.atSafepoint = isOpen ∧ s.worldStopped = isOpen

@[simp] theorem standing_setDuties (s : System) (ds : List Duty) :
    (s.setDuties ds).standing = s.standing := by
  funext r
  cases r <;> rfl

/-- The duties that come in the place of one inside an open safepoint, with its step. -/
def frontOf (s : System) : Duty → List Duty
  | .checkLocker => [if s.regionOpen then .postpone else .reportStopped]
  | .reportStopped | .park _ => if s.sync.desired = .resumed then [] else [.park true]
  | .awaitHandOff _ =>
    if s.sync.handedToVm then [.act .stopWorld, .handBack] else [.awaitHandOff true]
  | .act (.nested body noted) => body.map .act ++ if noted then [.noteNested] else []
  | .act .takePause => [.awaitHandOff false]
  | .act .stopWorld => [.checkLocker]
  | _ => []

/-- Nothing that comes in the place of a duty opens or closes a safepoint. -/
theorem isInner_of_mem_frontOf (s : System) (d : Duty) :
    ∀ d' ∈ s.frontOf d, d'.isInner = true := by
  cases d with
  | checkLocker => cases hopen : s.regionOpen <;> simp [frontOf, hopen, Duty.isInner]
  | reportStopped | park _ =>
    by_cases hback : s.sync.desired = .resumed <;> simp [frontOf, hback, Duty.isInner]
  | awaitHandOff _ => cases hhand : s.sync.handedToVm <;> simp [frontOf, hhand, Duty.isInner]
  | act a =>
    cases a with
    | nested body noted => cases noted <;> simp [frontOf, Duty.isInner, or_imp, forall_and]
    | takePause | stopWorld => simp [frontOf, Duty.isInner]
    | _ => nofun
  | _ => nofun

/-- What was to come of a duty is its own moment, and what is to come of the duties in its place. -/
theorem coming_frontOf (s : System) (hd : d.isInner = true) (hstays : d ≠ .act .giveUp) :
    d.coming = d.moment?.toList ++ coming (s.frontOf d) := by
  cases d with
  | openSafepoint | closeSafepoint | reply _ => cases hd
  | checkLocker => cases hopen : s.regionOpen <;> simp [frontOf, hopen] <;> rfl
  | reportStopped | park _ =>
    by_cases hback : s.sync.desired = .resumed <;> simp [frontOf, hback] <;> rfl
  | awaitHandOff _ => cases hhand : s.sync.handedToVm <;> simp [frontOf, hhand] <;> rfl
  | act a =>
    cases a with
    | nested body noted =>
      cases noted <;> simp [frontOf, Duty.coming, Duty.moment?, Action.deeds]
    | giveUp => exact absurd rfl hstays
    | _ => rfl
  | _ => rfl

/-- A step inside an open safepoint changes no more of the VM thread than its duties. It neither
touches the safepoint nor moves a requester. -/
theorem discharge_inner (hd : d.isInner = true) (hopen : s.IsOpen true)
    (hstays : d ≠ .act .giveUp) (hstep : s.discharge rest d = some t) :
    t.vm = { s.vm with duties := s.frontOf d ++ rest } ∧ t.standing = s.standing ∧
      t.IsOpen true := by
  cases d with
  | openSafepoint | closeSafepoint | reply _ => cases hd
  | noteNested =>
    cases hstep
    exact ⟨rfl, by simp, hopen⟩
  | checkLocker =>
    cases hstep
    exact ⟨rfl, standing_setDuties _ _, hopen⟩
  | postpone =>
    cases hstep
    exact ⟨rfl, standing_setDuties s rest, hopen⟩
  | reportStopped =>
    cases hstep
    refine ⟨?_, (standing_setDuties _ _).trans (standing_wakeAll s), hopen⟩
    have hback : s.reportStopped.sync.desired = s.sync.desired := rfl
    simp only [setDuties, frontOf, hback]
    split <;> rfl
  | park asleep =>
    cases asleep <;> cases hstep
    refine ⟨?_, standing_setDuties s _, hopen⟩
    simp only [setDuties, frontOf]
    split <;> rfl
  | awaitHandOff asleep =>
    cases asleep <;> cases hstep
    refine ⟨?_, standing_setDuties s _, hopen⟩
    simp only [setDuties, frontOf, inPlace, hopen.1]
    split <;> rfl
  | handBack =>
    cases hstep
    exact ⟨rfl, (standing_setDuties _ _).trans (standing_wakeAll s), hopen⟩
  | act a =>
    cases a with
    | note =>
      cases hstep
      exact ⟨rfl, by simp, hopen⟩
    | nested body noted =>
      cases hstep
      refine ⟨?_, standing_setDuties s _, hopen⟩
      simp only [setDuties, frontOf, inPlace, hopen.1]
      cases noted <;> simp
    | request _ | announce =>
      cases hstep
      exact ⟨rfl, standing_setDuties s rest, hopen⟩
    | takePause | stopWorld =>
      cases hstep
      exact ⟨rfl, standing_setDuties s _, hopen⟩
    | giveUp => exact absurd rfl hstays

/-- A duty inside an open safepoint is replaced, unless the VM thread gives up at it. -/
theorem replaced_of_discharge (hd : d.isInner = true) (hopen : s.IsOpen true)
    (hstays : d ≠ .act .giveUp) (hstep : s.discharge rest d = some t) :
    ∃ front, t.IsOpen true ∧ Replaced s d rest t front := by
  obtain ⟨hvm, hstanding, hstill⟩ := discharge_inner hd hopen hstays hstep
  exact ⟨s.frontOf d, hstill, isInner_of_mem_frontOf s d, coming_frontOf s hd hstays, hvm,
    hstanding⟩

theorem vm_reply (s : System) (r : Requester) : (s.reply r).vm = s.vm := by
  unfold reply
  split <;> split <;> rfl

theorem isOpen_reply {isOpen : Bool} (hopen : s.IsOpen isOpen) (r : Requester) :
    (s.reply r).IsOpen isOpen := by
  unfold reply
  split <;> split <;> exact hopen

end System

/-! ## Where the VM thread is -/

/-- What is to come of an operation, given the duties that are left of it. -/
def dueOf (r : Requester) (ds : List Duty) : List Sight := (coming ds).map (Sight.due r)

/-- Whose operation the VM thread is in, and what should still be seen of it. -/
inductive Place (s : System) : Option Requester → List Sight → Prop
  | between (hlife : s.vm.life ≠ .lost) (hduties : s.vm.duties = []) (hopen : s.IsOpen false) :
    Place s none []
  | serving {r : Requester} {isOpen : Bool} (hlife : s.vm.life = .running)
    (hserving : Serving r isOpen s.vm.duties) (hopen : s.IsOpen isOpen) :
    Place s (some r) (dueOf r s.vm.duties)
  /-- The VM thread has given up in the middle of an operation. -/
  | lost {r : Requester} (ms : List Moment) (hlife : s.vm.life = .lost)
    (hduties : s.vm.duties = []) : Place s (some r) (ms.map (Sight.due r))

variable {cur cur' : Option Requester} {left left' : List Sight} {os : List Order}

theorem Undisturbed.isOpen {isOpen : Bool} (h : Undisturbed s os t) (hopen : s.IsOpen isOpen) :
    t.IsOpen isOpen :=
  ⟨h.atSafepoint.trans hopen.1, h.worldStopped.trans hopen.2⟩

/-- The VM thread stays where it is when others send and wake. -/
theorem Place.undisturbed (h : Place s cur left) (hst : Undisturbed s os t) : Place t cur left := by
  cases h with
  | between hlife hduties hopen =>
    refine .between (hst.life ▸ hlife) ?_ (hst.isOpen hopen)
    simpa [hduties] using hst.duties
  | @serving r isOpen hlife hserving hopen =>
    have hdue : dueOf r s.vm.duties = dueOf r t.vm.duties := by
      rw [dueOf, dueOf, ← coming_map_awake, ← hst.duties, coming_map_awake]
    rw [hdue]
    exact .serving (hst.life.trans hlife) (hserving.of_awake hst.duties) (hst.isOpen hopen)
  | lost ms hlife hduties =>
    refine .lost ms (hst.life.trans hlife) ?_
    simpa [hduties] using hst.duties

theorem Place.eq_some_of_mem (h : Place s cur left) {x : Sight} (hx : x ∈ left) :
    cur = some x.requester := by
  cases h with
  | between _ _ _ => cases hx
  | serving _ _ _ | lost _ _ _ =>
    obtain ⟨m, -, rfl⟩ := List.mem_map.mp hx
    rfl

/-- What can be seen of an operation at a duty, in the surroundings that belong to it. -/
theorem Serving.sights_eq {isOpen : Bool} (h : Serving r isOpen (d :: rest))
    (hduties : s.vm.duties = d :: rest) (hopen : s.IsOpen isOpen) :
    s.sights (.proceed .vmThread) = d.moment?.toList.map (Sight.due r) := by
  simp only [System.sights, System.sightsOf, hduties, h.requesterOf_eq]
  cases hmoment : d.moment? with
  | none => rfl
  | some m =>
    simp [System.sight, Sight.due, hopen.1, hopen.2, h.isInside_of_moment hmoment]

/-- No life begins on the VM thread. -/
theorem Duty.begun_of_mem_moment? {m : Moment} (hm : m ∈ d.moment?.toList) : m.begun = [] := by
  rw [Option.mem_toList] at hm
  cases d <;> cases hm <;> rfl

end HeapBridge.Pause
