import HeapBridge.Proofs.Pause.Agreement

/-!
# Turns

What can happen between two calls from outside: the companion or the VM thread goes to the next
position, the caller looks whether it may return, somebody wakes without a reason, or something
changes that the threads only look at. All of it keeps the agreement.
-/
namespace HeapBridge.Pause
variable {n : Nat} {p q : Position} {s t : System} {m : System.Move}

/-- The threads are at a position and agree, and at most the `n`-th caller calls. -/
structure Agrees (n : Nat) (p : Position) (s : System) : Prop where
  place : At p s
  agreed : p.Agreed s.sync
  calls : Calls n s

/-- Whose turn it is at a position. -/
def Position.party (p : Position) : System.Party := if p.isVmThread then .vmThread else .companion

/-- Moves other than calls: those of the companion, the VM thread and the `n`-th caller, and changes
of what these look at. -/
def System.Move.isTurn (n : Nat) : System.Move → Bool
  | .proceed party | .stir party =>
    party = .companion || party = .vmThread || party = .caller n
  | .setRegion _ | .setPendingList _ | .notifyLock => true
  | _ => false

theorem Position.party_eq (p : Position) : p.party = .companion ∨ p.party = .vmThread := by
  cases hvm : p.isVmThread <;> simp [party, hvm]

theorem Position.isTurn_party (p : Position) (n : Nat) :
    (System.Move.proceed p.party).isTurn n = true := by
  obtain hparty | hparty := p.party_eq <;> rw [hparty] <;> rfl

/-- What a turn leads to. -/
inductive Turn (n : Nat) (p : Position) (s : System) : System.Move → Position → System → Prop
  | go {q : Position} (h : Position.Edge s p q) :
    Turn n p s (.proceed p.party) q (q.put (p.effect s))
  | look (h : s.caller n = .awaiting s.sync.desired false) :
    Turn n p s (.proceed (.caller n)) p (s.awaitState n s.sync.desired)
  | wake (h : p.awake ≠ p) : Turn n p s (.stir p.party) p.awake (p.awake.put s)
  | rouse (h : s.caller n = .awaiting s.sync.desired true) :
    Turn n p s (.stir (.caller n)) p (s.setCaller n (.awaiting s.sync.desired false))
  | region (isOpen : Bool) : Turn n p s (.setRegion isOpen) p (s.setRegion isOpen)
  | pending (filled : Bool) : Turn n p s (.setPendingList filled) p { s with pendingList := filled }
  | notify : Turn n p s .notifyLock p { s with lock := s.lock.count }

namespace At

/-- Of the two threads only the one whose turn it is may be asleep. -/
theorem stir_eq (h : At p s) {party : System.Party}
    (hparty : party = .companion ∨ party = .vmThread) :
    s.stir party = if party = p.party ∧ p.awake ≠ p then some (p.awake.put s) else none := by
  obtain ⟨sync, ⟨locked, notifications⟩, regionOpen, pendingList, atSafepoint, worldStopped,
    companion, joined, vm, vmJoined, caller, history⟩ := s
  obtain ⟨rfl, rfl, rfl, rfl, rfl, -, -, -⟩ := h
  obtain rfl | rfl := hparty
  all_goals
    cases p with
    | idle asleep | parked asleep => cases asleep <;> rfl
    | _ => rfl

theorem put (h : At p s) (q : Position) : At q (q.put s) :=
  ⟨rfl, rfl, rfl, rfl, rfl, h.unannounced, h.kept, h.staying⟩

theorem go (h : At p s) (q : Position) : At q (q.put (p.effect s)) := by
  have hflags : (p.effect s).sync.vmPauseAnnounced = false ∧
      (p.effect s).sync.handedToVm = false ∧ (p.effect s).sync.terminating = false := by
    have hsame := And.intro h.unannounced (And.intro h.kept h.staying)
    cases p with
    | probing | closing =>
      rw [Position.effect]
      split <;> exact hsame
    | _ => exact hsame
  exact ⟨rfl, rfl, rfl, rfl, rfl, hflags.1, hflags.2.1, hflags.2.2⟩

/-- Nobody sleeps after a change that everybody is told of. -/
theorem wakeAll (h : At p s) : At p.awake s.wakeAll := by
  obtain ⟨hcompanion, hvm, hsafepoint, hstopped, hlocked, hannounced, hkept, hstaying⟩ := h
  refine ⟨?_, ?_, ?_, ?_, ?_, hannounced, hkept, hstaying⟩
  · simp only [System.wakeAll, hcompanion]
    cases p <;> rfl
  · simp only [System.wakeAll, hvm]
    cases p <;> rfl
  · simp only [System.wakeAll, hsafepoint]
    cases p <;> rfl
  · simp only [System.wakeAll, hstopped]
    cases p <;> rfl
  · simp only [System.wakeAll, hlocked]
    cases p <;> rfl

/-- A place is a matter of the two threads and of what they hold. -/
theorem congr (h : At p s) (hcompanion : t.companion = s.companion) (hvm : t.vm = s.vm)
    (hsafepoint : t.atSafepoint = s.atSafepoint) (hstopped : t.worldStopped = s.worldStopped)
    (hlocked : t.lock.locked = s.lock.locked)
    (hannounced : t.sync.vmPauseAnnounced = s.sync.vmPauseAnnounced)
    (hkept : t.sync.handedToVm = s.sync.handedToVm)
    (hstaying : t.sync.terminating = s.sync.terminating) : At p t :=
  ⟨hcompanion.trans h.companion, hvm.trans h.vm, hsafepoint.trans h.atSafepoint,
    hstopped.trans h.worldStopped, hlocked.trans h.locked, hannounced.trans h.unannounced,
    hkept.trans h.kept, hstaying.trans h.staying⟩

end At

namespace Agrees

theorem initial (n : Nat) : Agrees n .top .initial := ⟨.initial, rfl, .initial n⟩

/-- Of the companion and the VM thread, the one whose turn it is goes on. -/
theorem stepParty_eq (h : Agrees n p s) {party : System.Party}
    (hparty : party = .companion ∨ party = .vmThread) :
    s.stepParty party =
      if party = p.party then (p.next? s).map fun q => q.put (p.effect s) else none := by
  obtain rfl | rfl := hparty
  · change s.stepCompanion = _
    rw [h.place.stepCompanion_eq, h.agreed.breach?_eq_none, Position.party]
    cases p.isVmThread <;> rfl
  · change s.stepVmThread = _
    rw [h.place.stepVmThread_eq, Position.party]
    cases p.isVmThread <;> rfl

/-- Where there is a next position, the one whose turn it is goes there. -/
theorem step_party_eq (h : Agrees n p s) (hnext : p.next? s = some q) :
    s.step (.proceed p.party) = some (q.put (p.effect s)) := by
  rw [System.step, h.stepParty_eq p.party_eq, if_pos rfl, hnext, Option.map_some]

/-- A caller that does not sleep looks. -/
theorem stepCaller_eq (h : Agrees n p s) :
    s.stepCaller n = if s.caller n = .awaiting s.sync.desired false
      then some (s.awaitState n s.sync.desired) else none := by
  obtain haway | ⟨asleep, hawaiting, -⟩ := h.calls.call
  · simp [System.stepCaller, haway]
  · cases asleep <;> simp [System.stepCaller, hawaiting]

theorem stir_caller_eq (h : Agrees n p s) :
    s.stir (.caller n) = if s.caller n = .awaiting s.sync.desired true
      then some (s.setCaller n (.awaiting s.sync.desired false)) else none := by
  obtain haway | ⟨asleep, hawaiting, -⟩ := h.calls.call
  · simp [System.stir, haway, Caller.awake]
  · cases asleep <;> simp [System.stir, hawaiting, Caller.awake]

/-- Whatever happens between two calls is a turn. -/
theorem exists_turn (h : Agrees n p s) (hm : m.isTurn n = true) (hstep : s.step m = some t) :
    ∃ q, Turn n p s m q t := by
  cases m with
  | proceed party =>
    obtain hparty | rfl : (party = .companion ∨ party = .vmThread) ∨ party = .caller n := by
      simpa [System.Move.isTurn] using hm
    · rw [System.step, h.stepParty_eq hparty] at hstep
      split at hstep
      case isTrue hturn =>
        obtain ⟨q, hnext, rfl⟩ := Option.map_eq_some_iff.mp hstep
        exact ⟨q, hturn ▸ .go (Position.edge_of_next? hnext)⟩
      case isFalse => cases hstep
    · rw [System.step, System.stepParty, h.stepCaller_eq] at hstep
      split at hstep
      case isTrue hawake =>
        cases hstep
        exact ⟨p, .look hawake⟩
      case isFalse => cases hstep
  | stir party =>
    obtain hparty | rfl : (party = .companion ∨ party = .vmThread) ∨ party = .caller n := by
      simpa [System.Move.isTurn] using hm
    · rw [System.step, h.place.stir_eq hparty] at hstep
      split at hstep
      case isTrue hturn =>
        cases hstep
        exact ⟨p.awake, hturn.1 ▸ .wake hturn.2⟩
      case isFalse => cases hstep
    · rw [System.step, h.stir_caller_eq] at hstep
      split at hstep
      case isTrue hasleep =>
        cases hstep
        exact ⟨p, .rouse hasleep⟩
      case isFalse => cases hstep
  | setRegion isOpen =>
    cases hstep
    exact ⟨p, .region isOpen⟩
  | setPendingList filled =>
    cases hstep
    exact ⟨p, .pending filled⟩
  | notifyLock =>
    cases hstep
    exact ⟨p, .notify⟩
  | _ => cases hm

/-- A turn keeps the agreement. -/
theorem of_turn (h : Agrees n p s) (hturn : Turn n p s m q t) : Agrees n q t := by
  obtain ⟨hplace, hagreed, hcalls⟩ := h
  cases hturn with
  | go hnext => exact ⟨hplace.go q, hagreed.next hnext, (hcalls.effect p).congr rfl rfl rfl⟩
  | look _ => exact ⟨hplace.congr rfl rfl rfl rfl rfl rfl rfl rfl, hagreed, hcalls.awaitState⟩
  | wake _ => exact ⟨hplace.put p.awake, hagreed.awake, hcalls.congr rfl rfl rfl⟩
  | rouse _ =>
    refine ⟨hplace.congr rfl rfl rfl rfl rfl rfl rfl rfl, hagreed, ?_, ?_⟩
    · exact .inr ⟨false, by simp, nofun⟩
    · intro x hx
      simp [hx, hcalls.others x hx]
  | region _ | pending _ | notify =>
    exact ⟨hplace.congr rfl rfl rfl rfl rfl rfl rfl rfl, hagreed, hcalls.congr rfl rfl rfl⟩

end Agrees

theorem Position.desired_effect (p : Position) (s : System) :
    (p.effect s).sync.desired = s.sync.desired := by
  cases p with
  | probing | closing =>
    rw [Position.effect]
    split <;> rfl
  | _ => rfl

namespace Turn

/-- Only a call asks for another state. -/
theorem desired_eq (h : Turn n p s m q t) : t.sync.desired = s.sync.desired := by
  cases h with
  | go _ => exact p.desired_effect s
  | _ => rfl

/-- A stopped world that is wanted so stays stopped. -/
theorem reached_eq (h : Turn n p s m q t) (hparked : p.isParked = true) :
    t.sync.reached = s.sync.reached := by
  cases h with
  | go _ =>
    cases p with
    | parked _ => rfl
    | _ => cases hparked
  | _ => rfl

end Turn
end HeapBridge.Pause
