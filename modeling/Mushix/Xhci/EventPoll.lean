import Mushix.Xhci.EventFuture

/-!
# One poll of the event ring

What `EventRing::poll` does with an event, for every wait list: with waiters that are alive or
dropped, registered in any order and any number of times, and with any conditions.

* `EventWaitCond.Meets`: an event is what a waiter asks for;
* `EventRing.Dispatched`: the event is in the queue of the first such waiter and in no other;
* `EventRing.poll_serves_first`: a poll dispatches the event and removes the dropped waiters.
-/

namespace Mushix

/-- The event has everything that the condition asks for. -/
structure EventWaitCond.Meets (cond : EventWaitCond) (e : GenericTrbEntry) : Prop where
  trbAddr : ∀ trbAddr, cond.trbAddr = some trbAddr → e.data = trbAddr
  trbType : ∀ trbType, cond.trbType = some trbType → e.trbType = trbType.toU32
  slot : ∀ slot, cond.slot = some slot → e.slotId = slot

/-- `matches` tests the three conditions. -/
theorem EventWaitInfo.matches_eq_true_iff (info : EventWaitInfo) (e : GenericTrbEntry) :
    info.matches e = true ↔ info.cond.Meets e := by
  obtain ⟨⟨trbType, trbAddr, slot⟩, trbs⟩ := info
  have hmeets : EventWaitCond.Meets { trbType, trbAddr, slot } e ↔
      (∀ a, trbAddr = some a → e.data = a) ∧ (∀ t, trbType = some t → e.trbType = t.toU32) ∧
        ∀ i, slot = some i → e.slotId = i :=
    ⟨fun h => ⟨h.trbAddr, h.trbType, h.slot⟩, fun h => ⟨h.1, h.2.1, h.2.2⟩⟩
  rw [hmeets]
  unfold «matches»
  -- what is not asked for is met by every event
  cases trbAddr <;> cases trbType <;> cases slot <;> simp <;> grind

namespace EventRing

/-- The waiter is alive, and the event has what it asks for. -/
def Wants (s : WaitState) (e : GenericTrbEntry) (w : ℕ) : Prop :=
  ∃ info, s.infos w = some info ∧ info.cond.Meets e

variable {s : WaitState} {e : GenericTrbEntry} {st : EventState} {infos : ℕ → Option EventWaitInfo}

/-- The two ways of saying that a waiter matches an event. -/
theorem takes_iff_wants {w : ℕ} : Takes s.infos e w ↔ Wants s e w := by
  simp only [Takes, Wants, EventWaitInfo.matches_eq_true_iff]

/-- What became of an event: it is in the queue of the first waiter that wants it and in no other
queue, or it is in no queue because no waiter wants it. -/
def Dispatched (s : WaitState) (e : GenericTrbEntry) (infos : ℕ → Option EventWaitInfo) : Prop :=
  (∃ ws w ws' info, s.st.evring.waitList = ws ++ w :: ws' ∧ (∀ v ∈ ws, ¬Wants s e v) ∧
      s.infos w = some info ∧ info.cond.Meets e ∧
      infos = Function.update s.infos w (some { info with trbs := info.trbs ++ [e] })) ∨
    ((∀ w ∈ s.st.evring.waitList, ¬Wants s e w) ∧ infos = s.infos)

/-- The search serves the first waiter that wants the event, or none. -/
theorem dispatch_dispatched (s : WaitState) (e : GenericTrbEntry) :
    ∃ infos, dispatch e s.st.evring.waitList s = .ok () { s with infos } ∧
      Dispatched s e infos := by
  classical
  cases hfind : s.st.evring.waitList.find? fun w => decide (Wants s e w) with
  | none =>
    have hnone : ∀ w ∈ s.st.evring.waitList, ¬Wants s e w := by
      simpa using List.find?_eq_none.1 hfind
    refine ⟨s.infos, ?_, .inr ⟨hnone, rfl⟩⟩
    rw [← List.append_nil s.st.evring.waitList,
      dispatch_append fun w hw => mt takes_iff_wants.1 (hnone w hw)]
    rfl
  | some w =>
    obtain ⟨hwants, ws, ws', hsplit, hskip⟩ := List.find?_eq_some_iff_append.1 hfind
    obtain ⟨info, hinfo, hmeets⟩ := of_decide_eq_true hwants
    have hskip' : ∀ v ∈ ws, ¬Wants s e v := by simpa using hskip
    refine ⟨_, ?_, .inl ⟨ws, w, ws', info, hsplit, hskip', hinfo, hmeets, rfl⟩⟩
    rw [hsplit, dispatch_append fun v hv => mt takes_iff_wants.1 (hskip' v hv)]
    exact dispatch_cons_of_takes hinfo ((info.matches_eq_true_iff e).2 hmeets) ws'

/-- An event that is dispatched leaves every waiter alive or dropped as it was. -/
theorem Dispatched.isSome_iff (h : Dispatched s e infos) (w : ℕ) :
    (infos w).isSome = (s.infos w).isSome := by
  obtain ⟨ws, v, ws', info, -, -, hinfo, -, rfl⟩ | ⟨-, rfl⟩ := h
  · by_cases heq : w = v
    · rw [heq, Function.update_self, hinfo]
      rfl
    · rw [Function.update_of_ne heq]
  · rfl

/-- When an event was popped, `poll` appends it to the queue of the earliest registered waiter that
is alive and whose conditions it meets, changes no other queue, and removes from the wait list the
dropped waiters and no others, in whatever order they were registered. -/
theorem poll_serves_first (hpop : EventState.pop s.st = .ok (some e) st) :
    ∃ infos, poll s = .ok ()
        (setWaitList (s.st.evring.waitList.filter fun w => (s.infos w).isSome) { st, infos }) ∧
      Dispatched s e infos := by
  -- the pop leaves the wait list as it is
  have hlist : st.evring.waitList = s.st.evring.waitList := by
    obtain ⟨i, -, -, -, rfl⟩ := EventState.pop_eq_ok_some hpop
    rfl
  obtain ⟨infos, hrun, hdispatched⟩ := dispatch_dispatched { s with st } e
  have hdispatched' : Dispatched s e infos := by
    simpa only [Dispatched, Wants, hlist] using hdispatched
  refine ⟨infos, ?_, hdispatched'⟩
  rw [poll_of_pop_some hpop hrun, hlist]
  simp only [hdispatched'.isSome_iff]

/-- A page for a ring. -/
def pollPage : IoBoxAddr := { addr := 0x7000, aligned := rfl }

/-- Three waiters for one event: one was dropped, one asks for another slot, and one that asks for
nothing is registered twice. -/
def mixedWaiters : WaitState where
  st :=
    { evring :=
        { EventState.fresh pollPage pollPage with
          ring :=
            { base := pollPage
              trb := fun _ => GenericTrbEntry.default.setCycleState true
              currentIndex := 0 }
          erdp := some 0
          waitList := [0, 1, 2, 2] }
      irs := fun _ =>
        { management := 1, moderation := 0, erstSize := 1, erstBase := 0x1000, erdp := 0x1000 } }
  infos
    | 1 => some { cond := { trbType := none, trbAddr := none, slot := some 7 }, trbs := [] }
    | 2 => some { cond := { trbType := none, trbAddr := none, slot := none }, trbs := [] }
    | _ => none

theorem poll_serves_first_mixedWaiters :
    ∃ infos, poll mixedWaiters = .ok ()
        (setWaitList (mixedWaiters.st.evring.waitList.filter fun w => (mixedWaiters.infos w).isSome)
          { st := mixedWaiters.st.afterPop 0, infos }) ∧
      Dispatched mixedWaiters mixedWaiters.st.evring.ring.current infos :=
  poll_serves_first (EventState.pop_some rfl (by decide))

end EventRing

end Mushix
