import Mushix.Xhci.EventRing

/-!
# Futures for events

`EventFuture` (`xhci.rs`): a task that has rung a doorbell waits for the event about its TRB.
`EventFuture::new` registers an `EventWaitInfo` with the event ring, `EventRing::poll` pops an
event and queues it to the first waiter that it matches, and `EventFuture::poll` takes it from
there.

A future owns its `EventWaitInfo` through an `Rc` and the ring refers to it through a `Weak`.
The heap of the waiters is `WaitState.infos`, whose keys stand for the allocations; a key
without a content is an allocation whose only `Rc` was dropped, and which `upgrade` refuses.

* `EventFuture.poll`, `EventRing.poll`: the two methods;
* `dispatch_append`, `dispatch_cons_of_takes`: what the search for a waiter does;
* `removeStale_eq`: the removal of the dropped waiters is a filter.
-/

namespace Mushix

/-- `EventWaitCond`: what a waiter asks of an event; `none` accepts anything. -/
structure EventWaitCond where
  trbType : Option TrbType
  trbAddr : Option (BitVec 64)
  slot : Option (BitVec 8)
  deriving DecidableEq, Repr

/-- `EventWaitInfo`: a condition and the events that were queued to the waiter. -/
structure EventWaitInfo where
  cond : EventWaitCond
  trbs : List GenericTrbEntry
  deriving DecidableEq, Repr

namespace EventWaitInfo

/-- An event matches a condition that holds of it in every respect that is asked for. -/
def «matches» (self : EventWaitInfo) (trb : GenericTrbEntry) : Bool := Id.run do
  -- what is not asked for matches every event
  if let some trbAddr := self.cond.trbAddr then
    if trb.data ≠ trbAddr then
      return false
  if let some trbType := self.cond.trbType then
    if trb.trbType ≠ trbType.toU32 then
      return false
  if let some slot := self.cond.slot then
    if trb.slotId ≠ slot then
      return false
  return true

/-- `resolve` queues an event to the waiter. -/
def resolve (self : EventWaitInfo) (trb : GenericTrbEntry) : EventWaitInfo :=
  { self with trbs := self.trbs ++ [trb] }

end EventWaitInfo

/-- The event ring and the heap of the waiters. -/
structure WaitState where
  /-- The ring and the interrupter registers. -/
  st : EventState
  /-- The allocated waiters, by key. -/
  infos : ℕ → Option EventWaitInfo

namespace EventRing

/-- Run a method of the ring beside the heap. -/
def onEvents {α : Type} (x : Method EventState α) : Method WaitState α := fun s =>
  match x s.st with
  | .ok a st => .ok a { s with st }
  | .error e st => .error e { s with st }

/-- Change the wait list. -/
def setWaitList (waitList : List ℕ) (s : WaitState) : WaitState :=
  { s with st := { s.st with evring := { s.st.evring with waitList } } }

/-- `register_waiter` puts a waiter at the end of the wait list. -/
def registerWaiter (waiter : ℕ) : Method WaitState Unit := do
  modify fun s => setWaitList (s.st.evring.waitList ++ [waiter]) s

/-- The loop over the wait list in `poll`: the event goes to the first waiter that is alive and
matches it. -/
def dispatch (e : GenericTrbEntry) : List ℕ → Method WaitState Unit
  | [] => return ()
  | w :: ws => do
    match (← get).infos w with
    -- `waiter.upgrade()` succeeds: the future is still there
    | some info =>
      if info.matches e then
        modify fun s => { s with infos := Function.update s.infos w (some (info.resolve e)) }
      else
        dispatch e ws
    | none => dispatch e ws

/-- `stale_waiter_indices`: the indices of the waiters without an `Rc`, the last one first. -/
def staleWaiterIndices (infos : ℕ → Option EventWaitInfo) (waitList : List ℕ) : List ℕ :=
  waitList.zipIdx.reverse.filterMap fun e => if (infos e.1).isNone then some e.2 else none

/-- The loop over the stale indices in `poll`. -/
def removeStale : Method WaitState Unit := do
  modify fun s =>
    -- from the last index to the first, so that no removal moves an index that is still to come
    let waitList := s.st.evring.waitList
    setWaitList ((staleWaiterIndices s.infos waitList).foldl List.eraseIdx waitList) s

/-- `poll`, which does not suspend. -/
def poll : Method WaitState Unit := do
  match ← onEvents EventState.pop with
  | some e =>
    let s ← get
    dispatch e s.st.evring.waitList
    removeStale
  | none => return ()

end EventRing

/-- `EventFuture`: the `Rc` of its waiter. -/
structure EventFuture where
  waitOn : ℕ
  deriving DecidableEq, Repr

namespace EventFuture

/-- `new`, where the allocator returns the allocation `key` for the `Rc`. -/
def new (key : ℕ) (cond : EventWaitCond) : Method WaitState EventFuture := do
  modify fun s => { s with infos := Function.update s.infos key (some { cond, trbs := [] }) }
  EventRing.registerWaiter key
  return { waitOn := key }

/-- A future for the completion of a TRB on a transfer ring. -/
def newForTrb (key : ℕ) (trbAddr : BitVec 64) : Method WaitState EventFuture :=
  new key { trbType := some .transferEvent, trbAddr := some trbAddr, slot := none }

/-- A future for the completion of a command. -/
def newForCommand (key : ℕ) (trbAddr : BitVec 64) : Method WaitState EventFuture :=
  new key { trbType := some .commandCompletionEvent, trbAddr := some trbAddr, slot := none }

/-- `poll`: `some trb` is `Ready(Ok(trb))` and `none` is `Pending`. The future owns its `Rc`,
so its waiter is allocated. -/
def poll (self : EventFuture) : Method WaitState (Option GenericTrbEntry) := do
  match (← get).infos self.waitOn with
  -- `pop_front`: the events come out in the order they were resolved in
  | some { cond, trbs := trb :: trbs } =>
    modify fun s =>
      { s with infos := Function.update s.infos self.waitOn (some { cond, trbs }) }
    return some trb
  | _ => return none

/-- The end of the future, which drops the only `Rc`. -/
def drop (self : EventFuture) : Method WaitState Unit := do
  modify fun s => { s with infos := Function.update s.infos self.waitOn none }

end EventFuture

/-! ## When an event matches -/

namespace EventWaitInfo

/-- With an address and a type, but no slot, asked for. -/
theorem matches_iff {info : EventWaitInfo} {trbType : TrbType} {trbAddr : BitVec 64}
    (hcond : info.cond = { trbType := some trbType, trbAddr := some trbAddr, slot := none })
    (trb : GenericTrbEntry) :
    info.matches trb = true ↔ trb.data = trbAddr ∧ trb.trbType = trbType.toU32 := by
  unfold «matches»
  by_cases haddr : trb.data = trbAddr
  · by_cases htype : trb.trbType = trbType.toU32 <;> simp [hcond, haddr, htype]
  · simp [hcond, haddr]

end EventWaitInfo

/-! ## What `EventRing::poll` does -/

namespace EventRing

variable {s : WaitState} {e : GenericTrbEntry} {waitList : List ℕ}

/-- The waiter is alive and matches the event. -/
def Takes (infos : ℕ → Option EventWaitInfo) (e : GenericTrbEntry) (w : ℕ) : Prop :=
  ∃ info, infos w = some info ∧ info.matches e = true

/-- The search passes over the waiters that do not take the event. -/
theorem dispatch_append {ws : List ℕ} (hskip : ∀ w ∈ ws, ¬Takes s.infos e w) (ws' : List ℕ) :
    dispatch e (ws ++ ws') s = dispatch e ws' s := by
  induction ws with
  | nil => rfl
  | cons w ws ih =>
    have hrest := ih fun v hv => hskip v (List.mem_cons_of_mem w hv)
    rw [List.cons_append, dispatch, Method.run_get_bind]
    cases hinfo : s.infos w with
    | none => exact hrest
    | some info =>
      have hfalse : info.matches e = false := by
        apply Bool.eq_false_iff.2
        exact fun htrue => hskip w List.mem_cons_self ⟨info, hinfo, htrue⟩
      simpa [hfalse] using hrest

/-- The search ends at a waiter that takes the event. -/
theorem dispatch_cons_of_takes {w : ℕ} {info : EventWaitInfo} (hinfo : s.infos w = some info)
    (hmatch : info.matches e = true) (ws : List ℕ) :
    dispatch e (w :: ws) s =
      .ok () { s with infos := Function.update s.infos w (some (info.resolve e)) } := by
  rw [dispatch, Method.run_get_bind]
  simp [hinfo, hmatch]

/-- No waiter matches: the event is dropped. -/
theorem dispatch_of_none
    (hnone : ∀ w ∈ waitList, ∀ info, s.infos w = some info → info.matches e = false) :
    dispatch e waitList s = .ok () s := by
  rw [← List.append_nil waitList, dispatch_append]
  · rfl
  · rintro w hw ⟨info, hinfo, htrue⟩
    rw [hnone w hw info hinfo] at htrue
    cases htrue

/-- One waiter matches: it gets the event. -/
theorem dispatch_of_first {w : ℕ} {info : EventWaitInfo} (hmem : w ∈ waitList)
    (hinfo : s.infos w = some info) (hmatch : info.matches e = true)
    (honly : ∀ w' ∈ waitList, ∀ info', s.infos w' = some info' → info'.matches e = true →
      w' = w) :
    dispatch e waitList s =
      .ok () { s with infos := Function.update s.infos w (some (info.resolve e)) } := by
  obtain ⟨ws, ws', rfl, hnot⟩ := List.eq_append_cons_of_mem hmem
  -- the waiters in front of `w` are other ones, which do not take the event
  rw [dispatch_append, dispatch_cons_of_takes hinfo hmatch]
  rintro v hv ⟨info', hinfo', htrue⟩
  have heq := honly v (List.mem_append_left _ hv) info' hinfo' htrue
  exact hnot (heq ▸ hv)

/-- The search changes the waiters only, and it never fails. -/
theorem dispatch_isOk (e : GenericTrbEntry) (waitList : List ℕ) (s : WaitState) :
    ∃ infos, dispatch e waitList s = .ok () { s with infos } := by
  induction waitList with
  | nil => exact ⟨s.infos, rfl⟩
  | cons w ws ih =>
    rw [dispatch, Method.run_get_bind]
    cases hinfo : s.infos w with
    | none => exact ih
    | some info =>
      rcases Bool.eq_false_or_eq_true (info.matches e) with hmatch | hmatch
      · simp only [hmatch, if_true]
        exact ⟨_, rfl⟩
      · simpa only [hmatch, Bool.false_eq_true, if_false] using ih

/-- The stale indices of a longer list. -/
theorem staleWaiterIndices_cons (infos : ℕ → Option EventWaitInfo) (w : ℕ) (ws : List ℕ) :
    staleWaiterIndices infos (w :: ws) =
      (staleWaiterIndices infos ws).map (· + 1) ++ if (infos w).isNone then [0] else [] := by
  -- the indices behind the head are those of the shorter list, each one more
  have hshift : ws.zipIdx 1 = (ws.zipIdx 0).map (Prod.map id (· + 1)) := by
    rw [List.zipIdx_succ]
    rfl
  rw [staleWaiterIndices, List.zipIdx_cons, List.reverse_cons, List.filterMap_append]
  congr 1
  · rw [Nat.zero_add, hshift, ← List.map_reverse, List.filterMap_map, staleWaiterIndices,
      List.map_filterMap]
    refine List.filterMap_congr fun x _ => ?_
    simp only [Function.comp, Prod.map_fst, Prod.map_snd, id]
    split <;> rfl
  · cases h : infos w <;> simp [h]

/-- Erasing behind the head leaves the head. -/
theorem foldl_eraseIdx_succ (w : ℕ) (ws indices : List ℕ) :
    (indices.map (· + 1)).foldl List.eraseIdx (w :: ws) =
      w :: indices.foldl List.eraseIdx ws := by
  induction indices generalizing ws with
  | nil => rfl
  | cons k ks ih =>
    rw [List.map_cons, List.foldl_cons, List.eraseIdx_cons_succ, ih, List.foldl_cons]

/-- Removing the stale indices from the last to the first keeps the waiters that are alive. -/
theorem foldl_staleWaiterIndices (infos : ℕ → Option EventWaitInfo) (waitList : List ℕ) :
    (staleWaiterIndices infos waitList).foldl List.eraseIdx waitList =
      waitList.filter fun w => (infos w).isSome := by
  induction waitList with
  | nil => rfl
  | cons w ws ih =>
    rw [staleWaiterIndices_cons, List.foldl_append, foldl_eraseIdx_succ, ih]
    cases h : infos w <;> simp [h]

/-- The loop leaves the waiters that are alive, in their order. -/
theorem removeStale_eq :
    removeStale s = .ok () (setWaitList
      (s.st.evring.waitList.filter fun w => (s.infos w).isSome) s) := by
  simp only [removeStale, Method.run_modify, foldl_staleWaiterIndices]

/-- Without an event, `poll` changes nothing. -/
theorem poll_of_pop_none (hpop : EventState.pop s.st = .ok none s.st) : poll s = .ok () s := by
  have hrun : onEvents EventState.pop s = .ok none s := by rw [onEvents, hpop]
  rw [poll, Method.bind_of_ok hrun]
  rfl

/-- With an event, `poll` searches for a waiter and then removes the dropped waiters. -/
theorem poll_of_pop_some {st : EventState} {infos : ℕ → Option EventWaitInfo}
    (hpop : EventState.pop s.st = .ok (some e) st)
    (hdispatch : dispatch e st.evring.waitList { s with st } = .ok () { st, infos }) :
    poll s = .ok () (setWaitList
      (st.evring.waitList.filter fun w => (infos w).isSome) { st, infos }) := by
  have hrun : onEvents EventState.pop s = .ok (some e) { s with st } := by rw [onEvents, hpop]
  rw [poll, Method.bind_of_ok hrun]
  simp only [Method.run_get_bind]
  rw [Method.bind_of_ok hdispatch, removeStale_eq]

end EventRing

end Mushix
