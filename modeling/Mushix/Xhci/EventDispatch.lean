import Mushix.Xhci.EventFuture
import Mushix.Xhci.EventProtocol

/-!
# Tasks that wait for events

The event ring, its controller and any number of tasks. A task pushes TRBs, rings a doorbell
and creates a future for one TRB address without suspending (`send_command`,
`request_descriptor`, `request_set_config`, `clear_endpoint_halt`); the controller, which runs
beside the program, may post the completion event at any time after the doorbell, also before
the future exists. Tasks and `EventRing::poll` are scheduled cooperatively.

* `DispatchSystem`: the system, with a history of the requests as ghost state;
* `DispatchSystem.Stage`: the stages of a request, from the doorbell to the future's result;
* `DispatchSystem.Consistent`: the relation between ring, wait list and requests, which every
  step keeps (`DispatchSystem.consistent_step`);
* `DispatchSystem.future_receives_own_event`: every future gets its own event, and no
  completion event is lost.
-/

namespace Mushix

/-- What a task waits for: which of the two constructors of `EventFuture` it calls. -/
inductive Awaited where
  /-- The completion of a TRB, for which it calls `new_for_trb`. -/
  | trb
  /-- The completion of a command, for which it calls `new_for_command`. -/
  | command
  deriving DecidableEq, Repr

namespace Awaited

/-- The type of the completion event. -/
def trbType : Awaited → TrbType
  | trb => .transferEvent
  | command => .commandCompletionEvent

/-- The call that creates the future. -/
def newFuture (key : ℕ) (trbAddr : BitVec 64) : Awaited → Method WaitState EventFuture
  | trb => EventFuture.newForTrb key trbAddr
  | command => EventFuture.newForCommand key trbAddr

end Awaited

/-- A task between its doorbell and the creation of its future. -/
structure Call where
  task : ℕ
  /-- The allocation that the future will get. -/
  key : ℕ
  awaited : Awaited
  trbAddr : BitVec 64
  deriving DecidableEq, Repr

/-- The history of a request. -/
structure Request where
  awaited : Awaited
  trbAddr : BitVec 64
  /-- The completion event that the controller posted. -/
  completion : Option GenericTrbEntry
  /-- What the future returned. -/
  result : Option GenericTrbEntry
  deriving DecidableEq, Repr

/-- The event is of the type and about the address that the request waits for. -/
def Request.Awaits (r : Request) (e : GenericTrbEntry) : Prop :=
  e.data = r.trbAddr ∧ e.trbType = r.awaited.trbType.toU32

instance (r : Request) (e : GenericTrbEntry) : Decidable (r.Awaits e) :=
  inferInstanceAs (Decidable (e.data = r.trbAddr ∧ e.trbType = r.awaited.trbType.toU32))

/-- The condition of the future. -/
def Request.cond (r : Request) : EventWaitCond :=
  { trbType := some r.awaited.trbType, trbAddr := some r.trbAddr, slot := none }

/-- The event ring, the controller, the tasks and the history of the requests. -/
structure DispatchSystem where
  /-- The event ring and the controller. -/
  ev : EventSystem
  /-- The heap of the waiters. -/
  infos : ℕ → Option EventWaitInfo
  /-- The task that has rung its doorbell and is about to create its future. -/
  running : Option Call
  /-- The futures that the tasks await. -/
  tasks : ℕ → Option EventFuture
  /-- All requests; the future of request number `k` gets the allocation `k`. -/
  requests : List Request
  /-- For each posted event the request that it completes, if any. -/
  owner : List (Option ℕ)

/-- A step of a party. -/
inductive DispatchAction where
  /-- A task pushes its TRBs, of which it will await the one at `trbAddr`, and rings the
  doorbell. -/
  | call (task : ℕ) (awaited : Awaited) (trbAddr : BitVec 64)
  /-- The running task creates its future. -/
  | await
  /-- The controller posts the completion event of a request. -/
  | complete (key : ℕ) (event : GenericTrbEntry)
  /-- The controller posts another event. -/
  | other (event : GenericTrbEntry)
  /-- `EventRing::poll` is called. -/
  | pollRing
  /-- A task is polled and polls the future it awaits. -/
  | pollTask (task : ℕ)

namespace DispatchSystem

/-- What the methods of the ring and of the futures work on. -/
def waitState (s : DispatchSystem) : WaitState := { st := s.ev.st, infos := s.infos }

/-- Put back what a method left. -/
def setWaitState (ws : WaitState) (s : DispatchSystem) : DispatchSystem :=
  { s with ev := { s.ev with st := ws.st }, infos := ws.infos }

/-- A request becomes a member of the history. -/
def updateRequest (key : ℕ) (f : Request → Request) (s : DispatchSystem) : DispatchSystem :=
  { s with requests := s.requests.modify key f }

/-- A task that awaits nothing pushes its TRBs and rings the doorbell. -/
def call (task : ℕ) (awaited : Awaited) (trbAddr : BitVec 64) (s : DispatchSystem) :
    DispatchSystem :=
  if s.running = none ∧ s.tasks task = none then
    { s with
      running := some { task, key := s.requests.length, awaited, trbAddr }
      requests := s.requests ++ [{ awaited, trbAddr, completion := none, result := none }] }
  else s

/-- The running task creates its future, awaits it and so suspends. -/
def await (s : DispatchSystem) : DispatchSystem :=
  match s.running with
  | some call =>
    match call.awaited.newFuture call.key call.trbAddr s.waitState with
    | .ok future ws =>
      { s.setWaitState ws with
        running := none
        tasks := Function.update s.tasks call.task (some future) }
    | .error _ ws => s.setWaitState ws
  | none => s

/-- The controller posts an event that completes request number `key`, once. -/
def complete (key : ℕ) (event : GenericTrbEntry) (s : DispatchSystem) : DispatchSystem :=
  match s.requests[key]? with
  | some r =>
    if r.completion = none ∧ r.Awaits event then
      -- the controller sets the cycle bit of its lap
      let written := event.setCycleState s.ev.prodCycle
      { s.updateRequest key fun r => { r with completion := some written } with
        ev := s.ev.post event
        owner := s.owner ++ [some key] }
    else s
  | none => s

/-- The controller posts an event that completes no request. -/
def other (event : GenericTrbEntry) (s : DispatchSystem) : DispatchSystem :=
  { s with
    ev := s.ev.post event
    owner := s.owner ++ [none] }

/-- A task calls `EventRing::poll`. -/
def pollRing (s : DispatchSystem) : DispatchSystem :=
  if s.running = none then
    match EventRing.poll s.waitState with
    | .ok _ ws | .error _ ws => { s with ev := EventSystem.step .pop s.ev }.setWaitState ws
  else s

/-- A task that awaits a future is polled; when the future is ready the task drops it. -/
def pollTask (task : ℕ) (s : DispatchSystem) : DispatchSystem :=
  match s.running, s.tasks task with
  | none, some future =>
    match future.poll s.waitState with
    | .ok (some event) ws =>
      { (s.setWaitState (future.drop.stateAfter ws)).updateRequest future.waitOn
          fun r => { r with result := some event } with
        tasks := Function.update s.tasks task none }
    | .ok none ws => s.setWaitState ws
    | .error _ ws => s.setWaitState ws
  | _, _ => s

/-- One step. A step that is not enabled changes nothing: a task that has rung its doorbell
goes on before any other task is polled, and a request is completed once. -/
def step : DispatchAction → DispatchSystem → DispatchSystem
  | .call task awaited trbAddr => call task awaited trbAddr
  | .await => await
  | .complete key event => complete key event
  | .other event => other event
  | .pollRing => pollRing
  | .pollTask task => pollTask task

/-- The system before the first request. -/
def init (base erstAddr : IoBoxAddr) (irs : Fin 1024 → InterrupterRegisterSet)
    (i : Fin 1024) : DispatchSystem :=
  { ev := EventSystem.init base erstAddr irs i
    infos := fun _ => none
    running := none
    tasks := fun _ => none
    requests := []
    owner := [] }

/-- The addresses that are awaited at the same time are distinct. -/
def DistinctAddrs (s : DispatchSystem) : Prop :=
  s.requests.Pairwise fun r r' => r.result = none → r'.result = none → r.trbAddr ≠ r'.trbAddr

/-- The event that is popped next is a completion event or matches no outstanding request. -/
def QuietNext (s : DispatchSystem) : Prop :=
  s.owner[s.ev.popped.length]? = some none →
    ∀ e ∈ s.ev.posted[s.ev.popped.length]?, ∀ r ∈ s.requests, r.result = none → ¬r.Awaits e

/-- The assumptions about the controller and the addresses. -/
def Admissible (s : DispatchSystem) : Prop := s.ev.Bounded ∧ s.DistinctAddrs ∧ s.QuietNext

instance : DecidablePred DistinctAddrs := fun s =>
  inferInstanceAs (Decidable (s.requests.Pairwise _))

instance : DecidablePred QuietNext := fun s =>
  inferInstanceAs (Decidable (s.owner[s.ev.popped.length]? = some none →
    ∀ e ∈ s.ev.posted[s.ev.popped.length]?, ∀ r ∈ s.requests, r.result = none → ¬r.Awaits e))

instance : DecidablePred Admissible := fun s =>
  inferInstanceAs (Decidable (s.ev.Bounded ∧ s.DistinctAddrs ∧ s.QuietNext))

/-! ## The stages of a request -/

/-- The completion event of request number `key` has been popped. -/
def Delivered (s : DispatchSystem) (key : ℕ) : Prop :=
  some key ∈ s.owner.take s.ev.popped.length

/-- Where a request stands between its doorbell and the result of its future. -/
inductive Stage (s : DispatchSystem) (key : ℕ) (r : Request) : Prop where
  /-- The doorbell has been rung, the future is about to be created. -/
  | called (call : Call) (hrunning : s.running = some call) (hkey : call.key = key)
      (hinfos : s.infos key = none) (hresult : r.result = none) (hdelivered : ¬s.Delivered key)
  /-- The waiter is registered. -/
  | waiting (hinfos : s.infos key = some { cond := r.cond, trbs := [] })
      (hmem : key ∈ s.ev.st.evring.waitList) (hresult : r.result = none)
      (hdelivered : ¬s.Delivered key)
  /-- The completion event was popped and is queued to the waiter. -/
  | queued (e : GenericTrbEntry) (hinfos : s.infos key = some { cond := r.cond, trbs := [e] })
      (hcompletion : r.completion = some e) (hresult : r.result = none)
      (hdelivered : s.Delivered key)
  /-- The future has returned the completion event and is gone. -/
  | ready (e : GenericTrbEntry) (hinfos : s.infos key = none)
      (hcompletion : r.completion = some e) (hresult : r.result = some e)
      (hdelivered : s.Delivered key)

/-- The relation between the ring, the waiters, the tasks and the history. -/
structure Consistent (i : Fin 1024) (s : DispatchSystem) : Prop where
  synced : s.ev.Synced i
  owner_length : s.owner.length = s.ev.posted.length
  /-- A completion event is the one posted for its request and is what that request awaits. -/
  owned : ∀ k key : ℕ, s.owner[k]? = some (some key) → ∃ (r : Request) (e : GenericTrbEntry),
    s.requests[key]? = some r ∧ s.ev.posted[k]? = some e ∧ r.completion = some e ∧ r.Awaits e
  /-- A request is completed at most once. -/
  once : ∀ key, s.owner.count (some key) ≤ 1
  stage : ∀ key r, s.requests[key]? = some r → Stage s key r
  /-- Only futures of requests are allocated. -/
  alive : ∀ key, s.infos key ≠ none → key < s.requests.length
  /-- The running task has a request and no future yet. -/
  running : ∀ call, s.running = some call → s.tasks call.task = none ∧
    s.infos call.key = none ∧ ∃ r : Request, s.requests[call.key]? = some r ∧
      r.awaited = call.awaited ∧ r.trbAddr = call.trbAddr ∧ r.result = none
  /-- A future that a task awaits is allocated, and awaited by that task alone. -/
  tasks : ∀ task future, s.tasks task = some future → s.infos future.waitOn ≠ none
  tasks_inj : ∀ task task' future, s.tasks task = some future → s.tasks task' = some future →
    task = task'

/-- Before the first request the tasks and the ring agree. -/
theorem consistent_init (base erstAddr : IoBoxAddr) (irs : Fin 1024 → InterrupterRegisterSet)
    (i : Fin 1024) : Consistent i (init base erstAddr irs i) where
  synced := EventSystem.synced_init base erstAddr irs i
  owner_length := rfl
  owned k key hk := by simp [init] at hk
  once key := by simp [init]
  stage key r hr := by simp [init] at hr
  alive key hkey := by simp [init] at hkey
  running call hcall := by simp [init] at hcall
  tasks task future hfuture := by simp [init] at hfuture
  tasks_inj task task' future hfuture := by simp [init] at hfuture

variable {s s' : DispatchSystem} {i : Fin 1024} {key : ℕ} {r r' : Request}

/-- A step that does not touch what a stage is about keeps the stage. -/
theorem Stage.transport (h : Stage s key r)
    (hrunning : ∀ call, s.running = some call → call.key = key → s'.running = some call)
    (hinfos : s'.infos key = s.infos key)
    (hmem : s.infos key ≠ none → key ∈ s.ev.st.evring.waitList →
      key ∈ s'.ev.st.evring.waitList)
    (hdelivered : s'.Delivered key ↔ s.Delivered key) (hcond : r'.cond = r.cond)
    (hresult : r'.result = r.result)
    (hcompletion : ∀ e, r.completion = some e → r'.completion = some e) : Stage s' key r' := by
  cases h with
  | called call hcall hkey hnone hres hdel =>
    exact .called call (hrunning call hcall hkey) hkey (hinfos.trans hnone)
      (hresult.trans hres) (hdelivered.not.2 hdel)
  | waiting hsome hwait hres hdel =>
    refine .waiting ?_ (hmem (by simp [hsome]) hwait) (hresult.trans hres) (hdelivered.not.2 hdel)
    rw [hinfos, hsome, hcond]
  -- the only stage in which the poll finds something
  | queued e hsome hcompl hres hdel =>
    refine .queued e ?_ (hcompletion e hcompl) (hresult.trans hres) (hdelivered.2 hdel)
    rw [hinfos, hsome, hcond]
  | ready e hnone hcompl hres hdel =>
    exact .ready e (hinfos.trans hnone) (hcompletion e hcompl) (hresult.trans hres)
      (hdelivered.2 hdel)

/-- An allocated waiter is that of an outstanding request. -/
theorem Stage.of_alive (h : Stage s key r) {info : EventWaitInfo}
    (hinfo : s.infos key = some info) : info.cond = r.cond ∧ r.result = none := by
  cases h with
  | called call _ _ hnone => simp [hnone] at hinfo
  | waiting hsome _ hres =>
    obtain rfl : _ = info := Option.some.inj (hsome.symm.trans hinfo)
    exact ⟨rfl, hres⟩
  | queued e hsome _ hres =>
    obtain rfl : _ = info := Option.some.inj (hsome.symm.trans hinfo)
    exact ⟨rfl, hres⟩
  | ready e hnone => simp [hnone] at hinfo

namespace Consistent

/-- What is allocated at a key. -/
theorem request_of_alive (h : Consistent i s) {info : EventWaitInfo}
    (hinfo : s.infos key = some info) :
    ∃ r, s.requests[key]? = some r ∧ info.cond = r.cond ∧ r.result = none := by
  have hlt := h.alive key (by simp [hinfo])
  have hr : s.requests[key]? = some s.requests[key] := List.getElem?_eq_getElem hlt
  exact ⟨_, hr, (h.stage key _ hr).of_alive hinfo⟩

/-- The popped events are no more than the posted ones. -/
theorem popped_le_owner (h : Consistent i s) : s.ev.popped.length ≤ s.owner.length := by
  rw [h.owner_length]
  exact h.synced.popped.length_le

/-- A request that is not completed owns no event. -/
theorem not_mem_owner (h : Consistent i s) (hr : s.requests[key]? = some r)
    (hnone : r.completion = none) : some key ∉ s.owner := by
  intro hmem
  obtain ⟨k, hk, hget⟩ := List.getElem_of_mem hmem
  obtain ⟨r', e, hr', -, hcompl, -⟩ :=
    h.owned k key (by rw [List.getElem?_eq_getElem hk, hget])
  obtain rfl : r = r' := Option.some.inj (hr.symm.trans hr')
  rw [hnone] at hcompl
  cases hcompl

end Consistent

/-! ## The steps of the controller -/

/-- What a list holds stays where it is when the list grows. -/
private theorem getElem?_concat_of_some {α : Type} {l : List α} {a b : α} {k : ℕ}
    (h : l[k]? = some b) : (l ++ [a])[k]? = some b := by
  rw [List.getElem?_append_left (List.getElem?_eq_some_iff.1 h).1, h]

/-- An entry of a list that has grown by one. -/
private theorem getElem?_concat_eq_some {α : Type} {l : List α} {a b : α} {k : ℕ}
    (h : (l ++ [a])[k]? = some b) : l[k]? = some b ∨ k = l.length ∧ a = b := by
  rcases Nat.lt_or_ge k l.length with hlt | hge
  · rw [List.getElem?_append_left hlt] at h
    exact Or.inl h
  · rw [List.getElem?_append_right hge, List.getElem?_singleton] at h
    split at h
    case isTrue hzero => exact Or.inr ⟨by omega, Option.some.inj h⟩
    case isFalse => cases h

/-- A posted event is not popped yet. -/
theorem delivered_append_owner (h : Consistent i s) (key : ℕ) {ev : EventSystem}
    (hpopped : ev.popped = s.ev.popped) (o : Option ℕ) (requests : List Request) :
    Delivered { s with ev, requests, owner := s.owner ++ [o] } key ↔ s.Delivered key := by
  unfold Delivered
  rw [hpopped, List.take_append_of_le_length h.popped_le_owner]

/-- An event for nobody keeps them consistent. -/
theorem consistent_other (h : Consistent i s) (event : GenericTrbEntry) :
    Consistent i (s.other event) where
  synced := EventSystem.synced_post h.synced
  owner_length := by
    show (s.owner ++ [none]).length = (s.ev.posted ++ [_]).length
    simp [h.owner_length]
  owned k key hk := by
    rcases getElem?_concat_eq_some hk with hold | ⟨-, hnew⟩
    · obtain ⟨r, e, hr, he, hrest⟩ := h.owned k key hold
      exact ⟨r, e, hr, getElem?_concat_of_some he, hrest⟩
    · cases hnew
  once key := by
    show (s.owner ++ [none]).count (some key) ≤ 1
    simpa using h.once key
  stage key r hr := by
    refine (h.stage key r hr).transport (fun _ hcall _ => hcall) rfl (fun _ hmem => hmem)
      (delivered_append_owner h key rfl none s.requests) rfl rfl (fun _ hcompl => hcompl)
  alive := h.alive
  running := h.running
  tasks := h.tasks
  tasks_inj := h.tasks_inj

/-- The completion of a request keeps them consistent. -/
theorem consistent_complete (h : Consistent i s) (key : ℕ) (event : GenericTrbEntry) :
    Consistent i (s.complete key event) := by
  unfold complete
  cases hr : s.requests[key]? with
  | none => exact h
  | some r =>
    dsimp only
    split
    case isFalse => exact h
    case isTrue hen =>
      let e := event.setCycleState s.ev.prodCycle
      -- only the request `key` changes, and it has not had an event before
      have hself : (s.requests.modify key fun r => { r with completion := some e })[key]? =
          some { r with completion := some e } := by
        simp [hr]
      have hother : ∀ key', key' ≠ key →
          (s.requests.modify key fun r => { r with completion := some e })[key']? =
            s.requests[key']? := by
        intro key' hne
        simp [Ne.symm hne]
      have hnew := h.not_mem_owner hr hen.1
      refine ⟨EventSystem.synced_post h.synced, ?_, ?_, ?_, ?_, ?_, ?_, h.tasks, h.tasks_inj⟩
      · show (s.owner ++ [some key]).length = (s.ev.posted ++ [e]).length
        simp [h.owner_length]
      · intro k key' hk
        rcases getElem?_concat_eq_some hk with hold | ⟨hlen, heq⟩
        · obtain ⟨r', e', hr', he', hrest⟩ := h.owned k key' hold
          -- an older event of this request would be a second one
          have hne : key' ≠ key := by
            rintro rfl
            exact hnew (List.mem_of_getElem? hold)
          exact ⟨r', e', (hother key' hne).trans hr', getElem?_concat_of_some he', hrest⟩
        · obtain rfl : key = key' := Option.some.inj heq
          refine ⟨_, e, hself, ?_, rfl, hen.2.1, ?_⟩
          · show (s.ev.posted ++ [e])[k]? = some e
            rw [hlen, h.owner_length, List.getElem?_concat_length]
          · exact (GenericTrbEntry.trbType_setCycleState event _).trans hen.2.2
      · intro key'
        show (s.owner ++ [some key]).count (some key') ≤ 1
        rw [List.count_append]
        by_cases heq : key' = key
        · rw [heq, List.count_eq_zero_of_not_mem hnew]
          simp
        · have := h.once key'
          simpa [List.count_singleton, Ne.symm heq] using this
      · intro key' r' hr'
        have hpopped : (s.ev.post event).popped = s.ev.popped := rfl
        have hdelivered := delivered_append_owner h key' hpopped (some key)
          (s.requests.modify key fun r => { r with completion := some e })
        by_cases hne : key' = key
        · subst hne
          obtain rfl : _ = r' := Option.some.inj (hself.symm.trans hr')
          refine (h.stage key' r hr).transport (fun _ hcall _ => hcall) rfl (fun _ hmem => hmem)
            hdelivered rfl rfl ?_
          intro e' he'
          rw [hen.1] at he'
          cases he'
        · exact (h.stage key' r' ((hother key' hne).symm.trans hr')).transport
            (fun _ hcall _ => hcall) rfl (fun _ hmem => hmem) hdelivered rfl rfl
            (fun _ hcompl => hcompl)
      · intro key' hkey'
        show key' < (s.requests.modify key _).length
        rw [List.length_modify]
        exact h.alive key' hkey'
      · intro call hcall
        obtain ⟨htask, hnone, r', hr', hrest⟩ := h.running call hcall
        refine ⟨htask, hnone, ?_⟩
        by_cases hne : call.key = key
        · rw [hne] at hr' ⊢
          obtain rfl : r = r' := Option.some.inj (hr.symm.trans hr')
          exact ⟨_, hself, hrest⟩
        · exact ⟨r', (hother _ hne).trans hr', hrest⟩

/-! ## The steps of the tasks -/

theorem consistent_call (h : Consistent i s) (task : ℕ) (awaited : Awaited)
    (trbAddr : BitVec 64) : Consistent i (s.call task awaited trbAddr) := by
  unfold call
  split
  case isFalse => exact h
  case isTrue hen =>
    let new : Request := { awaited, trbAddr, completion := none, result := none }
    have hfree : s.infos s.requests.length = none := by
      by_contra hne
      exact absurd (h.alive _ hne) (lt_irrefl _)
    refine ⟨h.synced, h.owner_length, ?_, h.once, ?_, ?_, ?_, h.tasks, h.tasks_inj⟩
    · intro k key hk
      obtain ⟨r, e, hr, hrest⟩ := h.owned k key hk
      exact ⟨r, e, getElem?_concat_of_some hr, hrest⟩
    · intro key r hr
      rcases getElem?_concat_eq_some hr with hold | ⟨hlen, heq⟩
      · refine (h.stage key r hold).transport ?_ rfl (fun _ hmem => hmem) Iff.rfl rfl rfl
          (fun _ hcompl => hcompl)
        intro call hcall
        rw [hen.1] at hcall
        cases hcall
      · subst hlen heq
        refine .called _ rfl rfl hfree rfl ?_
        -- no event is owned by a request that did not exist
        intro hmem
        obtain ⟨k, hk, hget⟩ := List.getElem_of_mem (List.mem_of_mem_take hmem)
        obtain ⟨r, -, hr', -⟩ := h.owned k _ (by rw [List.getElem?_eq_getElem hk, hget])
        simp at hr'
    · intro key hkey
      have := h.alive key hkey
      simp only [List.length_append, List.length_singleton]
      omega
    · intro call hcall
      obtain rfl : _ = call := Option.some.inj hcall
      exact ⟨hen.2, hfree, new, List.getElem?_concat_length, rfl, rfl, rfl⟩

/-- Creating the future allocates its waiter and appends it to the wait list. -/
theorem newFuture_eq (awaited : Awaited) (key : ℕ) (trbAddr : BitVec 64) (ws : WaitState) :
    awaited.newFuture key trbAddr ws = .ok { waitOn := key }
      (EventRing.setWaitList (ws.st.evring.waitList ++ [key])
        { ws with infos := Function.update ws.infos key (some
          { cond := { trbType := some awaited.trbType, trbAddr := some trbAddr, slot := none }
            trbs := [] }) }) := by
  cases awaited <;> rfl

/-- No two arguments have the same value after an update with a value that no argument had. -/
theorem update_some_inj {α β : Type} [DecidableEq α] {f : α → Option β}
    (hinj : ∀ a a' b, f a = some b → f a' = some b → a = a') {x : α} {y : β}
    (hfresh : ∀ a, f a ≠ some y) (a a' : α) (b : β)
    (ha : Function.update f x (some y) a = some b)
    (ha' : Function.update f x (some y) a' = some b) : a = a' := by
  by_cases hx : a = x <;> by_cases hx' : a' = x
  · rw [hx, hx']
  · rw [hx, Function.update_self] at ha
    rw [Function.update_of_ne hx', ← ha] at ha'
    exact absurd ha' (hfresh a')
  · rw [hx', Function.update_self] at ha'
    rw [Function.update_of_ne hx, ← ha'] at ha
    exact absurd ha (hfresh a)
  · rw [Function.update_of_ne hx] at ha
    rw [Function.update_of_ne hx'] at ha'
    exact hinj a a' b ha ha'

/-- A future that is created keeps them consistent. -/
theorem consistent_await (h : Consistent i s) : Consistent i s.await := by
  unfold await
  cases hrun : s.running with
  | none => exact h
  | some call =>
    obtain ⟨htask, hfree, r, hr, hawaited, haddr, hres⟩ := h.running call hrun
    -- the future waits for what the call was about
    have hcond : r.cond =
        { trbType := some call.awaited.trbType, trbAddr := some call.trbAddr, slot := none } := by
      rw [Request.cond, hawaited, haddr]
    simp only [newFuture_eq, ← hcond]
    let infos := Function.update s.infos call.key (some { cond := r.cond, trbs := [] })
    have hself : infos call.key = some { cond := r.cond, trbs := [] } := Function.update_self ..
    have hother : ∀ key, key ≠ call.key → infos key = s.infos key :=
      fun key hne => Function.update_of_ne hne _ _
    refine ⟨h.synced.of_waitList _, h.owner_length, h.owned, h.once, ?_, ?_, ?_, ?_, ?_⟩
    · intro key r' hr'
      by_cases hkey : key = call.key
      · subst hkey
        obtain rfl : r = r' := Option.some.inj (hr.symm.trans hr')
        refine .waiting hself ?_ hres ?_
        · exact List.mem_append_right _ List.mem_cons_self
        · cases h.stage call.key r hr with
          | called _ _ _ _ _ hdel => exact hdel
          | waiting hsome => simp [hfree] at hsome
          | queued e hsome => simp [hfree] at hsome
          | ready e _ _ hsome => simp [hres] at hsome
      · refine (h.stage key r' hr').transport ?_ (hother key hkey)
          (fun _ hmem => List.mem_append_left _ hmem) Iff.rfl rfl rfl (fun _ hcompl => hcompl)
        intro call' hcall' hkey'
        obtain rfl : call = call' := Option.some.inj (hrun.symm.trans hcall')
        exact absurd hkey'.symm hkey
    · intro key (hkey : infos key ≠ none)
      by_cases heq : key = call.key
      · rw [heq]
        exact (List.getElem?_eq_some_iff.1 hr).1
      · rw [hother key heq] at hkey
        exact h.alive key hkey
    · intro call' hcall'
      cases hcall'
    · intro task future
      show Function.update s.tasks call.task (some { waitOn := call.key }) task = some future →
        infos future.waitOn ≠ none
      intro hfuture
      by_cases heq : future.waitOn = call.key
      · simp [heq, hself]
      · rw [hother _ heq]
        by_cases ht : task = call.task
        · rw [ht, Function.update_self] at hfuture
          exact absurd (congrArg EventFuture.waitOn (Option.some.inj hfuture)).symm heq
        · rw [Function.update_of_ne ht] at hfuture
          exact h.tasks task future hfuture
    -- no other task can hold the future, because it was not allocated before
    · exact update_some_inj h.tasks_inj fun t ht => h.tasks t _ ht hfree

/-- Polling a future that has an event queued returns it. -/
theorem poll_of_queued {future : EventFuture} (ws : WaitState) {cond : EventWaitCond}
    {e : GenericTrbEntry} {trbs : List GenericTrbEntry}
    (h : ws.infos future.waitOn = some { cond, trbs := e :: trbs }) :
    future.poll ws = .ok (some e)
      { ws with infos := Function.update ws.infos future.waitOn (some { cond, trbs }) } := by
  rw [EventFuture.poll, Method.run_get_bind, h]
  rfl

/-- Polling a future without an event changes nothing. -/
theorem poll_of_waiting {future : EventFuture} (ws : WaitState) {cond : EventWaitCond}
    (h : ws.infos future.waitOn = some { cond, trbs := [] }) :
    future.poll ws = .ok none ws := by
  simp [EventFuture.poll, h]

/-- A poll of a task either finds no event and changes nothing, or takes the event of its
request and drops the future. -/
theorem pollTask_cases (h : Consistent i s) (task : ℕ) :
    s.pollTask task = s ∨ ∃ future r e, s.running = none ∧ s.tasks task = some future ∧
      s.requests[future.waitOn]? = some r ∧
      s.infos future.waitOn = some { cond := r.cond, trbs := [e] } ∧
      r.completion = some e ∧ s.Delivered future.waitOn ∧
      s.pollTask task =
        { s with
          infos := Function.update s.infos future.waitOn none
          requests := s.requests.modify future.waitOn fun r => { r with result := some e }
          tasks := Function.update s.tasks task none } := by
  cases hrun : s.running with
  | some call => left; simp only [pollTask, hrun]
  | none =>
    cases htask : s.tasks task with
    | none => left; simp only [pollTask, hrun, htask]
    | some future =>
      have halive := h.tasks task future htask
      have hr := List.getElem?_eq_getElem (h.alive _ halive)
      -- a task exists while its request waits or has its event queued
      cases h.stage future.waitOn _ hr with
      | called call hcall => simp [hrun] at hcall
      | ready e hnone => exact absurd hnone halive
      | waiting hsome =>
        left
        simp only [pollTask, hrun, htask, poll_of_waiting s.waitState hsome]
        rfl
      | queued e hsome hcompl hres hdel =>
        right
        refine ⟨future, _, e, rfl, rfl, hr, hsome, hcompl, hdel, ?_⟩
        simp only [pollTask, hrun, htask, poll_of_queued s.waitState hsome]
        simp [EventFuture.drop, Method.stateAfter, setWaitState, updateRequest, waitState, hrun]

/-- A task that polls its future keeps them consistent. -/
theorem consistent_pollTask (h : Consistent i s) (task : ℕ) :
    Consistent i (s.pollTask task) := by
  rcases pollTask_cases h task with heq | ⟨future, r, e, hrun, htask, hr, hinfo, hcompl, hdel, heq⟩
  · rw [heq]
    exact h
  rw [heq]
  have hinfos : ∀ key, key ≠ future.waitOn →
      Function.update s.infos future.waitOn none key = s.infos key :=
    fun key hne => Function.update_of_ne hne _ _
  have hself : (s.requests.modify future.waitOn
      fun r => { r with result := some e })[future.waitOn]? = some { r with result := some e } := by
    simp [hr]
  have hother : ∀ key, key ≠ future.waitOn → (s.requests.modify future.waitOn
      fun r => { r with result := some e })[key]? = s.requests[key]? := by
    intro key hne
    simp [Ne.symm hne]
  refine ⟨h.synced, h.owner_length, ?_, h.once, ?_, ?_, ?_, ?_, ?_⟩
  · intro k key hk
    obtain ⟨r', e', hr', hrest⟩ := h.owned k key hk
    by_cases hkey : key = future.waitOn
    · subst hkey
      obtain rfl : r = r' := Option.some.inj (hr.symm.trans hr')
      exact ⟨_, e', hself, hrest⟩
    · exact ⟨r', e', (hother key hkey).trans hr', hrest⟩
  · intro key r' hr'
    by_cases hkey : key = future.waitOn
    · subst hkey
      obtain rfl : _ = r' := Option.some.inj (hself.symm.trans hr')
      exact .ready e (Function.update_self ..) hcompl rfl hdel
    · exact (h.stage key r' ((hother key hkey).symm.trans hr')).transport
        (fun _ hcall _ => hcall) (hinfos key hkey) (fun _ hmem => hmem) Iff.rfl rfl rfl
        (fun _ hcompl => hcompl)
  · intro key (hkey : Function.update s.infos future.waitOn none key ≠ none)
    have hne : key ≠ future.waitOn := by
      rintro rfl
      simp at hkey
    rw [hinfos key hne] at hkey
    simpa using h.alive key hkey
  · intro call (hcall : s.running = some call)
    rw [hrun] at hcall
    cases hcall
  · intro task' future'
    show Function.update s.tasks task none task' = some future' →
      Function.update s.infos future.waitOn none future'.waitOn ≠ none
    intro hfuture'
    have hne : task' ≠ task := by
      rintro rfl
      simp at hfuture'
    rw [Function.update_of_ne hne] at hfuture'
    -- another task holds another future
    have hwait : future'.waitOn ≠ future.waitOn := by
      intro hw
      have hsame : future' = future := by
        cases future
        cases future'
        simp_all
      rw [hsame] at hfuture'
      exact hne (h.tasks_inj task' task future hfuture' htask)
    rw [hinfos _ hwait]
    exact h.tasks task' future' hfuture'
  · intro task' task'' future'
    show Function.update s.tasks task none task' = some future' →
      Function.update s.tasks task none task'' = some future' → task' = task''
    intro hfuture' hfuture''
    have hne : ∀ t, Function.update s.tasks task none t = some future' →
        s.tasks t = some future' := by
      intro t ht
      by_cases hteq : t = task
      · simp [hteq] at ht
      · rwa [Function.update_of_ne hteq] at ht
    exact h.tasks_inj task' task'' future' (hne task' hfuture') (hne task'' hfuture'')

/-! ## The step of the ring -/

/-- Outstanding requests with one address are one request. -/
theorem DistinctAddrs.key_eq (h : s.DistinctAddrs) {key' : ℕ} (hr : s.requests[key]? = some r)
    (hr' : s.requests[key']? = some r') (hres : r.result = none) (hres' : r'.result = none)
    (haddr : r.trbAddr = r'.trbAddr) : key = key' := by
  obtain ⟨hlt, rfl⟩ := List.getElem?_eq_some_iff.1 hr
  obtain ⟨hlt', rfl⟩ := List.getElem?_eq_some_iff.1 hr'
  have hpair := List.pairwise_iff_getElem.1 h
  rcases Nat.lt_trichotomy key key' with hlt'' | heq | hgt
  · exact absurd haddr (hpair key key' hlt hlt' hlt'' hres hres')
  · exact heq
  · exact absurd haddr.symm (hpair key' key hlt' hlt hgt hres' hres)

/-- An allocated waiter matches what its request awaits. -/
theorem matches_iff_awaits {info : EventWaitInfo} (hcond : info.cond = r.cond)
    (e : GenericTrbEntry) : info.matches e = true ↔ r.Awaits e :=
  EventWaitInfo.matches_iff hcond e

/-- The search for a waiter finds that of the request which the event completes, and none for
any other event. -/
theorem dispatch_eq (h : Consistent i s) (hrun : s.running = none) (hdistinct : s.DistinctAddrs)
    (hquiet : s.QuietNext) {e : GenericTrbEntry}
    (he : s.ev.posted[s.ev.popped.length]? = some e) (st : EventState) :
    ∃ infos, EventRing.dispatch e s.ev.st.evring.waitList { st, infos := s.infos } =
        .ok () { st, infos } ∧
      (∀ key, s.owner[s.ev.popped.length]? ≠ some (some key) → infos key = s.infos key) ∧
      ∀ key r, s.owner[s.ev.popped.length]? = some (some key) → s.requests[key]? = some r →
        r.result = none ∧ infos key = some { cond := r.cond, trbs := [e] } := by
  have hlt : s.ev.popped.length < s.owner.length := by
    rw [h.owner_length]
    exact (List.getElem?_eq_some_iff.1 he).1
  have howner := List.getElem?_eq_getElem hlt
  cases hkey : s.owner[s.ev.popped.length] with
  | none =>
    rw [hkey] at howner
    -- the event belongs to no request, so nobody may be waiting for it
    refine ⟨s.infos, EventRing.dispatch_of_none ?_, fun _ _ => rfl, ?_⟩
    · intro w _ info hinfo
      obtain ⟨r, hr, hcond, hres⟩ := h.request_of_alive hinfo
      rw [← Bool.not_eq_true, matches_iff_awaits hcond]
      exact hquiet howner e he r (List.mem_of_getElem? hr) hres
    · intro key r hsome
      rw [howner] at hsome
      cases hsome
  | some key =>
    rw [hkey] at howner
    obtain ⟨r, e', hr, he', hcompl, hawaits⟩ := h.owned _ key howner
    obtain rfl : e = e' := Option.some.inj (he.symm.trans he')
    -- the event was not popped before, so its request has not got it
    have hdel : ¬s.Delivered key := by
      intro hmem
      have hcount := List.count_pos_iff.2 hmem
      have hsub : (s.owner.take (s.ev.popped.length + 1)).count (some key) ≤ 1 :=
        ((List.take_sublist _ _).count_le _).trans (h.once key)
      rw [List.take_add_one, howner, List.count_append] at hsub
      simp at hsub
      omega
    cases h.stage key r hr with
    | called call hcall => simp [hrun] at hcall
    | queued _ _ _ _ hyes => exact absurd hyes hdel
    | ready _ _ _ _ hyes => exact absurd hyes hdel
    -- the waiter is registered, and no other one that is alive waits for this address
    | waiting hinfo hmem hres =>
      refine ⟨Function.update s.infos key (some { cond := r.cond, trbs := [e] }), ?_, ?_, ?_⟩
      · have hmatch : EventWaitInfo.matches { cond := r.cond, trbs := [] } e = true :=
          (matches_iff_awaits rfl e).2 hawaits
        refine EventRing.dispatch_of_first hmem hinfo hmatch ?_
        intro w _ info hw hmatch
        obtain ⟨r', hr', hcond', hres'⟩ := h.request_of_alive hw
        have hawaits' := (matches_iff_awaits hcond' e).1 hmatch
        exact hdistinct.key_eq hr' hr hres' hres (hawaits'.1.symm.trans hawaits.1)
      · intro key' hne
        have hne' : key' ≠ key := by
          rintro rfl
          exact hne howner
        exact Function.update_of_ne hne' _ _
      · intro key' r' hsome hr'
        obtain rfl : key = key' := by
          rw [howner] at hsome
          exact Option.some.inj (Option.some.inj hsome)
        obtain rfl : r = r' := Option.some.inj (hr.symm.trans hr')
        exact ⟨hres, Function.update_self ..⟩

/-- The state after the ring was polled while an event was left to pop. -/
theorem pollRing_some (h : Consistent i s) (hbound : s.ev.Bounded) (hrun : s.running = none)
    (hsome : s.ev.popped.length < s.ev.posted.length) {infos : ℕ → Option EventWaitInfo}
    (hdispatch : EventRing.dispatch s.ev.posted[s.ev.popped.length] s.ev.st.evring.waitList
      { st := s.ev.st.afterPop i, infos := s.infos } =
        .ok () { st := s.ev.st.afterPop i, infos }) :
    s.pollRing =
      { s with
        ev :=
          { s.ev with
            st := (EventRing.setWaitList
              (s.ev.st.evring.waitList.filter fun w => (infos w).isSome)
              { st := s.ev.st.afterPop i, infos }).st
            popped := s.ev.popped ++ [s.ev.posted[s.ev.popped.length]] }
        infos } := by
  have hpop := EventSystem.pop_eq_some h.synced hbound hsome
  have hpoll := EventRing.poll_of_pop_some (s := s.waitState) hpop hdispatch
  rw [pollRing, if_pos hrun, hpoll, EventSystem.step_pop_some h.synced hbound hsome]
  rfl

/-- The polling of the ring keeps them consistent, while the ring is not overrun. -/
theorem consistent_pollRing (h : Consistent i s) (hadm : s.Admissible) :
    Consistent i s.pollRing := by
  obtain ⟨hbound, hdistinct, hquiet⟩ := hadm
  cases hrun : s.running with
  | some call => simpa [pollRing, hrun] using h
  | none =>
    rcases Nat.eq_or_lt_of_le h.synced.popped.length_le with hnone | hsome
    · have hpop := EventSystem.pop_eq_none h.synced hbound hnone
      have hsame : s.pollRing = s := by
        rw [pollRing, if_pos hrun, EventRing.poll_of_pop_none (s := s.waitState) hpop,
          EventSystem.step_pop_none h.synced hbound hnone]
        rfl
      rw [hsame]
      exact h
    · have he := List.getElem?_eq_getElem hsome
      obtain ⟨infos, hdispatch, hold, hnew⟩ :=
        dispatch_eq h hrun hdistinct hquiet he (s.ev.st.afterPop i)
      -- on the side of the ring this is one `pop`
      have hsynced := EventSystem.synced_pop h.synced hbound
      rw [EventSystem.step_pop_some h.synced hbound hsome] at hsynced
      -- one more event is delivered, that of the owner at this place
      have hdelivered : ∀ key, some key ∈ s.owner.take
          (s.ev.popped ++ [s.ev.posted[s.ev.popped.length]]).length ↔
            s.Delivered key ∨ s.owner[s.ev.popped.length]? = some (some key) := by
        intro key
        have hlt : s.ev.popped.length < s.owner.length := h.owner_length ▸ hsome
        rw [List.length_append, List.length_singleton, List.take_add_one, List.mem_append,
          List.getElem?_eq_getElem hlt]
        simp [Delivered, eq_comm]
      rw [pollRing_some h hbound hrun hsome hdispatch]
      refine ⟨hsynced.of_waitList _, h.owner_length, h.owned, h.once, ?_, ?_, ?_, ?_,
        h.tasks_inj⟩
      · intro key r hr
        -- the request whose event was popped has it queued, the others keep their stages
        by_cases hown : s.owner[s.ev.popped.length]? = some (some key)
        · obtain ⟨hres, hinfo⟩ := hnew key r hown hr
          obtain ⟨r', e, hr', he', hcompl, -⟩ := h.owned _ key hown
          obtain rfl : r = r' := Option.some.inj (hr.symm.trans hr')
          obtain rfl : _ = e := Option.some.inj (he.symm.trans he')
          refine .queued _ hinfo hcompl hres ?_
          exact (hdelivered key).2 (Or.inr hown)
        · refine (h.stage key r hr).transport (fun _ hcall _ => hcall) (hold key hown) ?_ ?_ rfl
            rfl (fun _ hcompl => hcompl)
          -- waiters that are alive stay in the wait list
          · intro halive hmem
            refine List.mem_filter.2 ⟨hmem, ?_⟩
            rw [hold key hown]
            exact Option.isSome_iff_ne_none.2 halive
          · refine (hdelivered key).trans ?_
            simp [hown]
      · intro key (hkey : infos key ≠ none)
        by_cases hown : s.owner[s.ev.popped.length]? = some (some key)
        · obtain ⟨r, e, hr, -⟩ := h.owned _ key hown
          exact (List.getElem?_eq_some_iff.1 hr).1
        · rw [hold key hown] at hkey
          exact h.alive key hkey
      · intro call (hcall : s.running = some call)
        rw [hrun] at hcall
        cases hcall
      · intro task future hfuture
        show infos future.waitOn ≠ none
        by_cases hown : s.owner[s.ev.popped.length]? = some (some future.waitOn)
        · obtain ⟨r, e, hr, -⟩ := h.owned _ _ hown
          simp [(hnew _ r hown hr).2]
        · rw [hold _ hown]
          exact h.tasks task future hfuture

/-- Every step keeps the relation. -/
theorem consistent_step (a : DispatchAction) (h : Consistent i s) (hadm : s.Admissible) :
    Consistent i (step a s) := by
  cases a with
  | call task awaited trbAddr => exact consistent_call h task awaited trbAddr
  | await => exact consistent_await h
  | complete key event => exact consistent_complete h key event
  | other event => exact consistent_other h event
  | pollRing => exact consistent_pollRing h hadm
  | pollTask task => exact consistent_pollTask h task

/-- Along every admissible run they stay consistent. -/
theorem consistent_run {acts : List DispatchAction} (hadm : Run.Always step Admissible acts s)
    (h : Consistent i s) : Consistent i (Run.exec step acts s) :=
  hadm.exec_of_step (fun _ a hadm h => consistent_step a h hadm) h

/-! ## What the tasks see -/

/-- Event number `k` was popped, completes request number `key` and is `e`. -/
def PoppedFor (s : DispatchSystem) (key k : ℕ) (e : GenericTrbEntry) : Prop :=
  s.owner[k]? = some (some key) ∧ s.ev.popped[k]? = some e

/-- The popped events are the first of the posted ones. -/
theorem popped_getElem? (h : Consistent i s) {k : ℕ} (hk : k < s.ev.popped.length) :
    s.ev.popped[k]? = s.ev.posted[k]? := by
  conv_lhs => rw [List.prefix_iff_eq_take.1 h.synced.popped]
  rw [List.getElem?_take_of_lt hk]

/-- The event of a delivered request is among the popped ones. -/
theorem poppedFor_of_delivered (h : Consistent i s) (hr : s.requests[key]? = some r)
    (hdel : s.Delivered key) {e : GenericTrbEntry} (hcompl : r.completion = some e) :
    r.Awaits e ∧ ∃ k, s.PoppedFor key k e := by
  obtain ⟨k, hk, hget⟩ := List.getElem_of_mem hdel
  rw [List.length_take] at hk
  have howner : s.owner[k]? = some (some key) := by
    rw [List.getElem_take] at hget
    rw [List.getElem?_eq_getElem (by omega), hget]
  obtain ⟨r', e', hr', hpost, hcompl', hawaits⟩ := h.owned k key howner
  obtain rfl : r = r' := Option.some.inj (hr.symm.trans hr')
  obtain rfl : e = e' := Option.some.inj (hcompl.symm.trans hcompl')
  refine ⟨hawaits, k, howner, ?_⟩
  rw [popped_getElem? h (by omega), hpost]

/-- For any number of tasks, any order of posted events and any cooperative interleaving, in
which the awaited addresses are distinct, at most fifteen events are not popped and no other
event matches an outstanding request when it is popped next: a future that returned an event
returned the popped event that completes its own request, with the address and the type it
waited for; a waiter holds no event but that one; every popped completion event was returned
by the future of its request or is queued to it; and polling the ring never fails. -/
theorem future_receives_own_event (base erstAddr : IoBoxAddr)
    (irs : Fin 1024 → InterrupterRegisterSet) (i : Fin 1024) (acts : List DispatchAction)
    (hadm : Run.Always step Admissible acts (init base erstAddr irs i)) :
    let s := Run.exec step acts (init base erstAddr irs i)
    (∀ key r e, s.requests[key]? = some r → r.result = some e →
      r.Awaits e ∧ ∃ k, s.PoppedFor key k e) ∧
      (∀ key info e, s.infos key = some info → e ∈ info.trbs → ∃ k, s.PoppedFor key k e) ∧
      (∀ key k e, s.PoppedFor key k e → ∃ r, s.requests[key]? = some r ∧
        (r.result = some e ∨
          r.result = none ∧ s.infos key = some { cond := r.cond, trbs := [e] })) ∧
      ∀ e ws, EventRing.poll s.waitState ≠ .error e ws := by
  intro s
  -- the invariant says at which stage each request is; each part is read off the stages
  have h : Consistent i s := consistent_run hadm (consistent_init base erstAddr irs i)
  have hlast : s.Admissible := hadm.last
  refine ⟨?_, ?_, ?_, ?_⟩
  · intro key r e hr hres
    -- only a future that is ready has a result
    cases h.stage key r hr with
    | called _ _ _ _ hnone => simp [hnone] at hres
    | waiting _ _ hnone => simp [hnone] at hres
    | queued _ _ _ hnone => simp [hnone] at hres
    | ready e' _ hcompl hsome hdel =>
      obtain rfl : e' = e := Option.some.inj (hsome.symm.trans hres)
      exact poppedFor_of_delivered h hr hdel hcompl
  · intro key info e hinfo hmem
    have hr := List.getElem?_eq_getElem (h.alive key (by simp [hinfo]))
    -- only a queued request has a waiter with an event
    cases h.stage key _ hr with
    | called _ _ _ hnone => simp [hnone] at hinfo
    | ready _ hnone => simp [hnone] at hinfo
    | waiting hsome =>
      rw [← Option.some.inj (hsome.symm.trans hinfo)] at hmem
      cases hmem
    | queued e' hsome hcompl _ hdel =>
      rw [← Option.some.inj (hsome.symm.trans hinfo)] at hmem
      obtain rfl : e = e' := List.mem_singleton.1 hmem
      exact (poppedFor_of_delivered h hr hdel hcompl).2
  · rintro key k e ⟨howner, hpopped⟩
    have hk : k < s.ev.popped.length := (List.getElem?_eq_some_iff.1 hpopped).1
    rw [popped_getElem? h hk] at hpopped
    obtain ⟨r, e', hr, hpost, hcompl, -⟩ := h.owned k key howner
    obtain rfl : e = e' := Option.some.inj (hpopped.symm.trans hpost)
    -- the popped event was delivered to its request, which then is neither called nor waiting
    have hdel : s.Delivered key := by
      apply List.mem_of_getElem? (i := k)
      rw [List.getElem?_take_of_lt hk, howner]
    refine ⟨r, hr, ?_⟩
    cases h.stage key r hr with
    | called _ _ _ _ _ hno => exact absurd hdel hno
    | waiting _ _ _ hno => exact absurd hdel hno
    | queued e' hsome hcompl' hnone =>
      obtain rfl : e = e' := Option.some.inj (hcompl.symm.trans hcompl')
      exact Or.inr ⟨hnone, hsome⟩
    | ready e' _ hcompl' hsome =>
      obtain rfl : e = e' := Option.some.inj (hcompl.symm.trans hcompl')
      exact Or.inl hsome
  · intro e ws herr
    rcases Nat.eq_or_lt_of_le h.synced.popped.length_le with hnone | hsome
    · -- all posted events are popped, and there is nothing to dispatch
      have hpop := EventSystem.pop_eq_none h.synced hlast.1 hnone
      rw [EventRing.poll_of_pop_none (s := s.waitState) hpop] at herr
      cases herr
    · have hpop := EventSystem.pop_eq_some h.synced hlast.1 hsome
      obtain ⟨infos, hdispatch⟩ := EventRing.dispatch_isOk s.ev.posted[s.ev.popped.length]
        (s.ev.st.afterPop i).evring.waitList { s.waitState with st := s.ev.st.afterPop i }
      rw [EventRing.poll_of_pop_some (s := s.waitState) hpop hdispatch] at herr
      cases herr

/-- A command completion event about the TRB at `0x100`. -/
def completionEvent : GenericTrbEntry :=
  { GenericTrbEntry.default.setTrbType .commandCompletionEvent with data := 0x100 }

/-- A transfer event about the TRB at `0x200`. -/
def transferEvent : GenericTrbEntry :=
  { GenericTrbEntry.default.setTrbType .transferEvent with data := 0x200 }

/-- Two tasks at the same time. For the first one the controller is faster than the task: the event
is posted before the future exists. -/
def fastController : List DispatchAction :=
  [.call 0 .command 0x100, .complete 0 completionEvent, .await, .call 1 .trb 0x200, .await,
    .other .default, .complete 1 transferEvent, .pollTask 0, .pollRing, .pollRing, .pollTask 1,
    .pollRing, .pollTask 0, .pollTask 1]

theorem future_receives_own_event_fast :
    let s := Run.exec step fastController
      (init EventSystem.ringPage EventSystem.erstPage EventSystem.zeroIrs 0)
    (∀ key r e, s.requests[key]? = some r → r.result = some e →
      r.Awaits e ∧ ∃ k, s.PoppedFor key k e) ∧
      (∀ key info e, s.infos key = some info → e ∈ info.trbs → ∃ k, s.PoppedFor key k e) ∧
      (∀ key k e, s.PoppedFor key k e → ∃ r, s.requests[key]? = some r ∧
        (r.result = some e ∨
          r.result = none ∧ s.infos key = some { cond := r.cond, trbs := [e] })) ∧
      ∀ e ws, EventRing.poll s.waitState ≠ .error e ws :=
  future_receives_own_event EventSystem.ringPage EventSystem.erstPage EventSystem.zeroIrs 0
    fastController (by decide)

end DispatchSystem

end Mushix
