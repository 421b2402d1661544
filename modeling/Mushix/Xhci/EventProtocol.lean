import Mushix.Lib.BitField
import Mushix.Lib.CycleRing
import Mushix.Lib.Run
import Mushix.Xhci.EventRing

/-!
# The event ring and the controller

`EventRing` composed with a controller that posts events by the rules of the xHCI event ring:
it writes the sixteen slots in order, each event with its producer cycle bit, and inverts that
bit when it wraps. It may change the low four bits of ERDP, which are not part of the address,
at any time.

* `EventSystem`: both parties, with the history of posted and popped events as ghost state;
* `EventSystem.Synced`: the relation between both parties over any number of laps, which every
  step keeps while at most fifteen events are not popped (`EventSystem.synced_step`);
* `EventSystem.pop_delivers_posted`: what `pop` returns in every state of every such run.
-/

namespace Mushix

open CycleRing (producerBit Holds)

/-- The event ring, the controller and the history of the ring. -/
structure EventSystem where
  /-- The program's side and the registers. -/
  st : EventState
  /-- The slot the controller writes next. -/
  prodIndex : Fin 16
  /-- The cycle bit the controller writes. -/
  prodCycle : Bool
  /-- The events written, in order. -/
  posted : List GenericTrbEntry
  /-- The events that `pop` returned, in order. -/
  popped : List GenericTrbEntry

/-- A step of either party. -/
inductive EventAction where
  /-- The controller writes an event. -/
  | post (event : GenericTrbEntry)
  /-- The controller changes the low four bits of an ERDP register. -/
  | setErdpLow (i : Fin 1024) (bits : BitVec 64)
  /-- The program calls `pop`. -/
  | pop

/-- The events that a run asks the controller to post, in order. -/
def EventAction.posts (acts : List EventAction) : List GenericTrbEntry :=
  acts.filterMap fun
    | .post event => some event
    | _ => none

namespace EventSystem

/-- The controller writes an event with its cycle bit and goes on to the next slot. -/
def post (event : GenericTrbEntry) (s : EventSystem) : EventSystem :=
  let event := event.setCycleState s.prodCycle
  let ring := s.st.evring.ring
  let next := TrbRing.nextIndex s.prodIndex
  { s with
    st :=
      { s.st with
        evring :=
          { s.st.evring with
            ring := { ring with trb := Function.update ring.trb s.prodIndex event } } }
    prodIndex := next
    prodCycle := if next = 0 then !s.prodCycle else s.prodCycle
    posted := s.posted ++ [event] }

/-- One step of the system. -/
def step : EventAction → EventSystem → EventSystem
  | .post event, s => s.post event
  | .setErdpLow i bits, s =>
    let erdp := ((s.st.irs i).erdp &&& ~~~0b1111#64) ||| (bits &&& 0b1111#64)
    { s with st :=
        { s.st with irs := Function.update s.st.irs i { s.st.irs i with erdp } } }
  | .pop, s =>
    match EventState.pop s.st with
    | .ok (some event) st => { s with st, popped := s.popped ++ [event] }
    | .ok none st => { s with st }
    | .error _ st => { s with st }

/-- The system after `EventRing::new` and `init_irs(i, ring)`. -/
def init (base erstAddr : IoBoxAddr) (irs : Fin 1024 → InterrupterRegisterSet)
    (i : Fin 1024) : EventSystem :=
  { st := EventState.boot base erstAddr irs i
    prodIndex := 0
    prodCycle := true
    posted := []
    popped := [] }

/-- At most fifteen events are not popped. -/
def Bounded (s : EventSystem) : Prop := s.posted.length ≤ s.popped.length + 15

instance : DecidablePred Bounded := fun s =>
  inferInstanceAs (Decidable (s.posted.length ≤ s.popped.length + 15))

/-! ## The relation between both parties -/

/-- The relation between the ring, the controller and the history, while ERDP is the register
of interrupter `i`. -/
structure Synced (i : Fin 1024) (s : EventSystem) : Prop where
  erdp : s.st.evring.erdp = some i
  /-- The next slot to read, and the cycle bit expected there. -/
  index : s.st.evring.ring.currentIndex.val = s.popped.length % 16
  ours : s.st.evring.cycleStateOurs = producerBit 16 s.popped.length
  /-- The next slot to write, and the cycle bit written there. -/
  prodIndex : s.prodIndex.val = s.posted.length % 16
  prodCycle : s.prodCycle = producerBit 16 s.posted.length
  memory : Holds 16 s.st.evring.ring.slot (fun j => (s.st.evring.ring.slot j).cycleState)
    s.posted
  /-- The events are popped in the order in which they were posted, each once. -/
  popped : s.popped <+: s.posted

variable {s : EventSystem} {i : Fin 1024} {event : GenericTrbEntry}

/-- The ring of `EventRing::new` has no cycle bit set, in the Link TRB neither. -/
theorem cycleState_fresh (base erstAddr : IoBoxAddr) {j : ℕ} (hj : j < 16) :
    ((EventState.fresh base erstAddr).ring.slot j).cycleState = false := by
  have hslot : (EventState.fresh base erstAddr).ring.slot j =
      if j = 15 then GenericTrbEntry.trbLink base.addr else .default :=
    TrbRing.slot_update (r := TrbRing.new base) hj
  rw [hslot]
  split
  · exact GenericTrbEntry.cycleState_trbLink base.addr
  · exact GenericTrbEntry.cycleState_default

/-- Before the first event the two sides are in step. -/
theorem synced_init (base erstAddr : IoBoxAddr) (irs : Fin 1024 → InterrupterRegisterSet)
    (i : Fin 1024) : Synced i (init base erstAddr irs i) := by
  have hevring := EventState.boot_evring base erstAddr irs i
  unfold init
  refine ⟨?_, ?_, ?_, rfl, CycleRing.producerBit_zero.symm, ?_, List.nil_prefix⟩
  · rw [hevring]
  · rw [hevring]
    rfl
  · rw [hevring]
    exact CycleRing.producerBit_zero.symm
  · rw [hevring]
    exact Holds.nil fun j hj => cycleState_fresh base erstAddr hj

/-- The next index is 0 exactly when a lap ends. -/
theorem nextIndex_eq_zero_iff {k : Fin 16} {n : ℕ} (hk : k.val = n % 16) :
    TrbRing.nextIndex k = 0 ↔ (n + 1) % 16 = 0 := by
  rw [← Fin.val_inj]
  show (k.val + 1) % 16 = 0 ↔ _
  omega

/-- The wait list is not part of the protocol. -/
theorem Synced.of_waitList (h : Synced i s) (waitList : List ℕ) :
    Synced i { s with st := { s.st with evring := { s.st.evring with waitList } } } :=
  ⟨h.erdp, h.index, h.ours, h.prodIndex, h.prodCycle, h.memory, h.popped⟩

/-- An event is written to the next slot, and both parties stay in step. -/
theorem synced_post (h : Synced i s) : Synced i (s.post event) where
  erdp := h.erdp
  index := h.index
  ours := h.ours
  prodIndex := by
    have := h.prodIndex
    show (s.prodIndex.val + 1) % 16 = (s.posted ++ [_]).length % 16
    rw [List.length_append, List.length_singleton]
    omega
  prodCycle := by
    show (if TrbRing.nextIndex s.prodIndex = 0 then !s.prodCycle else s.prodCycle) =
      producerBit 16 (s.posted ++ [_]).length
    rw [List.length_append, List.length_singleton, CycleRing.producerBit_succ (by decide),
      h.prodCycle]
    exact if_congr (nextIndex_eq_zero_iff h.prodIndex) rfl rfl
  memory := by
    -- the write changes one slot, which is the next one in the history as well
    have hslot : ∀ j < 16, (s.post event).st.evring.ring.slot j =
        if j = s.posted.length % 16 then event.setCycleState s.prodCycle
        else s.st.evring.ring.slot j := by
      intro j hj
      rw [← h.prodIndex]
      exact TrbRing.slot_update hj
    have hnext : s.posted.length % 16 < 16 := Nat.mod_lt _ (by decide)
    refine h.memory.push (by decide) ?_ ?_ ?_ ?_
    · rw [hslot _ hnext, if_pos rfl]
    · simp only [hslot _ hnext, if_true, GenericTrbEntry.cycleState_setCycleState, h.prodCycle]
    · intro j hj hne
      rw [hslot j hj, if_neg hne]
    · intro j hj hne
      simp only [hslot j hj, if_neg hne]
  popped := h.popped.trans (List.prefix_append _ _)

/-! ## The two outcomes of `pop` -/

/-- The cycle bit of the next slot tells whether an event is left to pop. -/
theorem current_cycleState_iff (h : Synced i s) (hbound : s.Bounded) :
    s.st.evring.ring.current.cycleState = s.st.evring.cycleStateOurs ↔
      s.popped.length < s.posted.length := by
  rw [TrbRing.current_eq_slot, h.index, h.ours]
  refine h.memory.bit_eq_producerBit_iff (by decide) h.popped.length_le ?_
  unfold Bounded at hbound
  omega

/-- Without an event left, `pop` returns `Ok(None)` and changes nothing. -/
theorem pop_eq_none (h : Synced i s) (hbound : s.Bounded)
    (hnone : s.popped.length = s.posted.length) : EventState.pop s.st = .ok none s.st := by
  apply EventState.pop_none
  rw [ne_eq, current_cycleState_iff h hbound]
  omega

/-- With an event left, `pop` returns the one posted first. -/
theorem pop_eq_some (h : Synced i s) (hbound : s.Bounded)
    (hsome : s.popped.length < s.posted.length) :
    EventState.pop s.st = .ok (some s.posted[s.popped.length]) (s.st.afterPop i) := by
  have hslot : s.st.evring.ring.current = s.posted[s.popped.length] := by
    rw [TrbRing.current_eq_slot, h.index]
    refine h.memory.slot_eq _ hsome ?_
    unfold Bounded at hbound
    omega
  rw [EventState.pop_some h.erdp ((current_cycleState_iff h hbound).2 hsome), hslot]

/-- A `pop` without an event changes nothing. -/
theorem step_pop_none (h : Synced i s) (hbound : s.Bounded)
    (hnone : s.popped.length = s.posted.length) : step .pop s = s := by
  rw [step, pop_eq_none h hbound hnone]

theorem step_pop_some (h : Synced i s) (hbound : s.Bounded)
    (hsome : s.popped.length < s.posted.length) :
    step .pop s =
      { s with
        st := s.st.afterPop i
        popped := s.popped ++ [s.posted[s.popped.length]] } := by
  rw [step, pop_eq_some h hbound hsome]

/-- `pop` keeps both parties in step. -/
theorem synced_pop (h : Synced i s) (hbound : s.Bounded) : Synced i (step .pop s) := by
  rcases Nat.eq_or_lt_of_le h.popped.length_le with hnone | hsome
  · rwa [step_pop_none h hbound hnone]
  · have hlen : (s.popped ++ [s.posted[s.popped.length]]).length = s.popped.length + 1 := by simp
    rw [step_pop_some h hbound hsome]
    -- the index moves on by one, and the cycle bit turns where the index wraps
    refine ⟨h.erdp, ?_, ?_, h.prodIndex, h.prodCycle, h.memory, ?_⟩
    · have := h.index
      show (s.st.evring.ring.currentIndex.val + 1) % 16 = _
      rw [hlen]
      omega
    · show (if TrbRing.nextIndex s.st.evring.ring.currentIndex = 0 then
          !s.st.evring.cycleStateOurs else s.st.evring.cycleStateOurs) = _
      rw [hlen, CycleRing.producerBit_succ (by decide), h.ours]
      exact if_congr (nextIndex_eq_zero_iff h.index) rfl rfl
    · rw [List.prefix_iff_eq_take, hlen, List.take_add_one,
        ← List.prefix_iff_eq_take.1 h.popped, List.getElem?_eq_getElem hsome]
      rfl

/-- Every step keeps the two sides in step, while the ring is not overrun. -/
theorem synced_step (a : EventAction) (h : Synced i s) (hbound : s.Bounded) :
    Synced i (step a s) := by
  cases a with
  | post event => exact synced_post h
  | setErdpLow j bits =>
    exact ⟨h.erdp, h.index, h.ours, h.prodIndex, h.prodCycle, h.memory, h.popped⟩
  | pop => exact synced_pop h hbound

/-- Along every run in which the ring is not overrun, the two sides stay in step. -/
theorem synced_run {acts : List EventAction} (hbound : Run.Always step Bounded acts s)
    (h : Synced i s) : Synced i (Run.exec step acts s) :=
  hbound.exec_of_step (fun _ a hbound h => synced_step a h hbound) h

/-! ## What the program sees -/

/-- A step posts what it says, up to the cycle bit. -/
theorem posted_step (a : EventAction) (s : EventSystem) :
    ∃ new, (step a s).posted = s.posted ++ new ∧
      List.Forall₂ GenericTrbEntry.EqExceptCycle new (EventAction.posts [a]) := by
  cases a with
  | post event =>
    refine ⟨[event.setCycleState s.prodCycle], rfl, ?_⟩
    exact List.Forall₂.cons (GenericTrbEntry.setCycleState_eqExceptCycle event _) .nil
  | setErdpLow j bits => exact ⟨[], (List.append_nil _).symm, .nil⟩
  | pop =>
    refine ⟨[], ?_, .nil⟩
    rw [List.append_nil, step]
    split <;> rfl

/-- The history of posted events is what the run asks the controller to post. -/
theorem posted_run (acts : List EventAction) (s : EventSystem) :
    ∃ new, (Run.exec step acts s).posted = s.posted ++ new ∧
      List.Forall₂ GenericTrbEntry.EqExceptCycle new (EventAction.posts acts) := by
  induction acts generalizing s with
  | nil => exact ⟨[], (List.append_nil _).symm, .nil⟩
  | cons a acts ih =>
    obtain ⟨first, hfirst, hevents⟩ := posted_step a s
    obtain ⟨rest, hrest, hevents'⟩ := ih (step a s)
    have hsplit : EventAction.posts (a :: acts) =
        EventAction.posts [a] ++ EventAction.posts acts := by
      simp only [EventAction.posts, ← List.filterMap_append, List.singleton_append]
    refine ⟨first ++ rest, ?_, ?_⟩
    · rw [Run.exec_cons, hrest, hfirst, List.append_assoc]
    · rw [hsplit]
      exact List.rel_append hevents hevents'

/-- The value written to ERDP is the address with the low four bits of the old value. -/
theorem erdp_fields (ring : TrbRing) {j : ℕ} (hj : j < 16) (old : BitVec 64) :
    (ring.trbPtr j ||| (old &&& 0b1111#64)) &&& ~~~0b1111#64 = ring.trbPtr j ∧
      (ring.trbPtr j ||| (old &&& 0b1111#64)) &&& 0b1111#64 = old &&& 0b1111#64 := by
  have hmask : 0b1111#64 = BitField.lowMask 64 4 := by decide
  have haligned : (ring.trbPtr j).toNat % 2 ^ 4 = 0 := by
    have := ring.base.aligned
    rw [TrbRing.toNat_trbPtr _ hj]
    omega
  have hzero : ring.trbPtr j &&& 0b1111#64 = 0 := by
    rw [hmask, BitField.and_lowMask_eq_zero_iff (by decide), haligned]
  exact ⟨BitField.or_and_not_mask hzero, BitField.or_and_mask hzero⟩

/-- For every interleaving of posted events and calls of `pop` in which at most fifteen events
are not popped: the events popped so far are those posted first, in order, each once; `pop`
returns `Ok(None)` exactly when none is left; it returns the event that was posted first among
the rest, and ERDP then holds the address of its slot with the old low four bits; and it never
returns `Err`. -/
theorem pop_delivers_posted (base erstAddr : IoBoxAddr)
    (irs : Fin 1024 → InterrupterRegisterSet) (i : Fin 1024) (acts : List EventAction)
    (hbound : Run.Always step Bounded acts (init base erstAddr irs i)) :
    let s := Run.exec step acts (init base erstAddr irs i)
    List.Forall₂ GenericTrbEntry.EqExceptCycle s.posted (EventAction.posts acts) ∧
      s.popped = s.posted.take s.popped.length ∧
      (EventState.pop s.st = .ok none s.st ↔ s.popped.length = s.posted.length) ∧
      (∀ hsome : s.popped.length < s.posted.length, ∃ st,
        EventState.pop s.st = .ok (some s.posted[s.popped.length]) st ∧
        (st.irs i).erdp &&& ~~~0b1111#64 =
          s.st.evring.ring.trbPtr (s.popped.length % 16) ∧
        (st.irs i).erdp &&& 0b1111#64 = (s.st.irs i).erdp &&& 0b1111#64) ∧
      ∀ e st, EventState.pop s.st ≠ .error e st := by
  intro s
  have hsynced : Synced i s := synced_run hbound (synced_init base erstAddr irs i)
  have hlast : s.Bounded := hbound.last
  have hle := hsynced.popped.length_le
  have hsome : ∀ h : s.popped.length < s.posted.length,
      EventState.pop s.st = .ok (some s.posted[s.popped.length]) (s.st.afterPop i) :=
    fun h => pop_eq_some hsynced hlast h
  refine ⟨?_, List.prefix_iff_eq_take.1 hsynced.popped, ?_, ?_, ?_⟩
  · obtain ⟨new, hnew, hevents⟩ := posted_run acts (init base erstAddr irs i)
    show List.Forall₂ _ (Run.exec step acts (init base erstAddr irs i)).posted _
    rw [hnew]
    exact hevents
  · refine ⟨fun hnone => ?_, pop_eq_none hsynced hlast⟩
    by_contra hne
    rw [hsome (by omega)] at hnone
    cases hnone
  · intro h
    -- ERDP gets the address of the slot that was read, not of the one behind it
    have hptr : s.st.evring.ring.currentPtr =
        s.st.evring.ring.trbPtr (s.popped.length % 16) := by
      rw [TrbRing.currentPtr, hsynced.index]
    have herdp : ((s.st.afterPop i).irs i).erdp =
        s.st.evring.ring.trbPtr (s.popped.length % 16) |||
          ((s.st.irs i).erdp &&& 0b1111#64) := by
      simp only [EventState.afterPop, Function.update_self, hptr]
    refine ⟨_, hsome h, ?_⟩
    rw [herdp]
    exact erdp_fields _ (Nat.mod_lt _ (by decide)) _
  · intro e st herr
    rcases Nat.eq_or_lt_of_le hle with h | h
    · rw [pop_eq_none hsynced hlast h] at herr
      cases herr
    · rw [hsome h] at herr
      cases herr

/-- Interrupter registers after a reset. -/
def zeroIrs : Fin 1024 → InterrupterRegisterSet := fun _ =>
  { management := 0, moderation := 0, erstSize := 0, erstBase := 0, erdp := 0 }

/-- Pages for a ring and its segment table. -/
def ringPage : IoBoxAddr := { addr := 0x1000, aligned := rfl }

def erstPage : IoBoxAddr := { addr := 0x2000, aligned := rfl }

/-- The controller posts one event after the other over the end of the ring, and one of them is
still in it. -/
def overTheEnd (i : Fin 1024) : List EventAction :=
  (List.range 17).flatMap (fun k =>
    [.post { GenericTrbEntry.default with data := BitVec.ofNat 64 k }, .setErdpLow i 8, .pop]) ++
      [.post .default]

theorem pop_delivers_posted_overTheEnd :
    let s := Run.exec step (overTheEnd 0) (init ringPage erstPage zeroIrs 0)
    List.Forall₂ GenericTrbEntry.EqExceptCycle s.posted (EventAction.posts (overTheEnd 0)) ∧
      s.popped = s.posted.take s.popped.length ∧
      (EventState.pop s.st = .ok none s.st ↔ s.popped.length = s.posted.length) ∧
      (∀ hsome : s.popped.length < s.posted.length, ∃ st,
        EventState.pop s.st = .ok (some s.posted[s.popped.length]) st ∧
        (st.irs 0).erdp &&& ~~~0b1111#64 =
          s.st.evring.ring.trbPtr (s.popped.length % 16) ∧
        (st.irs 0).erdp &&& 0b1111#64 = (s.st.irs 0).erdp &&& 0b1111#64) ∧
      ∀ e st, EventState.pop s.st ≠ .error e st :=
  pop_delivers_posted ringPage erstPage zeroIrs 0 (overTheEnd 0) (by decide)

end EventSystem

end Mushix
