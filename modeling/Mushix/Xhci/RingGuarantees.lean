import Mushix.Xhci.RingProtocol

/-!
# What the command ring guarantees

The properties of `CommandRing::push` against a controller that runs at any speed:

* `RingSystem.consumer_receives_pushed`: with at most fourteen TRBs unconsumed the consumer
  receives what was pushed, in order and from the addresses `push` returned;
* `RingSystem.reportsFull_iff`: `push` reads a bit that only the program writes, so it never
  reports a full ring and overwrites a TRB as soon as the ring is full;
* `CommandRing.hidden_iff`: the zeroed slot carries the controller's cycle bit on every other
  lap.
-/

namespace Mushix

open CycleRing (producerBit)

namespace RingAction

/-- The TRBs of the pushes among the actions. -/
def pushes (acts : List RingAction) : List GenericTrbEntry :=
  acts.filterMap fun
    | push src => some src
    | consume => none

end RingAction

namespace RingSystem

variable {s : RingSystem} {acts : List RingAction}

/-- A step changes the ring by at most one accepted push. -/
theorem pushed_step (a : RingAction) (ha : a.Allowed)
    (htracks : s.prod.Tracks (s.pushed.map Prod.fst)) :
    (step a s).prod.Tracks ((step a s).pushed.map Prod.fst) ∧
      (step a s).pushed.map Prod.fst = s.pushed.map Prod.fst ++ RingAction.pushes [a] := by
  cases a with
  | push src =>
    obtain ⟨prod, hpush, htracks', -⟩ := htracks.push ha
    simpa [step, hpush, RingAction.pushes] using htracks'
  | consume =>
    have hsame : (step .consume s).prod = s.prod ∧ (step .consume s).pushed = s.pushed := by
      simp only [step]
      split <;> exact ⟨rfl, rfl⟩
    rw [hsame.1, hsame.2]
    exact ⟨htracks, by simp [RingAction.pushes]⟩

/-- What has been pushed after a run is what the run pushes, behind what was pushed before. -/
theorem pushed_exec (hacts : ∀ a ∈ acts, a.Allowed)
    (htracks : s.prod.Tracks (s.pushed.map Prod.fst)) :
    (Run.exec step acts s).pushed.map Prod.fst =
      s.pushed.map Prod.fst ++ RingAction.pushes acts := by
  induction acts generalizing s with
  | nil => simp [RingAction.pushes]
  | cons a acts ih =>
    obtain ⟨htracks', heq⟩ := pushed_step a (hacts a List.mem_cons_self) htracks
    -- what is pushed by the run is what the first action pushes and then the rest
    have hsplit : RingAction.pushes (a :: acts) =
        RingAction.pushes [a] ++ RingAction.pushes acts := by
      simp only [RingAction.pushes, ← List.filterMap_append, List.singleton_append]
    rw [Run.exec_cons, ih (fun b hb => hacts b (List.mem_cons_of_mem a hb)) htracks', heq,
      hsplit, List.append_assoc]

/-- A step that leaves at most fifteen TRBs unconsumed keeps both parties in step. -/
theorem synced_step {n : ℕ} (hn : n ≤ 15) (a : RingAction) (ha : a.Allowed) (h : Synced s)
    (hbound : (step a s).unconsumed ≤ n) : Synced (step a s) := by
  cases a with
  | push src =>
    obtain ⟨prod, hpush, -, -⟩ := h.tracks.push ha
    have hlen : (step (.push src) s).unconsumed = s.pushed.length + 1 - s.consumed.length := by
      simp [step, hpush, unconsumed]
    exact synced_push h ha (by omega)
  | consume => exact synced_consume h

/-- In step, the ring is full when the producer is a whole lap ahead. -/
theorem full_iff (h : Synced s) : s.Full ↔ s.pushed.length = s.consumed.length + 15 := by
  have hahead := h.ahead
  have hle := h.le
  constructor
  · intro hfull
    -- the slot behind the last push would hold no unconsumed TRB
    by_contra hne
    obtain ⟨k, hlo, hhi, hmod⟩ :=
      (h.pending (s.pushed.length % 15) (Nat.mod_lt _ (by decide))).1
        (hfull _ (Nat.mod_lt _ (by decide)))
    omega
  · intro heq j hj
    rw [h.pending j hj]
    refine ⟨s.consumed.length + (j + 15 - s.consumed.length % 15) % 15, ?_, ?_, ?_⟩ <;> omega

/-- With at most fourteen TRBs unconsumed, the next one reaches the consumer in at most two of
its steps. -/
theorem consumed_within_two (h : Synced s) (hbound : s.unconsumed ≤ 14)
    (hsome : s.consumed.length < s.pushed.length) :
    ∃ n ≤ 2, (Run.exec step (List.replicate n .consume) s).consumed.length =
      s.consumed.length + 1 := by
  have hfree : s.pushed.length < s.consumed.length + 15 := by
    unfold unconsumed at hbound
    omega
  rcases h.position with hdata | hlink
  · refine ⟨1, by decide, ?_⟩
    simp [consume_take h hdata hsome]
  -- one step over the Link TRB, and one that takes the TRB
  · obtain ⟨hsync, hdata⟩ := synced_link h hlink hfree
    have hsame : (step .consume s).consumed = s.consumed ∧
        (step .consume s).pushed = s.pushed := by
      rw [consume_link h hlink hfree]
      exact ⟨rfl, rfl⟩
    refine ⟨2, le_rfl, ?_⟩
    have htake := consume_take hsync hdata (by rw [hsame.1, hsame.2]; exact hsome)
    simp [htake, hsame.1]

/-- For every interleaving of pushes and consumer steps in which at most fourteen TRBs are
unconsumed at any time: every push is accepted; the consumer received the TRBs pushed first,
in order, each once, up to their cycle bit and from the addresses that `push` returned; and
whenever a TRB is unconsumed, the next steps of the consumer take it. -/
theorem consumer_receives_pushed (base : IoBoxAddr) (acts : List RingAction)
    (hacts : ∀ a ∈ acts, a.Allowed)
    (hbound : Run.Always step (fun s => s.unconsumed ≤ 14) acts (init base)) :
    let s := Run.exec step acts (init base)
    s.pushed.map Prod.fst = RingAction.pushes acts ∧
      s.consumed.length ≤ s.pushed.length ∧
      List.Forall₂ Received s.consumed (s.pushed.take s.consumed.length) ∧
      (s.consumed.length < s.pushed.length →
        ∃ n ≤ 2, (Run.exec step (List.replicate n .consume) s).consumed.length =
          s.consumed.length + 1) := by
  intro s
  have hsynced : Synced s :=
    (Run.Always.of_step (fun s a ha h hs => synced_step (by decide) a ha h hs) hacts hbound
      (synced_init base)).last
  refine ⟨?_, hsynced.le, hsynced.received, consumed_within_two hsynced hbound.last⟩
  exact pushed_exec hacts (synced_init base).tracks

/-- A page at address 0. -/
def page0 : IoBoxAddr := { addr := 0, aligned := rfl }

/-- A TRB that differs from others in its data. -/
def numbered (k : ℕ) : GenericTrbEntry :=
  { GenericTrbEntry.default with data := BitVec.ofNat 64 k }

/-- Three TRBs at a time pass through the ring, over its end. -/
def overTheEnd : List RingAction :=
  (List.range 7).flatMap (fun k =>
    [.push (numbered (3 * k)), .push (numbered (3 * k + 1)), .push (numbered (3 * k + 2)),
      .consume, .consume, .consume]) ++ [.push .default]

theorem consumer_receives_pushed_overTheEnd :
    let s := Run.exec step overTheEnd (init page0)
    s.pushed.map Prod.fst = RingAction.pushes overTheEnd ∧
      s.consumed.length ≤ s.pushed.length ∧
      List.Forall₂ Received s.consumed (s.pushed.take s.consumed.length) ∧
      (s.consumed.length < s.pushed.length →
        ∃ n ≤ 2, (Run.exec step (List.replicate n .consume) s).consumed.length =
          s.consumed.length + 1) :=
  consumer_receives_pushed page0 overTheEnd (by decide) (by decide)

/-! ## A full ring -/

/-- In the state `s` a full ring is reported: `push` returns `Err` and changes nothing, and no
TRB was overwritten before it was consumed. -/
def ReportsFull (s : RingSystem) : Prop :=
  (s.Full → ∀ src, CommandRing.NotLink src →
    CommandRing.push src s.prod = .error (.err "Command Ring is Full") s.prod) ∧
    s.overwritten = false

/-- `push` accepts every TRB in every state of every run. -/
theorem push_accepts_always (base : IoBoxAddr) (acts : List RingAction)
    (hacts : ∀ a ∈ acts, a.Allowed) :
    Run.Always step (fun s => ∀ src, CommandRing.NotLink src →
      ∃ addr prod, CommandRing.push src s.prod = .ok addr prod) acts (init base) := by
  have htracks : Run.Always step (fun s => s.prod.Tracks (s.pushed.map Prod.fst)) acts
      (init base) :=
    Run.Always.of_step (fun _ a ha h _ => (pushed_step a ha h).1) hacts
      (Run.always_of_forall (fun _ => trivial) acts _) (synced_init base).tracks
  refine htracks.imp fun s h src hsrc => ?_
  obtain ⟨prod, hpush, -, -⟩ := h.push hsrc
  exact ⟨_, prod, hpush⟩

/-- A run that never fills the ring keeps both parties in step. -/
theorem synced_of_never_full (base : IoBoxAddr) (acts : List RingAction)
    (hacts : ∀ a ∈ acts, a.Allowed)
    (hfull : Run.Always step (fun s => ¬s.Full) acts (init base)) :
    Run.Always step (fun s => Synced s ∧ ¬s.Full) acts (init base) := by
  refine Run.Always.of_step ?_ hacts hfull ⟨synced_init base, hfull.first⟩
  intro s a ha h hnext
  refine ⟨synced_step le_rfl a ha h.1 ?_, hnext⟩
  -- before the step at most fourteen TRBs were unconsumed, and a step adds at most one
  have hahead := h.1.ahead
  have hne := (full_iff h.1).not.1 h.2
  cases a with
  | push src =>
    obtain ⟨prod, hpush, -, -⟩ := h.1.tracks.push ha
    simp only [step, hpush, unconsumed, List.length_append, List.length_singleton]
    omega
  | consume =>
    have := (synced_consume h.1).ahead
    unfold unconsumed
    omega

/-- A full ring is reported in every state of a run exactly when the run never fills the
ring: the test in `push` reads the cycle bit of its own lap, which does not tell whether the
controller has taken the TRB. -/
theorem reportsFull_iff (base : IoBoxAddr) (acts : List RingAction)
    (hacts : ∀ a ∈ acts, a.Allowed) :
    Run.Always step ReportsFull acts (init base) ↔
      Run.Always step (fun s => ¬s.Full) acts (init base) := by
  constructor
  · intro hreports
    -- in a full state `push` would have to refuse what it accepts
    refine (hreports.and (push_accepts_always base acts hacts)).imp fun s h hfull => ?_
    have hnormal : CommandRing.NotLink .default := by decide
    obtain ⟨addr, prod, hok⟩ := h.2 _ hnormal
    have herr := h.1.1 hfull _ hnormal
    rw [hok] at herr
    cases herr
  · intro hfull
    refine (synced_of_never_full base acts hacts hfull).imp fun s h => ⟨?_, h.1.kept⟩
    intro hnow
    exact absurd hnow h.2

theorem reportsFull_iff_overTheEnd :
    Run.Always step ReportsFull overTheEnd (init page0) ↔
      Run.Always step (fun s => ¬s.Full) overTheEnd (init page0) :=
  reportsFull_iff page0 overTheEnd (by decide)

/-- Pushes alone fill the ring slot by slot. -/
theorem synced_pushes {srcs : List GenericTrbEntry} (hsrcs : ∀ t ∈ srcs, CommandRing.NotLink t)
    (h : Synced s) (hfree : s.pushed.length + srcs.length ≤ s.consumed.length + 15) :
    Synced (Run.exec step (srcs.map .push) s) ∧
      (Run.exec step (srcs.map .push) s).pushed.length = s.pushed.length + srcs.length ∧
      (Run.exec step (srcs.map .push) s).consumed = s.consumed := by
  induction srcs generalizing s with
  | nil => exact ⟨h, rfl, rfl⟩
  | cons src srcs ih =>
    have hsrc := hsrcs src List.mem_cons_self
    rw [List.length_cons] at hfree
    obtain ⟨prod, hpush, -, -⟩ := h.tracks.push hsrc
    have hlen : (step (.push src) s).pushed.length = s.pushed.length + 1 ∧
        (step (.push src) s).consumed = s.consumed := by
      simp [step, hpush]
    obtain ⟨hsync, hpushed, hconsumed⟩ := ih (fun t ht => hsrcs t (List.mem_cons_of_mem src ht))
      (synced_push h hsrc (by omega)) (by rw [hlen.1, hlen.2]; omega)
    refine ⟨hsync, ?_, hconsumed.trans hlen.2⟩
    rw [List.map_cons, Run.exec_cons, hpushed, hlen.1, List.length_cons]
    omega

/-- A push to a full ring overwrites a TRB that the controller has not taken. -/
theorem overwritten_of_full (h : Synced s) (hfull : s.Full) {src : GenericTrbEntry}
    (hsrc : CommandRing.NotLink src) : (step (.push src) s).overwritten = true := by
  obtain ⟨prod, hpush, -, -⟩ := h.tracks.push hsrc
  simp [step, hpush, hfull _ h.tracks.index_lt]

/-- Fifteen pushes fill the ring; the sixteenth is accepted and overwrites the first TRB. -/
theorem not_reportsFull_fifteen :
    let s := Run.exec step ((List.replicate 15 .default).map .push) (init page0)
    s.Full ∧ (step (.push .default) s).overwritten = true ∧ ¬ReportsFull s := by
  intro s
  have hnormal : CommandRing.NotLink .default := by decide
  -- nothing is consumed, so the fifteen pushes are all still in the ring
  obtain ⟨hsync, hpushed, hconsumed⟩ := @synced_pushes _ (List.replicate 15 .default)
    (fun t ht => (List.eq_of_mem_replicate ht).symm ▸ hnormal) (synced_init page0) (by decide)
  have hfull : s.Full := by
    rw [full_iff hsync, hpushed, hconsumed]
    rfl
  refine ⟨hfull, overwritten_of_full hsync hfull hnormal, fun hreports => ?_⟩
  obtain ⟨prod, hok, -, -⟩ := hsync.tracks.push hnormal
  have herr := hreports.1 hfull _ hnormal
  rw [hok] at herr
  cases herr

end RingSystem

/-! ## Between the stores of a push -/

namespace CommandRing

/-- The ring after the pushes `srcs`. -/
def pushAll (srcs : List GenericTrbEntry) (c : CommandRing) : CommandRing :=
  srcs.foldl (fun c src => (push src).stateAfter c) c

/-- A ring tracks all TRBs that are pushed, whether the push is accepted as new or not. -/
theorem tracks_pushAll {c : CommandRing} {hist srcs : List GenericTrbEntry} (h : Tracks c hist)
    (hsrcs : ∀ t ∈ srcs, NotLink t) : Tracks (pushAll srcs c) (hist ++ srcs) := by
  induction srcs generalizing c hist with
  | nil => simpa [pushAll] using h
  | cons src srcs ih =>
    obtain ⟨c', hpush, htracks, -⟩ := h.push (hsrcs src List.mem_cons_self)
    have hrest := ih htracks fun t ht => hsrcs t (List.mem_cons_of_mem src ht)
    rw [List.append_assoc, List.singleton_append] at hrest
    simpa only [pushAll, List.foldl_cons, Method.stateAfter_of_ok hpush] using hrest

/-- While `push src` is between its stores, the slot does not carry the cycle state with which
the controller examines it on this lap, the negation of `cycle_state_ours`: neither after the
first store nor after the second. -/
def HiddenDuringPush (c : CommandRing) (src : GenericTrbEntry) : Prop :=
  let afterZero := storeZero.stateAfter c
  let afterSrc := (storeSrc src).stateAfter afterZero
  (afterZero.ring.trb c.ring.currentIndex).cycleState ≠ (!c.cycleStateOurs) ∧
    (afterSrc.ring.trb c.ring.currentIndex).cycleState ≠ (!c.cycleStateOurs)

/-- The second store is always hidden; the first one leaves a clear cycle bit, which is hidden
exactly while the program's own cycle bit is clear. -/
theorem hiddenDuringPush_iff_ours (c : CommandRing) (src : GenericTrbEntry) :
    HiddenDuringPush c src ↔ c.cycleStateOurs = false := by
  have hzero : ((storeZero.stateAfter c).ring.trb c.ring.currentIndex).cycleState = false := by
    rw [Method.stateAfter_of_ok storeZero_eq]
    simp
  have hsrc : (((storeSrc src).stateAfter (storeZero.stateAfter c)).ring.trb
      c.ring.currentIndex).cycleState = c.cycleStateOurs := by
    rw [Method.stateAfter_of_ok storeZero_eq, Method.stateAfter_of_ok storeSrc_eq]
    simp
  simp only [HiddenDuringPush, hzero, hsrc]
  cases c.cycleStateOurs <;> decide

/-- Where the first store is not hidden, a controller that has come to the slot takes the
zeroed TRB as its own. -/
theorem fetch_between_stores (c : CommandRing) (hours : c.cycleStateOurs = true) :
    (RingConsumer.step (storeZero.stateAfter c).ring
      { dequeuePtr := c.ring.currentPtr, cycleState := !c.cycleStateOurs }).1 =
      some .default := by
  have hptr : c.ring.currentPtr =
      (storeZero.stateAfter c).ring.trbPtr c.ring.currentIndex.val := by
    rw [Method.stateAfter_of_ok storeZero_eq]
    rfl
  -- the zeroed slot has cycle bit 0, which is what the controller waits for on this lap
  have hslot : (storeZero.stateAfter c).ring.slot c.ring.currentIndex.val = .default := by
    rw [Method.stateAfter_of_ok storeZero_eq]
    exact (TrbRing.slot_update c.ring.currentIndex.isLt).trans (if_pos rfl)
  simp [RingConsumer.step, hptr, RingSystem.index_trbPtr _ c.ring.currentIndex.isLt, hslot,
    hours, TrbType.toU32]

/-- For every ring reached by pushes and every TRB pushed next: the stores of that push are
hidden from the controller exactly when `cycle_state_ours` is clear, that is on the laps
0, 2, 4, … of the ring. -/
theorem hidden_iff (base : IoBoxAddr) (srcs : List GenericTrbEntry)
    (hsrcs : ∀ t ∈ srcs, NotLink t) (src : GenericTrbEntry) :
    let c := pushAll srcs (default base)
    (HiddenDuringPush c src ↔ c.cycleStateOurs = false) ∧
      (c.cycleStateOurs = false ↔ srcs.length / 15 % 2 = 0) := by
  intro c
  have htracks : Tracks c srcs := tracks_pushAll (tracks_default base) hsrcs
  refine ⟨hiddenDuringPush_iff_ours c src, ?_⟩
  rw [htracks.ours_eq]
  simp [producerBit]

/-- Thirty pushes end with the second lap. -/
theorem hidden_iff_thirty :
    let srcs := (List.range 30).map RingSystem.numbered
    let c := pushAll srcs (default RingSystem.page0)
    (HiddenDuringPush c .default ↔ c.cycleStateOurs = false) ∧
      (c.cycleStateOurs = false ↔ srcs.length / 15 % 2 = 0) :=
  hidden_iff RingSystem.page0 ((List.range 30).map RingSystem.numbered) (by decide) .default

/-- On the second lap a controller that has followed the Link TRB fetches the zeroed slot of
the sixteenth push as a TRB of its own. -/
theorem not_hidden_sixteenth :
    let c := pushAll (List.replicate 15 .default) (default RingSystem.page0)
    ¬HiddenDuringPush c .default ∧
      (RingConsumer.step (storeZero.stateAfter c).ring
        { dequeuePtr := c.ring.currentPtr, cycleState := !c.cycleStateOurs }).1 =
        some .default := by
  intro c
  have hnormal : NotLink .default := by decide
  have htracks : Tracks c (List.replicate 15 .default) :=
    tracks_pushAll (tracks_default RingSystem.page0)
      fun t ht => (List.eq_of_mem_replicate ht).symm ▸ hnormal
  have hours : c.cycleStateOurs = true := htracks.ours_eq
  exact ⟨by simp [hiddenDuringPush_iff_ours, hours], fetch_between_stores c hours⟩

end CommandRing

end Mushix
