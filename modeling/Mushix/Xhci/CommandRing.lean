import Mushix.Lib.CycleRing
import Mushix.Xhci.TrbRing

/-!
# The command ring

`CommandRing` (`xhci.rs`): the producer's side of the command ring and of the transfer
rings. Slots 0 to 14 carry TRBs and slot 15 a Link TRB back to slot 0. `push` writes the
slot in three stores, of which the last hands it to the controller by flipping its cycle
bit, and does the same to the Link TRB when it reaches it.

`Tracks c hist` relates a ring to the TRBs `hist` pushed so far; it holds of
`CommandRing.default` and every `push` of a TRB that is not a Link TRB keeps it
(`Tracks.push`), however far the controller has come.
-/

namespace Mushix

open CycleRing (producerBit Holds)

/-- A ring that the program writes and the controller reads, with the cycle bit of the next TRB. -/
structure CommandRing where
  /-- The TRBs. -/
  ring : TrbRing
  /-- The cycle bit of the slots that belong to the program on this lap. -/
  cycleStateOurs : Bool

namespace CommandRing

/-- Run a method of the ring inside the command ring. -/
def onRing {α : Type} (x : Method TrbRing α) : Method CommandRing α := fun self =>
  match x self.ring with
  | .ok a ring => .ok a { self with ring }
  | .error e ring => .error e { self with ring }

theorem onRing_of_ok {α : Type} {x : Method TrbRing α} {self : CommandRing} {a : α}
    {r : TrbRing} (h : x self.ring = .ok a r) :
    onRing x self = .ok a { self with ring := r } := by
  rw [onRing, h]

/-- The address that the controller is told. -/
def ringPhysAddr (self : CommandRing) : BitVec 64 := self.ring.base.addr

/-- `CommandRing::default()`: zeroed TRBs with a Link TRB in the last slot. -/
def default (base : IoBoxAddr) : CommandRing :=
  { ring := (TrbRing.write (TrbRing.numTrb - 1) (.trbLink base.addr)).stateAfter
      (TrbRing.new base)
    cycleStateOurs := false }

/-- The first store of `push`: the slot is zeroed. -/
def storeZero : Method CommandRing Unit := onRing TrbRing.zeroCurrent

/-- The second store of `push`: the TRB, still with the cycle bit of the program's slots. -/
def storeSrc (src : GenericTrbEntry) : Method CommandRing Unit := do
  let self ← get
  onRing (TrbRing.writeCurrent (src.setCycleState self.cycleStateOurs))

/-- The third store of `push`: the cycle bit is flipped, and the index moves on. -/
def storeCycle : Method CommandRing Unit := do
  let self ← get
  onRing (TrbRing.advanceIndex (!self.cycleStateOurs))

/-- `push` hands a TRB over to the controller and returns its address, unless the ring is full. -/
def push (src : GenericTrbEntry) : Method CommandRing (BitVec 64) := do
  let self ← get
  if self.ring.current.cycleState ≠ self.cycleStateOurs then
    throw (.err "Command Ring is Full")
  -- the address is taken before the stores move the index on
  let dstPtr := self.ring.currentPtr
  let ringBasePhys := self.ring.physAddr
  let ringBaseVirt := self.ring.base.addr
  let dstPhysAddr := ringBasePhys + (dstPtr - ringBaseVirt)
  storeZero
  storeSrc src
  storeCycle
  let self ← get
  -- the lap is over: the Link TRB is handed over too, and the cycle bit of the slots inverts
  if self.ring.current.trbType = TrbType.link.toU32 then
    storeCycle
    modify fun self => { self with cycleStateOurs := !self.cycleStateOurs }
  return dstPhysAddr

/-! ## The stores of a push -/

/-- The ring after the three stores of `push src`. -/
def handOver (self : CommandRing) (src : GenericTrbEntry) : CommandRing :=
  { self with
    ring :=
      { self.ring with
        trb := Function.update self.ring.trb self.ring.currentIndex
          (src.setCycleState (!self.cycleStateOurs))
        currentIndex := TrbRing.nextIndex self.ring.currentIndex } }

/-- The ring after `push` has also handed the Link TRB over and gone back to slot 0. -/
def wrap (self : CommandRing) : CommandRing :=
  { ring :=
      { self.ring with
        trb := Function.update self.ring.trb self.ring.currentIndex
          (self.ring.current.setCycleState (!self.cycleStateOurs))
        currentIndex := TrbRing.nextIndex self.ring.currentIndex }
    cycleStateOurs := !self.cycleStateOurs }

variable {c : CommandRing} {src : GenericTrbEntry} {hist : List GenericTrbEntry}

/-- The ring between the first and the second store of `push`. -/
theorem storeZero_eq :
    storeZero c = .ok ()
      { c with
        ring :=
          { c.ring with
            trb := Function.update c.ring.trb c.ring.currentIndex GenericTrbEntry.default } } :=
  onRing_of_ok TrbRing.zeroCurrent_eq

/-- The TRB is stored with the cycle bit that says that it is not there yet. -/
theorem storeSrc_eq :
    storeSrc src c = .ok ()
      { c with
        ring :=
          { c.ring with
            trb := Function.update c.ring.trb c.ring.currentIndex
              (src.setCycleState c.cycleStateOurs) } } := by
  rw [storeSrc, Method.run_get_bind]
  exact onRing_of_ok TrbRing.writeCurrent_eq

/-- The cycle bit of the current TRB is inverted, and the index moves on. -/
theorem storeCycle_eq (h : c.ring.current.cycleState = c.cycleStateOurs) :
    storeCycle c = .ok ()
      { c with
        ring :=
          { c.ring with
            trb := Function.update c.ring.trb c.ring.currentIndex
              (c.ring.current.setCycleState (!c.cycleStateOurs))
            currentIndex := TrbRing.nextIndex c.ring.currentIndex } } := by
  rw [storeCycle, Method.run_get_bind]
  refine onRing_of_ok (TrbRing.advanceIndex_eq ?_)
  rw [h]
  cases c.cycleStateOurs <;> decide

/-- The three stores leave the TRB in its slot, with the cycle bit flipped. -/
theorem stores_eq :
    (do storeZero; storeSrc src; storeCycle : Method CommandRing Unit) c =
      .ok () (c.handOver src) := by
  rw [Method.bind_of_ok storeZero_eq, Method.bind_of_ok storeSrc_eq]
  -- the slot now holds `src` with the cycle bit of the program's slots
  have hcur : ({ c.ring with
      trb := Function.update (Function.update c.ring.trb c.ring.currentIndex
        GenericTrbEntry.default) c.ring.currentIndex
        (src.setCycleState c.cycleStateOurs) } : TrbRing).current =
      src.setCycleState c.cycleStateOurs := Function.update_self ..
  rw [storeCycle_eq (by rw [hcur, GenericTrbEntry.cycleState_setCycleState]), hcur]
  simp [handOver]

/-- `push` on a slot that is not handed over, when a Link TRB behind it is not either. -/
theorem push_eq (hcur : c.ring.current.cycleState = c.cycleStateOurs)
    (hlink : (c.handOver src).ring.current.trbType = TrbType.link.toU32 →
      (c.handOver src).ring.current.cycleState = c.cycleStateOurs) :
    push src c = .ok c.ring.currentPtr
      (if (c.handOver src).ring.current.trbType = TrbType.link.toU32 then
        (c.handOver src).wrap
      else c.handOver src) := by
  have haddr : c.ring.physAddr + (c.ring.currentPtr - c.ring.base.addr) = c.ring.currentPtr := by
    rw [TrbRing.physAddr, add_sub_cancel]
  -- the test is passed, and the three stores can be taken together
  have hassoc : push src c = ((do storeZero; storeSrc src; storeCycle : Method CommandRing Unit)
      >>= fun _ => do
        if (← get).ring.current.trbType = TrbType.link.toU32 then
          storeCycle
          modify fun self => { self with cycleStateOurs := !self.cycleStateOurs }
        return c.ring.currentPtr) c := by
    simp [push, hcur, haddr]
  rw [hassoc, Method.bind_of_ok stores_eq, Method.run_get_bind]
  split
  next htype =>
    rw [Method.bind_of_ok (storeCycle_eq (c := c.handOver src) (hlink htype))]
    rfl
  next htype => rfl

/-! ## The invariant of the producer -/

/-- The ring after the pushes `hist`, of which none was a Link TRB. -/
structure Tracks (c : CommandRing) (hist : List GenericTrbEntry) : Prop where
  /-- The index counts the pushes around the fifteen data slots. -/
  index_eq : c.ring.currentIndex.val = hist.length % 15
  /-- The program's cycle bit is the inverse of the one that hands a slot over. -/
  ours_eq : c.cycleStateOurs = !producerBit 15 hist.length
  /-- The data slots hold the last pushes, with their cycle bits. -/
  data : Holds 15 (fun j => (c.ring.slot j).setCycleState false)
    (fun j => (c.ring.slot j).cycleState) (hist.map (·.setCycleState false))
  /-- No data slot looks like a Link TRB. -/
  notLink : ∀ j < 15, (c.ring.slot j).trbType ≠ TrbType.link.toU32
  /-- The Link TRB is as it was set up, up to its cycle bit. -/
  link : c.ring.slot 15 = (GenericTrbEntry.trbLink c.ring.base.addr).setCycleState c.cycleStateOurs

/-- A TRB that `push` may be given: every constructor of the driver sets another type. -/
def NotLink (src : GenericTrbEntry) : Prop := src.trbType ≠ TrbType.link.toU32

instance : DecidablePred NotLink := fun src =>
  inferInstanceAs (Decidable (src.trbType ≠ TrbType.link.toU32))

/-- A new ring has a Link TRB in its last slot. -/
theorem slot_default (base : IoBoxAddr) {j : ℕ} (hj : j < 16) :
    (default base).ring.slot j = if j = 15 then .trbLink base.addr else .default := by
  change TrbRing.slot { TrbRing.new base with
    trb := Function.update (TrbRing.new base).trb 15 (.trbLink base.addr) } j = _
  rw [TrbRing.slot_update hj, TrbRing.slot_new]
  rfl

/-- A fresh ring tracks the empty history. -/
theorem tracks_default (base : IoBoxAddr) : Tracks (default base) [] where
  index_eq := rfl
  ours_eq := by simp [default]
  data := by
    apply Holds.nil
    intro j hj
    have hne : j ≠ 15 := by omega
    simp [slot_default base (by omega : j < 16), hne]
  notLink j hj := by
    have hne : j ≠ 15 := by omega
    simp [slot_default base (by omega : j < 16), hne, TrbType.toU32]
  link := by
    have hself := GenericTrbEntry.setCycleState_self (.trbLink base.addr)
    rw [GenericTrbEntry.cycleState_trbLink] at hself
    rw [slot_default base (by decide), if_pos rfl]
    exact hself.symm

namespace Tracks

/-- The current slot is one the program may write: its cycle bit is the program's. This is the
test `push` makes, and it never finds the ring full. -/
theorem current_cycleState (h : Tracks c hist) :
    c.ring.current.cycleState = c.cycleStateOurs := by
  have hnext := h.data.bit_next (by decide)
  rw [List.length_map] at hnext
  rw [TrbRing.current_eq_slot, h.index_eq, h.ours_eq]
  exact hnext

/-- The current TRB is never the Link TRB. -/
theorem index_lt (h : Tracks c hist) : c.ring.currentIndex.val < 15 := by
  rw [h.index_eq]
  exact Nat.mod_lt _ (by decide)

/-- The slots after the three stores of a push. -/
theorem slot_handOver (h : Tracks c hist) {j : ℕ} (hj : j < 16) :
    (c.handOver src).ring.slot j =
      if j = hist.length % 15 then src.setCycleState (producerBit 15 hist.length)
      else c.ring.slot j := by
  have hours : (!c.cycleStateOurs) = producerBit 15 hist.length := by
    rw [h.ours_eq, Bool.not_not]
  rw [← h.index_eq, ← hours]
  exact TrbRing.slot_update (r := c.ring) hj

/-- Where the index is after the stores of a push. -/
theorem index_handOver (h : Tracks c hist) :
    (c.handOver src).ring.currentIndex.val = hist.length % 15 + 1 := by
  have hlt := h.index_lt
  have heq := h.index_eq
  change (c.ring.currentIndex.val + 1) % 16 = _
  omega

/-- After the stores of a push the current TRB is the Link TRB exactly at the end of a lap. -/
theorem current_handOver_isLink_iff (h : Tracks c hist) :
    (c.handOver src).ring.current.trbType = TrbType.link.toU32 ↔ hist.length % 15 = 14 := by
  have hlt : hist.length % 15 < 15 := Nat.mod_lt _ (by decide)
  -- the current slot is the one behind the TRB that was stored
  have hne : hist.length % 15 + 1 ≠ hist.length % 15 := by omega
  rw [TrbRing.current_eq_slot, h.index_handOver, h.slot_handOver (by omega), if_neg hne]
  constructor
  · intro htype
    by_contra hend
    exact h.notLink _ (by omega) htype
  · intro hend
    rw [hend, h.link, GenericTrbEntry.trbType_setCycleState, GenericTrbEntry.trbType_trbLink]

/-- The data slots of the ring after a push hold the longer history. -/
theorem holds_push (h : Tracks c hist) {slot : ℕ → GenericTrbEntry}
    (hslot : ∀ j < 15, slot j =
      if j = hist.length % 15 then src.setCycleState (producerBit 15 hist.length)
      else c.ring.slot j) :
    Holds 15 (fun j => (slot j).setCycleState false) (fun j => (slot j).cycleState)
      ((hist ++ [src]).map (·.setCycleState false)) := by
  have hlt : hist.length % 15 < 15 := Nat.mod_lt _ (by decide)
  rw [List.map_append, List.map_singleton]
  -- one slot holds the new TRB with its cycle bit, and the others are as they were
  apply h.data.push (by decide) <;> simp only [List.length_map]
  · rw [hslot _ hlt, if_pos rfl, GenericTrbEntry.setCycleState_setCycleState]
  · rw [hslot _ hlt, if_pos rfl, GenericTrbEntry.cycleState_setCycleState]
  · intro j hj hne
    rw [hslot j hj, if_neg hne]
  · intro j hj hne
    rw [hslot j hj, if_neg hne]

/-- A push inside a lap. -/
theorem handOver (h : Tracks c hist) (hsrc : NotLink src) (hend : hist.length % 15 ≠ 14) :
    Tracks (c.handOver src) (hist ++ [src]) where
  index_eq := by
    have hlt : hist.length % 15 < 15 := Nat.mod_lt _ (by decide)
    rw [h.index_handOver, List.length_append, List.length_singleton]
    omega
  ours_eq := by
    have hlt : hist.length % 15 < 15 := Nat.mod_lt _ (by decide)
    rw [List.length_append, List.length_singleton, CycleRing.producerBit_succ (by decide),
      if_neg (by omega)]
    exact h.ours_eq
  data := h.holds_push fun j hj => h.slot_handOver (by omega)
  notLink j hj := by
    rw [h.slot_handOver (by omega)]
    split
    · rw [GenericTrbEntry.trbType_setCycleState]
      exact hsrc
    · exact h.notLink j hj
  link := by
    have hlt : hist.length % 15 < 15 := Nat.mod_lt _ (by decide)
    rw [h.slot_handOver (by decide), if_neg (by omega)]
    exact h.link

/-- The slots after a push at the end of a lap: the Link TRB is handed over too. -/
theorem slot_wrap (h : Tracks c hist) (hend : hist.length % 15 = 14) {j : ℕ} (hj : j < 16) :
    (c.handOver src).wrap.ring.slot j =
      if j = 15 then (GenericTrbEntry.trbLink c.ring.base.addr).setCycleState (!c.cycleStateOurs)
      else if j = hist.length % 15 then src.setCycleState (producerBit 15 hist.length)
      else c.ring.slot j := by
  have hidx : (c.handOver src).ring.currentIndex.val = 15 := by
    rw [h.index_handOver, hend]
  -- the index is at the Link TRB, which the three stores have not touched
  have hcur : (c.handOver src).ring.current =
      (GenericTrbEntry.trbLink c.ring.base.addr).setCycleState c.cycleStateOurs := by
    rw [TrbRing.current_eq_slot, hidx, h.slot_handOver (by decide), if_neg (by omega), h.link]
  have hwrap : (c.handOver src).wrap.ring.slot j =
      if j = 15 then (c.handOver src).ring.current.setCycleState (!c.cycleStateOurs)
      else (c.handOver src).ring.slot j := by
    rw [← hidx]
    exact TrbRing.slot_update (r := (c.handOver src).ring) hj
  rw [hwrap, hcur, GenericTrbEntry.setCycleState_setCycleState, h.slot_handOver hj]

/-- A push at the end of a lap. -/
theorem wrap (h : Tracks c hist) (hsrc : NotLink src) (hend : hist.length % 15 = 14) :
    Tracks (c.handOver src).wrap (hist ++ [src]) where
  index_eq := by
    have hidx : (c.handOver src).wrap.ring.currentIndex.val =
        ((c.handOver src).ring.currentIndex.val + 1) % 16 := rfl
    rw [hidx, h.index_handOver, List.length_append, List.length_singleton]
    omega
  ours_eq := by
    have hours : (c.handOver src).wrap.cycleStateOurs = !c.cycleStateOurs := rfl
    rw [hours, h.ours_eq, List.length_append, List.length_singleton,
      CycleRing.producerBit_succ (by decide), if_pos (by omega)]
  data := by
    refine h.holds_push fun j hj => ?_
    rw [h.slot_wrap hend (by omega), if_neg (by omega)]
  notLink j hj := by
    rw [h.slot_wrap hend (by omega), if_neg (by omega)]
    split
    · rw [GenericTrbEntry.trbType_setCycleState]
      exact hsrc
    · exact h.notLink j hj
  link := by
    rw [h.slot_wrap hend (by decide), if_pos rfl]
    rfl

/-- `push` accepts every TRB that is not a Link TRB, puts it into the next data slot and
returns that slot's address. -/
theorem push (h : Tracks c hist) (hsrc : NotLink src) :
    ∃ c', CommandRing.push src c = .ok (c.ring.trbPtr (hist.length % 15)) c' ∧
      Tracks c' (hist ++ [src]) ∧ c'.ring.base = c.ring.base := by
  have hptr : c.ring.currentPtr = c.ring.trbPtr (hist.length % 15) := by
    rw [TrbRing.currentPtr, h.index_eq]
  have hlink : (c.handOver src).ring.current.trbType = TrbType.link.toU32 →
      (c.handOver src).ring.current.cycleState = c.cycleStateOurs := by
    intro htype
    have hend := h.current_handOver_isLink_iff.1 htype
    rw [TrbRing.current_eq_slot, h.index_handOver, h.slot_handOver (by omega),
      if_neg (by omega), hend, h.link, GenericTrbEntry.cycleState_setCycleState]
  have heq := push_eq h.current_cycleState hlink
  rw [hptr] at heq
  refine ⟨_, heq, ?_⟩
  -- only the push into the last data slot of a lap goes on to the Link TRB
  by_cases hend : hist.length % 15 = 14
  · rw [if_pos (h.current_handOver_isLink_iff.2 hend)]
    exact ⟨h.wrap hsrc hend, rfl⟩
  · rw [if_neg (mt h.current_handOver_isLink_iff.1 hend)]
    exact ⟨h.handOver hsrc hend, rfl⟩

end Tracks

end CommandRing

end Mushix
