import Mushix.Lib.Run
import Mushix.Xhci.CommandRing

/-!
# The command ring and the controller

The producer `CommandRing` composed with a consumer that follows the rules of the xHCI rings:
it starts where the CRCR register says, takes the TRB at its dequeue pointer only when the
TRB's cycle bit is its cycle state, follows a Link TRB to the address it holds and inverts
its cycle state when the Link TRB's toggle bit is set.

The controller and the program share nothing but the ring memory. `RingSystem` adds ghost
state: what was pushed and consumed, and which slots hold a TRB that is not consumed yet.

* `RingSystem.Synced`: the relation between both parties over any number of laps, which every
  step keeps while at most fifteen TRBs are unconsumed (`RingSystem.synced_step`).
-/

namespace Mushix

open CycleRing (producerBit)

/-- `set_cmd_ring_ctrl`: the value written to CRCR, the ring address with the consumer cycle
state set. -/
def setCmdRingCtrl (ring : CommandRing) : BitVec 64 := ring.ringPhysAddr ||| 1

/-- The controller's side of a ring. -/
structure RingConsumer where
  /-- The address of the TRB it examines next. -/
  dequeuePtr : BitVec 64
  /-- The cycle bit of the TRBs it owns. -/
  cycleState : Bool

namespace RingConsumer

/-- The consumer set up by a write to CRCR. -/
def ofCrcr (crcr : BitVec 64) : RingConsumer :=
  { dequeuePtr := crcr &&& ~~~0x3F#64, cycleState := crcr.getLsbD 0 }

/-- The number of the TRB at an address of the ring. -/
def index (ring : TrbRing) (ptr : BitVec 64) : ℕ := (ptr - ring.base.addr).toNat / 16

/-- One step: the TRB taken, if any, and the consumer afterwards. -/
def step (ring : TrbRing) (self : RingConsumer) : Option GenericTrbEntry × RingConsumer :=
  let trb := ring.slot (index ring self.dequeuePtr)
  -- the producer has not got here yet
  if trb.cycleState ≠ self.cycleState then
    (none, self)
  else if trb.trbType = TrbType.link.toU32 then
    (none,
      { dequeuePtr := trb.data &&& ~~~0xF#64
        cycleState := self.cycleState ^^ trb.toggleCycle })
  else
    (some trb, { self with dequeuePtr := self.dequeuePtr + 16 })

end RingConsumer

/-- The producer, the consumer and the history of the ring. -/
structure RingSystem where
  /-- The program's side. -/
  prod : CommandRing
  /-- The controller's side. -/
  cons : RingConsumer
  /-- The accepted TRBs and the addresses `push` returned for them, in push order. -/
  pushed : List (GenericTrbEntry × BitVec 64)
  /-- The TRBs the consumer took and the addresses it took them from, in order. -/
  consumed : List (GenericTrbEntry × BitVec 64)
  /-- The slots that hold a TRB that was pushed and not consumed. -/
  pending : ℕ → Bool
  /-- A push has replaced a TRB that was not consumed. -/
  overwritten : Bool

/-- A step of either party. -/
inductive RingAction where
  /-- The program calls `push src`. -/
  | push (src : GenericTrbEntry)
  /-- The controller examines the TRB at its dequeue pointer. -/
  | consume

namespace RingAction

/-- The program pushes no Link TRB. -/
def Allowed : RingAction → Prop
  | push src => CommandRing.NotLink src
  | consume => True

instance : DecidablePred Allowed
  | push src => inferInstanceAs (Decidable (CommandRing.NotLink src))
  | consume => inferInstanceAs (Decidable True)

end RingAction

namespace RingSystem

/-- The system when the controller is started on a fresh ring. -/
def init (base : IoBoxAddr) : RingSystem :=
  let ring := CommandRing.default base
  { prod := ring
    cons := RingConsumer.ofCrcr (setCmdRingCtrl ring)
    pushed := []
    consumed := []
    pending := fun _ => false
    overwritten := false }

/-- One step of the system. -/
def step : RingAction → RingSystem → RingSystem
  | .push src, s =>
    match CommandRing.push src s.prod with
    | .ok addr prod =>
      let i := s.prod.ring.currentIndex.val
      { s with
        prod
        pushed := s.pushed ++ [(src, addr)]
        pending := Function.update s.pending i true
        overwritten := s.overwritten || s.pending i }
    | .error _ prod => { s with prod }
  | .consume, s =>
    match s.cons.step s.prod.ring with
    | (some trb, cons) =>
      { s with
        cons
        consumed := s.consumed ++ [(trb, s.cons.dequeuePtr)]
        pending := Function.update s.pending
          (RingConsumer.index s.prod.ring s.cons.dequeuePtr) false }
    | (none, cons) => { s with cons }

/-- The number of TRBs whose `push` returned `Ok` and which the consumer has not taken. -/
def unconsumed (s : RingSystem) : ℕ := s.pushed.length - s.consumed.length

/-- All fifteen data slots hold TRBs that were pushed and not consumed. -/
def Full (s : RingSystem) : Prop := ∀ j < 15, s.pending j = true

instance : DecidablePred Full := fun s =>
  inferInstanceAs (Decidable (∀ j < 15, s.pending j = true))

/-! ## Addresses and slots -/

/-- The index of a TRB is found from its address. -/
theorem index_trbPtr (ring : TrbRing) {j : ℕ} (hj : j < 16) :
    RingConsumer.index ring (ring.trbPtr j) = j := by
  have hsub : ring.trbPtr j - ring.base.addr = 16#64 * BitVec.ofNat 64 j := by
    rw [TrbRing.trbPtr, add_sub_cancel_left]
  have hmul : (16#64 * BitVec.ofNat 64 j).toNat = 16 * j := by
    rw [BitVec.toNat_mul, BitVec.toNat_ofNat, BitVec.toNat_ofNat]
    omega
  rw [RingConsumer.index, hsub, hmul, Nat.mul_div_cancel_left _ (by decide)]

theorem trbPtr_add (ring : TrbRing) {j : ℕ} (hj : j < 15) :
    ring.trbPtr j + 16 = ring.trbPtr (j + 1) := by
  have haligned := ring.base.aligned
  have hlt := ring.base.addr.isLt
  apply BitVec.eq_of_toNat_eq
  rw [BitVec.toNat_add, TrbRing.toNat_trbPtr _ (by omega), TrbRing.toNat_trbPtr _ (by omega)]
  change (ring.base.addr.toNat + 16 * j + 16) % 2 ^ 64 = _
  omega

/-- The first TRB lies at the address of the ring. -/
theorem trbPtr_zero (ring : TrbRing) : ring.trbPtr 0 = ring.base.addr := by
  simp [TrbRing.trbPtr]

/-- Clearing low bits does not change the address of a page. -/
theorem addr_and_not_lowMask (base : IoBoxAddr) {k : ℕ} (hk : k ≤ 12) :
    base.addr &&& ~~~BitField.lowMask 64 k = base.addr := by
  have hdvd : 2 ^ k ∣ base.addr.toNat :=
    (Nat.pow_dvd_pow 2 hk).trans (Nat.dvd_of_mod_eq_zero base.aligned)
  apply BitVec.eq_of_toNat_eq
  rw [BitField.toNat_and_not_lowMask (by omega), Nat.mod_eq_zero_of_dvd hdvd, Nat.sub_zero]

/-- CRCR starts the consumer at slot 0 with cycle state 1. -/
theorem ofCrcr_setCmdRingCtrl (ring : CommandRing) :
    RingConsumer.ofCrcr (setCmdRingCtrl ring) =
      { dequeuePtr := ring.ring.base.addr, cycleState := true } := by
  have hdvd : 2 ^ 6 ∣ ring.ring.base.addr.toNat :=
    (Nat.pow_dvd_pow 2 (by decide : 6 ≤ 12)).trans
      (Nat.dvd_of_mod_eq_zero ring.ring.base.aligned)
  have hptr : (ring.ring.base.addr ||| 1) &&& ~~~BitField.lowMask 64 6 =
      ring.ring.base.addr := by
    apply BitVec.eq_of_toNat_eq
    rw [BitField.toNat_and_not_lowMask (by decide),
      BitField.toNat_or_of_aligned (Nat.mod_eq_zero_of_dvd hdvd) (by decide)]
    change _ + 1 - (_ + 1) % 2 ^ 6 = _
    omega
  have hbit : (ring.ring.base.addr ||| 1).getLsbD 0 = true := by
    rw [BitVec.getLsbD_or]
    simp
  exact congrArg₂ RingConsumer.mk hptr hbit

/-! ## The relation between both parties -/

/-- The consumer examines the data slot of the next TRB it has not taken. -/
def AtData (s : RingSystem) : Prop :=
  s.cons.dequeuePtr = s.prod.ring.trbPtr (s.consumed.length % 15) ∧
    s.cons.cycleState = producerBit 15 s.consumed.length

/-- The consumer has taken the last TRB of a lap and examines the Link TRB. -/
def AtLink (s : RingSystem) : Prop :=
  s.consumed.length % 15 = 0 ∧ s.cons.dequeuePtr = s.prod.ring.trbPtr 15 ∧
    s.cons.cycleState = !producerBit 15 s.consumed.length

/-- What the consumer took is what was pushed: the TRB up to its cycle bit, from the address
that `push` returned. -/
def Received (taken pushed : GenericTrbEntry × BitVec 64) : Prop :=
  taken.1.EqExceptCycle pushed.1 ∧ taken.2 = pushed.2

/-- The relation between the producer, the consumer and the history of the ring. -/
structure Synced (s : RingSystem) : Prop where
  tracks : s.prod.Tracks (s.pushed.map Prod.fst)
  /-- Nothing is consumed that was not pushed. -/
  le : s.consumed.length ≤ s.pushed.length
  /-- The producer is at most one lap ahead. -/
  ahead : s.pushed.length ≤ s.consumed.length + 15
  position : s.AtData ∨ s.AtLink
  /-- What was consumed is what was pushed first. -/
  received : List.Forall₂ Received s.consumed (s.pushed.take s.consumed.length)
  /-- `push` returned the addresses of the data slots in turn. -/
  address : ∀ k (hk : k < s.pushed.length), s.pushed[k].2 = s.prod.ring.trbPtr (k % 15)
  /-- The slots between both parties are those that hold TRBs not consumed. -/
  pending : ∀ j < 15, s.pending j = true ↔
    ∃ k, s.consumed.length ≤ k ∧ k < s.pushed.length ∧ k % 15 = j
  /-- No push has replaced a TRB that was not consumed. -/
  kept : s.overwritten = false

/-- Before the first push the two sides are in step. -/
theorem synced_init (base : IoBoxAddr) : Synced (init base) where
  tracks := CommandRing.tracks_default base
  le := le_rfl
  ahead := Nat.zero_le _
  position := by
    left
    rw [AtData, init, ofCrcr_setCmdRingCtrl]
    exact ⟨(trbPtr_zero _).symm, CycleRing.producerBit_zero.symm⟩
  received := List.Forall₂.nil
  address k hk := by simp [init] at hk
  pending j _ := by simp [init]
  kept := rfl

variable {s : RingSystem} {src : GenericTrbEntry}

/-- A push while a slot is free: it is accepted, and both parties stay in step. -/
theorem synced_push (h : Synced s) (hsrc : CommandRing.NotLink src)
    (hfree : s.pushed.length < s.consumed.length + 15) : Synced (step (.push src) s) := by
  obtain ⟨prod, hpush, htracks, hbase⟩ := h.tracks.push hsrc
  rw [List.length_map] at hpush
  have hidx : s.prod.ring.currentIndex.val = s.pushed.length % 15 := by
    rw [h.tracks.index_eq, List.length_map]
  have hptr : ∀ j, prod.ring.trbPtr j = s.prod.ring.trbPtr j := by
    intro j
    rw [TrbRing.trbPtr, TrbRing.trbPtr, hbase]
  -- the slot written is not pending: its last TRB is at least a lap old
  have hnew : s.pending (s.pushed.length % 15) = false := by
    rw [← Bool.not_eq_true, h.pending _ (Nat.mod_lt _ (by decide))]
    rintro ⟨k, hlo, hhi, hmod⟩
    omega
  have hstep : step (.push src) s =
      { s with
        prod
        pushed := s.pushed ++ [(src, s.prod.ring.trbPtr (s.pushed.length % 15))]
        pending := Function.update s.pending (s.pushed.length % 15) true
        overwritten := s.overwritten || s.pending (s.pushed.length % 15) } := by
    simp only [step, hpush, hidx]
  rw [hstep]
  refine ⟨?_, ?_, ?_, ?_, ?_, ?_, ?_, ?_⟩
  · simpa using htracks
  · have := h.le
    simp only [List.length_append, List.length_singleton]
    omega
  · simp only [List.length_append, List.length_singleton]
    omega
  · simpa only [AtData, AtLink, hptr] using h.position
  · simp only [List.take_append_of_le_length h.le]
    exact h.received
  · intro k hk
    rw [List.length_append, List.length_singleton] at hk
    rw [hptr]
    rcases Nat.lt_or_ge k s.pushed.length with hlt | hge
    · simp only [List.getElem_append_left hlt]
      exact h.address k hlt
    · obtain rfl : k = s.pushed.length := by omega
      simp
  · intro j hj
    simp only [List.length_append, List.length_singleton]
    have hle := h.le
    by_cases hjs : j = s.pushed.length % 15
    · simp only [hjs, Function.update_self, true_iff]
      exact ⟨s.pushed.length, hle, by omega, rfl⟩
    · rw [Function.update_of_ne hjs, h.pending j hj]
      constructor
      · rintro ⟨k, hlo, hhi, hmod⟩
        exact ⟨k, hlo, by omega, hmod⟩
      · rintro ⟨k, hlo, hhi, hmod⟩
        have hne : k ≠ s.pushed.length := by
          rintro rfl
          exact hjs hmod.symm
        exact ⟨k, hlo, by omega, hmod⟩
  · simp only [h.kept, hnew, Bool.or_false]

/-! ## The steps of the consumer -/

/-- At a data slot without an unconsumed TRB the cycle bit tells the consumer to wait. -/
theorem consume_wait (h : Synced s) (hdata : s.AtData)
    (hnone : s.consumed.length = s.pushed.length) : step .consume s = s := by
  have hlt : s.consumed.length % 15 < 15 := Nat.mod_lt _ (by decide)
  have hbit := (h.tracks.data.bit_eq_producerBit_iff (c := s.consumed.length) (by decide)
    (by simpa using hnone.le) (by simp [← hnone])).not.2 (by simp [hnone])
  have hcons : s.cons.step s.prod.ring = (none, s.cons) := by
    rw [← hdata.2] at hbit
    simp [RingConsumer.step, hdata.1, index_trbPtr _ (by omega : s.consumed.length % 15 < 16),
      hbit]
  simp only [step, hcons]

/-- At a data slot with an unconsumed TRB the consumer takes it. -/
theorem consume_take (h : Synced s) (hdata : s.AtData)
    (hsome : s.consumed.length < s.pushed.length) :
    step .consume s =
      { s with
        cons := { s.cons with dequeuePtr := s.cons.dequeuePtr + 16 }
        consumed := s.consumed ++
          [(s.prod.ring.slot (s.consumed.length % 15), s.cons.dequeuePtr)]
        pending := Function.update s.pending (s.consumed.length % 15) false } := by
  have hlt : s.consumed.length % 15 < 15 := Nat.mod_lt _ (by decide)
  have hidx := index_trbPtr s.prod.ring (by omega : s.consumed.length % 15 < 16)
  have hbit := (h.tracks.data.bit_eq_producerBit_iff (c := s.consumed.length) (by decide)
    (by simpa using hsome.le) (by simpa using h.ahead)).2 (by simpa using hsome)
  have hcons : s.cons.step s.prod.ring =
      (some (s.prod.ring.slot (s.consumed.length % 15)),
        { s.cons with dequeuePtr := s.cons.dequeuePtr + 16 }) := by
    rw [← hdata.2] at hbit
    simp [RingConsumer.step, hdata.1, hidx, hbit, h.tracks.notLink _ hlt]
  simp only [step, hcons]
  rw [hdata.1, hidx]

/-- The Link TRB is handed over as long as the producer is not a whole lap ahead; the consumer
follows it to slot 0 and inverts its cycle state. -/
theorem consume_link (h : Synced s) (hlink : s.AtLink)
    (hfree : s.pushed.length < s.consumed.length + 15) :
    step .consume s =
      { s with
        cons :=
          { dequeuePtr := s.prod.ring.base.addr
            cycleState := producerBit 15 s.consumed.length } } := by
  obtain ⟨hmod, hptr, hccs⟩ := hlink
  -- the producer is on the lap that starts with the consumer's next TRB
  have hlap : s.pushed.length / 15 = s.consumed.length / 15 := by
    have := h.le
    omega
  have hslot : s.prod.ring.slot 15 =
      (GenericTrbEntry.trbLink s.prod.ring.base.addr).setCycleState s.cons.cycleState := by
    have hours := h.tracks.ours_eq
    rw [List.length_map, producerBit, hlap, ← producerBit, ← hccs] at hours
    rw [h.tracks.link, hours]
  have htype : (s.prod.ring.slot 15).trbType = TrbType.link.toU32 := by
    rw [hslot, GenericTrbEntry.trbType_setCycleState, GenericTrbEntry.trbType_trbLink]
  have htoggle : (s.prod.ring.slot 15).toggleCycle = true := by
    rw [hslot, (GenericTrbEntry.setCycleState_eqExceptCycle _ _).toggleCycle_eq,
      GenericTrbEntry.toggleCycle_trbLink]
  have hdataAddr : (s.prod.ring.slot 15).data = s.prod.ring.base.addr := by
    rw [hslot]
    rfl
  have haddr : s.prod.ring.base.addr &&& ~~~0xF#64 = s.prod.ring.base.addr := by
    have hmask : 0xF#64 = BitField.lowMask 64 4 := by decide
    rw [hmask, addr_and_not_lowMask _ (by decide : 4 ≤ 12)]
  have hcycle : (s.prod.ring.slot 15).cycleState = s.cons.cycleState := by
    rw [hslot, GenericTrbEntry.cycleState_setCycleState]
  have hcons : s.cons.step s.prod.ring =
      (none, { dequeuePtr := s.prod.ring.base.addr
               cycleState := producerBit 15 s.consumed.length }) := by
    simp only [RingConsumer.step, hptr, index_trbPtr _ (by decide : 15 < 16), hcycle, htype,
      htoggle, hdataAddr, haddr, ne_eq, not_true_eq_false, if_false, if_true, hccs,
      Bool.xor_true, Bool.not_not]
  simp only [step, hcons]

/-- When the producer is a whole lap ahead, the Link TRB carries the bit of the lap after:
the consumer waits. -/
theorem consume_stuck (h : Synced s) (hlink : s.AtLink)
    (hfull : s.pushed.length = s.consumed.length + 15) : step .consume s = s := by
  obtain ⟨hmod, hptr, hccs⟩ := hlink
  have hne : (s.prod.ring.slot 15).cycleState ≠ s.cons.cycleState := by
    have hours := h.tracks.ours_eq
    rw [List.length_map, hfull] at hours
    have hlap : producerBit 15 (s.consumed.length + 15) = !producerBit 15 s.consumed.length := by
      rcases Nat.mod_two_eq_zero_or_one (s.consumed.length / 15) with hpar | hpar
      · simp [producerBit, hpar, Nat.add_mod (s.consumed.length / 15) 1 2]
      · simp [producerBit, hpar, Nat.add_mod (s.consumed.length / 15) 1 2]
    rw [h.tracks.link, GenericTrbEntry.cycleState_setCycleState, hours, hlap, hccs]
    cases producerBit 15 s.consumed.length <;> decide
  have hcons : s.cons.step s.prod.ring = (none, s.cons) := by
    simp [RingConsumer.step, hptr, index_trbPtr _ (by decide : 15 < 16), hne]
  simp only [step, hcons]

/-- Taking a TRB keeps both parties in step. -/
theorem synced_take (h : Synced s) (hdata : s.AtData)
    (hsome : s.consumed.length < s.pushed.length) : Synced (step .consume s) := by
  have hlt : s.consumed.length % 15 < 15 := Nat.mod_lt _ (by decide)
  rw [consume_take h hdata hsome]
  refine ⟨h.tracks, ?_, ?_, ?_, ?_, h.address, ?_, h.kept⟩
  · simp only [List.length_append, List.length_singleton]
    omega
  · have := h.ahead
    simp only [List.length_append, List.length_singleton]
    omega
  · simp only [AtData, AtLink, List.length_append, List.length_singleton, hdata.1, hdata.2,
      trbPtr_add _ hlt, CycleRing.producerBit_succ (by decide : 0 < 15)]
    -- the consumer goes on to the next data slot, or to the Link TRB at the end of the lap
    by_cases hend : (s.consumed.length + 1) % 15 = 0
    · right
      rw [if_pos hend, Bool.not_not, show s.consumed.length % 15 + 1 = 15 by omega]
      exact ⟨hend, rfl, rfl⟩
    · left
      rw [if_neg hend, show (s.consumed.length + 1) % 15 = s.consumed.length % 15 + 1 by omega]
      exact ⟨rfl, rfl⟩
  · have htake : s.pushed.take (s.consumed.length + 1) =
        s.pushed.take s.consumed.length ++ [s.pushed[s.consumed.length]] :=
      List.take_succ_eq_append_getElem hsome
    rw [List.length_append, List.length_singleton, htake]
    refine List.rel_append h.received (List.Forall₂.cons ⟨?_, ?_⟩ List.Forall₂.nil)
    · have hslot := h.tracks.data.slot_eq s.consumed.length (by simpa using hsome)
        (by simpa using h.ahead)
      rw [GenericTrbEntry.eqExceptCycle_iff]
      simpa using hslot
    · rw [h.address _ hsome, hdata.1]
  · intro j hj
    simp only [List.length_append, List.length_singleton]
    by_cases hjs : j = s.consumed.length % 15
    · -- the next TRB for this slot would be a whole lap later
      have := h.ahead
      simp only [hjs, Function.update_self, Bool.false_eq_true, false_iff]
      rintro ⟨k, hlo, hhi, hmod⟩
      omega
    · rw [Function.update_of_ne hjs, h.pending j hj]
      constructor
      · rintro ⟨k, hlo, hhi, hmod⟩
        have hne : k ≠ s.consumed.length := by
          rintro rfl
          exact hjs hmod.symm
        exact ⟨k, by omega, hhi, hmod⟩
      · rintro ⟨k, hlo, hhi, hmod⟩
        exact ⟨k, by omega, hhi, hmod⟩

/-- Following the Link TRB keeps both parties in step, and leads to the next data slot. -/
theorem synced_link (h : Synced s) (hlink : s.AtLink)
    (hfree : s.pushed.length < s.consumed.length + 15) :
    Synced (step .consume s) ∧ (step .consume s).AtData := by
  have hdata : (step .consume s).AtData := by
    rw [consume_link h hlink hfree]
    simp only [AtData, hlink.1, trbPtr_zero, and_self]
  refine ⟨?_, hdata⟩
  rw [consume_link h hlink hfree] at hdata ⊢
  exact ⟨h.tracks, h.le, h.ahead, Or.inl hdata, h.received, h.address, h.pending, h.kept⟩

/-- Every step of the consumer keeps both parties in step. -/
theorem synced_consume (h : Synced s) : Synced (step .consume s) := by
  rcases h.position with hdata | hlink
  · rcases h.le.eq_or_lt with hnone | hsome
    · rwa [consume_wait h hdata hnone]
    · exact synced_take h hdata hsome
  · rcases h.ahead.eq_or_lt with hfull | hfree
    · rwa [consume_stuck h hlink hfull]
    · exact (synced_link h hlink hfree).1

end RingSystem

end Mushix
