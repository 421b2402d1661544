import Mushix.Volatile

/-!
# Transfer request blocks

`GenericTrbEntry` (`xhci.rs`): the 16-byte blocks that make up every ring shared with the
controller, with the accessors of their control word. Bit 0 of the control word is the cycle
bit, bit 1 of a Link TRB the toggle bit, bits 10 to 15 the TRB type and bits 24 to 31 the
slot id.
-/

namespace Mushix

/-- The values of the TRB type field. -/
inductive TrbType where
  | normal
  | setupStage
  | dataStage
  | statusStage
  | link
  | enableSlotCommand
  | addressDeviceCommand
  | configureEndpointCommand
  | evaluateContextCommand
  | noOpCommand
  | transferEvent
  | commandCompletionEvent
  | portStatusChangeEvent
  | hostControllerEvent
  deriving DecidableEq, Repr

/-- The number of a type. -/
def TrbType.toU32 : TrbType → BitVec 32
  | normal => 1
  | setupStage => 2
  | dataStage => 3
  | statusStage => 4
  | link => 6
  | enableSlotCommand => 9
  | addressDeviceCommand => 11
  | configureEndpointCommand => 12
  | evaluateContextCommand => 13
  | noOpCommand => 23
  | transferEvent => 32
  | commandCompletionEvent => 33
  | portStatusChangeEvent => 34
  | hostControllerEvent => 37

/-- A transfer request block. -/
structure GenericTrbEntry where
  /-- The parameter: a buffer or ring address, or the TRB an event is about. -/
  data : BitVec 64
  /-- The status word: lengths and completion codes. -/
  option : BitVec 32
  /-- The control word. -/
  control : BitVec 32
  deriving DecidableEq, Repr

namespace GenericTrbEntry

/-- `GenericTrbEntry::default()`: sixteen zero bytes. -/
def default : GenericTrbEntry := { data := 0, option := 0, control := 0 }

/-- `set_trb_type`; the `unwrap` is safe because every discriminant has six bits. -/
def setTrbType (trb : GenericTrbEntry) (trbType : TrbType) : GenericTrbEntry :=
  { trb with
    control := unwrap (Volatile.writeBits trb.control 10 6 trbType.toU32)
      (by rw [Volatile.writeBits_isOk_iff]; cases trbType <;> decide) }

/-- `set_cycle_state`; the `unwrap` is safe because `cycle.into()` is 0 or 1. -/
def setCycleState (trb : GenericTrbEntry) (cycle : Bool) : GenericTrbEntry :=
  { trb with
    control := unwrap (Volatile.writeBits trb.control 0 1 (cycle.toNat : BitVec 32))
      (by rw [Volatile.writeBits_isOk_iff]; cases cycle <;> decide) }

/-- `set_toggle_cycle` writes bit 1 of the last word, by which a Link TRB inverts the cycle state of
the reader. -/
def setToggleCycle (trb : GenericTrbEntry) (value : Bool) : GenericTrbEntry :=
  { trb with
    control := unwrap (Volatile.writeBits trb.control 1 1 (value.toNat : BitVec 32))
      (by rw [Volatile.writeBits_isOk_iff]; cases value <;> decide) }

/-- `trb_link`: the Link TRB back to the start of the ring at `ringAddr`. -/
def trbLink (ringAddr : BitVec 64) : GenericTrbEntry :=
  let trb := default.setTrbType .link
  let trb := { trb with data := ringAddr }
  trb.setToggleCycle true

/-- The type, bits 10 to 15 of the last word. -/
def trbType (trb : GenericTrbEntry) : BitVec 32 := Volatile.readBits trb.control 10 6

/-- The cycle bit, bit 0 of the last word. -/
def cycleState (trb : GenericTrbEntry) : Bool := Volatile.readBits trb.control 0 1 != 0

/-- `slot_id()`: a field of eight bits, so that `try_into` to `u8` cannot fail. -/
def slotId (trb : GenericTrbEntry) : BitVec 8 :=
  (Volatile.readBits trb.control 24 8).setWidth 8

/-- The toggle bit, which only the controller reads. -/
def toggleCycle (trb : GenericTrbEntry) : Bool := Volatile.readBits trb.control 1 1 != 0

/-- Two blocks that differ at most in their cycle bit. -/
def EqExceptCycle (trb trb' : GenericTrbEntry) : Prop :=
  trb.data = trb'.data ∧ trb.option = trb'.option ∧
    ∀ i, i ≠ 0 → trb.control.getLsbD i = trb'.control.getLsbD i

/-! ## The control word bit by bit -/

/-- The cycle state is bit 0. -/
theorem cycleState_eq (trb : GenericTrbEntry) : trb.cycleState = trb.control.getLsbD 0 :=
  Volatile.readBits_one_ne_zero (by decide)

/-- The toggle bit is bit 1. -/
theorem toggleCycle_eq (trb : GenericTrbEntry) : trb.toggleCycle = trb.control.getLsbD 1 :=
  Volatile.readBits_one_ne_zero (by decide)

/-- `set_cycle_state` replaces bit 0 of the control word. -/
theorem getLsbD_setCycleState (trb : GenericTrbEntry) (cycle : Bool) {i : ℕ} (hi : i < 32) :
    (trb.setCycleState cycle).control.getLsbD i =
      if i = 0 then cycle else trb.control.getLsbD i := by
  rw [setCycleState, Volatile.getLsbD_unwrap_writeBits (by decide) _ hi]
  rcases Nat.eq_zero_or_pos i with rfl | hpos
  · cases cycle <;> rfl
  · have hne : i ≠ 0 := by omega
    simp [hne]

/-- `set_cycle_state` sets what `cycle_state` reads. -/
@[simp]
theorem cycleState_setCycleState (trb : GenericTrbEntry) (cycle : Bool) :
    (trb.setCycleState cycle).cycleState = cycle := by
  rw [cycleState_eq, getLsbD_setCycleState trb cycle (by decide), if_pos rfl]

/-- `set_cycle_state` changes nothing but the cycle bit. -/
theorem setCycleState_eqExceptCycle (trb : GenericTrbEntry) (cycle : Bool) :
    EqExceptCycle (trb.setCycleState cycle) trb := by
  refine ⟨rfl, rfl, fun i hi => ?_⟩
  rcases Nat.lt_or_ge i 32 with hlt | hge
  · rw [getLsbD_setCycleState trb cycle hlt, if_neg hi]
  · rw [BitVec.getLsbD_of_ge _ _ hge, BitVec.getLsbD_of_ge _ _ hge]

namespace EqExceptCycle

variable {s t u : GenericTrbEntry}

theorem symm (h : EqExceptCycle s t) : EqExceptCycle t s :=
  ⟨h.1.symm, h.2.1.symm, fun i hi => (h.2.2 i hi).symm⟩

theorem trans (h : EqExceptCycle s t) (h' : EqExceptCycle t u) : EqExceptCycle s u :=
  ⟨h.1.trans h'.1, h.2.1.trans h'.2.1, fun i hi => (h.2.2 i hi).trans (h'.2.2 i hi)⟩

/-- The TRB type does not involve the cycle bit. -/
theorem trbType_eq (h : EqExceptCycle s t) : s.trbType = t.trbType := by
  refine BitVec.eq_of_getLsbD_eq fun i _ => ?_
  rw [trbType, trbType, Volatile.getLsbD_readBits (by decide),
    Volatile.getLsbD_readBits (by decide), h.2.2 _ (by omega)]

/-- The toggle bit is not the cycle bit. -/
theorem toggleCycle_eq (h : EqExceptCycle s t) : s.toggleCycle = t.toggleCycle := by
  rw [GenericTrbEntry.toggleCycle_eq, GenericTrbEntry.toggleCycle_eq, h.2.2 1 (by decide)]

/-- Blocks that agree in the cycle bit too are equal. -/
theorem eq_of_cycleState (h : EqExceptCycle s t) (hc : s.cycleState = t.cycleState) :
    s = t := by
  obtain ⟨dataS, optionS, controlS⟩ := s
  obtain ⟨dataT, optionT, controlT⟩ := t
  obtain ⟨rfl, rfl, hbits⟩ := h
  rw [cycleState_eq, cycleState_eq] at hc
  have hcontrol : controlS = controlT := by
    refine BitVec.eq_of_getLsbD_eq fun i _ => ?_
    by_cases hi : i = 0
    · rw [hi]
      exact hc
    · exact hbits i hi
  rw [hcontrol]

end EqExceptCycle

/-- Only the last cycle bit set counts. -/
@[simp]
theorem setCycleState_setCycleState (trb : GenericTrbEntry) (cycle cycle' : Bool) :
    (trb.setCycleState cycle).setCycleState cycle' = trb.setCycleState cycle' := by
  have h : EqExceptCycle ((trb.setCycleState cycle).setCycleState cycle')
      (trb.setCycleState cycle') :=
    ((setCycleState_eqExceptCycle _ _).trans (setCycleState_eqExceptCycle _ _)).trans
      (setCycleState_eqExceptCycle _ _).symm
  apply h.eq_of_cycleState
  simp

/-- The cycle bit is not a part of the type. -/
@[simp]
theorem trbType_setCycleState (trb : GenericTrbEntry) (cycle : Bool) :
    (trb.setCycleState cycle).trbType = trb.trbType :=
  (setCycleState_eqExceptCycle trb cycle).trbType_eq

/-- Blocks with the same normal form under `set_cycle_state` differ at most in the cycle bit. -/
theorem eqExceptCycle_iff {s t : GenericTrbEntry} :
    EqExceptCycle s t ↔ s.setCycleState false = t.setCycleState false := by
  constructor
  · intro h
    have h' := ((setCycleState_eqExceptCycle s false).trans h).trans
      (setCycleState_eqExceptCycle t false).symm
    exact h'.eq_of_cycleState (by simp)
  · intro h
    have h' := (setCycleState_eqExceptCycle s false).symm
    rw [h] at h'
    exact h'.trans (setCycleState_eqExceptCycle t false)

/-- Setting the cycle bit a block has already changes nothing. -/
theorem setCycleState_self (trb : GenericTrbEntry) :
    trb.setCycleState trb.cycleState = trb :=
  (setCycleState_eqExceptCycle trb trb.cycleState).eq_of_cycleState (by simp)

/-! ## The initial blocks -/

@[simp]
theorem cycleState_default : default.cycleState = false := by decide

@[simp]
theorem trbType_default : default.trbType = 0 := by decide

theorem cycleState_trbLink (ringAddr : BitVec 64) : (trbLink ringAddr).cycleState = false := by
  change (trbLink 0).cycleState = false
  decide

theorem trbType_trbLink (ringAddr : BitVec 64) :
    (trbLink ringAddr).trbType = TrbType.link.toU32 := by
  change (trbLink 0).trbType = _
  decide

/-- A Link TRB inverts the cycle state of its reader. -/
theorem toggleCycle_trbLink (ringAddr : BitVec 64) : (trbLink ringAddr).toggleCycle = true := by
  change (trbLink 0).toggleCycle = true
  decide

end GenericTrbEntry

end Mushix
