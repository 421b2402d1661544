import Mathlib.Data.List.Basic
import Mushix.Xhci.StringDescriptor

/-!
# Whole control transfers

A control transfer is a setup stage, a data stage where the request has data, and a status stage in
the other direction. `ControlStage` is what a control endpoint expects next while it reads the TRBs
of its ring.

* `ControlStage.next`: how the endpoint goes on with a TRB;
* `WholeTransfers`: TRBs that the endpoint reads as one control transfer after the other;
* `wholeTransfers_noData`, `wholeTransfers_descriptor`: the transfers of the driver.
-/

namespace Mushix

/-- The direction of a stage, bit 16 of its control word. -/
def GenericTrbEntry.direction (trb : GenericTrbEntry) : DataDirection :=
  if Volatile.readBits trb.control 16 1 = 1 then .deviceToHost else .hostToDevice

/-- The direction of a request, bit 7 of the first byte of a setup packet. -/
def requestDirection (packet : BitVec 64) : DataDirection :=
  if packet.getLsbD 7 then .deviceToHost else .hostToDevice

/-- The length of the data of a request, the last two bytes of a setup packet. -/
def requestLength (packet : BitVec 64) : BitVec 16 := packet.extractLsb' 48 16

/-- The other direction, in which the status goes. -/
def DataDirection.reverse : DataDirection → DataDirection
  | hostToDevice => deviceToHost
  | deviceToHost => hostToDevice

/-- What a control endpoint expects next. -/
inductive ControlStage where
  /-- A setup packet. -/
  | setup
  /-- The data of a request of this direction and length. Where there is none, the status may come
  at once. -/
  | data (dir : DataDirection) (length : BitVec 16)
  /-- The status, in this direction. -/
  | status (dir : DataDirection)
  deriving DecidableEq, Repr

namespace ControlStage

/-- How the endpoint goes on with the next TRB of its ring, unless it is out of place. -/
def next : ControlStage → GenericTrbEntry → Option ControlStage
  | setup, trb =>
    -- a setup packet has eight bytes, which are in the TRB itself
    if trb.trbType = TrbType.setupStage.toU32 ∧ trb.option = 8 then
      some (data (requestDirection trb.data) (requestLength trb.data))
    else
      none
  | data dir length, trb =>
    if trb.trbType = TrbType.dataStage.toU32 ∧ trb.direction = dir ∧
        trb.option = length.setWidth 32 then
      some (status dir.reverse)
    else if length = 0 ∧ trb.trbType = TrbType.statusStage.toU32 ∧
        trb.direction = .deviceToHost then
      some setup
    else
      none
  | status dir, trb =>
    if trb.trbType = TrbType.statusStage.toU32 ∧ trb.direction = dir then some setup else none

end ControlStage

/-- From the first TRB to the last the endpoint reads whole control transfers. -/
def WholeTransfers (trbs : List GenericTrbEntry) : Prop :=
  trbs.foldlM ControlStage.next .setup = some .setup

instance (trbs : List GenericTrbEntry) : Decidable (WholeTransfers trbs) :=
  inferInstanceAs (Decidable (_ = _))

/-- A ring without TRBs has no transfer that has begun. -/
theorem wholeTransfers_nil : WholeTransfers [] := rfl

/-- The endpoint is ready for a transfer when the one before is over. -/
theorem WholeTransfers.append {trbs trbs' : List GenericTrbEntry} (h : WholeTransfers trbs)
    (h' : WholeTransfers trbs') : WholeTransfers (trbs ++ trbs') := by
  unfold WholeTransfers at h
  rw [WholeTransfers, List.foldlM_append, h]
  exact h'

/-! ## The transfers of the driver -/

section Transfers

variable (requestType request : BitVec 8) (value index length : BitVec 16)

/-- The packet is made of its bytes, the request type first and the length last. -/
theorem toNat_data_new :
    (SetupStageTrb.new requestType request value index length).toGeneric.data.toNat =
      requestType.toNat + 2 ^ 8 * request.toNat + 2 ^ 16 * value.toNat + 2 ^ 32 * index.toNat +
        2 ^ 48 * length.toNat := by
  have hvalue := value.isLt
  have hindex := index.isLt
  have hlength := length.isLt
  have hrequestType := requestType.isLt
  have hrequest := request.isLt
  have hofLE : Bytes.ofLE (SetupStageTrb.setupBytes requestType request value index length) =
      requestType.toNat + 2 ^ 8 * request.toNat + 2 ^ 16 * value.toNat + 2 ^ 32 * index.toNat +
        2 ^ 48 * length.toNat := by
    simp only [SetupStageTrb.setupBytes, bytesOfU16, Bytes.toLE, Bytes.ofLE, List.cons_append,
      List.nil_append, BitVec.toNat_ofNat]
    omega
  show (BitVec.ofNat 64 (Bytes.ofLE (SetupStageTrb.setupBytes requestType request value index
    length))).toNat = _
  rw [hofLE, BitVec.toNat_ofNat]
  omega

/-- The length is read from the setup packet. -/
theorem requestLength_new :
    requestLength (SetupStageTrb.new requestType request value index length).toGeneric.data =
      length := by
  have hlength := length.isLt
  have hindex := index.isLt
  have hvalue := value.isLt
  have hrequestType := requestType.isLt
  have hrequest := request.isLt
  apply BitVec.eq_of_toNat_eq
  rw [requestLength, BitVec.extractLsb'_toNat, toNat_data_new, Nat.shiftRight_eq_div_pow]
  omega

/-- The direction is read from the setup packet. -/
theorem requestDirection_new :
    requestDirection (SetupStageTrb.new requestType request value index length).toGeneric.data =
      if requestType.getLsbD 7 then .deviceToHost else .hostToDevice := by
  have hbit : (SetupStageTrb.new requestType request value index length).toGeneric.data.getLsbD 7 =
      requestType.getLsbD 7 := by
    rw [BitVec.getLsbD, BitVec.getLsbD, toNat_data_new, Nat.testBit_eq_decide_div_mod_eq,
      Nat.testBit_eq_decide_div_mod_eq]
    congr 1
    rw [eq_iff_iff]
    omega
  rw [requestDirection, hbit]

/-- Whatever its transfer type is, a setup stage is one. -/
theorem trbType_setup :
    (SetupStageTrb.new requestType request value index length).toGeneric.trbType =
      TrbType.setupStage.toU32 := by
  have htype : ∀ t, t = SetupStageTrb.trtNoDataStage ∨ t = SetupStageTrb.trtInDataStage ∨
      t = SetupStageTrb.trtOutDataStage →
      Volatile.readBits (t <<< 16 ||| TrbType.setupStage.toU32 <<< 10 |||
        GenericTrbEntry.ctrlBitImmediateData) 10 6 = TrbType.setupStage.toU32 := by
    rintro t (rfl | rfl | rfl) <;> decide
  unfold SetupStageTrb.toGeneric SetupStageTrb.new
  apply htype
  split_ifs <;> simp

/-- The endpoint takes a setup packet and expects the data that it is about. -/
theorem next_setup :
    ControlStage.setup.next
        (SetupStageTrb.new requestType request value index length).toGeneric =
      some (.data (if requestType.getLsbD 7 then .deviceToHost else .hostToDevice) length) := by
  have hfits := trbType_setup requestType request value index length
  rw [ControlStage.next, if_pos ⟨hfits, rfl⟩, requestLength_new, requestDirection_new]

/-- A request without data. -/
theorem wholeTransfers_noData :
    WholeTransfers [(SetupStageTrb.new requestType request value index 0).toGeneric,
      StatusStageTrb.newIn.toGeneric] := by
  have hstatus : ∀ dir, (ControlStage.data dir 0).next StatusStageTrb.newIn.toGeneric =
      some .setup := by
    intro dir
    cases dir <;> decide
  simp only [WholeTransfers, List.foldlM_cons, List.foldlM_nil, next_setup, hstatus,
    Option.bind_eq_bind, Option.bind_some]
  rfl

end Transfers

/-- The request for a descriptor of fewer than 64 KiB. -/
theorem wholeTransfers_descriptor (descType : UsbDescriptorType) (descIndex : BitVec 8)
    (langId : BitVec 16) {buf : PinnedSlice} (hbuf : buf.byteLen < 2 ^ 16) :
    WholeTransfers [(descriptorSetup descType descIndex langId buf).toGeneric,
      (DataStageTrb.newIn buf).toGeneric, StatusStageTrb.newOut.toGeneric] := by
  have hstatus : (ControlStage.status .hostToDevice).next StatusStageTrb.newOut.toGeneric =
      some .setup := by decide
  -- the control word is the same for all buffers
  have htype : Volatile.readBits (TrbType.dataStage.toU32 <<< 10 |||
      GenericTrbEntry.ctrlBitDataDirIn ||| GenericTrbEntry.ctrlBitInterruptOnCompletion |||
      GenericTrbEntry.ctrlBitInterruptOnShortPacket) 10 6 = TrbType.dataStage.toU32 := by decide
  have hdir : Volatile.readBits (TrbType.dataStage.toU32 <<< 10 |||
      GenericTrbEntry.ctrlBitDataDirIn ||| GenericTrbEntry.ctrlBitInterruptOnCompletion |||
      GenericTrbEntry.ctrlBitInterruptOnShortPacket) 16 1 = 1 := by decide
  -- the length is cast to 16 bits in the packet and to 32 bits in the TRB of the data
  have hlength : (DataStageTrb.newIn buf).toGeneric.option =
      (BitVec.ofNat 16 buf.byteLen).setWidth 32 := by
    apply BitVec.eq_of_toNat_eq
    show (BitVec.ofNat 32 buf.byteLen).toNat = _
    rw [BitVec.toNat_setWidth, BitVec.toNat_ofNat, BitVec.toNat_ofNat]
    omega
  have hdata : (ControlStage.data .deviceToHost (BitVec.ofNat 16 buf.byteLen)).next
      (DataStageTrb.newIn buf).toGeneric = some (.status .hostToDevice) :=
    if_pos ⟨htype, if_pos hdir, hlength⟩
  have hsetup : ControlStage.setup.next (descriptorSetup descType descIndex langId buf).toGeneric =
      some (.data .deviceToHost (BitVec.ofNat 16 buf.byteLen)) := by
    rw [descriptorSetup, next_setup]
    rfl
  simp only [WholeTransfers, List.foldlM_cons, List.foldlM_nil, hsetup, hdata, hstatus,
    Option.bind_eq_bind, Option.bind_some]
  rfl

end Mushix
