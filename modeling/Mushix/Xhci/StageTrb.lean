import Mushix.Slice
import Mushix.Xhci.Descriptor
import Mushix.Xhci.Trb

/-!
# The stages of a control transfer

The TRBs that the program builds for the stages of a control transfer, and the TRBs of a bulk
transfer (`xhci.rs`).

* `SetupStageTrb.new`, `DataStageTrb.newIn`, `StatusStageTrb.newOut`, `NormalTrb.newIn`: the
  constructors;
* `NormalTrb.Carries`: what the controller reads from the option word of a Normal TRB;
* `SetupStageTrb.new_iff`: when a setup stage announces the data stage of its request.
-/

namespace Mushix

namespace GenericTrbEntry

/-- There is an event when less data than asked for has arrived. -/
def ctrlBitInterruptOnShortPacket : BitVec 32 := 1 <<< 2

/-- There is an event when the TRB is completed. -/
def ctrlBitInterruptOnCompletion : BitVec 32 := 1 <<< 5

/-- The TRB has data instead of the address of a buffer. -/
def ctrlBitImmediateData : BitVec 32 := 1 <<< 6

/-- The data of the stage goes to the device. -/
def ctrlBitDataDirOut : BitVec 32 := 0 <<< 16

/-- The data of the stage goes to the host. -/
def ctrlBitDataDirIn : BitVec 32 := 1 <<< 16

end GenericTrbEntry

open GenericTrbEntry

/-- `Pin<&mut [T]>`: an address, the number of elements and the size of an element. -/
structure PinnedSlice where
  ptr : BitVec 64
  len : ℕ
  elemSize : ℕ

/-- `buf.len() * size_of::<T>()`, which is below `2 ^ 63` for every slice. -/
def PinnedSlice.byteLen (buf : PinnedSlice) : ℕ := buf.len * buf.elemSize

/-- The TRB of the first stage of a control transfer, which contains the setup packet. -/
structure SetupStageTrb where
  requestType : BitVec 8
  request : BitVec 8
  value : BitVec 16
  index : BitVec 16
  length : BitVec 16
  option : BitVec 32
  control : BitVec 32
  deriving DecidableEq, Repr

namespace SetupStageTrb

/-- The data goes to the host, bit 7 of a request type. -/
def reqTypeDirDeviceToHost : BitVec 8 := 1 <<< 7

/-- The data goes to the device, bit 7 of a request type. -/
def reqTypeDirHostToDevice : BitVec 8 := 0 <<< 7

/-- The request is one of the class of the device. -/
def reqTypeTypeClass : BitVec 8 := 1 <<< 5

/-- The request is for an interface. -/
def reqTypeToInterface : BitVec 8 := 1

/-- The request is for an endpoint. -/
def reqTypeToEndpoint : BitVec 8 := 2

/-- The request CLEAR_FEATURE. -/
def reqClearFeature : BitVec 8 := 1

/-- The request GET_DESCRIPTOR. -/
def reqGetDescriptor : BitVec 8 := 6

/-- The request SET_CONFIGURATION. -/
def reqSetConfiguration : BitVec 8 := 9

/-- The setup stage is not followed by data. -/
def trtNoDataStage : BitVec 32 := 0

/-- The setup stage is followed by data to the device. -/
def trtOutDataStage : BitVec 32 := 2

/-- The setup stage is followed by data to the host. -/
def trtInDataStage : BitVec 32 := 3

/-- `new` chooses the transfer type by the length and the request. -/
def new (requestType request : BitVec 8) (value index length : BitVec 16) : SetupStageTrb :=
  let transferType :=
    if length = 0 then
      trtNoDataStage
    else if request &&& reqTypeDirDeviceToHost ≠ 0 then
      trtInDataStage
    else
      trtOutDataStage
  { requestType, request, value, index, length
    option := 8
    control := transferType <<< 16 ||| TrbType.setupStage.toU32 <<< 10 ||| ctrlBitImmediateData }

/-- The eight bytes of a setup packet. -/
def setupBytes (requestType request : BitVec 8) (value index length : BitVec 16) :
    List (BitVec 8) :=
  [requestType, request] ++ bytesOfU16 value ++ bytesOfU16 index ++ bytesOfU16 length

/-- The same TRB as it is put on a ring, with the setup packet as its data. -/
def toGeneric (trb : SetupStageTrb) : GenericTrbEntry :=
  { data := BitVec.ofNat 64 (Bytes.ofLE
      (setupBytes trb.requestType trb.request trb.value trb.index trb.length))
    option := trb.option
    control := trb.control }

end SetupStageTrb

/-- The TRB of the second stage of a control transfer, with its buffer. -/
structure DataStageTrb where
  buf : BitVec 64
  option : BitVec 32
  control : BitVec 32
  deriving DecidableEq, Repr

namespace DataStageTrb

/-- `new_in` receives into a buffer. -/
def newIn (buf : PinnedSlice) : DataStageTrb :=
  { buf := buf.ptr
    option := BitVec.ofNat 32 buf.byteLen
    control := TrbType.dataStage.toU32 <<< 10 ||| ctrlBitDataDirIn ||| ctrlBitInterruptOnCompletion
      ||| ctrlBitInterruptOnShortPacket }

/-- The same TRB as it is put on a ring. -/
def toGeneric (trb : DataStageTrb) : GenericTrbEntry :=
  { data := trb.buf, option := trb.option, control := trb.control }

end DataStageTrb

/-- The TRB of the last stage of a control transfer. -/
structure StatusStageTrb where
  reserved : BitVec 64
  option : BitVec 32
  control : BitVec 32
  deriving DecidableEq, Repr

namespace StatusStageTrb

/-- `new_out` sends the status, of a request that has received data. -/
def newOut : StatusStageTrb :=
  { reserved := 0, option := 0, control := TrbType.statusStage.toU32 <<< 10 }

/-- `new_in` receives the status, of a request without data. -/
def newIn : StatusStageTrb :=
  { reserved := 0
    option := 0
    control := TrbType.statusStage.toU32 <<< 10 ||| ctrlBitDataDirIn |||
      ctrlBitInterruptOnCompletion ||| ctrlBitInterruptOnShortPacket }

/-- The same TRB as it is put on a ring. -/
def toGeneric (trb : StatusStageTrb) : GenericTrbEntry :=
  { data := trb.reserved, option := trb.option, control := trb.control }

end StatusStageTrb

/-- The TRB of a bulk transfer, with its buffer. -/
structure NormalTrb where
  buf : BitVec 64
  option : BitVec 32
  control : BitVec 32
  deriving DecidableEq, Repr

namespace NormalTrb

/-- `new_in` receives into a buffer. -/
def newIn (buf : PinnedSlice) : NormalTrb :=
  { buf := buf.ptr
    option := BitVec.ofNat 32 buf.byteLen
    control := TrbType.normal.toU32 <<< 10 ||| ctrlBitDataDirIn ||| ctrlBitInterruptOnCompletion
      ||| ctrlBitInterruptOnShortPacket }

/-- `new_out` sends a buffer. -/
def newOut (buf : PinnedSlice) : NormalTrb :=
  { buf := buf.ptr
    option := BitVec.ofNat 32 buf.byteLen
    control := TrbType.normal.toU32 <<< 10 ||| ctrlBitInterruptOnShortPacket |||
      ctrlBitInterruptOnCompletion ||| ctrlBitDataDirOut }

/-- The same TRB as it is put on a ring. -/
def toGeneric (trb : NormalTrb) : GenericTrbEntry :=
  { data := trb.buf, option := trb.option, control := trb.control }

/-! The option word as the controller reads it. -/

/-- The TRB Transfer Length, bits 0 to 16. -/
def transferLength (trb : NormalTrb) : ℕ := (Volatile.readBits trb.option 0 17).toNat

/-- The TD Size, bits 17 to 21. -/
def tdSize (trb : NormalTrb) : ℕ := (Volatile.readBits trb.option 17 5).toNat

/-- The Interrupter Target, bits 22 to 31. -/
def interrupterTarget (trb : NormalTrb) : ℕ := (Volatile.readBits trb.option 22 10).toNat

/-- The controller reads the length `len` and nothing else from the option word. -/
structure Carries (trb : NormalTrb) (len : ℕ) : Prop where
  transferLength : trb.transferLength = len
  tdSize : trb.tdSize = 0
  interrupterTarget : trb.interrupterTarget = 0

/-- A length that the code has cast to 32 bits is read back when it fits into 17 bits. -/
theorem carries_iff {trb : NormalTrb} {len : ℕ} (h : trb.option = BitVec.ofNat 32 len) :
    trb.Carries len ↔ len < 2 ^ 17 := by
  have hlength : trb.transferLength = len % 2 ^ 17 := by
    rw [NormalTrb.transferLength, Volatile.toNat_readBits (by decide), h, BitVec.toNat_ofNat]
    omega
  have hsize : trb.tdSize = len / 2 ^ 17 % 2 ^ 5 := by
    rw [NormalTrb.tdSize, Volatile.toNat_readBits (by decide), h, BitVec.toNat_ofNat]
    omega
  have htarget : trb.interrupterTarget = len / 2 ^ 22 % 2 ^ 10 := by
    rw [NormalTrb.interrupterTarget, Volatile.toNat_readBits (by decide), h, BitVec.toNat_ofNat]
    omega
  constructor
  · intro hcarries
    have hlen := hcarries.transferLength
    rw [hlength] at hlen
    rw [← hlen]
    exact Nat.mod_lt _ (by decide)
  · intro hlt
    exact ⟨by omega, by omega, by omega⟩

end NormalTrb

/-- The setup stage of `request_descriptor`. -/
def descriptorSetup (descType : UsbDescriptorType) (descIndex : BitVec 8) (langId : BitVec 16)
    (buf : PinnedSlice) : SetupStageTrb :=
  SetupStageTrb.new SetupStageTrb.reqTypeDirDeviceToHost SetupStageTrb.reqGetDescriptor
    (descType.toU8.setWidth 16 <<< 8 ||| descIndex.setWidth 16) langId
    (BitVec.ofNat 16 buf.byteLen)

/-! ## The direction of the data -/

/-- The way of the data in a control transfer. -/
inductive DataDirection where
  | hostToDevice
  | deviceToHost
  deriving DecidableEq, Repr

/-- The direction in a transfer type; the value 1 is reserved. -/
def DataDirection.ofTransferType (trt : BitVec 32) : Option DataDirection :=
  if trt = SetupStageTrb.trtOutDataStage then some .hostToDevice
  else if trt = SetupStageTrb.trtInDataStage then some .deviceToHost
  else none

/-- The direction of a data stage, bit 16 of its control word. -/
def DataStageTrb.direction (trb : DataStageTrb) : DataDirection :=
  if Volatile.readBits trb.control 16 1 = 1 then .deviceToHost else .hostToDevice

namespace SetupStageTrb

/-- The transfer type, bits 16 and 17 of the control word. -/
def transferType (trb : SetupStageTrb) : BitVec 32 := Volatile.readBits trb.control 16 2

/-- The transfer type that fits a request: the direction is bit 7 of the request type. -/
def transferTypeOf (requestType : BitVec 8) (length : BitVec 16) : BitVec 32 :=
  if length = 0 then 0 else if requestType.getLsbD 7 then 3 else 2

variable (requestType request : BitVec 8) (value index length : BitVec 16)

/-- The TRB carries the setup packet. -/
theorem toLE_new :
    Bytes.toLE 8 (new requestType request value index length).toGeneric.data.toNat =
      setupBytes requestType request value index length := by
  have hlength : (setupBytes requestType request value index length).length = 8 := rfl
  have hlt := Bytes.ofLE_lt (setupBytes requestType request value index length)
  have hle := Bytes.toLE_ofLE (setupBytes requestType request value index length)
  rw [hlength] at hlt hle
  -- eight bytes fit into the data word, so none of them is cut off
  have hword : Bytes.ofLE (setupBytes requestType request value index length) < 2 ^ 64 := by
    simpa using hlt
  show Bytes.toLE 8 (BitVec.ofNat 64 (Bytes.ofLE (setupBytes requestType request value index
    length))).toNat = _
  rw [BitVec.toNat_ofNat, Nat.mod_eq_of_lt hword]
  exact hle

theorem and_reqTypeDirDeviceToHost (request : BitVec 8) :
    request &&& reqTypeDirDeviceToHost ≠ 0 ↔ request.getLsbD 7 = true := by
  revert request
  decide

/-- The transfer type follows bit 7 of the request. -/
theorem transferType_new :
    (new requestType request value index length).transferType = transferTypeOf request length := by
  simp only [new, transferType, transferTypeOf, and_reqTypeDirDeviceToHost]
  split_ifs <;> decide

/-- A setup stage carries its request, and it announces the data stage of the request exactly
when there is none or bit 7 of `request` is the direction, bit 7 of `requestType`. The setup stage
of `request_descriptor` never announces the direction of the data stage behind it. -/
theorem new_iff :
    ((let trb := new requestType request value index length
      trb.transferType = transferTypeOf requestType length ∧
        Bytes.toLE 8 trb.toGeneric.data.toNat =
          setupBytes requestType request value index length) ↔
      length = 0 ∨ request.getLsbD 7 = requestType.getLsbD 7) ∧
    ∀ descType descIndex langId buf,
      DataDirection.ofTransferType
        (descriptorSetup descType descIndex langId buf).transferType ≠
          some (DataStageTrb.newIn buf).direction := by
  constructor
  · have hfits : transferTypeOf request length = transferTypeOf requestType length ↔
        length = 0 ∨ request.getLsbD 7 = requestType.getLsbD 7 := by
      unfold transferTypeOf
      by_cases hlength : length = 0
      · rw [if_pos hlength, if_pos hlength]
        exact iff_of_true rfl (.inl hlength)
      · rw [if_neg hlength, if_neg hlength, or_iff_right hlength]
        -- the code looks at bit 7 of `request`, the announcement is about bit 7 of `requestType`
        cases request.getLsbD 7 <;> cases requestType.getLsbD 7 <;> decide
    rw [← hfits, ← transferType_new requestType request value index length]
    exact and_iff_left (toLE_new requestType request value index length)
  · intro descType descIndex langId buf
    -- bit 7 of `REQ_GET_DESCRIPTOR` is clear
    have hclear : reqGetDescriptor.getLsbD 7 = false := by decide
    have hdata : (DataStageTrb.newIn buf).direction = .deviceToHost := by
      simp only [DataStageTrb.direction, DataStageTrb.newIn]
      exact if_pos (by decide)
    rw [descriptorSetup, transferType_new, transferTypeOf, hclear, hdata,
      if_neg Bool.false_ne_true]
    split <;> decide

/-- The request for the device descriptor, of 18 bytes: the setup stage announces data for the
device, and the data stage asks for data from it. -/
theorem not_new_descriptor :
    let buf : PinnedSlice := { ptr := 0x1000, len := 18, elemSize := 1 }
    let setup := descriptorSetup .device 0 0 buf
    setup.transferType ≠ transferTypeOf setup.requestType setup.length ∧
      (DataStageTrb.newIn buf).direction = .deviceToHost ∧
      DataDirection.ofTransferType setup.transferType = some .hostToDevice := by
  decide

end SetupStageTrb

end Mushix
