import Mushix.Xhci.Trb

/-!
# Commands and their results

The command TRBs that the program sends and how it checks the events that answer them
(`xhci.rs`).
-/

namespace Mushix.GenericTrbEntry

theorem slotId_fits (slot : BitVec 8) :
    BitField.lowMask 32 8 &&& slot.setWidth 32 = slot.setWidth 32 := by
  apply BitVec.eq_of_toNat_eq
  rw [BitVec.and_comm, BitField.toNat_and_lowMask (by decide), BitVec.toNat_setWidth]
  omega

/-- `set_slot_id` writes the slot that a command is for. -/
def setSlotId (trb : GenericTrbEntry) (slot : BitVec 8) : GenericTrbEntry :=
  { trb with
    control := unwrap (Volatile.writeBits trb.control 24 8 (slot.setWidth 32))
      (by rw [Volatile.writeBits_isOk_iff]; exact slotId_fits slot) }

/-- The command that asks for a device slot. -/
def cmdEnableSlot : GenericTrbEntry := default.setTrbType .enableSlotCommand

/-- `cmd_address_device` with the address of the input context. -/
def cmdAddressDevice (inputContext : BitVec 64) (slot : BitVec 8) : GenericTrbEntry :=
  let trb := default.setTrbType .addressDeviceCommand
  let trb := { trb with data := inputContext }
  trb.setSlotId slot

/-- `cmd_configure_endpoint` with the address of the input context. -/
def cmdConfigureEndpoint (inputContext : BitVec 64) (slot : BitVec 8) : GenericTrbEntry :=
  let trb := default.setTrbType .configureEndpointCommand
  let trb := { trb with data := inputContext }
  trb.setSlotId slot

/-- How the command or transfer behind an event has ended. -/
def completionCode (trb : GenericTrbEntry) : BitVec 32 := Volatile.readBits trb.option 24 8

/-- `cmd_result_ok` accepts the completion of a command that has succeeded. -/
def cmdResultOk (trb : GenericTrbEntry) : Except Fault Unit :=
  if trb.trbType ≠ TrbType.commandCompletionEvent.toU32 then
    .error (.err "Not a Command Completion Event")
  else if trb.completionCode ≠ 1 then
    .error (.err "Command Completion Event with error code")
  else
    .ok ()

/-- `transfer_result_ok` accepts the completion of a transfer that has succeeded, or that was short.
-/
def transferResultOk (trb : GenericTrbEntry) : Except Fault Unit :=
  if trb.trbType ≠ TrbType.transferEvent.toU32 then
    .error (.err "Not a TransferEvent")
  else if trb.completionCode ≠ 1 ∧ trb.completionCode ≠ 13 then
    .error (.err "Transfer Event with error code")
  else
    .ok ()

/-- The check of a command does not panic. -/
theorem cmdResultOk_ne_panic (trb : GenericTrbEntry) (msg : String) :
    trb.cmdResultOk ≠ .error (.panic msg) := by
  unfold cmdResultOk
  split_ifs <;> simp

/-- The check of a transfer does not panic. -/
theorem transferResultOk_ne_panic (trb : GenericTrbEntry) (msg : String) :
    trb.transferResultOk ≠ .error (.panic msg) := by
  unfold transferResultOk
  split_ifs <;> simp

/-- Setting the slot leaves the type as it is. -/
theorem trbType_setSlotId (trb : GenericTrbEntry) (slot : BitVec 8) :
    (trb.setSlotId slot).trbType = trb.trbType := by
  apply BitVec.eq_of_getLsbD_eq
  intro i _
  rw [trbType, trbType, Volatile.getLsbD_readBits (by decide),
    Volatile.getLsbD_readBits (by decide)]
  by_cases hi : i < 6
  · rw [setSlotId, Volatile.getLsbD_unwrap_writeBits (by decide) _ (by omega), if_neg (by omega)]
  · rw [decide_eq_false hi, Bool.false_and, Bool.false_and]

/-- The type of a Configure Endpoint command. -/
theorem trbType_cmdConfigureEndpoint (inputContext : BitVec 64) (slot : BitVec 8) :
    (cmdConfigureEndpoint inputContext slot).trbType = TrbType.configureEndpointCommand.toU32 := by
  rw [cmdConfigureEndpoint, trbType_setSlotId]
  show (default.setTrbType .configureEndpointCommand).trbType = _
  decide

theorem trbType_cmdAddressDevice (inputContext : BitVec 64) (slot : BitVec 8) :
    (cmdAddressDevice inputContext slot).trbType = TrbType.addressDeviceCommand.toU32 := by
  rw [cmdAddressDevice, trbType_setSlotId]
  show (default.setTrbType .addressDeviceCommand).trbType = _
  decide

end Mushix.GenericTrbEntry
