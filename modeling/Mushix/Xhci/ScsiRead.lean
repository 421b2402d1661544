import Mushix.Xhci.Driver

/-!
# Reading sectors

The SCSI command READ(10) over Bulk-Only Transport (`xhci.rs`): a command block wrapper goes out,
the data and a command status wrapper come in. The analysis of the sector only writes to the log
and is left out.
-/

namespace Mushix.Driver

open Slice (copyInto)

variable {σ : Type} (w : World σ)

/-- The bytes of the command block wrapper, as `scsi_read_10` puts them together. -/
def readTenCbw (lba : BitVec 32) (transferLength : BitVec 16) : List (BitVec 8) :=
  let cbwData := List.replicate 31 0
  let cbwData := copyInto cbwData 0 (bytesOfU32 0x43425355)
  let cbwData := copyInto cbwData 4 (bytesOfU32 3)
  let cbwData := copyInto cbwData 8 (bytesOfU32 (transferLength.setWidth 32 * 512))
  let cbwData := cbwData.set 12 0x80
  let cbwData := cbwData.set 13 0
  let cbwData := cbwData.set 14 10
  -- the command block, whose numbers have the high byte first
  let cbwData := cbwData.set 15 0x28
  let cbwData := cbwData.set 16 0x00
  let cbwData := copyInto cbwData 17 (bytesOfU32 lba).reverse
  let cbwData := cbwData.set 21 0x00
  let cbwData := copyInto cbwData 22 (bytesOfU16 transferLength).reverse
  cbwData.set 24 0x00

/-- Queue a buffer for a device, ring the doorbell of the endpoint and await the event. -/
def bulkOut (slot : BitVec 8) (ring dci : ℕ) (bytes : List (BitVec 8)) :
    Method (Driver σ) Unit := do
  let buf ← newBuffer w bytes.length 1
  let _ ← push ring (NormalTrb.newOut buf).toGeneric
  modify fun self => { self with sent := bytes :: self.sent }
  notifyEp w slot dci
  let _ ← readReg w ((← get).regs.opRegs + usbstsOffset)
  let (trb, _) ← awaitEvent w
  lift trb.transferResultOk

/-- Queue a zeroed buffer for bytes from a device, ring the doorbell of the endpoint, await the
event and return the contents of the buffer. -/
def bulkIn (slot : BitVec 8) (ring dci len : ℕ) : Method (Driver σ) (List (BitVec 8)) := do
  let buf ← newBuffer w len 1
  let _ ← push ring (NormalTrb.newIn buf).toGeneric
  notifyEp w slot dci
  let _ ← readReg w ((← get).regs.opRegs + usbstsOffset)
  let (trb, received) ← awaitEvent w
  lift trb.transferResultOk
  return filled buf received

/-- `scsi_read_10` sends the command, receives the blocks and then the status. -/
def scsiReadTen (slot : BitVec 8) (bulkInRing bulkOutRing bulkInDci bulkOutDci : ℕ)
    (lba : BitVec 32) (transferLength : BitVec 16) : Method (Driver σ) (List (BitVec 8)) := do
  bulkOut w slot bulkOutRing bulkOutDci (readTenCbw lba transferLength)
  let readData ← bulkIn w slot bulkInRing bulkInDci (transferLength.toNat * 512)
  -- the status wrapper follows the data
  let csw ← bulkIn w slot bulkInRing bulkInDci 13
  let cswSignature := u32OfBytes (csw.take 4)
  let cswStatus ← Slice.index csw 12
  if cswSignature ≠ 0x53425355 then
    throw (.err "Invalid CSW signature")
  else if cswStatus ≠ 0 then
    throw (.err "SCSI command failed")
  else
    return readData

end Mushix.Driver
