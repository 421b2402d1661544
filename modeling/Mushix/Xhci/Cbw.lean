import Mushix.Xhci.ScsiRead

/-!
# Command block wrappers

The packed structure `CommandBlockWrapper` (`cbw.rs`) and the way in which a device reads the
command READ(10) from its bytes.

* `CommandBlockWrapper.newReadTen`, `CommandBlockWrapper.bytes`: the structure and its bytes;
* `ReadTenRequest.ofBytes`: the reader, after the Bulk-Only Transport and SCSI READ(10);
* `bytes_newReadTen`, `ofBytes_readTenCbw`: the bytes that `scsi_read_10` puts together are the
  bytes of the structure, and the device reads the arguments back.
-/

namespace Mushix

/-- A `CommandBlockWrapper` carries a SCSI command to a mass storage device. -/
structure CommandBlockWrapper where
  signature : BitVec 32
  tag : BitVec 32
  dataTransferLength : BitVec 32
  flags : BitVec 8
  lun : BitVec 8
  cbLength : BitVec 8
  commandBlock : Vector (BitVec 8) 16
  deriving DecidableEq, Repr

namespace CommandBlockWrapper

/-- The signature of every wrapper, `"USBC"` in memory. -/
def signatureUsbc : BitVec 32 := 0x43425355

/-- The device sends data to the host. -/
def flagDataIn : BitVec 8 := 0x80

/-- The wrapper of the command READ (10) for a number of blocks from an address on. -/
def newReadTen (lba : BitVec 32) (transferLength : BitVec 16) (tag : BitVec 32) :
    CommandBlockWrapper :=
  let commandBlock : Vector (BitVec 8) 16 := Vector.replicate 16 0
  let commandBlock := commandBlock.set 0 0x28
  let commandBlock := commandBlock.set 1 0x00
  -- the block address and the number of blocks have the high byte first
  let commandBlock := commandBlock.set 2 ((lba >>> 24).setWidth 8)
  let commandBlock := commandBlock.set 3 ((lba >>> 16).setWidth 8)
  let commandBlock := commandBlock.set 4 ((lba >>> 8).setWidth 8)
  let commandBlock := commandBlock.set 5 (lba.setWidth 8)
  let commandBlock := commandBlock.set 6 0x00
  let commandBlock := commandBlock.set 7 ((transferLength >>> 8).setWidth 8)
  let commandBlock := commandBlock.set 8 (transferLength.setWidth 8)
  let commandBlock := commandBlock.set 9 0x00
  { signature := signatureUsbc
    tag
    dataTransferLength := transferLength.setWidth 32 * 512
    flags := flagDataIn
    lun := 0
    cbLength := 10
    commandBlock }

/-- The bytes of the packed structure: its fields in their order, words with the low byte first. -/
def bytes (self : CommandBlockWrapper) : List (BitVec 8) :=
  bytesOfU32 self.signature ++ bytesOfU32 self.tag ++ bytesOfU32 self.dataTransferLength ++
    [self.flags, self.lun, self.cbLength] ++ self.commandBlock.toList

/-- The packed structure has 31 bytes, whatever its fields are. -/
theorem length_bytes (self : CommandBlockWrapper) : self.bytes.length = 31 := by
  simp [bytes, bytesOfU32]

end CommandBlockWrapper

/-! ## The side of the device -/

/-- The command READ(10) in a command block wrapper. -/
structure ReadTenRequest where
  tag : BitVec 32
  /-- The number of bytes that the host expects. -/
  dataLength : ℕ
  direction : DataDirection
  lun : ℕ
  /-- The number of bytes of the command block that are valid. -/
  commandLength : ℕ
  lba : ℕ
  /-- The number of sectors. -/
  blocks : ℕ
  deriving DecidableEq, Repr

/-- How a device reads a command block wrapper with the command READ(10): the fields of the
wrapper have the low byte first, and those of the command the high byte. -/
def ReadTenRequest.ofBytes (bytes : List (BitVec 8)) : Option ReadTenRequest :=
  let field (start len : ℕ) := (bytes.drop start).take len
  if bytes.length = 31 ∧ Bytes.ofLE (field 0 4) = 0x43425355 ∧ Bytes.ofLE (field 15 1) = 0x28 then
    some
      { tag := BitVec.ofNat 32 (Bytes.ofLE (field 4 4))
        dataLength := Bytes.ofLE (field 8 4)
        direction := if 0x80 ≤ Bytes.ofLE (field 12 1) then .deviceToHost else .hostToDevice
        lun := Bytes.ofLE (field 13 1) % 2 ^ 4
        commandLength := Bytes.ofLE (field 14 1) % 2 ^ 5
        lba := Bytes.ofBE (field 17 4)
        blocks := Bytes.ofBE (field 22 2) }
  else
    none

/-! ## The bytes of the driver -/

/-- The bytes of a word, written with shifts. -/
theorem bytesOfU32_eq (x : BitVec 32) :
    bytesOfU32 x = [x.setWidth 8, (x >>> 8).setWidth 8, (x >>> 16).setWidth 8,
      (x >>> 24).setWidth 8] := by
  have hbyte : ∀ k, BitVec.ofNat 8 (x.toNat / 2 ^ k) = (x >>> k).setWidth 8 := by
    intro k
    apply BitVec.eq_of_toNat_eq
    rw [BitVec.toNat_ofNat, BitVec.toNat_setWidth, BitVec.toNat_ushiftRight,
      Nat.shiftRight_eq_div_pow]
  rw [← hbyte 8, ← hbyte 16, ← hbyte 24]
  simp only [bytesOfU32, Bytes.toLE, Nat.div_div_eq_div_mul]
  norm_num

theorem bytesOfU16_eq (x : BitVec 16) :
    bytesOfU16 x = [x.setWidth 8, (x >>> 8).setWidth 8] := by
  have hbyte : BitVec.ofNat 8 (x.toNat / 2 ^ 8) = (x >>> 8).setWidth 8 := by
    apply BitVec.eq_of_toNat_eq
    rw [BitVec.toNat_ofNat, BitVec.toNat_setWidth, BitVec.toNat_ushiftRight,
      Nat.shiftRight_eq_div_pow]
  rw [← hbyte]
  simp [bytesOfU16, Bytes.toLE]

open Driver (readTenCbw)
open Slice (copyInto)

variable (lba : BitVec 32) (transferLength : BitVec 16)

/-- The length in bytes fits into its field. -/
theorem toNat_dataTransferLength :
    (transferLength.setWidth 32 * 512).toNat = 512 * transferLength.toNat := by
  have hlt := transferLength.isLt
  rw [BitVec.toNat_mul, BitVec.toNat_setWidth, show BitVec.toNat (512 : BitVec 32) = 512 from rfl]
  omega

/-- The bytes that `scsi_read_10` puts together, in their order. -/
theorem readTenCbw_eq :
    readTenCbw lba transferLength = [0x55, 0x53, 0x42, 0x43] ++ [3, 0, 0, 0] ++
      bytesOfU32 (transferLength.setWidth 32 * 512) ++ [0x80, 0, 10] ++ [0x28, 0] ++
      (bytesOfU32 lba).reverse ++ [0] ++ (bytesOfU16 transferLength).reverse ++
      List.replicate 7 0 := by
  have hsig : bytesOfU32 0x43425355 = [0x55, 0x53, 0x42, 0x43] := by decide
  have htag : bytesOfU32 3 = [3, 0, 0, 0] := by decide
  rw [readTenCbw, hsig, htag]
  -- each word is four bytes, so the slices that are written to do not depend on its value
  generalize transferLength.setWidth 32 * 512 = dataLength
  simp [bytesOfU32_eq, bytesOfU16_eq, copyInto, List.replicate]

/-- The structure has the same bytes. -/
theorem bytes_newReadTen :
    (CommandBlockWrapper.newReadTen lba transferLength 3).bytes =
      readTenCbw lba transferLength := by
  have hsig : bytesOfU32 0x43425355 = [0x55, 0x53, 0x42, 0x43] := by decide
  have htag : bytesOfU32 3 = [3, 0, 0, 0] := by decide
  rw [readTenCbw_eq, CommandBlockWrapper.newReadTen, CommandBlockWrapper.bytes]
  dsimp only
  rw [CommandBlockWrapper.signatureUsbc, hsig, htag]
  generalize transferLength.setWidth 32 * 512 = dataLength
  -- `new_read_10` writes the bytes of the command with shifts
  rw [bytesOfU32_eq lba, bytesOfU16_eq]
  simp only [List.append_assoc, List.cons_append, List.nil_append]
  rfl

/-- A device reads the request back. -/
theorem ofBytes_readTenCbw :
    ReadTenRequest.ofBytes (readTenCbw lba transferLength) = some
      { tag := 3
        dataLength := 512 * transferLength.toNat
        direction := .deviceToHost
        lun := 0
        commandLength := 10
        lba := lba.toNat
        blocks := transferLength.toNat } := by
  have hdata : Bytes.ofLE (bytesOfU32 (transferLength.setWidth 32 * 512)) =
      512 * transferLength.toNat := by
    rw [bytesOfU32, Bytes.ofLE_toLE, toNat_dataTransferLength]
    have hlt := transferLength.isLt
    exact Nat.mod_eq_of_lt (by omega)
  have hlba : Bytes.ofBE (bytesOfU32 lba).reverse = lba.toNat := by
    rw [bytesOfU32, Bytes.ofBE_reverse_toLE]
    exact Nat.mod_eq_of_lt lba.isLt
  have hblocks : Bytes.ofBE (bytesOfU16 transferLength).reverse = transferLength.toNat := by
    rw [bytesOfU16, Bytes.ofBE_reverse_toLE]
    exact Nat.mod_eq_of_lt transferLength.isLt
  rw [readTenCbw_eq, ← hdata, ← hlba, ← hblocks]
  -- the bytes of the fields are those of the block, whatever the numbers
  generalize transferLength.setWidth 32 * 512 = dataLength
  simp only [bytesOfU32_eq, bytesOfU16_eq]
  simp [ReadTenRequest.ofBytes, Bytes.ofLE, Bytes.ofBE]

end Mushix
