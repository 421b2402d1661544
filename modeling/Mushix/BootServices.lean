import Mushix.Result
import Mushix.Uefi

/-!
# Leaving the boot services

`exit_from_efi_boot_services` (`uefi.rs`) asks the firmware for the memory map and leaves the boot
services with its key, in a loop that is meant to go on until the firmware accepts the key. The
firmware is a parameter: which map is current at each call.

* `EfiStatus`: the status of the program, which cannot tell a success from a failure;
* `BootServices.exitFromEfiBootServices`: the loop;
* `BootServices.exits_iff`: the loop ends with its first round, and so it leaves the boot services
  exactly when the firmware accepts the first key.
-/

namespace Mushix

open Bytes (Memory)

/-- A status word of the firmware: `EFI_SUCCESS` is 0, and the errors have bit 63 set. -/
abbrev StatusWord : Type := BitVec 64

/-- The word of `EFI_SUCCESS`. -/
def efiSuccess : StatusWord := 0

/-- The word of `EFI_INVALID_PARAMETER`, by which `ExitBootServices` refuses a key. -/
def efiInvalidParameter : StatusWord := 0x8000000000000002

/-- The word of `EFI_BUFFER_TOO_SMALL`. -/
def efiBufferTooSmall : StatusWord := 0x8000000000000005

/-- `EfiStatus`, an enumeration with the one variant `Success`. -/
inductive EfiStatus where
  | success
  deriving DecidableEq, Repr

/-- A status word as the program sees it. The `==` that `EfiStatus` derives compares no words, as
there is only one variant: every status is equal to `Success`. -/
def EfiStatus.ofWord (_ : StatusWord) : EfiStatus := .success

/-- `MemoryMapHolder` with the fields that only the firmware writes and `ExitBootServices` reads. -/
structure KeyedMemoryMap extends MemoryMapHolder where
  mapKey : ℕ
  descriptorVersion : ℕ

/-- A holder with an empty buffer, all of which `memory_map_size` offers to the firmware. -/
def KeyedMemoryMap.new : KeyedMemoryMap where
  memoryMapBuffer _ := 0
  memoryMapSize := memoryMapBufferSize
  mapKey := 0
  descriptorSize := 0
  descriptorVersion := 0

/-- A memory map of the firmware. -/
structure FirmwareMap where
  bytes : Memory
  size : ℕ
  key : ℕ
  descriptorSize : ℕ
  descriptorVersion : ℕ

/-- The caller's holder after `GetMemoryMap` has returned the map. -/
def FirmwareMap.writeTo (m : FirmwareMap) (map : KeyedMemoryMap) : KeyedMemoryMap where
  memoryMapBuffer a := if a < m.size then m.bytes a else map.memoryMapBuffer a
  memoryMapSize := m.size
  mapKey := m.key
  descriptorSize := m.descriptorSize
  descriptorVersion := m.descriptorVersion

/-- The program and the firmware. -/
structure BootServices where
  memoryMap : KeyedMemoryMap
  /-- The number of calls of the firmware so far. -/
  calls : ℕ
  /-- The sizes that were offered to `GetMemoryMap`, the last one first. -/
  offers : List ℕ
  /-- The number of the call in which the firmware has accepted the key of its map. -/
  accepted : Option ℕ

namespace BootServices

/-- Before the first call. -/
def start : BootServices := { memoryMap := .new, calls := 0, offers := [], accepted := none }

variable (current : ℕ → FirmwareMap)

/-- `get_memory_map` and the `GetMemoryMap` of the firmware: the size field says how large the
buffer is, and after a success how large the map is. -/
def getMemoryMap : Method BootServices EfiStatus := fun self =>
  let m := current self.calls
  let self :=
    { self with
      calls := self.calls + 1
      offers := self.memoryMap.memoryMapSize :: self.offers }
  if m.size ≤ self.memoryMap.memoryMapSize then
    .ok (.ofWord efiSuccess) { self with memoryMap := m.writeTo self.memoryMap }
  else
    .ok (.ofWord efiBufferTooSmall) self

/-- `exit_boot_services` of the firmware, which accepts the key of the current map only. -/
def exitBootServices (mapKey : ℕ) : Method BootServices EfiStatus := fun self =>
  if mapKey = (current self.calls).key then
    .ok (.ofWord efiSuccess) { self with calls := self.calls + 1, accepted := some self.calls }
  else
    .ok (.ofWord efiInvalidParameter) { self with calls := self.calls + 1 }

/-- `exit_from_efi_boot_services` for a number of rounds: whether it has returned. -/
def exitFromEfiBootServices : ℕ → Method BootServices Bool
  | 0 => return false
  | rounds + 1 => do
    let status ← getMemoryMap current
    if status ≠ .success then
      throw (.panic "assertion `left == right` failed")
    let status ← exitBootServices current (← get).memoryMap.mapKey
    if status = .success then
      return true
    else
      exitFromEfiBootServices rounds

/-! ## The first round -/

section Round

variable {current} {self : BootServices} {mapKey rounds : ℕ}

variable (current self) in
/-- The program and the firmware after `get_memory_map`, whose status is a success to the program
also where the map did not fit. -/
def afterMap : BootServices :=
  { self with
    memoryMap :=
      if (current self.calls).size ≤ self.memoryMap.memoryMapSize then
        (current self.calls).writeTo self.memoryMap
      else
        self.memoryMap
    calls := self.calls + 1
    offers := self.memoryMap.memoryMapSize :: self.offers }

variable (current self mapKey) in
/-- The program and the firmware after `exit_boot_services`. -/
def afterExit : BootServices :=
  { self with
    calls := self.calls + 1
    accepted := if mapKey = (current self.calls).key then some self.calls else self.accepted }

/-- A call of `get_memory_map` always succeeds, as far as its status says. -/
theorem run_getMemoryMap : getMemoryMap current self = .ok .success (afterMap current self) := by
  by_cases hfits : (current self.calls).size ≤ self.memoryMap.memoryMapSize
  · rw [afterMap, if_pos hfits]
    exact if_pos hfits
  · rw [afterMap, if_neg hfits]
    exact if_neg hfits

/-- A call of `ExitBootServices` always succeeds, as far as its status says. -/
theorem run_exitBootServices :
    exitBootServices current mapKey self = .ok .success (afterExit current self mapKey) := by
  unfold exitBootServices afterExit
  split <;> rfl

/-- The loop ends with its first round: neither does the assertion fail nor does the loop go on. -/
theorem exit_eq : exitFromEfiBootServices current (rounds + 1) self =
    .ok true (afterExit current (afterMap current self)
      (afterMap current self).memoryMap.mapKey) := by
  have hmap : ¬EfiStatus.success ≠ .success := fun h => h rfl
  rw [exitFromEfiBootServices, Method.bind_of_ok run_getMemoryMap, if_neg hmap]
  exact Method.bind_of_ok run_exitBootServices

end Round

/-! ## What the caller gets -/

/-- The holder has the map. -/
structure Holds (m : FirmwareMap) (map : KeyedMemoryMap) : Prop where
  bytes (a : ℕ) : a < m.size → map.memoryMapBuffer a = m.bytes a
  size : map.memoryMapSize = m.size
  key : map.mapKey = m.key
  descriptorSize : map.descriptorSize = m.descriptorSize
  descriptorVersion : map.descriptorVersion = m.descriptorVersion

/-- The firmware has accepted a key, and the holder has this key and the map that came with it. -/
def Exited (current : ℕ → FirmwareMap) (self : BootServices) : Prop :=
  ∃ n, self.accepted = some (n + 1) ∧ Holds (current n) self.memoryMap ∧
    self.memoryMap.mapKey = (current (n + 1)).key

section Exits

variable {current : ℕ → FirmwareMap}

/-- The firmware writes the bytes of its map into the buffer. -/
theorem holds_writeTo (m : FirmwareMap) (map : KeyedMemoryMap) : Holds m (m.writeTo map) where
  bytes _ ha := if_pos ha
  size := rfl
  key := rfl
  descriptorSize := rfl
  descriptorVersion := rfl

/-- The first map fits into the whole buffer. -/
theorem memoryMap_afterMap (hsize : (current 0).size ≤ memoryMapBufferSize) :
    (afterMap current start).memoryMap = (current 0).writeTo .new := if_pos hsize

/-- For maps that fit into the buffer, `exit_from_efi_boot_services` returns from its first round:
it has called `GetMemoryMap` once, with all of the buffer, and has the first map. It has left the
boot services with this map and its key exactly when the key is still the current one. -/
theorem exits_iff (hsize : ∀ n, (current n).size ≤ memoryMapBufferSize) (rounds : ℕ) :
    (∃ self, exitFromEfiBootServices current (rounds + 1) start = .ok true self ∧
      self.offers = [memoryMapBufferSize] ∧ Holds (current 0) self.memoryMap) ∧
    ((∃ self, exitFromEfiBootServices current (rounds + 1) start = .ok true self ∧
        (∀ size ∈ self.offers, size = memoryMapBufferSize) ∧ Exited current self) ↔
      (current 0).key = (current 1).key) := by
  have hmap := memoryMap_afterMap (hsize 0)
  have hholds : Holds (current 0) (afterMap current start).memoryMap :=
    hmap ▸ holds_writeTo (current 0) .new
  refine ⟨⟨_, exit_eq, rfl, hholds⟩, ?_, fun hkey => ?_⟩
  · rintro ⟨self, hrun, -, n, haccepted, -⟩
    cases exit_eq.symm.trans hrun
    by_contra hkey
    -- the key of the first map was refused, and there was no other attempt
    rw [afterExit, hholds.key] at haccepted
    exact absurd (haccepted.symm.trans (if_neg hkey)) (by simp [afterMap, start])
  · have haccepted : (afterExit current (afterMap current start)
        (afterMap current start).memoryMap.mapKey).accepted = some 1 :=
      if_pos (hholds.key.trans hkey)
    refine ⟨_, exit_eq, fun size hmem => List.mem_singleton.1 hmem, 0, haccepted, hholds, ?_⟩
    exact hholds.key.trans hkey

/-- A map that grows by a descriptor after the first call. -/
def growing (n : ℕ) : FirmwareMap where
  bytes _ := 0
  size := if n = 0 then 0x1200 else 0x1230
  key := if n = 0 then 1 else 2
  descriptorSize := 0x30
  descriptorVersion := 1

/-- The map that grows always fits into the buffer. -/
theorem size_growing_le (n : ℕ) : (growing n).size ≤ memoryMapBufferSize := by
  rw [growing, memoryMapBufferSize]
  split <;> decide

theorem exits_iff_growing :
    (∃ self, exitFromEfiBootServices growing 2 start = .ok true self ∧
      self.offers = [memoryMapBufferSize] ∧ Holds (growing 0) self.memoryMap) ∧
    ((∃ self, exitFromEfiBootServices growing 2 start = .ok true self ∧
        (∀ size ∈ self.offers, size = memoryMapBufferSize) ∧ Exited growing self) ↔
      (growing 0).key = (growing 1).key) :=
  exits_iff size_growing_le 1

/-- The firmware refuses the key of the first map, and the program takes this for a success. -/
theorem not_exited_growing :
    ∃ self, exitFromEfiBootServices growing 2 start = .ok true self ∧ self.accepted = none ∧
      ¬Exited growing self := by
  have haccepted : (afterExit growing (afterMap growing start)
      (afterMap growing start).memoryMap.mapKey).accepted = none := by decide
  refine ⟨_, exit_eq, haccepted, ?_⟩
  rintro ⟨n, hsome, -⟩
  cases haccepted.symm.trans hsome

end Exits

end BootServices

end Mushix
