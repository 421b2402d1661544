import Mushix.Xhci.Command
import Mushix.Xhci.CommandRing
import Mushix.Xhci.Context
import Mushix.Xhci.Registers
import Mushix.Xhci.StageTrb

/-!
# The driver and what it talks to

`Controller` (`xhci.rs`) and the calls by which it reaches the hardware. The hardware is a
parameter: a `World` says what reads of registers return, what stores to them do, which events
arrive and which bytes devices send. A call that awaits an event is modelled from the event on,
so a task that waits for ever is one that does not return.

* `Driver.sendCommand`, `Driver.notifyEp`: commands and doorbells;
* `Driver.controlNoData`, `Driver.requestDescriptor`: control transfers;
* `Driver.notifyEp_iff`: for which slots there is a doorbell.
-/

namespace Mushix

/-- The hardware and the allocator, as far as the program sees them. -/
structure World (σ : Type) where
  /-- A read of the register at an address. -/
  read : ℕ → σ → BitVec 32 × σ
  /-- A store to the register at an address. -/
  write : ℕ → BitVec 32 → σ → σ
  /-- The event that an `EventFuture` returns, and the bytes that its transfer has put into the
  buffer. -/
  event : σ → (GenericTrbEntry × List (BitVec 8)) × σ
  /-- The addresses of pages from the allocator. -/
  page : ℕ → IoBoxAddr
  /-- The addresses of other buffers from the allocator. -/
  buffer : ℕ → BitVec 64

/-- A command that was sent, with the input context that it points to. -/
structure Command where
  trb : GenericTrbEntry
  input : Option InputContext

/-- `Controller` together with the transfer rings that its tasks own. A `&mut CommandRing` is the
number of a ring. -/
structure Driver (σ : Type) where
  regs : XhcRegisters
  /-- The addresses of the output contexts in `device_context_base_array`. -/
  outputContexts : Fin 255 → Option (BitVec 64)
  commandRing : CommandRing
  rings : ℕ → CommandRing
  ringCount : ℕ
  /-- The number of pages that were allocated. -/
  pages : ℕ
  /-- The number of other buffers that were allocated. -/
  buffers : ℕ
  hardware : σ
  /-- The stores to registers, the last one first. -/
  stores : List (ℕ × BitVec 32)
  /-- The commands that were sent, the last one first. -/
  commands : List Command
  /-- The events that were awaited, the last one first. -/
  events : List GenericTrbEntry
  /-- The contents of the buffers that were sent to devices, the last one first. -/
  sent : List (List (BitVec 8))

/-- Hardware whose registers always read as one value and whose events are all the same. -/
def World.steady (value : BitVec 32) (trb : GenericTrbEntry) : World Unit where
  read _ hw := (value, hw)
  write _ _ hw := hw
  event hw := ((trb, []), hw)
  page _ := { addr := 0x4000, aligned := rfl }
  buffer _ := 0x8000

namespace Driver

variable {σ : Type} (w : World σ)

/-- The driver before its first command, with the command ring on a page of its own. -/
def start (regs : XhcRegisters) (base : IoBoxAddr) (hardware : σ) : Driver σ where
  regs := regs
  outputContexts _ := none
  commandRing := .default base
  rings _ := .default base
  ringCount := 0
  pages := 0
  buffers := 0
  hardware := hardware
  stores := []
  commands := []
  events := []
  sent := []

/-- `?` on a result that has nothing to do with the driver. -/
def lift {α : Type} : Except Fault α → Method (Driver σ) α
  | .ok a => return a
  | .error e => throw e

/-- `ok_or` and `?`: what is not there is an error. -/
def okOr {α : Type} (opt : Option α) (msg : String) : Method (Driver σ) α :=
  match opt with
  | some a => return a
  | none => throw (.err msg)

/-- `read_volatile` of a register. -/
def readReg (addr : ℕ) : Method (Driver σ) (BitVec 32) := fun self =>
  let (value, hardware) := w.read addr self.hardware
  .ok value { self with hardware }

/-- `write_volatile` of a register. -/
def writeReg (addr : ℕ) (value : BitVec 32) : Method (Driver σ) Unit := modify fun self =>
  { self with
    hardware := w.write addr value self.hardware
    stores := (addr, value) :: self.stores }

/-- The task awaits an `EventFuture`: it goes on with an event of the controller, and with what this
has transferred. -/
def awaitEvent : Method (Driver σ) (GenericTrbEntry × List (BitVec 8)) := fun self =>
  let (answer, hardware) := w.event self.hardware
  .ok answer { self with hardware, events := answer.1 :: self.events }

/-- `Box::new` of something that is aligned to a page. -/
def newPage : Method (Driver σ) IoBoxAddr := fun self =>
  .ok (w.page self.pages) { self with pages := self.pages + 1 }

/-- `vec![0; len]` as a pinned slice. -/
def newBuffer (len elemSize : ℕ) : Method (Driver σ) PinnedSlice := fun self =>
  .ok { ptr := w.buffer self.buffers, len, elemSize } { self with buffers := self.buffers + 1 }

/-- `CommandRing::default()` for a transfer ring. -/
def newRing : Method (Driver σ) ℕ := do
  let base ← newPage w
  let self ← get
  let ring := self.ringCount
  set { self with
    rings := Function.update self.rings ring (CommandRing.default base)
    ringCount := ring + 1 }
  return ring

/-- `push` on a transfer ring. -/
def push (ring : ℕ) (trb : GenericTrbEntry) : Method (Driver σ) (BitVec 64) := fun self =>
  match CommandRing.push trb (self.rings ring) with
  | .ok ptr c => .ok ptr { self with rings := Function.update self.rings ring c }
  | .error e c => .error e { self with rings := Function.update self.rings ring c }

/-- `push` on the command ring. -/
def pushCommand (cmd : GenericTrbEntry) : Method (Driver σ) (BitVec 64) := fun self =>
  match CommandRing.push cmd self.commandRing with
  | .ok ptr commandRing => .ok ptr { self with commandRing }
  | .error e commandRing => .error e { self with commandRing }

/-- A doorbell is rung for an endpoint of its slot. -/
def notify (doorbell : ℕ) (target : BitVec 8) (task : BitVec 16) : Method (Driver σ) Unit :=
  writeReg w doorbell (target.setWidth 32 ||| task.setWidth 32 <<< 16)

/-- `notify_xhc` rings the doorbell for commands. -/
def notifyXhc : Method (Driver σ) Unit := do
  -- doorbell 0 is the one of the command ring
  let doorbell ← Slice.index (← get).regs.doorbellRegs 0
  notify w doorbell 0 0

/-- The offset of `usbsts` in `OperationalRegisters`. -/
def usbstsOffset : ℕ := 4

/-- The bits of USBSTS that `notify_ep` is to clear. -/
def toClear : BitVec 32 := (1 <<< 2) ||| (1 <<< 3) ||| (1 <<< 4)

/-- `notify_ep` rings the doorbell of a slot for an endpoint, and writes USBSTS back. -/
def notifyEp (slot : BitVec 8) (dci : ℕ) : Method (Driver σ) Unit := do
  let self ← get
  match self.regs.doorbellRegs[slot.toNat]? with
  | none => throw (.err "Invalid slot")
  | some db =>
    if dci < 256 then
      -- the doorbell first, then the bits of USBSTS that are cleared by writing
      notify w db (BitVec.ofNat 8 dci) 0
      let sts ← readReg w (self.regs.opRegs + usbstsOffset)
      writeReg w (self.regs.opRegs + usbstsOffset) (sts &&& ~~~toClear)
    else
      throw (.err "dci out of range")

/-- `send_command`, which returns the event for the command. The input context is the one that
the command points to. -/
def sendCommand (cmd : GenericTrbEntry) (input : Option InputContext) :
    Method (Driver σ) GenericTrbEntry := do
  let _ ← pushCommand cmd
  -- the controller reads the input context when it is told about the command
  modify fun self => { self with commands := { trb := cmd, input } :: self.commands }
  notifyXhc w
  return (← awaitEvent w).1

/-! ## Control transfers -/

/-- A control transfer without a data stage, which the requests below share. -/
def controlNoData (slot : BitVec 8) (ctrlEpRing : ℕ) (setup : SetupStageTrb) :
    Method (Driver σ) Unit := do
  let _ ← push ctrlEpRing setup.toGeneric
  -- there is no data stage, so the status goes to the host
  let _ ← push ctrlEpRing StatusStageTrb.newIn.toGeneric
  notifyEp w slot 1
  let (trb, _) ← awaitEvent w
  lift trb.transferResultOk

/-- `request_set_config` selects a configuration of the device. -/
def requestSetConfig (slot : BitVec 8) (ctrlEpRing : ℕ) (configValue : BitVec 8) :
    Method (Driver σ) Unit :=
  controlNoData w slot ctrlEpRing
    (.new 0 SetupStageTrb.reqSetConfiguration (configValue.setWidth 16) 0 0)

/-- `bulk_only_mass_storage_reset` makes the device ready for the next command. -/
def bulkOnlyMassStorageReset (slot : BitVec 8) (ctrlEpRing : ℕ) : Method (Driver σ) Unit :=
  controlNoData w slot ctrlEpRing
    (.new (SetupStageTrb.reqTypeDirHostToDevice ||| SetupStageTrb.reqTypeTypeClass |||
      SetupStageTrb.reqTypeToInterface) 0xFF 0 0 0)

/-- The feature by which a halted endpoint is told. -/
def featureEndpointHalt : BitVec 16 := 0

/-- `clear_endpoint_halt` tells the device to go on with an endpoint. -/
def clearEndpointHalt (slot : BitVec 8) (ctrlEpRing : ℕ) (endpointAddress : BitVec 8) :
    Method (Driver σ) Unit :=
  controlNoData w slot ctrlEpRing
    (.new (SetupStageTrb.reqTypeDirHostToDevice ||| SetupStageTrb.reqTypeToEndpoint)
      SetupStageTrb.reqClearFeature featureEndpointHalt (endpointAddress.setWidth 16) 0)

/-- The contents of a zeroed buffer after a transfer has put bytes into it. -/
def filled (buf : PinnedSlice) (received : List (BitVec 8)) : List (BitVec 8) :=
  received.take buf.byteLen ++ List.replicate (buf.byteLen - received.length) 0

/-- `request_descriptor`, which returns the contents of the buffer. -/
def requestDescriptor (slot : BitVec 8) (ctrlEpRing : ℕ) (descType : UsbDescriptorType)
    (descIndex : BitVec 8) (langId : BitVec 16) (buf : PinnedSlice) :
    Method (Driver σ) (List (BitVec 8)) := do
  let _ ← push ctrlEpRing (descriptorSetup descType descIndex langId buf).toGeneric
  let _ ← push ctrlEpRing (DataStageTrb.newIn buf).toGeneric
  -- the data went to the host, so the status goes to the device
  let _ ← push ctrlEpRing StatusStageTrb.newOut.toGeneric
  notifyEp w slot 1
  let (trb, received) ← awaitEvent w
  lift trb.transferResultOk
  return filled buf received

/-! ## Doorbells -/

section Doorbells

variable {w} {d : Driver σ} {slot : BitVec 8} {dci db : ℕ}

/-- The call `notify_ep(slot, dci)` returns, and has stored to the doorbell of the slot and then
to USBSTS. -/
def NotifiesEp (w : World σ) (bar0 : ℕ) (slot : BitVec 8) (dci : ℕ) (d : Driver σ) : Prop :=
  ∃ d' sts, notifyEp w slot dci d = .ok () d' ∧
    d'.stores = (d.regs.opRegs + usbstsOffset, sts) ::
      (bar0 + d.regs.capRegs.dboff + 4 * slot.toNat, BitVec.ofNat 32 dci) :: d.stores

/-- What is done for a slot with a doorbell. -/
theorem run_notifyEp (hdb : d.regs.doorbellRegs[slot.toNat]? = some db) (hdci : dci < 256) :
    notifyEp w slot dci d = (do
      notify w db (BitVec.ofNat 8 dci) 0
      let sts ← readReg w (d.regs.opRegs + usbstsOffset)
      writeReg w (d.regs.opRegs + usbstsOffset) (sts &&& ~~~toClear) :
        Method (Driver σ) Unit) d := by
  rw [notifyEp, Method.run_get_bind, hdb]
  exact congrFun (if_pos hdci) d

/-- A slot with a doorbell is notified. -/
theorem notifyEp_of_some (hdb : d.regs.doorbellRegs[slot.toNat]? = some db) (hdci : dci < 256) :
    ∃ hardware sts, notifyEp w slot dci d = .ok ()
      { d with
        hardware
        stores := (d.regs.opRegs + usbstsOffset, sts) :: (db, BitVec.ofNat 32 dci) ::
          d.stores } := by
  -- the task is 0, so the value is the DCI alone
  have htarget : (BitVec.ofNat 8 dci).setWidth 32 ||| (0 : BitVec 16).setWidth 32 <<< 16 =
      BitVec.ofNat 32 dci := by
    rw [show (0 : BitVec 16).setWidth 32 <<< 16 = 0#32 from rfl, BitVec.or_zero]
    apply BitVec.eq_of_toNat_eq
    simp only [BitVec.toNat_setWidth, BitVec.toNat_ofNat]
    omega
  rw [run_notifyEp hdb hdci, notify, htarget]
  exact ⟨_, _, rfl⟩

/-- A slot without a doorbell is not notified. -/
theorem notifyEp_of_none (hdb : d.regs.doorbellRegs[slot.toNat]? = none) :
    notifyEp w slot dci d = .error (.err "Invalid slot") d := by
  rw [notifyEp, Method.run_get_bind, hdb]
  rfl

/-- A slot can be notified exactly when its number is at most the number of ports, whatever the
number of slots is that the controller may assign. -/
theorem notifyEp_iff {bar0 : ℕ} {capRegs : CapabilityRegisters}
    (hregs : setupXhcRegisters bar0 capRegs = .ok d.regs) (slot : BitVec 8) (hdci : dci ≤ 31) :
    NotifiesEp w bar0 slot dci d ↔ slot.toNat ≤ capRegs.numOfPorts := by
  -- the list of doorbells has one entry for each port, and one for the commands
  have hplaced : d.regs = .placed bar0 capRegs := by
    rw [setupXhcRegisters_eq] at hregs
    exact (Except.ok.inj hregs).symm
  have hdb := XhcRegisters.doorbellRegs_placed bar0 capRegs slot.toNat
  rw [← hplaced] at hdb
  constructor
  · rintro ⟨d', sts, hrun, -⟩
    by_contra hports
    rw [if_neg hports] at hdb
    rw [notifyEp_of_none hdb] at hrun
    cases hrun
  · intro hports
    rw [if_pos hports] at hdb
    obtain ⟨hardware, sts, hrun⟩ := notifyEp_of_some (w := w) hdb (show dci < 256 by omega)
    exact ⟨_, sts, hrun, by rw [hplaced]; rfl⟩

/-- The capability registers of a controller with 8 ports and 64 slots. -/
def eightPorts : CapabilityRegisters where
  caplengthReg := 0x80
  hcsparams1 := 0x08000140
  hcsparams2 := 0
  dboffReg := 0x3000
  rtsoffReg := 0x2000

/-- The driver of that controller. -/
def startEightPorts : Driver Unit := .start (.placed 0x10000 eightPorts) ⟨0x3000, rfl⟩ ()

theorem notifyEp_iff_first :
    NotifiesEp (.steady 0 .default) 0x10000 1 3 startEightPorts ↔ 1 ≤ eightPorts.numOfPorts :=
  notifyEp_iff (d := startEightPorts) (setupXhcRegisters_eq 0x10000 eightPorts) 1
    (show 3 ≤ 31 by decide)

/-- Slot 9 of 64 may be assigned where there are 8 ports, but it has no doorbell. -/
theorem not_notifyEp_ninth :
    9 ≤ eightPorts.numOfDeviceSlots ∧
      ¬NotifiesEp (.steady 0 .default) 0x10000 9 3 startEightPorts := by
  have hdb : startEightPorts.regs.doorbellRegs[(9 : BitVec 8).toNat]? = none := by decide
  refine ⟨by decide, ?_⟩
  rintro ⟨d', sts, hrun, -⟩
  rw [notifyEp_of_none hdb] at hrun
  cases hrun

end Doorbells

end Driver

end Mushix
