import Mushix.Xhci.DriverSafe

/-!
# Ports

How the program brings up a port (`xhci.rs`): the port is reset, a slot is enabled for it and the
device behind it gets an address.

* `Driver.resetPort`: the reset, which awaits two bits of the port;
* `Driver.initPort`, `Driver.addressDevice`: the slot and the address.
-/

namespace Mushix

/-- The bits of PORTSC that may be written back as they are. -/
def preserveMask : BitVec 32 := 0b01001111000000011111111111101001

namespace Driver

variable {σ : Type} (w : World σ)

/-! ## The register of a port -/

/-- A read of PORTSC. -/
def portValue (entry : ℕ) : Method (Driver σ) (BitVec 32) := readReg w entry

/-- Whether a bit of PORTSC is 1. -/
def portBit (entry pos : ℕ) : Method (Driver σ) Bool := do
  return ((← portValue w entry) &&& 1#32 <<< pos) != 0

/-- `assert_bit` sets a bit of PORTSC and preserves all others that can be. -/
def assertBit (entry pos : ℕ) : Method (Driver σ) Unit := do
  let old ← readReg w entry
  -- the bits that are cleared by writing 1 are not written back
  writeReg w entry ((old &&& preserveMask) ||| 1#32 <<< pos)

/-- A device is connected. -/
def ccs (entry : ℕ) : Method (Driver σ) Bool := portBit w entry 0

/-- The port is enabled. -/
def ped (entry : ℕ) : Method (Driver σ) Bool := portBit w entry 1

/-- The port is in a reset. -/
def pr (entry : ℕ) : Method (Driver σ) Bool := portBit w entry 4

/-- The port has power. -/
def pp (entry : ℕ) : Method (Driver σ) Bool := portBit w entry 9

/-- The port gets power. -/
def assertPp (entry : ℕ) : Method (Driver σ) Unit := assertBit w entry 9

/-- The reset of the port begins. -/
def assertPr (entry : ℕ) : Method (Driver σ) Unit := assertBit w entry 4

/-- `while !cond { yield_execution().await }` for a number of rounds: whether `cond` came to
hold. -/
def waitUntil (cond : Method (Driver σ) Bool) : ℕ → Method (Driver σ) Bool
  | 0 => return false
  | rounds + 1 => do
    if ← cond then
      return true
    else
      waitUntil cond rounds

/-- `reset_port`, which awaits the port for a number of rounds: whether it has come to its end. -/
def resetPort (entry rounds : ℕ) : Method (Driver σ) Bool := do
  assertPp w entry
  if ← waitUntil (pp w entry) rounds then
    assertPr w entry
    waitUntil (do return !(← pr w entry)) rounds
  else
    return false

/-- The port has power, a device is connected, and the port is enabled and not in a reset. -/
def isEnabled (entry : ℕ) : Method (Driver σ) Bool := do
  -- each bit is read by itself, after the ones before it were set
  if ← pp w entry then
    if ← ccs w entry then
      if ← ped w entry then
        return !(← pr w entry)
      else
        return false
    else
      return false
  else
    return false

/-- The speed of the port, from bits 10 to 13 of PORTSC. -/
def portSpeed (entry : ℕ) : Method (Driver σ) UsbMode := do
  let speed := extractBits (← portValue w entry) 10 4
  return if speed = 1 then .fullSpeed
    else if speed = 2 then .lowSpeed
    else if speed = 3 then .highSpeed
    else if speed = 4 then .superSpeed
    else .unknown speed

/-- The size of the packets of the default control endpoint at the speed of the port. -/
def maxPacketSize (entry : ℕ) : Method (Driver σ) (BitVec 16) := do
  match ← portSpeed w entry with
  | .fullSpeed | .lowSpeed => return 8
  | .highSpeed => return 64
  | .superSpeed => return 512
  | .unknown _ => throw (.err "unknown Protocol Speed ID")

/-- `PortSc::get` finds the register of a port, whose number begins with 1. -/
def portGet (port : ℕ) (msg : String) : Method (Driver σ) ℕ := do
  -- `self.entries.get(port.wrapping_sub(1))`
  okOr ((← get).regs.portsc[(port + (2 ^ 64 - 1)) % 2 ^ 64]?) msg

/-! ## Slots and addresses -/

/-- `init_port`, which awaits the reset for a number of rounds. It returns the slot, or nothing
where the reset has not come to its end. -/
def initPort (port rounds : ℕ) : Method (Driver σ) (Option (BitVec 8)) := do
  let portsc ← portGet port "Port not found"
  if ← resetPort w portsc rounds then
    if ← isEnabled w portsc then
      -- the completion code of the event is not looked at
      let event ← sendCommand w GenericTrbEntry.cmdEnableSlot none
      return some event.slotId
    else
      throw (.err "Port is not enabled")
  else
    return none

/-- `set_output_context_for_slot` gives a slot the context that the controller will write. -/
def setOutputContextForSlot (slot : BitVec 8) (outputContext : BitVec 64) :
    Method (Driver σ) Unit :=
  if h : slot.toNat = 0 then
    throw (.panic "attempt to subtract with overflow")
  else
    modify fun self =>
      { self with
        outputContexts := Function.update self.outputContexts
          ⟨slot.toNat - 1, by have := slot.isLt; omega⟩ (some outputContext) }

/-- The part of the input context of `address_device` that is there before the port is read. -/
def addressInputContext (port : ℕ) : Except Fault InputContext := do
  let inputCtrlCtx ← InputControlContext.default.addContext 0
  let inputCtrlCtx ← inputCtrlCtx.addContext 1
  let inputContext := InputContext.default.setInputCtrlCtx inputCtrlCtx
  let inputContext ← inputContext.setRootHubPortNumber port
  inputContext.setLastValidDci 1

/-- `address_device`, which returns the ring of the default control endpoint. -/
def addressDevice (port : ℕ) (slot : BitVec 8) : Method (Driver σ) ℕ := do
  let outputContext ← newPage w
  setOutputContextForSlot slot outputContext.addr
  let inputContext ← lift (addressInputContext port)
  let portsc ← portGet port "PORTSC was invalid"
  let speed ← portSpeed w portsc
  let inputContext ← lift (inputContext.setPortSpeed speed)
  let ctrlEpRing ← newRing w
  -- PORTSC is read once more, for the packet size
  let maxPacketSize ← maxPacketSize w portsc
  let ringPhysAddr := ((← get).rings ctrlEpRing).ringPhysAddr
  let epCtx ← lift (EndpointContext.newControlEndpoint maxPacketSize ringPhysAddr)
  let inputContext ← lift (inputContext.setEpCtx 1 epCtx)
  let page ← newPage w
  let result ← sendCommand w (GenericTrbEntry.cmdAddressDevice page.addr slot) (some inputContext)
  lift result.cmdResultOk
  return ctrlEpRing

/-- The first two steps of `run` for a port that is connected. -/
def bringUpPort (port rounds : ℕ) : Method (Driver σ) (Option ℕ) := do
  match ← initPort w port rounds with
  | some slot =>
    let ctrlEpRing ← addressDevice w port slot
    return some ctrlEpRing
  | none => return none

end Driver

end Mushix
