import Mathlib.Logic.Function.Basic
import Mushix.Volatile

/-!
# Device and input contexts

The contexts by which the program tells the controller about a slot (`xhci.rs`).

* `EndpointContext.newControlEndpoint`, `EndpointContext.newBulkEndpoint`: the context of an
  endpoint;
* `InputControlContext.addContext`: the flags of the contexts that a command is about;
* `InputContext.setEpCtx`, `InputContext.setLastValidDci`: the parts of an input context.
-/

namespace Mushix

/-- `word &= !(mask << shift); word |= value << shift`, which the setters of the contexts do with
their own mask and shift. -/
def replaceField (word mask : BitVec 32) (shift : ℕ) (value : BitVec 32) : BitVec 32 :=
  (word &&& ~~~(mask <<< shift)) ||| value <<< shift

/-- The kinds of endpoints that the program uses. -/
inductive EndpointType where
  | isochOut
  | bulkOut
  | interruptOut
  | control
  | isochIn
  | bulkIn
  | interruptIn
  deriving DecidableEq, Repr

/-- The number of a kind of endpoints. -/
def EndpointType.toU32 : EndpointType → BitVec 32
  | isochOut => 1
  | bulkOut => 2
  | interruptOut => 3
  | control => 4
  | isochIn => 5
  | bulkIn => 6
  | interruptIn => 7

/-- What the controller is told about an endpoint. -/
structure EndpointContext where
  /-- The first word, with Mult. -/
  data0 : BitVec 32
  /-- The second word, with the error count, the type and the sizes of bursts and packets. -/
  data1 : BitVec 32
  trDequePtr : BitVec 64
  averageTrbLength : BitVec 16
  maxEsitPayloadLow : BitVec 16
  deriving DecidableEq, Repr

namespace EndpointContext

/-- A context of zeros. -/
def new : EndpointContext :=
  { data0 := 0, data1 := 0, trDequePtr := 0, averageTrbLength := 0, maxEsitPayloadLow := 0 }

/-- `set_max_burst_size` writes the size of a burst, which has at most four bits, from bit 8 of the
second word on. -/
def setMaxBurstSize (self : EndpointContext) (burstSize : BitVec 8) :
    Except Fault EndpointContext :=
  if burstSize ≤ 15 then
    .ok { self with
      data1 := replaceField self.data1 0xF 8 (burstSize.setWidth 32) }
  else
    .error (.err "Invalid max burst size")

/-- `set_ring_deque_pointer` writes the address of the transfer ring, bits 4 to 63 of the dequeue
pointer. -/
def setRingDequePointer (self : EndpointContext) (trDequePtr : BitVec 64) :
    Except Fault EndpointContext :=
  -- bits 0 to 3 of the address are not stored: they are the cycle state and reserved
  match Volatile.writeBits self.trDequePtr 4 60 (trDequePtr >>> 4) with
  | .ok trDequePtr => .ok { self with trDequePtr }
  | .error msg => .error (.err msg)

/-- `set_max_packet_size` writes the upper half of the second word. -/
def setMaxPacketSize (self : EndpointContext) (maxPacketSize : BitVec 16) : EndpointContext :=
  { self with
    data1 := replaceField self.data1 0xffff 16 (maxPacketSize.setWidth 32) }

/-- `set_error_count` writes how often a transfer is tried, bits 1 and 2 of the second word. -/
def setErrorCount (self : EndpointContext) (errorCount : BitVec 32) :
    Except Fault EndpointContext :=
  if errorCount &&& ~~~0b11 = 0 then
    .ok { self with data1 := replaceField self.data1 0b11 1 errorCount }
  else
    .error (.err "Invalid error count")

/-- `set_dequeue_cycle_state` writes the cycle bit of the first TRB, bit 0 of the dequeue pointer.
-/
def setDequeueCycleState (self : EndpointContext) (dcs : Bool) : Except Fault EndpointContext :=
  match Volatile.writeBits self.trDequePtr 0 1 (dcs.toNat : BitVec 64) with
  | .ok trDequePtr => .ok { self with trDequePtr }
  | .error msg => .error (.err msg)

/-- `set_ep_type` writes the kind of the endpoint, bits 3 to 5 of the second word. -/
def setEpType (self : EndpointContext) (epType : EndpointType) : Except Fault EndpointContext :=
  let rawEpType := epType.toU32
  if rawEpType < 8 then
    .ok { self with data1 := replaceField self.data1 0b111 3 rawEpType }
  else
    .error (.err "Invalid endpoint type")

/-- `new_control_endpoint` makes the context of the default control endpoint with its transfer ring.
-/
def newControlEndpoint (maxPacketSize : BitVec 16) (trDequePtr : BitVec 64) :
    Except Fault EndpointContext := do
  let ep ← new.setEpType .control
  let ep ← ep.setDequeueCycleState true
  let ep ← ep.setErrorCount 3
  let ep := ep.setMaxPacketSize maxPacketSize
  let ep ← ep.setRingDequePointer trDequePtr
  return { ep with averageTrbLength := 8 }

/-- `new_bulk_endpoint` makes the context of a bulk endpoint with its transfer ring. -/
def newBulkEndpoint (maxPacketSize : BitVec 16) (trDequePtr : BitVec 64)
    (epType : EndpointType) : Except Fault EndpointContext := do
  let ep ← new.setEpType epType
  let ep ← ep.setDequeueCycleState true
  let ep ← ep.setErrorCount 3
  let ep := ep.setMaxPacketSize maxPacketSize
  let ep ← ep.setRingDequePointer trDequePtr
  let ep := { ep with averageTrbLength := maxPacketSize }
  let ep ← ep.setMaxBurstSize 0
  -- `mult` is cleared and set to 0
  let ep := { ep with data0 := ep.data0 &&& ~~~(0x3#32 <<< 0) }
  return { ep with data0 := ep.data0 ||| 0 <<< 0 }

end EndpointContext

/-- How fast a port is. -/
inductive UsbMode where
  | unknown (psi : BitVec 32)
  | fullSpeed
  | lowSpeed
  | highSpeed
  | superSpeed
  deriving DecidableEq, Repr

/-- The number of a speed in the registers of a port. -/
def UsbMode.psi : UsbMode → BitVec 32
  | fullSpeed => 1
  | lowSpeed => 2
  | highSpeed => 3
  | superSpeed => 4
  | unknown psi => psi

/-- The slot context of a device, and the contexts of its endpoints by DCI. -/
structure DeviceContext where
  slotCtx : Fin 8 → BitVec 32
  epCtx : Fin 31 → EndpointContext

namespace DeviceContext

/-- `set_port_speed` writes the speed, bits 20 to 23 of the first word. -/
def setPortSpeed (self : DeviceContext) (mode : UsbMode) : Except Fault DeviceContext :=
  if mode.psi < 16 then
    .ok { self with
      slotCtx := Function.update self.slotCtx 0
        (replaceField (self.slotCtx 0) 0xF 20 mode.psi) }
  else
    .error (.err "Invalid port speed")

/-- `set_last_valid_dci` writes Context Entries, bits 27 to 31 of the first word. -/
def setLastValidDci (self : DeviceContext) (dci : ℕ) : Except Fault DeviceContext :=
  if dci ≤ 31 then
    .ok { self with
      slotCtx := Function.update self.slotCtx 0
        (replaceField (self.slotCtx 0) 0b11111 27 (BitVec.ofNat 32 dci)) }
  else
    .error (.err "num_ep_ctx out of range")

/-- `set_root_hub_port_number` writes the port, bits 16 to 23 of the second word. -/
def setRootHubPortNumber (self : DeviceContext) (port : ℕ) : Except Fault DeviceContext :=
  if 0 < port ∧ port < 256 then
    .ok { self with
      slotCtx := Function.update self.slotCtx 1
        (replaceField (self.slotCtx 1) 0xff 16 (BitVec.ofNat 32 port)) }
  else
    .error (.err "Port out of range")

end DeviceContext

/-- The fields of the slot context that are written. -/
inductive SlotField where
  | portSpeed
  | contextEntries
  | rootHubPortNumber
  deriving DecidableEq

namespace SlotField

def word : SlotField → Fin 8
  | portSpeed => 0
  | contextEntries => 0
  | rootHubPortNumber => 1

def shift : SlotField → ℕ
  | portSpeed => 20
  | contextEntries => 27
  | rootHubPortNumber => 16

def width : SlotField → ℕ
  | portSpeed => 4
  | contextEntries => 5
  | rootHubPortNumber => 8

end SlotField

/-- Which contexts a command removes and adds. -/
structure InputControlContext where
  dropContextBitmap : BitVec 32
  addContextBitmap : BitVec 32
  deriving DecidableEq, Repr

namespace InputControlContext

/-- No context is to be changed. -/
def default : InputControlContext := { dropContextBitmap := 0, addContextBitmap := 0 }

/-- `add_context` sets the bit of a context that is to be added. -/
def addContext (self : InputControlContext) (ici : ℕ) : Except Fault InputControlContext :=
  if ici < 32 then
    .ok { self with addContextBitmap := self.addContextBitmap ||| 1#32 <<< ici }
  else
    .error (.err "Input context index out of range")

end InputControlContext

/-- A command reads which contexts it shall change, and to what. -/
structure InputContext where
  inputCtrlCtx : InputControlContext
  deviceCtx : DeviceContext

namespace InputContext

/-- An input context of zeros. -/
def default : InputContext :=
  { inputCtrlCtx := .default
    deviceCtx := { slotCtx := fun _ => 0, epCtx := fun _ => EndpointContext.new } }

/-- `set_ep_ctx` stores the context of the endpoint with a DCI, which has the index of the DCI less
1. -/
def setEpCtx (self : InputContext) (dci : ℕ) (epCtx : EndpointContext) :
    Except Fault InputContext :=
  -- `self.device_ctx.ep_ctx[dci - 1]`
  if dci = 0 then
    .error (.panic "attempt to subtract with overflow")
  else if h : dci - 1 < 31 then
    .ok { self with
      deviceCtx :=
        { self.deviceCtx with
          epCtx := Function.update self.deviceCtx.epCtx ⟨dci - 1, h⟩ epCtx } }
  else
    .error (.panic "index out of bounds")

/-- `set_input_ctrl_ctx` replaces the control context. -/
def setInputCtrlCtx (self : InputContext) (inputCtrlCtx : InputControlContext) : InputContext :=
  { self with inputCtrlCtx }

/-- `set_port_speed` of the device context inside. -/
def setPortSpeed (self : InputContext) (psi : UsbMode) : Except Fault InputContext := do
  return { self with deviceCtx := ← self.deviceCtx.setPortSpeed psi }

/-- `set_root_hub_port_number` of the device context inside. -/
def setRootHubPortNumber (self : InputContext) (port : ℕ) : Except Fault InputContext := do
  return { self with deviceCtx := ← self.deviceCtx.setRootHubPortNumber port }

/-- `set_last_valid_dci` of the device context inside. -/
def setLastValidDci (self : InputContext) (dci : ℕ) : Except Fault InputContext := do
  return { self with deviceCtx := ← self.deviceCtx.setLastValidDci dci }

/-- The Context Entries field of the slot context, bits 27 to 31 of its first word. -/
def contextEntries (self : InputContext) : ℕ :=
  (Volatile.readBits (self.deviceCtx.slotCtx 0) 27 5).toNat

end InputContext

/-! ## What the setters do -/

/-- The field that was replaced is read back. -/
theorem readBits_replaceField {word value : BitVec 32} {shift width : ℕ} (hwidth : width < 32)
    (hshift : shift + width ≤ 32) (hvalue : BitField.lowMask 32 width &&& value = value) :
    Volatile.readBits (replaceField word (BitField.lowMask 32 width) shift value) shift width =
      value := by
  rw [replaceField, BitVec.or_comm]
  exact BitField.shiftRight_replace hwidth hshift hvalue

namespace EndpointContext

/-- Shifted down by 4, an address has 60 bits. -/
theorem lowMask_and_address (ptr : BitVec 64) :
    BitField.lowMask 64 60 &&& (ptr >>> 4) = ptr >>> 4 := by
  apply BitVec.eq_of_getLsbD_eq
  intro i hi
  rw [BitVec.getLsbD_and, BitField.getLsbD_lowMask (by decide), BitVec.getLsbD_ushiftRight]
  rcases Nat.lt_or_ge i 60 with hlt | hge
  · simp [hlt]
  · rw [BitVec.getLsbD_of_ge ptr _ (by omega), Bool.and_false]

/-- The address of a ring fits into the field of the context. -/
theorem setRingDequePointer_isOk (self : EndpointContext) (ptr : BitVec 64) :
    ∃ ep, self.setRingDequePointer ptr = .ok ep := by
  rw [setRingDequePointer, Volatile.writeBits_of_fits (lowMask_and_address ptr)]
  exact ⟨_, rfl⟩

/-- The cycle state is one bit. -/
theorem setDequeueCycleState_true_isOk (self : EndpointContext) :
    ∃ ep, self.setDequeueCycleState true = .ok ep := by
  have hone : BitField.lowMask 64 1 &&& 1 = 1 := rfl
  have hwrite := Volatile.writeBits_of_fits hone self.trDequePtr 0
  simp only [setDequeueCycleState, Bool.toNat_true, Nat.cast_one, hwrite]
  exact ⟨_, rfl⟩

/-- The setters that the constructors share never fail. -/
theorem setters_isOk (maxPacketSize : BitVec 16) (ptr : BitVec 64) (epType : EndpointType) :
    ∃ ep₁ ep₂ ep₃ ep₄, new.setEpType epType = .ok ep₁ ∧ ep₁.setDequeueCycleState true = .ok ep₂ ∧
      ep₂.setErrorCount 3 = .ok ep₃ ∧
      (ep₃.setMaxPacketSize maxPacketSize).setRingDequePointer ptr = .ok ep₄ := by
  have htype : ∃ ep, new.setEpType epType = .ok ep := by
    cases epType <;> exact ⟨_, rfl⟩
  obtain ⟨ep, hep⟩ := htype
  obtain ⟨ep', hep'⟩ := setDequeueCycleState_true_isOk ep
  obtain ⟨ep'', hep''⟩ : ∃ ep'', ep'.setErrorCount 3 = .ok ep'' := ⟨_, rfl⟩
  obtain ⟨ring, hring⟩ := setRingDequePointer_isOk (ep''.setMaxPacketSize maxPacketSize) ptr
  exact ⟨ep, ep', ep'', ring, hep, hep', hep'', hring⟩

/-- A context for the default control endpoint can always be built. -/
theorem newControlEndpoint_isOk (maxPacketSize : BitVec 16) (ptr : BitVec 64) :
    ∃ ep, newControlEndpoint maxPacketSize ptr = .ok ep := by
  obtain ⟨ep₁, ep₂, ep₃, ep₄, h₁, h₂, h₃, h₄⟩ := setters_isOk maxPacketSize ptr .control
  simp only [newControlEndpoint, bind, Except.bind, h₁, h₂, h₃, h₄]
  exact ⟨_, rfl⟩

/-- A context for a bulk endpoint can always be built. -/
theorem newBulkEndpoint_isOk (maxPacketSize : BitVec 16) (ptr : BitVec 64)
    (epType : EndpointType) : ∃ ep, newBulkEndpoint maxPacketSize ptr epType = .ok ep := by
  obtain ⟨ep₁, ep₂, ep₃, ep₄, h₁, h₂, h₃, h₄⟩ := setters_isOk maxPacketSize ptr epType
  simp only [newBulkEndpoint, bind, Except.bind, h₁, h₂, h₃, h₄]
  exact ⟨_, rfl⟩

end EndpointContext

theorem InputControlContext.addContext_of_lt {ctx : InputControlContext} {ici : ℕ} (h : ici < 32) :
    ctx.addContext ici =
      .ok { ctx with addContextBitmap := ctx.addContextBitmap ||| 1#32 <<< ici } :=
  if_pos h

/-- The context of an endpoint with a valid DCI is stored. -/
theorem InputContext.setEpCtx_of_lt {ctx : InputContext} {dci : ℕ} (hpos : 1 ≤ dci)
    (h : dci - 1 < 31) (epCtx : EndpointContext) : ctx.setEpCtx dci epCtx = .ok
      { ctx with
        deviceCtx :=
          { ctx.deviceCtx with
            epCtx := Function.update ctx.deviceCtx.epCtx ⟨dci - 1, h⟩ epCtx } } := by
  rw [InputContext.setEpCtx, if_neg (by omega), dif_pos h]

namespace InputContext

variable {self : InputContext} {dci : ℕ}

/-- The last valid DCI is the Context Entries field. -/
theorem setLastValidDci_eq (self : InputContext) (h : dci ≤ 31) :
    ∃ ctx, self.setLastValidDci dci = .ok ctx ∧ ctx.contextEntries = dci ∧
      ctx.inputCtrlCtx = self.inputCtrlCtx ∧ ctx.deviceCtx.epCtx = self.deviceCtx.epCtx := by
  let word := replaceField (self.deviceCtx.slotCtx 0) 0b11111 27 (BitVec.ofNat 32 dci)
  let ctx : InputContext :=
    { self with
      deviceCtx :=
        { self.deviceCtx with slotCtx := Function.update self.deviceCtx.slotCtx 0 word } }
  refine ⟨ctx, ?_, ?_, rfl, rfl⟩
  · rw [setLastValidDci, DeviceContext.setLastValidDci, if_pos h]
    rfl
  · have hvalue : BitField.lowMask 32 5 &&& BitVec.ofNat 32 dci = BitVec.ofNat 32 dci := by
      apply BitVec.eq_of_toNat_eq
      rw [BitVec.and_comm, BitField.toNat_and_lowMask (by decide), BitVec.toNat_ofNat]
      omega
    -- Context Entries has five bits, and a DCI up to 31 fits into them
    have hmask : (0b11111 : BitVec 32) = BitField.lowMask 32 5 := by decide
    have hfield : Volatile.readBits word 27 5 = BitVec.ofNat 32 dci := by
      simp only [word, hmask]
      exact readBits_replaceField (by decide) (by decide) hvalue
    have hslot : ctx.deviceCtx.slotCtx 0 = word :=
      Function.update_self (β := fun _ => BitVec 32) 0 word self.deviceCtx.slotCtx
    rw [contextEntries, hslot, hfield, BitVec.toNat_ofNat, Nat.mod_eq_of_lt (by omega)]

/-- There is no context for DCI 0. -/
theorem setEpCtx_zero (epCtx : EndpointContext) :
    self.setEpCtx 0 epCtx = .error (.panic "attempt to subtract with overflow") := rfl

end InputContext

end Mushix
