import Mushix.Xhci.ScsiRead

/-!
# Mass storage devices

How the program finds the bulk endpoints of a mass storage device in its descriptors and
configures them (`xhci.rs`).

* `scanEndpoints`: the search for endpoints;
* `Driver.configureBulkEndpoint`: the configuration of one endpoint;
* `Driver.handleMassStorageDevice`: all of it, up to reading the first sector.
-/

namespace Mushix

/-- The condition of `run` on an interface: mass storage, SCSI commands and bulk-only transport. -/
def InterfaceDescriptor.isMassStorage (interface : InterfaceDescriptor) : Prop :=
  interface.interfaceClass = 8 ∧ interface.interfaceSubclass = 6 ∧
    interface.interfaceProtocol = 0x50

instance (interface : InterfaceDescriptor) : Decidable interface.isMassStorage :=
  inferInstanceAs (Decidable (_ ∧ _))

namespace EndpointDescriptor

/-- `attributes & 0x03 == 2`: a bulk endpoint. -/
def isBulk (ep : EndpointDescriptor) : Prop := ep.attributes &&& 0x03#8 = 2#8

instance (ep : EndpointDescriptor) : Decidable ep.isBulk := inferInstanceAs (Decidable (_ = _))

/-- `endpoint_address & 0x80 != 0`: an IN endpoint. -/
def isIn (ep : EndpointDescriptor) : Prop := ep.endpointAddress &&& 0x80#8 ≠ 0#8

instance (ep : EndpointDescriptor) : Decidable ep.isIn := inferInstanceAs (Decidable (_ ≠ _))

/-- `endpoint_address & 0x0F`: the number of the endpoint. -/
def number (ep : EndpointDescriptor) : ℕ := (ep.endpointAddress &&& 0x0F#8).toNat

end EndpointDescriptor

/-- `&EndpointDescriptor` into a slice of descriptors: the place in the slice and what is there. -/
structure EndpointRef where
  index : ℕ
  desc : EndpointDescriptor
  deriving DecidableEq, Repr

/-- The variables of the search for endpoints. -/
structure EndpointScan where
  bulkInEp : Option EndpointRef
  bulkOutEp : Option EndpointRef
  lastConfig : Option ConfigDescriptor
  usbInterface : Option InterfaceDescriptor
  epDescList : List EndpointDescriptor

namespace EndpointScan

/-- The variables before the search. -/
def empty : EndpointScan :=
  { bulkInEp := none
    bulkOutEp := none
    lastConfig := none
    usbInterface := none
    epDescList := [] }

/-- The arm for an endpoint descriptor. -/
def visitEndpoint (self : EndpointScan) (index : ℕ) (ep : EndpointDescriptor) : EndpointScan :=
  let self :=
    if ep.isBulk then
      if ep.isIn then
        { self with bulkInEp := some { index, desc := ep } }
      else
        { self with bulkOutEp := some { index, desc := ep } }
    else
      self
  { self with epDescList := self.epDescList ++ [ep] }

/-- The search over the descriptors from a place on. -/
def visit : ℕ → List UsbDescriptor → EndpointScan → EndpointScan
  | _, [], self => self
  | index, desc :: rest, self =>
    match desc with
    | .config ep =>
      -- `break` at the configuration after the one with an interface
      if self.usbInterface.isSome then
        self
      else
        visit (index + 1) rest { self with lastConfig := some ep, epDescList := [] }
    | .interface e => visit (index + 1) rest { self with usbInterface := some e }
    | .endpoint ep => visit (index + 1) rest (self.visitEndpoint index ep)
    | .unknown _ _ => visit (index + 1) rest self

end EndpointScan

/-- The loop of `handle_mass_storage_device` over the descriptors. -/
def scanEndpoints (descriptors : List UsbDescriptor) : EndpointScan :=
  EndpointScan.visit 0 descriptors EndpointScan.empty

/-- The endpoints that `handle_mass_storage_device` has chosen, and their DCIs. -/
structure BulkEndpoints where
  bulkOut : EndpointRef
  bulkOutDci : ℕ
  bulkIn : EndpointRef
  bulkInDci : ℕ

/-- The input context of `configure_bulk_endpoint` for the address of the ring. -/
def bulkInputContext (epDesc : EndpointDescriptor) (dci : ℕ) (ringPhysAddr : BitVec 64) :
    Except Fault InputContext := do
  let inputCtrlCtx ← InputControlContext.default.addContext 0
  let inputCtrlCtx ← inputCtrlCtx.addContext dci
  let inputContext := InputContext.default.setInputCtrlCtx inputCtrlCtx
  let epType := if epDesc.isIn then EndpointType.bulkIn else EndpointType.bulkOut
  let epCtx ← EndpointContext.newBulkEndpoint epDesc.maxPacketSize ringPhysAddr epType
  let inputContext ← inputContext.setEpCtx dci epCtx
  let currentMaxDci := if dci > 1 then dci else 1
  inputContext.setLastValidDci (max dci currentMaxDci)

/-- The DCI of the bulk OUT endpoint, which may overflow. -/
def outDci (bulkOut : EndpointDescriptor) : Except Fault ℕ :=
  if ¬bulkOut.isIn then
    .ok (bulkOut.number * 2)
  else
    .error (.err "OUT endpoint has IN direction bit set")

/-- The DCI of the bulk IN endpoint, which may overflow. -/
def inDci (bulkIn : EndpointDescriptor) : Except Fault ℕ :=
  if bulkIn.isIn then
    .ok (bulkIn.number * 2 + 1)
  else
    .error (.err "IN endpoint has OUT direction bit set")

namespace Driver

variable {σ : Type} (w : World σ)

/-- `configure_bulk_endpoint`, which returns the ring of the endpoint. -/
def configureBulkEndpoint (slot : BitVec 8) (epDesc : EndpointDescriptor) (dci : ℕ) :
    Method (Driver σ) ℕ := do
  let epRing ← newRing w
  let ringPhysAddr := ((← get).rings epRing).ringPhysAddr
  let inputContext ← lift (bulkInputContext epDesc dci ringPhysAddr)
  let page ← newPage w
  let cmd := GenericTrbEntry.cmdConfigureEndpoint page.addr slot
  let result ← sendCommand w cmd (some inputContext)
  lift result.cmdResultOk
  return epRing

/-- `handle_mass_storage_device` up to where it configures the endpoints. -/
def selectBulkEndpoints (slot : BitVec 8) (ctrlEpRing : ℕ) (descriptors : List UsbDescriptor) :
    Method (Driver σ) BulkEndpoints := do
  let scan := scanEndpoints descriptors
  let configDesc ← okOr scan.lastConfig "Config descriptor not found"
  let _ ← okOr scan.usbInterface "Interface descriptor not found"
  let bulkIn ← okOr scan.bulkInEp "Bulk IN endpoint not found"
  let bulkOut ← okOr scan.bulkOutEp "Bulk OUT endpoint not found"
  requestSetConfig w slot ctrlEpRing configDesc.configValue
  bulkOnlyMassStorageReset w slot ctrlEpRing
  let bulkOutDci ← lift (outDci bulkOut.desc)
  let bulkInDci ← lift (inDci bulkIn.desc)
  return { bulkOut, bulkOutDci, bulkIn, bulkInDci }

/-- `.await.unwrap_or_else(|e| info!(…))`: an `Err` is ignored. -/
def ignoreErr (x : Method (Driver σ) Unit) : Method (Driver σ) Unit := fun self =>
  match x self with
  | .error (.err _) self => .ok () self
  | result => result

/-- `handle_mass_storage_device` configures the bulk endpoints of a device and reads its first
sector. -/
def handleMassStorageDevice (slot : BitVec 8) (ctrlEpRing : ℕ)
    (descriptors : List UsbDescriptor) : Method (Driver σ) Unit := do
  let eps ← selectBulkEndpoints w slot ctrlEpRing descriptors
  let bulkOutRing ← configureBulkEndpoint w slot eps.bulkOut.desc eps.bulkOutDci
  let bulkInRing ← configureBulkEndpoint w slot eps.bulkIn.desc eps.bulkInDci
  ignoreErr (clearEndpointHalt w slot ctrlEpRing eps.bulkIn.desc.endpointAddress)
  ignoreErr (clearEndpointHalt w slot ctrlEpRing eps.bulkOut.desc.endpointAddress)
  let _ ← scsiReadTen w slot bulkInRing bulkOutRing eps.bulkInDci eps.bulkOutDci 0 1

end Driver

/-! ## The input context of an endpoint -/

/-- The input context of an endpoint is about the slot and this endpoint only, and its Context
Entries are the DCI of the endpoint. -/
theorem bulkInputContext_eq (epDesc : EndpointDescriptor) {dci : ℕ} (hpos : 1 ≤ dci)
    (hle : dci ≤ 31) (ringPhysAddr : BitVec 64) :
    ∃ ctx epCtx, bulkInputContext epDesc dci ringPhysAddr = .ok ctx ∧ ctx.contextEntries = dci ∧
      ctx.inputCtrlCtx.addContextBitmap = 1#32 ||| 1#32 <<< dci ∧
      ctx.deviceCtx.epCtx =
        Function.update (fun _ => EndpointContext.new) ⟨dci - 1, by omega⟩ epCtx := by
  obtain ⟨epCtx, hepCtx⟩ := EndpointContext.newBulkEndpoint_isOk epDesc.maxPacketSize ringPhysAddr
    (if epDesc.isIn then EndpointType.bulkIn else EndpointType.bulkOut)
  -- `current_max_dci` starts from the DCI of this call alone
  have hmax : max dci (if dci > 1 then dci else 1) = dci := by
    split <;> omega
  let ctrl : InputControlContext :=
    { dropContextBitmap := 0, addContextBitmap := 1#32 ||| 1#32 <<< dci }
  let withEp : InputContext :=
    { inputCtrlCtx := ctrl
      deviceCtx :=
        { slotCtx := fun _ => 0
          epCtx :=
            Function.update (fun _ => EndpointContext.new) ⟨dci - 1, by omega⟩ epCtx } }
  obtain ⟨ctx, hctx, hentries, hctrl, hep⟩ := InputContext.setLastValidDci_eq withEp hle
  refine ⟨ctx, epCtx, ?_, hentries, by rw [hctrl], by rw [hep]⟩
  rw [← hctx]
  simp only [bulkInputContext, bind, Except.bind,
    InputControlContext.addContext_of_lt (show 0 < 32 by decide),
    InputControlContext.addContext_of_lt (show dci < 32 by omega), hepCtx,
    InputContext.setEpCtx_of_lt hpos (show dci - 1 < 31 by omega), hmax]
  rfl

/-- There is no input context for DCI 0. -/
theorem bulkInputContext_zero (epDesc : EndpointDescriptor) (ringPhysAddr : BitVec 64) :
    bulkInputContext epDesc 0 ringPhysAddr =
      .error (.panic "attempt to subtract with overflow") := by
  obtain ⟨epCtx, hepCtx⟩ := EndpointContext.newBulkEndpoint_isOk epDesc.maxPacketSize ringPhysAddr
    (if epDesc.isIn then EndpointType.bulkIn else EndpointType.bulkOut)
  simp only [bulkInputContext, bind, Except.bind,
    InputControlContext.addContext_of_lt (show 0 < 32 by decide), hepCtx,
    InputContext.setEpCtx_zero]

end Mushix
