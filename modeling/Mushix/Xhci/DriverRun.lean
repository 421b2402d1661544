import Mathlib.Data.List.Infix
import Mushix.Xhci.MassStorage
import Mushix.Xhci.Port
import Mushix.Xhci.StringDescriptor

/-!
# The driver at work

How `PciXhciDriver::run` (`xhci.rs`) goes over the connected ports. Its asynchronous steps are a
parameter of the loop, so that every assignment of outcomes to them can be tried.

* `PortSteps.runPorts`: the loop over the connected ports;
* `Driver.run`: the whole of `run`, with the steps of the driver;
* `PortSteps.attempts_prefix`: `init_port` is attempted in order and not twice for a port;
* `attempts_assigned_iff`: when it is attempted for all ports.
-/

namespace Mushix

/-- The fields of the descriptor of a device that are read. -/
structure UsbDeviceDescriptor where
  descLength : BitVec 8
  descType : BitVec 8
  version : BitVec 16
  deviceClass : BitVec 8
  deviceSubclass : BitVec 8
  deviceProtocol : BitVec 8
  maxPacketSize : BitVec 8
  vendorId : BitVec 16
  productId : BitVec 16
  deviceVersion : BitVec 16
  manufacturerIndex : BitVec 8
  productIndex : BitVec 8
  serialIdx : BitVec 8
  numOfConfig : BitVec 8
  deriving DecidableEq, Repr

instance : Sliceable UsbDeviceDescriptor where
  size := 18
  load b :=
    { descLength := b 0
      descType := b 1
      version := u16OfBytes (b 2) (b 3)
      deviceClass := b 4
      deviceSubclass := b 5
      deviceProtocol := b 6
      maxPacketSize := b 7
      vendorId := u16OfBytes (b 8) (b 9)
      productId := u16OfBytes (b 10) (b 11)
      deviceVersion := u16OfBytes (b 12) (b 13)
      manufacturerIndex := b 14
      productIndex := b 15
      serialIdx := b 16
      numOfConfig := b 17 }

/-- The asynchronous steps of `run` for a port. A step that returns nothing has not come to its
end. -/
structure PortSteps (σ : Type) where
  initPort (port : ℕ) : Method σ (Option (BitVec 8))
  addressDevice (port : ℕ) (slot : BitVec 8) : Method σ ℕ
  requestDeviceDescriptor (slot : BitVec 8) (ctrlEpRing : ℕ) : Method σ UsbDeviceDescriptor
  requestStringDescriptorZero (slot : BitVec 8) (ctrlEpRing : ℕ) :
    Method σ (Vector (BitVec 16) 8)
  requestStringDescriptor (slot : BitVec 8) (ctrlEpRing : ℕ) (langId : BitVec 16)
    (index : BitVec 8) : Method σ String
  requestConfigDescriptorAndRest (slot : BitVec 8) (ctrlEpRing : ℕ) :
    Method σ (Option (List UsbDescriptor))
  handleMassStorageDevice (slot : BitVec 8) (ctrlEpRing : ℕ) (descriptors : List UsbDescriptor) :
    Method σ Unit

/-- The descriptors that `run` handles. -/
def UsbDescriptor.isMassStorage : UsbDescriptor → Prop
  | interface desc => desc.isMassStorage
  | _ => False

instance : DecidablePred UsbDescriptor.isMassStorage
  | .interface desc => inferInstanceAs (Decidable desc.isMassStorage)
  | .config _ | .endpoint _ | .unknown _ _ => isFalse id

namespace PortSteps

variable {σ : Type} (steps : PortSteps σ) (slot : BitVec 8) (ctrlEpRing : ℕ)

/-- The request for a string whose index is not 0. -/
def requestString (langId : BitVec 16) (index : BitVec 8) : Method σ (Option String) := do
  if index ≠ 0 then
    return some (← steps.requestStringDescriptor slot ctrlEpRing langId index)
  else
    return none

/-- The loop over the descriptors. -/
def setUpMassStorage (descriptors : List UsbDescriptor) : List UsbDescriptor → Method σ Unit
  | [] => return ()
  | desc :: rest => do
    if desc.isMassStorage then
      steps.handleMassStorageDevice slot ctrlEpRing descriptors
    setUpMassStorage descriptors rest

/-- The body of `if let Ok(e)`: the strings, the configuration and the mass storage of a device. -/
def setUpDevice (deviceDescriptor : UsbDeviceDescriptor) (langId : BitVec 16) :
    Method σ Bool := do
  let _vendor ← steps.requestString slot ctrlEpRing langId deviceDescriptor.manufacturerIndex
  let _product ← steps.requestString slot ctrlEpRing langId deviceDescriptor.productIndex
  let _serial ← steps.requestString slot ctrlEpRing langId deviceDescriptor.serialIdx
  match ← steps.requestConfigDescriptorAndRest slot ctrlEpRing with
  | none => return false
  | some descriptors =>
    steps.setUpMassStorage slot ctrlEpRing descriptors descriptors
    return true

/-- What follows `init_port` in the body of the loop over the ports. -/
def enumerate (port : ℕ) : Method σ Bool := do
  -- a failure of the first three requests is passed over
  match ← Method.attempt (steps.addressDevice port slot) with
  | .error _ => return true
  | .ok ctrlEpRing =>
    match ← Method.attempt (steps.requestDeviceDescriptor slot ctrlEpRing) with
    | .error _ => return true
    | .ok deviceDescriptor =>
      match ← Method.attempt (steps.requestStringDescriptorZero slot ctrlEpRing) with
      | .error _ => return true
      | .ok e => steps.setUpDevice slot ctrlEpRing deviceDescriptor e[1]

/-- The body of the loop over the ports: whether it has come to its end. -/
def handlePort (port : ℕ) : Method σ Bool := do
  match ← steps.initPort port with
  | none => return false
  | some slot => steps.enumerate slot port

/-- The loop over the connected ports: whether it has come to its end. -/
def runPorts : List ℕ → Method σ Bool
  | [] => return true
  | port :: rest => do
    if ← steps.handlePort port then
      runPorts rest
    else
      return false

end PortSteps

namespace Driver

variable {σ : Type} (w : World σ)

/-- `request_device_descriptor` reads the descriptor of the device. -/
def requestDeviceDescriptor (slot : BitVec 8) (ctrlEpRing : ℕ) :
    Method (Driver σ) UsbDeviceDescriptor := do
  let desc ← newBuffer w (Sliceable.size UsbDeviceDescriptor) 1
  let bytes ← requestDescriptor w slot ctrlEpRing .device 0 0 desc
  return Sliceable.load fun i => bytes.getD i 0

/-- `request_string_descriptor_zero` reads which languages the strings of the device are in. -/
def requestStringDescriptorZero (slot : BitVec 8) (ctrlEpRing : ℕ) :
    Method (Driver σ) (Vector (BitVec 16) 8) := do
  -- eight values of type `u16`
  let buf ← newBuffer w 8 2
  let bytes ← requestDescriptor w slot ctrlEpRing .string 0 0 buf
  return Vector.ofFn fun i => u16OfBytes (bytes.getD (2 * i) 0) (bytes.getD (2 * i + 1) 0)

/-- `request_config_descriptor_and_rest`, which takes at most a number of descriptors from the
buffer. It returns nothing where there are more. -/
def requestConfigDescriptorAndRest (slot : BitVec 8) (ctrlEpRing calls : ℕ) :
    Method (Driver σ) (Option (List UsbDescriptor)) := do
  let configDescriptor ← newBuffer w (Sliceable.size ConfigDescriptor) 1
  let bytes ← requestDescriptor w slot ctrlEpRing .config 0 0 configDescriptor
  let configDescriptor : ConfigDescriptor := Sliceable.load fun i => bytes.getD i 0
  -- the header says how long the configuration is, and all of it is asked for
  let buf ← newBuffer w configDescriptor.totalLength.toNat 1
  let bytes ← requestDescriptor w slot ctrlEpRing .config 0 0 buf
  match Iter.collect DescriptorIterator.next calls (.new bytes) with
  | .ok descriptors _ => return descriptors
  | .error e _ => throw e

/-- The steps of the driver, which wait for a number of rounds. -/
def portSteps (rounds : ℕ) : PortSteps (Driver σ) where
  initPort port := initPort w port rounds
  addressDevice := addressDevice w
  requestDeviceDescriptor := requestDeviceDescriptor w
  requestStringDescriptorZero := requestStringDescriptorZero w
  requestStringDescriptor := requestStringDescriptor w
  requestConfigDescriptorAndRest slot ctrlEpRing :=
    requestConfigDescriptorAndRest w slot ctrlEpRing rounds
  handleMassStorageDevice := handleMassStorageDevice w

/-- The first loop of `run`: which of the ports are connected. -/
def connectedPorts : List ℕ → Method (Driver σ) (List ℕ)
  | [] => return []
  | port :: rest => do
    -- ports are counted from 1, and a port without a register is passed over
    match (← get).regs.portsc[(port + (2 ^ 64 - 1)) % 2 ^ 64]? with
    | none => connectedPorts rest
    | some e =>
      if ← ccs w e then
        return port :: (← connectedPorts rest)
      else
        connectedPorts rest

/-- The numbers of the ports, which begin with 1. -/
def portRange (self : Driver σ) : List ℕ := List.range' 1 self.regs.portsc.length

/-- `run` without the task that polls for events: whether it has come to its end. -/
def run (rounds : ℕ) : Method (Driver σ) Bool := do
  let connectedPort ← connectedPorts w (← get).portRange
  (portSteps w rounds).runPorts connectedPort

end Driver

/-! ## The attempts to initialise ports -/

namespace PortSteps

variable {σ : Type} (steps : PortSteps σ)

/-- The same steps with a log of the ports for which `init_port` was called, the last one first. -/
def logged : PortSteps (σ × List ℕ) where
  initPort port := do
    modify fun s => (s.1, port :: s.2)
    Method.onFst (steps.initPort port)
  addressDevice port slot := Method.onFst (steps.addressDevice port slot)
  requestDeviceDescriptor slot ctrlEpRing :=
    Method.onFst (steps.requestDeviceDescriptor slot ctrlEpRing)
  requestStringDescriptorZero slot ctrlEpRing :=
    Method.onFst (steps.requestStringDescriptorZero slot ctrlEpRing)
  requestStringDescriptor slot ctrlEpRing langId index :=
    Method.onFst (steps.requestStringDescriptor slot ctrlEpRing langId index)
  requestConfigDescriptorAndRest slot ctrlEpRing :=
    Method.onFst (steps.requestConfigDescriptorAndRest slot ctrlEpRing)
  handleMassStorageDevice slot ctrlEpRing descriptors :=
    Method.onFst (steps.handleMassStorageDevice slot ctrlEpRing descriptors)

/-- The ports for which the loop calls `init_port`, in order. -/
def attempts (ports : List ℕ) (s : σ) : List ℕ :=
  ((steps.logged.runPorts ports).stateAfter (s, [])).2.reverse

variable {steps}

/-- The log does not change the request for a string. -/
theorem requestString_logged (slot : BitVec 8) (ctrlEpRing : ℕ) (langId : BitVec 16)
    (index : BitVec 8) :
    steps.logged.requestString slot ctrlEpRing langId index =
      Method.onFst (steps.requestString slot ctrlEpRing langId index) := by
  rw [requestString, requestString, Method.onFst_ite, Method.onFst_bind, Method.onFst_pure]
  rfl

/-- The log does not change how mass storage is set up. -/
theorem setUpMassStorage_logged (slot : BitVec 8) (ctrlEpRing : ℕ)
    (descriptors rest : List UsbDescriptor) :
    steps.logged.setUpMassStorage slot ctrlEpRing descriptors rest =
      Method.onFst (steps.setUpMassStorage slot ctrlEpRing descriptors rest) := by
  induction rest with
  | nil => rfl
  | cons desc rest ih =>
    rw [setUpMassStorage, setUpMassStorage, ih, Method.onFst_ite, Method.onFst_bind]
    rfl

/-- The log does not change how a device is set up. -/
theorem setUpDevice_logged (slot : BitVec 8) (ctrlEpRing : ℕ)
    (deviceDescriptor : UsbDeviceDescriptor) (langId : BitVec 16) :
    steps.logged.setUpDevice slot ctrlEpRing deviceDescriptor langId =
      Method.onFst (steps.setUpDevice slot ctrlEpRing deviceDescriptor langId) := by
  simp only [setUpDevice, requestString_logged, Method.onFst_bind]
  refine bind_congr fun vendor => bind_congr fun product => bind_congr fun serial =>
    bind_congr fun config => ?_
  cases config with
  | none => rfl
  | some descriptors =>
    simp only [setUpMassStorage_logged, Method.onFst_bind]
    rfl

/-- The log does not change how a port is enumerated. -/
theorem enumerate_logged (slot : BitVec 8) (port : ℕ) :
    steps.logged.enumerate slot port = Method.onFst (steps.enumerate slot port) := by
  simp only [enumerate, Method.onFst_bind, Method.onFst_attempt]
  refine bind_congr fun ring => ?_
  cases ring with
  | error msg => rfl
  | ok ctrlEpRing =>
    simp only [Method.onFst_bind, Method.onFst_attempt]
    refine bind_congr fun desc => ?_
    cases desc with
    | error msg => rfl
    | ok deviceDescriptor =>
      simp only [Method.onFst_bind, Method.onFst_attempt]
      refine bind_congr fun e => ?_
      cases e with
      | error msg => rfl
      | ok e => exact setUpDevice_logged _ _ _ _

/-- The log is all that the steps with a log add. -/
theorem handlePort_logged (port : ℕ) (s : σ) (log : List ℕ) :
    steps.logged.handlePort port (s, log) =
      Method.onFst (steps.handlePort port) (s, port :: log) := by
  have hinit : steps.logged.handlePort port = (do
      modify fun s => (s.1, port :: s.2)
      Method.onFst (steps.handlePort port) : Method (σ × List ℕ) Bool) := by
    simp only [handlePort, Method.onFst_bind]
    rw [logged, bind_assoc]
    refine bind_congr fun _ => bind_congr fun slot => ?_
    cases slot with
    | none => rfl
    | some slot => exact enumerate_logged slot port
  rw [hinit]
  rfl

/-- The loop goes on where its body has come to its end. -/
theorem stateAfter_of_handlePort {port : ℕ} {rest log : List ℕ} {s s' : σ}
    (h : steps.handlePort port s = .ok true s') :
    (steps.logged.runPorts (port :: rest)).stateAfter (s, log) =
      (steps.logged.runPorts rest).stateAfter (s', port :: log) := by
  have hrun : steps.logged.handlePort port (s, log) = .ok true (s', port :: log) := by
    rw [handlePort_logged, Method.onFst, h]
  rw [runPorts, Method.stateAfter_bind_of_ok hrun]
  rfl

/-- Everywhere else it ends with this port. -/
theorem stateAfter_of_not_handlePort {port : ℕ} {rest log : List ℕ} {s : σ}
    (h : ∀ s', steps.handlePort port s ≠ .ok true s') :
    ((steps.logged.runPorts (port :: rest)).stateAfter (s, log)).2 = port :: log := by
  have hlogged : steps.logged.handlePort port (s, log) = _ := handlePort_logged port s log
  rw [Method.onFst] at hlogged
  cases hrun : steps.handlePort port s with
  | error e s' =>
    rw [hrun] at hlogged
    rw [runPorts, Method.stateAfter_of_error (Method.bind_of_error hlogged)]
  | ok ended s' =>
    cases ended with
    | true => exact absurd hrun (h s')
    | false =>
      rw [hrun] at hlogged
      rw [runPorts, Method.stateAfter_bind_of_ok hlogged]
      rfl

/-- What the loop logs is put in front of the log. -/
theorem runPorts_logged (ports : List ℕ) (s : σ) (log : List ℕ) :
    ((steps.logged.runPorts ports).stateAfter (s, log)).2 =
      (steps.attempts ports s).reverse ++ log := by
  rw [attempts, List.reverse_reverse]
  induction ports generalizing s log with
  | nil => rfl
  | cons port rest ih =>
    by_cases h : ∃ s', steps.handlePort port s = .ok true s'
    · obtain ⟨s', h⟩ := h
      rw [stateAfter_of_handlePort h, stateAfter_of_handlePort h, ih s' (port :: log), ih s' [port],
        List.append_assoc]
      rfl
    · have h' := not_exists.1 h
      rw [stateAfter_of_not_handlePort h', stateAfter_of_not_handlePort h']
      rfl

@[simp]
theorem attempts_nil (s : σ) : steps.attempts [] s = [] := rfl

/-- After a port whose body has come to its end, the rest is attempted. -/
theorem attempts_cons {port : ℕ} {s s' : σ} (h : steps.handlePort port s = .ok true s')
    (rest : List ℕ) : steps.attempts (port :: rest) s = port :: steps.attempts rest s' := by
  rw [attempts, stateAfter_of_handlePort h, runPorts_logged]
  simp

/-- After any other port, nothing is. -/
theorem attempts_cons_of_not {port : ℕ} {s : σ}
    (h : ∀ s', steps.handlePort port s ≠ .ok true s') (rest : List ℕ) :
    steps.attempts (port :: rest) s = [port] := by
  rw [attempts, stateAfter_of_not_handlePort h]
  rfl

/-- `init_port` is attempted in the order of the ports, and for each of them at most once. -/
theorem attempts_prefix (ports : List ℕ) (s : σ) : steps.attempts ports s <+: ports := by
  induction ports generalizing s with
  | nil => exact List.prefix_refl []
  | cons port rest ih =>
    by_cases h : ∃ s', steps.handlePort port s = .ok true s'
    · obtain ⟨s', h⟩ := h
      rw [attempts_cons h]
      simpa using ih s'
    · rw [attempts_cons_of_not (not_exists.1 h)]
      simp

end PortSteps

namespace Driver

variable {σ : Type} {w : World σ}

/-- The ports that are connected are among those that were looked at. -/
theorem sublist_of_connectedPorts {ports connected : List ℕ} {d d' : Driver σ}
    (h : connectedPorts w ports d = .ok connected d') : connected.Sublist ports := by
  induction ports generalizing connected d with
  | nil =>
    cases h
    exact List.Sublist.refl []
  | cons port rest ih =>
    rw [connectedPorts, Method.run_get_bind] at h
    cases he : d.regs.portsc[(port + (2 ^ 64 - 1)) % 2 ^ 64]? with
    | none =>
      rw [he] at h
      exact (ih h).cons port
    | some e =>
      rw [he] at h
      obtain ⟨isConnected, d₁, -, h⟩ := Method.bind_eq_ok.1 h
      cases isConnected with
      | true =>
        obtain ⟨ports, d₂, hrest, hpure⟩ := Method.bind_eq_ok.1 h
        cases hpure
        exact (ih hrest).cons_cons port
      | false => exact (ih h).cons port

/-- `run` attempts to initialise no port twice. -/
theorem attempts_nodup {connected : List ℕ} {d d' : Driver σ}
    (h : connectedPorts w d.portRange d = .ok connected d') (rounds : ℕ) :
    ((portSteps w rounds).attempts connected d').Nodup :=
  ((PortSteps.attempts_prefix connected d').sublist.trans
    (sublist_of_connectedPorts h)).nodup List.nodup_range'

end Driver

/-! ## Assignments of outcomes -/

/-- Success or failure of every asynchronous step of a port. Strings and mass storage may be
asked for several times, so that their outcomes have numbers. -/
structure PortOutcomes where
  initPort : Except String (BitVec 8)
  addressDevice : Except String ℕ
  deviceDescriptor : Except String UsbDeviceDescriptor
  stringDescriptorZero : Except String (Vector (BitVec 16) 8)
  stringDescriptor : ℕ → Except String String
  configDescriptorAndRest : Except String (List UsbDescriptor)
  massStorage : ℕ → Except String Unit

/-- How far the steps of the port have come: the numbers of strings and of mass storage devices that
were asked for. -/
structure Progress where
  port : ℕ
  strings : ℕ
  massStorage : ℕ
  deriving DecidableEq, Repr

/-- The steps whose outcomes are assigned. -/
def assigned (outcomes : ℕ → PortOutcomes) : PortSteps Progress where
  initPort port := do
    set { port, strings := 0, massStorage := 0 : Progress }
    return some (← Method.ofResult (outcomes port).initPort)
  addressDevice _ _ := do
    Method.ofResult (outcomes (← get).port).addressDevice
  requestDeviceDescriptor _ _ := do
    Method.ofResult (outcomes (← get).port).deviceDescriptor
  requestStringDescriptorZero _ _ := do
    Method.ofResult (outcomes (← get).port).stringDescriptorZero
  requestStringDescriptor _ _ _ _ := do
    let self ← get
    set { self with strings := self.strings + 1 }
    Method.ofResult ((outcomes self.port).stringDescriptor self.strings)
  requestConfigDescriptorAndRest _ _ := do
    return some (← Method.ofResult (outcomes (← get).port).configDescriptorAndRest)
  handleMassStorageDevice _ _ _ := do
    let self ← get
    set { self with massStorage := self.massStorage + 1 }
    Method.ofResult ((outcomes self.port).massStorage self.massStorage)

/-- The progress before the first port. -/
def Progress.start : Progress := { port := 0, strings := 0, massStorage := 0 }

/-- The number of strings that a device has. -/
def UsbDeviceDescriptor.stringCount (desc : UsbDeviceDescriptor) : ℕ :=
  [desc.manufacturerIndex, desc.productIndex, desc.serialIdx].countP (· ≠ 0)

namespace PortOutcomes

/-- The steps behind `if let Ok(e)` succeed: all requests for strings, the one for the
configuration, and the set-up of every mass storage interface of it. -/
@[mk_iff]
structure SetsUp (outcomes : PortOutcomes) (desc : UsbDeviceDescriptor) : Prop where
  strings : ∀ k < desc.stringCount, (outcomes.stringDescriptor k).isOk
  config : outcomes.configDescriptorAndRest.isOk
  massStorage : ∀ descriptors, outcomes.configDescriptorAndRest = .ok descriptors →
    ∀ k < descriptors.countP UsbDescriptor.isMassStorage, (outcomes.massStorage k).isOk

/-- No failure leaves `run`: `init_port` succeeds, and so do the steps that are made when the
address, the device descriptor and the languages are there. -/
@[mk_iff]
structure Passes (outcomes : PortOutcomes) : Prop where
  initPort : outcomes.initPort.isOk
  setsUp : ∀ ring desc e, outcomes.addressDevice = .ok ring →
    outcomes.deviceDescriptor = .ok desc → outcomes.stringDescriptorZero = .ok e →
    outcomes.SetsUp desc

end PortOutcomes

section Assigned

open Method (ReturnsIff Returns)

variable {outcomes : ℕ → PortOutcomes} {slot : BitVec 8} {ctrlEpRing port n m : ℕ}

/-- A call of an assigned step returns exactly when the outcome is a success. -/
theorem returnsIff_of_run_eq {α : Type} {x : Method Progress α} {r : Except String α}
    {s t : Progress} (h : x s = Method.ofResult r t) :
    ReturnsIff r.isOk (fun a s' => r = .ok a ∧ s' = t) x s :=
  .of_run_eq h (.ofResult r t)

/-- An attempt of what is known to return or to fail. -/
theorem attempt_of_run_eq {α : Type} {x : Method Progress α} {r : Except String α}
    {s : Progress} (h : x s = Method.ofResult r s) : Method.attempt x s = .ok r s := by
  rw [Method.attempt, h]
  cases r <;> rfl

/-- A request for a string takes the next outcome, if there is an index. -/
theorem returnsIff_requestString (langId : BitVec 16) (index : BitVec 8) :
    ReturnsIff (index ≠ 0 → ((outcomes port).stringDescriptor n).isOk)
      (fun _ s' => s' = { port, strings := n + if index ≠ 0 then 1 else 0, massStorage := m })
      ((assigned outcomes).requestString slot ctrlEpRing langId index)
      { port, strings := n, massStorage := m } := by
  by_cases hindex : index ≠ 0
  · have hstep : ReturnsIff ((outcomes port).stringDescriptor n).isOk _
        ((assigned outcomes).requestStringDescriptor slot ctrlEpRing langId index)
        { port, strings := n, massStorage := m } := returnsIff_of_run_eq rfl
    rw [PortSteps.requestString, if_pos hindex, if_pos hindex]
    exact (hstep.bind_returns fun str s' hs' => ⟨some str, s', rfl, hs'.2⟩).congr
      ⟨fun h _ => h, fun h => h hindex⟩
  · rw [PortSteps.requestString, if_neg hindex, if_neg hindex]
    exact .of_returns (fun h => absurd h hindex) ⟨none, _, rfl, rfl⟩

/-- The loop over the descriptors takes an outcome for each mass storage interface. -/
theorem returnsIff_setUpMassStorage (descriptors rest : List UsbDescriptor) :
    ReturnsIff (∀ k < rest.countP UsbDescriptor.isMassStorage,
        ((outcomes port).massStorage (m + k)).isOk) (fun _ _ => True)
      ((assigned outcomes).setUpMassStorage slot ctrlEpRing descriptors rest)
      { port, strings := n, massStorage := m } := by
  induction rest generalizing m with
  | nil => exact .of_returns (by simp) ⟨(), _, rfl, trivial⟩
  | cons desc rest ih =>
    rw [PortSteps.setUpMassStorage]
    by_cases hdesc : desc.isMassStorage
    · have hstep : ReturnsIff ((outcomes port).massStorage m).isOk _
          ((assigned outcomes).handleMassStorageDevice slot ctrlEpRing descriptors)
          { port, strings := n, massStorage := m } := returnsIff_of_run_eq rfl
      have hcount : (desc :: rest).countP UsbDescriptor.isMassStorage =
          rest.countP UsbDescriptor.isMassStorage + 1 :=
        List.countP_cons_of_pos (by simpa using hdesc)
      rw [if_pos hdesc, hcount]
      refine (hstep.bind fun _ s' hs' => hs'.2 ▸ ih).congr ?_
      simp only [Nat.forall_lt_succ_left, Nat.add_zero, Nat.add_assoc, Nat.add_comm 1]
    · rw [if_neg hdesc, List.countP_cons_of_neg (by simpa using hdesc)]
      exact ih

/-- The configuration and the mass storage of a device. -/
theorem returnsIff_config :
    ReturnsIff ((outcomes port).configDescriptorAndRest.isOk ∧
        ∀ descriptors, (outcomes port).configDescriptorAndRest = .ok descriptors →
          ∀ k < descriptors.countP UsbDescriptor.isMassStorage,
            ((outcomes port).massStorage k).isOk)
      (fun ended _ => ended = true) (do
        match ← (assigned outcomes).requestConfigDescriptorAndRest slot ctrlEpRing with
        | none => return false
        | some descriptors =>
          (assigned outcomes).setUpMassStorage slot ctrlEpRing descriptors descriptors
          return true) { port, strings := n, massStorage := 0 } := by
  -- the assigned step wraps its outcome in `some`: the descriptors are always all collected
  have hstep : ReturnsIff (outcomes port).configDescriptorAndRest.isOk
      (fun config s' => (∃ descriptors, config = some descriptors ∧
        (outcomes port).configDescriptorAndRest = .ok descriptors) ∧
        s' = { port, strings := n, massStorage := 0 })
      ((assigned outcomes).requestConfigDescriptorAndRest slot ctrlEpRing)
      { port, strings := n, massStorage := 0 } := by
    have hresult := ReturnsIff.ofResult (outcomes port).configDescriptorAndRest
      ({ port, strings := n, massStorage := 0 } : Progress)
    have hask := hresult.bind_returns (R := fun config s' => (∃ descriptors,
        config = some descriptors ∧ (outcomes port).configDescriptorAndRest = .ok descriptors) ∧
        s' = { port, strings := n, massStorage := 0 })
      fun descriptors s' hs' => ⟨some descriptors, s', rfl, ⟨descriptors, rfl, hs'.1⟩, hs'.2⟩
    refine ReturnsIff.of_run_eq ?_ hask
    rfl
  refine hstep.bind fun config s' => ?_
  rintro ⟨⟨descriptors, rfl, hconfig⟩, rfl⟩
  have hall : ReturnsIff _ _
      ((assigned outcomes).setUpMassStorage slot ctrlEpRing descriptors descriptors)
      { port, strings := n, massStorage := 0 } :=
    returnsIff_setUpMassStorage descriptors descriptors
  refine (hall.bind_returns fun _ s' _ => ⟨true, s', rfl, rfl⟩).congr ?_
  simp [hconfig]

/-- One more number, or no more. -/
theorem forall_lt_add_ite {p : ℕ → Prop} {c : Prop} [Decidable c] :
    (∀ k < n + if c then 1 else 0, p k) ↔ (∀ k < n, p k) ∧ (c → p n) := by
  by_cases hc : c
  · rw [if_pos hc, Nat.forall_lt_succ_right]
    simp only [hc, forall_const]
  · rw [if_neg hc, Nat.add_zero]
    simp only [hc, false_imp_iff, and_true]

/-- When the device is set up, by the outcomes of its parts. -/
theorem returnsIff_setUpDevice (desc : UsbDeviceDescriptor) (langId : BitVec 16) :
    ReturnsIff ((outcomes port).SetsUp desc) (fun ended _ => ended = true)
      ((assigned outcomes).setUpDevice slot ctrlEpRing desc langId)
      { port, strings := 0, massStorage := 0 } := by
  rw [PortSteps.setUpDevice]
  refine ((returnsIff_requestString langId desc.manufacturerIndex).bind fun _ s₁ hs₁ => hs₁ ▸
    (returnsIff_requestString langId desc.productIndex).bind fun _ s₂ hs₂ => hs₂ ▸
      (returnsIff_requestString langId desc.serialIdx).bind fun _ s₃ hs₃ => hs₃ ▸
        returnsIff_config).congr ?_
  -- the strings that are asked for take the outcomes in their order
  have hcount : desc.stringCount = 0 + (if desc.manufacturerIndex ≠ 0 then 1 else 0) +
      (if desc.productIndex ≠ 0 then 1 else 0) + if desc.serialIdx ≠ 0 then 1 else 0 := by
    simp [UsbDeviceDescriptor.stringCount, List.countP_cons]
    omega
  rw [PortOutcomes.setsUp_iff, hcount, forall_lt_add_ite, forall_lt_add_ite, forall_lt_add_ite]
  simp only [Nat.not_lt_zero, false_imp_iff, implies_true, true_and, and_assoc]

/-- What follows `init_port` fails only behind `if let Ok(e)`. -/
theorem returnsIff_enumerate :
    ReturnsIff (∀ ring desc e, (outcomes port).addressDevice = .ok ring →
        (outcomes port).deviceDescriptor = .ok desc →
        (outcomes port).stringDescriptorZero = .ok e → (outcomes port).SetsUp desc)
      (fun ended _ => ended = true) ((assigned outcomes).enumerate slot port)
      { port, strings := 0, massStorage := 0 } := by
  have haddress : Method.attempt ((assigned outcomes).addressDevice port slot) ⟨port, 0, 0⟩ =
      .ok (outcomes port).addressDevice ⟨port, 0, 0⟩ := attempt_of_run_eq rfl
  rw [PortSteps.enumerate]
  -- each `if let Ok` passes over a failure, and only the innermost body has steps with `?`
  cases hring : (outcomes port).addressDevice with
  | error msg =>
    rw [hring] at haddress
    exact .of_returns (by simp) ⟨true, _, Method.bind_of_ok haddress, rfl⟩
  | ok ring =>
    have hdevice : Method.attempt ((assigned outcomes).requestDeviceDescriptor slot ring)
        ⟨port, 0, 0⟩ = .ok (outcomes port).deviceDescriptor ⟨port, 0, 0⟩ := attempt_of_run_eq rfl
    rw [hring] at haddress
    refine ReturnsIff.of_run_eq (Method.bind_of_ok haddress) ?_
    cases hdesc : (outcomes port).deviceDescriptor with
    | error msg =>
      rw [hdesc] at hdevice
      exact .of_returns (by simp) ⟨true, _, Method.bind_of_ok hdevice, rfl⟩
    | ok desc =>
      have hzero : Method.attempt ((assigned outcomes).requestStringDescriptorZero slot ring)
          ⟨port, 0, 0⟩ = .ok (outcomes port).stringDescriptorZero ⟨port, 0, 0⟩ :=
        attempt_of_run_eq rfl
      rw [hdesc] at hdevice
      refine ReturnsIff.of_run_eq (Method.bind_of_ok hdevice) ?_
      cases he : (outcomes port).stringDescriptorZero with
      | error msg =>
        rw [he] at hzero
        exact .of_returns (by simp) ⟨true, _, Method.bind_of_ok hzero, rfl⟩
      | ok e =>
        rw [he] at hzero
        refine ReturnsIff.of_run_eq (Method.bind_of_ok hzero) ?_
        exact (returnsIff_setUpDevice desc e[1]).congr (by simp)

/-- A port is passed whatever the progress was before it. -/
theorem returnsIff_handlePort (s : Progress) :
    ReturnsIff (outcomes port).Passes (fun ended _ => ended = true)
      ((assigned outcomes).handlePort port) s := by
  have hstep := ReturnsIff.ofResult (outcomes port).initPort (⟨port, 0, 0⟩ : Progress)
  -- `init_port` starts the progress anew
  have hrun : (assigned outcomes).handlePort port s = (do
      let slot ← Method.ofResult (outcomes port).initPort
      (assigned outcomes).enumerate slot port) ⟨port, 0, 0⟩ := by
    have hinit : (assigned outcomes).initPort port s = (do
        return some (← Method.ofResult (outcomes port).initPort)) ⟨port, 0, 0⟩ := rfl
    cases hresult : (outcomes port).initPort with
    | error msg =>
      rw [hresult] at hinit
      rw [PortSteps.handlePort, Method.bind_of_error hinit]
      rfl
    | ok slot =>
      rw [hresult] at hinit
      rw [PortSteps.handlePort, Method.bind_of_ok hinit]
      rfl
  refine (ReturnsIff.of_run_eq hrun (hstep.bind fun slot s' hs' => hs'.2 ▸
    returnsIff_enumerate)).congr (PortOutcomes.passes_iff _).symm

/-- `init_port` is attempted for all connected ports exactly when no failure leaves `run` before the
last one. -/
theorem attempts_assigned_iff (outcomes : ℕ → PortOutcomes) (ports : List ℕ) (s : Progress) :
    (assigned outcomes).attempts ports s = ports ↔
      ∀ port ∈ ports.dropLast, (outcomes port).Passes := by
  induction ports generalizing s with
  | nil => simp
  | cons port rest ih =>
    have hport : ReturnsIff _ _ ((assigned outcomes).handlePort port) s := returnsIff_handlePort s
    by_cases hpasses : (outcomes port).Passes
    · -- the loop goes on with the rest, of which every port but the last one has to pass
      obtain ⟨_, s', hrun, rfl⟩ := hport.returns hpasses
      rw [PortSteps.attempts_cons hrun, List.cons.injEq, ih s']
      cases rest with
      | nil => simp
      | cons next rest => simp [hpasses]
    · -- the failure leaves `run`, so that this port has to be the last one
      obtain ⟨e, s', hrun⟩ := hport.fails hpasses
      rw [PortSteps.attempts_cons_of_not fun t h => by cases hrun.symm.trans h]
      cases rest with
      | nil => simp
      | cons next rest => simp [hpasses]

end Assigned

/-- The first port is not enabled after its reset, and everything else succeeds. -/
def notEnabledFirst (port : ℕ) : PortOutcomes where
  initPort := if port = 1 then .error "Port is not enabled" else .ok 1
  addressDevice := .ok 0
  deviceDescriptor := .ok (Sliceable.load fun _ => 0)
  stringDescriptorZero := .ok (Vector.replicate 8 0)
  stringDescriptor _ := .ok ""
  configDescriptorAndRest := .ok []
  massStorage _ := .ok ()

/-- Then `init_port` is not attempted for the second port. -/
theorem not_attempts_notEnabledFirst :
    (assigned notEnabledFirst).attempts [1, 2] .start ≠ [1, 2] := by decide

end Mushix
