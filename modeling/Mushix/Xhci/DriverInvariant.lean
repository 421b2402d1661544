import Mushix.Xhci.RingAssignment

/-!
# The rings in every run of the driver

An invariant of the steps of the driver is one of its loop over the ports. So the driver serves its
rings in every run.

* `PortSteps.Invariant`: an invariant of the steps, and one of the steps for one device;
* `PortSteps.Invariant.runPorts`: the loop;
* `Driver.run_serves`: the driver, for every controller.
-/

namespace Mushix

open Method (Ends Stays)

/-! ## The loop over the ports -/

/-- The steps keep an invariant `I`, and those that need the ring of a device keep `J` too. -/
structure PortSteps.Invariant {σ : Type} (steps : PortSteps σ) (I : σ → Prop)
    (J : BitVec 8 → ℕ → σ → Prop) : Prop where
  weaken (slot : BitVec 8) (r : ℕ) (s : σ) : J slot r s → I s
  initPort (port : ℕ) : Stays I (steps.initPort port)
  addressDevice (port : ℕ) (slot : BitVec 8) (s : σ) : I s →
    Ends I (fun r => J slot r) (steps.addressDevice port slot) s
  requestDeviceDescriptor (slot : BitVec 8) (r : ℕ) :
    Stays (J slot r) (steps.requestDeviceDescriptor slot r)
  requestStringDescriptorZero (slot : BitVec 8) (r : ℕ) :
    Stays (J slot r) (steps.requestStringDescriptorZero slot r)
  requestStringDescriptor (slot : BitVec 8) (r : ℕ) (langId : BitVec 16) (index : BitVec 8) :
    Stays (J slot r) (steps.requestStringDescriptor slot r langId index)
  requestConfigDescriptorAndRest (slot : BitVec 8) (r : ℕ) :
    Stays (J slot r) (steps.requestConfigDescriptorAndRest slot r)
  handleMassStorageDevice (slot : BitVec 8) (r : ℕ) (descriptors : List UsbDescriptor) :
    Stays (J slot r) (steps.handleMassStorageDevice slot r descriptors)

namespace PortSteps.Invariant

variable {σ : Type} {steps : PortSteps σ} {I : σ → Prop} {J : BitVec 8 → ℕ → σ → Prop}
  (h : steps.Invariant I J) (slot : BitVec 8) (r : ℕ)

include h

/-- The request for a string keeps what the parts of `run` keep. -/
theorem requestString (langId : BitVec 16) (index : BitVec 8) :
    Stays (J slot r) (steps.requestString slot r langId index) :=
  Stays.ite (fun _ => (h.requestStringDescriptor slot r langId index).bind fun _ => Stays.pure _)
    fun _ => Stays.pure none

/-- Setting up mass storage keeps what its parts keep. -/
theorem setUpMassStorage (descriptors rest : List UsbDescriptor) :
    Stays (J slot r) (steps.setUpMassStorage slot r descriptors rest) := by
  induction rest with
  | nil => exact Stays.pure ()
  | cons desc rest ih =>
    exact Stays.ite (fun _ => (h.handleMassStorageDevice slot r descriptors).bind fun _ => ih)
      fun _ => ih

/-- Setting up a device keeps what its parts keep. -/
theorem setUpDevice (deviceDescriptor : UsbDeviceDescriptor) (langId : BitVec 16) :
    Stays (J slot r) (steps.setUpDevice slot r deviceDescriptor langId) := by
  have hstring := h.requestString slot r langId
  refine (hstring _).bind fun _ => (hstring _).bind fun _ => (hstring _).bind fun _ => ?_
  refine (h.requestConfigDescriptorAndRest slot r).bind fun descriptors => ?_
  cases descriptors with
  | none => exact Stays.pure false
  | some descriptors =>
    exact (h.setUpMassStorage slot r descriptors descriptors).bind fun _ => Stays.pure true

/-- The enumeration of a port keeps what its parts keep. -/
theorem enumerate (port : ℕ) : Stays I (steps.enumerate slot port) := by
  intro s hs
  refine (h.addressDevice port slot s hs).attempt.bind ?_
  rintro (msg | r) s₁ h₁
  · exact Ends.pure h₁
  -- the device has its ring from here on
  refine Ends.imp (P := J slot r) (Q := fun _ => J slot r) ?_ (h.weaken slot r)
    fun _ => h.weaken slot r
  refine (h.requestDeviceDescriptor slot r s₁ h₁).attempt.bind ?_
  rintro (msg | deviceDescriptor) s₂ h₂
  · exact Ends.pure h₂
  refine (h.requestStringDescriptorZero slot r s₂ h₂).attempt.bind ?_
  rintro (msg | e) s₃ h₃
  · exact Ends.pure h₃
  · exact h.setUpDevice slot r deviceDescriptor _ s₃ h₃

/-- One port after the other. -/
theorem runPorts (ports : List ℕ) : Stays I (steps.runPorts ports) := by
  induction ports with
  | nil => exact Stays.pure true
  | cons port rest ih =>
    refine Stays.bind ?_ fun ended => Stays.ite (fun _ => ih) fun _ => Stays.pure false
    refine (h.initPort port).bind fun slot => ?_
    cases slot with
    | none => exact Stays.pure false
    | some slot => exact h.enumerate slot port

end PortSteps.Invariant

namespace Driver

variable {σ : Type} {w : World σ}

/-- The parts of `run` keep what the driver knows. -/
theorem invariant_portSteps (rounds : ℕ) :
    (portSteps w rounds).Invariant (Knows []) fun slot r => Knows [(r, .control slot)] where
  weaken _ _ _ h := h.mono (List.nil_subset _)
  initPort port := stays_initPort port rounds
  addressDevice port _ _ h := ends_addressDevice port h
  requestDeviceDescriptor _ _ := stays_requestDeviceDescriptor List.mem_cons_self
  requestStringDescriptorZero _ _ := stays_requestStringDescriptorZero List.mem_cons_self
  requestStringDescriptor _ _ := stays_requestStringDescriptor List.mem_cons_self
  requestConfigDescriptorAndRest _ _ :=
    stays_requestConfigDescriptorAndRest List.mem_cons_self rounds
  handleMassStorageDevice _ _ := stays_handleMassStorageDevice List.mem_cons_self

/-- Looking for connected ports keeps what the driver knows. -/
theorem stays_connectedPorts (ports : List ℕ) :
    Stays (Knows []) (connectedPorts w ports) := by
  induction ports with
  | nil => exact Stays.pure []
  | cons port rest ih =>
    refine Stays.get_bind fun d => ?_
    split
    · exact ih
    · refine ((seen_knows []).portBit _ 0).bind fun connected => ?_
      exact Stays.ite (fun _ => ih.bind fun _ => Stays.pure _) fun _ => ih

/-- For every controller, whatever it answers, and however `run` ends: the command ring holds the
commands that were sent, in their order. Every transfer ring with a TRB belongs to an endpoint that
an Address Device or Configure Endpoint command has told the controller about, with the address of
the ring and its first cycle state. The ring of a default control endpoint holds whole control
transfers, whose stages have the direction and the length of their request, and the ring of a bulk
endpoint holds Normal TRBs. Every Address Device command is for a slot that had got its output
context. And no register is written but PORTSC, USBSTS, the doorbell for commands
and the doorbells of these endpoints. -/
theorem run_serves (w : World σ) (regs : XhcRegisters) (base : IoBoxAddr) (hardware : σ)
    (rounds : ℕ) :
    ∃ use, ((run w rounds).stateAfter (start regs base hardware)).Serves use := by
  have hrun : Stays (Knows []) (run w rounds) := by
    refine Stays.get_bind fun self => (stays_connectedPorts self.portRange).bind fun ports => ?_
    exact (invariant_portSteps rounds).runPorts ports
  have hstart : (start regs base hardware).Knows [] :=
    ⟨fun _ => .unused, serves_start regs base hardware, fun _ h => nomatch h⟩
  obtain ⟨use, h, -⟩ := hrun.stateAfter hstart
  exact ⟨use, h⟩

end Driver

end Mushix
