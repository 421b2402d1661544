import Mushix.Xhci.Port

/-!
# The answer to Enable Slot

What `init_port` makes of the event that answers its command, and what becomes of the slot.

* `Driver.events_initPort`: the slot is the one in the event;
* `Driver.safe_addressDevice`: a device can be addressed on every slot but 0;
* `Driver.checksEnableSlot_iff`: for which events the result of `init_port` is right.
-/

namespace Mushix

open CommandRing (NotLink)
open Method (Keeps Returns Safe)

namespace Driver

variable {σ : Type} {w : World σ} {d d' : Driver σ} {entry port rounds : ℕ} {slot : BitVec 8}

/-! ## Ports do not panic -/

theorem safe_portBit (entry pos : ℕ) : Safe Sound (portBit w entry pos) :=
  (safe_readReg entry).bind fun _ => Safe.pure _

theorem safe_assertBit (entry pos : ℕ) : Safe Sound (assertBit w entry pos) :=
  (safe_readReg entry).bind fun _ => safe_writeReg entry _

theorem safe_waitUntil {I : Driver σ → Prop} {cond : Method (Driver σ) Bool}
    (hcond : Safe I cond) (rounds : ℕ) : Safe I (waitUntil cond rounds) := by
  induction rounds with
  | zero => exact Safe.pure false
  | succ rounds ih =>
    exact hcond.bind fun holds => Safe.ite (fun _ => Safe.pure true) fun _ => ih

/-- The reset of a port is as safe as its accesses to PORTSC. -/
theorem safe_resetPort_of {I : Driver σ → Prop} (hread : ∀ pos, Safe I (portBit w entry pos))
    (hassert : ∀ pos ∈ [9, 4], Safe I (assertBit w entry pos)) (rounds : ℕ) :
    Safe I (resetPort w entry rounds) := by
  refine (hassert 9 (by simp)).bind fun _ => ?_
  refine (safe_waitUntil (hread 9) rounds).bind fun powered => ?_
  refine Safe.ite (fun _ => ?_) fun _ => Safe.pure false
  refine (hassert 4 (by simp)).bind fun _ => ?_
  exact safe_waitUntil ((hread 4).bind fun _ => Safe.pure _) rounds

theorem safe_resetPort (entry rounds : ℕ) : Safe Sound (resetPort w entry rounds) :=
  safe_resetPort_of (safe_portBit entry) (fun pos _ => safe_assertBit entry pos) rounds

theorem safe_isEnabled (entry : ℕ) : Safe Sound (isEnabled w entry) := by
  refine (safe_portBit entry 9).bind fun _ => Safe.ite (fun _ => ?_) fun _ => Safe.pure false
  refine (safe_portBit entry 0).bind fun _ => Safe.ite (fun _ => ?_) fun _ => Safe.pure false
  refine (safe_portBit entry 1).bind fun _ => Safe.ite (fun _ => ?_) fun _ => Safe.pure false
  exact (safe_portBit entry 4).bind fun _ => Safe.pure _

theorem safe_portSpeed (entry : ℕ) : Safe Sound (portSpeed w entry) :=
  (safe_readReg entry).bind fun _ => Safe.pure _

theorem safe_maxPacketSize (entry : ℕ) : Safe Sound (maxPacketSize w entry) := by
  refine (safe_portSpeed entry).bind fun speed => ?_
  cases speed with
  | unknown psi => exact Safe.throw _
  | _ => exact Safe.pure _

theorem safe_portGet (port : ℕ) (msg : String) :
    Safe Sound (portGet port msg : Method (Driver σ) ℕ) :=
  Safe.get.bind fun _ => safe_okOr _ _

theorem safe_initPort (port rounds : ℕ) : Safe Sound (initPort w port rounds) := by
  have hcmd : NotLink GenericTrbEntry.cmdEnableSlot := by
    rw [NotLink]
    decide
  refine (safe_portGet port _).bind fun portsc => (safe_resetPort portsc rounds).bind fun _ => ?_
  refine Safe.ite (fun _ => ?_) fun _ => Safe.pure none
  refine (safe_isEnabled portsc).bind fun _ => ?_
  refine Safe.ite (fun _ => ?_) fun _ => Safe.throw _
  exact (safe_sendCommand hcmd none).bind fun _ => Safe.pure _

/-! ## A device can be addressed on every slot but 0 -/

/-- The input context of a port is made without a panic. -/
theorem addressInputContext_ne_panic (port : ℕ) (msg : String) :
    addressInputContext port ≠ .error (.panic msg) := by
  simp only [addressInputContext, bind, Except.bind,
    InputControlContext.addContext_of_lt (show 0 < 32 by decide),
    InputControlContext.addContext_of_lt (show 1 < 32 by decide),
    InputContext.setRootHubPortNumber, DeviceContext.setRootHubPortNumber]
  split_ifs
  · exact fun h => nomatch h
  · exact fun h => nomatch h

theorem setPortSpeed_ne_panic (ctx : InputContext) (speed : UsbMode) (msg : String) :
    ctx.setPortSpeed speed ≠ .error (.panic msg) := by
  simp only [InputContext.setPortSpeed, DeviceContext.setPortSpeed, bind, Except.bind]
  split_ifs
  · exact fun h => nomatch h
  · exact fun h => nomatch h

/-- An Address Device command is no Link TRB. -/
theorem notLink_cmdAddressDevice (inputContext : BitVec 64) (slot : BitVec 8) :
    NotLink (GenericTrbEntry.cmdAddressDevice inputContext slot) := by
  rw [NotLink, GenericTrbEntry.trbType_cmdAddressDevice]
  decide

/-- `address_device` does not panic for a slot other than 0. -/
theorem safe_addressDevice (port : ℕ) (hslot : slot.toNat ≠ 0) :
    Safe Sound (addressDevice w port slot) := by
  refine safe_newPage.bind fun outputContext => ?_
  have hset : Safe Sound (setOutputContextForSlot slot outputContext.addr :
      Method (Driver σ) Unit) := by
    -- the output context of slot 0 is the assertion that fails
    rw [setOutputContextForSlot, dif_neg hslot]
    exact Safe.modify fun _ h => ⟨h.doorbell, h.commandRing, h.rings⟩
  refine hset.bind fun _ => (safe_lift (addressInputContext_ne_panic port)).bind fun ctx => ?_
  refine (safe_portGet port _).bind fun portsc => (safe_portSpeed portsc).bind fun speed => ?_
  refine (safe_lift (setPortSpeed_ne_panic ctx speed)).bind fun ctx => ?_
  refine safe_newRing.bind fun ring => (safe_maxPacketSize portsc).bind fun size => ?_
  refine Safe.get.bind fun self => ?_
  obtain ⟨epCtx, hepCtx⟩ :=
    EndpointContext.newControlEndpoint_isOk size (self.rings ring).ringPhysAddr
  refine (safe_lift fun msg => by rw [hepCtx]; simp).bind fun epCtx => ?_
  refine (safe_lift fun msg => ?_).bind fun ctx => safe_newPage.bind fun page => ?_
  -- DCI 1 is the control endpoint
  · rw [InputContext.setEpCtx_of_lt le_rfl (by decide)]
    simp
  refine (safe_sendCommand (notLink_cmdAddressDevice _ _) _).bind fun result => ?_
  exact (safe_lift result.cmdResultOk_ne_panic).bind fun _ => Safe.pure _

/-- On slot 0 it panics before it has awaited anything. -/
theorem addressDevice_zero (port : ℕ) (d : Driver σ) :
    ∃ msg d', addressDevice w port 0 d = .error (.panic msg) d' ∧ d'.events = d.events :=
  ⟨_, _, rfl, rfl⟩

/-! ## The slot is the one in the event -/

/-- Waiting takes no event where the test takes none. -/
theorem keeps_waitUntil {cond : Method (Driver σ) Bool} (hcond : cond.Keeps events) (rounds : ℕ) :
    (waitUntil cond rounds).Keeps events := by
  induction rounds with
  | zero => exact Keeps.pure false
  | succ rounds ih => exact hcond.bind fun holds => Keeps.ite (fun _ => Keeps.pure true) fun _ => ih

theorem keeps_portBit (entry pos : ℕ) : (portBit w entry pos).Keeps events := fun _ => rfl

theorem keeps_resetPort (entry rounds : ℕ) : (resetPort w entry rounds).Keeps events := by
  have hassert : ∀ pos, (assertBit w entry pos).Keeps events := fun _ _ => rfl
  refine (hassert 9).bind fun _ => ?_
  refine (keeps_waitUntil (keeps_portBit entry 9) rounds).bind fun _ => ?_
  refine Keeps.ite (fun _ => ?_) fun _ => Keeps.pure false
  exact (hassert 4).bind fun _ =>
    keeps_waitUntil ((keeps_portBit entry 4).bind fun _ => Keeps.pure _) rounds

theorem keeps_isEnabled (entry : ℕ) : (isEnabled w entry).Keeps events := by
  refine (keeps_portBit entry 9).bind fun _ => Keeps.ite (fun _ => ?_) fun _ => Keeps.pure false
  refine (keeps_portBit entry 0).bind fun _ => Keeps.ite (fun _ => ?_) fun _ => Keeps.pure false
  refine (keeps_portBit entry 1).bind fun _ => Keeps.ite (fun _ => ?_) fun _ => Keeps.pure false
  exact (keeps_portBit entry 4).bind fun _ => Keeps.pure _

theorem keeps_portGet (port : ℕ) (msg : String) :
    (portGet port msg : Method (Driver σ) ℕ).Keeps events := by
  have hokOr : ∀ (opt : Option ℕ), (okOr opt msg : Method (Driver σ) ℕ).Keeps events := by
    rintro (_ | entry) d <;> rfl
  have hget : (get : Method (Driver σ) (Driver σ)).Keeps events := fun _ => rfl
  exact hget.bind fun _ => hokOr _

/-- A command that returns has awaited one event, which it returns. -/
theorem events_sendCommand {cmd event : GenericTrbEntry} {input : Option InputContext}
    (h : sendCommand w cmd input d = .ok event d') : d'.events = event :: d.events := by
  simp only [sendCommand, Method.bind_eq_ok] at h
  obtain ⟨ptr, d₁, hpush, _, d₂, hlog, _, d₃, hnotify, answer, d₄, hawait, hpure⟩ := h
  have h₁ := keeps_pushCommand (g := events) (fun _ _ => rfl) cmd d
  have h₃ := keeps_notifyXhc (w := w) (g := events) (fun _ _ _ => rfl) d₂
  rw [Method.stateAfter_of_ok hpush] at h₁
  rw [Method.stateAfter_of_ok hnotify] at h₃
  cases hlog
  cases hawait
  cases hpure
  rw [← h₁]
  exact congrArg _ h₃

/-- `init_port` returns the slot in the event that it has awaited. -/
theorem events_initPort (h : initPort w port rounds d = .ok (some slot) d') :
    ∃ event, d'.events = event :: d.events ∧ slot = event.slotId := by
  rw [initPort, Method.bind_eq_ok] at h
  obtain ⟨portsc, d₁, hget, h⟩ := h
  rw [Method.bind_eq_ok] at h
  obtain ⟨ready, d₂, hreset, h⟩ := h
  -- no event is awaited before the command
  have h₁ := keeps_portGet port "Port not found" d
  have h₂ := keeps_resetPort (w := w) portsc rounds d₁
  rw [Method.stateAfter_of_ok hget] at h₁
  rw [Method.stateAfter_of_ok hreset] at h₂
  cases ready with
  | false => cases h
  | true =>
    rw [if_pos rfl, Method.bind_eq_ok] at h
    obtain ⟨enabled, d₃, henabled, h⟩ := h
    have h₃ := keeps_isEnabled (w := w) portsc d₂
    rw [Method.stateAfter_of_ok henabled] at h₃
    cases enabled with
    | false => cases h
    | true =>
      rw [if_pos rfl, Method.bind_eq_ok] at h
      obtain ⟨event, d₄, hsend, h⟩ := h
      cases h
      exact ⟨event, by rw [events_sendCommand hsend, h₃, h₂, h₁], rfl⟩

/-! ## Which answers are checked -/

/-- The first event that is awaited from `d` to `d'`. -/
def FirstAwaited (event : GenericTrbEntry) (d d' : Driver σ) : Prop :=
  event :: d.events <:+ d'.events

/-- Where Enable Slot is answered by the event, `init_port` returns a slot only if the event is a
success and the slot is not 0, and `address_device` does not panic on what it returns. -/
def ChecksEnableSlot (event : GenericTrbEntry) : Prop :=
  ∀ {σ : Type} (w : World σ) (port rounds : ℕ) (d d' : Driver σ), d.Sound →
    FirstAwaited event d d' →
      (∀ slot, initPort w port rounds d = .ok (some slot) d' →
        event.completionCode = 1 ∧ 1 ≤ slot.toNat) ∧
      (∀ msg, initPort w port rounds d ≠ .error (.panic msg) d') ∧
      ∀ msg, bringUpPort w port rounds d ≠ .error (.panic msg) d'

theorem FirstAwaited.eq {event event' : GenericTrbEntry} (h : FirstAwaited event d d')
    (h' : d'.events = event' :: d.events) : event = event' := by
  rw [FirstAwaited, h'] at h
  have heq := h.eq_of_length (by rw [List.length_cons, List.length_cons])
  exact (List.cons.inj heq).1

/-- A port that is powered, connected and enabled. -/
def readyPort : BitVec 32 := 0x203

/-- The bit of a register that does not change. -/
theorem portBit_steady (value : BitVec 32) (event : GenericTrbEntry) (entry pos : ℕ)
    (d : Driver Unit) :
    portBit (.steady value event) entry pos d = .ok ((value &&& 1#32 <<< pos) != 0) d := rfl

/-- A port that is ready is reset in one round. -/
theorem returns_resetPort {d : Driver Unit} {regs : XhcRegisters} (h : d.SoundAt regs)
    (event : GenericTrbEntry) (entry : ℕ) :
    Returns (fun ended d' => ended = true ∧ d'.SoundAt regs)
      (resetPort (.steady readyPort event) entry 1) d := by
  have hassert : ∀ (pos : ℕ) (d : Driver Unit), d.SoundAt regs →
      Returns (fun _ d' => d'.SoundAt regs) (assertBit (.steady readyPort event) entry pos) d :=
    fun pos d h => ⟨_, _, rfl, ⟨h.1.doorbell, h.1.commandRing, h.1.rings⟩, h.2⟩
  refine (hassert 9 d h).bind fun _ d₁ h₁ => ?_
  have hpp : waitUntil (pp (.steady readyPort event) entry) 1 d₁ = .ok true d₁ := by
    have hread : pp (.steady readyPort event) entry d₁ = .ok true d₁ :=
      portBit_steady readyPort event entry 9 d₁
    rw [waitUntil, Method.bind_of_ok hread]
    rfl
  rw [Returns, Method.bind_of_ok hpp, if_pos rfl]
  refine (hassert 4 d₁ h₁).bind fun _ d₂ h₂ => ⟨true, d₂, ?_, rfl, h₂⟩
  have hpr : (do return !(← pr (.steady readyPort event) entry) : Method (Driver Unit) Bool) d₂ =
      .ok true d₂ := Method.bind_of_ok (portBit_steady readyPort event entry 4 d₂)
  rw [waitUntil, Method.bind_of_ok hpr]
  rfl

/-- The port of the example is always enabled. -/
theorem isEnabled_steady (event : GenericTrbEntry) (entry : ℕ) (d : Driver Unit) :
    isEnabled (.steady readyPort event) entry d = .ok true d := by
  rw [isEnabled, pp, Method.bind_of_ok (portBit_steady readyPort event entry 9 d),
    if_pos (by decide), ccs, Method.bind_of_ok (portBit_steady readyPort event entry 0 d),
    if_pos (by decide), ped, Method.bind_of_ok (portBit_steady readyPort event entry 1 d),
    if_pos (by decide), pr, Method.bind_of_ok (portBit_steady readyPort event entry 4 d)]
  rfl

/-- A port that is ready is given the slot in the event. -/
theorem initPort_steady (event : GenericTrbEntry) :
    ∃ d', initPort (.steady readyPort event) 1 1 startEightPorts =
        .ok (some event.slotId) d' ∧ FirstAwaited event startEightPorts d' := by
  have hget : portGet 1 "Port not found" startEightPorts = .ok 0x10480 startEightPorts := rfl
  obtain ⟨ended, d₁, hreset, ⟨rfl, h₁⟩, hevents₁⟩ := (returns_resetPort sound_startEightPorts event
    0x10480).and_keeps (keeps_resetPort 0x10480 1)
  have henabled := isEnabled_steady event 0x10480 d₁
  have hcmd : NotLink GenericTrbEntry.cmdEnableSlot := by
    rw [NotLink]
    decide
  obtain ⟨answer, d₂, hsend, rfl, -⟩ := returns_sendCommand (w := .steady readyPort event)
    (P := fun answer => answer = event) h₁ hcmd none fun _ => rfl
  refine ⟨d₂, ?_, ?_⟩
  · rw [initPort, Method.bind_of_ok hget, Method.bind_of_ok hreset, if_pos rfl,
      Method.bind_of_ok henabled, if_pos rfl, Method.bind_of_ok hsend]
    rfl
  · rw [FirstAwaited, events_sendCommand hsend, hevents₁]

/-- A slot other than 0 is never the reason for a panic. -/
theorem bringUpPort_ne_panic {event : GenericTrbEntry} (hslot : event.slotId.toNat ≠ 0)
    (h : d.Sound) (hfirst : FirstAwaited event d d') (msg : String) :
    bringUpPort w port rounds d ≠ .error (.panic msg) d' := by
  intro hpanic
  rcases safe_initPort (w := w) port rounds d h with ⟨a, d₁, hrun, h₁⟩ | ⟨msg', d₁, hrun, -⟩
  case inr =>
    rw [bringUpPort, Method.bind_of_error hrun] at hpanic
    cases hpanic
  rw [bringUpPort, Method.bind_of_ok hrun] at hpanic
  cases a with
  | none => cases hpanic
  | some slot =>
    obtain ⟨event', hevents, rfl⟩ := events_initPort hrun
    by_cases hzero : event'.slotId.toNat = 0
    · -- the panic comes before the next event, so that the one awaited is the one of the slot
      have hslot' : event'.slotId = 0 := BitVec.eq_of_toNat_eq hzero
      obtain ⟨msg', d₂, hrun', hevents'⟩ := addressDevice_zero (w := w) port d₁
      rw [← hslot'] at hrun'
      dsimp only at hpanic
      rw [Method.bind_of_error hrun'] at hpanic
      cases hpanic
      rw [hfirst.eq (hevents'.trans hevents)] at hslot
      exact hslot hzero
    -- later events may be any others, none of them makes the rest panic
    · have hsafe := (safe_addressDevice (w := w) port hzero).bind fun ring =>
        Safe.pure (I := Sound) (some ring)
      exact hsafe.ne_panic h₁ msg hpanic

/-- The answers to Enable Slot that are checked are the ones that are a success with a slot other
than 0. -/
theorem checksEnableSlot_iff (event : GenericTrbEntry) :
    ChecksEnableSlot event ↔ event.completionCode = 1 ∧ 1 ≤ event.slotId.toNat := by
  constructor
  · intro hchecks
    obtain ⟨d', hrun, hfirst⟩ := initPort_steady event
    exact (hchecks _ 1 1 startEightPorts d' sound_startEightPorts.1 hfirst).1 _ hrun
  · rintro ⟨hcode, hslot⟩ σ w port rounds d d' h hfirst
    refine ⟨fun slot hrun => ⟨hcode, ?_⟩, fun msg => (safe_initPort port rounds).ne_panic h msg,
      bringUpPort_ne_panic (Nat.one_le_iff_ne_zero.1 hslot) h hfirst⟩
    obtain ⟨event', hevents, rfl⟩ := events_initPort hrun
    rwa [← hfirst.eq hevents]

/-- The answer of a controller that has no slot left: completion code 9 and slot 0. -/
def noSlotsAvailable : GenericTrbEntry where
  data := 0
  option := 9 <<< 24
  control := TrbType.commandCompletionEvent.toU32 <<< 10

/-- An event that says that there is no slot leaves the driver with slot 0, and a panic. -/
theorem not_checksEnableSlot_noSlotsAvailable : ¬ChecksEnableSlot noSlotsAvailable := by
  intro hchecks
  obtain ⟨d', hrun, hfirst⟩ := initPort_steady noSlotsAvailable
  have hcode := ((hchecks _ 1 1 startEightPorts d' sound_startEightPorts.1 hfirst).1 _ hrun).1
  exact absurd hcode (by decide)

end Driver

end Mushix
