import Mushix.Lib.Run
import Mushix.Xhci.BulkEndpoints

/-!
# The Context Entries of a slot

`configure_bulk_endpoint` is called for one endpoint after the other, and each command carries the
number of the last valid context of the slot.

* `EndpointSystem`: the calls on one slot, in any order and with whatever the hardware answers;
* `EndpointSystem.coversConfigured_iff`: for which calls no command leaves out an endpoint that
  was configured before.
-/

namespace Mushix

open CommandRing (NotLink)
open Method (Keeps Returns)

/-- A call of `configure_bulk_endpoint`. -/
structure ConfigureCall where
  epDesc : EndpointDescriptor
  dci : ℕ
  lower : 2 ≤ dci
  upper : dci ≤ 31

/-- A Configure Endpoint command that was issued. -/
structure Issued where
  /-- The Context Entries in its input context. -/
  contextEntries : ℕ
  /-- The DCI that is being configured and those that were configured before. -/
  dcis : List ℕ

/-- No endpoint is left out. -/
def Issued.Covers (cmd : Issued) : Prop := ∀ dci ∈ cmd.dcis, dci ≤ cmd.contextEntries

/-- The driver, and what has happened on one slot. -/
structure EndpointSystem (σ : Type) where
  driver : Driver σ
  /-- The DCIs whose configuration was a success, the last one first. -/
  configured : List ℕ
  /-- The commands, the last one first. -/
  issued : List Issued

/-- The Context Entries that a command carries. -/
def Command.contextEntries (cmd : Command) : ℕ := cmd.input.elim 0 InputContext.contextEntries

namespace EndpointSystem

variable {σ : Type} (w : World σ) (slot : BitVec 8)

/-- One call: the commands that it adds to those of the driver were issued. -/
def step (call : ConfigureCall) (s : EndpointSystem σ) : EndpointSystem σ :=
  let x := Driver.configureBulkEndpoint w slot call.epDesc call.dci
  let driver := x.stateAfter s.driver
  let fresh := driver.commands.take (driver.commands.length - s.driver.commands.length)
  { driver
    configured :=
      match x s.driver with
      | .ok _ _ => call.dci :: s.configured
      | .error _ _ => s.configured
    issued := (fresh.map fun cmd =>
      { contextEntries := cmd.contextEntries, dcis := call.dci :: s.configured }) ++ s.issued }

/-- A slot before the first call. -/
def start (d : Driver σ) : EndpointSystem σ := { driver := d, configured := [], issued := [] }

/-- No command so far leaves out an endpoint. -/
def Covering (s : EndpointSystem σ) : Prop := ∀ cmd ∈ s.issued, cmd.Covers

end EndpointSystem

namespace Driver

variable {σ : Type} (w : World σ) (slot : BitVec 8)

/-- A command is logged when its TRB is pushed, and only then. -/
theorem commands_sendCommand (cmd : GenericTrbEntry) (input : Option InputContext)
    (d : Driver σ) :
    let d' := (sendCommand w cmd input).stateAfter d
    (d'.commands = d.commands ∧ ∃ e c, CommandRing.push cmd d.commandRing = .error e c) ∨
      d'.commands = { trb := cmd, input } :: d.commands := by
  intro d'
  have hrest : (do
      notifyXhc w
      return (← awaitEvent w).1 : Method (Driver σ) GenericTrbEntry).Keeps commands :=
    (keeps_notifyXhc fun _ _ _ => rfl).bind fun _ _ => rfl
  cases hpush : CommandRing.push cmd d.commandRing with
  | error e c =>
    have hd' : d' = { d with commandRing := c } :=
      Method.stateAfter_of_error (Method.bind_of_error (pushCommand_of_error hpush))
    exact .inl ⟨by rw [hd'], e, c, rfl⟩
  | ok ptr c =>
    refine .inr ?_
    show ((sendCommand w cmd input).stateAfter d).commands = _
    rw [sendCommand, Method.stateAfter_bind_of_ok (pushCommand_of_ok hpush)]
    exact hrest _

/-- A call issues at most one command, whose Context Entries are the DCI of the call. -/
theorem commands_configureBulkEndpoint (call : ConfigureCall) (d : Driver σ) :
    let d' := (configureBulkEndpoint w slot call.epDesc call.dci).stateAfter d
    (d'.commands = d.commands ∧
        ∃ trb e c, NotLink trb ∧ CommandRing.push trb d.commandRing = .error e c) ∨
      ∃ cmd : Command, d'.commands = cmd :: d.commands ∧ cmd.contextEntries = call.dci := by
  intro d'
  -- the ring and the page for the input context are no commands
  obtain ⟨epRing, d₁, hring, hkeep, hcommandRing⟩ : ∃ epRing d₁, newRing w d = .ok epRing d₁ ∧
      d₁.commands = d.commands ∧ d₁.commandRing = d.commandRing := ⟨_, _, rfl, rfl, rfl⟩
  obtain ⟨ctx, epCtx, hctx, hentries, -⟩ := bulkInputContext_eq call.epDesc
    (show 1 ≤ call.dci from le_trans (by decide) call.lower) call.upper
    (d₁.rings epRing).ringPhysAddr
  have hlift : (lift (bulkInputContext call.epDesc call.dci (d₁.rings epRing).ringPhysAddr) :
      Method (Driver σ) _) d₁ = .ok ctx d₁ := by rw [hctx]; rfl
  obtain ⟨page, d₂, hpage, hkeep₂, hcommandRing₂⟩ : ∃ page d₂, newPage w d₁ = .ok page d₂ ∧
      d₂.commands = d₁.commands ∧ d₂.commandRing = d₁.commandRing := ⟨_, _, rfl, rfl, rfl⟩
  let cmd := GenericTrbEntry.cmdConfigureEndpoint page.addr slot
  have hend : ∀ result : GenericTrbEntry, (do
      lift result.cmdResultOk
      return epRing : Method (Driver σ) ℕ).Keeps commands := by
    intro result
    refine Keeps.bind (fun d => ?_) fun _ => Keeps.pure _
    cases result.cmdResultOk <;> rfl
  have hcommands : d'.commands = ((sendCommand w cmd (some ctx)).stateAfter d₂).commands := by
    show ((configureBulkEndpoint w slot call.epDesc call.dci).stateAfter d).commands = _
    rw [configureBulkEndpoint, Method.stateAfter_bind_of_ok hring,
      Method.stateAfter_bind_of_ok (show (get : Method (Driver σ) _) d₁ = .ok d₁ d₁ from rfl),
      Method.stateAfter_bind_of_ok hlift, Method.stateAfter_bind_of_ok hpage]
    exact Keeps.stateAfter_bind hend d₂
  rw [hcommands, ← hkeep, ← hkeep₂]
  rcases commands_sendCommand w cmd (some ctx) d₂ with ⟨hsame, e, c, hpush⟩ | hadd
  -- without a place on the command ring nothing is issued
  · rw [hcommandRing₂, hcommandRing] at hpush
    exact .inl ⟨hsame, cmd, e, c, notLink_cmdConfigureEndpoint _ _, hpush⟩
  · exact .inr ⟨_, hadd, hentries⟩

/-- A call on a sound driver issues one command. -/
theorem commands_configureBulkEndpoint_of_sound (call : ConfigureCall) {d : Driver σ}
    (h : d.Sound) :
    let d' := (configureBulkEndpoint w slot call.epDesc call.dci).stateAfter d
    ∃ cmd : Command, d'.commands = cmd :: d.commands ∧ cmd.contextEntries = call.dci := by
  refine (commands_configureBulkEndpoint w slot call d).resolve_left ?_
  rintro ⟨-, trb, e, c, htrb, hpush⟩
  obtain ⟨hist, htracks⟩ := h.commandRing
  obtain ⟨c', hok, -⟩ := htracks.push htrb
  rw [hok] at hpush
  cases hpush

/-- A call returns where every event is a success. -/
theorem returns_configureBulkEndpoint (call : ConfigureCall) {d : Driver σ} {regs : XhcRegisters}
    (h : d.SoundAt regs) (hevent : ∀ hw, (w.event hw).1.1.cmdResultOk = .ok ()) :
    Returns (fun _ d' => d'.SoundAt regs)
      (configureBulkEndpoint w slot call.epDesc call.dci) d := by
  have hring : Returns (fun _ d' => d'.SoundAt regs) (newRing w) d :=
    ⟨_, _, rfl, ⟨h.1.doorbell, h.1.commandRing,
      h.1.update ⟨[], CommandRing.tracks_default _⟩⟩, h.2⟩
  refine hring.bind fun epRing d₁ h₁ => ?_
  -- the bounds of the call are those that the setters check
  obtain ⟨ctx, epCtx, hctx, -⟩ := bulkInputContext_eq call.epDesc
    (show 1 ≤ call.dci from le_trans (by decide) call.lower) call.upper
    (d₁.rings epRing).ringPhysAddr
  have hlift : Returns (fun _ d' => d'.SoundAt regs)
      (lift (bulkInputContext call.epDesc call.dci (d₁.rings epRing).ringPhysAddr)) d₁ := by
    rw [hctx]
    exact Returns.pure h₁
  show Returns _ (lift (bulkInputContext call.epDesc call.dci (d₁.rings epRing).ringPhysAddr) >>= _)
    d₁
  refine hlift.bind fun inputContext d₂ h₂ => ?_
  have hpage : Returns (fun _ d' => d'.SoundAt regs) (newPage w) d₂ :=
    ⟨_, _, rfl, ⟨h₂.1.doorbell, h₂.1.commandRing, h₂.1.rings⟩, h₂.2⟩
  refine hpage.bind fun page d₃ h₃ => ?_
  refine (returns_sendCommand (P := fun result => result.cmdResultOk = .ok ()) h₃
    (notLink_cmdConfigureEndpoint _ _) _ hevent).bind ?_
  rintro result d₄ ⟨hresult, h₄⟩
  rw [hresult]
  exact Returns.pure h₄

end Driver

namespace EndpointSystem

variable {σ : Type} {w : World σ} {slot : BitVec 8} {s : EndpointSystem σ}

/-- The command of a call, when its Context Entries are the DCI of the call. -/
def ownCommand (call : ConfigureCall) (s : EndpointSystem σ) : Issued :=
  { contextEntries := call.dci, dcis := call.dci :: s.configured }

/-- A call issues its own command or none. -/
theorem issued_step (w : World σ) (slot : BitVec 8) (call : ConfigureCall) (s : EndpointSystem σ) :
    (step w slot call s).issued = s.issued ∨
      (step w slot call s).issued = ownCommand call s :: s.issued := by
  rcases Driver.commands_configureBulkEndpoint w slot call s.driver with
    ⟨hsame, -⟩ | ⟨cmd, hadd, hentries⟩
  · refine .inl ?_
    simp only [step, hsame, Nat.sub_self, List.take_zero, List.map_nil, List.nil_append]
  · refine .inr ?_
    simp only [step, hadd, List.length_cons, Nat.add_sub_cancel_left, List.take_succ_cons,
      List.take_zero, List.map_cons, List.map_nil, hentries]
    rfl

/-- A call configures its own DCI or none. -/
theorem mem_configured_step {call : ConfigureCall} {dci : ℕ}
    (h : dci ∈ (step w slot call s).configured) : dci = call.dci ∨ dci ∈ s.configured := by
  unfold step at h
  dsimp only at h
  split at h
  · exact List.mem_cons.1 h
  · exact .inr h

/-- Calls in the order of their DCIs leave out no endpoint. -/
theorem always_covering {calls : List ConfigureCall}
    (hsorted : calls.Pairwise fun a b => a.dci ≤ b.dci)
    (hbefore : ∀ dci ∈ s.configured, ∀ call ∈ calls, dci ≤ call.dci) (h : s.Covering) :
    Run.Always (step w slot) Covering calls s := by
  induction calls generalizing s with
  | nil => exact h
  | cons call calls ih =>
    obtain ⟨hfirst, hrest⟩ := List.pairwise_cons.1 hsorted
    refine ⟨h, ih hrest ?_ ?_⟩
    · intro dci hdci later hlater
      -- what is configured now is the DCI of this call, which comes before the later ones
      rcases mem_configured_step hdci with rfl | hold
      · exact hfirst later hlater
      · exact hbefore dci hold later (List.mem_cons_of_mem _ hlater)
    · intro cmd hcmd
      rcases issued_step w slot call s with hsame | hadd
      · rw [hsame] at hcmd
        exact h cmd hcmd
      · rw [hadd] at hcmd
        rcases List.mem_cons.1 hcmd with rfl | hold
        · intro dci hdci
          rcases List.mem_cons.1 hdci with rfl | hconfigured
          · exact le_rfl
          · exact hbefore dci hconfigured call List.mem_cons_self
        · exact h cmd hold

/-- Where every command is a success, a call issues its command and configures its DCI. -/
theorem step_of_success (slot : BitVec 8) {regs : XhcRegisters} (hsound : s.driver.SoundAt regs)
    (hevent : ∀ hw, (w.event hw).1.1.cmdResultOk = .ok ()) (call : ConfigureCall) :
    (step w slot call s).driver.SoundAt regs ∧
      (step w slot call s).configured = call.dci :: s.configured ∧
      ownCommand call s ∈ (step w slot call s).issued := by
  obtain ⟨ring, d', hrun, hsound'⟩ :=
    Driver.returns_configureBulkEndpoint w slot call hsound hevent
  refine ⟨?_, ?_, ?_⟩
  · show ((Driver.configureBulkEndpoint w slot call.epDesc call.dci).stateAfter s.driver).SoundAt _
    rwa [Method.stateAfter_of_ok hrun]
  · simp only [step, hrun]
  · obtain ⟨cmd, hadd, hentries⟩ := Driver.commands_configureBulkEndpoint_of_sound w slot
      call hsound.1
    simp only [step, hadd, List.length_cons, Nat.add_sub_cancel_left, List.take_succ_cons,
      List.take_zero, List.map_cons, List.map_nil, hentries]
    exact List.mem_cons_self

/-- Where every command is a success, calls that leave out no endpoint are in the order of their
DCIs. -/
theorem pairwise_of_always {regs : XhcRegisters} (hsound : s.driver.SoundAt regs)
    (hevent : ∀ hw, (w.event hw).1.1.cmdResultOk = .ok ()) {calls : List ConfigureCall}
    (h : Run.Always (step w slot) Covering calls s) :
    (∀ dci ∈ s.configured, ∀ call ∈ calls, dci ≤ call.dci) ∧
      calls.Pairwise fun a b => a.dci ≤ b.dci := by
  induction calls generalizing s with
  | nil =>
    refine ⟨fun _ _ call hcall => ?_, List.Pairwise.nil⟩
    cases hcall
  | cons call calls ih =>
    obtain ⟨hsound', hconfigured, hissued⟩ := step_of_success slot hsound hevent call
    obtain ⟨hbefore, hsorted⟩ := ih hsound' h.2
    rw [hconfigured] at hbefore
    -- the command of this call is issued whatever was before, so its Context Entries cover that
    have hcovers := h.2.first _ hissued
    refine ⟨fun dci hdci later hlater => ?_, List.pairwise_cons.2 ⟨?_, hsorted⟩⟩
    · rcases List.mem_cons.1 hlater with rfl | hrest
      · exact hcovers dci (List.mem_cons_of_mem _ hdci)
      · exact hbefore dci (List.mem_cons_of_mem _ hdci) later hrest
    · exact hbefore call.dci List.mem_cons_self

/-- Whatever the hardware answers, no command of the calls leaves out an endpoint that is being
configured or was configured before. -/
def CoversConfigured (calls : List ConfigureCall) : Prop :=
  ∀ {σ : Type} (w : World σ) (slot : BitVec 8) (d : Driver σ),
    Run.Always (step w slot) Covering calls (start d)

/-- An event for a command that was a success. -/
def successfulCommand : GenericTrbEntry where
  data := 0
  option := 1 <<< 24
  control := TrbType.commandCompletionEvent.toU32 <<< 10

/-- Where Context Entries covers all that is configured, no call has a lower DCI than one before it.
-/
theorem pairwise_of_coversConfigured {calls : List ConfigureCall} (h : CoversConfigured calls) :
    calls.Pairwise fun a b => a.dci ≤ b.dci := by
  let w : World Unit := .steady 0 successfulCommand
  let s := start Driver.startEightPorts
  have hevent : ∀ hw, (w.event hw).1.1.cmdResultOk = .ok () := by
    intro hw
    show successfulCommand.cmdResultOk = .ok ()
    rfl
  have halways : Run.Always (step w 1) Covering calls s := h w 1 Driver.startEightPorts
  -- one hardware is enough here, on which every command is a success
  have hsound : s.driver.SoundAt (.placed 0x10000 Driver.eightPorts) :=
    Driver.sound_startEightPorts
  exact (pairwise_of_always hsound hevent halways).2

/-- The calls whose commands leave out no endpoint are the calls in the order of their DCIs. -/
theorem coversConfigured_iff (calls : List ConfigureCall) :
    CoversConfigured calls ↔ calls.Pairwise fun a b => a.dci ≤ b.dci := by
  constructor
  · exact fun h => pairwise_of_coversConfigured h
  · intro hsorted σ w slot d
    refine always_covering hsorted ?_ ?_
    · intro dci hdci
      cases hdci
    · intro cmd hcmd
      cases hcmd

/-- OUT endpoint 2 and then IN endpoint 1, the order in which a mass storage device is
configured. -/
def outThenIn : List ConfigureCall :=
  [⟨Driver.bulkEndpoint 0x02, 4, by decide, by decide⟩,
    ⟨Driver.bulkEndpoint 0x81, 3, by decide, by decide⟩]

/-- A bulk OUT endpoint behind a bulk IN endpoint with a higher DCI makes Context Entries too small.
-/
theorem not_coversConfigured_outThenIn : ¬CoversConfigured outThenIn := by
  intro h
  have hsorted := pairwise_of_coversConfigured h
  have hle : 4 ≤ 3 := (List.pairwise_cons.1 hsorted).1 _ List.mem_cons_self
  omega

end EndpointSystem

end Mushix
