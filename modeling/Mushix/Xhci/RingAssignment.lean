import Mushix.Xhci.DriverRun
import Mushix.Xhci.RingUse

/-!
# Rings and their endpoints

How a new transfer ring comes to its endpoint: the ring is made, a command tells the controller
about it, and then the driver uses it for this endpoint only.

* `Driver.Serves.newRing`, `Driver.Serves.assign`: a ring without a use, and with one;
* `Driver.Knows`: the driver serves its rings, and some of them are known to be used for something;
* `Driver.ends_addressDevice`, `Driver.ends_configureBulkEndpoint`: the calls that make a ring;
* `Driver.stays_handleMassStorageDevice`: the calls that use it.
-/

namespace Mushix

open CommandRing (NotLink)
open Method (Ends Stays)

namespace Driver

variable {σ : Type} {w : World σ} {d : Driver σ} {use : ℕ → RingUse} {known : List (ℕ × RingUse)}
  {slot : BitVec 8} {r dci : ℕ}

/-! ## Commands -/

/-- The doorbell for commands, which may be missing. -/
theorem stays_notifyXhc : Stays (Serves use) (notifyXhc w) := by
  intro d h
  cases hdoorbells : d.regs.doorbellRegs with
  | nil =>
    have hnone : d.regs.doorbellRegs.length ≤ 0 := by rw [hdoorbells]; exact le_rfl
    have hindex := Slice.run_index_of_le hnone d
    refine Ends.of_error (e := .panic "index out of bounds") ?_ h
    rw [notifyXhc, Method.run_get_bind, Method.bind_of_error hindex]
  | cons db rest =>
    have hdb : d.regs.doorbellRegs[0]? = some db := by rw [hdoorbells]; rfl
    rw [Ends, notifyXhc, Method.run_get_bind, Method.bind_of_ok (Slice.run_index hdb d)]
    exact h.store (db, _) (.inr (.inr (.inl ⟨hdb, rfl⟩))) _

/-- What the doorbell and the event leave as they are. -/
theorem keeps_notifyXhc_rings :
    (notifyXhc w).Keeps fun d => (d.rings, d.ringCount, d.commands) :=
  keeps_notifyXhc fun _ _ _ => rfl

/-- A command is on the command ring before the doorbell for commands rings. -/
theorem ends_sendCommand (h : d.Serves use) {cmd : GenericTrbEntry} (hcmd : NotLink cmd)
    (houtput : cmd.trbType = TrbType.addressDeviceCommand.toU32 → d.HasOutput cmd.slotId)
    (input : Option InputContext) :
    Ends (Serves use) (fun _ d' => d'.Serves use ∧ { trb := cmd, input } ∈ d'.commands ∧
      d'.rings = d.rings ∧ d'.ringCount = d.ringCount) (sendCommand w cmd input) d := by
  obtain ⟨c, hpush, htracks, -⟩ := h.commandRing.push hcmd
  let sent : Driver σ :=
    { d with commandRing := c, commands := { trb := cmd, input } :: d.commands }
  have hsent : sent.Serves use :=
    { commandRing := by
        rw [List.reverse_cons, List.map_append]
        exact htracks
      rings := h.rings
      announced := fun r => (h.announced r).cons _
      stores := h.stores
      fresh := h.fresh
      outputs := List.forall_mem_cons.2 ⟨houtput, h.outputs⟩ }
  rw [Ends, sendCommand, Method.bind_of_ok (pushCommand_of_ok hpush)]
  -- the doorbell changes neither the commands nor the rings
  have hnotify : Ends (Serves use) (fun _ d' => d'.Serves use ∧
      { trb := cmd, input } ∈ d'.commands ∧ d'.rings = d.rings ∧ d'.ringCount = d.ringCount)
      (notifyXhc w) sent := by
    cases hrun : notifyXhc w sent with
    | ok a d' =>
      have hkeep := keeps_notifyXhc_rings (w := w) sent
      rw [Method.stateAfter_of_ok hrun] at hkeep
      simp only [Prod.mk.injEq] at hkeep
      refine Ends.of_ok hrun ⟨(stays_notifyXhc sent hsent).ok hrun, ?_, hkeep.1, hkeep.2.1⟩
      rw [hkeep.2.2]
      exact List.mem_cons_self
    | error e d' => exact Ends.of_error hrun ((stays_notifyXhc sent hsent).error hrun)
  refine hnotify.bind fun _ d' h' => ?_
  exact ⟨seen_serves use d' _ rfl h'.1, h'.2⟩

/-! ## New rings -/

/-- A new ring is not used yet. -/
theorem Serves.newRing (h : d.Serves use) : ∃ d', newRing w d = .ok d.ringCount d' ∧
    d'.Serves use ∧ use d.ringCount = .unused ∧ d'.ringCount = d.ringCount + 1 ∧
      d'.outputContexts = d.outputContexts := by
  refine ⟨_, rfl, ⟨h.commandRing, fun r => ?_, fun r => ?_, h.stores, fun r hr => ?_, h.outputs⟩,
    ?_, rfl, rfl⟩
  · by_cases hr : r = d.ringCount
    · refine ⟨[], ?_, RingUse.carries_nil _⟩
      rw [hr]
      show CommandRing.Tracks (Function.update d.rings d.ringCount _ d.ringCount) []
      rw [Function.update_self]
      exact CommandRing.tracks_default _
    · show ∃ hist, CommandRing.Tracks (Function.update d.rings d.ringCount _ r) hist ∧ _
      rw [Function.update_of_ne hr]
      exact h.rings r
  · by_cases hr : r = d.ringCount
    · rw [h.fresh r hr.ge]
      exact trivial
    · show RingUse.AnnouncedBy d.commands
        (CommandRing.ringPhysAddr (Function.update d.rings d.ringCount _ r)) (use r)
      rw [Function.update_of_ne hr]
      exact h.announced r
  · exact h.fresh r ((Nat.le_succ _).trans hr)
  · exact h.fresh _ le_rfl

/-- A ring gets its use when the controller was told about it. -/
theorem Serves.assign (h : d.Serves use) (hunused : use r = .unused) (hlt : r < d.ringCount)
    {u : RingUse} (hannounced : u.AnnouncedBy d.commands (d.rings r).ringPhysAddr) :
    d.Serves (Function.update use r u) where
  commandRing := h.commandRing
  rings r' := by
    by_cases hr : r' = r
    · subst hr
      obtain ⟨hist, htracks, hcarries⟩ := h.rings r'
      rw [hunused] at hcarries
      rw [Function.update_self]
      exact ⟨hist, htracks, hcarries ▸ u.carries_nil⟩
    · rw [Function.update_of_ne hr]
      exact h.rings r'
  announced r' := by
    by_cases hr : r' = r
    · subst hr
      rwa [Function.update_self]
    · rw [Function.update_of_ne hr]
      exact h.announced r'
  stores store hstore := by
    refine (h.stores store hstore).imp_right (.imp_right (.imp_right ?_))
    rintro ⟨r', slot, dci, hrung, hdb⟩
    refine ⟨r', slot, dci, ?_, hdb⟩
    -- the doorbell of a ring without an endpoint was not rung
    have hr : r' ≠ r := by
      rintro rfl
      rw [hunused] at hrung
      exact hrung
    rwa [Function.update_of_ne hr]
  fresh r' hr' := by
    rw [Function.update_of_ne (Nat.ne_of_gt (hlt.trans_le hr'))]
    exact h.fresh r' hr'
  outputs := h.outputs

/-! ## Rings whose use is known -/

/-- The driver serves its rings, and these rings are used for this. -/
def Knows (known : List (ℕ × RingUse)) (d : Driver σ) : Prop :=
  ∃ use, d.Serves use ∧ ∀ p ∈ known, p.2 ≠ .unused ∧ use p.1 = p.2

/-- A driver that knows the use of some rings knows that of fewer. -/
theorem Knows.mono {known' : List (ℕ × RingUse)} (h : d.Knows known) (hsub : known' ⊆ known) :
    d.Knows known' := by
  obtain ⟨use, hserves, hknown⟩ := h
  exact ⟨use, hserves, fun p hp => hknown p (hsub hp)⟩

/-- What a call keeps for all uses that are known. -/
theorem stays_knows {α : Type} {x : Method (Driver σ) α}
    (hx : ∀ use, (∀ p ∈ known, use p.1 = p.2) → Stays (Serves use) x) : Stays (Knows known) x := by
  rintro d ⟨use, h, hknown⟩
  have hends := hx use (fun p hp => (hknown p hp).2) d h
  exact hends.imp (fun _ h' => ⟨use, h', hknown⟩) fun _ _ h' => ⟨use, h', hknown⟩

/-- What the driver knows does not depend on the hardware. -/
theorem seen_knows (known : List (ℕ × RingUse)) : Seen (σ := σ) (Knows known) := by
  rintro d d' hview ⟨use, h, hknown⟩
  exact ⟨use, seen_serves use d d' hview h, hknown⟩

/-- The use of a new ring is known when the controller was told about it. -/
theorem Serves.knows (h : d.Serves use) (hknown : ∀ p ∈ known, p.2 ≠ .unused ∧ use p.1 = p.2)
    (hunused : use r = .unused) (hlt : r < d.ringCount) {u : RingUse} (hu : u ≠ .unused)
    (hannounced : u.AnnouncedBy d.commands (d.rings r).ringPhysAddr) :
    d.Knows ((r, u) :: known) := by
  refine ⟨Function.update use r u, h.assign hunused hlt hannounced, ?_⟩
  refine List.forall_mem_cons.2 ⟨⟨hu, Function.update_self ..⟩, fun p hp => ?_⟩
  obtain ⟨hp, huse⟩ := hknown p hp
  refine ⟨hp, ?_⟩
  rw [Function.update_of_ne, huse]
  intro hr
  rw [← huse, hr] at hp
  exact hp hunused

/-! ## The steps of the driver -/

theorem stays_portGet {I : Driver σ → Prop} (port : ℕ) (msg : String) :
    Stays I (portGet port msg : Method (Driver σ) ℕ) :=
  Stays.get_bind fun _ => stays_okOr _ _

/-- A slot gets its output context. -/
theorem ends_setOutputContextForSlot (h : d.Serves use) (outputContext : BitVec 64) :
    Ends (Serves use) (fun _ d' => d'.Serves use ∧ d'.HasOutput slot)
      (setOutputContextForSlot slot outputContext : Method (Driver σ) Unit) d := by
  have hlt := slot.isLt
  unfold setOutputContextForSlot
  split
  case isTrue hzero => exact Ends.throw h
  case isFalse hpos =>
    let i : Fin 255 := ⟨slot.toNat - 1, by omega⟩
    have hset : ∀ j, (Function.update d.outputContexts i (some outputContext) j).isSome = true ↔
        j = i ∨ (d.outputContexts j).isSome = true := by
      intro j
      by_cases hj : j = i <;> simp [hj]
    refine ⟨⟨h.commandRing, h.rings, h.announced, h.stores, h.fresh, fun cmd hcmd htype => ?_⟩, ?_⟩
    · obtain ⟨j, hj, hsome⟩ := h.outputs cmd hcmd htype
      exact ⟨j, hj, (hset j).2 (.inr hsome)⟩
    · exact ⟨i, Nat.sub_add_cancel (Nat.pos_of_ne_zero hpos), (hset i).2 (.inl rfl)⟩

/-- The ring of the default control endpoint is used for it. -/
theorem ends_addressDevice (port : ℕ) (h : d.Knows known) :
    Ends (Knows known) (fun r => Knows ((r, .control slot) :: known))
      (addressDevice w port slot) d := by
  obtain ⟨use, hserves, hknown⟩ := h
  have hseen := seen_serves (σ := σ) use
  have hout : ∀ d' : Driver σ, d'.Serves use → d'.Knows known := fun _ h' => ⟨use, h', hknown⟩
  let J : Driver σ → Prop := fun d' => d'.Serves use ∧ d'.HasOutput slot
  have hJ : Seen J := by
    rintro d d' hview ⟨hd, i, hi, hsome⟩
    have houtputs : d'.outputContexts = d.outputContexts := congrArg (fun v => v.2.2.2.2.2.2) hview
    exact ⟨hseen d d' hview hd, i, hi, houtputs ▸ hsome⟩
  have hout' : ∀ d' : Driver σ, J d' → d'.Knows known := fun d' h' => hout d' h'.1
  unfold addressDevice
  refine hseen.newPage.bind_ends hserves hout fun outputContext d₁ h₁ => ?_
  refine (ends_setOutputContextForSlot h₁ _).bind_imp hout fun _ d₂ h₂ => ?_
  refine (ends_lift (hout' d₂ h₂)).bind ?_
  rintro ctx d₂ ⟨hctx, rfl⟩
  refine (stays_portGet port _).bind_ends h₂ hout' fun portsc d₃ h₃ => ?_
  refine (hJ.portSpeed portsc).bind_ends h₃ hout' fun speed d₄ h₄ => ?_
  refine (ends_lift (hout' d₄ h₄)).bind ?_
  rintro ctx₁ d₄ ⟨hspeed, rfl⟩
  obtain ⟨d₅, hring, h₅, hunused, hcount, houtputs⟩ := h₄.1.newRing (w := w)
  rw [Ends, Method.bind_of_ok hring]
  -- the rings stay as they are until the command was sent
  let I : Driver σ → Prop := fun d' =>
    J d' ∧ d'.rings = d₅.rings ∧ d'.ringCount = d₅.ringCount
  have hI : Seen I := by
    intro d d' hview hd
    have hrings : d'.rings = d.rings := congrArg (fun v => v.2.1) hview
    have hcount : d'.ringCount = d.ringCount := congrArg (fun v => v.2.2.1) hview
    exact ⟨hJ d d' hview hd.1, hrings.trans hd.2.1, hcount.trans hd.2.2⟩
  have h₅' : J d₅ := by
    obtain ⟨i, hi, hsome⟩ := h₄.2
    exact ⟨h₅, i, hi, houtputs ▸ hsome⟩
  refine (hI.maxPacketSize portsc).bind_ends ⟨h₅', rfl, rfl⟩ (fun _ h' => hout' _ h'.1)
    fun size d₆ h₆ => ?_
  refine Ends.bind (x := get) (Q := fun a d' => a = d₆ ∧ d' = d₆) ⟨rfl, rfl⟩ ?_
  rintro _ d₆ ⟨rfl, rfl⟩
  refine (ends_lift (hout' _ h₆.1)).bind ?_
  rintro ep d₆ ⟨hep, rfl⟩
  refine (ends_lift (hout' _ h₆.1)).bind ?_
  rintro ctx₂ d₆ ⟨hset, rfl⟩
  refine hI.newPage.bind_ends h₆ (fun _ h' => hout' _ h'.1) fun page d₇ h₇ => ?_
  have houtput : d₇.HasOutput (GenericTrbEntry.cmdAddressDevice page.addr slot).slotId := by
    rw [GenericTrbEntry.cmdAddressDevice, GenericTrbEntry.slotId_setSlotId]
    exact h₇.1.2
  refine (ends_sendCommand h₇.1.1 (notLink_cmdAddressDevice page.addr slot) (fun _ => houtput)
    (some ctx₂)).bind_imp hout ?_
  rintro result d₈ ⟨h₈, hcmd, hrings₈, hcount₈⟩
  refine (ends_lift (hout _ h₈)).bind ?_
  rintro _ d₈ ⟨-, rfl⟩
  have hrings : d₈.rings = d₆.rings := hrings₈.trans (h₇.2.1.trans h₆.2.1.symm)
  have haligned := (d₆.rings d₄.ringCount).ring.base.aligned
  have hannounces : ctx₂.Announces 1 .control (d₆.rings d₄.ringCount).ringPhysAddr :=
    announces_control (by rw [CommandRing.ringPhysAddr]; omega) hctx hspeed hep hset
  refine h₈.knows hknown hunused ?_ (fun h => by cases h) ?_
  · rw [hcount₈, h₇.2.2, hcount]
    exact Nat.lt_succ_self _
  · rw [hrings]
    exact ⟨_, hcmd, GenericTrbEntry.trbType_cmdAddressDevice _ _,
      GenericTrbEntry.slotId_setSlotId _ _, ctx₂, rfl, hannounces⟩

/-- The ring of a bulk endpoint is used for it. -/
theorem ends_configureBulkEndpoint (epDesc : EndpointDescriptor) (h : d.Knows known) :
    Ends (Knows known) (fun r => Knows ((r, .bulk slot dci) :: known))
      (configureBulkEndpoint w slot epDesc dci) d := by
  obtain ⟨use, hserves, hknown⟩ := h
  have hout : ∀ d' : Driver σ, d'.Serves use → d'.Knows known := fun _ h' => ⟨use, h', hknown⟩
  obtain ⟨d₁, hring, h₁, hunused, hcount, -⟩ := hserves.newRing (w := w)
  rw [Ends, configureBulkEndpoint, Method.bind_of_ok hring]
  refine Ends.bind (x := get) (Q := fun a d' => a = d₁ ∧ d' = d₁) ⟨rfl, rfl⟩ ?_
  rintro _ d₁ ⟨rfl, rfl⟩
  refine (ends_lift (hout d₁ h₁)).bind ?_
  rintro ctx d₁ ⟨hctx, rfl⟩
  -- a page for the context is no ring
  obtain ⟨page, d₂, hpage, hview⟩ : ∃ page d₂, newPage w d₁ = .ok page d₂ ∧ d₂.view = d₁.view :=
    ⟨_, _, rfl, rfl⟩
  have hrings₂ : d₂.rings = d₁.rings := congrArg (fun v => v.2.1) hview
  have hcount₂ : d₂.ringCount = d₁.ringCount := congrArg (fun v => v.2.2.1) hview
  have h₂ := seen_serves use d₁ d₂ hview h₁
  rw [Ends, Method.bind_of_ok hpage]
  have hother : (GenericTrbEntry.cmdConfigureEndpoint page.addr slot).trbType ≠
      TrbType.addressDeviceCommand.toU32 := by
    rw [GenericTrbEntry.trbType_cmdConfigureEndpoint]
    decide
  refine (ends_sendCommand h₂ (notLink_cmdConfigureEndpoint page.addr slot)
    (fun htype => absurd htype hother) (some ctx)).bind_imp hout ?_
  rintro result d₃ ⟨h₃, hcmd, hrings₃, hcount₃⟩
  refine (ends_lift (hout d₃ h₃)).bind ?_
  rintro _ d₃ ⟨-, rfl⟩
  have haligned := (d₁.rings d.ringCount).ring.base.aligned
  have hannounces : ctx.Announces dci _ (d₁.rings d.ringCount).ringPhysAddr :=
    announces_bulk (by rw [CommandRing.ringPhysAddr]; omega) hctx
  refine h₃.knows hknown hunused ?_ (fun h => by cases h) ?_
  · rw [hcount₃, hcount₂, hcount]
    exact Nat.lt_succ_self _
  · rw [hrings₃, hrings₂]
    refine ⟨_, hcmd, if epDesc.isIn then .bulkIn else .bulkOut, ?_,
      GenericTrbEntry.trbType_cmdConfigureEndpoint _ _, GenericTrbEntry.slotId_setSlotId _ _, ctx,
      rfl, hannounces⟩
    split
    · exact .inl rfl
    · exact .inr rfl

/-- `init_port` keeps what the driver knows. -/
theorem stays_initPort (port rounds : ℕ) : Stays (Knows known) (initPort w port rounds) := by
  have hcmd : NotLink GenericTrbEntry.cmdEnableSlot := by
    rw [NotLink]
    decide
  refine stays_knows fun use _ d h => ?_
  have hget : Ends (Serves use) (fun entry d' => d'.ServesPort use entry)
      (portGet port "Port not found") d := by
    cases hentry : d.regs.portsc[(port + (2 ^ 64 - 1)) % 2 ^ 64]? with
    | none =>
      refine Ends.of_error (e := .err "Port not found") ?_ h
      rw [portGet, Method.run_get_bind, hentry]
      rfl
    | some entry =>
      refine Ends.of_ok (a := entry) ?_ ⟨h, List.mem_of_getElem? hentry⟩
      rw [portGet, Method.run_get_bind, hentry]
      rfl
  refine hget.bind fun entry d₁ h₁ => ?_
  have hout : ∀ d' : Driver σ, d'.ServesPort use entry → d'.Serves use := fun _ h' => h'.1
  -- if the port does not become ready or is not enabled, no command was sent
  refine (stays_resetPort entry rounds).bind_ends h₁ hout fun ready d₂ h₂ => ?_
  split
  case isFalse => exact Ends.pure h₂.1
  refine ((seen_servesPort use entry).isEnabled entry).bind_ends h₂ hout fun enabled d₃ h₃ => ?_
  split
  case isFalse => exact Ends.throw h₃.1
  have hother : GenericTrbEntry.cmdEnableSlot.trbType ≠ TrbType.addressDeviceCommand.toU32 := by
    decide
  have hsend := ends_sendCommand (w := w) h₃.1 hcmd (fun htype => absurd htype hother) none
  exact (hsend.imp (fun _ h' => h') fun _ _ h' => h'.1).bind fun event d₄ h₄ => Ends.pure h₄

section Requests

variable (hr : (r, .control slot) ∈ known)

include hr

/-- A request for a descriptor keeps what the driver knows. -/
theorem stays_request (descType : UsbDescriptorType) (descIndex : BitVec 8) (langId : BitVec 16)
    (len elemSize : ℕ) (hlen : len * elemSize < 2 ^ 16) :
    Stays (Knows known) (do
      let buf ← newBuffer w len elemSize
      requestDescriptor w slot r descType descIndex langId buf) := by
  intro d h
  refine Ends.bind (Q := fun buf d' => buf.byteLen < 2 ^ 16 ∧ d'.Knows known)
    ⟨hlen, (seen_knows known).newBuffer (w := w) len elemSize d h⟩ ?_
  rintro buf d' ⟨hbuf, h'⟩
  exact stays_knows (fun use huse => stays_requestDescriptor (huse _ hr) _ _ _ hbuf) d' h'

theorem stays_requestDeviceDescriptor : Stays (Knows known) (requestDeviceDescriptor w slot r) :=
  (stays_request hr .device 0 0 (Sliceable.size UsbDeviceDescriptor) 1 (by decide)).bind
    fun _ => Stays.pure _

theorem stays_requestStringDescriptorZero :
    Stays (Knows known) (requestStringDescriptorZero w slot r) :=
  (stays_request hr .string 0 0 8 2 (by decide)).bind fun _ => Stays.pure _

theorem stays_requestStringDescriptor (langId : BitVec 16) (index : BitVec 8) :
    Stays (Knows known) (requestStringDescriptor w slot r langId index) :=
  (stays_request hr .string index langId 128 1 (by decide)).bind fun _ => Stays.pure _

/-- Both requests for a configuration keep what the driver knows. -/
theorem stays_requestConfigDescriptorAndRest (calls : ℕ) :
    Stays (Knows known) (requestConfigDescriptorAndRest w slot r calls) := by
  refine (stays_request hr .config 0 0 (Sliceable.size ConfigDescriptor) 1 (by decide)).bind
    fun bytes => ?_
  -- the device chooses the length of the second request, a number of 16 bits
  refine (stays_request hr .config 0 0 _ 1 ?_).bind fun bytes => ?_
  · rw [Nat.mul_one]
    exact BitVec.isLt _
  · split
    · exact Stays.pure _
    · exact Stays.throw _

theorem stays_noData (requestType request : BitVec 8) (value index : BitVec 16) :
    Stays (Knows known) (controlNoData w slot r (.new requestType request value index 0)) :=
  stays_knows fun _ huse => stays_controlNoData (huse _ hr) requestType request value index

/-- The search for endpoints keeps what the driver knows. -/
theorem stays_selectBulkEndpoints (descriptors : List UsbDescriptor) :
    Stays (Knows known) (selectBulkEndpoints w slot r descriptors) := by
  refine (stays_okOr _ _).bind fun config => (stays_okOr _ _).bind fun _ => ?_
  refine (stays_okOr _ _).bind fun bulkIn => (stays_okOr _ _).bind fun bulkOut => ?_
  refine (stays_noData hr _ _ _ _).bind fun _ => (stays_noData hr _ _ _ _).bind fun _ => ?_
  exact (stays_lift _).bind fun _ => (stays_lift _).bind fun _ => Stays.pure _

/-- `handle_mass_storage_device` keeps what the driver knows, and learns the use of its rings. -/
theorem stays_handleMassStorageDevice (descriptors : List UsbDescriptor) :
    Stays (Knows known) (handleMassStorageDevice w slot r descriptors) := by
  intro d h
  refine (stays_selectBulkEndpoints hr descriptors).bind_ends h (fun _ h' => h')
    fun eps d₁ h₁ => ?_
  refine (ends_configureBulkEndpoint eps.bulkOut.desc h₁).bind fun rOut d₂ h₂ => ?_
  have hforget : ∀ p, known ⊆ p :: known := fun p => List.subset_cons_self p known
  refine ((ends_configureBulkEndpoint eps.bulkIn.desc h₂).imp (fun _ h' => h'.mono (hforget _))
    fun _ _ h' => h').bind fun rIn d₃ h₃ => ?_
  -- the control ring and both bulk rings are in use from here on
  have hctrl : (r, .control slot) ∈ (rIn, .bulk slot eps.bulkInDci) ::
      (rOut, .bulk slot eps.bulkOutDci) :: known :=
    List.mem_cons_of_mem _ (List.mem_cons_of_mem _ hr)
  have hrest : Stays (Knows ((rIn, .bulk slot eps.bulkInDci) ::
      (rOut, .bulk slot eps.bulkOutDci) :: known)) (do
        ignoreErr (clearEndpointHalt w slot r eps.bulkIn.desc.endpointAddress)
        ignoreErr (clearEndpointHalt w slot r eps.bulkOut.desc.endpointAddress)
        let _ ← scsiReadTen w slot rIn rOut eps.bulkInDci eps.bulkOutDci 0 1) := by
    refine (stays_ignoreErr (stays_noData hctrl _ _ _ _)).bind fun _ => ?_
    refine (stays_ignoreErr (stays_noData hctrl _ _ _ _)).bind fun _ => ?_
    refine (stays_knows fun use huse => ?_).bind fun _ => Stays.pure _
    exact stays_scsiReadTen (huse _ List.mem_cons_self)
      (huse _ (List.mem_cons_of_mem _ List.mem_cons_self)) 0 1
  have hboth : known ⊆ (rIn, .bulk slot eps.bulkInDci) ::
      (rOut, .bulk slot eps.bulkOutDci) :: known :=
    List.Subset.trans (hforget _) (List.subset_cons_self _ _)
  exact (hrest d₃ h₃).imp (fun _ h' => h'.mono hboth) fun _ _ h' => h'.mono hboth

end Requests

end Driver

end Mushix
