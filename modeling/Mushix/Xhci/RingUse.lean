import Mushix.Ends
import Mushix.Xhci.BulkEndpoints
import Mushix.Xhci.ContextFields
import Mushix.Xhci.ControlStage
import Mushix.Xhci.EnableSlot

/-!
# What the transfer rings are for

What the controller has been told of a transfer ring, and what the driver may put on it. The driver
`Serves` its rings when both fit together, and every call of the driver keeps this.

* `RingUse`: the endpoint of a ring, and the TRBs that this endpoint reads;
* `Driver.Serves`: the state of the driver, for the uses of its rings;
* `Driver.stays_controlNoData`, `Driver.stays_requestDescriptor`, `Driver.stays_scsiReadTen`: the
  transfers of the driver keep it, whatever the hardware does.
-/

namespace Mushix

open CommandRing (NotLink)
open Method (Ends Keeps Stays)

/-- The input context adds the context of an endpoint that begins with the ring at an address. -/
def InputContext.Announces (self : InputContext) (dci : ℕ) (epType : EndpointType)
    (ptr : BitVec 64) : Prop :=
  self.inputCtrlCtx.addContextBitmap.getLsbD dci = true ∧
    ∃ (i : Fin 31) (maxPacketSize : BitVec 16), i.val + 1 = dci ∧
      (self.deviceCtx.epCtx i).Decodes epType maxPacketSize ptr

/-- The command tells the controller about the ring of an endpoint. -/
def Command.Announces (cmd : Command) (trbType : TrbType) (slot : BitVec 8) (dci : ℕ)
    (epType : EndpointType) (ptr : BitVec 64) : Prop :=
  cmd.trb.trbType = trbType.toU32 ∧ cmd.trb.slotId = slot ∧
    ∃ input, cmd.input = some input ∧ input.Announces dci epType ptr

/-- What a transfer ring is for. -/
inductive RingUse where
  | unused
  /-- The default control endpoint of a slot. -/
  | control (slot : BitVec 8)
  /-- A bulk endpoint of a slot. -/
  | bulk (slot : BitVec 8) (dci : ℕ)

namespace RingUse

/-- The TRBs that the endpoint of a ring reads. -/
def Carries : RingUse → List GenericTrbEntry → Prop
  | unused, trbs => trbs = []
  | control _, trbs => WholeTransfers trbs
  | bulk _ _, trbs => ∀ trb ∈ trbs, trb.trbType = TrbType.normal.toU32

/-- The controller was told that the endpoint has the ring at an address. -/
def AnnouncedBy (commands : List Command) (ptr : BitVec 64) : RingUse → Prop
  | unused => True
  | control slot => ∃ cmd ∈ commands, cmd.Announces .addressDeviceCommand slot 1 .control ptr
  | bulk slot dci => ∃ cmd ∈ commands, ∃ epType, (epType = .bulkIn ∨ epType = .bulkOut) ∧
      cmd.Announces .configureEndpointCommand slot dci epType ptr

/-- The endpoint of the ring has this doorbell. -/
def RungBy (slot : BitVec 8) (dci : ℕ) : RingUse → Prop
  | unused => False
  | control slot' => slot' = slot ∧ dci = 1
  | bulk slot' dci' => slot' = slot ∧ dci = dci'

theorem AnnouncedBy.cons {commands : List Command} {ptr : BitVec 64} {use : RingUse}
    (h : use.AnnouncedBy commands ptr) (cmd : Command) : use.AnnouncedBy (cmd :: commands) ptr := by
  cases use with
  | unused => exact trivial
  | control slot =>
    obtain ⟨c, hc, hannounces⟩ := h
    exact ⟨c, List.mem_cons_of_mem _ hc, hannounces⟩
  | bulk slot dci =>
    obtain ⟨c, hc, hannounces⟩ := h
    exact ⟨c, List.mem_cons_of_mem _ hc, hannounces⟩

/-- A ring without TRBs is right for every use. -/
theorem carries_nil (use : RingUse) : use.Carries [] := by
  cases use with
  | unused => rfl
  | control slot => exact wholeTransfers_nil
  | bulk slot dci => exact fun _ h => nomatch h

end RingUse

theorem NormalTrb.trbType_newIn (buf : PinnedSlice) :
    (NormalTrb.newIn buf).toGeneric.trbType = TrbType.normal.toU32 := by
  have htype : Volatile.readBits (TrbType.normal.toU32 <<< 10 ||| GenericTrbEntry.ctrlBitDataDirIn
      ||| GenericTrbEntry.ctrlBitInterruptOnCompletion |||
      GenericTrbEntry.ctrlBitInterruptOnShortPacket) 10 6 = TrbType.normal.toU32 := by decide
  exact htype

theorem NormalTrb.trbType_newOut (buf : PinnedSlice) :
    (NormalTrb.newOut buf).toGeneric.trbType = TrbType.normal.toU32 := by
  have htype : Volatile.readBits (TrbType.normal.toU32 <<< 10 |||
      GenericTrbEntry.ctrlBitInterruptOnShortPacket |||
      GenericTrbEntry.ctrlBitInterruptOnCompletion ||| GenericTrbEntry.ctrlBitDataDirOut) 10 6 =
      TrbType.normal.toU32 := by decide
  exact htype

/-- The slot that was set is read back. -/
theorem GenericTrbEntry.slotId_setSlotId (trb : GenericTrbEntry) (slot : BitVec 8) :
    (trb.setSlotId slot).slotId = slot := by
  apply BitVec.eq_of_getLsbD_eq
  intro i hi
  rw [slotId, BitVec.getLsbD_setWidth, Volatile.getLsbD_readBits (by decide), setSlotId,
    Volatile.getLsbD_unwrap_writeBits (by decide) _ (by omega), if_pos (by omega),
    BitVec.getLsbD_setWidth, Nat.add_sub_cancel_left]
  simp [hi, show i < 32 by omega]

/-! ## What the commands announce -/

section Announces

variable {ctx ctx₁ ctx₂ : InputContext} {ep : EndpointContext} {ptr : BitVec 64}

/-- The input context of `address_device` adds the default control endpoint. -/
theorem addContextBitmap_addressInputContext {port : ℕ}
    (h : Driver.addressInputContext port = .ok ctx) :
    ctx.inputCtrlCtx.addContextBitmap.getLsbD 1 = true := by
  simp only [Driver.addressInputContext, bind, Except.bind,
    InputControlContext.addContext_of_lt (show 0 < 32 by decide),
    InputControlContext.addContext_of_lt (show 1 < 32 by decide),
    InputContext.setRootHubPortNumber, DeviceContext.setRootHubPortNumber] at h
  split_ifs at h with hport
  cases h
  show (InputControlContext.default.addContextBitmap ||| 1#32 <<< 0 ||| 1#32 <<< 1).getLsbD 1 = true
  decide

/-- A speed does not change which contexts are added. -/
theorem inputCtrlCtx_setPortSpeed {speed : UsbMode} (h : ctx.setPortSpeed speed = .ok ctx₁) :
    ctx₁.inputCtrlCtx = ctx.inputCtrlCtx := by
  simp only [InputContext.setPortSpeed, DeviceContext.setPortSpeed, bind, Except.bind] at h
  split_ifs at h
  cases h
  rfl

/-- The default control endpoint begins with the ring. -/
theorem announces_control {port : ℕ} {speed : UsbMode} {maxPacketSize : BitVec 16}
    (haligned : ptr.toNat % 16 = 0) (haddress : Driver.addressInputContext port = .ok ctx)
    (hspeed : ctx.setPortSpeed speed = .ok ctx₁)
    (hep : EndpointContext.newControlEndpoint maxPacketSize ptr = .ok ep)
    (hset : ctx₁.setEpCtx 1 ep = .ok ctx₂) : ctx₂.Announces 1 .control ptr := by
  obtain ⟨ep', hep', hdecodes⟩ :=
    EndpointContext.newControlEndpoint_decodes maxPacketSize haligned
  obtain rfl : ep = ep' := Except.ok.inj (hep.symm.trans hep')
  rw [InputContext.setEpCtx_of_lt le_rfl (by decide)] at hset
  cases hset
  constructor
  · show ctx₁.inputCtrlCtx.addContextBitmap.getLsbD 1 = true
    rw [inputCtrlCtx_setPortSpeed hspeed]
    exact addContextBitmap_addressInputContext haddress
  · refine ⟨0, maxPacketSize, rfl, ?_⟩
    show (Function.update ctx₁.deviceCtx.epCtx 0 ep 0).Decodes _ _ _
    rwa [Function.update_self]

/-- A bulk endpoint begins with the ring. -/
theorem announces_bulk {epDesc : EndpointDescriptor} {dci : ℕ} (haligned : ptr.toNat % 16 = 0)
    (h : bulkInputContext epDesc dci ptr = .ok ctx) :
    ctx.Announces dci (if epDesc.isIn then .bulkIn else .bulkOut) ptr := by
  obtain ⟨ep, hep, hdecodes⟩ := EndpointContext.newBulkEndpoint_decodes epDesc.maxPacketSize
    (if epDesc.isIn then EndpointType.bulkIn else EndpointType.bulkOut) haligned
  -- DCI 0 has no context, and there is no flag for those from 32 on
  have hpos : 1 ≤ dci := by
    by_contra hzero
    rw [show dci = 0 by omega, bulkInputContext_zero] at h
    cases h
  have hlt : dci < 32 := by
    by_contra hge
    simp only [bulkInputContext, bind, Except.bind,
      InputControlContext.addContext_of_lt (show 0 < 32 by decide)] at h
    rw [InputControlContext.addContext, if_neg hge] at h
    cases h
  simp only [bulkInputContext, bind, Except.bind,
    InputControlContext.addContext_of_lt (show 0 < 32 by decide),
    InputControlContext.addContext_of_lt hlt, hep,
    InputContext.setEpCtx_of_lt hpos (show dci - 1 < 31 by omega)] at h
  obtain ⟨ctx', hctx, -, hctrl, hepCtx⟩ := InputContext.setLastValidDci_eq _
    (show max dci (if dci > 1 then dci else 1) ≤ 31 by split <;> omega)
  obtain rfl : ctx = ctx' := Except.ok.inj (h.symm.trans hctx)
  constructor
  · rw [hctrl]
    show (InputControlContext.default.addContextBitmap ||| 1#32 <<< 0 |||
      1#32 <<< dci).getLsbD dci = true
    simp [hlt]
  · refine ⟨⟨dci - 1, by omega⟩, epDesc.maxPacketSize, Nat.sub_add_cancel hpos, ?_⟩
    rw [hepCtx]
    simpa only [Function.update_self] using hdecodes

end Announces

namespace Driver

variable {σ : Type} {w : World σ} {d : Driver σ} {use : ℕ → RingUse} {slot : BitVec 8} {r dci : ℕ}

/-- A store to a register that the driver may make: to PORTSC or USBSTS, to the doorbell for
commands, or to the doorbell of an endpoint that has a ring. -/
def StoreAllowed (regs : XhcRegisters) (use : ℕ → RingUse) (store : ℕ × BitVec 32) : Prop :=
  store.1 ∈ regs.portsc ∨ store.1 = regs.opRegs + usbstsOffset ∨
    regs.doorbellRegs[0]? = some store.1 ∧ store.2 = 0 ∨
    ∃ r slot dci, (use r).RungBy slot dci ∧
      regs.doorbellRegs[(slot : BitVec 8).toNat]? = some store.1 ∧ store.2 = BitVec.ofNat 32 dci

/-- The controller has an output context for the slot. -/
def HasOutput (d : Driver σ) (slot : BitVec 8) : Prop :=
  ∃ i : Fin 255, i.val + 1 = slot.toNat ∧ (d.outputContexts i).isSome = true

/-- The rings of the driver hold what was pushed on them, which is what their endpoints read, and
the controller was told about every ring with a TRB. -/
structure Serves (use : ℕ → RingUse) (d : Driver σ) : Prop where
  /-- The command ring holds the commands in the order in which they were sent. -/
  commandRing : d.commandRing.Tracks (d.commands.reverse.map Command.trb)
  rings (r : ℕ) : ∃ hist, (d.rings r).Tracks hist ∧ (use r).Carries hist
  announced (r : ℕ) : (use r).AnnouncedBy d.commands (d.rings r).ringPhysAddr
  stores : ∀ store ∈ d.stores, StoreAllowed d.regs use store
  fresh (r : ℕ) : d.ringCount ≤ r → use r = .unused
  /-- A slot gets its output context before the command that needs it is sent. -/
  outputs : ∀ cmd ∈ d.commands, cmd.trb.trbType = TrbType.addressDeviceCommand.toU32 →
    d.HasOutput cmd.trb.slotId

theorem serves_start (regs : XhcRegisters) (base : IoBoxAddr) (hardware : σ) :
    (start regs base hardware).Serves fun _ => .unused where
  commandRing := CommandRing.tracks_default base
  rings _ := ⟨[], CommandRing.tracks_default base, rfl⟩
  announced _ := trivial
  stores _ h := nomatch h
  fresh _ _ := rfl
  outputs _ h := nomatch h

/-! ## Calls that do not touch a ring -/

/-- What `Serves` is about. -/
def view (d : Driver σ) :
    CommandRing × (ℕ → CommandRing) × ℕ × List Command × XhcRegisters × List (ℕ × BitVec 32) ×
      (Fin 255 → Option (BitVec 64)) :=
  (d.commandRing, d.rings, d.ringCount, d.commands, d.regs, d.stores, d.outputContexts)

/-- The invariant is about nothing else. -/
def Seen (I : Driver σ → Prop) : Prop := ∀ d d', d'.view = d.view → I d → I d'

/-- Which rings are in use does not depend on the hardware. -/
theorem seen_serves (use : ℕ → RingUse) : Seen (σ := σ) (Serves use) := by
  intro d d' hview h
  simp only [view, Prod.mk.injEq] at hview
  obtain ⟨hcommandRing, hrings, hringCount, hcommands, hregs, hstores, houtputs⟩ := hview
  constructor
  · rw [hcommandRing, hcommands]
    exact h.commandRing
  · rw [hrings]
    exact h.rings
  · rw [hrings, hcommands]
    exact h.announced
  · rw [hstores, hregs]
    exact h.stores
  · rw [hringCount]
    exact h.fresh
  · unfold HasOutput
    rw [hcommands, houtputs]
    exact h.outputs

section Seen

variable {I : Driver σ → Prop} (hI : Seen I)

include hI

theorem Seen.readReg (addr : ℕ) : Stays I (readReg w addr) := Stays.of_keeps (fun _ => rfl) hI

theorem Seen.awaitEvent : Stays I (awaitEvent w) := Stays.of_keeps (fun _ => rfl) hI

theorem Seen.newPage : Stays I (newPage w) := Stays.of_keeps (fun _ => rfl) hI

theorem Seen.newBuffer (len elemSize : ℕ) : Stays I (newBuffer w len elemSize) :=
  Stays.of_keeps (fun _ => rfl) hI

theorem Seen.portBit (entry pos : ℕ) : Stays I (portBit w entry pos) :=
  (hI.readReg entry).bind fun _ => Stays.pure _

theorem Seen.isEnabled (entry : ℕ) : Stays I (isEnabled w entry) := by
  refine (hI.portBit entry 9).bind fun _ => Stays.ite (fun _ => ?_) fun _ => Stays.pure false
  refine (hI.portBit entry 0).bind fun _ => Stays.ite (fun _ => ?_) fun _ => Stays.pure false
  refine (hI.portBit entry 1).bind fun _ => Stays.ite (fun _ => ?_) fun _ => Stays.pure false
  exact (hI.portBit entry 4).bind fun _ => Stays.pure _

theorem Seen.portSpeed (entry : ℕ) : Stays I (portSpeed w entry) :=
  (hI.readReg entry).bind fun _ => Stays.pure _

theorem Seen.maxPacketSize (entry : ℕ) : Stays I (maxPacketSize w entry) := by
  refine (hI.portSpeed entry).bind fun speed => ?_
  cases speed with
  | unknown psi => exact Stays.throw _
  | _ => exact Stays.pure _

end Seen

theorem stays_lift {α : Type} {I : Driver σ → Prop} (x : Except Fault α) :
    Stays I (lift x : Method (Driver σ) α) := by
  cases x with
  | ok a => exact Stays.pure a
  | error e => exact Stays.throw e

/-- What is known of a result that was `Ok`. -/
theorem ends_lift {α : Type} {P : Driver σ → Prop} {x : Except Fault α} (h : P d) :
    Ends P (fun a d' => x = .ok a ∧ d' = d) (lift x : Method (Driver σ) α) d := by
  cases x with
  | ok a => exact Ends.pure ⟨rfl, rfl⟩
  | error e => exact Ends.throw h

theorem stays_okOr {α : Type} {I : Driver σ → Prop} (opt : Option α) (msg : String) :
    Stays I (okOr opt msg : Method (Driver σ) α) := by
  cases opt with
  | none => exact Stays.throw _
  | some a => exact Stays.pure a

/-- An `Err` that is ignored keeps what the method keeps. -/
theorem stays_ignoreErr {I : Driver σ → Prop} {x : Method (Driver σ) Unit} (hx : Stays I x) :
    Stays I (ignoreErr x) := by
  intro d h
  cases hrun : x d with
  | ok a d' => exact Ends.of_ok (by rw [ignoreErr, hrun]) ((hx d h).ok hrun)
  | error e d' =>
    cases e with
    | err msg => exact Ends.of_ok (a := ()) (by rw [ignoreErr, hrun]) ((hx d h).error hrun)
    | panic msg => exact Ends.of_error (by rw [ignoreErr, hrun]) ((hx d h).error hrun)

theorem stays_waitUntil {I : Driver σ → Prop} {cond : Method (Driver σ) Bool}
    (hcond : Stays I cond) (rounds : ℕ) : Stays I (waitUntil cond rounds) := by
  induction rounds with
  | zero => exact Stays.pure false
  | succ rounds ih =>
    exact hcond.bind fun holds => Stays.ite (fun _ => Stays.pure true) fun _ => ih

/-! ## Stores to registers -/

/-- A store to a register that is allowed keeps the rings in their use. -/
theorem Serves.store (h : d.Serves use) (store : ℕ × BitVec 32)
    (hstore : StoreAllowed d.regs use store) (hardware : σ) :
    Serves use { d with hardware, stores := store :: d.stores } where
  commandRing := h.commandRing
  rings := h.rings
  announced := h.announced
  stores := List.forall_mem_cons.2 ⟨hstore, h.stores⟩
  fresh := h.fresh
  outputs := h.outputs

/-- The doorbell of an endpoint that has a ring. -/
theorem stays_notifyEp (hrung : (use r).RungBy slot dci) :
    Stays (Serves use) (notifyEp w slot dci) := by
  intro d h
  cases hdb : d.regs.doorbellRegs[slot.toNat]? with
  | none => exact Ends.of_error (notifyEp_of_none hdb) h
  | some db =>
    rcases Nat.lt_or_ge dci 256 with hdci | hdci
    · obtain ⟨hardware, sts, hrun⟩ := notifyEp_of_some (w := w) hdb hdci
      refine Ends.of_ok hrun ?_
      have hdoorbell := h.store (db, BitVec.ofNat 32 dci)
        (.inr (.inr (.inr ⟨r, slot, dci, hrung, hdb, rfl⟩))) hardware
      exact hdoorbell.store _ (.inr (.inl rfl)) hardware
    · have hrun : notifyEp w slot dci d = .error (.err "dci out of range") d := by
        rw [notifyEp, Method.run_get_bind, hdb]
        exact congrFun (if_neg (Nat.not_lt.2 hdci)) d
      exact Ends.of_error hrun h

/-- The driver serves its rings, and the register is PORTSC of a port. -/
def ServesPort (use : ℕ → RingUse) (entry : ℕ) (d : Driver σ) : Prop :=
  d.Serves use ∧ entry ∈ d.regs.portsc

theorem seen_servesPort (use : ℕ → RingUse) (entry : ℕ) : Seen (σ := σ) (ServesPort use entry) := by
  rintro d d' hview ⟨h, hentry⟩
  have hregs : d'.regs = d.regs := congrArg (fun v => v.2.2.2.2.1) hview
  exact ⟨seen_serves use d d' hview h, hregs ▸ hentry⟩

theorem stays_assertBit (entry pos : ℕ) : Stays (ServesPort use entry) (assertBit w entry pos) := by
  refine ((seen_servesPort use entry).readReg entry).bind fun old => ?_
  rintro d ⟨h, hentry⟩
  exact ⟨h.store _ (.inl hentry) _, hentry⟩

/-- The reset of a port stores to its PORTSC only. -/
theorem stays_resetPort (entry rounds : ℕ) :
    Stays (ServesPort use entry) (resetPort w entry rounds) := by
  have hseen := seen_servesPort (σ := σ) use entry
  refine (stays_assertBit entry 9).bind fun _ => ?_
  refine (stays_waitUntil (hseen.portBit entry 9) rounds).bind fun powered => ?_
  refine Stays.ite (fun _ => ?_) fun _ => Stays.pure false
  refine (stays_assertBit entry 4).bind fun _ => ?_
  exact stays_waitUntil ((hseen.portBit entry 4).bind fun _ => Stays.pure _) rounds

/-! ## Pushes -/

/-- The ring `r` was pushed on. -/
def withRing (d : Driver σ) (r : ℕ) (c : CommandRing) : Driver σ :=
  { d with rings := Function.update d.rings r c }

theorem withRing_self (d : Driver σ) (r : ℕ) : d.withRing r (d.rings r) = d := by
  rw [withRing, Function.update_eq_self]

theorem rings_withRing (d : Driver σ) (r : ℕ) (c : CommandRing) : (d.withRing r c).rings r = c :=
  Function.update_self ..

theorem rings_withRing_of_ne {r' : ℕ} (h : r' ≠ r) (c : CommandRing) :
    (d.withRing r c).rings r' = d.rings r' :=
  Function.update_of_ne h ..

/-- A ring takes every TRB that is not a Link TRB. -/
theorem ends_push {β : Type} {c : CommandRing} {trb : GenericTrbEntry}
    {hist : List GenericTrbEntry} {P : Driver σ → Prop} {R : β → Driver σ → Prop}
    {f : BitVec 64 → Method (Driver σ) β} (htracks : c.Tracks hist) (htrb : NotLink trb)
    (hf : ∀ ptr c', c'.Tracks (hist ++ [trb]) → c'.ring.base = c.ring.base →
      Ends P R (f ptr) (d.withRing r c')) :
    Ends P R (push r trb >>= f) (d.withRing r c) := by
  obtain ⟨c', hpush, htracks', hbase⟩ := htracks.push htrb
  have hrun : push r trb (d.withRing r c) =
      .ok (c.ring.trbPtr (hist.length % 15)) (d.withRing r c') := by
    rw [push, rings_withRing, hpush]
    simp only [withRing, Function.update_idem]
  rw [Ends, Method.bind_of_ok hrun]
  exact hf _ c' htracks' hbase

/-- The ring `r` has taken TRBs that its endpoint reads. -/
theorem Serves.withRing (h : d.Serves use) {c : CommandRing} {hist : List GenericTrbEntry}
    (htracks : c.Tracks hist) (hbase : c.ring.base = (d.rings r).ring.base)
    (hcarries : (use r).Carries hist) : (d.withRing r c).Serves use where
  commandRing := h.commandRing
  rings r' := by
    by_cases hr : r' = r
    · subst hr
      exact ⟨hist, by rwa [rings_withRing], hcarries⟩
    · rw [rings_withRing_of_ne hr]
      exact h.rings r'
  announced r' := by
    by_cases hr : r' = r
    · subst hr
      rw [rings_withRing, CommandRing.ringPhysAddr, hbase]
      exact h.announced r'
    · rw [rings_withRing_of_ne hr]
      exact h.announced r'
  stores := h.stores
  fresh := h.fresh
  outputs := h.outputs

/-- A control transfer without a data stage, for a request without data. -/
theorem stays_controlNoData (huse : use r = .control slot) (requestType request : BitVec 8)
    (value index : BitVec 16) :
    Stays (Serves use) (controlNoData w slot r (.new requestType request value index 0)) := by
  intro d h
  obtain ⟨hist, htracks, hcarries⟩ := h.rings r
  rw [huse] at hcarries
  have hrung : (use r).RungBy slot 1 := by
    rw [huse]
    exact ⟨rfl, rfl⟩
  rw [← withRing_self d r, controlNoData]
  apply ends_push htracks (SetupStageTrb.notLink _ _ _ _ _)
  intro ptr₁ c₁ htracks₁ hbase₁
  apply ends_push htracks₁ StatusStageTrb.notLink_newIn
  intro ptr₂ c₂ htracks₂ hbase₂
  -- the endpoint has read a whole transfer when its doorbell rings
  have hserves : (d.withRing r c₂).Serves use := by
    refine h.withRing htracks₂ (hbase₂.trans hbase₁) ?_
    rw [huse, List.append_assoc]
    exact hcarries.append (wholeTransfers_noData requestType request value index)
  refine (stays_notifyEp hrung).bind (fun _ => ?_) _ hserves
  exact (seen_serves use).awaitEvent.bind fun answer => stays_lift _

/-- A request for a descriptor of fewer than 64 KiB. -/
theorem stays_requestDescriptor (huse : use r = .control slot) (descType : UsbDescriptorType)
    (descIndex : BitVec 8) (langId : BitVec 16) {buf : PinnedSlice} (hbuf : buf.byteLen < 2 ^ 16) :
    Stays (Serves use) (requestDescriptor w slot r descType descIndex langId buf) := by
  intro d h
  obtain ⟨hist, htracks, hcarries⟩ := h.rings r
  rw [huse] at hcarries
  have hrung : (use r).RungBy slot 1 := by
    rw [huse]
    exact ⟨rfl, rfl⟩
  rw [← withRing_self d r, requestDescriptor]
  apply ends_push htracks (SetupStageTrb.notLink _ _ _ _ _)
  intro ptr₁ c₁ htracks₁ hbase₁
  apply ends_push htracks₁ (DataStageTrb.notLink_newIn buf)
  intro ptr₂ c₂ htracks₂ hbase₂
  apply ends_push htracks₂ StatusStageTrb.notLink_newOut
  intro ptr₃ c₃ htracks₃ hbase₃
  have hserves : (d.withRing r c₃).Serves use := by
    refine h.withRing htracks₃ (hbase₃.trans (hbase₂.trans hbase₁)) ?_
    rw [huse, List.append_assoc, List.append_assoc]
    exact hcarries.append (wholeTransfers_descriptor descType descIndex langId hbuf)
  refine (stays_notifyEp hrung).bind (fun _ => ?_) _ hserves
  exact (seen_serves use).awaitEvent.bind fun answer => (stays_lift _).bind fun _ => Stays.pure _

/-- One TRB for a bulk endpoint. -/
theorem Serves.bulk (h : d.Serves use) (huse : use r = .bulk slot dci) {c : CommandRing}
    {trb : GenericTrbEntry} {hist : List GenericTrbEntry}
    (htrb : trb.trbType = TrbType.normal.toU32) (hcarries : (use r).Carries hist)
    (htracks : c.Tracks (hist ++ [trb])) (hbase : c.ring.base = (d.rings r).ring.base) :
    (d.withRing r c).Serves use := by
  refine h.withRing htracks hbase ?_
  rw [huse] at hcarries ⊢
  exact List.forall_mem_append.2 ⟨hcarries, List.forall_mem_singleton.2 htrb⟩

/-- A bulk transfer to the device goes to the ring of a bulk endpoint. -/
theorem stays_bulkOut (huse : use r = .bulk slot dci) (bytes : List (BitVec 8)) :
    Stays (Serves use) (bulkOut w slot r dci bytes) := by
  have hseen := seen_serves (σ := σ) use
  have hrung : (use r).RungBy slot dci := by
    rw [huse]
    exact ⟨rfl, rfl⟩
  refine (hseen.newBuffer bytes.length 1).bind fun buf => ?_
  intro d h
  obtain ⟨hist, htracks, hcarries⟩ := h.rings r
  rw [← withRing_self d r]
  apply ends_push htracks (NormalTrb.notLink_newOut buf)
  intro ptr c htracks' hbase
  have hserves := h.bulk huse (NormalTrb.trbType_newOut buf) hcarries htracks' hbase
  have hsent : Stays (Serves use) (modify fun self : Driver σ =>
      { self with sent := bytes :: self.sent }) := Stays.modify fun d => hseen d _ rfl
  refine (hsent.bind fun _ => (stays_notifyEp hrung).bind fun _ => ?_) _ hserves
  refine Stays.get_bind fun self => (hseen.readReg _).bind fun _ => ?_
  exact hseen.awaitEvent.bind fun answer => stays_lift _

/-- A bulk transfer from the device goes to the ring of a bulk endpoint. -/
theorem stays_bulkIn (huse : use r = .bulk slot dci) (len : ℕ) :
    Stays (Serves use) (bulkIn w slot r dci len) := by
  have hseen := seen_serves (σ := σ) use
  have hrung : (use r).RungBy slot dci := by
    rw [huse]
    exact ⟨rfl, rfl⟩
  refine (hseen.newBuffer len 1).bind fun buf => ?_
  intro d h
  obtain ⟨hist, htracks, hcarries⟩ := h.rings r
  rw [← withRing_self d r]
  apply ends_push htracks (NormalTrb.notLink_newIn buf)
  intro ptr c htracks' hbase
  have hserves := h.bulk huse (NormalTrb.trbType_newIn buf) hcarries htracks' hbase
  refine ((stays_notifyEp hrung).bind fun _ => ?_) _ hserves
  refine Stays.get_bind fun self => (hseen.readReg _).bind fun _ => ?_
  exact hseen.awaitEvent.bind fun answer => (stays_lift _).bind fun _ => Stays.pure _

/-- `scsi_read_10` keeps both rings in their use. -/
theorem stays_scsiReadTen {rIn rOut dciIn dciOut : ℕ} (hin : use rIn = .bulk slot dciIn)
    (hout : use rOut = .bulk slot dciOut) (lba : BitVec 32) (transferLength : BitVec 16) :
    Stays (Serves use) (scsiReadTen w slot rIn rOut dciIn dciOut lba transferLength) := by
  rw [scsiReadTen_eq]
  refine (stays_bulkOut hout _).bind fun _ => (stays_bulkIn hin _).bind fun readData => ?_
  refine (stays_bulkIn hin 13).bind fun csw => ?_
  exact Stays.of_keeps (keeps_checkCsw view readData csw) (seen_serves use)

end Driver

end Mushix
