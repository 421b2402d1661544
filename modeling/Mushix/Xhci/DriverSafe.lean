import Mushix.Safe
import Mushix.Xhci.ScsiRead

/-!
# Calls of the driver do not panic

The rings of the driver accept every TRB that the program builds, so a call returns a value or
`Err`, whatever the hardware and the devices answer.

* `Driver.Sound`: the rings of the driver are rings, and there is a doorbell for commands;
* `Driver.safe_sendCommand`, `Driver.safe_controlNoData`, `Driver.safe_scsiReadTen`: the calls.
-/

namespace Mushix

open Method (Keeps Returns Safe)
open CommandRing (NotLink)

/-! ## The TRBs of the program -/

theorem SetupStageTrb.notLink (requestType request : BitVec 8) (value index length : BitVec 16) :
    NotLink (SetupStageTrb.new requestType request value index length).toGeneric := by
  -- none of the three transfer types reaches down to the TRB type in bits 10 to 15
  have htype : ∀ t, t = trtNoDataStage ∨ t = trtInDataStage ∨ t = trtOutDataStage →
      Volatile.readBits (t <<< 16 ||| TrbType.setupStage.toU32 <<< 10 |||
        GenericTrbEntry.ctrlBitImmediateData) 10 6 ≠ TrbType.link.toU32 := by
    rintro t (rfl | rfl | rfl) <;> decide
  unfold NotLink SetupStageTrb.toGeneric SetupStageTrb.new
  apply htype
  split_ifs <;> simp

theorem StatusStageTrb.notLink_newIn : NotLink StatusStageTrb.newIn.toGeneric := by
  unfold NotLink
  decide

theorem NormalTrb.notLink_newIn (buf : PinnedSlice) : NotLink (NormalTrb.newIn buf).toGeneric := by
  have htype : Volatile.readBits (TrbType.normal.toU32 <<< 10 ||| GenericTrbEntry.ctrlBitDataDirIn
      ||| GenericTrbEntry.ctrlBitInterruptOnCompletion |||
      GenericTrbEntry.ctrlBitInterruptOnShortPacket) 10 6 ≠ TrbType.link.toU32 := by decide
  exact htype

theorem NormalTrb.notLink_newOut (buf : PinnedSlice) :
    NotLink (NormalTrb.newOut buf).toGeneric := by
  have htype : Volatile.readBits (TrbType.normal.toU32 <<< 10 |||
      GenericTrbEntry.ctrlBitInterruptOnShortPacket |||
      GenericTrbEntry.ctrlBitInterruptOnCompletion ||| GenericTrbEntry.ctrlBitDataDirOut) 10 6 ≠
      TrbType.link.toU32 := by decide
  exact htype

namespace Driver

variable {σ : Type} {w : World σ}

/-- The rings of the driver are rings that TRBs were pushed on, and there is a doorbell for
commands. -/
structure Sound (d : Driver σ) : Prop where
  doorbell : d.regs.doorbellRegs ≠ []
  commandRing : ∃ hist, d.commandRing.Tracks hist
  rings (r : ℕ) : ∃ hist, (d.rings r).Tracks hist

/-- A driver with the registers that `setup_xhc_registers` finds is sound. -/
theorem sound_start (bar0 : ℕ) (capRegs : CapabilityRegisters) (base : IoBoxAddr) (hardware : σ) :
    (start (.placed bar0 capRegs) base hardware).Sound where
  doorbell := by
    intro hnil
    have hlength := congrArg List.length hnil
    simp [start, XhcRegisters.placed] at hlength
  commandRing := ⟨[], CommandRing.tracks_default base⟩
  rings _ := ⟨[], CommandRing.tracks_default base⟩

/-! ## Primitive calls -/

theorem safe_lift {α : Type} {x : Except Fault α} (hx : ∀ msg, x ≠ .error (.panic msg)) :
    Safe Sound (lift x : Method (Driver σ) α) := by
  cases x with
  | ok a => exact Safe.pure a
  | error e =>
    cases e with
    | err msg => exact Safe.throw msg
    | panic msg => exact absurd rfl (hx msg)

/-- `ok_or` returns what is there, and changes nothing. -/
theorem okOr_eq_ok {α : Type} {opt : Option α} {msg : String} {a : α} {d d' : Driver σ} :
    okOr opt msg d = .ok a d' ↔ opt = some a ∧ d' = d := by
  cases opt with
  | none =>
    constructor
    · intro h
      cases h
    · rintro ⟨h, -⟩
      cases h
  | some b =>
    constructor
    · intro h
      cases h
      exact ⟨rfl, rfl⟩
    · rintro ⟨h, rfl⟩
      cases h
      rfl

theorem returns_okOr {α : Type} {opt : Option α} {msg : String} {a : α} (hopt : opt = some a)
    (d : Driver σ) : Returns (fun b d' => b = a ∧ d' = d) (okOr opt msg) d :=
  ⟨a, d, okOr_eq_ok.2 ⟨hopt, rfl⟩, rfl, rfl⟩

theorem safe_okOr {α : Type} (opt : Option α) (msg : String) :
    Safe Sound (okOr opt msg : Method (Driver σ) α) := by
  cases opt with
  | none => exact Safe.throw msg
  | some a => exact Safe.pure a

theorem safe_readReg (addr : ℕ) : Safe Sound (readReg w addr) :=
  Safe.of_returns fun _ h => ⟨_, _, rfl, ⟨h.doorbell, h.commandRing, h.rings⟩⟩

theorem safe_writeReg (addr : ℕ) (value : BitVec 32) : Safe Sound (writeReg w addr value) :=
  Safe.modify fun _ h => ⟨h.doorbell, h.commandRing, h.rings⟩

theorem safe_awaitEvent : Safe Sound (awaitEvent w) :=
  Safe.of_returns fun _ h => ⟨_, _, rfl, ⟨h.doorbell, h.commandRing, h.rings⟩⟩

theorem safe_newPage : Safe Sound (newPage w) :=
  Safe.of_returns fun _ h => ⟨_, _, rfl, ⟨h.doorbell, h.commandRing, h.rings⟩⟩

theorem safe_newBuffer (len elemSize : ℕ) : Safe Sound (newBuffer w len elemSize) :=
  Safe.of_returns fun _ h => ⟨_, _, rfl, ⟨h.doorbell, h.commandRing, h.rings⟩⟩

/-- The ring with the number `ring` was replaced. -/
theorem Sound.update {d : Driver σ} (h : d.Sound) {ring : ℕ} {c : CommandRing}
    (hc : ∃ hist, c.Tracks hist) (r : ℕ) :
    ∃ hist, (Function.update d.rings ring c r).Tracks hist := by
  rcases eq_or_ne r ring with rfl | hne
  · rwa [Function.update_self]
  · rw [Function.update_of_ne hne]
    exact h.rings r

/-- A new ring is one from which the protocol can start. -/
theorem safe_newRing : Safe Sound (newRing w) :=
  Safe.of_returns fun _ h => ⟨_, _, rfl,
    ⟨h.doorbell, h.commandRing, h.update ⟨[], CommandRing.tracks_default _⟩⟩⟩

/-- The driver is sound and its registers are at the given places. -/
def SoundAt (regs : XhcRegisters) (d : Driver σ) : Prop := d.Sound ∧ d.regs = regs

theorem sound_startEightPorts : startEightPorts.SoundAt (.placed 0x10000 eightPorts) :=
  ⟨sound_start 0x10000 eightPorts ⟨0x3000, rfl⟩ (), rfl⟩

/-- A ring accepts every TRB that is not a Link TRB. -/
theorem returns_push {d : Driver σ} {regs : XhcRegisters} (h : d.SoundAt regs) (ring : ℕ)
    {trb : GenericTrbEntry} (htrb : NotLink trb) :
    Returns (fun _ d' => d'.SoundAt regs) (push ring trb) d := by
  obtain ⟨hist, htracks⟩ := h.1.rings ring
  -- a ring that only pushes have stored to never reports that it is full
  obtain ⟨c', hpush, htracks', -⟩ := htracks.push htrb
  refine ⟨(d.rings ring).ring.trbPtr (hist.length % 15),
    { d with rings := Function.update d.rings ring c' }, ?_, ?_, h.2⟩
  · rw [push, hpush]
  · exact ⟨h.1.doorbell, h.1.commandRing, h.1.update ⟨_, htracks'⟩⟩

/-- So does the command ring. -/
theorem returns_pushCommand {d : Driver σ} {regs : XhcRegisters} (h : d.SoundAt regs)
    {cmd : GenericTrbEntry} (hcmd : NotLink cmd) :
    Returns (fun _ d' => d'.SoundAt regs) (pushCommand cmd) d := by
  obtain ⟨hist, htracks⟩ := h.1.commandRing
  obtain ⟨c', hpush, htracks', -⟩ := htracks.push hcmd
  refine ⟨d.commandRing.ring.trbPtr (hist.length % 15), { d with commandRing := c' }, ?_,
    ⟨h.1.doorbell, ⟨_, htracks'⟩, h.1.rings⟩, h.2⟩
  rw [pushCommand, hpush]

/-- There is always a doorbell for commands. -/
theorem returns_notifyXhc {d : Driver σ} {regs : XhcRegisters} (h : d.SoundAt regs) :
    Returns (fun _ d' => d'.SoundAt regs) (notifyXhc w) d := by
  obtain ⟨db, rest, hregs⟩ := List.exists_cons_of_ne_nil h.1.doorbell
  have hdb : d.regs.doorbellRegs[0]? = some db := by rw [hregs]; rfl
  rw [notifyXhc, Returns, Method.run_get_bind, Method.bind_of_ok (Slice.run_index hdb d)]
  exact ⟨_, _, rfl, ⟨h.1.doorbell, h.1.commandRing, h.1.rings⟩, h.2⟩

/-- `notify_ep` returns where the slot has a doorbell. -/
theorem returns_notifyEp {d : Driver σ} {regs : XhcRegisters} (h : d.SoundAt regs)
    {slot : BitVec 8} {dci db : ℕ} (hdb : regs.doorbellRegs[slot.toNat]? = some db)
    (hdci : dci < 256) : Returns (fun _ d' => d'.SoundAt regs) (notifyEp w slot dci) d := by
  obtain ⟨hardware, sts, hrun⟩ := notifyEp_of_some (w := w) (h.2 ▸ hdb) hdci
  exact ⟨_, _, hrun, ⟨h.1.doorbell, h.1.commandRing, h.1.rings⟩, h.2⟩

/-- A push of a TRB that is no Link TRB does not panic. -/
theorem safe_push (ring : ℕ) {trb : GenericTrbEntry} (htrb : NotLink trb) :
    Safe Sound (push ring trb : Method (Driver σ) _) :=
  Safe.of_returns fun _ h => (returns_push ⟨h, rfl⟩ ring htrb).imp fun _ _ h' => h'.1

/-- A push of a command that is no Link TRB does not panic. -/
theorem safe_pushCommand {cmd : GenericTrbEntry} (hcmd : NotLink cmd) :
    Safe Sound (pushCommand cmd : Method (Driver σ) _) :=
  Safe.of_returns fun _ h => (returns_pushCommand ⟨h, rfl⟩ hcmd).imp fun _ _ h' => h'.1

theorem safe_notifyXhc : Safe Sound (notifyXhc w) :=
  Safe.of_returns fun _ h => (returns_notifyXhc ⟨h, rfl⟩).imp fun _ _ h' => h'.1

/-- `notify_ep` does not panic, whatever the slot is. -/
theorem safe_notifyEp (slot : BitVec 8) (dci : ℕ) : Safe Sound (notifyEp w slot dci) := by
  intro d h
  cases hdb : d.regs.doorbellRegs[slot.toNat]? with
  | none => exact .inr ⟨_, d, notifyEp_of_none hdb, h⟩
  | some db =>
    -- without a doorbell for the slot the result is `Err`, before the DCI is looked at
    rcases Nat.lt_or_ge dci 256 with hdci | hdci
    · exact .inl ((returns_notifyEp ⟨h, rfl⟩ hdb hdci).imp fun _ _ h' => h'.1)
    · refine .inr ⟨"dci out of range", d, ?_, h⟩
      rw [notifyEp, Method.run_get_bind, hdb]
      exact congrFun (if_neg (Nat.not_lt.2 hdci)) d

/-! ## What a command leaves as it is -/

/-- A push on the command ring that is accepted. -/
theorem pushCommand_of_ok {cmd : GenericTrbEntry} {d : Driver σ} {ptr : BitVec 64}
    {c : CommandRing} (h : CommandRing.push cmd d.commandRing = .ok ptr c) :
    pushCommand cmd d = .ok ptr { d with commandRing := c } := by
  rw [pushCommand, h]

/-- A push on the command ring that is refused. -/
theorem pushCommand_of_error {cmd : GenericTrbEntry} {d : Driver σ} {e : Fault} {c : CommandRing}
    (h : CommandRing.push cmd d.commandRing = .error e c) :
    pushCommand cmd d = .error e { d with commandRing := c } := by
  rw [pushCommand, h]

/-- The push of a command changes the command ring only. -/
theorem keeps_pushCommand {γ : Type} {g : Driver σ → γ}
    (hg : ∀ d commandRing, g { d with commandRing } = g d) (cmd : GenericTrbEntry) :
    (pushCommand cmd : Method (Driver σ) _).Keeps g := by
  intro d
  cases hpush : CommandRing.push cmd d.commandRing with
  | ok ptr c => rw [Method.stateAfter_of_ok (pushCommand_of_ok hpush), hg]
  | error e c => rw [Method.stateAfter_of_error (pushCommand_of_error hpush), hg]

/-- The doorbell of the command ring changes the hardware only. -/
theorem keeps_notifyXhc {γ : Type} {g : Driver σ → γ}
    (hg : ∀ d hardware stores, g { d with hardware, stores } = g d) : (notifyXhc w).Keeps g := by
  have hindex : ∀ doorbells : List ℕ,
      (Slice.index doorbells 0 : Method (Driver σ) _).Keeps g := by
    intro doorbells d
    unfold Slice.index
    split <;> rfl
  have hnotify : ∀ db, (notify w db 0 0).Keeps g := fun db d => hg d _ _
  exact fun d => (hindex d.regs.doorbellRegs).bind hnotify d

/-! ## What a transfer leaves as it is -/

/-- The driver after a push, whether or not the ring has accepted the TRB. -/
theorem stateAfter_push (ring : ℕ) (trb : GenericTrbEntry) (d : Driver σ) :
    (push ring trb : Method (Driver σ) _).stateAfter d =
      { d with rings := Function.update d.rings ring ((CommandRing.push trb).stateAfter
          (d.rings ring)) } := by
  cases hpush : CommandRing.push trb (d.rings ring) with
  | ok ptr c =>
    have hrun : push ring trb d = .ok ptr
        { d with rings := Function.update d.rings ring c } := by rw [push, hpush]
    rw [Method.stateAfter_of_ok hrun, Method.stateAfter_of_ok hpush]
  | error e c =>
    have hrun : push ring trb d = .error e
        { d with rings := Function.update d.rings ring c } := by rw [push, hpush]
    rw [Method.stateAfter_of_error hrun, Method.stateAfter_of_error hpush]

/-- The push on a transfer ring changes the rings only. -/
theorem keeps_push {γ : Type} {g : Driver σ → γ} (hg : ∀ d rings, g { d with rings } = g d)
    (ring : ℕ) (trb : GenericTrbEntry) : (push ring trb : Method (Driver σ) _).Keeps g := by
  intro d
  rw [stateAfter_push, hg]

/-- What the accesses to registers keep, a doorbell keeps. -/
theorem keeps_notifyEp {γ : Type} {g : Driver σ → γ} (hread : ∀ addr, (readReg w addr).Keeps g)
    (hwrite : ∀ addr value, (writeReg w addr value).Keeps g) (slot : BitVec 8) (dci : ℕ) :
    (notifyEp w slot dci).Keeps g := by
  have herr : ∀ msg, (throw (.err msg) : Method (Driver σ) Unit).Keeps g := fun _ _ => rfl
  refine Keeps.get_bind fun d => ?_
  split
  case h_1 => exact herr _
  case h_2 db hdb =>
    refine Keeps.ite (fun _ => ?_) fun _ => herr _
    exact (hwrite _ _).bind fun _ => (hread _).bind fun _ => hwrite _ _

/-- A result changes nothing of the driver. -/
theorem keeps_lift {α γ : Type} (g : Driver σ → γ) (x : Except Fault α) :
    (lift x : Method (Driver σ) α).Keeps g := by
  intro d
  cases x <;> rfl

/-- What follows the push in a transfer changes the hardware and the logs of its accesses only. -/
theorem keeps_transfer {β γ : Type} {g : Driver σ → γ} (hread : ∀ addr, (readReg w addr).Keeps g)
    (hwrite : ∀ addr value, (writeReg w addr value).Keeps g) (hawait : (awaitEvent w).Keeps g)
    {f : GenericTrbEntry × List (BitVec 8) → Method (Driver σ) β}
    (hf : ∀ answer, (f answer).Keeps g)
    (slot : BitVec 8) (dci : ℕ) :
    (do
      notifyEp w slot dci
      let _ ← readReg w ((← get).regs.opRegs + usbstsOffset)
      let answer ← awaitEvent w
      f answer : Method (Driver σ) β).Keeps g :=
  (keeps_notifyEp hread hwrite slot dci).bind fun _ => Keeps.get_bind fun _ =>
    (hread _).bind fun _ => hawait.bind hf

/-! ## Commands and transfers -/

theorem safe_transferResultOk (trb : GenericTrbEntry) :
    Safe Sound (lift trb.transferResultOk : Method (Driver σ) Unit) :=
  safe_lift trb.transferResultOk_ne_panic

/-- A command that is no Link TRB is sent without a panic. -/
theorem safe_sendCommand {cmd : GenericTrbEntry} (hcmd : NotLink cmd)
    (input : Option InputContext) : Safe Sound (sendCommand w cmd input) := by
  refine (safe_pushCommand hcmd).bind fun _ => ?_
  -- the command is logged in a list that no invariant mentions
  have hlog : Safe Sound (modify fun self : Driver σ =>
      { self with commands := { trb := cmd, input } :: self.commands }) :=
    Safe.modify fun _ h => ⟨h.doorbell, h.commandRing, h.rings⟩
  exact hlog.bind fun _ => safe_notifyXhc.bind fun _ => safe_awaitEvent.bind fun _ => Safe.pure _

/-- A command returns the event that answers it. -/
theorem returns_sendCommand {d : Driver σ} {regs : XhcRegisters} {P : GenericTrbEntry → Prop}
    (h : d.SoundAt regs) {cmd : GenericTrbEntry} (hcmd : NotLink cmd)
    (input : Option InputContext) (hevent : ∀ hw, P (w.event hw).1.1) :
    Returns (fun result d' => P result ∧ d'.SoundAt regs) (sendCommand w cmd input) d := by
  refine (returns_pushCommand h hcmd).bind fun _ d₁ h₁ => ?_
  have h₂ : SoundAt regs { d₁ with commands := { trb := cmd, input } :: d₁.commands } :=
    ⟨⟨h₁.1.doorbell, h₁.1.commandRing, h₁.1.rings⟩, h₁.2⟩
  refine (returns_notifyXhc h₂).bind fun _ d₃ h₃ => ?_
  exact ⟨_, _, rfl, hevent _, ⟨h₃.1.doorbell, h₃.1.commandRing, h₃.1.rings⟩, h₃.2⟩

/-- A control transfer without data does not panic. -/
theorem safe_controlNoData (slot : BitVec 8) (ring : ℕ) {setup : SetupStageTrb}
    (hsetup : NotLink setup.toGeneric) : Safe Sound (controlNoData w slot ring setup) := by
  refine (safe_push ring hsetup).bind fun _ => ?_
  refine (safe_push ring StatusStageTrb.notLink_newIn).bind fun _ => ?_
  refine (safe_notifyEp slot 1).bind fun _ => ?_
  exact safe_awaitEvent.bind fun answer => safe_transferResultOk answer.1

/-- A control transfer returns where there is a doorbell for the slot and every event is a
success. -/
theorem returns_controlNoData {d : Driver σ} {regs : XhcRegisters} (h : d.SoundAt regs)
    {slot : BitVec 8} {db : ℕ} (hdb : regs.doorbellRegs[slot.toNat]? = some db)
    (hevent : ∀ hw, (w.event hw).1.1.transferResultOk = .ok ()) (ring : ℕ)
    {setup : SetupStageTrb} (hsetup : NotLink setup.toGeneric) :
    Returns (fun _ d' => d'.SoundAt regs) (controlNoData w slot ring setup) d := by
  refine (returns_push h ring hsetup).bind fun _ d₁ h₁ => ?_
  refine (returns_push h₁ ring StatusStageTrb.notLink_newIn).bind fun _ d₂ h₂ => ?_
  refine (returns_notifyEp h₂ hdb (by decide)).bind fun _ d₃ h₃ => ?_
  have hawait : awaitEvent w d₃ = .ok (w.event d₃.hardware).1
      { d₃ with
        hardware := (w.event d₃.hardware).2
        events := (w.event d₃.hardware).1.1 :: d₃.events } := rfl
  rw [Returns, Method.bind_of_ok hawait]
  show Returns _ (lift (w.event d₃.hardware).1.1.transferResultOk) _
  rw [hevent]
  exact Returns.pure ⟨⟨h₃.1.doorbell, h₃.1.commandRing, h₃.1.rings⟩, h₃.2⟩

theorem safe_clearEndpointHalt (slot : BitVec 8) (ring : ℕ) (endpointAddress : BitVec 8) :
    Safe Sound (clearEndpointHalt w slot ring endpointAddress) :=
  safe_controlNoData slot ring (SetupStageTrb.notLink _ _ _ _ _)

/-- A bulk transfer to the device does not panic. -/
theorem safe_bulkOut (slot : BitVec 8) (ring dci : ℕ) (bytes : List (BitVec 8)) :
    Safe Sound (bulkOut w slot ring dci bytes) := by
  refine (safe_newBuffer bytes.length 1).bind fun buf => ?_
  refine (safe_push ring (NormalTrb.notLink_newOut buf)).bind fun _ => ?_
  have hlog : Safe Sound (modify fun self : Driver σ => { self with sent := bytes :: self.sent }) :=
    Safe.modify fun _ h => ⟨h.doorbell, h.commandRing, h.rings⟩
  refine hlog.bind fun _ => (safe_notifyEp slot dci).bind fun _ => Safe.get.bind fun self => ?_
  refine (safe_readReg _).bind fun _ => ?_
  exact safe_awaitEvent.bind fun answer => safe_transferResultOk answer.1

/-- A bulk transfer from the device does not panic. -/
theorem safe_bulkIn (slot : BitVec 8) (ring dci len : ℕ) :
    Safe Sound (bulkIn w slot ring dci len) := by
  refine (safe_newBuffer len 1).bind fun buf => ?_
  refine (safe_push ring (NormalTrb.notLink_newIn buf)).bind fun _ => ?_
  refine (safe_notifyEp slot dci).bind fun _ => Safe.get.bind fun self => ?_
  refine (safe_readReg _).bind fun _ => safe_awaitEvent.bind fun answer => ?_
  exact (safe_transferResultOk answer.1).bind fun _ => Safe.pure _

theorem length_filled (buf : PinnedSlice) (received : List (BitVec 8)) :
    (filled buf received).length = buf.byteLen := by
  rw [filled, List.length_append, List.length_take, List.length_replicate]
  omega

/-- A buffer that a device has filled has its length. -/
theorem length_of_bulkIn {slot : BitVec 8} {ring dci len : ℕ} {d d' : Driver σ}
    {bytes : List (BitVec 8)} (h : bulkIn w slot ring dci len d = .ok bytes d') :
    bytes.length = len := by
  simp only [bulkIn, Method.bind_eq_ok] at h
  obtain ⟨buf, _, hbuf, _, _, _, _, _, _, _, _, _, _, _, _, answer, _, _, _, _, _, hfilled⟩ := h
  cases hbuf
  cases hfilled
  rw [length_filled, PinnedSlice.byteLen, Nat.mul_one]

theorem safe_scsiReadTen (slot : BitVec 8) (bulkInRing bulkOutRing bulkInDci bulkOutDci : ℕ)
    (lba : BitVec 32) (transferLength : BitVec 16) :
    Safe Sound (scsiReadTen w slot bulkInRing bulkOutRing bulkInDci bulkOutDci lba
      transferLength) := by
  refine (safe_bulkOut slot bulkOutRing bulkOutDci _).bind fun _ => ?_
  refine (safe_bulkIn slot bulkInRing bulkInDci _).bind fun readData => ?_
  refine (safe_bulkIn slot bulkInRing bulkInDci 13).bind_of_result ?_
  rintro csw ⟨d, d', hcsw⟩
  -- the status is byte 12 of 13 bytes, whatever the device has sent
  have hlength := length_of_bulkIn hcsw
  have hindex : Safe Sound (Slice.index csw 12 : Method (Driver σ) _) :=
    Safe.of_returns fun s h => ⟨_, s, Slice.run_index (List.getElem?_eq_getElem (by omega)) s, h⟩
  refine hindex.bind fun status => ?_
  exact Safe.ite (fun _ => Safe.throw _) fun _ =>
    Safe.ite (fun _ => Safe.throw _) fun _ => Safe.pure _

end Driver

end Mushix
