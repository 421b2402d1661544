import Mushix.Xhci.BulkEndpoints
import Mushix.Xhci.Cbw

/-!
# What a read of sectors does

The three bulk transfers of `scsi_read_10` (`xhci.rs`): which bytes go to the device, which TRBs
are queued, and what a result says about the answers of the device.

* `Driver.scsiReadTen_sends`: the command block wrapper that is sent;
* `Driver.readsVerified_iff`: for which answers a result can be trusted;
* `Driver.queuesOnly_iff`: for which lengths the controller reads the lengths of the buffers.
-/

namespace Mushix

open Method (Keeps Returns)

/-- What arrives at the awaits of a program: the events, and the bytes that their transfers have
put into the buffers. -/
abbrev Answers := ℕ → GenericTrbEntry × List (BitVec 8)

/-- Hardware that gives the answers one after the other. -/
def World.answering {σ : Type} (w : World σ) (answers : Answers) : World (σ × ℕ) where
  read addr hw := ((w.read addr hw.1).1, (w.read addr hw.1).2, hw.2)
  write addr value hw := (w.write addr value hw.1, hw.2)
  event hw := (answers hw.2, hw.1, hw.2 + 1)
  page := w.page
  buffer := w.buffer

/-- An endpoint of a slot has a doorbell. -/
def XhcRegisters.Notifies (regs : XhcRegisters) (slot : BitVec 8) (dci : ℕ) : Prop :=
  slot.toNat < regs.doorbellRegs.length ∧ dci < 256

namespace Driver

variable {σ : Type} {w : World σ} (d : Driver σ) (slot : BitVec 8)

/-! ## One transfer -/

/-- The buffer that the next transfer of `len` bytes uses. -/
def nextBuffer (w : World σ) (d : Driver σ) (len : ℕ) : PinnedSlice :=
  { ptr := w.buffer d.buffers, len, elemSize := 1 }

/-- The driver after a transfer has pushed its TRB. -/
def queued (d : Driver σ) (ring : ℕ) (trb : GenericTrbEntry) : Driver σ :=
  (push ring trb : Method (Driver σ) _).stateAfter { d with buffers := d.buffers + 1 }

/-- However a transfer to a device ends, it has pushed one TRB, and it has sent the bytes unless
the ring does not accept the TRB. -/
theorem stateAfter_bulkOut {γ : Type} {g : Driver σ → γ} (hread : ∀ addr, (readReg w addr).Keeps g)
    (hwrite : ∀ addr value, (writeReg w addr value).Keeps g) (hawait : (awaitEvent w).Keeps g)
    (ring dci : ℕ) (bytes : List (BitVec 8)) :
    let d₁ := d.queued ring (NormalTrb.newOut (nextBuffer w d bytes.length)).toGeneric
    g ((bulkOut w slot ring dci bytes).stateAfter d) = g d₁ ∨
      g ((bulkOut w slot ring dci bytes).stateAfter d) =
        g { d₁ with sent := bytes :: d₁.sent } := by
  intro d₁
  set trb := (NormalTrb.newOut (nextBuffer w d bytes.length)).toGeneric with htrb
  have hbuffer : newBuffer w bytes.length 1 d =
      .ok (nextBuffer w d bytes.length) { d with buffers := d.buffers + 1 } := rfl
  rw [bulkOut, Method.stateAfter_bind_of_ok hbuffer]
  cases hpush : push ring trb { d with buffers := d.buffers + 1 } with
  | error e d' =>
    have hd₁ : d₁ = d' := Method.stateAfter_of_error hpush
    left
    rw [Method.stateAfter_of_error (Method.bind_of_error hpush), hd₁]
  | ok ptr d' =>
    have hd₁ : d₁ = d' := Method.stateAfter_of_ok hpush
    right
    rw [Method.stateAfter_bind_of_ok hpush, hd₁]
    exact keeps_transfer hread hwrite hawait (fun answer => keeps_lift g _) slot dci _

/-- However a transfer from a device ends, it has pushed one TRB. -/
theorem stateAfter_bulkIn {γ : Type} {g : Driver σ → γ} (hread : ∀ addr, (readReg w addr).Keeps g)
    (hwrite : ∀ addr value, (writeReg w addr value).Keeps g) (hawait : (awaitEvent w).Keeps g)
    (ring dci len : ℕ) :
    g ((bulkIn w slot ring dci len).stateAfter d) =
      g (d.queued ring (NormalTrb.newIn (nextBuffer w d len)).toGeneric) := by
  have hbuffer : newBuffer w len 1 d =
      .ok (nextBuffer w d len) { d with buffers := d.buffers + 1 } := rfl
  rw [bulkIn, Method.stateAfter_bind_of_ok hbuffer]
  exact Keeps.stateAfter_bind (fun _ => keeps_transfer hread hwrite hawait
    (fun answer => (keeps_lift g _).bind fun _ => Keeps.pure _) slot dci) _
/-! ## The parts of the command -/

variable (bulkInRing bulkOutRing bulkInDci bulkOutDci : ℕ) (lba : BitVec 32)
  (transferLength : BitVec 16)
/-- The end of `scsi_read_10`: the checks of the command status wrapper. -/
def checkCsw (readData csw : List (BitVec 8)) : Method (Driver σ) (List (BitVec 8)) := do
  let cswStatus ← Slice.index csw 12
  if u32OfBytes (csw.take 4) ≠ 0x53425355 then
    throw (.err "Invalid CSW signature")
  else if cswStatus ≠ 0 then
    throw (.err "SCSI command failed")
  else
    return readData

/-- A read of sectors is three transfers and the checks. -/
theorem scsiReadTen_eq :
    scsiReadTen w slot bulkInRing bulkOutRing bulkInDci bulkOutDci lba transferLength = (do
      bulkOut w slot bulkOutRing bulkOutDci (readTenCbw lba transferLength)
      let readData ← bulkIn w slot bulkInRing bulkInDci (transferLength.toNat * 512)
      let csw ← bulkIn w slot bulkInRing bulkInDci 13
      checkCsw readData csw) := rfl

/-- The check of the status changes nothing of the driver. -/
theorem keeps_checkCsw {γ : Type} (g : Driver σ → γ) (readData csw : List (BitVec 8)) :
    (checkCsw readData csw).Keeps g := by
  have hindex : (Slice.index csw 12 : Method (Driver σ) _).Keeps g := by
    intro d
    unfold Slice.index
    split <;> rfl
  exact hindex.bind fun status =>
    Keeps.ite (fun _ _ => rfl) fun _ => Keeps.ite (fun _ _ => rfl) fun _ _ => rfl

/-! ## The command block wrapper -/

/-- What `scsi_read_10` sends, if anything, are the bytes of `new_read_10(lba, transfer_length, 3)`,
and a device reads the arguments back from them. -/
theorem scsiReadTen_sends :
    readTenCbw lba transferLength = (CommandBlockWrapper.newReadTen lba transferLength 3).bytes ∧
      (let d' := (scsiReadTen w slot bulkInRing bulkOutRing bulkInDci bulkOutDci lba
        transferLength).stateAfter d
      d'.sent = d.sent ∨ d'.sent = readTenCbw lba transferLength :: d.sent) ∧
      ¬BitVec.umulOverflow (transferLength.setWidth 32) 512 ∧
      ReadTenRequest.ofBytes (readTenCbw lba transferLength) = some
        { tag := 3
          dataLength := 512 * transferLength.toNat
          direction := .deviceToHost
          lun := 0
          commandLength := 10
          lba := lba.toNat
          blocks := transferLength.toNat } := by
  refine ⟨(bytes_newReadTen lba transferLength).symm, ?_, ?_, ofBytes_readTenCbw lba transferLength⟩
  · intro d'
    have hread : ∀ addr, (readReg w addr).Keeps sent := fun _ _ => rfl
    have hwrite : ∀ addr value, (writeReg w addr value).Keeps sent := fun _ _ _ => rfl
    have hawait : (awaitEvent w).Keeps sent := fun _ => rfl
    have hin : ∀ ring dci len, (bulkIn w slot ring dci len).Keeps sent := fun ring dci len d => by
      rw [stateAfter_bulkIn d slot hread hwrite hawait, queued, stateAfter_push]
    have hsent := stateAfter_bulkOut d slot hread hwrite hawait bulkOutRing bulkOutDci
      (readTenCbw lba transferLength)
    rw [queued, stateAfter_push] at hsent
    -- only the first transfer sends bytes
    have hfirst : d'.sent = ((bulkOut w slot bulkOutRing bulkOutDci
        (readTenCbw lba transferLength)).stateAfter d).sent :=
      Keeps.stateAfter_bind (fun _ => (hin _ _ _).bind fun readData => (hin _ _ _).bind
        fun csw => keeps_checkCsw sent readData csw) d
    rwa [hfirst]
  · have hlt := transferLength.isLt
    rw [BitVec.umulOverflow, BitVec.toNat_setWidth,
      show BitVec.toNat (512 : BitVec 32) = 512 from rfl, decide_eq_true_iff]
    omega

/-! ## The answers to the transfers -/

section Answered

variable {w : World σ} {answers : Answers} {d : Driver (σ × ℕ)} {regs : XhcRegisters}
  {slot : BitVec 8} {dci : ℕ}

/-- The driver of the controller with eight ports, before its first answer. -/
def startAnswered : Driver (Unit × ℕ) := .start (.placed 0x10000 eightPorts) ⟨0xA000, rfl⟩ ((), 0)

theorem soundAt_startAnswered : startAnswered.SoundAt (.placed 0x10000 eightPorts) :=
  ⟨sound_start 0x10000 eightPorts _ ((), 0), rfl⟩

/-- Slot 1 of the controller of the example has a doorbell. -/
theorem notifies_eightPorts {dci : ℕ} (hdci : dci < 256) :
    (XhcRegisters.placed 0x10000 eightPorts).Notifies 1 dci :=
  ⟨by decide, hdci⟩

/-- Without a doorbell there is no transfer. -/
theorem notifyEp_of_not_notifies {τ : Type} {v : World τ} {e : Driver τ} 
    (h : ¬e.regs.Notifies slot dci) : ∃ msg, notifyEp v slot dci e = .error (.err msg) e := by
  cases hdb : e.regs.doorbellRegs[slot.toNat]? with
  | none => exact ⟨_, notifyEp_of_none hdb⟩
  | some db =>
    have hslot := (List.getElem?_eq_some_iff.1 hdb).1
    refine ⟨"dci out of range", ?_⟩
    rw [notifyEp, Method.run_get_bind, hdb]
    exact congrFun (if_neg fun hdci => h ⟨hslot, hdci⟩) e

/-- The next answer is the one that a transfer gets. -/
theorem transfer_answered (w : World σ) (answers : Answers) (h : d.SoundAt regs)
    (hnotifies : regs.Notifies slot dci) :
    ∃ d', d'.SoundAt regs ∧ d'.hardware.2 = d.hardware.2 + 1 ∧
      ∀ {β : Type} (f : GenericTrbEntry × List (BitVec 8) → Method (Driver (σ × ℕ)) β),
        (do
          notifyEp (w.answering answers) slot dci
          let _ ← readReg (w.answering answers) ((← get).regs.opRegs + usbstsOffset)
          let answer ← awaitEvent (w.answering answers)
          f answer : Method (Driver (σ × ℕ)) β) d = f (answers d.hardware.2) d' := by
  obtain ⟨hslot, hdci⟩ := hnotifies
  obtain ⟨⟨⟩, d₁, hrun, h₁⟩ := returns_notifyEp (w := w.answering answers) h
    (List.getElem?_eq_getElem hslot) hdci
  -- neither the doorbell nor the read of USBSTS takes an answer
  have hcount : d₁.hardware.2 = d.hardware.2 := by
    have hkeep := keeps_notifyEp (w := w.answering answers) (g := fun d => d.hardware.2)
      (fun _ _ => rfl) (fun _ _ _ => rfl) slot dci d
    rwa [Method.stateAfter_of_ok hrun] at hkeep
  let d₂ := (readReg (w.answering answers) (d₁.regs.opRegs + usbstsOffset)).stateAfter d₁
  let d₃ := (awaitEvent (w.answering answers)).stateAfter d₂
  have h₃ : d₃.SoundAt regs := ⟨⟨h₁.1.doorbell, h₁.1.commandRing, h₁.1.rings⟩, h₁.2⟩
  refine ⟨d₃, h₃, congrArg (· + 1) hcount, fun f => ?_⟩
  rw [Method.bind_of_ok hrun, ← hcount]
  rfl

/-- The push in front of a transfer takes no answer, and the driver stays sound. -/
theorem push_answered (h : d.SoundAt regs) (ring : ℕ) {trb : GenericTrbEntry}
    (htrb : CommandRing.NotLink trb) :
    ∃ ptr d₁, push ring trb { d with buffers := d.buffers + 1 } = .ok ptr d₁ ∧ d₁.SoundAt regs ∧
      d₁.hardware.2 = d.hardware.2 := by
  have h₀ : SoundAt regs { d with buffers := d.buffers + 1 } :=
    ⟨⟨h.1.doorbell, h.1.commandRing, h.1.rings⟩, h.2⟩
  have hkeep : (push ring trb : Method (Driver (σ × ℕ)) _).Keeps fun d => d.hardware.2 :=
    keeps_push (fun _ _ => rfl) ring trb
  obtain ⟨ptr, d₁, hpush, h₁, hcount⟩ := (returns_push h₀ ring htrb).and_keeps hkeep
  exact ⟨ptr, d₁, hpush, h₁, hcount⟩

/-- The contents of a zeroed buffer of `len` bytes that bytes were received into. -/
def padded (len : ℕ) (received : List (BitVec 8)) : List (BitVec 8) :=
  received.take len ++ List.replicate (len - received.length) 0

/-- Where a buffer is does not matter for its contents. -/
theorem filled_eq (ptr : BitVec 64) (len : ℕ) (received : List (BitVec 8)) :
    filled { ptr, len, elemSize := 1 } received = padded len received := by
  rw [filled, padded, PinnedSlice.byteLen, Nat.mul_one]

/-- A transfer from a device by the answer that it gets. -/
theorem bulkIn_answered (w : World σ) (answers : Answers) (h : d.SoundAt regs)
    (hnotifies : regs.Notifies slot dci) (ring len : ℕ) :
    ∃ d', d'.SoundAt regs ∧ d'.hardware.2 = d.hardware.2 + 1 ∧
      bulkIn (w.answering answers) slot ring dci len d = (do
        lift (answers d.hardware.2).1.transferResultOk
        return padded len (answers d.hardware.2).2 : Method _ _) d' := by
  obtain ⟨ptr, d₁, hpush, h₁, hcount⟩ :=
    push_answered h ring (NormalTrb.notLink_newIn (nextBuffer (w.answering answers) d len))
  obtain ⟨d', h', hcount', hrun⟩ := transfer_answered w answers h₁ hnotifies
  have hbuffer : newBuffer (w.answering answers) len 1 d =
      .ok (nextBuffer (w.answering answers) d len) { d with buffers := d.buffers + 1 } := rfl
  rw [hcount] at hcount' hrun
  refine ⟨d', h', hcount', ?_⟩
  rw [bulkIn, Method.bind_of_ok hbuffer, Method.bind_of_ok hpush, ← filled_eq]
  exact hrun _

/-- A transfer to a device by the answer that it gets. -/
theorem bulkOut_answered (w : World σ) (answers : Answers) (h : d.SoundAt regs)
    (hnotifies : regs.Notifies slot dci) (ring : ℕ) (bytes : List (BitVec 8)) :
    ∃ d', d'.SoundAt regs ∧ d'.hardware.2 = d.hardware.2 + 1 ∧
      bulkOut (w.answering answers) slot ring dci bytes d =
        lift (answers d.hardware.2).1.transferResultOk d' := by
  obtain ⟨ptr, d₁, hpush, h₁, hcount⟩ :=
    push_answered h ring
      (NormalTrb.notLink_newOut (nextBuffer (w.answering answers) d bytes.length))
  have h₂ : SoundAt regs { d₁ with sent := bytes :: d₁.sent } :=
    ⟨⟨h₁.1.doorbell, h₁.1.commandRing, h₁.1.rings⟩, h₁.2⟩
  obtain ⟨d', h', hcount', hrun⟩ := transfer_answered w answers h₂ hnotifies
  have hbuffer : newBuffer (w.answering answers) bytes.length 1 d =
      .ok (nextBuffer (w.answering answers) d bytes.length)
        { d with buffers := d.buffers + 1 } := rfl
  have hanswer : ({ d₁ with sent := bytes :: d₁.sent } : Driver (σ × ℕ)).hardware.2 =
      d.hardware.2 := hcount
  rw [hanswer] at hcount' hrun
  refine ⟨d', h', hcount', ?_⟩
  rw [bulkOut, Method.bind_of_ok hbuffer, Method.bind_of_ok hpush]
  exact hrun _

/-- A push leaves the registers where they are. -/
theorem regs_of_push {τ : Type} {e e₁ : Driver τ} {ring : ℕ} {trb : GenericTrbEntry}
    {ptr : BitVec 64} (h : push ring trb { e with buffers := e.buffers + 1 } = .ok ptr e₁) :
    e₁.regs = e.regs := by
  have hkeep : (push ring trb : Method (Driver τ) _).Keeps Driver.regs :=
    keeps_push (fun _ _ => rfl) ring trb
  have hregs := hkeep { e with buffers := e.buffers + 1 }
  rwa [Method.stateAfter_of_ok h] at hregs

/-- A transfer from a device that returns has rung a doorbell. -/
theorem notifies_of_bulkIn {τ : Type} {v : World τ} {e e' : Driver τ} {ring len : ℕ}
    {bytes : List (BitVec 8)} (h : bulkIn v slot ring dci len e = .ok bytes e') :
    e.regs.Notifies slot dci := by
  by_contra hn
  rw [bulkIn, Method.bind_of_ok (show newBuffer v len 1 e = .ok _ _ from rfl)] at h
  obtain ⟨ptr, e₁, hpush, h⟩ := Method.bind_eq_ok.1 h
  obtain ⟨msg, herr⟩ := notifyEp_of_not_notifies (v := v) (regs_of_push hpush ▸ hn)
  rw [Method.bind_of_error herr] at h
  cases h

/-- A transfer to a device that returns has rung a doorbell. -/
theorem notifies_of_bulkOut {τ : Type} {v : World τ} {e e' : Driver τ} {ring : ℕ}
    {bytes : List (BitVec 8)} (h : bulkOut v slot ring dci bytes e = .ok () e') :
    e.regs.Notifies slot dci := by
  by_contra hn
  rw [bulkOut, Method.bind_of_ok (show newBuffer v bytes.length 1 e = .ok _ _ from rfl)] at h
  obtain ⟨ptr, e₁, hpush, h⟩ := Method.bind_eq_ok.1 h
  rw [Method.run_modify_bind] at h
  have hn₁ : ¬e₁.regs.Notifies slot dci := regs_of_push hpush ▸ hn
  obtain ⟨msg, herr⟩ := notifyEp_of_not_notifies (v := v)
    (e := { e₁ with sent := bytes :: e₁.sent }) hn₁
  rw [Method.bind_of_error herr] at h
  cases h

theorem lift_eq_ok_iff {α : Type} {x : Except Fault α} {a : α} {e e' : Driver σ} :
    lift x e = .ok a e' ↔ x = .ok a ∧ e' = e := by
  cases x with
  | ok b =>
    constructor
    · intro h
      cases h
      exact ⟨rfl, rfl⟩
    · rintro ⟨hx, rfl⟩
      cases hx
      rfl
  | error f =>
    constructor
    · intro h
      cases h
    · rintro ⟨hx, -⟩
      cases hx

/-- The check of the status looks at the signature and the status byte. -/
theorem checkCsw_eq_ok_iff {readData csw bytes : List (BitVec 8)} {e e' : Driver σ} :
    checkCsw readData csw e = .ok bytes e' ↔
      u32OfBytes (csw.take 4) = 0x53425355 ∧ csw[12]? = some 0 ∧ bytes = readData ∧ e' = e := by
  cases hstatus : csw[12]? with
  | none =>
    have hlen := List.getElem?_eq_none_iff.1 hstatus
    rw [checkCsw, Method.bind_of_error (Slice.run_index_of_le hlen e)]
    simp
  | some status =>
    rw [checkCsw, Method.bind_of_ok (Slice.run_index hstatus e)]
    by_cases hsig : u32OfBytes (csw.take 4) = 0x53425355#32
    · by_cases hzero : status = 0#8
      · simp [hsig, hzero, eq_comm]
      · simp [hsig, hzero]
    · simp [hsig]

/-- What the answer to a transfer from a device was when it returns. -/
theorem bulkIn_of_ok (h : d.SoundAt regs) {ring len : ℕ} {bytes : List (BitVec 8)}
    {d' : Driver (σ × ℕ)} (hrun : bulkIn (w.answering answers) slot ring dci len d = .ok bytes d') :
    regs.Notifies slot dci ∧ (answers d.hardware.2).1.transferResultOk = .ok () ∧
      bytes = padded len (answers d.hardware.2).2 ∧ d'.SoundAt regs ∧
      d'.hardware.2 = d.hardware.2 + 1 := by
  have hnotifies : regs.Notifies slot dci := h.2 ▸ notifies_of_bulkIn hrun
  obtain ⟨d₁, h₁, hcount, heq⟩ := bulkIn_answered w answers h hnotifies ring len
  obtain ⟨⟨⟩, d₂, hlift, hpure⟩ := Method.bind_eq_ok.1 (heq.symm.trans hrun)
  obtain ⟨hok, rfl⟩ := lift_eq_ok_iff.1 hlift
  cases hpure
  exact ⟨hnotifies, hok, rfl, h₁, hcount⟩

/-- What the answer to a transfer to a device was when it returns. -/
theorem bulkOut_of_ok (h : d.SoundAt regs) {ring : ℕ} {bytes : List (BitVec 8)}
    {d' : Driver (σ × ℕ)} (hrun : bulkOut (w.answering answers) slot ring dci bytes d = .ok () d') :
    regs.Notifies slot dci ∧ (answers d.hardware.2).1.transferResultOk = .ok () ∧
      d'.SoundAt regs ∧ d'.hardware.2 = d.hardware.2 + 1 := by
  have hnotifies : regs.Notifies slot dci := h.2 ▸ notifies_of_bulkOut hrun
  obtain ⟨d₁, h₁, hcount, heq⟩ :=
    bulkOut_answered w answers h hnotifies ring bytes
  obtain ⟨hok, rfl⟩ := lift_eq_ok_iff.1 (heq.symm.trans hrun)
  exact ⟨hnotifies, hok, h₁, hcount⟩

/-- A transfer from a device whose answer is a success returns. -/
theorem returns_bulkIn (w : World σ) (answers : Answers) (h : d.SoundAt regs)
    (hnotifies : regs.Notifies slot dci)
    (hok : (answers d.hardware.2).1.transferResultOk = .ok ()) (ring len : ℕ) :
    Returns (fun bytes d' => bytes = padded len (answers d.hardware.2).2 ∧ d'.SoundAt regs ∧
      d'.hardware.2 = d.hardware.2 + 1) (bulkIn (w.answering answers) slot ring dci len) d := by
  obtain ⟨d₁, h₁, hcount, heq⟩ := bulkIn_answered w answers h hnotifies ring len
  refine ⟨_, d₁, ?_, rfl, h₁, hcount⟩
  rw [heq, hok]
  rfl

/-- A transfer to a device whose answer is a success returns. -/
theorem returns_bulkOut (w : World σ) (answers : Answers) (h : d.SoundAt regs)
    (hnotifies : regs.Notifies slot dci)
    (hok : (answers d.hardware.2).1.transferResultOk = .ok ()) (ring : ℕ)
    (bytes : List (BitVec 8)) :
    Returns (fun _ d' => d'.SoundAt regs ∧ d'.hardware.2 = d.hardware.2 + 1)
      (bulkOut (w.answering answers) slot ring dci bytes) d := by
  obtain ⟨d₁, h₁, hcount, heq⟩ :=
    bulkOut_answered w answers h hnotifies ring bytes
  refine ⟨⟨⟩, d₁, ?_, h₁, hcount⟩
  rw [heq, hok]
  rfl

/-! ## What a result says -/

/-- The answers let `scsi_read_10` return `Ok`: the three transfers end with a success or a short
packet, and the buffer for the command status wrapper has the signature and the status 0. -/
structure Accepted (answers : Answers) (n : ℕ) : Prop where
  cbw : (answers n).1.transferResultOk = .ok ()
  data : (answers (n + 1)).1.transferResultOk = .ok ()
  csw : (answers (n + 2)).1.transferResultOk = .ok ()
  signature : u32OfBytes ((padded 13 (answers (n + 2)).2).take 4) = 0x53425355
  status : (padded 13 (answers (n + 2)).2)[12]? = some 0

/-- When `scsi_read_10` returns `Ok`, and what it returns. -/
theorem scsiReadTen_eq_ok_iff (w : World σ) (answers : Answers) (h : d.SoundAt regs)
    (slot : BitVec 8) (bulkInRing bulkOutRing bulkInDci bulkOutDci : ℕ) (lba : BitVec 32)
    (transferLength : BitVec 16) (readData : List (BitVec 8)) :
    (∃ d', scsiReadTen (w.answering answers) slot bulkInRing bulkOutRing bulkInDci bulkOutDci lba
        transferLength d = .ok readData d') ↔
      (regs.Notifies slot bulkOutDci ∧ regs.Notifies slot bulkInDci ∧
        Accepted answers d.hardware.2) ∧
      readData = padded (transferLength.toNat * 512) (answers (d.hardware.2 + 1)).2 := by
  constructor
  · rintro ⟨d', hrun⟩
    rw [scsiReadTen_eq] at hrun
    obtain ⟨⟨⟩, e₁, hcbw, hrun⟩ := Method.bind_eq_ok.1 hrun
    obtain ⟨data, e₂, hdata, hrun⟩ := Method.bind_eq_ok.1 hrun
    obtain ⟨csw, e₃, hcsw, hcheck⟩ := Method.bind_eq_ok.1 hrun
    obtain ⟨hout, hok₀, h₁, hcount₁⟩ := bulkOut_of_ok h hcbw
    obtain ⟨hin, hok₁, hdata', h₂, hcount₂⟩ := bulkIn_of_ok h₁ hdata
    obtain ⟨-, hok₂, hcsw', -, -⟩ := bulkIn_of_ok h₂ hcsw
    obtain ⟨hsig, hstatus, hread, -⟩ := checkCsw_eq_ok_iff.1 hcheck
    -- the three transfers take the next three answers
    rw [hcount₂, hcount₁] at hok₂ hcsw'
    rw [hcount₁] at hok₁ hdata'
    rw [hcsw'] at hsig hstatus
    exact ⟨⟨hout, hin, hok₀, hok₁, hok₂, hsig, hstatus⟩, hread.trans hdata'⟩
  · rintro ⟨⟨hout, hin, hacc⟩, rfl⟩
    obtain ⟨⟨⟩, e₁, hcbw, h₁, hcount₁⟩ := returns_bulkOut w answers h hout hacc.cbw bulkOutRing
      (readTenCbw lba transferLength)
    have hok₁ := hacc.data
    rw [← hcount₁] at hok₁
    obtain ⟨data, e₂, hdata, hdata', h₂, hcount₂⟩ := returns_bulkIn w answers h₁ hin hok₁ bulkInRing
      (transferLength.toNat * 512)
    have hcount : e₂.hardware.2 = d.hardware.2 + 2 := by rw [hcount₂, hcount₁]
    have hok₂ := hacc.csw
    rw [← hcount] at hok₂
    obtain ⟨csw, e₃, hcsw, hcsw', -, -⟩ := returns_bulkIn w answers h₂ hin hok₂ bulkInRing 13
    rw [hcount] at hcsw'
    rw [hcount₁] at hdata'
    refine ⟨e₃, ?_⟩
    rw [scsiReadTen_eq, Method.bind_of_ok hcbw, Method.bind_of_ok hdata, Method.bind_of_ok hcsw,
      checkCsw_eq_ok_iff, hcsw']
    exact ⟨hacc.signature, hacc.status, hdata'.symm, rfl⟩

/-- What a result of `scsi_read_10` stands for: the device has sent a command status wrapper of the
command, with the status 0 and no residue, and every byte of the data. -/
structure Verified (answers : Answers) (n : ℕ) (lba : BitVec 32) (transferLength : BitVec 16)
    (readData : List (BitVec 8)) : Prop where
  signature : u32OfBytes ((answers (n + 2)).2.take 4) = 0x53425355
  tag : ((answers (n + 2)).2.drop 4).take 4 = ((readTenCbw lba transferLength).drop 4).take 4
  residue : u32OfBytes (((answers (n + 2)).2.drop 8).take 4) = 0
  status : (answers (n + 2)).2[12]? = some 0
  length : readData.length = 512 * transferLength.toNat
  received : readData <+: (answers (n + 1)).2

/-- The answers leave nothing out and belong to the command: the command status wrapper is whole, it
has the tag 3 and no residue, and no byte of the data is missing. -/
structure Complete (answers : Answers) (n : ℕ) (transferLength : BitVec 16) : Prop where
  csw : 13 ≤ (answers (n + 2)).2.length
  tag : ((answers (n + 2)).2.drop 4).take 4 = [3, 0, 0, 0]
  residue : u32OfBytes (((answers (n + 2)).2.drop 8).take 4) = 0
  data : 512 * transferLength.toNat ≤ (answers (n + 1)).2.length

/-- `scsi_read_10` returns `Ok` for verified data only, and `Err` otherwise. -/
def ReadsVerified (w : World σ) (answers : Answers) (slot : BitVec 8)
    (bulkInRing bulkOutRing bulkInDci bulkOutDci : ℕ) (lba : BitVec 32)
    (transferLength : BitVec 16) (d : Driver (σ × ℕ)) : Prop :=
  match scsiReadTen (w.answering answers) slot bulkInRing bulkOutRing bulkInDci bulkOutDci lba
    transferLength d with
  | .ok readData _ => Verified answers d.hardware.2 lba transferLength readData
  | .error e _ => ∃ msg, e = .err msg

/-- What has arrived in full is not padded. -/
theorem padded_of_le {len : ℕ} {received : List (BitVec 8)} (h : len ≤ received.length) :
    padded len received = received.take len := by
  rw [padded, Nat.sub_eq_zero_of_le h, List.replicate_zero, List.append_nil]

/-- Accepted answers are verified exactly when they are complete. -/
theorem verified_iff {n : ℕ} {lba : BitVec 32} {transferLength : BitVec 16}
    (hacc : Accepted answers n) :
    Verified answers n lba transferLength
        (padded (transferLength.toNat * 512) (answers (n + 1)).2) ↔
      Complete answers n transferLength := by
  have htag : ((readTenCbw lba transferLength).drop 4).take 4 = [3, 0, 0, 0] := by
    rw [readTenCbw_eq]
    rfl
  constructor
  · intro hver
    refine ⟨(List.getElem?_eq_some_iff.1 hver.status).1, hver.tag.trans htag, hver.residue, ?_⟩
    rw [← hver.length]
    exact hver.received.length_le
  · intro hcom
    -- complete answers are not padded with zeros
    have hcsw := padded_of_le hcom.csw
    have hdata := padded_of_le (Nat.mul_comm _ _ ▸ hcom.data)
    have hsig := hacc.signature
    have hstatus := hacc.status
    rw [hcsw, List.take_take] at hsig
    rw [hcsw, List.getElem?_take_of_lt (by decide)] at hstatus
    rw [hdata]
    refine ⟨hsig, hcom.tag.trans htag.symm, hcom.residue, hstatus, ?_, List.take_prefix _ _⟩
    rw [List.length_take, Nat.min_eq_left, Nat.mul_comm]
    rw [Nat.mul_comm]
    exact hcom.data

/-- `scsi_read_10` returns `Ok` for verified data only exactly when, whenever it accepts the answers
of the device, they are complete: neither the tag nor the residue nor the number of bytes is
checked. -/
theorem readsVerified_iff (h : d.SoundAt regs) (bulkInRing bulkOutRing bulkInDci bulkOutDci : ℕ)
    (lba : BitVec 32) (transferLength : BitVec 16) :
    ReadsVerified w answers slot bulkInRing bulkOutRing bulkInDci bulkOutDci lba transferLength d ↔
      (regs.Notifies slot bulkOutDci → regs.Notifies slot bulkInDci →
        Accepted answers d.hardware.2 → Complete answers d.hardware.2 transferLength) := by
  set run := scsiReadTen (w.answering answers) slot bulkInRing bulkOutRing bulkInDci bulkOutDci lba
    transferLength d with hdef
  have hok : ∀ readData, (∃ d', run = .ok readData d') ↔ _ :=
    scsiReadTen_eq_ok_iff w answers h slot bulkInRing bulkOutRing bulkInDci bulkOutDci lba
      transferLength
  cases hrun : run with
  | ok readData d' =>
    obtain ⟨⟨hout, hin, hacc⟩, rfl⟩ := (hok readData).1 ⟨d', hrun⟩
    have hread : ReadsVerified w answers slot bulkInRing bulkOutRing bulkInDci bulkOutDci lba
        transferLength d ↔ Verified answers d.hardware.2 lba transferLength
          (padded (transferLength.toNat * 512) (answers (d.hardware.2 + 1)).2) := by
      rw [ReadsVerified, ← hdef, hrun]
    rw [hread, verified_iff hacc]
    exact ⟨fun hcom _ _ _ => hcom, fun hcom => hcom hout hin hacc⟩
  | error e d' =>
    -- an error is no panic, and there is no error where the answers are accepted
    have hread : ReadsVerified w answers slot bulkInRing bulkOutRing bulkInDci bulkOutDci lba
        transferLength d := by
      rw [ReadsVerified, ← hdef, hrun]
      rcases safe_scsiReadTen slot bulkInRing bulkOutRing bulkInDci bulkOutDci lba transferLength d
        h.1 with ⟨readData, t, hsafe, -⟩ | ⟨msg, t, hsafe, -⟩
      · cases (hdef.symm.trans hrun).symm.trans hsafe
      · cases (hdef.symm.trans hrun).symm.trans hsafe
        exact ⟨msg, rfl⟩
    refine iff_of_true hread fun hout hin hacc => ?_
    obtain ⟨t, hreturn⟩ := (hok _).2 ⟨⟨hout, hin, hacc⟩, rfl⟩
    cases hrun.symm.trans hreturn


/-! An INQUIRY is sent with the tag 1, and its status can still be in front of the answers. -/

/-- All transfers are a success, but the command status wrapper is the one of the command with the
tag 1. -/
def staleStatus : Answers
  | 2 => (successfulTransfer, [0x55, 0x53, 0x42, 0x53, 1, 0, 0, 0, 0, 0, 0, 0, 0])
  | _ => (successfulTransfer, List.replicate 512 0xAA)

/-- The answers of the example pass the checks of the driver. -/
theorem accepted_staleStatus : Accepted staleStatus 0 :=
  ⟨rfl, rfl, rfl, by decide, by decide⟩

theorem readsVerified_iff_staleStatus :
    ReadsVerified (.steady 0 successfulTransfer) staleStatus 1 0 1 3 4 0 1 startAnswered ↔
      ((XhcRegisters.placed 0x10000 eightPorts).Notifies 1 4 →
        (XhcRegisters.placed 0x10000 eightPorts).Notifies 1 3 →
        Accepted staleStatus 0 → Complete staleStatus 0 1) :=
  readsVerified_iff soundAt_startAnswered 0 1 3 4 0 1

/-- Its data is returned all the same. -/
theorem not_readsVerified_staleStatus :
    ¬ReadsVerified (.steady 0 successfulTransfer) staleStatus 1 0 1 3 4 0 1 startAnswered := by
  have hok := scsiReadTen_eq_ok_iff (.steady 0 successfulTransfer) staleStatus
    soundAt_startAnswered 1 0 1 3 4 0 1 (padded 512 (staleStatus 1).2)
  obtain ⟨d', hrun⟩ := hok.2
    ⟨⟨notifies_eightPorts (by decide), notifies_eightPorts (by decide), accepted_staleStatus⟩, rfl⟩
  rw [ReadsVerified, hrun]
  intro hver
  have htag := hver.tag
  rw [readTenCbw_eq] at htag
  exact absurd htag (by decide)

end Answered

/-! ## The TRBs that are queued -/

/-- A Normal TRB on a transfer ring, with the buffer that it was made for. -/
structure QueuedTrb where
  ring : ℕ
  buf : PinnedSlice
  trb : NormalTrb

/-- The rings after TRBs were pushed one after the other. -/
def queueAll (rings : ℕ → CommandRing) (queue : List QueuedTrb) : ℕ → CommandRing :=
  queue.foldl (fun rings q => Function.update rings q.ring
    ((CommandRing.push q.trb.toGeneric).stateAfter (rings q.ring))) rings

section Queue

variable (w)

/-- The TRB of a transfer to a device. -/
def outTrb (ring len : ℕ) : QueuedTrb :=
  { ring, buf := nextBuffer w d len, trb := NormalTrb.newOut (nextBuffer w d len) }

/-- The TRB of a transfer from a device. -/
def inTrb (ring len : ℕ) : QueuedTrb :=
  { ring, buf := nextBuffer w d len, trb := NormalTrb.newIn (nextBuffer w d len) }

/-- The TRBs that `scsi_read_10` queues, up to the first transfer that fails. -/
def readTenQueue : List QueuedTrb :=
  let cbwData := readTenCbw lba transferLength
  outTrb w d bulkOutRing cbwData.length ::
    match bulkOut w slot bulkOutRing bulkOutDci cbwData d with
    | .error _ _ => []
    | .ok _ d₁ =>
      inTrb w d₁ bulkInRing (transferLength.toNat * 512) ::
        match bulkIn w slot bulkInRing bulkInDci (transferLength.toNat * 512) d₁ with
        | .error _ _ => []
        | .ok _ d₂ => [inTrb w d₂ bulkInRing 13]

end Queue

variable {d slot bulkInRing bulkOutRing bulkInDci bulkOutDci lba transferLength}

/-- The rings are those that the TRBs of the queue were pushed on. -/
theorem rings_scsiReadTen :
    ((scsiReadTen w slot bulkInRing bulkOutRing bulkInDci bulkOutDci lba transferLength).stateAfter
      d).rings = queueAll d.rings (readTenQueue w d slot bulkInRing bulkOutRing bulkInDci bulkOutDci
        lba transferLength) := by
  -- accesses to registers and waiting for events leave the rings alone
  have hread : ∀ addr, (readReg w addr).Keeps rings := fun _ _ => rfl
  have hwrite : ∀ addr value, (writeReg w addr value).Keeps rings := fun _ _ _ => rfl
  have hawait : (awaitEvent w).Keeps rings := fun _ => rfl
  have hout : ((bulkOut w slot bulkOutRing bulkOutDci (readTenCbw lba transferLength)).stateAfter
      d).rings =
        queueAll d.rings [outTrb w d bulkOutRing (readTenCbw lba transferLength).length] := by
    have h := stateAfter_bulkOut d slot hread hwrite hawait bulkOutRing bulkOutDci
      (readTenCbw lba transferLength)
    rw [queued, stateAfter_push, or_self] at h
    exact h
  have hin : ∀ (e : Driver σ) len, ((bulkIn w slot bulkInRing bulkInDci len).stateAfter e).rings =
      queueAll e.rings [inTrb w e bulkInRing len] := by
    intro e len
    rw [stateAfter_bulkIn e slot hread hwrite hawait, queued, stateAfter_push]
    rfl
  rw [scsiReadTen_eq, readTenQueue]
  -- the queue is as long as the transfers get: a failure ends it
  cases hcbw : bulkOut w slot bulkOutRing bulkOutDci (readTenCbw lba transferLength) d with
  | error e d₁ =>
    rw [Method.stateAfter_of_error hcbw] at hout
    rw [Method.stateAfter_of_error (Method.bind_of_error hcbw), hout]
  | ok _ d₁ =>
    rw [Method.stateAfter_of_ok hcbw] at hout
    rw [Method.stateAfter_bind_of_ok hcbw]
    have hdata := hin d₁ (transferLength.toNat * 512)
    cases hrun : bulkIn w slot bulkInRing bulkInDci (transferLength.toNat * 512) d₁ with
    | error e d₂ =>
      rw [Method.stateAfter_of_error hrun, hout] at hdata
      rw [Method.stateAfter_of_error (Method.bind_of_error hrun), hdata]
      simp only [hrun]
      rfl
    | ok readData d₂ =>
      rw [Method.stateAfter_of_ok hrun, hout] at hdata
      rw [Method.stateAfter_bind_of_ok hrun,
        Keeps.stateAfter_bind (fun csw => keeps_checkCsw rings readData csw) d₂, hin, hdata]
      simp only [hrun]
      rfl

/-- Each TRB of the queue has the length of its buffer, cast to 32 bits, in its option word, and
the buffers are those of the wrappers and of the data. -/
theorem mem_readTenQueue {q : QueuedTrb} (hq : q ∈ readTenQueue w d slot bulkInRing bulkOutRing
    bulkInDci bulkOutDci lba transferLength) :
    q.trb.option = BitVec.ofNat 32 q.buf.byteLen ∧
      q.buf.byteLen ∈ [31, transferLength.toNat * 512, 13] := by
  have hlength : (readTenCbw lba transferLength).length = 31 := by
    rw [readTenCbw_eq]
    simp [bytesOfU32, bytesOfU16]
  rw [readTenQueue, hlength] at hq
  rcases List.mem_cons.1 hq with rfl | hq
  · exact ⟨rfl, by simp [outTrb, nextBuffer, PinnedSlice.byteLen]⟩
  · split at hq
    case h_1 => cases hq
    case h_2 =>
      rcases List.mem_cons.1 hq with rfl | hq
      · exact ⟨rfl, by simp [inTrb, nextBuffer, PinnedSlice.byteLen]⟩
      · split at hq
        case h_1 => cases hq
        case h_2 =>
          rw [List.mem_singleton.1 hq]
          exact ⟨rfl, by simp [inTrb, nextBuffer, PinnedSlice.byteLen]⟩

/-- Whatever the hardware does, `scsi_read_10` queues TRBs with the property only. -/
def QueuesOnly (P : QueuedTrb → Prop) (transferLength : BitVec 16) : Prop :=
  ∀ (σ : Type) (w : World σ) (d : Driver σ) (slot : BitVec 8)
    (bulkInRing bulkOutRing bulkInDci bulkOutDci : ℕ) (lba : BitVec 32),
    ∀ q ∈ readTenQueue w d slot bulkInRing bulkOutRing bulkInDci bulkOutDci lba transferLength, P q

/-- Hardware and a device whose transfers are all a success. -/
def successes : World (Unit × ℕ) :=
  World.answering (.steady 0 successfulTransfer) fun _ => (successfulTransfer, [])

/-- The TRB of the data stage is queued when the command block wrapper was sent. -/
theorem exists_inTrb (transferLength : BitVec 16) :
    ∃ d₁, inTrb successes d₁ 0 (transferLength.toNat * 512) ∈
      readTenQueue successes startAnswered 1 0 1 3 4 0 transferLength := by
  obtain ⟨⟨⟩, d₁, hcbw, -⟩ := returns_bulkOut (.steady 0 successfulTransfer)
    (fun _ => (successfulTransfer, [])) soundAt_startAnswered
    (notifies_eightPorts (show 4 < 256 by decide)) rfl 1 (readTenCbw 0 transferLength)
  refine ⟨d₁, List.mem_cons_of_mem _ ?_⟩
  rw [successes, hcbw]
  exact List.mem_cons_self

/-- Every TRB carries the length of its buffer exactly when the length of the data fits into 17
bits. -/
theorem queuesOnly_carries_iff (transferLength : BitVec 16) :
    QueuesOnly (fun q => q.trb.Carries q.buf.byteLen) transferLength ↔
      transferLength.toNat < 256 := by
  constructor
  · intro hqueues
    obtain ⟨d₁, hmem⟩ := exists_inTrb transferLength
    have hcarries := (NormalTrb.carries_iff rfl).1 (hqueues _ _ _ _ _ _ _ _ _ _ hmem)
    have hlen : (inTrb successes d₁ 0 (transferLength.toNat * 512)).buf.byteLen =
        transferLength.toNat * 512 := by simp [inTrb, nextBuffer, PinnedSlice.byteLen]
    omega
  · intro hlt σ w d slot bulkInRing bulkOutRing bulkInDci bulkOutDci lba q hq
    obtain ⟨hoption, hlen⟩ := mem_readTenQueue hq
    rw [NormalTrb.carries_iff hoption]
    simp only [List.mem_cons, List.not_mem_nil, or_false] at hlen
    omega

/-- Every TRB carries the length of its buffer, of at most 65536 bytes, exactly when at most 128
sectors are read; and the rings are those that these TRBs were pushed on. -/
theorem queuesOnly_iff (transferLength : BitVec 16) :
    (QueuesOnly (fun q => q.trb.Carries q.buf.byteLen ∧ q.buf.byteLen ≤ 65536) transferLength ↔
      transferLength.toNat ≤ 128) ∧
    (QueuesOnly (fun q => q.trb.Carries q.buf.byteLen) transferLength ↔
      transferLength.toNat < 256) ∧
    ∀ (σ : Type) (w : World σ) (d : Driver σ) (slot : BitVec 8)
      (bulkInRing bulkOutRing bulkInDci bulkOutDci : ℕ) (lba : BitVec 32),
      ((scsiReadTen w slot bulkInRing bulkOutRing bulkInDci bulkOutDci lba
        transferLength).stateAfter d).rings = queueAll d.rings (readTenQueue w d slot bulkInRing
          bulkOutRing bulkInDci bulkOutDci lba transferLength) := by
  refine ⟨⟨fun hqueues => ?_, fun hle => ?_⟩, queuesOnly_carries_iff transferLength,
    fun _ _ _ _ _ _ _ _ _ => rings_scsiReadTen⟩
  · obtain ⟨d₁, hmem⟩ := exists_inTrb transferLength
    have hlen := (hqueues _ _ _ _ _ _ _ _ _ _ hmem).2
    simp only [inTrb, nextBuffer, PinnedSlice.byteLen] at hlen
    omega
  · intro σ w d slot bulkInRing bulkOutRing bulkInDci bulkOutDci lba q hq
    have hcarries := (queuesOnly_carries_iff transferLength).2 (by omega) σ w d slot bulkInRing
      bulkOutRing bulkInDci bulkOutDci lba q hq
    have hlen := (mem_readTenQueue hq).2
    simp only [List.mem_cons, List.not_mem_nil, or_false] at hlen
    exact ⟨hcarries, by omega⟩

/-- For 256 sectors the controller reads the length 0, and the TD Size 1. -/
theorem not_queuesOnly_256 :
    ¬QueuesOnly (fun q => q.trb.Carries q.buf.byteLen ∧ q.buf.byteLen ≤ 65536) 256 ∧
      (let trb := NormalTrb.newIn { ptr := 0x8000, len := 256 * 512, elemSize := 1 }
      trb.transferLength = 0 ∧ trb.tdSize = 1) := by
  refine ⟨fun hqueues => ?_, by decide⟩
  have hlt := (queuesOnly_carries_iff 256).1
    fun σ w d slot bulkInRing bulkOutRing bulkInDci bulkOutDci lba q hq =>
      (hqueues σ w d slot bulkInRing bulkOutRing bulkInDci bulkOutDci lba q hq).1
  exact absurd hlt (by decide)

end Driver

end Mushix
