import Mushix.Lib.WriteToClear
import Mushix.Xhci.Driver

/-!
# The status register

What the notification of an endpoint does to USBSTS (`xhci.rs`), some bits of which are cleared by
writing 1.

* `IsUsbsts`: hardware with such a register;
* `Driver.ClearsStatus`: what `notify_ep` is to do to it;
* `Driver.notifyEp_clears_iff`: for which values of the register it does.
-/

namespace Mushix

open BitField (writeToClear)

/-- The bits of USBSTS that are cleared by writing 1. -/
def statusClear : BitVec 32 := (1 <<< 2) ||| (1 <<< 3) ||| (1 <<< 4) ||| (1 <<< 10)

/-- Hardware whose USBSTS has the value `usbsts`. Its other bits are read only, and a doorbell is
rung without an effect on it. -/
structure IsUsbsts {σ : Type} (w : World σ) (regs : XhcRegisters) (usbsts : σ → BitVec 32) :
    Prop where
  read (s : σ) : (w.read (regs.opRegs + Driver.usbstsOffset) s).1 = usbsts s
  read_keeps (s : σ) : usbsts (w.read (regs.opRegs + Driver.usbstsOffset) s).2 = usbsts s
  write (value : BitVec 32) (s : σ) :
    usbsts (w.write (regs.opRegs + Driver.usbstsOffset) value s) =
      writeToClear (usbsts s) statusClear value
  notify (db : ℕ) (value : BitVec 32) (s : σ) (h : db ∈ regs.doorbellRegs) :
    usbsts (w.write db value s) = usbsts s

/-- Hardware that is a USBSTS register at an address. -/
def World.statusAt (addr : ℕ) : World (BitVec 32) where
  read _ hw := (hw, hw)
  write a value hw := if a = addr then writeToClear hw statusClear value else hw
  event hw := ((.default, []), hw)
  page := (World.steady 0 .default).page
  buffer := (World.steady 0 .default).buffer

namespace Driver

variable {σ : Type} {w : World σ} {d : Driver σ} {usbsts : σ → BitVec 32}

/-- The bits in `TO_CLEAR` are 0 and all others are what they were. -/
structure ClearsStatus (before after : BitVec 32) : Prop where
  cleared : after &&& toClear = 0
  kept : after &&& ~~~toClear = before &&& ~~~toClear

/-- A call of `notify_ep`, and what the hardware does by itself before it. -/
structure StatusCall (σ : Type) where
  device : σ → σ
  slot : BitVec 8
  dci : ℕ

/-- The driver when the hardware has done what it does before the call. -/
def StatusCall.begin (call : StatusCall σ) (d : Driver σ) : Driver σ :=
  { d with hardware := call.device d.hardware }

/-- The driver after the call. -/
def StatusCall.finish (w : World σ) (call : StatusCall σ) (d : Driver σ) : Driver σ :=
  (notifyEp w call.slot call.dci).stateAfter (call.begin d)

/-- There is a doorbell for the slot, and the DCI fits into it. -/
def StatusCall.Valid (regs : XhcRegisters) (call : StatusCall σ) : Prop :=
  (regs.doorbellRegs[call.slot.toNat]?).isSome ∧ call.dci < 256

/-- Every call of the sequence does to USBSTS what it is to do. -/
def AlwaysClears (w : World σ) (usbsts : σ → BitVec 32) :
    List (StatusCall σ) → Driver σ → Prop
  | [], _ => True
  | call :: calls, d =>
    ClearsStatus (usbsts (call.begin d).hardware) (usbsts (call.finish w d).hardware) ∧
      AlwaysClears w usbsts calls (call.finish w d)

/-- Before every call of the sequence no bit of USBSTS that can be cleared is set. -/
def NothingToClear (w : World σ) (usbsts : σ → BitVec 32) : List (StatusCall σ) → Driver σ → Prop
  | [], _ => True
  | call :: calls, d =>
    usbsts (call.begin d).hardware &&& statusClear = 0 ∧
      NothingToClear w usbsts calls (call.finish w d)

/-- The three bits are cleared and all others stay. -/
theorem clearsStatus_iff {before after : BitVec 32} :
    ClearsStatus before after ↔ after = before &&& ~~~toClear := by
  rw [BitField.eq_and_not_iff]
  exact ⟨fun h => ⟨h.cleared, h.kept⟩, fun h => ⟨h.1, h.2⟩⟩

/-- The bits that are to be cleared are cleared by writing 1. -/
theorem toClear_and_statusClear : toClear &&& statusClear = toClear := by decide

/-- `notify_ep` stores 0 to the bits that it is to clear, and the value that was read to all
others. -/
theorem notifyEp_usbsts (h : IsUsbsts w d.regs usbsts) {slot : BitVec 8} {dci db : ℕ}
    (hdb : d.regs.doorbellRegs[slot.toNat]? = some db) (hdci : dci < 256) :
    ∃ d', notifyEp w slot dci d = .ok () d' ∧ d'.regs = d.regs ∧
      usbsts d'.hardware = writeToClear (usbsts d.hardware) statusClear
        (usbsts d.hardware &&& ~~~toClear) := by
  have hmem : db ∈ d.regs.doorbellRegs := List.mem_of_getElem? hdb
  refine ⟨_, (run_notifyEp hdb hdci).trans rfl, rfl, ?_⟩
  simp only [h.write, h.read, h.read_keeps, h.notify _ _ _ hmem]

/-- A call does what it is to do exactly when there is nothing to clear. -/
theorem StatusCall.clears_iff (h : IsUsbsts w d.regs usbsts) {call : StatusCall σ}
    (hvalid : call.Valid d.regs) :
    (call.finish w d).regs = d.regs ∧
      (ClearsStatus (usbsts (call.begin d).hardware) (usbsts (call.finish w d).hardware) ↔
        usbsts (call.begin d).hardware &&& statusClear = 0) := by
  obtain ⟨db, hdb⟩ := Option.isSome_iff_exists.1 hvalid.1
  obtain ⟨d', hrun, hregs, hstatus⟩ := notifyEp_usbsts (d := call.begin d) h hdb hvalid.2
  rw [StatusCall.finish, Method.stateAfter_of_ok hrun]
  refine ⟨hregs, ?_⟩
  rw [clearsStatus_iff, hstatus]
  exact BitField.writeToClear_and_not_eq_iff toClear_and_statusClear

/-- The calls of a sequence do what they are to do exactly when there is never anything to clear. -/
theorem alwaysClears_iff {regs : XhcRegisters} (h : IsUsbsts w regs usbsts)
    {calls : List (StatusCall σ)} (hvalid : ∀ call ∈ calls, call.Valid regs) (hd : d.regs = regs) :
    AlwaysClears w usbsts calls d ↔ NothingToClear w usbsts calls d := by
  induction calls generalizing d with
  | nil => exact Iff.rfl
  | cons call calls ih =>
    subst hd
    obtain ⟨hregs, hcall⟩ := StatusCall.clears_iff h (hvalid call List.mem_cons_self)
    have hrest := ih (fun c hc => hvalid c (List.mem_cons_of_mem call hc)) hregs
    rw [AlwaysClears, NothingToClear, hcall, hrest]

/-- Where the hardware does nothing by itself, there is never anything to clear exactly when there
is nothing to clear at the start. -/
theorem nothingToClear_iff {regs : XhcRegisters} (h : IsUsbsts w regs usbsts)
    {calls : List (StatusCall σ)} (hvalid : ∀ call ∈ calls, call.Valid regs)
    (hdevice : ∀ call ∈ calls, call.device = id) (hne : calls ≠ []) (hd : d.regs = regs) :
    NothingToClear w usbsts calls d ↔ usbsts d.hardware &&& statusClear = 0 := by
  induction calls generalizing d with
  | nil => exact absurd rfl hne
  | cons call calls ih =>
    subst hd
    have hbegin : call.begin d = d := by
      simp [StatusCall.begin, hdevice call List.mem_cons_self]
    obtain ⟨hregs, hcall⟩ := StatusCall.clears_iff h (hvalid call List.mem_cons_self)
    rw [NothingToClear, hbegin, and_iff_left_iff_imp]
    intro hclear
    rw [hbegin, clearsStatus_iff] at hcall
    rcases calls.eq_nil_or_concat with rfl | ⟨_, _, hcalls⟩
    · trivial
    -- the first call has kept the register as it is
    · apply (ih (fun c hc => hvalid c (List.mem_cons_of_mem call hc))
        (fun c hc => hdevice c (List.mem_cons_of_mem call hc)) (by simp [hcalls]) hregs).2
      rw [hcall.2 hclear, BitVec.and_assoc, BitVec.and_comm (~~~toClear), ← BitVec.and_assoc,
        hclear]
      simp

/-- `notify_ep` clears the bits in `TO_CLEAR` and keeps all others exactly when there is nothing to
clear: it does not clear a bit that is set in `TO_CLEAR`, and it does clear bit 10. -/
theorem notifyEp_clears_iff (h : IsUsbsts w d.regs usbsts) {calls : List (StatusCall σ)}
    (hvalid : ∀ call ∈ calls, call.Valid d.regs) :
    (AlwaysClears w usbsts calls d ↔ NothingToClear w usbsts calls d) ∧
      (calls ≠ [] → (∀ call ∈ calls, call.device = id) →
        (AlwaysClears w usbsts calls d ↔ usbsts d.hardware &&& statusClear = 0)) := by
  refine ⟨alwaysClears_iff h hvalid rfl, fun hne hdevice => ?_⟩
  rw [alwaysClears_iff h hvalid rfl, nothingToClear_iff h hvalid hdevice hne rfl]

/-! ## A controller -/

/-- The driver of a controller with 8 ports, whose USBSTS has the value `sts`. -/
def startStatus (sts : BitVec 32) : Driver (BitVec 32) :=
  .start (.placed 0x10000 eightPorts) ((World.steady 0 .default).page 0) sts

/-- A call of `notify_ep` for slot 1. -/
def notifyFirst : StatusCall (BitVec 32) := { device := id, slot := 1, dci := 1 }

/-- The hardware of the example has a USBSTS register. -/
theorem isUsbsts_statusAt : IsUsbsts (.statusAt 0x10084) (.placed 0x10000 eightPorts) id where
  read _ := rfl
  read_keeps _ := rfl
  write _ _ := rfl
  notify db value s h := by
    obtain ⟨i, -, rfl⟩ := List.mem_map.1 h
    have hne : 0x10000 + eightPorts.dboff + 4 * i ≠ 0x10084 := by
      rw [show eightPorts.dboff = 0x3000 by decide]
      omega
    exact if_neg hne

/-- A call for slot 2, before which the controller has reported the change of a port. -/
def notifySecond : StatusCall (BitVec 32) := { device := (· ||| 8), slot := 2, dci := 3 }

/-- Both calls ring a doorbell that exists. -/
theorem notify_valid :
    ∀ call ∈ [notifyFirst, notifySecond],
      StatusCall.Valid (.placed 0x10000 eightPorts) call := by
  simp only [List.forall_mem_cons]
  exact ⟨⟨by decide, by decide⟩, ⟨by decide, by decide⟩, by simp⟩

/-- Bit 0 of the register is not one that can be cleared, and bit 3 is. -/
theorem notifyEp_clears_iff_halted :
    (AlwaysClears (.statusAt 0x10084) id [notifyFirst, notifySecond] (startStatus 1) ↔
      NothingToClear (.statusAt 0x10084) id [notifyFirst, notifySecond] (startStatus 1)) ∧
      (AlwaysClears (.statusAt 0x10084) id [notifyFirst, notifyFirst] (startStatus 1) ↔
        id (startStatus 1).hardware &&& statusClear = 0) := by
  have hfirst : ∀ call ∈ [notifyFirst, notifyFirst],
      StatusCall.Valid (.placed 0x10000 eightPorts) call := fun call hcall =>
    notify_valid call (by simp_all)
  exact ⟨(notifyEp_clears_iff (d := startStatus 1) isUsbsts_statusAt notify_valid).1,
    (notifyEp_clears_iff (d := startStatus 1) isUsbsts_statusAt hfirst).2 (by simp)
      (by simp [notifyFirst])⟩

/-- A pending port change stays pending, and with it the save and restore error of bit 10 is
cleared. -/
theorem not_clears_portChange :
    ¬AlwaysClears (.statusAt 0x10084) id [notifyFirst] (startStatus 0x408) := by
  rintro ⟨hcall, -⟩
  have hkept : id (notifyFirst.finish (.statusAt 0x10084) (startStatus 0x408)).hardware = 8 := by
    decide
  have hcleared := hcall.cleared
  rw [hkept] at hcleared
  exact absurd hcleared (by decide)

end Driver

end Mushix
