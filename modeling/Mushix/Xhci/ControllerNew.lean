import Mushix.Xhci.ControllerMemory
import Mushix.Xhci.ControllerReset

/-!
# The start of the controller

`Controller::new` (`xhci.rs`): the controller is reset, the memory that it reads is prepared, the
registers are set to this memory, and only then RUN is set.

* `Bus`: hardware with registers of 64 bits, too;
* `Controller.new`: the method;
* `Controller.Ready`: the memory and the registers have what a controller needs to run;
* `Controller.new_starts`: RUN is set in such a state only.

The hardware does not write to memory here; it may do so once RUN is set. The mutexes are new, so
that nobody waits for them. The page tables are those of the firmware, in any memory around the
heap; each page of the heap must have an entry of its own in them.
-/

namespace Mushix

open Bytes (Memory toLE)
open HeapSystem (Contains Fills Owns)
open Method (Ends Stays)

/-- Hardware with registers of 32 and of 64 bits. -/
structure Bus (σ : Type) extends World σ where
  read64 : ℕ → σ → BitVec 64 × σ
  write64 : ℕ → BitVec 64 → σ → σ

variable {σ : Type}

namespace Bus

variable (w : Bus σ)

/-- The same hardware with an account of the stores to its registers. -/
def recorded : World (Device σ) where
  read addr d :=
    let (value, hardware) := w.read addr d.hardware
    (value, { d with hardware })
  write addr value d :=
    { d with hardware := w.write addr value d.hardware, stores := .word addr value :: d.stores }
  event d :=
    let (answer, hardware) := w.event d.hardware
    (answer, { d with hardware })
  page := w.page
  buffer := w.buffer

/-- A read of a register of 64 bits. -/
def readReg64 (addr : ℕ) : Method (Device σ) (BitVec 64) := fun d =>
  let (value, hardware) := w.read64 addr d.hardware
  .ok value { d with hardware }

/-- A store to a register of 32 bits. -/
def writeReg (addr : ℕ) (value : BitVec 32) : Method (Device σ) PUnit :=
  modify (w.recorded.write addr value)

/-- A store to a register of 64 bits. -/
def writeReg64 (addr : ℕ) (value : BitVec 64) : Method (Device σ) PUnit := modify fun d =>
  { d with hardware := w.write64 addr value d.hardware, stores := .dword addr value :: d.stores }

end Bus

/-! ## Registers -/

namespace OperationalRegisters

/-- The offsets of `pagesize`, `crcr`, `dcbaap` and `config` in `OperationalRegisters`. -/
def pagesizeOffset : ℕ := 8

@[inherit_doc pagesizeOffset]
def crcrOffset : ℕ := 0x18

@[inherit_doc pagesizeOffset]
def dcbaapOffset : ℕ := 0x30

@[inherit_doc pagesizeOffset]
def configOffset : ℕ := 0x38

/-- `start_xhc`, whose loop goes on for a number of rounds: whether it has returned. -/
def startXhc (w : World σ) (opRegs rounds : ℕ) : Method σ Bool := do
  setCommandBits w opRegs cmdRunStop
  Method.whileTrue (pollSet w opRegs statusHcHalted) rounds

variable (w : Bus σ) (opRegs : ℕ)

/-- `set_cmd_ring_ctrl`: the cycle state of the consumer is 1. -/
def setCmdRingCtrl (ring : CommandRingBox) : Method (Device σ) PUnit :=
  w.writeReg64 (opRegs + crcrOffset) (ring.ring.addr ||| 1)

/-- `set_dcbaa_ptr`: the controller is told where the device contexts are. -/
def setDcbaaPtr (dcbaa : DeviceContextBaseAddressArray) : Method (Device σ) PUnit :=
  w.writeReg64 (opRegs + dcbaapOffset) (BitVec.ofNat 64 dcbaa.inner)

/-- `set_num_device_slots` keeps the other bits of CONFIG. -/
def setNumDeviceSlots (num : ℕ) : Method (Device σ) PUnit := do
  let c ← w.readReg64 (opRegs + configOffset)
  let c := c &&& ~~~0xff#64
  let c := c ||| BitVec.ofNat 64 num
  w.writeReg64 (opRegs + configOffset) c

/-- The stores of `reset_xhc`, where USBCMD reads as these values. -/
def resetStores (v₀ v₁ : BitVec 32) : List Store :=
  [.word (opRegs + usbcmdOffset) (v₀ &&& ~~~cmdRunStop),
    .word (opRegs + usbcmdOffset) (v₁ ||| cmdHcReset)]

end OperationalRegisters

/-- The address of an interrupter in the runtime registers. -/
def RuntimeRegisters.irsAddr (rtRegs index : ℕ) : ℕ := rtRegs + 0x20 + 0x20 * index

/-- `init_irs` for the ring behind pointers. -/
def RuntimeRegisters.initIrs (w : Bus σ) (rtRegs index : ℕ) (ring : EventRingBox) :
    Method (Device σ) EventRingBox := do
  if index < 1024 then
    let irs := irsAddr rtRegs index
    w.writeReg (irs + 8) 1
    w.writeReg64 (irs + 0x10) ring.erstPhysAddr
    w.writeReg64 (irs + 0x18) ring.ringPhysAddr
    w.writeReg (irs + 4) 0
    w.writeReg irs 1
    return ring.setErdp (irs + 0x18)
  else
    throw (.err "Index out of range")

/-- The stores that give an interrupter at this address its values. -/
def InterrupterRegisterSet.stores (self : InterrupterRegisterSet) (irs : ℕ) : List Store :=
  [.word (irs + 8) self.erstSize, .dword (irs + 0x10) self.erstBase,
    .dword (irs + 0x18) self.erdp, .word (irs + 4) self.moderation, .word irs self.management]

/-! ## The controller -/

/-- `Controller`, with the rings and contexts as pointers. -/
structure Controller where
  regs : XhcRegisters
  deviceContextBaseArray : DeviceContextBaseAddressArray
  primaryEventRing : EventRingBox
  commandRing : CommandRingBox

namespace Controller

open OperationalRegisters

section Methods

variable (w : Bus σ) (self : Controller)

/-- `init_primary_event_ring` gives the first interrupter to the event ring. -/
def initPrimaryEventRing : Method (Device σ) Controller := do
  let primaryEventRing ← RuntimeRegisters.initIrs w self.regs.rtRegs 0 self.primaryEventRing
  return { self with primaryEventRing }

/-- `init_command_ring` writes CRCR. -/
def initCommandRing : Method (Device σ) PUnit :=
  setCmdRingCtrl w self.regs.opRegs self.commandRing

/-- `init_slots_and_contexts` enables all slots and writes DCBAAP. -/
def initSlotsAndContexts : Method (Device σ) PUnit := do
  let numSlots := self.regs.capRegs.numOfDeviceSlots
  setNumDeviceSlots w self.regs.opRegs numSlots
  setDcbaaPtr w self.regs.opRegs self.deviceContextBaseArray

end Methods

/-- `Controller::new`, whose loops go on for a number of rounds: the controller, or nothing while
it still waits. -/
def new (w : Bus σ) (growth : VecGrowth) (regs : XhcRegisters) (rounds : ℕ) :
    Method (HeapSystem × Device σ) (Option Controller) := do
  if ← Method.onSnd (resetXhc w.recorded regs.opRegs rounds) then
    let pagesize ← Method.onSnd (read w.recorded regs.opRegs pagesizeOffset)
    let scratchpadBuffers ← Method.onFst (ScratchpadBuffers.alloc growth regs.capRegs pagesize)
    let deviceContextBaseArray ←
      Method.onFst (DeviceContextBaseAddressArray.new scratchpadBuffers)
    let primaryEventRing ← EventRingBox.new
    let commandRing ← CommandRingBox.default
    let xhc : Controller := { regs, deviceContextBaseArray, primaryEventRing, commandRing }
    -- the registers point to what was allocated before the controller is started
    let xhc ← Method.onSnd (xhc.initPrimaryEventRing w)
    Method.onSnd (xhc.initSlotsAndContexts w)
    Method.onSnd (xhc.initCommandRing w)
    if ← Method.onSnd (startXhc w.recorded regs.opRegs rounds) then
      return some xhc
    else
      return none
  else
    return none

/-! ## What a controller needs to run -/

/-- The interrupter of the primary event ring. -/
def primary : Fin 1024 := ⟨0, Nat.succ_pos 1023⟩

/-- The event ring and its interrupter as `EventState.boot` has them. -/
def bootState (self : Controller) (irs : Fin 1024 → InterrupterRegisterSet) : EventState :=
  .boot self.primaryEventRing.ring self.primaryEventRing.erst irs primary

/-- What the controller reads, apart from the scratchpad buffers. -/
def contents (self : Controller) (irs : Fin 1024 → InterrupterRegisterSet) :
    List (Allocation × List (BitVec 8)) :=
  (self.commandRing.ring.page, (CommandRing.default self.commandRing.ring).ring.bytes) ::
    (EventRingBox.contents (self.bootState irs).evring ++
      [(⟨self.deviceContextBaseArray.inner, DeviceContextBaseAddressArray.layout⟩,
        DeviceContextBaseAddressArray.bytes
          self.deviceContextBaseArray.scratchpadBuffers.table.ptr)])

/-- The table of the scratchpad buffers `ps`, and these buffers. -/
def scratchpad (self : Controller) (table page : Layout) (ps : List ℕ) :
    List (Allocation × List (BitVec 8)) :=
  (⟨self.deviceContextBaseArray.scratchpadBuffers.table.ptr, table⟩, ps.flatMap (toLE 8)) ::
    ps.map (⟨·, page⟩, [])

/-- The stores between the reset and RUN, where CONFIG reads as `c`. -/
def initStores (self : Controller) (irs : Fin 1024 → InterrupterRegisterSet) (c : BitVec 64) :
    List Store :=
  ((self.bootState irs).irs primary).stores (RuntimeRegisters.irsAddr self.regs.rtRegs 0) ++
    [.dword (self.regs.opRegs + configOffset)
      (c &&& ~~~0xff#64 ||| BitVec.ofNat 64 self.regs.capRegs.numOfDeviceSlots),
    .dword (self.regs.opRegs + dcbaapOffset) (BitVec.ofNat 64 self.deviceContextBaseArray.inner),
    .dword (self.regs.opRegs + crcrOffset) (self.commandRing.ring.addr ||| 1)]

/-- The controller that was made from these registers and what is in memory agree: the rings are
those from which a run of the driver starts, and all that the hardware reads is allocated, each
thing in a place of its own. The pages of the rings and of the segment table are mapped to
themselves without the cache. -/
structure Ready (self : Controller) (regs : XhcRegisters)
    (irs : Fin 1024 → InterrupterRegisterSet) (u : HeapSystem × Device σ) : Prop where
  regs_eq : self.regs = regs
  commandRing : self.commandRing.cycleStateOurs =
    (CommandRing.default self.commandRing.ring).cycleStateOurs
  eventRing : self.primaryEventRing.cycleStateOurs = (self.bootState irs).evring.cycleStateOurs
  erdp : self.primaryEventRing.erdp = (self.bootState irs).evring.erdp.map
    fun i : Fin 1024 => RuntimeRegisters.irsAddr regs.rtRegs i.val + 0x18
  waitList : self.primaryEventRing.waitList = (self.bootState irs).evring.waitList
  aligned : self.deviceContextBaseArray.inner % 64 = 0
  memory : ∃ (pagesize : BitVec 32) (pageSize : ℕ) (table page : Layout) (ps : List ℕ),
    OperationalRegisters.pageSize pagesize = .ok pageSize ∧
    Layout.array 8 8 ps.length = some table ∧ Layout.array 1 1 pageSize = some page ∧
    ps.length = max regs.capRegs.numScratchpadBufs 1 ∧
    Contains (self.contents irs ++ self.scratchpad table page ps) u.1
  uncached : ∀ box ∈ [self.commandRing.ring, self.primaryEventRing.erst,
    self.primaryEventRing.ring], MappedWithoutCache u.1.heap.mem u.2.cr3 box.number

/-- Only the reset was begun. -/
def NotStarted (regs : XhcRegisters) (u : HeapSystem × Device σ) : Prop :=
  ∃ v₀ v₁, u.2.stores.reverse <+: resetStores regs.opRegs v₀ v₁

/-- RUN was set with the last store, when everything was ready. -/
def Started (self : Controller) (regs : XhcRegisters) (irs : Fin 1024 → InterrupterRegisterSet)
    (u : HeapSystem × Device σ) : Prop :=
  self.Ready regs irs u ∧ ∃ v₀ v₁ c v₂, u.2.stores.reverse =
    resetStores regs.opRegs v₀ v₁ ++ (self.initStores irs c ++
      [.word (regs.opRegs + usbcmdOffset) (v₂ ||| cmdRunStop)])

/-! ## The steps -/

variable {w : Bus σ} {growth : VecGrowth} {regs : XhcRegisters} {rounds : ℕ} {seed : Seeding}
  {P : Memory → Prop} {s : HeapSystem} {d : Device σ} {cr3 : ℕ}

/-- The reset writes USBCMD twice, unless it waits for ever. -/
theorem ends_resetXhc (hardware : σ) :
    Ends (fun d => d.cr3 = cr3 ∧ ∃ v₀ v₁, d.stores.reverse <+: resetStores regs.opRegs v₀ v₁)
      (fun done d => d.cr3 = cr3 ∧ ∃ v₀ v₁,
        d.stores.reverse <+: resetStores regs.opRegs v₀ v₁ ∧
          (done = true → d.stores.reverse = resetStores regs.opRegs v₀ v₁))
      (resetXhc w.recorded regs.opRegs rounds) { hardware, stores := [], cr3 } := by
  -- the loops only read
  let I (stores : List Store) : Device σ → Prop := fun d => d.cr3 = cr3 ∧ d.stores = stores
  have hzero : ∀ stores, Stays (I stores) (pollZero w.recorded regs.opRegs statusHcHalted) :=
    fun _ _ h => h
  have hset : ∀ stores, Stays (I stores) (pollSet w.recorded regs.opRegs cmdHcReset) :=
    fun _ _ h => h
  obtain ⟨v₀, d₁, hclear, h₁⟩ : ∃ v₀ d₁,
      clearCommandBits w.recorded regs.opRegs cmdRunStop
          { hardware, stores := [], cr3 } = .ok () d₁ ∧
        I [.word (regs.opRegs + usbcmdOffset) (v₀ &&& ~~~cmdRunStop)] d₁ :=
    ⟨_, _, rfl, rfl, rfl⟩
  have hfirst : ∀ d, I [.word (regs.opRegs + usbcmdOffset) (v₀ &&& ~~~cmdRunStop)] d →
      d.stores.reverse <+: resetStores regs.opRegs v₀ 0 := by
    rintro d ⟨-, hstores⟩
    rw [hstores]
    exact List.prefix_append _ [_]
  rw [Ends, resetXhc, Method.bind_of_ok hclear]
  refine ((hzero _).whileTrue rounds).bind_ends h₁ (fun d h => ⟨h.1, v₀, 0, hfirst d h⟩)
    fun halted d₂ h₂ => ?_
  split
  case isFalse => exact Ends.pure ⟨h₂.1, v₀, 0, hfirst d₂ h₂, fun h => by cases h⟩
  obtain ⟨v₁, d₃, hreset, h₃⟩ : ∃ v₁ d₃,
      setCommandBits w.recorded regs.opRegs cmdHcReset d₂ = .ok () d₃ ∧
        I (resetStores regs.opRegs v₀ v₁).reverse d₃ :=
    ⟨_, _, rfl, h₂.1, congrArg (List.cons _) h₂.2⟩
  have hboth : ∀ d, I (resetStores regs.opRegs v₀ v₁).reverse d →
      d.stores.reverse = resetStores regs.opRegs v₀ v₁ := by
    rintro d ⟨-, hstores⟩
    rw [hstores, List.reverse_reverse]
  rw [Ends, Method.bind_of_ok hreset]
  refine ((hset _).whileTrue rounds d₃ h₃).imp (fun d h => ⟨h.1, v₀, v₁, ?_⟩)
    fun done d h => ⟨h.1, v₀, v₁, ?_, fun _ => hboth d h⟩
  · exact (hboth d h).symm ▸ List.prefix_rfl
  · exact (hboth d h).symm ▸ List.prefix_rfl

/-- The buffers, and the table in which they are listed. -/
theorem ends_allocScratchpad (h : Fills seed P [] s) (pagesize : BitVec 32) :
    Ends (fun _ => True)
      (fun self s' => ∃ (pageSize : ℕ) (table page : Layout) (ps : List ℕ),
        OperationalRegisters.pageSize pagesize = .ok pageSize ∧
        Layout.array 8 8 ps.length = some table ∧ Layout.array 1 1 pageSize = some page ∧
        ps.length = max regs.capRegs.numScratchpadBufs 1 ∧
        Fills seed P
          ((⟨self.table.ptr, table⟩, ps.flatMap (toLE 8)) :: ps.map (⟨·, page⟩, [])) s')
      (ScratchpadBuffers.alloc growth regs.capRegs pagesize) s := by
  cases hpage : OperationalRegisters.pageSize pagesize with
  | error msg =>
    have hrun : ScratchpadBuffers.alloc growth regs.capRegs pagesize s = .error (.err msg) s := by
      rw [ScratchpadBuffers.alloc, hpage]
      rfl
    exact Ends.of_error hrun trivial
  | ok pageSize =>
    obtain ⟨bs, howns⟩ := h.owns
    refine (Ends.of_follows (ScratchpadBuffers.alloc_follows hpage regs.capRegs rfl howns)).imp
      (fun _ h => h) ?_
    rintro ⟨table', bufs⟩ s' ⟨⟨b, cs⟩, table, page, htable, harray, rfl, -, -, hlength, -, bs',
      ⟨vs, -, howns'⟩, -, hwords, hsame⟩
    let ps := cs.map (·.place page.demand)
    have hlen : ps.length = max regs.capRegs.numScratchpadBufs 1 := by
      rw [List.length_map, hlength]
    rw [← hlen] at htable
    have htoLE : ∀ v, (toLE 8 v).length = 8 := Bytes.length_toLE 8
    refine ⟨pageSize, table, page, ps, rfl, htable, harray, hlen, ⟨bs', ?_⟩, ?_,
      h.outside_same hsame⟩
    · refine (howns'.sublist (List.sublist_append_right vs _)).perm (.of_eq ?_)
      simp [ps, Function.comp_def]
    · refine List.forall_mem_cons.2 ⟨⟨?_, ?_⟩, fun c hc => ?_⟩
      · rw [Packed.length_flatMap htoLE]
        exact (Layout.fromSizeAlign_eq_some htable).1.ge
      -- the words of the table are the addresses
      · have hstores := Packed.stores_readArray s'.heap.mem (b.place table.demand) 8 ps.length
        rwa [hwords] at hstores
      · obtain ⟨p, -, rfl⟩ := List.mem_map.1 hc
        exact ⟨Nat.zero_le _, .nil _ _⟩

/-- The registers are set to what was prepared. -/
theorem init_run {α : Type} (self : Controller) (irs : Fin 1024 → InterrupterRegisterSet)
    (rest : Controller → Method (HeapSystem × Device σ) α) (s : HeapSystem) (d : Device σ) :
    ∃ c d', (do
        let xhc ← Method.onSnd (self.initPrimaryEventRing w)
        Method.onSnd (xhc.initSlotsAndContexts w)
        Method.onSnd (xhc.initCommandRing w)
        rest xhc) (s, d) =
      rest { self with
        primaryEventRing := self.primaryEventRing.setErdp
          (RuntimeRegisters.irsAddr self.regs.rtRegs 0 + 0x18) } (s, d') ∧
      d'.stores = (self.initStores irs c).reverse ++ d.stores ∧ d'.cr3 = d.cr3 :=
  ⟨_, _, rfl, rfl, rfl⟩

/-- `start_xhc` sets RUN, and does not fail. -/
theorem startXhc_returns (w : Bus σ) (regs : XhcRegisters) (rounds : ℕ) (d : Device σ) :
    ∃ done d', startXhc w.recorded regs.opRegs rounds d = .ok done d' ∧
      d'.cr3 = d.cr3 ∧ ∃ v₂, d'.stores =
        .word (regs.opRegs + usbcmdOffset) (v₂ ||| cmdRunStop) :: d.stores := by
  obtain ⟨v₂, d₁, hset, hcr3, hstores⟩ : ∃ v₂ d₁,
      setCommandBits w.recorded regs.opRegs cmdRunStop d = .ok () d₁ ∧
        d₁.cr3 = d.cr3 ∧
        d₁.stores = .word (regs.opRegs + usbcmdOffset) (v₂ ||| cmdRunStop) :: d.stores :=
    ⟨_, _, rfl, rfl, rfl⟩
  have hpoll : Stays (fun d' => d'.cr3 = d₁.cr3 ∧ d'.stores = d₁.stores)
      (pollSet w.recorded regs.opRegs statusHcHalted) := fun _ h => h
  have hkeep := hpoll.whileTrue rounds d₁ ⟨rfl, rfl⟩
  obtain ⟨done, d₂, hrun⟩ := Method.whileTrue_returns (fun _ => rfl) rounds d₁
  refine ⟨done, d₂, ?_, (hkeep.ok hrun).1.trans hcr3, v₂, (hkeep.ok hrun).2.trans hstores⟩
  rw [startXhc, Method.bind_of_ok hset]
  exact hrun

/-- Nothing but the reset has been stored where a call does not write to registers. -/
theorem NotStarted.of_stores {u u' : HeapSystem × Device σ} (h : NotStarted regs u)
    (hstores : u'.2.stores = u.2.stores) : NotStarted regs u' := by
  obtain ⟨v₀, v₁, hprefix⟩ := h
  exact ⟨v₀, v₁, hstores ▸ hprefix⟩

/-- What was prepared, for a controller whose event ring knows its register. -/
theorem ready_of_contains {dcbaa : DeviceContextBaseAddressArray} {evring : EventRingBox}
    {commandRing : CommandRingBox} {irs : Fin 1024 → InterrupterRegisterSet}
    {pagesize : BitVec 32} {pageSize : ℕ} {table page : Layout} {ps : List ℕ}
    {u : HeapSystem × Device σ}
    (hours : commandRing.cycleStateOurs = (CommandRing.default commandRing.ring).cycleStateOurs)
    (hcycle : evring.cycleStateOurs = true) (hwait : evring.waitList = [])
    (halign : dcbaa.inner % 64 = 0) (hpage : OperationalRegisters.pageSize pagesize = .ok pageSize)
    (htable : Layout.array 8 8 ps.length = some table)
    (harray : Layout.array 1 1 pageSize = some page)
    (hlen : ps.length = max regs.capRegs.numScratchpadBufs 1)
    (hcontains : Contains
      ((commandRing.ring.page, (CommandRing.default commandRing.ring).ring.bytes) ::
        (EventRingBox.contents (EventState.fresh evring.ring evring.erst) ++
          (⟨dcbaa.inner, DeviceContextBaseAddressArray.layout⟩,
            DeviceContextBaseAddressArray.bytes dcbaa.scratchpadBuffers.table.ptr) ::
          (⟨dcbaa.scratchpadBuffers.table.ptr, table⟩, ps.flatMap (toLE 8)) ::
            ps.map (⟨·, page⟩, []))) u.1)
    (huncached : ∀ box ∈ [commandRing.ring, evring.erst, evring.ring],
      MappedWithoutCache u.1.heap.mem u.2.cr3 box.number) :
    Ready { regs, deviceContextBaseArray := dcbaa,
            primaryEventRing :=
              evring.setErdp (RuntimeRegisters.irsAddr regs.rtRegs 0 + 0x18),
            commandRing } regs irs u := by
  -- the interrupter is told where the ring is, and the ring where its register is
  have hboot : (EventState.boot evring.ring evring.erst irs primary).evring =
      { EventState.fresh evring.ring evring.erst with erdp := some primary } :=
    EventState.boot_evring _ _ irs primary
  refine ⟨rfl, hours, ?_, ?_, ?_, halign,
    ⟨pagesize, pageSize, table, page, ps, hpage, htable, harray, hlen, ?_⟩, huncached⟩
  · show evring.cycleStateOurs =
      (EventState.boot evring.ring evring.erst irs primary).evring.cycleStateOurs
    rw [hboot]
    exact hcycle
  · show some (RuntimeRegisters.irsAddr regs.rtRegs 0 + 0x18) =
      (EventState.boot evring.ring evring.erst irs primary).evring.erdp.map _
    rw [hboot]
    rfl
  · show evring.waitList = (EventState.boot evring.ring evring.erst irs primary).evring.waitList
    rw [hboot]
    exact hwait
  -- the contents do not depend on the register
  · show Contains (_ :: (EventRingBox.contents
      (EventState.boot evring.ring evring.erst irs primary).evring ++ [_]) ++ _) u.1
    rw [hboot, List.cons_append, List.append_assoc]
    exact hcontains

/-- The memory is prepared in the heap of a client that owns nothing yet. -/
theorem ends_new (h : Prepared seed cr3 [] [] s) (irs : Fin 1024 → InterrupterRegisterSet)
    (hardware : σ) :
    Ends (NotStarted regs)
      (fun r u => (r = none ∧ NotStarted regs u) ∨
        ∃ xhc, (r = none ∨ r = some xhc) ∧ xhc.Started regs irs u)
      (new w growth regs rounds) (s, { hardware, stores := [], cr3 }) := by
  unfold new
  refine (ends_resetXhc hardware).onSnd.bind_imp (fun u hu => hu.1.2) ?_
  rintro done ⟨s₁, d₁⟩ ⟨⟨rfl, v₀, v₁, hprefix, hreset⟩, rfl⟩
  split
  case isFalse => exact Ends.pure (.inl ⟨rfl, v₀, v₁, hprefix⟩)
  case isTrue hdone =>
  -- until the registers are set, no call that fails has stored more than the reset
  have hnot : ∀ u : HeapSystem × Device σ, u.2.stores = d₁.stores → NotStarted regs u :=
    fun u hu => NotStarted.of_stores (u := (s₁, d₁)) ⟨v₀, v₁, hprefix⟩ hu
  obtain ⟨pagesize, d₂, hread, hstores₂, hcr3⟩ : ∃ pagesize d₂,
      Method.onSnd (read w.recorded regs.opRegs pagesizeOffset) (s₁, d₁) =
        .ok pagesize (s₁, d₂) ∧ d₂.stores = d₁.stores ∧ d₂.cr3 = d₁.cr3 :=
    ⟨_, _, rfl, rfl, rfl⟩
  rw [← hcr3] at h
  rw [Ends, Method.bind_of_ok hread]
  refine (ends_allocScratchpad h pagesize).onFst.bind_imp
    (fun u hu => hnot u (hu.2 ▸ hstores₂)) ?_
  rintro buffers ⟨s₃, d₃⟩ ⟨⟨pageSize, table, page, ps, hpage, htable, harray, hlen, h₃⟩, rfl⟩
  refine (DeviceContextBaseAddressArray.ends_new h₃ buffers).onFst.bind_imp
    (fun u hu => hnot u (hu.2 ▸ hstores₂)) ?_
  rintro dcbaa ⟨s₄, d₄⟩ ⟨⟨rfl, halign, h₄⟩, rfl⟩
  refine (EventRingBox.ends_new h₄).bind_imp (fun u hu => hnot u (hu.trans hstores₂)) ?_
  rintro evring ⟨s₅, d₅⟩ ⟨hcycle, -, hwait, h₅, rfl⟩
  refine (CommandRingBox.ends_default h₅).bind_imp (fun u hu => hnot u (hu.trans hstores₂)) ?_
  rintro commandRing ⟨s₆, d₆⟩ ⟨hours, h₆, rfl⟩
  -- the registers are set, and RUN with the last store
  let xhc : Controller :=
    { regs, deviceContextBaseArray := dcbaa, primaryEventRing := evring, commandRing }
  obtain ⟨c, d₇, hinit, hstores₇, hcr3₇⟩ := xhc.init_run (w := w) irs
    (fun xhc => do
      if ← Method.onSnd (startXhc w.recorded regs.opRegs rounds) then
        return some xhc
      else
        return none) s₆ d₆
  obtain ⟨started, d₈, hstart, hcr3₈, v₂, hstores₈⟩ := startXhc_returns w regs rounds d₇
  rw [Ends, hinit, Method.bind_of_ok (Method.onSnd_of_ok hstart s₆)]
  let xhc' : Controller := { xhc with
    primaryEventRing := evring.setErdp (RuntimeRegisters.irsAddr regs.rtRegs 0 + 0x18) }
  have hready : xhc'.Ready regs irs (s₆, d₈) := by
    refine ready_of_contains hours hcycle hwait halign hpage htable harray hlen h₆.contains
      fun box hbox => ?_
    rw [hcr3₈, hcr3₇]
    exact h₆.uncached.mapped (List.mem_map_of_mem (f := IoBoxAddr.number) hbox)
  have hstarted : xhc'.Started regs irs (s₆, d₈) := by
    refine ⟨hready, v₀, v₁, c, v₂, ?_⟩
    rw [hstores₈, hstores₇, List.reverse_cons, List.reverse_append, List.reverse_reverse,
      hstores₂, hreset hdone, List.append_assoc]
    rfl
  cases started with
  | true => exact .inr ⟨xhc', .inr rfl, hstarted⟩
  | false => exact .inr ⟨xhc', .inl rfl, hstarted⟩

/-- In every reachable heap, in any memory around it where the tables in CR3 have an entry for each
page of the heap, and for every hardware: however `Controller::new` ends, the stores to registers
are a part of the reset, or RUN was set with the last store. In the latter case the stores before
it are the reset and those that set the registers to the rings, the segment table and the device
contexts, and all of these are in memory as the driver will use them, in allocations of their own.
The tables map the rings and the segment table to themselves without the cache. -/
theorem new_starts (map : MemoryMapHolder) (hmap : map.Usable) (mem : Memory)
    (actions : List HeapAction) (outside : Memory) (cr3 : ℕ)
    (htables : HeapTables map.seededRanges cr3 outside) (w : Bus σ) (growth : VecGrowth)
    (regs : XhcRegisters) (irs : Fin 1024 → InterrupterRegisterSet) (hardware : σ) (rounds : ℕ) :
    ∃ heap, FirstFitAllocator.initWithMmap map { mem, firstHeader := 0 } = .ok () heap ∧
      Ends (NotStarted regs)
        (fun r u => (r = none ∧ NotStarted regs u) ∨
          ∃ xhc, (r = none ∨ r = some xhc) ∧ xhc.Started regs irs u)
        (new w growth regs rounds)
        ((Run.exec HeapSystem.step actions (HeapSystem.start heap)).withOutside map.seededRanges
          outside, { hardware, stores := [], cr3 }) := by
  obtain ⟨heap, hrun, hstart⟩ := HeapSystem.sound_start hmap mem
  obtain ⟨pool, hsound⟩ := HeapSystem.sound_exec hstart actions
  have howns : Owns (map.seeding hmap) pool.blocks [] _ := ⟨⟨pool, rfl, hsound⟩, by simp, .nil⟩
  have hprepared : Prepared (map.seeding hmap) cr3 [] [] _ :=
    Fills.withOutside howns ⟨htables, by simp⟩
  exact ⟨heap, hrun, ends_new hprepared irs hardware⟩

/-- A controller with its operational registers at `0x20`, which does at once what is stored to
USBCMD. Its state is this register. -/
def obedient : Bus (BitVec 32) where
  read addr usbcmd :=
    (if addr = 0x20 then usbcmd
      else if addr = 0x24 then ~~~usbcmd &&& statusHcHalted
      else if addr = 0x28 then 1
      else 0, usbcmd)
  write addr value usbcmd := if addr = 0x20 then value &&& ~~~cmdHcReset else usbcmd
  event usbcmd := ((.default, []), usbcmd)
  page := (World.steady 0 .default).page
  buffer := (World.steady 0 .default).buffer
  read64 _ usbcmd := (0, usbcmd)
  write64 _ _ usbcmd := usbcmd

/-- Tables of the firmware from `0x1000` on, which map the first two megabytes to themselves page by
page. -/
def firmwareMemory : Memory :=
  let pages : Memory := fun x =>
    if 0x4000 ≤ x ∧ x < 0x5000 then
      BitVec.ofNat 8 ((4096 * ((x - 0x4000) / 8) + 3) / 256 ^ (x % 8))
    else 0
  Bytes.writeLE (Bytes.writeLE (Bytes.writeLE pages 0x3000 8 0x4003) 0x2000 8 0x3003) 0x1000 8
    0x2003

/-- Only the lowest digit of a page below two megabytes is not zero. -/
theorem prefix_eq_zero {n : ℕ} (hn : n < 512) (h : ℕ) : n / 512 ^ (h + 1) = 0 :=
  Nat.div_eq_of_lt (hn.trans_le (Nat.le_self_pow (Nat.succ_ne_zero h) 512))

/-- The entry of such a page above the page table is the first one. -/
theorem entry_eq {n : ℕ} (hn : n < 512) (h t : ℕ) : t + 8 * Radix.digit 512 (h + 1) n = t := by
  rw [Radix.digit, prefix_eq_zero hn h, Nat.zero_mod, Nat.mul_zero, Nat.add_zero]

/-- The tables on the walk of a page below two megabytes. -/
theorem leads_firmwareMemory {n h t : ℕ} (hn : n < 512)
    (hleads : Leads (words firmwareMemory) 0x1000 n h t) :
    h = 3 ∧ t = 0x1000 ∨ h = 2 ∧ t = 0x2000 ∨ h = 1 ∧ t = 0x3000 ∨ h = 0 ∧ t = 0x4000 := by
  have hframe : frame (words firmwareMemory 0x1000) = 0x2000 ∧
      frame (words firmwareMemory 0x2000) = 0x3000 ∧
        frame (words firmwareMemory 0x3000) = 0x4000 := by decide
  obtain ⟨h₁, h₂, h₃⟩ := hframe
  induction hleads with
  | root => exact .inl ⟨rfl, rfl⟩
  | @next h t _ _ _ ih =>
    rw [entry_eq hn]
    rcases ih with ⟨hh, rfl⟩ | ⟨hh, rfl⟩ | ⟨hh, rfl⟩ | ⟨hh, -⟩
    · exact .inr (.inl ⟨by omega, h₁⟩)
    · exact .inr (.inr (.inl ⟨by omega, h₂⟩))
    · exact .inr (.inr (.inr ⟨by omega, h₃⟩))
    · exact absurd hh (Nat.succ_ne_zero h)

/-- The page table of a page below two megabytes. -/
theorem leads_pageTable {n : ℕ} (hn : n < 512) :
    Leads (words firmwareMemory) 0x1000 n 0 0x4000 := by
  have hnext : ∀ {h t : ℕ}, Leads (words firmwareMemory) 0x1000 n (h + 1) t →
      Present (words firmwareMemory t) → IsTablePointer (words firmwareMemory t) →
        Leads (words firmwareMemory) 0x1000 n h (frame (words firmwareMemory t)) := by
    intro h t hleads hpresent hpointer
    have hentry := hleads.next ((entry_eq hn h t).symm ▸ hpresent)
      ((entry_eq hn h t).symm ▸ hpointer)
    rwa [entry_eq hn] at hentry
  have h₂ := hnext .root (by decide) (by decide)
  have h₁ := hnext h₂ (by decide) (by decide)
  exact hnext h₁ (by decide) (by decide)

/-- They have an entry for each of the sixteen pages of a heap at one megabyte. -/
theorem heapTables_firmwareMemory :
    HeapTables MemoryMapHolder.sixteenPages.seededRanges 0x1000 firmwareMemory := by
  have hranges : MemoryMapHolder.sixteenPages.seededRanges = [⟨0x100000, 0x110000⟩] := by decide
  rw [hranges]
  have hpage : ∀ n, HeapPage [⟨0x100000, 0x110000⟩] n → n < 512 := by
    rintro n ⟨r, hr, x, hx, rfl⟩
    obtain rfl := List.mem_singleton.1 hr
    have hlt : x < 0x110000 := hx.2
    omega
  have hapart : ∀ t ∈ [0x1000, 0x2000, 0x3000, 0x4000],
      (⟨t, t + 4096⟩ : Span).Apart ⟨0x100000, 0x110000⟩ := by decide
  refine ⟨fun r hr => ?_, ⟨by decide, fun n hn => ⟨0x4000, ?_⟩, ?_⟩, ?_⟩
  · obtain rfl := List.mem_singleton.1 hr
    decide
  · exact leads_pageTable (hpage n hn)
  · intro n n' h h' t hn hn' hleads hleads'
    have hcases := leads_firmwareMemory (hpage n hn) hleads
    have hcases' := leads_firmwareMemory (hpage n' hn') hleads'
    rw [prefix_eq_zero (hpage n hn), prefix_eq_zero (hpage n' hn')]
    exact ⟨by omega, rfl⟩
  · intro n hn h t hleads r hr
    obtain rfl := List.mem_singleton.1 hr
    refine hapart t ?_
    rcases leads_firmwareMemory (hpage n hn) hleads with ⟨-, rfl⟩ | ⟨-, rfl⟩ | ⟨-, rfl⟩ | ⟨-, rfl⟩
    all_goals decide

theorem new_starts_sixteenPages :
    ∃ heap, FirstFitAllocator.initWithMmap MemoryMapHolder.sixteenPages
        { mem := firmwareMemory, firstHeader := 0 } = .ok () heap ∧
      Ends (NotStarted (.placed 0 ⟨0x20, 0x01000008, 0, 0x2000, 0x1000⟩))
        (fun r u => (r = none ∧ NotStarted (.placed 0 ⟨0x20, 0x01000008, 0, 0x2000, 0x1000⟩) u) ∨
          ∃ xhc, (r = none ∨ r = some xhc) ∧
            xhc.Started (.placed 0 ⟨0x20, 0x01000008, 0, 0x2000, 0x1000⟩)
              (fun _ => ⟨0, 0, 0, 0, 0⟩) u)
        (new obedient .double (.placed 0 ⟨0x20, 0x01000008, 0, 0x2000, 0x1000⟩) 1)
        ((Run.exec HeapSystem.step [.alloc Layout.page4K] (HeapSystem.start heap)).withOutside
            MemoryMapHolder.sixteenPages.seededRanges firmwareMemory,
          { hardware := 1, stores := [], cr3 := 0x1000 }) :=
  new_starts MemoryMapHolder.sixteenPages MemoryMapHolder.sixteenPages_usable _ _ _ _
    heapTables_firmwareMemory _ _ _ _ _ _

end Controller

end Mushix
