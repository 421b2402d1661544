import Mathlib.Algebra.Order.Group.Nat
import Mushix.Graphics.Text
import Mushix.Serial

/-!
# The console

`global_print` (`print.rs`) formats its arguments twice, for the first serial port and then for the
text writer on the screen, if `set_global_vram` has been called. Both get the same pieces of text,
one call of `write_str` for each.

* `SerialPort.sendStr`: `send_str`, which is what `write_str` of the serial port does;
* `SerialPort.sendStr_eq_ok_true_iff`: when it returns, and what it has written then;
* `Uart.write`: what a UART does with a byte that is written to one of its ports;
* `Console.globalPrint`: `global_print`;
* `Console.prints`: what any sequence of prints sends and paints.
-/

namespace Mushix

open Bytes (Memory)

namespace SerialPort

variable (answers : ℕ → BitVec 8) (self : SerialPort)

/-- `send_str`, which waits for a number of rounds in front of each character: whether it has
returned. -/
def sendStr (s : List Char) (rounds : ℕ) : Method IoPorts Bool :=
  s.allM fun c => self.sendChar answers c rounds

/-- The byte that a character is cut off to. -/
def toByte (c : Char) : BitVec 8 := BitVec.ofNat 8 c.toNat

/-- The transmitter is found ready after each number of waits in turn, from the read `start` on. -/
def ReadyAfter (start : ℕ) : List ℕ → Prop
  | [] => True
  | n :: waits => ReadyAt answers start n ∧ ReadyAfter (start + n + 1) waits

/-- The ports when the characters have been sent after these waits. -/
def sentAll (ports : IoPorts) (s : List Char) (waits : List ℕ) : IoPorts where
  reads := ports.reads + waits.sum + waits.length
  writes := (s.map fun c => (self.base.toNat, toByte c)).reverse ++ ports.writes

section Send

variable {answers} {self} {ports ports' : IoPorts} {rounds : ℕ} {c : Char} {s : List Char}

/-- `send_char` writes its character when it has found the transmitter ready. -/
theorem sendChar_eq_ok_true_iff (hbase : self.base.toNat + 5 < 2 ^ 16) :
    self.sendChar answers c rounds ports = .ok true ports' ↔
      ∃ n < rounds, ReadyAt answers ports.reads n ∧ ports' =
        { reads := ports.reads + n + 1
          writes := (self.base.toNat, toByte c) :: ports.writes } := by
  rw [sendChar, Method.bind_eq_ok]
  constructor
  · rintro ⟨ended, ports₁, hwait, hrest⟩
    cases ended with
    | false => cases hrest
    | true =>
      obtain ⟨n, hn, hready, rfl⟩ := (whileTrue_busy_iff hbase).1 hwait
      cases hrest
      exact ⟨n, hn, hready, rfl⟩
  · rintro ⟨n, hn, hready, rfl⟩
    exact ⟨true, _, (whileTrue_busy_iff hbase).2 ⟨n, hn, hready, rfl⟩, rfl⟩

/-- `send_str` returns when the transmitter gets ready for each character, and has then written
the bytes of all characters in their order and nothing else. -/
theorem sendStr_eq_ok_true_iff (hbase : self.base.toNat + 5 < 2 ^ 16) :
    self.sendStr answers s rounds ports = .ok true ports' ↔
      ∃ waits : List ℕ, waits.length = s.length ∧ (∀ n ∈ waits, n < rounds) ∧
        ReadyAfter answers ports.reads waits ∧ ports' = self.sentAll ports s waits := by
  unfold sendStr
  -- one number of rounds for each character
  induction s generalizing ports with
  | nil =>
    constructor
    · intro h
      cases h
      exact ⟨[], rfl, by simp, trivial, rfl⟩
    · rintro ⟨waits, hlen, -, -, rfl⟩
      cases List.length_eq_zero_iff.1 hlen
      rfl
  | cons c s ih =>
    rw [List.allM_cons, Method.bind_eq_ok]
    constructor
    · rintro ⟨ended, ports₁, hsend, hrest⟩
      cases ended with
      | false => cases hrest
      | true =>
        obtain ⟨n, hn, hready, rfl⟩ := (sendChar_eq_ok_true_iff hbase).1 hsend
        obtain ⟨waits, hlen, hlt, hwaits, rfl⟩ := ih.1 hrest
        refine ⟨n :: waits, by simp [hlen], by simpa using ⟨hn, hlt⟩, ⟨hready, hwaits⟩, ?_⟩
        simp only [sentAll, IoPorts.mk.injEq, List.sum_cons, List.length_cons]
        exact ⟨by omega, by simp⟩
    · rintro ⟨waits, hlen, hlt, hwaits, rfl⟩
      cases waits with
      | nil => cases hlen
      | cons n waits =>
        rw [List.forall_mem_cons] at hlt
        refine ⟨true, _, (sendChar_eq_ok_true_iff hbase).2 ⟨n, hlt.1, hwaits.1, rfl⟩, ih.2 ?_⟩
        refine ⟨waits, by simpa using hlen, hlt.2, hwaits.2, ?_⟩
        simp only [sentAll, IoPorts.mk.injEq, List.sum_cons, List.length_cons]
        exact ⟨by omega, by simp⟩

/-- However long the program has to wait, the transmitter gets ready within some rounds. -/
def Live (answers : ℕ → BitVec 8) (rounds : ℕ) : Prop :=
  ∀ start, ∃ n < rounds, ReadyAt answers start n

/-- A transmitter that is live is ready for any number of characters. -/
theorem Live.exists_waits (h : Live answers rounds) (start len : ℕ) :
    ∃ waits : List ℕ, waits.length = len ∧ (∀ n ∈ waits, n < rounds) ∧
      ReadyAfter answers start waits := by
  induction len generalizing start with
  | zero => exact ⟨[], rfl, by simp, trivial⟩
  | succ len ih =>
    obtain ⟨n, hn, hready⟩ := h start
    obtain ⟨waits, hlen, hlt, hwaits⟩ := ih (start + n + 1)
    exact ⟨n :: waits, by simp [hlen], by simpa using ⟨hn, hlt⟩, hready, hwaits⟩

/-- With such a transmitter `send_str` returns. -/
theorem Live.sendStr (h : Live answers rounds) (hbase : self.base.toNat + 5 < 2 ^ 16)
    (s : List Char) (ports : IoPorts) :
    ∃ waits : List ℕ, waits.length = s.length ∧ ReadyAfter answers ports.reads waits ∧
      self.sendStr answers s rounds ports = .ok true (self.sentAll ports s waits) := by
  obtain ⟨waits, hlen, hlt, hwaits⟩ := h.exists_waits ports.reads s.length
  exact ⟨waits, hlen, hwaits, (sendStr_eq_ok_true_iff hbase).2 ⟨waits, hlen, hlt, hwaits, rfl⟩⟩

end Send

/-! ## The line -/

/-- `init` turns off the interrupts of the UART and sets the speed and the format of its characters.
-/
def init (self : SerialPort) : Method IoPorts Unit := do
  writeIoPortU8 (← self.port 1) 0x00
  writeIoPortU8 (← self.port 3) 0x80
  -- the first two ports are the divisor until DLAB is cleared
  let baudDivisor : BitVec 16 := 0x0001
  writeIoPortU8 self.base.toNat ((baudDivisor &&& 0xff).setWidth 8)
  writeIoPortU8 (← self.port 1) ((baudDivisor >>> 8).setWidth 8)
  writeIoPortU8 (← self.port 3) 0x03
  writeIoPortU8 (← self.port 2) 0xC7
  writeIoPortU8 (← self.port 4) 0x0B

end SerialPort

/-- The registers of a UART, and the bytes that it has transmitted on its line. -/
structure Uart where
  ier : BitVec 8
  fcr : BitVec 8
  lcr : BitVec 8
  mcr : BitVec 8
  divisorLow : BitVec 8
  divisorHigh : BitVec 8
  transmitted : List (BitVec 8)
  deriving DecidableEq, Repr

namespace Uart

/-- The first two ports are the divisor of the baud rate. -/
def dlab (u : Uart) : Bool := u.lcr.getLsbD 7

/-- What is sent comes back and is not transmitted. -/
def loopback (u : Uart) : Bool := u.mcr.getLsbD 4

/-- A byte is written to the port `base + offset`. -/
def write (u : Uart) (v : BitVec 8) : ℕ → Uart
  | 0 =>
    if u.dlab then { u with divisorLow := v }
    else if u.loopback then u
    else { u with transmitted := u.transmitted ++ [v] }
  | 1 => if u.dlab then { u with divisorHigh := v } else { u with ier := v }
  | 2 => { u with fcr := v }
  | 3 => { u with lcr := v }
  | 4 => { u with mcr := v }
  | _ => u

/-- What the writes to all ports, the last one first, have done to the UART at `base`. -/
def after (base : ℕ) (u : Uart) (writes : List (ℕ × BitVec 8)) : Uart :=
  writes.foldr (fun (port, v) u => if base ≤ port then u.write v (port - base) else u) u

/-- The writes to a UART take effect one after the other. -/
theorem after_append (base : ℕ) (u : Uart) (later earlier : List (ℕ × BitVec 8)) :
    u.after base (later ++ earlier) = (u.after base earlier).after base later :=
  List.foldr_append

/-- Bytes that are sent in normal operation are transmitted. -/
theorem after_sent {base : ℕ} {u : Uart} (hdlab : u.dlab = false) (hloopback : u.loopback = false)
    (bytes : List (BitVec 8)) :
    u.after base (bytes.map fun v => (base, v)).reverse =
      { u with transmitted := u.transmitted ++ bytes } := by
  induction bytes generalizing u with
  | nil => simp [after]
  | cons v bytes ih =>
    have hfirst : u.after base [(base, v)] = { u with transmitted := u.transmitted ++ [v] } := by
      simp [after, write, hdlab, hloopback]
    rw [List.map_cons, List.reverse_cons, after_append, hfirst, ih]
    · simp
    · exact hdlab
    · exact hloopback

end Uart

namespace SerialPort

/-- The writes of `init`, the last one first. -/
def initWrites (self : SerialPort) : List (ℕ × BitVec 8) :=
  let base := self.base.toNat
  [(base + 4, 0x0B), (base + 2, 0xC7), (base + 3, 0x03), (base + 1, 0x00), (base, 0x01),
    (base + 3, 0x80), (base + 1, 0x00)]

/-- What `init` writes, where the ports do not overflow. -/
theorem run_init {self : SerialPort} (hbase : self.base.toNat + 5 < 2 ^ 16) (ports : IoPorts) :
    self.init ports = .ok () { ports with writes := self.initWrites ++ ports.writes } := by
  have hport : ∀ offset ≤ 5, self.port offset = pure (self.base.toNat + offset) :=
    fun offset hle => funext fun ports => run_port (by omega) ports
  simp only [init, hport 1 (by decide), hport 2 (by decide), hport 3 (by decide),
    hport 4 (by decide), pure_bind]
  rfl

/-- After `init` the UART transmits what `send_str` writes, and `init` transmits nothing. All
settings are those of `init`, except for the interrupts where the divisor was selected before. -/
theorem init_sendStr {answers : ℕ → BitVec 8} {self : SerialPort} {rounds : ℕ}
    (hbase : self.base.toNat + 5 < 2 ^ 16) (u : Uart) (s : List Char) (ports ports' : IoPorts)
    (hrun : (do self.init; self.sendStr answers s rounds : Method IoPorts Bool) ports =
      .ok true ports') :
    let before := u.after self.base.toNat ports.writes
    u.after self.base.toNat ports'.writes =
      { ier := if before.dlab then before.ier else 0
        fcr := 0xC7
        lcr := 0x03
        mcr := 0x0B
        divisorLow := 1
        divisorHigh := 0
        transmitted := before.transmitted ++ s.map toByte } := by
  intro before
  rw [Method.bind_of_ok (run_init hbase ports)] at hrun
  obtain ⟨waits, -, -, -, rfl⟩ := (sendStr_eq_ok_true_iff hbase).1 hrun
  have hinit : before.after self.base.toNat self.initWrites =
      { ier := if before.dlab then before.ier else 0
        fcr := 0xC7
        lcr := 0x03
        mcr := 0x0B
        divisorLow := 1
        divisorHigh := 0
        transmitted := before.transmitted } := by
    have hwrites : before.after self.base.toNat self.initWrites =
        ((((((before.write 0x00 1).write 0x80 3).write 0x01 0).write 0x00 1).write 0x03 3).write
          0xC7 2).write 0x0B 4 := by
      simp [Uart.after, initWrites]
    have hier : before.write 0x00 1 = if before.dlab then { before with divisorHigh := 0x00 }
        else { before with ier := 0x00 } := rfl
    rw [hwrites, hier]
    -- from here on the divisor is selected by the second write and deselected by the fifth one
    cases before.dlab with
    | true =>
      rw [if_pos rfl, if_pos rfl]
      simp [Uart.write, Uart.dlab]
    | false =>
      rw [if_neg Bool.false_ne_true, if_neg Bool.false_ne_true]
      simp [Uart.write, Uart.dlab]
  have hbytes : (s.map fun c => (self.base.toNat, toByte c)) =
      (s.map toByte).map fun v => (self.base.toNat, v) := by
    rw [List.map_map]
    rfl
  rw [sentAll, Uart.after_append, Uart.after_append, hinit, hbytes,
    Uart.after_sent (by simp [Uart.dlab]) (by simp [Uart.loopback])]

end SerialPort

/-! ## Both outputs -/

/-- The memory, which has the pixels of the screen, and `GLOBAL_VRAM_WRITER`. -/
structure Screen where
  memory : Memory
  writer : Option (TextWriter × TextCursor)

/-- The ports of the first serial port, and the screen. -/
abbrev Console : Type := IoPorts × Screen

namespace Console

variable (answers : ℕ → BitVec 8) (rounds : ℕ)

/-- `set_global_vram` makes a text writer the one that prints, and panics if there is one already.
-/
def setGlobalVram (w : TextWriter) : Method Console Unit := do
  if (← get).2.writer.isSome then
    throw (.panic "assertion failed: GLOBAL_VRAM_WRITER.lock().is_none()")
  modify fun s => (s.1, { s.2 with writer := some (w, TextCursor.start) })

/-- `fmt::write(&mut writer, args)` for the serial port, when `args` has been formatted as `pieces`:
whether it has returned. -/
def printSerial (pieces : List (List Char)) : Method Console Bool :=
  Method.onFst (pieces.allM fun s => SerialPort.newForCom1.sendStr answers s rounds)

/-- `fmt::write(w, args)` for the text writer. -/
def printVram (pieces : List (List Char)) : Method Console Unit := fun s =>
  match s.2.writer with
  | some (w, cursor) =>
    match pieces.forM w.writeStr (s.2.memory, cursor) with
    | .ok _ (memory, cursor) => .ok () (s.1, { memory, writer := some (w, cursor) })
    | .error e (memory, cursor) => .error e (s.1, { memory, writer := some (w, cursor) })
  | none => .ok () s

/-- `global_print`: whether it has returned. -/
def globalPrint (pieces : List (List Char)) : Method Console Bool := do
  if ← printSerial answers rounds pieces then
    printVram pieces
    return true
  else
    return false

/-- Some prints, one after the other. -/
def printAll (prints : List (List (List Char))) : Method Console Bool :=
  prints.allM (globalPrint answers rounds)

/-- Prints before and after the call of `set_global_vram`. -/
def prints (before : List (List (List Char))) (w : TextWriter)
    (after : List (List (List Char))) : Method Console Bool := do
  if ← printAll answers rounds before then
    setGlobalVram w
    printAll answers rounds after
  else
    return false

variable {answers : ℕ → BitVec 8} {rounds : ℕ} {ports : IoPorts} {w : TextWriter}
  {memory memory' : Memory} {cursor cursor' : TextCursor}

/-- The ports after some characters, for which the transmitter got ready in time. -/
def Sends (answers : ℕ → BitVec 8) (ports : IoPorts) (s : List Char) (ports' : IoPorts) : Prop :=
  ∃ waits : List ℕ, waits.length = s.length ∧ SerialPort.ReadyAfter answers ports.reads waits ∧
    ports' = SerialPort.newForCom1.sentAll ports s waits

/-- The waits of two texts are those of the whole text. -/
theorem readyAfter_append {start : ℕ} {ws vs : List ℕ}
    (hws : SerialPort.ReadyAfter answers start ws)
    (hvs : SerialPort.ReadyAfter answers (start + ws.sum + ws.length) vs) :
    SerialPort.ReadyAfter answers start (ws ++ vs) := by
  induction ws generalizing start with
  | nil => simpa using hvs
  | cons n ws ih =>
    refine ⟨hws.1, ih hws.2 ?_⟩
    rw [List.sum_cons, List.length_cons] at hvs
    rwa [show start + n + 1 + ws.sum + ws.length = start + (n + ws.sum) + (ws.length + 1) by omega]

/-- What is sent in two parts. -/
theorem Sends.trans {ports₁ ports₂ : IoPorts} {s t : List Char} (h : Sends answers ports s ports₁)
    (h' : Sends answers ports₁ t ports₂) : Sends answers ports (s ++ t) ports₂ := by
  obtain ⟨ws, hws, hready, rfl⟩ := h
  obtain ⟨vs, hvs, hready', rfl⟩ := h'
  refine ⟨ws ++ vs, by simp [hws, hvs], readyAfter_append hready hready', ?_⟩
  simp only [SerialPort.sentAll, IoPorts.mk.injEq, List.sum_append, List.length_append]
  exact ⟨by omega, by simp⟩

/-- One call of `fmt::write` for the serial port. -/
theorem printSerial_of_live (h : SerialPort.Live answers rounds) (pieces : List (List Char))
    (ports : IoPorts) (screen : Screen) :
    ∃ ports', Sends answers ports pieces.flatten ports' ∧
      printSerial answers rounds pieces (ports, screen) = .ok true (ports', screen) := by
  have hpieces : ∃ ports', Sends answers ports pieces.flatten ports' ∧
      pieces.allM (fun s => SerialPort.newForCom1.sendStr answers s rounds) ports =
        .ok true ports' := by
    have hbase : SerialPort.newForCom1.base.toNat + 5 < 2 ^ 16 := by decide
    induction pieces generalizing ports with
    | nil => exact ⟨ports, ⟨[], rfl, trivial, rfl⟩, rfl⟩
    | cons piece pieces ih =>
      obtain ⟨waits, hlen, hready, hsend⟩ := h.sendStr hbase piece ports
      obtain ⟨ports', hsends, hrest⟩ := ih (SerialPort.newForCom1.sentAll ports piece waits)
      refine ⟨ports', Sends.trans ⟨waits, hlen, hready, rfl⟩ hsends, ?_⟩
      rw [List.allM_cons, Method.bind_of_ok hsend]
      exact hrest
  obtain ⟨ports', hsends, hrun⟩ := hpieces
  exact ⟨ports', hsends, by rw [printSerial, Method.onFst, hrun]⟩

/-- A print without a text writer. -/
theorem globalPrint_of_none (h : SerialPort.Live answers rounds) (pieces : List (List Char))
    (ports : IoPorts) (memory : Memory) :
    ∃ ports', Sends answers ports pieces.flatten ports' ∧
      globalPrint answers rounds pieces (ports, { memory, writer := none }) =
        .ok true (ports', { memory, writer := none }) := by
  obtain ⟨ports', hsends, hrun⟩ := printSerial_of_live h pieces ports { memory, writer := none }
  exact ⟨ports', hsends, by rw [globalPrint, Method.bind_of_ok hrun]; rfl⟩

/-- A print with a text writer. -/
theorem globalPrint_of_some (h : SerialPort.Live answers rounds) (pieces : List (List Char))
    (ports : IoPorts)
    (hwrite : w.writeStr pieces.flatten (memory, cursor) = .ok () (memory', cursor')) :
    ∃ ports', Sends answers ports pieces.flatten ports' ∧
      globalPrint answers rounds pieces (ports, { memory, writer := some (w, cursor) }) =
        .ok true (ports', { memory := memory', writer := some (w, cursor') }) := by
  obtain ⟨ports', hsends, hrun⟩ :=
    printSerial_of_live h pieces ports { memory, writer := some (w, cursor) }
  have hvram : printVram pieces (ports', { memory, writer := some (w, cursor) }) =
      .ok () (ports', { memory := memory', writer := some (w, cursor') }) := by
    rw [← TextWriter.forM_writeStr] at hwrite
    simp only [printVram, hwrite]
  refine ⟨ports', hsends, ?_⟩
  rw [globalPrint, Method.bind_of_ok hrun, if_pos rfl, Method.bind_of_ok hvram]
  rfl

/-- Without a text writer the prints go to the serial port only. -/
theorem printAll_of_none (h : SerialPort.Live answers rounds) (texts : List (List (List Char)))
    (ports : IoPorts) (memory : Memory) :
    ∃ ports', Sends answers ports texts.flatten.flatten ports' ∧
      printAll answers rounds texts (ports, { memory, writer := none }) =
        .ok true (ports', { memory, writer := none }) := by
  unfold printAll
  induction texts generalizing ports with
  | nil => exact ⟨ports, ⟨[], rfl, trivial, rfl⟩, rfl⟩
  | cons pieces texts ih =>
    obtain ⟨ports₁, hsends, hprint⟩ := globalPrint_of_none h pieces ports memory
    obtain ⟨ports₂, hsends', hrest⟩ := ih ports₁
    refine ⟨ports₂, ?_, ?_⟩
    · rw [List.flatten_cons, List.flatten_append]
      exact hsends.trans hsends'
    · rw [List.allM_cons, Method.bind_of_ok hprint]
      exact hrest

/-- With a text writer the prints go to the serial port and to the screen. -/
theorem printAll_of_some (h : SerialPort.Live answers rounds) (texts : List (List (List Char)))
    (ports : IoPorts)
    (hwrite : w.writeStr texts.flatten.flatten (memory, cursor) = .ok () (memory', cursor')) :
    ∃ ports', Sends answers ports texts.flatten.flatten ports' ∧
      printAll answers rounds texts (ports, { memory, writer := some (w, cursor) }) =
        .ok true (ports', { memory := memory', writer := some (w, cursor') }) := by
  unfold printAll
  induction texts generalizing ports memory cursor with
  | nil =>
    cases hwrite
    exact ⟨ports, ⟨[], rfl, trivial, rfl⟩, rfl⟩
  | cons pieces texts ih =>
    -- the text writer is after the first print where it is after the first part of the text
    rw [List.flatten_cons, List.flatten_append, TextWriter.writeStr_append] at hwrite
    obtain ⟨_, ⟨memory₁, cursor₁⟩, hfirst, hlater⟩ := Method.bind_eq_ok.1 hwrite
    obtain ⟨ports₁, hsends, hprint⟩ := globalPrint_of_some h pieces ports hfirst
    obtain ⟨ports₂, hsends', hrest⟩ := ih ports₁ hlater
    refine ⟨ports₂, ?_, ?_⟩
    · rw [List.flatten_cons, List.flatten_append]
      exact hsends.trans hsends'
    · rw [List.allM_cons, Method.bind_of_ok hprint]
      exact hrest

/-- With a transmitter that gets ready again and again, all prints return. The serial port gets the
characters of all prints, each once and in order, and the screen shows the text of the prints
after the call of `set_global_vram`. -/
theorem prints_spec (h : SerialPort.Live answers rounds) (before after : List (List (List Char)))
    (w : TextWriter) (hlen : after.flatten.flatten.length < 2 ^ 58) (ports : IoPorts)
    (memory : Memory) :
    let text := after.flatten.flatten
    ∃ ports' memory',
      prints answers rounds before w after (ports, { memory, writer := none }) =
        .ok true (ports',
          { memory := memory', writer := some (w, TextCursor.start.atEnd text) }) ∧
      Sends answers ports (before.flatten.flatten ++ text) ports' ∧
      w.buf.Painted 0xffffff (fun px py => ∃ r k c, TextCursor.charAt text r k = some c ∧
        w.buf.InGlyph w.font c (8 * k) (16 * r) px py) memory memory' := by
  intro text
  obtain ⟨memory', hwrite, hpainted⟩ := w.forM_writeStr_paints after.flatten hlen memory
  rw [TextWriter.forM_writeStr] at hwrite
  obtain ⟨ports₁, hsends, hbefore⟩ := printAll_of_none h before ports memory
  obtain ⟨ports₂, hsends', hafter⟩ := printAll_of_some h after ports₁ hwrite
  refine ⟨ports₂, memory', ?_, hsends.trans hsends', hpainted⟩
  rw [prints, Method.bind_of_ok hbefore]
  exact hafter

/-- A text writer on a screen of 16 by 16 pixels. -/
def sixteen : TextWriter where
  buf := VramBufferInfo.bitmap { buf := 0x1000, width := 16, height := 16, pixelsPerLine := 16 }
    1024 (by decide) (by decide)
  font := Vector.replicate 256 Font.solid

theorem prints_spec_sixteen :
    ∃ ports' memory',
      prints SerialPort.silent 1 [[['a']]] sixteen [[['b', '\n'], ['c']]]
          (⟨0, []⟩, { memory := fun _ => 0, writer := none }) =
        .ok true (ports',
          { memory := memory'
            writer := some (sixteen, TextCursor.start.atEnd ['b', '\n', 'c']) }) ∧
      Sends SerialPort.silent ⟨0, []⟩ ['a', 'b', '\n', 'c'] ports' ∧
      sixteen.buf.Painted 0xffffff
        (fun px py => ∃ r k c, TextCursor.charAt ['b', '\n', 'c'] r k = some c ∧
          sixteen.buf.InGlyph sixteen.font c (8 * k) (16 * r) px py) (fun _ => 0) memory' :=
  prints_spec
    (fun _ => ⟨0, Nat.one_pos, (by decide : (0x20 : BitVec 8) &&& 0x20 ≠ 0), by simp⟩)
    [[['a']]] [[['b', '\n'], ['c']]]
    sixteen (by decide) ⟨0, []⟩ (fun _ => 0)

end Console

end Mushix
