import Mathlib.Tactic.Ring
import Mushix.Loop

/-!
# The serial port

How the program tests its serial port (`serial.rs`). What the UART answers is a sequence of values,
one for each read of a port; what is written to the ports is kept.

* `SerialPort.loopbackTest`: the test, which switches the port to loopback;
* `SerialPort.LeavesNormal`: the port is back in normal operation whenever the test returns;
* `SerialPort.loopbackTest_leaves_iff`: for which answers this holds.
-/

namespace Mushix

/-- The I/O ports: the number of reads so far, and the values that were written with their ports,
the last one first. -/
structure IoPorts where
  reads : ℕ
  writes : List (ℕ × BitVec 8)
  deriving DecidableEq, Repr

/-- The value that was last written to a port. -/
def IoPorts.lastWritten (self : IoPorts) (port : ℕ) : Option (BitVec 8) :=
  (self.writes.find? fun write => write.1 == port).map Prod.snd

/-- A serial port is the base of its I/O ports. -/
structure SerialPort where
  base : BitVec 16
  deriving DecidableEq, Repr

namespace SerialPort

variable (answers : ℕ → BitVec 8) (self : SerialPort)

/-- A read of an I/O port, which the next answer is for. -/
def readIoPortU8 (_port : ℕ) : Method IoPorts (BitVec 8) := fun ports =>
  .ok (answers ports.reads) { ports with reads := ports.reads + 1 }

/-- A write to an I/O port. -/
def writeIoPortU8 (port : ℕ) (value : BitVec 8) : Method IoPorts Unit := modify fun ports =>
  { ports with writes := (port, value) :: ports.writes }

/-- The I/O port of a register, which may overflow. -/
def port (offset : ℕ) : Method IoPorts ℕ :=
  if self.base.toNat + offset < 2 ^ 16 then
    return self.base.toNat + offset
  else
    throw (.panic "attempt to add with overflow")

/-- The line status register says that the transmitter is not ready. -/
def busy : Method IoPorts Bool := do
  return (← readIoPortU8 answers (← self.port 5)) &&& 0x20 == 0

/-- `send_char`, which waits for a number of rounds: whether it has returned. -/
def sendChar (c : Char) (rounds : ℕ) : Method IoPorts Bool := do
  if ← Method.whileTrue (self.busy answers) rounds then
    writeIoPortU8 self.base.toNat (BitVec.ofNat 8 c.toNat)
    return true
  else
    return false

/-- `try_read` returns the byte that has arrived, if there is one, and clears the buffers. -/
def tryRead : Method IoPorts (Option (BitVec 8)) := do
  if (← readIoPortU8 answers (← self.port 5)) &&& 0x01 = 0 then
    return none
  else
    let c ← readIoPortU8 answers self.base.toNat
    writeIoPortU8 (← self.port 2) 0xC7
    return some c

/-- `loopback_test`, which waits for a number of rounds: whether it has returned `Ok`. -/
def loopbackTest (rounds : ℕ) : Method IoPorts Bool := do
  writeIoPortU8 (← self.port 4) 0x1e
  if ← self.sendChar answers 'T' rounds then
    -- `?` leaves without writing the modem control register again
    let c ← Method.ofOption (.err "loopback_test failed: No responese") (← self.tryRead answers)
    if c ≠ BitVec.ofNat 8 'T'.toNat then
      throw (.err "loopback_test failed: wrong data received")
    else
      writeIoPortU8 (← self.port 4) 0x0f
      return true
  else
    return false

/-- The value that was last written to the modem control register is the one for normal
operation. -/
def Normal (ports : IoPorts) : Prop := ports.lastWritten (self.base.toNat + 4) = some 0x0f

/-- Whenever the test returns, with `Ok` or with `Err`, the port is in normal operation. -/
structure LeavesNormal (answers : ℕ → BitVec 8) (serial : SerialPort) (ports : IoPorts) : Prop where
  ok (rounds : ℕ) (ports' : IoPorts) :
    serial.loopbackTest answers rounds ports = .ok true ports' → serial.Normal ports'
  err (rounds : ℕ) (ports' : IoPorts) (msg : String) :
    serial.loopbackTest answers rounds ports = .error (.err msg) ports' → serial.Normal ports'

/-- The transmitter is found ready by the read after `n` others from the read `start` on. -/
def ReadyAt (start n : ℕ) : Prop :=
  answers (start + n) &&& 0x20 ≠ 0 ∧ ∀ i < n, answers (start + i) &&& 0x20 = 0

/-- The UART says that there is data, and the data is what was sent. -/
structure Echoes (start : ℕ) : Prop where
  ready : answers start &&& 0x01 ≠ 0
  data : answers (start + 1) = BitVec.ofNat 8 'T'.toNat

section Runs

variable {answers} {self} {ports ports' : IoPorts} {offset n rounds : ℕ}

/-- The address of a port that does not overflow. -/
theorem run_port (h : self.base.toNat + offset < 2 ^ 16) (ports : IoPorts) :
    self.port offset ports = .ok (self.base.toNat + offset) ports := by
  rw [port]
  exact congrFun (if_pos h) ports

/-- A port beyond the last address is a panic. -/
theorem run_port_of_overflow (h : ¬self.base.toNat + offset < 2 ^ 16) (ports : IoPorts) :
    self.port offset ports = .error (.panic "attempt to add with overflow") ports := by
  rw [port]
  exact congrFun (if_neg h) ports

theorem run_readIoPortU8 (port : ℕ) (ports : IoPorts) :
    readIoPortU8 answers port ports =
      .ok (answers ports.reads) { ports with reads := ports.reads + 1 } := rfl

/-- The ports after the switch to loopback. -/
def switched (self : SerialPort) (ports : IoPorts) : IoPorts :=
  { ports with writes := (self.base.toNat + 4, 0x1e) :: ports.writes }

/-- The ports when the character has been sent, for which the transmitter was asked `n` times and
once more. -/
def sent (self : SerialPort) (ports : IoPorts) (n : ℕ) : IoPorts where
  reads := ports.reads + n + 1
  writes := (self.base.toNat, BitVec.ofNat 8 'T'.toNat) :: (self.base.toNat + 4, 0x1e) ::
    ports.writes

/-- What the test does with the answer to the character. -/
def compareAnswer (answers : ℕ → BitVec 8) (self : SerialPort) : Method IoPorts Bool := do
  let c ← Method.ofOption (.err "loopback_test failed: No responese") (← self.tryRead answers)
  if c ≠ BitVec.ofNat 8 'T'.toNat then
    throw (.err "loopback_test failed: wrong data received")
  else
    writeIoPortU8 (← self.port 4) 0x0f
    return true

/-- The test in loopback: the character is sent, and the answer is compared with it. -/
theorem loopbackTest_eq (h : self.base.toNat + 4 < 2 ^ 16) :
    self.loopbackTest answers rounds ports = (do
      if ← self.sendChar answers 'T' rounds then
        self.compareAnswer answers
      else
        return false : Method IoPorts Bool) (self.switched ports) := by
  have hswitch : writeIoPortU8 (self.base.toNat + 4) 0x1e ports = .ok () (self.switched ports) :=
    rfl
  rw [loopbackTest, Method.bind_of_ok (run_port h ports), Method.bind_of_ok hswitch]
  rfl

variable (hbase : self.base.toNat + 5 < 2 ^ 16)

include hbase

/-- The test of the transmitter reads the line status once. -/
theorem run_busy (ports : IoPorts) :
    self.busy answers ports =
      .ok (answers ports.reads &&& 0x20 == 0) { ports with reads := ports.reads + 1 } := by
  rw [busy, Method.bind_of_ok (run_port hbase ports)]
  rfl

/-- The loop in `send_char` ends with the read that finds the transmitter ready. -/
theorem whileTrue_busy_iff :
    Method.whileTrue (self.busy answers) rounds ports = .ok true ports' ↔
      ∃ n < rounds, ReadyAt answers ports.reads n ∧
        ports' = { ports with reads := ports.reads + n + 1 } := by
  have hiterate : ∀ n, (fun ports : IoPorts => { ports with reads := ports.reads + 1 })^[n] ports =
      { ports with reads := ports.reads + n } := by
    intro n
    induction n with
    | zero => rfl
    | succ n ih => rw [Function.iterate_succ_apply', ih, Nat.add_assoc]
  rw [Method.whileTrue_eq_ok_true_iff (run_busy hbase)]
  simp only [Method.EndsAfter, hiterate, ReadyAt, beq_eq_false_iff_ne, beq_iff_eq, Nat.add_assoc]

/-- What the test does once the character has been sent. -/
theorem loopbackTest_of_ready (hn : n < rounds) (hready : ReadyAt answers ports.reads n) :
    self.loopbackTest answers rounds ports = self.compareAnswer answers (self.sent ports n) := by
  have hwait : Method.whileTrue (self.busy answers) rounds (self.switched ports) =
      .ok true { self.switched ports with reads := ports.reads + n + 1 } :=
    (whileTrue_busy_iff hbase).2 ⟨n, hn, hready, rfl⟩
  have hsend : self.sendChar answers 'T' rounds (self.switched ports) =
      .ok true (self.sent ports n) := by
    rw [sendChar, Method.bind_of_ok hwait]
    rfl
  rw [loopbackTest_eq (by omega), Method.bind_of_ok hsend, if_pos rfl]

/-- Where the UART says that there is no data, the test returns with the port in loopback. -/
theorem loopbackTest_no_response (hn : n < rounds) (hready : ReadyAt answers ports.reads n)
    (hdata : answers (ports.reads + n + 1) &&& 0x01 = 0) :
    self.loopbackTest answers rounds ports =
      .error (.err "loopback_test failed: No responese")
        { self.sent ports n with reads := ports.reads + n + 2 } := by
  have hread : self.tryRead answers (self.sent ports n) =
      .ok none { self.sent ports n with reads := ports.reads + n + 2 } := by
    rw [tryRead, Method.bind_of_ok (run_port hbase _)]
    exact congrFun (if_pos hdata) _
  rw [loopbackTest_of_ready hbase hn hready, compareAnswer, Method.bind_of_ok hread]
  rfl

/-- Where there is data, the test compares it. -/
theorem loopbackTest_of_data (hn : n < rounds) (hready : ReadyAt answers ports.reads n)
    (hdata : answers (ports.reads + n + 1) &&& 0x01 ≠ 0) :
    self.loopbackTest answers rounds ports =
      if answers (ports.reads + n + 2) = BitVec.ofNat 8 'T'.toNat then
        .ok true
          { reads := ports.reads + n + 3
            writes := (self.base.toNat + 4, 0x0f) :: (self.base.toNat + 2, 0xC7) ::
              (self.sent ports n).writes }
      else
        .error (.err "loopback_test failed: wrong data received")
          { reads := ports.reads + n + 3
            writes := (self.base.toNat + 2, 0xC7) :: (self.sent ports n).writes } := by
  -- the line status announces data, and the next read is the data
  have hread : self.tryRead answers (self.sent ports n) =
      .ok (some (answers (ports.reads + n + 2)))
        { reads := ports.reads + n + 3
          writes := (self.base.toNat + 2, 0xC7) :: (self.sent ports n).writes } := by
    rw [tryRead, Method.bind_of_ok (run_port hbase _)]
    refine (congrFun (if_neg hdata) _).trans ((Method.bind_of_ok (run_readIoPortU8 _ _)).trans ?_)
    exact Method.bind_of_ok (run_port (by omega) _)
  have hport : ∀ ports, self.port 4 ports = .ok (self.base.toNat + 4) ports := run_port (by omega)
  rw [loopbackTest_of_ready hbase hn hready, compareAnswer, Method.bind_of_ok hread,
    Method.bind_of_ok (Method.run_ofOption_some _ _ _), Method.run_ite]
  by_cases hdata : answers (ports.reads + n + 2) = BitVec.ofNat 8 'T'.toNat
  · rw [if_neg (not_not.2 hdata), if_pos hdata]
    exact Method.bind_of_ok (hport _)
  · rw [if_pos hdata, if_neg hdata]
    rfl

/-- The test goes on for as long as the transmitter is not ready. -/
theorem loopbackTest_of_not_ready (h : ∀ n < rounds, ¬ReadyAt answers ports.reads n) :
    ∃ ports', self.loopbackTest answers rounds ports = .ok false ports' := by
  obtain ⟨ended, ports', hwait⟩ :=
    Method.whileTrue_returns (run_busy hbase) rounds (self.switched ports)
  cases ended with
  | true =>
    obtain ⟨n, hn, hready, -⟩ := (whileTrue_busy_iff hbase).1 hwait
    exact absurd hready (h n hn)
  | false =>
    have hsend : self.sendChar answers 'T' rounds (self.switched ports) = .ok false ports' := by
      rw [sendChar, Method.bind_of_ok hwait]
      rfl
    refine ⟨ports', ?_⟩
    rw [loopbackTest_eq (by omega), Method.bind_of_ok hsend]
    rfl

end Runs

/-- Where the ports of the UART do not fit into 16 bits, the test does not return. -/
theorem loopbackTest_of_overflow {answers : ℕ → BitVec 8} {self : SerialPort}
    (h : ¬self.base.toNat + 5 < 2 ^ 16) (rounds : ℕ) (ports : IoPorts) :
    (∃ ports', self.loopbackTest answers rounds ports = .ok false ports') ∨
      ∃ msg ports', self.loopbackTest answers rounds ports = .error (.panic msg) ports' := by
  by_cases hport : self.base.toNat + 4 < 2 ^ 16
  case neg => exact .inr ⟨_, _, Method.bind_of_error (run_port_of_overflow hport ports)⟩
  case pos =>
    rw [loopbackTest_eq hport]
    cases rounds with
    | zero => exact .inl ⟨_, rfl⟩
    | succ rounds =>
      have hbusy : self.busy answers (self.switched ports) =
          .error (.panic "attempt to add with overflow") (self.switched ports) :=
        Method.bind_of_error (run_port_of_overflow h _)
      exact .inr ⟨_, _, Method.bind_of_error (Method.bind_of_error (Method.bind_of_error hbusy))⟩

/-- Where the UART answers with the character, the test returns `Ok` in normal operation if it
returns. -/
theorem loopbackTest_of_echoes {answers : ℕ → BitVec 8} {self : SerialPort} {ports : IoPorts}
    (h : self.base.toNat + 5 < 2 ^ 16 →
      ∀ n, ReadyAt answers ports.reads n → Echoes answers (ports.reads + n + 1)) (rounds : ℕ) :
    (∃ ports', self.loopbackTest answers rounds ports = .ok true ports' ∧ self.Normal ports') ∨
      (∃ ports', self.loopbackTest answers rounds ports = .ok false ports') ∨
        ∃ msg ports', self.loopbackTest answers rounds ports = .error (.panic msg) ports' := by
  by_cases hbase : self.base.toNat + 5 < 2 ^ 16
  case neg => exact .inr (loopbackTest_of_overflow hbase rounds ports)
  case pos =>
    by_cases hready : ∃ n < rounds, ReadyAt answers ports.reads n
    case pos =>
      obtain ⟨n, hn, hready⟩ := hready
      obtain ⟨hdata, hchar⟩ := h hbase n hready
      have hrun := loopbackTest_of_data hbase hn hready hdata
      rw [if_pos hchar] at hrun
      exact .inl ⟨_, hrun, by simp [Normal, IoPorts.lastWritten]⟩
    case neg =>
      simp only [not_exists, not_and] at hready
      exact .inr (.inl (loopbackTest_of_not_ready hbase hready))

/-- The port is in normal operation whenever the test returns exactly when the UART answers with
the character, as soon as the transmitter is ready: both errors leave it in loopback. -/
theorem loopbackTest_leaves_iff (answers : ℕ → BitVec 8) (self : SerialPort) (ports : IoPorts) :
    self.LeavesNormal answers ports ↔ (self.base.toNat + 5 < 2 ^ 16 →
      ∀ n, ReadyAt answers ports.reads n → Echoes answers (ports.reads + n + 1)) := by
  constructor
  · intro h hbase n hready
    have hn : n < n + 1 := n.lt_succ_self
    have hdata : answers (ports.reads + n + 1) &&& 0x01 ≠ 0 := by
      intro hnone
      have hnormal := h.err _ _ _ (loopbackTest_no_response hbase hn hready hnone)
      simp [Normal, IoPorts.lastWritten, sent] at hnormal
    refine ⟨hdata, ?_⟩
    have hrun := loopbackTest_of_data hbase hn hready hdata
    by_contra hwrong
    rw [if_neg hwrong] at hrun
    have hnormal := h.err _ _ _ hrun
    simp [Normal, IoPorts.lastWritten, sent] at hnormal
  · intro h
    constructor
    · intro rounds ports' hrun
      rcases loopbackTest_of_echoes h rounds with ⟨_, hok, hnormal⟩ | ⟨_, hok⟩ | ⟨_, _, herr⟩
      · cases hrun.symm.trans hok
        exact hnormal
      · cases hrun.symm.trans hok
      · cases hrun.symm.trans herr
    · intro rounds ports' msg hrun
      rcases loopbackTest_of_echoes h rounds with ⟨_, hok, -⟩ | ⟨_, hok⟩ | ⟨_, _, herr⟩
      · cases hrun.symm.trans hok
      · cases hrun.symm.trans hok
      · cases hrun.symm.trans herr

/-- The port COM1. -/
def newForCom1 : SerialPort := { base := 0x3F8 }

/-- A UART whose transmitter is always ready and that never has data. -/
def silent : ℕ → BitVec 8 := fun _ => 0x20

/-- Without a response the port stays in loopback. -/
theorem not_leavesNormal_silent : ¬newForCom1.LeavesNormal silent ⟨0, []⟩ := by
  intro h
  have hbase : newForCom1.base.toNat + 5 < 2 ^ 16 := by decide
  have hready : ReadyAt silent 0 0 := ⟨by decide, by simp⟩
  have hrun : newForCom1.loopbackTest silent 1 ⟨0, []⟩ =
      .error (.err "loopback_test failed: No responese")
        { newForCom1.sent ⟨0, []⟩ 0 with reads := 2 } :=
    loopbackTest_no_response hbase Nat.one_pos hready (by decide)
  have hnormal := h.err _ _ _ hrun
  simp [Normal, IoPorts.lastWritten, sent] at hnormal

end SerialPort

end Mushix
