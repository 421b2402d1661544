import Mushix.Lib.WriteToClear
import Mushix.Xhci.EnableSlot
import Mushix.Xhci.Polling

/-!
# What the reset of a port stores

PORTSC (`xhci.rs`) mixes bits that take what is stored, bits that are cleared by writing 1 and bits
that start something when 1 is written.

* `SetsOnly`: what a store to PORTSC that is to set one bit may contain;
* `ResetAccesses`: the accesses to PORTSC that `reset_port` makes;
* `Driver.resetPort_careful`: it makes no others, whatever the port does in the meantime.
-/

namespace Mushix

open BitField (writeToClear)
open Method (Safe)

/-- The bits of PORTSC that are cleared by writing 1: PED, which disables the port, and the change
bits. -/
def portClear : BitVec 32 := (1 <<< 1) ||| (0b1111111 <<< 17)

/-- WPR, which starts a warm reset. -/
def portWarmReset : BitVec 32 := 1 <<< 31

/-- PLS, the port indicator and the wake enable bits. -/
def portKept : BitVec 32 := (0b1111 <<< 5) ||| (0b11 <<< 14) ||| (0b111 <<< 25)

/-- The value `new` may be stored to set the bit `pos` of PORTSC after `old` was read. -/
structure SetsOnly (pos : ℕ) (old new : BitVec 32) : Prop where
  set : new.getLsbD pos = true
  clears : new &&& portClear = 0
  warmReset : new &&& portWarmReset = 0
  kept : new &&& portKept = old &&& portKept

/-- The accesses to PORTSC that `reset_port` makes, the last one first. Before each store there is
a read, and the store sets PP and later PR. -/
inductive ResetAccesses (entry : ℕ) : List Access → Prop
  | powering {old new : BitVec 32} (polls : List (BitVec 32)) (hset : SetsOnly 9 old new) :
    ResetAccesses entry (polls.map (.read entry) ++ [.write entry new, .read entry old])
  | resetting {old new old' new' : BitVec 32} (polls polls' : List (BitVec 32))
    (hset : SetsOnly 9 old new) (hset' : SetsOnly 4 old' new') :
    ResetAccesses entry (polls'.map (.read entry) ++ [.write entry new', .read entry old'] ++
      (polls.map (.read entry) ++ [.write entry new, .read entry old]))

/-- Hardware with a port whose PORTSC has the value `portsc`, as far as stores to it clear bits. -/
structure IsPortsc {σ : Type} (w : World σ) (entry : ℕ) (portsc : σ → BitVec 32) : Prop where
  write (value : BitVec 32) (s : σ) : portsc (w.write entry value s) &&& portClear =
    writeToClear (portsc s) portClear value &&& portClear

/-- A store that clears nothing leaves PED and the change bits as they are at that moment. -/
theorem IsPortsc.keeps {σ : Type} {w : World σ} {entry : ℕ} {portsc : σ → BitVec 32}
    (h : IsPortsc w entry portsc) {value : BitVec 32} (hvalue : value &&& portClear = 0) (s : σ) :
    portsc (w.write entry value s) &&& portClear = portsc s &&& portClear := by
  rw [h.write, BitField.writeToClear_of_and_eq_zero _ hvalue]

/-- No store that `reset_port` makes has a 1 in PED or in a change bit. -/
theorem ResetAccesses.clears {entry : ℕ} {accesses : List Access} (h : ResetAccesses entry accesses)
    {new : BitVec 32} (hnew : .write entry new ∈ accesses) : new &&& portClear = 0 := by
  cases h with
  | powering polls hset =>
    obtain rfl : new = _ := by simpa using hnew
    exact hset.clears
  | resetting polls polls' hset hset' =>
    obtain rfl | rfl : new = _ ∨ new = _ := by simpa using hnew
    · exact hset'.clears
    · exact hset.clears

/-- A bit of `old` under `mask` or a bit of `bit`, seen through another mask. -/
theorem and_or_and (old mask bit seen : BitVec 32) :
    ((old &&& mask) ||| bit) &&& seen = (old &&& (mask &&& seen)) ||| (bit &&& seen) := by
  ext i hi
  simp only [BitVec.getElem_and, BitVec.getElem_or]
  cases old[i] <;> cases mask[i] <;> simp

/-- With `PRESERVE_MASK` a store sets its own bit only, where that bit is not one that is cleared or
kept. -/
theorem setsOnly_preserveMask (pos : ℕ) (old : BitVec 32) (hpos : pos < 32)
    (hbit : 1#32 <<< pos &&& (portClear ||| portWarmReset ||| portKept) = 0) :
    SetsOnly pos old ((old &&& preserveMask) ||| 1#32 <<< pos) := by
  have hpart : ∀ part : BitVec 32, part &&& (portClear ||| portWarmReset ||| portKept) = part →
      1#32 <<< pos &&& part = 0 := by
    intro part hsub
    rw [← hsub, BitVec.and_comm part, ← BitVec.and_assoc, hbit]
    simp
  constructor
  · simp [hpos]
  · rw [and_or_and, show preserveMask &&& portClear = 0 by decide, hpart _ (by decide)]
    simp
  · rw [and_or_and, show preserveMask &&& portWarmReset = 0 by decide, hpart _ (by decide)]
    simp
  · rw [and_or_and, show preserveMask &&& portKept = portKept by decide, hpart _ (by decide)]
    simp

namespace Driver

variable {σ : Type} {w : World σ} {entry : ℕ}

/-! ## The accesses -/

section Logged

variable {d : Driver (σ × List Access)}

/-- `assert_bit` reads and stores. -/
theorem assertBit_logged (w : World σ) (entry pos : ℕ) (d : Driver (σ × List Access)) :
    ∃ old d', assertBit w.logged entry pos d = .ok () d' ∧ d'.hardware.2 =
      [.write entry ((old &&& preserveMask) ||| 1#32 <<< pos), .read entry old] ++
        d.hardware.2 :=
  ⟨_, _, rfl, rfl⟩

/-- A loop that reads PORTSC once in every round only reads. -/
theorem waitUntil_logged {cond : Method (Driver (σ × List Access)) Bool}
    (hcond : ∀ d, ∃ holds value d', cond d = .ok holds d' ∧
      d'.hardware.2 = .read entry value :: d.hardware.2) (rounds : ℕ)
    (d : Driver (σ × List Access)) :
    ∃ (holds : Bool) (polls : List (BitVec 32)) (d' : Driver (σ × List Access)),
      waitUntil cond rounds d = .ok holds d' ∧
        d'.hardware.2 = polls.map (.read entry) ++ d.hardware.2 := by
  induction rounds generalizing d with
  | zero => exact ⟨false, [], d, rfl, rfl⟩
  | succ rounds ih =>
    obtain ⟨holds, value, d₁, hrun, hlog⟩ := hcond d
    rw [waitUntil, Method.bind_of_ok hrun]
    cases holds with
    | true => exact ⟨true, [value], d₁, rfl, hlog⟩
    | false =>
      obtain ⟨holds, polls, d₂, hrest, hlog'⟩ := ih d₁
      refine ⟨holds, polls ++ [value], d₂, hrest, ?_⟩
      rw [hlog', hlog]
      simp

/-- `reset_port` makes no other accesses than these, however long it waits. -/
theorem resetPort_logged (rounds : ℕ) (d : Driver (σ × List Access)) :
    ∃ ended accesses d', resetPort w.logged entry rounds d = .ok ended d' ∧
      ResetAccesses entry accesses ∧ d'.hardware.2 = accesses ++ d.hardware.2 := by
  have hpp : ∀ d, ∃ holds value d', pp w.logged entry d = .ok holds d' ∧
      d'.hardware.2 = .read entry value :: d.hardware.2 := fun _ => ⟨_, _, _, rfl, rfl⟩
  have hpr : ∀ d, ∃ holds value d', (do return !(← pr w.logged entry) : Method _ Bool) d =
      .ok holds d' ∧ d'.hardware.2 = .read entry value :: d.hardware.2 :=
    fun _ => ⟨_, _, _, rfl, rfl⟩
  obtain ⟨old, d₁, hassert, hlog₁⟩ := assertBit_logged w entry 9 d
  obtain ⟨powered, polls, d₂, hwait, hlog₂⟩ := waitUntil_logged hpp rounds d₁
  have hset := setsOnly_preserveMask 9 old (by decide) (by decide)
  rw [resetPort, assertPp, Method.bind_of_ok hassert, Method.bind_of_ok hwait]
  -- without power PR is not asserted
  cases powered with
  | false =>
    refine ⟨false, _, d₂, rfl, .powering polls hset, ?_⟩
    rw [hlog₂, hlog₁, List.append_assoc]
  | true =>
    obtain ⟨old', d₃, hassert', hlog₃⟩ := assertBit_logged w entry 4 d₂
    obtain ⟨ended, polls', d₄, hwait', hlog₄⟩ := waitUntil_logged hpr rounds d₃
    have hset' := setsOnly_preserveMask 4 old' (by decide) (by decide)
    refine ⟨ended, _, d₄, ?_, .resetting polls polls' hset hset', ?_⟩
    · rw [if_pos rfl, assertPr, Method.bind_of_ok hassert', hwait']
    · rw [hlog₄, hlog₃, hlog₂, hlog₁]
      simp

end Logged

/-! ## The bits that stores could clear -/

/-- A bit that stores could clear, and that the port does not clear by itself, stays set. -/
theorem resetPort_keeps {portsc : σ → BitVec 32} (h : IsPortsc w entry portsc) {i : ℕ}
    (hi : portClear.getLsbD i = true)
    (hread : ∀ s, (portsc s).getLsbD i = true → (portsc (w.read entry s).2).getLsbD i = true)
    (rounds : ℕ) :
    Safe (fun d : Driver σ => (portsc d.hardware).getLsbD i = true)
      (resetPort w entry rounds) := by
  have hwrite : ∀ value s, value &&& portClear = 0 → (portsc s).getLsbD i = true →
      (portsc (w.write entry value s)).getLsbD i = true := by
    intro value s hclear hset
    have hbit := congrArg (BitVec.getLsbD · i) (h.keeps hclear s)
    simpa [hi, hset] using hbit
  apply safe_resetPort_of
  · intro pos d hset
    exact .inl ⟨_, _, rfl, hread _ hset⟩
  · intro pos hpos d hset
    have hbit : 1#32 <<< pos &&& (portClear ||| portWarmReset ||| portKept) = 0 := by
      rcases List.mem_pair.1 hpos with rfl | rfl <;> decide
    have hlt : pos < 32 := by
      rcases List.mem_pair.1 hpos with rfl | rfl <;> decide
    refine .inl ⟨(), _, rfl, hwrite _ _ ?_ (hread _ hset)⟩
    exact (setsOnly_preserveMask pos _ hlt hbit).clears

/-! ## The status afterwards -/

/-- The driver after a number of reads of PORTSC. -/
def polled (w : World σ) (entry n : ℕ) (d : Driver σ) : Driver σ :=
  { d with hardware := w.afterReads entry n d.hardware }

/-- `bit` reads PORTSC and nothing else. -/
theorem portBit_polled {pos : ℕ} (hpos : pos < 32) (n : ℕ) (d : Driver σ) :
    portBit w entry pos (polled w entry n d) =
      .ok ((w.valueAt entry n d.hardware).getLsbD pos) (polled w entry (n + 1) d) := by
  have hbit : ∀ value : BitVec 32, (value &&& 1#32 <<< pos != 0) = value.getLsbD pos := by
    intro value
    rw [← BitVec.twoPow_eq, BitVec.and_twoPow]
    cases value.getLsbD pos
    · simp
    · have hne : BitVec.twoPow 32 pos ≠ 0 := by
        intro hzero
        have hget := congrArg (BitVec.getLsbD · pos) hzero
        simp [hpos] at hget
      simpa using hne
  rw [← hbit, polled, polled, ← World.read_afterReads]
  rfl

/-- The result of `is_enabled` for the values that PORTSC reads as, which it only reads. -/
theorem isEnabled_eq (d : Driver σ) :
    ∃ reads, isEnabled w entry d =
      .ok ((w.valueAt entry 0 d.hardware).getLsbD 9 && (w.valueAt entry 1 d.hardware).getLsbD 0 &&
        (w.valueAt entry 2 d.hardware).getLsbD 1 && !(w.valueAt entry 3 d.hardware).getLsbD 4)
        (polled w entry reads d) := by
  have hread : ∀ n pos, pos < 32 → portBit w entry pos (polled w entry n d) =
      .ok ((w.valueAt entry n d.hardware).getLsbD pos) (polled w entry (n + 1) d) :=
    fun n pos hpos => portBit_polled hpos n d
  have hfirst : portBit w entry 9 d =
      .ok ((w.valueAt entry 0 d.hardware).getLsbD 9) (polled w entry 1 d) := hread 0 9 (by decide)
  rw [isEnabled, pp, Method.bind_of_ok hfirst]
  -- `&&` reads PORTSC again for each bit, as far as the bits before it are set
  cases hpp : (w.valueAt entry 0 d.hardware).getLsbD 9 with
  | false => exact ⟨1, rfl⟩
  | true =>
    rw [if_pos rfl, ccs, Method.bind_of_ok (hread 1 0 (by decide))]
    cases hccs : (w.valueAt entry 1 d.hardware).getLsbD 0 with
    | false => exact ⟨2, rfl⟩
    | true =>
      rw [if_pos rfl, ped, Method.bind_of_ok (hread 2 1 (by decide))]
      cases hped : (w.valueAt entry 2 d.hardware).getLsbD 1 with
      | false => exact ⟨3, rfl⟩
      | true =>
        rw [if_pos rfl, pr, Method.bind_of_ok (hread 3 4 (by decide))]
        exact ⟨4, rfl⟩

/-- Whatever the port does in the meantime: every store of `reset_port` sets PP or PR and follows a
read of which it keeps what is to be kept, and none of them clears PED or a change bit. A bit of
these that the port does not clear by itself is set after the reset when it was set before, and
`is_enabled` only reads. -/
theorem resetPort_careful (w : World σ) (entry rounds : ℕ) {portsc : σ → BitVec 32}
    (h : IsPortsc w entry portsc) :
    (∀ d : Driver (σ × List Access), ∃ ended accesses d',
      resetPort w.logged entry rounds d = .ok ended d' ∧ ResetAccesses entry accesses ∧
        d'.hardware.2 = accesses ++ d.hardware.2 ∧
          ∀ new s, .write entry new ∈ accesses →
            portsc (w.write entry new s) &&& portClear = portsc s &&& portClear) ∧
      (∀ i, portClear.getLsbD i = true →
        (∀ s, (portsc s).getLsbD i = true → (portsc (w.read entry s).2).getLsbD i = true) →
          ∀ ended d d', (portsc d.hardware).getLsbD i = true →
            resetPort w entry rounds d = .ok ended d' →
              (portsc d'.hardware).getLsbD i = true) ∧
      ∀ d, ∃ reads, isEnabled w entry d =
        .ok ((w.valueAt entry 0 d.hardware).getLsbD 9 &&
          (w.valueAt entry 1 d.hardware).getLsbD 0 && (w.valueAt entry 2 d.hardware).getLsbD 1 &&
            !(w.valueAt entry 3 d.hardware).getLsbD 4) (polled w entry reads d) := by
  refine ⟨fun d => ?_, fun i hi hread ended d d' hset hrun => ?_, isEnabled_eq⟩
  · obtain ⟨ended, accesses, d', hrun, haccesses, hlog⟩ := resetPort_logged (w := w) rounds d
    refine ⟨ended, accesses, d', hrun, haccesses, hlog, fun new s hnew => ?_⟩
    exact h.keeps (haccesses.clears hnew) s
  · rcases resetPort_keeps h hi hread rounds d hset with ⟨_, _, hok, hkept⟩ | ⟨_, _, herr, -⟩
    · rw [hrun] at hok
      cases hok
      exact hkept
    · rw [hrun] at herr
      cases herr

end Driver

/-- Hardware that is a PORTSC register with PP. -/
def World.portAt (entry : ℕ) : World (BitVec 32) where
  read _ hw := (hw, hw)
  write a value hw :=
    if a = entry then writeToClear hw portClear value ||| (value &&& 1#32 <<< 9) else hw
  event hw := ((.default, []), hw)
  page := (World.steady 0 .default).page
  buffer := (World.steady 0 .default).buffer

theorem isPortsc_portAt (entry : ℕ) : IsPortsc (.portAt entry) entry id where
  write value s := by
    have hnone : value &&& 1#32 <<< 9 &&& portClear = 0 := by
      rw [BitVec.and_assoc, show 1#32 <<< 9 &&& portClear = 0 by decide]
      simp
    simp only [World.portAt, if_true]
    ext i hi
    have hbit := BitField.and_eq_zero_iff_getElem.1 hnone i hi
    simp only [id_eq, BitVec.getElem_and, BitVec.getElem_or] at hbit ⊢
    cases hclear : portClear[i] <;> simp_all

namespace Driver

/-- The driver of a port with a device that was just connected, the change of which is pending. -/
def startConnected : Driver (BitVec 32) :=
  .start (.placed 0 eightPorts) ((World.steady 0 .default).page 0) 0x20003

/-- The change is still pending after the reset. -/
theorem resetPort_careful_connected :
    ∃ ended d', resetPort (.portAt 0x480) 0x480 1 startConnected = .ok ended d' ∧
      (id d'.hardware).getLsbD 17 = true := by
  have hcareful := resetPort_careful (.portAt 0x480) 0x480 1 (isPortsc_portAt 0x480)
  exact ⟨_, _, rfl, hcareful.2.1 17 (by decide) (fun _ h => h) _ startConnected _ (by decide) rfl⟩

end Driver

end Mushix
