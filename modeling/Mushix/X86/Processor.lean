import Mushix.Allocator.Boxes
import Mushix.X86.Descriptor

/-!
# The processor and its tables

The registers of the processor for the descriptor tables and the segments, and what it does with an
interrupt.

* `Processor.dispatch`: the handler and the stack for an interrupt;
* `Boot.lgdt`, `Boot.lidt`, `Boot.ltr`: the loads of the tables;
* `Boot.writeSegment`: the load of a selector, with the members of its family.
-/

namespace Mushix.X86

open Bytes (Memory readLE writeLE)

/-! ## The processor -/

/-- A register that holds the place of a table. -/
structure TableRegister where
  limit : ℕ
  base : ℕ
  deriving DecidableEq, Repr

/-- The segment registers. -/
inductive SegmentRegister where
  | es | cs | ss | ds | fs | gs
  deriving DecidableEq, Repr

/-- The registers from which interrupts are served. -/
structure Processor where
  gdtr : TableRegister
  idtr : TableRegister
  /-- The task register. -/
  tr : TableRegister
  segment : SegmentRegister → BitVec 16

/-- What the processor does with an interrupt. -/
@[ext]
structure Dispatch where
  rip : ℕ
  cs : ℕ
  /-- The stack to which the processor changes, if it does. -/
  rsp : Option ℕ
  /-- The lowest privilege from which the interrupt can be asked for. -/
  dpl : ℕ
  deriving DecidableEq, Repr

/-- The descriptor of a code segment of ring 0 in long mode. -/
def IsCode64 (w : ℕ) : Prop :=
  w.testBit 47 ∧ w.testBit 44 ∧ w.testBit 43 ∧ w.testBit 53 ∧ ¬w.testBit 54 ∧ w / 2 ^ 45 % 4 = 0

/-- The descriptor of a data segment of ring 0 that can be written. -/
def IsWritableData (w : ℕ) : Prop :=
  w.testBit 47 ∧ w.testBit 44 ∧ ¬w.testBit 43 ∧ w.testBit 41 ∧ w / 2 ^ 45 % 4 = 0

instance : DecidablePred IsCode64 := fun _ => inferInstanceAs (Decidable (_ ∧ _))

instance : DecidablePred IsWritableData := fun _ => inferInstanceAs (Decidable (_ ∧ _))

namespace Processor

/-- The descriptor of `size` bytes that a selector names, if it is in the table. -/
def descriptor (cpu : Processor) (selector size : ℕ) : Option ℕ :=
  let offset := selector / 8 * 8
  if 0 < offset ∧ offset + size ≤ cpu.gdtr.limit + 1 then some (cpu.gdtr.base + offset) else none

/-- A descriptor inside of the limit is found. -/
theorem descriptor_eq {cpu : Processor} {selector size : ℕ} (hpos : 0 < selector / 8 * 8)
    (hsize : selector / 8 * 8 + size ≤ cpu.gdtr.limit + 1) :
    cpu.descriptor selector size = some (cpu.gdtr.base + selector / 8 * 8) :=
  if_pos ⟨hpos, hsize⟩

/-- The gate of an interrupt, its code segment and its stack; there is none where the processor
finds a fault instead. -/
def dispatch (cpu : Processor) (m : Memory) (v : ℕ) : Option Dispatch := do
  -- the gate lies within the table
  guard (16 * v + 16 ≤ cpu.idtr.limit + 1)
  let gate := Gate.read m (cpu.idtr.base + 16 * v)
  -- an interrupt gate, for code of 64 bits
  guard (gate.present ∧ gate.kind = 0xE)
  let code ← cpu.descriptor gate.selector 8
  guard (IsCode64 (readLE m code 8))
  -- the stack pointer lies within the task state segment
  guard (0x24 + 8 * gate.ist ≤ cpu.tr.limit + 1)
  return {
    rip := gate.offset
    cs := gate.selector
    rsp := if gate.ist = 0 then none else some (interruptStack m cpu.tr.base gate.ist)
    dpl := gate.dpl }

/-- A gate whose segment and stack are there. -/
theorem dispatch_eq {cpu : Processor} {m : Memory} {v code : ℕ}
    (hlimit : 16 * v + 16 ≤ cpu.idtr.limit + 1) {gate : Gate}
    (hgate : Gate.read m (cpu.idtr.base + 16 * v) = gate)
    (hkind : gate.present ∧ gate.kind = 0xE) (hcode : cpu.descriptor gate.selector 8 = some code)
    (hcode64 : IsCode64 (readLE m code 8)) (hpos : 0 < gate.ist)
    (hist : 0x24 + 8 * gate.ist ≤ cpu.tr.limit + 1) :
    cpu.dispatch m v = some {
      rip := gate.offset
      cs := gate.selector
      rsp := some (interruptStack m cpu.tr.base gate.ist)
      dpl := gate.dpl } := by
  simp only [dispatch, hgate, guard, if_pos hlimit, if_pos hkind, hcode, if_pos hcode64,
    if_pos hist, if_neg hpos.ne', Option.pure_def, Option.bind_eq_bind, Option.bind_some]

end Processor

/-- The heap and the processor. -/
abbrev Boot : Type := HeapSystem × Processor

namespace Boot

/-- A fault of the processor while there are no handlers, which ends the program. -/
def fault {α : Type} : Method Boot α := throw (.panic "exception")

/-- The processor uses another global descriptor table. -/
def lgdt (limit base : ℕ) : Method Boot PUnit :=
  modify fun t => (t.1, { t.2 with gdtr := { limit, base } })

/-- The processor uses another interrupt descriptor table. -/
def lidt (limit base : ℕ) : Method Boot PUnit :=
  modify fun t => (t.1, { t.2 with idtr := { limit, base } })

/-- `ltr`: the descriptor has to be that of an available task state segment, which is then marked
busy. -/
def ltr (selector : BitVec 16) : Method Boot PUnit := do
  let (s, cpu) ← get
  let a ← Method.ofOption (.panic "exception") (cpu.descriptor selector.toNat 16)
  let access := accessByte s.heap.mem a
  -- a task state segment that is present and available
  if access % 32 = 9 ∧ 128 ≤ access then
    set (s.setMem (writeLE s.heap.mem (a + 5) 1 (access + 2)),
      { cpu with tr := { limit := tssLimit s.heap.mem a, base := tssBase s.heap.mem a } })
  else
    fault

/-- A selector is loaded into a segment register, with the check of its descriptor. -/
def writeSegment (r : SegmentRegister) (p : ℕ → Prop) [DecidablePred p] (selector : BitVec 16) :
    Method Boot PUnit := do
  let (s, cpu) ← get
  let a ← Method.ofOption (.panic "exception") (cpu.descriptor selector.toNat 8)
  if p (readLE s.heap.mem a 8) then
    set (s, { cpu with segment := Function.update cpu.segment r selector })
  else
    fault

/-- CS is loaded, for which the selector must be that of 64-bit code. -/
def writeCs : BitVec 16 → Method Boot PUnit := writeSegment .cs IsCode64

/-- SS is loaded, for which the selector must be that of writable data. -/
def writeSs : BitVec 16 → Method Boot PUnit := writeSegment .ss IsWritableData

/-- ES is loaded, for which the selector must be that of writable data. -/
def writeEs : BitVec 16 → Method Boot PUnit := writeSegment .es IsWritableData

/-- DS is loaded, for which the selector must be that of writable data. -/
def writeDs : BitVec 16 → Method Boot PUnit := writeSegment .ds IsWritableData

/-- FS is loaded, for which the selector must be that of writable data. -/
def writeFs : BitVec 16 → Method Boot PUnit := writeSegment .fs IsWritableData

/-- GS is loaded, for which the selector must be that of writable data. -/
def writeGs : BitVec 16 → Method Boot PUnit := writeSegment .gs IsWritableData

variable {s : HeapSystem} {cpu : Processor}

/-- A selector whose descriptor has the right kind is loaded. -/
theorem follows_writeSegment {δ β : Type} {plan : Option δ} {R : δ → β → Boot → Prop}
    {f : PUnit → Method Boot β} {r : SegmentRegister} {p : ℕ → Prop} [DecidablePred p]
    {selector : BitVec 16} {a : ℕ} (ha : cpu.descriptor selector.toNat 8 = some a)
    (hp : p (readLE s.heap.mem a 8))
    (hrest : Method.Follows plan R (f ⟨⟩)
      (s, { cpu with segment := Function.update cpu.segment r selector })) :
    Method.Follows plan R (writeSegment r p selector >>= f) (s, cpu) := by
  have hrun : writeSegment r p selector (s, cpu) =
      .ok ⟨⟩ (s, { cpu with segment := Function.update cpu.segment r selector }) := by
    rw [writeSegment, Method.run_get_bind]
    simp only [ha, Method.bind_of_ok (Method.run_ofOption_some _ _ _), if_pos hp]
    rfl
  refine Method.Follows.returns_bind ⟨⟨⟩, _, hrun, rfl⟩ (P := fun _ u => u = _) ?_
  rintro - _ rfl
  exact hrest

/-- The selector of an available task state segment. -/
theorem ltr_run {selector : BitVec 16} {a : ℕ}
    (ha : cpu.descriptor selector.toNat 16 = some a) (haccess : accessByte s.heap.mem a = 0x89) :
    Boot.ltr selector (s, cpu) =
      .ok ⟨⟩ (s.setMem (writeLE s.heap.mem (a + 5) 1 0x8b),
        { cpu with tr := { limit := tssLimit s.heap.mem a, base := tssBase s.heap.mem a } }) := by
  rw [ltr, Method.run_get_bind]
  simp only [ha, Method.bind_of_ok (Method.run_ofOption_some _ _ _), haccess]
  rfl

end Boot

end Mushix.X86
