import Mushix.X86.Interrupt
import Mushix.X86.Processor

/-!
# Exceptions

How `init_exceptions` (`x86.rs`) sets up the descriptor tables, and how every interrupt is then
served.

* `Handler`, `Idt.entries`: the functions in the interrupt descriptor table;
* `TaskStateSegment64.new`, `GdtWrapper.default`, `Idt.new`: the tables are allocated and filled;
* `initExceptions`: they are loaded;
* `initExceptions_serves`: every interrupt gets its handler, on a stack of its own.
-/

namespace Mushix.X86

open Bytes (Memory readLE writeLE)
open HeapSystem (Owns Same)
open Packed (Stores)

/-! ## The handlers -/

/-- The functions in the interrupt descriptor table. -/
inductive Handler where
  | intHandlerUnimplemented
  | interruptEntrypoint3
  | interruptEntrypoint6
  | interruptEntrypoint8
  | interruptEntrypoint13
  | interruptEntrypoint14
  | interruptEntrypoint32
  deriving DecidableEq, Repr

/-- The code of an entry point up to `iretq`, from the invocations of `interrupt_entrypoint!` and
`interrupt_entrypoint_with_ecode!`; `int_handler_unimplemented` only panics. -/
def Handler.code : Handler → Option (List Instr)
  | intHandlerUnimplemented => none
  | interruptEntrypoint3 => some (interruptEntrypoint 3 ++ inthandlerCommon)
  | interruptEntrypoint6 => some (interruptEntrypoint 6 ++ inthandlerCommon)
  | interruptEntrypoint8 => some (interruptEntrypointWithEcode 8 ++ inthandlerCommon)
  | interruptEntrypoint13 => some (interruptEntrypointWithEcode 13 ++ inthandlerCommon)
  | interruptEntrypoint14 => some (interruptEntrypointWithEcode 14 ++ inthandlerCommon)
  | interruptEntrypoint32 => some (interruptEntrypoint 32 ++ inthandlerCommon)

/-- The vectors for which the processor pushes an error code. -/
def errorCodeVectors : List ℕ := [8, 10, 11, 12, 13, 14, 17, 21, 29, 30]

/-- The processor enters the vector in this way. -/
def Entry.At (e : Entry) (v : ℕ) : Prop :=
  match e with
  | plain => v ∉ errorCodeVectors
  | withEcode _ => v ∈ errorCodeVectors

/-- The handler of a vector. -/
def handlerOf : ℕ → Handler
  | 3 => .interruptEntrypoint3
  | 6 => .interruptEntrypoint6
  | 8 => .interruptEntrypoint8
  | 13 => .interruptEntrypoint13
  | 14 => .interruptEntrypoint14
  | 32 => .interruptEntrypoint32
  | _ => .intHandlerUnimplemented

/-- The number of the stack of a vector: a double fault has its own. -/
def istOf (v : ℕ) : ℕ := if v = 8 then 2 else 1

/-- The attributes of the gate of a vector: a breakpoint may be asked for from everywhere. -/
def attrOf (v : ℕ) : IdtAttr := if v = 3 then .intGateDPL3 else .intGateDPL0

/-- An entry point expects what the processor pushes, and passes on its own vector. -/
theorem code_handlerOf {v : ℕ} {e : Entry} (he : e.At v) {code : List Instr}
    (hcode : (handlerOf v).code = some code) :
    code = e.stub (BitVec.ofNat 64 v) ++ inthandlerCommon := by
  cases e with
  | plain =>
    unfold handlerOf at hcode
    split at hcode <;> simp_all [Handler.code, Entry.At, errorCodeVectors, Entry.stub]
  | withEcode c =>
    unfold handlerOf at hcode
    split at hcode <;> simp_all [Handler.code, Entry.At, errorCodeVectors, Entry.stub]

/-! ## The tables -/

/-- The selector of the code of the kernel. -/
def kernelCs : BitVec 16 := 1 <<< 3

/-- The selector of the data of the kernel. -/
def kernelDs : BitVec 16 := 2 <<< 3

/-- The selector of the task state segment. -/
def tss64Sel : BitVec 16 := 3 <<< 3

namespace Idt

/-- The `entries` of `Idt::new`, where the functions are at the addresses of `symbol`. -/
def entries (symbol : Handler → BitVec 64) (segmentSelector : BitVec 16) :
    Vector IdtDescriptor 0x100 :=
  let new (istIndex : BitVec 8) (attr : IdtAttr) (f : Handler) : IdtDescriptor :=
    .new segmentSelector istIndex attr (symbol f)
  let entries := Vector.replicate 0x100 (new 1 .intGateDPL0 .intHandlerUnimplemented)
  let entries := entries.set 3 (new 1 .intGateDPL3 .interruptEntrypoint3)
  let entries := entries.set 6 (new 1 .intGateDPL0 .interruptEntrypoint6)
  let entries := entries.set 8 (new 2 .intGateDPL0 .interruptEntrypoint8)
  let entries := entries.set 13 (new 1 .intGateDPL0 .interruptEntrypoint13)
  let entries := entries.set 14 (new 1 .intGateDPL0 .interruptEntrypoint14)
  entries.set 32 (new 1 .intGateDPL0 .interruptEntrypoint32)

/-- The entry of a vector. -/
theorem getElem_entries (symbol : Handler → BitVec 64) (selector : BitVec 16) {v : ℕ}
    (hv : v < 0x100) :
    (entries symbol selector)[v] = .new selector (BitVec.ofNat 8 (istOf v))
      (attrOf v) (symbol (handlerOf v)) := by
  unfold handlerOf
  split <;> simp_all [entries, istOf, attrOf, eq_comm]

/-- The bytes of the entries. -/
def bytes (entries : Vector IdtDescriptor 0x100) : List (BitVec 8) :=
  entries.toList.flatMap IdtDescriptor.bytes

/-- The table has the size from which its limit is computed. -/
theorem length_bytes (entries : Vector IdtDescriptor 0x100) : (bytes entries).length = 0x1000 := by
  rw [bytes, Packed.length_flatMap IdtDescriptor.length_bytes, Vector.length_toList]

/-- The layout of the boxed array. -/
def layout : Layout := .packed 0x1000 (by decide)

/-- `Idt::new`: the pointer to the entries. -/
def new (symbol : Handler → BitVec 64) (segmentSelector : BitVec 16) : Method Boot ℕ := do
  let entries := entries symbol segmentSelector
  let limit := BitVec.ofNat 16 (bytes entries).length
  let base ← Method.onFst (boxNew layout (bytes entries))
  Boot.lidt limit.toNat base
  return base

end Idt

namespace TaskStateSegment64

/-- The number of bytes of a stack for handlers. -/
def handlerStackSize : ℕ := 64 * 1024

/-- The layout of a boxed stack. -/
def stackLayout : Layout := .packed handlerStackSize (by decide)

/-- `alloc_interrupt_stack`: the address behind a stack that is never deallocated. -/
def allocInterruptStack : Method HeapSystem (BitVec 64) := do
  let stack ← boxNew stackLayout (List.replicate handlerStackSize 0)
  return BitVec.ofNat 64 (stack + handlerStackSize)

/-- The array `ist` after the first `n` stacks. -/
def fillIst : (n : ℕ) → Method HeapSystem (Vector (BitVec 64) (n + 1))
  | 0 => return #v[0]
  | n + 1 => do
    let ist ← fillIst n
    return ist.push (← allocInterruptStack)

/-- The layout of the boxed segment. -/
def layout : Layout := .packed TaskStateSegment64Inner.size (by decide)

/-- `TaskStateSegment64::new`: the pointer to the segment. -/
def new : Method HeapSystem ℕ := do
  let rsp0 ← allocInterruptStack
  let ist ← fillIst 7
  boxNew layout (TaskStateSegment64Inner.new rsp0 ist).bytes

end TaskStateSegment64

/-- `GdtWrapper`: the pointers to the tables. -/
structure GdtWrapper where
  inner : ℕ
  tss64 : ℕ
  deriving DecidableEq, Repr

namespace GdtWrapper

/-- The layout of the boxed table. -/
def layout : Layout := .packed Gdt.size (by decide)

/-- The global descriptor table and the task state segment that it describes, each in a box. -/
def default : Method HeapSystem GdtWrapper := do
  let tss64 ← TaskStateSegment64.new
  let inner ← boxNew layout (Gdt.new (BitVec.ofNat 64 tss64)).bytes
  return { inner, tss64 }

/-- `load` makes the table and its task state segment those of the processor. -/
def load (self : GdtWrapper) : Method Boot PUnit := do
  Boot.lgdt (BitVec.ofNat 16 (Gdt.size - 1)).toNat self.inner
  Boot.ltr tss64Sel

end GdtWrapper

/-- `init_exceptions`: the descriptor tables and the entries of the interrupt descriptor table. -/
def initExceptions (symbol : Handler → BitVec 64) : Method Boot (GdtWrapper × ℕ) := do
  let gdt ← Method.onFst GdtWrapper.default
  gdt.load
  Boot.writeCs kernelCs
  Boot.writeSs kernelDs
  Boot.writeEs kernelDs
  Boot.writeDs kernelDs
  Boot.writeFs kernelDs
  Boot.writeGs kernelDs
  let idt ← Idt.new symbol kernelCs
  return (gdt, idt)

/-! ## What they contain -/

/-- The gate of a vector in the entries that were stored. -/
theorem Idt.gate_eq {symbol : Handler → BitVec 64} {selector : BitVec 16} {m : Memory} {a v : ℕ}
    (h : Stores m a (bytes (entries symbol selector))) (hv : v < 0x100) :
    Gate.read m (a + 16 * v) =
      { offset := (symbol (handlerOf v)).toNat
        selector := selector.toNat
        ist := istOf v
        kind := 0xE
        dpl := if v = 3 then 3 else 0
        present := true } := by
  have hget : (entries symbol selector).toList[v]? = some (entries symbol selector)[v] := by
    simp [hv]
  have hentry := h.element IdtDescriptor.length_bytes hget
  rw [getElem_entries symbol selector hv] at hentry
  rw [Gate.read_eq hentry]
  have hist : (BitVec.ofNat 8 (istOf v)).toNat % 8 = istOf v := by
    unfold istOf
    split <;> rfl
  by_cases hthree : v = 3
  · subst hthree
    rfl
  · rw [attrOf, if_neg hthree, if_neg hthree, hist]
    rfl

/-- The segments in a table that was stored. -/
theorem Gdt.segments_eq {tss : BitVec 64} {m : Memory} {a : ℕ}
    (h : Stores m a (Gdt.new tss).segmentBytes) :
    IsCode64 (readLE m (a + 8) 8) ∧ IsWritableData (readLE m (a + 16) 8) := by
  simp only [segmentBytes, Packed.Stores.append_iff, wordBytes, Bytes.length_toLE,
    Nat.add_assoc, Nat.reduceAdd] at h
  obtain ⟨-, hcode, hdata⟩ := h
  have hcode := hcode.readLE_toNat (by decide)
  have hdata := hdata.readLE_toNat (by decide)
  rw [hcode, hdata]
  exact ⟨show IsCode64 GdtAttr.kernelCode.toWord.toNat by decide,
    show IsWritableData GdtAttr.kernelData.toWord.toNat by decide⟩

/-! ## Allocating them -/

variable {seed : Seeding} {bs : List Block} {as : List Allocation} {s : HeapSystem}
  {symbol : Handler → BitVec 64} {cpu : Processor}

namespace TaskStateSegment64

/-- The allocation of a stack. -/
def IsStack (a : Allocation) : Prop := a.layout = stackLayout ∧ a.ptr % 32 = 0

/-- The address behind a stack. -/
def stackTop (a : Allocation) : BitVec 64 := BitVec.ofNat 64 (a.ptr + handlerStackSize)

/-- A stack is an allocation of its own, whose end is the top. -/
theorem allocInterruptStack_follows (h : Owns seed bs as s) :
    Method.Follows (stackLayout.take bs)
      (fun r top s' => ∃ a, IsStack a ∧ top = stackTop a ∧ Owns seed r.2 (a :: as) s' ∧
        Same seed as s s')
      allocInterruptStack s := by
  have hlen : (List.replicate handlerStackSize (0 : BitVec 8)).length ≤ stackLayout.size :=
    List.length_replicate.le
  refine (boxNew_follows h stackLayout (by decide) hlen).bind_returns ?_
  rintro r p s₁ ⟨hmod, -, -, howns, hsame⟩
  exact Method.Returns.pure ⟨⟨p, stackLayout⟩, ⟨rfl, hmod⟩, rfl, howns, hsame⟩

/-- The blocks after `n` stacks. -/
def istTake : ℕ → List Block → Option (List Block)
  | 0, bs => some bs
  | n + 1, bs => do
    let bs ← istTake n bs
    let r ← stackLayout.take bs
    return r.2

/-- The array names the stacks, behind a word that is not used. -/
theorem fillIst_follows (h : Owns seed bs as s) (n : ℕ) :
    Method.Follows (istTake n bs)
      (fun bs' ist s' => ∃ areas : List Allocation, areas.length = n ∧ (∀ a ∈ areas, IsStack a) ∧
        ist.toList = 0 :: areas.map stackTop ∧ Owns seed bs' (areas ++ as) s' ∧ Same seed as s s')
      (fillIst n) s := by
  induction n with
  | zero => exact Method.Returns.pure ⟨[], rfl, by simp, rfl, h, .refl seed as s⟩
  | succ n ih =>
    refine ih.bind ?_
    rintro bs₁ ist s₁ ⟨areas, hlen, hareas, hist, howns, hsame⟩
    refine (allocInterruptStack_follows howns).bind ?_
    rintro r top s₂ ⟨a, ha, rfl, howns', hsame'⟩
    refine Method.Returns.pure ⟨areas ++ [a], ?_, ?_, ?_, ?_, ?_⟩
    · rw [List.length_append, hlen, List.length_singleton]
    · intro c hc
      rcases List.mem_append.1 hc with hc | hc
      · exact hareas c hc
      · exact List.mem_singleton.1 hc ▸ ha
    · rw [Vector.toList_push, hist, List.map_append, List.map_singleton, List.cons_append]
    · rw [List.append_assoc, List.singleton_append]
      exact howns'.perm List.perm_middle.symm
    · exact hsame.trans (hsame'.subset (List.subset_append_right areas as))

/-- The blocks after `new`. -/
def take (bs : List Block) : Option (List Block) := do
  let r ← stackLayout.take bs
  let bs ← istTake 7 r.2
  let r ← layout.take bs
  return r.2

/-- The segment names the stacks. -/
def Names (m : Memory) (tss : ℕ) (areas : List Allocation) : Prop :=
  ∃ rsp0 ist, Stores m tss (TaskStateSegment64Inner.new rsp0 ist).bytes ∧
    ∀ n, 0 < n → ist.toList[n]? = (areas.map stackTop)[n]?

/-- The task state segment names its stacks as long as its bytes stay. -/
theorem Names.same {tss : ℕ} {areas cs : List Allocation} {s s' : HeapSystem}
    (h : Names s.heap.mem tss areas) (hsame : Same seed cs s s') (hmem : ⟨tss, layout⟩ ∈ cs) :
    Names s'.heap.mem tss areas := by
  obtain ⟨rsp0, ist, hstores, hist⟩ := h
  have hle := (TaskStateSegment64Inner.new rsp0 ist).length_bytes.le
  exact ⟨rsp0, ist, hsame.stores hmem hle hstores, hist⟩

/-- The segment is allocated with its eight stacks. -/
theorem new_follows (h : Owns seed bs as s) :
    Method.Follows (take bs)
      (fun bs' tss s' => ∃ areas : List Allocation, areas.length = 8 ∧
        (∀ a ∈ areas, IsStack a) ∧ Names s'.heap.mem tss areas ∧
        Owns seed bs' (⟨tss, layout⟩ :: (areas ++ as)) s' ∧ Same seed as s s')
      new s := by
  refine (allocInterruptStack_follows h).bind ?_
  rintro r top s₁ ⟨a, ha, rfl, howns, hsame⟩
  refine (fillIst_follows howns 7).bind ?_
  rintro bs₂ ist s₂ ⟨areas, hlen, hareas, hist, howns₂, hsame₂⟩
  have hall : Owns seed bs₂ (a :: areas ++ as) s₂ := howns₂.perm List.perm_middle
  let tss := TaskStateSegment64Inner.new (stackTop a) ist
  refine (boxNew_follows hall layout (by decide) tss.length_bytes.le).map ?_
  rintro r p s₃ ⟨-, -, hstores, howns₃, hsame₃⟩
  refine ⟨a :: areas, by rw [List.length_cons, hlen], ?_, ⟨_, ist, hstores, ?_⟩, howns₃, ?_⟩
  · exact List.forall_mem_cons.2 ⟨ha, hareas⟩
  · intro n hn
    obtain ⟨k, rfl⟩ := Nat.exists_eq_succ_of_ne_zero hn.ne'
    rw [hist, List.map_cons, List.getElem?_cons_succ, List.getElem?_cons_succ]
  · exact (hsame.trans (hsame₂.subset (List.subset_cons_self a as))).trans
      (hsame₃.subset (List.subset_append_right _ as))

end TaskStateSegment64

/-- Where the tables lie, and the areas of the stacks. -/
structure Tables where
  idt : ℕ
  gdt : GdtWrapper
  areas : List Allocation

namespace Tables

/-- The allocations of the descriptor tables. -/
def tables (t : Tables) : List Allocation :=
  [⟨t.idt, Idt.layout⟩, ⟨t.gdt.inner, GdtWrapper.layout⟩, ⟨t.gdt.tss64, TaskStateSegment64.layout⟩]

/-- The processor and the memory have the tables and the stacks. -/
structure Loaded (t : Tables) (symbol : Handler → BitVec 64) (cpu : Processor) (m : Memory) :
    Prop where
  gdtr : cpu.gdtr = { limit := 39, base := t.gdt.inner }
  idtr : cpu.idtr = { limit := 0x1000, base := t.idt }
  tr_base : cpu.tr.base = t.gdt.tss64
  tr_limit : TaskStateSegment64Inner.size ≤ cpu.tr.limit
  idt : Stores m t.idt (Idt.bytes (Idt.entries symbol kernelCs))
  gdt : Stores m t.gdt.inner (Gdt.new (BitVec.ofNat 64 t.gdt.tss64)).segmentBytes
  tss : TaskStateSegment64.Names m t.gdt.tss64 t.areas

variable {t : Tables} {m m' : Memory}

/-- Only the bytes of the tables matter. -/
theorem Loaded.congr (h : t.Loaded symbol cpu m)
    (hsame : ∀ a ∈ t.tables, ∀ x ∈ a.bytes, m' x = m x) : t.Loaded symbol cpu m' where
  gdtr := h.gdtr
  idtr := h.idtr
  tr_base := h.tr_base
  tr_limit := h.tr_limit
  idt := by
    refine h.idt.congr fun x hlo hhi => (hsame _ (.head _) x ⟨hlo, ?_⟩).symm
    rwa [Idt.length_bytes] at hhi
  gdt := by
    refine h.gdt.congr fun x hlo hhi => (hsame _ (.tail _ (.head _)) x ⟨hlo, ?_⟩).symm
    rw [Gdt.length_segmentBytes] at hhi
    exact hhi.trans_le (Nat.add_le_add_left (show 24 ≤ Gdt.size by decide) _)
  tss := by
    obtain ⟨rsp0, ist, hstores, hist⟩ := h.tss
    refine ⟨rsp0, ist, ?_, hist⟩
    refine hstores.congr fun x hlo hhi => ?_
    refine (hsame _ (.tail _ (.tail _ (.head _))) x ⟨hlo, ?_⟩).symm
    rwa [TaskStateSegment64Inner.length_bytes] at hhi

/-- The processor finds the handler of every vector, its code segment and its stack. -/
theorem Loaded.dispatch_eq (h : t.Loaded symbol cpu m) (hlen : t.areas.length = 8) {v : ℕ}
    (hv : v < 0x100) :
    ∃ a, t.areas[istOf v]? = some a ∧
      cpu.dispatch m v = some {
        rip := (symbol (handlerOf v)).toNat
        cs := kernelCs.toNat
        rsp := some (TaskStateSegment64.stackTop a).toNat
        dpl := if v = 3 then 3 else 0 } := by
  have hgate := Idt.gate_eq h.idt hv
  have hist : 0 < istOf v ∧ istOf v < 8 := by
    unfold istOf
    split <;> decide
  obtain ⟨a, ha⟩ : ∃ a, t.areas[istOf v]? = some a :=
    ⟨_, List.getElem?_eq_getElem (by omega)⟩
  refine ⟨a, ha, ?_⟩
  have hcode : cpu.descriptor kernelCs.toNat 8 = some (t.gdt.inner + 8) := by
    rw [Processor.descriptor, h.gdtr]
    rfl
  have htr := h.tr_limit
  have hlimit : 16 * v + 16 ≤ cpu.idtr.limit + 1 := by
    rw [h.idtr]
    dsimp only
    omega
  have hbase : cpu.idtr.base = t.idt := by rw [h.idtr]
  rw [← hbase] at hgate
  rw [Processor.dispatch_eq hlimit hgate ⟨rfl, rfl⟩ hcode (Gdt.segments_eq h.gdt).1 hist.1
    (by unfold TaskStateSegment64Inner.size at htr; dsimp only; omega)]
  -- the stack that the gate names is the one that was allocated for it
  obtain ⟨rsp0, ist, hstores, hnames⟩ := h.tss
  have htop := hnames (istOf v) hist.1
  rw [List.getElem?_map, ha, Option.map_some] at htop
  have htop' : ist[istOf v] = TaskStateSegment64.stackTop a := by
    simpa [hist.2] using htop
  rw [h.tr_base, interruptStack_eq hstores hist.1 hist.2]
  exact congrArg _ (Dispatch.ext rfl rfl (congrArg (some ·.toNat) htop') rfl)

end Tables

/-! ## Loading them -/

namespace GdtWrapper

/-- The blocks after `default`. -/
def take (bs : List Block) : Option (List Block) := do
  let bs ← TaskStateSegment64.take bs
  let r ← layout.take bs
  return r.2

/-- The global descriptor table is allocated behind the task state segment. -/
theorem default_follows (h : Owns seed bs as s) :
    Method.Follows (take bs)
      (fun bs' gdt s' => ∃ areas : List Allocation, areas.length = 8 ∧
        (∀ a ∈ areas, TaskStateSegment64.IsStack a) ∧
        TaskStateSegment64.Names s'.heap.mem gdt.tss64 areas ∧
        Stores s'.heap.mem gdt.inner (Gdt.new (BitVec.ofNat 64 gdt.tss64)).bytes ∧
        Owns seed bs' (⟨gdt.inner, layout⟩ :: ⟨gdt.tss64, TaskStateSegment64.layout⟩ ::
          (areas ++ as)) s' ∧ Same seed as s s')
      default s := by
  refine (TaskStateSegment64.new_follows h).bind ?_
  rintro bs₁ tss s₁ ⟨areas, hlen, hareas, hnames, howns, hsame⟩
  let gdt := Gdt.new (BitVec.ofNat 64 tss)
  refine (boxNew_follows howns layout (by decide) gdt.length_bytes.le).bind ?_
  rintro r p s₂ ⟨-, -, hgdt, howns₂, hsame₂⟩
  have hnames₂ := hnames.same hsame₂ List.mem_cons_self
  refine Method.Returns.pure ⟨areas, hlen, hareas, hnames₂, hgdt, howns₂, ?_⟩
  exact hsame.trans (hsame₂.subset fun a ha => .tail _ (List.mem_append_right _ ha))

/-- The table and the task state segment are loaded; only the latter's descriptor changes. -/
theorem load_returns {gdt : GdtWrapper} (h : Owns seed bs (⟨gdt.inner, layout⟩ :: as) s)
    (hstores : Stores s.heap.mem gdt.inner (Gdt.new (BitVec.ofNat 64 gdt.tss64)).bytes)
    (htss : gdt.tss64 < 2 ^ 64) :
    Method.Returns (fun _ u => u.2.gdtr = { limit := 39, base := gdt.inner } ∧
        u.2.tr.base = gdt.tss64 ∧ TaskStateSegment64Inner.size ≤ u.2.tr.limit ∧
        Stores u.1.heap.mem gdt.inner (Gdt.new (BitVec.ofNat 64 gdt.tss64)).segmentBytes ∧
        Owns seed bs (⟨gdt.inner, layout⟩ :: as) u.1 ∧ Same seed as s u.1)
      gdt.load (s, cpu) := by
  rw [Gdt.bytes, Packed.Stores.append_iff, Gdt.length_segmentBytes] at hstores
  obtain ⟨hfirst, hsegment⟩ := hstores
  obtain ⟨hbase, hlimit, haccess⟩ := taskStateSegment_eq hsegment
  have hdesc : ({ cpu with gdtr := { limit := 39, base := gdt.inner } } :
      Processor).descriptor tss64Sel.toNat 16 = some (gdt.inner + 24) :=
    Processor.descriptor_eq (by decide) (show 40 ≤ 39 + 1 by decide)
  have hlgdt : Boot.lgdt (BitVec.ofNat 16 (Gdt.size - 1)).toNat gdt.inner (s, cpu) =
      .ok ⟨⟩ (s, { cpu with gdtr := { limit := 39, base := gdt.inner } }) := rfl
  -- the processor marks the descriptor busy, which is behind the others
  have hout : ∀ x, x ∉ (Allocation.mk gdt.inner layout).bytes →
      writeLE s.heap.mem (gdt.inner + 24 + 5) 1 0x8b x = s.heap.mem x := by
    intro x hx
    apply Bytes.writeLE_of_not_mem
    by_contra hin
    refine hx ⟨?_, ?_⟩
    · show gdt.inner ≤ x
      omega
    · show x < gdt.inner + 40
      omega
  obtain ⟨howns, hsame⟩ := h.write hout
  rw [Method.Returns, load, Method.bind_of_ok hlgdt, Boot.ltr_run hdesc haccess]
  refine ⟨⟨⟩, _, rfl, rfl, ?_, hlimit, ?_, howns, hsame⟩
  · show tssBase s.heap.mem (gdt.inner + 24) = gdt.tss64
    rw [hbase, BitVec.toNat_ofNat, Nat.mod_eq_of_lt htss]
  · refine hfirst.congr fun x _ hhi => ?_
    rw [Gdt.length_segmentBytes] at hhi
    exact (Bytes.writeLE_of_not_mem (.inl (by omega))).symm

end GdtWrapper

/-- The blocks after `init_exceptions`. -/
def initExceptionsTake (bs : List Block) : Option (List Block) := do
  let bs ← GdtWrapper.take bs
  let r ← Idt.layout.take bs
  return r.2

/-- The selectors that `init_exceptions` loads. -/
def KernelSegments (cpu : Processor) : Prop :=
  cpu.segment .cs = kernelCs ∧ ∀ r, r ≠ .cs → cpu.segment r = kernelDs

/-- The gates are allocated and loaded. -/
theorem Idt.new_follows (symbol : Handler → BitVec 64) (selector : BitVec 16) (cpu : Processor)
    (h : Owns seed bs as s) :
    Method.Follows (layout.take bs)
      (fun r base u => Stores u.1.heap.mem base (bytes (entries symbol selector)) ∧
        Owns seed r.2 (⟨base, layout⟩ :: as) u.1 ∧ Same seed as s u.1 ∧
        u.2 = { cpu with idtr := { limit := 0x1000, base } })
      (new symbol selector) (s, cpu) := by
  have hlen := length_bytes (entries symbol selector)
  refine ((boxNew_follows h layout (by decide) hlen.le).onFst cpu).bind_returns ?_
  rintro r base ⟨s₁, cpu₁⟩ ⟨⟨-, -, hstores, howns, hsame⟩, rfl⟩
  rw [hlen]
  exact ⟨base, _, rfl, hstores, howns, hsame, rfl⟩

/-- Where there is room, the tables are loaded, and what the others own stays as it is. -/
theorem init_follows (symbol : Handler → BitVec 64) (cpu : Processor) (h : Owns seed bs as s) :
    Method.Follows (initExceptionsTake bs)
      (fun bs' r u => ∃ t : Tables, r = (t.gdt, t.idt) ∧ t.areas.length = 8 ∧
        (∀ a ∈ t.areas, TaskStateSegment64.IsStack a) ∧ t.Loaded symbol u.2 u.1.heap.mem ∧
        KernelSegments u.2 ∧ Owns seed bs' (t.tables ++ (t.areas ++ as)) u.1 ∧ Same seed as s u.1)
      (initExceptions symbol) (s, cpu) := by
  refine ((GdtWrapper.default_follows h).onFst cpu).bind ?_
  rintro bs₁ gdt ⟨s₁, cpu₁⟩ ⟨⟨areas, hlen, hareas, hnames, hgdt, howns, hsame⟩, rfl⟩
  have htss : gdt.tss64 < 2 ^ 64 := howns.ptr_lt (.tail _ (.head _))
  refine Method.Follows.returns_bind (GdtWrapper.load_returns howns hgdt htss) ?_
  rintro - ⟨s₂, cpu₂⟩ ⟨hgdtr, hbase, hlimit, hgdt₂, howns₂, hsame₂⟩
  -- the six selectors are loaded from the table
  obtain ⟨hcode, hdata⟩ := Gdt.segments_eq hgdt₂
  have hselector : ∀ segment selector, 0 < selector / 8 * 8 → selector / 8 * 8 + 8 ≤ 40 →
      ({ cpu₂ with segment } : Processor).descriptor selector 8 =
        some (gdt.inner + selector / 8 * 8) := by
    intro segment selector hpos hsize
    rw [Processor.descriptor_eq hpos (by rwa [hgdtr]), hgdtr]
  have hcode' := fun segment => hselector segment kernelCs.toNat (by decide) (by decide)
  have hdata' := fun segment => hselector segment kernelDs.toNat (by decide) (by decide)
  refine Boot.follows_writeSegment (hcode' _) hcode ?_
  refine Boot.follows_writeSegment (hdata' _) hdata ?_
  refine Boot.follows_writeSegment (hdata' _) hdata ?_
  refine Boot.follows_writeSegment (hdata' _) hdata ?_
  refine Boot.follows_writeSegment (hdata' _) hdata ?_
  refine Boot.follows_writeSegment (hdata' _) hdata ?_
  refine (Idt.new_follows symbol kernelCs _ howns₂).bind ?_
  rintro r idt ⟨s₃, cpu₃⟩ ⟨hidt, howns₃, hsame₃, rfl⟩
  have hle : (Gdt.new (BitVec.ofNat 64 gdt.tss64)).segmentBytes.length ≤ Gdt.size := by
    rw [Gdt.length_segmentBytes]
    decide
  have hgdt₃ := hsame₃.stores (.head _) hle hgdt₂
  have hnames₃ := (hnames.same hsame₂ (.head _)).same hsame₃ (.tail _ (.head _))
  refine Method.Returns.pure ⟨⟨idt, gdt, areas⟩, rfl, hlen, hareas,
    ⟨hgdtr, rfl, hbase, hlimit, hidt, hgdt₃, hnames₃⟩, ?_, howns₃, ?_⟩
  · refine ⟨rfl, fun r hr => ?_⟩
    cases r with
    | cs => exact absurd rfl hr
    | es | ss | ds | fs | gs => rfl
  · have hrest : as ⊆ ⟨gdt.tss64, TaskStateSegment64.layout⟩ :: (areas ++ as) :=
      fun a ha => .tail _ (List.mem_append_right _ ha)
    exact (hsame.trans (hsame₂.subset hrest)).trans (hsame₃.subset fun a ha => .tail _ (hrest ha))

/-- The bytes that the stacks and the tables take in the heap, with their headers. -/
def exceptionsRoom : ℕ :=
  2 ^ 12 + 32 + (2 ^ 6 + 32) + (2 ^ 7 + 32) + 7 * (2 ^ 16 + 32) + (2 ^ 16 + 32)

/-- Where there is room for the stacks, they are allocated. -/
theorem TaskStateSegment64.istTake_of_room {n : ℕ} (k : ℕ)
    (h : Layout.HasRoom (n + k * (2 ^ 16 + 32)) bs) :
    ∃ bs', istTake k bs = some bs' ∧ Layout.HasRoom n bs' := by
  induction k generalizing n with
  | zero => exact ⟨bs, rfl, h⟩
  | succ k ih =>
    rw [Nat.succ_mul, Nat.add_comm (k * _), ← Nat.add_assoc] at h
    obtain ⟨bs₁, htake, hroom⟩ := ih h
    obtain ⟨r, hstack, hrest⟩ := Layout.take_of_room stackLayout 16 (by decide)
      (by decide) (by decide) hroom
    exact ⟨r.2, by simp [istTake, htake, hstack], hrest⟩

/-- One free block that is large enough has room for everything. -/
theorem initExceptionsTake_of_room (h : Layout.HasRoom exceptionsRoom bs) :
    ∃ bs', initExceptionsTake bs = some bs' := by
  obtain ⟨r, hrsp0, h⟩ := Layout.take_of_room TaskStateSegment64.stackLayout 16
    (by decide) (by decide) (by decide) h
  obtain ⟨bs₁, hist, h⟩ := TaskStateSegment64.istTake_of_room 7 h
  obtain ⟨r₂, htss, h⟩ := Layout.take_of_room TaskStateSegment64.layout 7
    (by decide) (by decide) (by decide) h
  obtain ⟨r₃, hgdt, h⟩ := Layout.take_of_room GdtWrapper.layout 6
    (by decide) (by decide) (by decide) h
  have hidt : Layout.HasRoom (0 + (2 ^ 12 + 32)) r₃.2 := by rwa [Nat.zero_add]
  obtain ⟨r₄, hidt, -⟩ := Layout.take_of_room Idt.layout 12 (by decide)
    (by decide) (by decide) hidt
  exact ⟨r₄.2, by simp [initExceptionsTake, GdtWrapper.take, TaskStateSegment64.take, hrsp0, hist,
    htss, hgdt, hidt]⟩

/-! ## Interrupts -/

/-- How the processor serves the vector `v` from a memory: with its handler in ring 0, on the stack
of the vector, and the handler is an entry point that expects what the processor pushes. -/
structure Serves (symbol : Handler → BitVec 64) (areas : List Allocation) (cpu : Processor)
    (m : Memory) (v : ℕ) : Prop where
  dispatch : ∃ a, areas[istOf v]? = some a ∧
    cpu.dispatch m v = some {
      rip := (symbol (handlerOf v)).toNat
      cs := kernelCs.toNat
      rsp := some (a.ptr + a.layout.size)
      dpl := if v = 3 then 3 else 0 }
  code : ∀ e : Entry, e.At v → ∀ code, (handlerOf v).code = some code →
    code = e.stub (BitVec.ofNat 64 v) ++ inthandlerCommon

/-- What `init_exceptions` leaves when it started from the state `s`. -/
structure Installed (symbol : Handler → BitVec 64) (s : HeapSystem) (t : Tables) (u : Boot) :
    Prop where
  /-- Eight stacks of 64 KiB whose ends are aligned. -/
  length_areas : t.areas.length = 8
  area : ∀ a ∈ t.areas, a.layout.size = 64 * 1024 ∧ (a.ptr + a.layout.size) % 16 = 0
  /-- The tables, the stacks and what was allocated before do not overlap. -/
  live : ∀ a ∈ t.tables ++ (t.areas ++ s.live), a ∈ u.1.live
  apart : (t.tables ++ (t.areas ++ s.live)).Pairwise fun a a' => a.bytes.Apart a'.bytes
  same : ∀ a ∈ s.live, ∀ x ∈ a.bytes, u.1.heap.mem x = s.heap.mem x
  segments : KernelSegments u.2
  /-- However the heap is used afterwards, as long as nobody frees or overwrites the tables. -/
  serves : ∀ actions, (∀ action ∈ actions, HeapSystem.Spares t.tables action) → ∀ v < 0x100,
    Serves symbol t.areas u.2 (Run.exec HeapSystem.step actions u.1).heap.mem v

/-- The tables serve every interrupt from every memory to which the others can come. -/
theorem Installed.of_loaded {t : Tables} {u : Boot} {bs' : List Block}
    (hlen : t.areas.length = 8) (hareas : ∀ a ∈ t.areas, TaskStateSegment64.IsStack a)
    (hloaded : t.Loaded symbol u.2 u.1.heap.mem) (hsegments : KernelSegments u.2)
    (h : Owns seed bs' (t.tables ++ (t.areas ++ s.live)) u.1) (hsame : Same seed s.live s u.1) :
    Installed symbol s t u where
  length_areas := hlen
  area a ha := by
    obtain ⟨hlayout, hmod⟩ := hareas a ha
    rw [hlayout]
    refine ⟨rfl, ?_⟩
    show (a.ptr + 65536) % 16 = 0
    omega
  live := h.live
  apart := h.pairwise_apart
  same := hsame.bytes
  segments := hsegments
  serves after hspares v hv := by
    obtain ⟨-, htables⟩ := (h.sublist (List.sublist_append_left _ _)).spared_exec hspares
    obtain ⟨a, ha, hdispatch⟩ := (hloaded.congr htables.bytes).dispatch_eq hlen hv
    have hmem : a ∈ t.areas := List.mem_of_getElem? ha
    have hend := h.end_lt (List.mem_append_right _ (List.mem_append_left _ hmem))
    have hsize : a.layout.size = TaskStateSegment64.handlerStackSize := by
      rw [(hareas a hmem).1]
      rfl
    -- the end of the stack is an address of 64 bits
    have htop : (TaskStateSegment64.stackTop a).toNat = a.ptr + a.layout.size := by
      rw [TaskStateSegment64.stackTop, BitVec.toNat_ofNat, ← hsize, Nat.mod_eq_of_lt hend]
    rw [htop] at hdispatch
    exact ⟨⟨a, ha, hdispatch⟩, fun e he code hcode => code_handlerOf he hcode⟩

/-- After any run of the clients of the allocator, `init_exceptions` returns only with tables from
which the processor serves every interrupt, from then on and whatever else the heap is used for:
it calls the handler of the vector, in ring 0, on a stack that overlaps nothing, and a double fault
has another stack than all other vectors. With a free block that is large enough it does return. -/
theorem initExceptions_serves (map : MemoryMapHolder) (hmap : map.Usable) (mem : Memory)
    (actions : List HeapAction) (symbol : Handler → BitVec 64) (cpu : Processor) :
    ∃ heap, FirstFitAllocator.initWithMmap map { mem, firstHeader := 0 } = .ok () heap ∧
      let s := Run.exec HeapSystem.step actions (HeapSystem.start heap)
      (∀ gdt idt u, initExceptions symbol (s, cpu) = .ok (gdt, idt) u →
        ∃ areas, Installed symbol s ⟨idt, gdt, areas⟩ u) ∧
      ∃ bs, s.heap.Represents bs ∧
        ((∃ b ∈ bs, b.isAllocated = false ∧ exceptionsRoom + 64 ≤ b.size) →
          ∃ r u, initExceptions symbol (s, cpu) = .ok r u) := by
  obtain ⟨heap, hrun, hstart⟩ := HeapSystem.sound_start hmap mem
  obtain ⟨pool, hsound⟩ := HeapSystem.sound_exec hstart actions
  have howns : Owns (map.seeding hmap) pool.blocks _ _ :=
    ⟨⟨pool, rfl, hsound⟩, fun _ ha => ha, hsound.distinct⟩
  -- the allocations follow the free blocks, with or without a panic
  have hfollows := init_follows symbol cpu howns
  refine ⟨heap, hrun, ?_, pool.blocks, hsound.represents, ?_⟩
  · intro gdt idt u hinit
    obtain ⟨bs', -, t, ht, hlen, hareas, hloaded, hsegments, howns', hsame⟩ :=
      hfollows.of_ok hinit
    obtain ⟨rfl, rfl⟩ := Prod.mk.inj ht
    exact ⟨t.areas, .of_loaded hlen hareas hloaded hsegments howns' hsame⟩
  · rintro ⟨b, hb, hfree, hsize⟩
    obtain ⟨bs', htake⟩ := initExceptionsTake_of_room ⟨b, hb, hfree, pool.granular b hb, hsize⟩
    obtain ⟨r, u, hinit, -⟩ := hfollows.returns htake
    exact ⟨r, u, hinit⟩

/-- A memory map with 256 pages of conventional memory and nothing else. -/
def oneMebibyte : MemoryMapHolder where
  memoryMapBuffer :=
    let buffer := writeLE (fun _ => 0) 0 8 EfiMemoryType.conventionalMemory.discriminant
    let buffer := writeLE buffer 8 8 0x100000
    writeLE buffer 24 8 256
  memoryMapSize := 48
  descriptorSize := 48

theorem oneMebibyte_usable : oneMebibyte.Usable where
  descriptorSize_pos := by decide
  aligned := by decide
  below := by decide
  apart := by decide

/-- The processor before it has any tables. -/
def resetProcessor : Processor where
  gdtr := { limit := 0, base := 0 }
  idtr := { limit := 0, base := 0 }
  tr := { limit := 0, base := 0 }
  segment := fun _ => 0

/-- Handlers at fixed addresses, on a heap of one mebibyte from which a page was taken. -/
theorem initExceptions_serves_oneMebibyte :
    ∃ heap, FirstFitAllocator.initWithMmap oneMebibyte { mem := fun _ => 0, firstHeader := 0 } =
        .ok () heap ∧
      let s := Run.exec HeapSystem.step [.alloc (.packed 4096 (by decide))] (HeapSystem.start heap)
      (∀ gdt idt u, initExceptions (fun _ => 0x401000) (s, resetProcessor) = .ok (gdt, idt) u →
        ∃ areas, Installed (fun _ => 0x401000) s ⟨idt, gdt, areas⟩ u) ∧
      ∃ bs, s.heap.Represents bs ∧
        ((∃ b ∈ bs, b.isAllocated = false ∧ exceptionsRoom + 64 ≤ b.size) →
          ∃ r u, initExceptions (fun _ => 0x401000) (s, resetProcessor) = .ok r u) :=
  initExceptions_serves oneMebibyte oneMebibyte_usable _ _ _ _

end Mushix.X86
