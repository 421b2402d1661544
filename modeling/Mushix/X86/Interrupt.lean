import Mushix.Lib.BitField
import Mushix.X86.Machine

/-!
# Interrupt entry points

How an interrupt is entered and left (`x86.rs`): the processor pushes the interrupted context, the
entry point and `inthandler_common` push the registers in the order of `InterruptInfo`, and after
`inthandler` everything is popped again.

* `InterruptInfo.read`: the structure as `inthandler` reads it;
* `Entry.stub`, `inthandlerCommon`: the code;
* `Sysv64`: what is relied on about `inthandler`;
* `interrupt_served`: what `inthandler` gets, and that the interrupted state is restored.
-/

namespace Mushix.X86

open Stack (Memory Holds load store word)

/-! ## The layout of `InterruptInfo` -/

/-- The offsets of the fields of a `repr(C)` structure from `start` on, by their sizes and
alignments. -/
def reprC : ℕ → List (ℕ × ℕ) → List ℕ
  | _, [] => []
  | start, (size, align) :: fields =>
    let offset := (start + align - 1) / align * align
    offset :: reprC (offset + size) fields

/-- The `u64` number `i` from `a` on. -/
def slot (m : Memory 64) (a : BitVec 64) (i : ℕ) : BitVec 64 := word m (a + BitVec.ofNat 64 (8 * i))

/-- The general registers as the entry code saves them. -/
@[ext]
structure GeneralRegisterContext where
  rax : BitVec 64
  rdx : BitVec 64
  rbx : BitVec 64
  rbp : BitVec 64
  rsi : BitVec 64
  rdi : BitVec 64
  r8 : BitVec 64
  r9 : BitVec 64
  r10 : BitVec 64
  r11 : BitVec 64
  r12 : BitVec 64
  r13 : BitVec 64
  r14 : BitVec 64
  r15 : BitVec 64
  rcx : BitVec 64

/-- The structure at the address `a`. -/
def GeneralRegisterContext.read (m : Memory 64) (a : BitVec 64) : GeneralRegisterContext where
  rax := slot m a 0
  rdx := slot m a 1
  rbx := slot m a 2
  rbp := slot m a 3
  rsi := slot m a 4
  rdi := slot m a 5
  r8 := slot m a 6
  r9 := slot m a 7
  r10 := slot m a 8
  r11 := slot m a 9
  r12 := slot m a 10
  r13 := slot m a 11
  r14 := slot m a 12
  r15 := slot m a 13
  rcx := slot m a 14

/-- What the processor pushes before it calls a handler. -/
@[ext]
structure InterruptContext where
  rip : BitVec 64
  cs : BitVec 64
  rflags : BitVec 64
  rsp : BitVec 64
  ss : BitVec 64

/-- The structure at the address `a`. -/
def InterruptContext.read (m : Memory 64) (a : BitVec 64) : InterruptContext where
  rip := slot m a 0
  cs := slot m a 1
  rflags := slot m a 2
  rsp := slot m a 3
  ss := slot m a 4

/-- `InterruptInfo`, without the image of the FPU and `_dummy` behind it. -/
structure InterruptInfo where
  greg : GeneralRegisterContext
  errorCode : BitVec 64
  ctx : InterruptContext

namespace InterruptInfo

/-- The offsets of `fpu_context`, `_dummy`, `greg`, `error_code` and `ctx`. -/
def offsets : List ℕ := reprC 0 [(512, 1), (8, 8), (15 * 8, 8), (8, 8), (5 * 8, 8)]

/-- `size_of::<InterruptInfo>()`, as it is asserted. -/
def size : ℕ := (16 + 4 + 1) * 8 + 8 + 512

/-- The structure at the address `a`. -/
def read (m : Memory 64) (a : BitVec 64) : InterruptInfo where
  greg := .read m (a + BitVec.ofNat 64 (offsets.getD 2 0))
  errorCode := word m (a + BitVec.ofNat 64 (offsets.getD 3 0))
  ctx := .read m (a + BitVec.ofNat 64 (offsets.getD 4 0))

/-- The offsets of the fields, as the code uses them. -/
theorem offsets_eq : offsets = [0, 512, 520, 640, 648] := by decide

end InterruptInfo

/-! ## The code -/

/-- `interrupt_entrypoint`, as far as `jmp inthandler_common`. -/
def interruptEntrypoint (index : BitVec 64) : List Instr :=
  [.pushImm 0, .push .rcx, .movImm .rcx index]

/-- `interrupt_entrypoint_with_ecode`, as far as `jmp inthandler_common`. -/
def interruptEntrypointWithEcode (index : BitVec 64) : List Instr :=
  [.push .rcx, .movImm .rcx index]

/-- `inthandler_common` in front of `fxsave64`. -/
def saveRegisters : List Instr :=
  [.push .r15, .push .r14, .push .r13, .push .r12, .push .r11, .push .r10, .push .r9, .push .r8,
    .push .rdi, .push .rsi, .push .rbp, .push .rbx, .push .rdx, .push .rax, .sub .rsp (512 + 8)]

/-- `inthandler_common` from `fxsave64` to the call. -/
def prepareCall : List Instr :=
  [.fxsave64, .mov .rdi .rsp, .mov .rbp .rsp, .and .rsp (-16), .mov .rsi .rcx]

/-- `inthandler_common` behind the call, up to `iretq`. -/
def restoreRegisters : List Instr :=
  [.mov .rsp .rbp, .fxrstor64, .add .rsp (512 + 8), .pop .rax, .pop .rdx, .pop .rbx, .pop .rbp,
    .pop .rsi, .pop .rdi, .pop .r8, .pop .r9, .pop .r10, .pop .r11, .pop .r12, .pop .r13, .pop .r14,
    .pop .r15, .pop .rcx, .add .rsp 8]

/-- The code that all entry points jump to, up to `iretq`. -/
def inthandlerCommon : List Instr := saveRegisters ++ (prepareCall ++ .call :: restoreRegisters)

/-- `iretq`: the context that it loads. -/
def iretq (s : Machine) : InterruptContext := .read s.mem (s.reg .rsp)

/-- The two kinds of entry points. -/
inductive Entry where
  | plain
  /-- The processor pushes an error code. -/
  | withEcode (code : BitVec 64)

namespace Entry

/-- The entry point of a vector. -/
def stub : Entry → BitVec 64 → List Instr
  | plain => interruptEntrypoint
  | withEcode _ => interruptEntrypointWithEcode

/-- The error code, which is a dummy where the processor pushes none. -/
def errorCode : Entry → BitVec 64
  | plain => 0
  | withEcode code => code

/-- The processor enters an interrupt: it pushes the interrupted context, and the error code where
there is one, on the stack that ends at `top`. -/
def deliver (e : Entry) (top : BitVec 64) (ctx : InterruptContext) (s : Machine) : Machine :=
  (s.set .rsp top).pushWords ([ctx.ss, ctx.rsp, ctx.rflags, ctx.cs, ctx.rip] ++
    match e with
    | plain => []
    | withEcode code => [code])

end Entry

/-- The interrupted registers. -/
def Machine.greg (s : Machine) : GeneralRegisterContext where
  rax := s.reg .rax
  rdx := s.reg .rdx
  rbx := s.reg .rbx
  rbp := s.reg .rbp
  rsi := s.reg .rsi
  rdi := s.reg .rdi
  r8 := s.reg .r8
  r9 := s.reg .r9
  r10 := s.reg .r10
  r11 := s.reg .r11
  r12 := s.reg .r12
  r13 := s.reg .r13
  r14 := s.reg .r14
  r15 := s.reg .r15
  rcx := s.reg .rcx

/-- The registers that a function of the System V calling convention preserves. -/
def calleeSaved : List Reg := [.rbx, .rbp, .r12, .r13, .r14, .r15]

/-- How `inthandler` is called: the stack is aligned in front of the return address, and its first
argument is the structure that lies there. -/
structure Called (s : Machine) : Prop where
  aligned : (s.reg .rsp + 8#64).toNat % 16 = 0
  rdi_eq : s.reg .rdi = s.reg .rsp + 8#64

/-- `extern "sysv64" fn inthandler(info: &InterruptInfo, index: usize)`: what is relied on when it
returns. -/
structure Sysv64 (inthandler : Machine → Option Machine) : Prop where
  saved (s s' : Machine) : Called s → inthandler s = some s' → ∀ r ∈ calleeSaved, s'.reg r = s.reg r
  /-- The reference is a shared one, so that nothing is written through it. -/
  info (s s' : Machine) : Called s → inthandler s = some s' → ∀ i < InterruptInfo.size,
    s'.mem (s.reg .rdi + BitVec.ofNat 64 i) = s.mem (s.reg .rdi + BitVec.ofNat 64 i)

/-! ## The frame -/

/-- The registers that are popped, in this order. -/
def poppedRegs : List Reg :=
  [.rax, .rdx, .rbx, .rbp, .rsi, .rdi, .r8, .r9, .r10, .r11, .r12, .r13, .r14, .r15, .rcx]

/-- The words above the image of the FPU. -/
def frameWords (s : Machine) (code : BitVec 64) (ctx : InterruptContext) : List (BitVec 64) :=
  poppedRegs.map s.reg ++ [code, ctx.rip, ctx.cs, ctx.rflags, ctx.rsp, ctx.ss]

variable {inthandler : Machine → Option Machine} {ret index top code : BitVec 64} {e : Entry}
  {ctx : InterruptContext} {m : Memory 64} {s s' t : Machine} {a : BitVec 64}

/-- A slot of a stack. -/
theorem slot_eq {vs : List (BitVec 64)} (h : Holds m a vs) (i : ℕ) {v : BitVec 64}
    (hget : vs[i]? = some v) : slot m a i = v :=
  h.word_at hget

theorem InterruptContext.read_eq
    (h : Holds m a [ctx.rip, ctx.cs, ctx.rflags, ctx.rsp, ctx.ss]) : .read m a = ctx :=
  InterruptContext.ext (slot_eq h 0 rfl) (slot_eq h 1 rfl) (slot_eq h 2 rfl) (slot_eq h 3 rfl)
    (slot_eq h 4 rfl)

/-- The registers are read as they were pushed. -/
theorem GeneralRegisterContext.read_eq (h : Holds m a (poppedRegs.map s.reg)) :
    .read m a = s.greg :=
  GeneralRegisterContext.ext (slot_eq h 0 rfl) (slot_eq h 1 rfl) (slot_eq h 2 rfl)
    (slot_eq h 3 rfl) (slot_eq h 4 rfl) (slot_eq h 5 rfl) (slot_eq h 6 rfl) (slot_eq h 7 rfl)
    (slot_eq h 8 rfl) (slot_eq h 9 rfl) (slot_eq h 10 rfl) (slot_eq h 11 rfl) (slot_eq h 12 rfl)
    (slot_eq h 13 rfl) (slot_eq h 14 rfl)

/-- The words that the processor and the code push are the fields of an `InterruptInfo`. -/
theorem InterruptInfo.read_eq
    (h : Holds m (a + BitVec.ofNat 64 520) (frameWords s code ctx)) :
    InterruptInfo.read m a = { greg := s.greg, errorCode := code, ctx := ctx } := by
  obtain ⟨hgreg, hrest⟩ := Holds.append_iff.1 h
  have hlen : (poppedRegs.map s.reg).length = 15 := rfl
  rw [hlen, BitVec.add_assoc, ← BitVec.ofNat_add] at hrest
  obtain ⟨hcode, hctx⟩ := hrest
  rw [BitVec.add_assoc, ← BitVec.ofNat_add] at hctx
  rw [InterruptInfo.read, InterruptInfo.offsets_eq]
  simp only [List.getD_cons_succ, List.getD_cons_zero]
  rw [GeneralRegisterContext.read_eq hgreg, InterruptContext.read_eq hctx, hcode]

/-! ## Entering and leaving -/

namespace Entry

/-- The words that are pushed in front of `inthandler_common`. -/
def words (e : Entry) (ctx : InterruptContext) (s : Machine) : List (BitVec 64) :=
  [ctx.ss, ctx.rsp, ctx.rflags, ctx.cs, ctx.rip, e.errorCode, s.reg .rcx]

/-- The entry point leaves the interrupted context, the error code and `rcx` on the stack. -/
theorem run_stub (e : Entry) (index top : BitVec 64) (ctx : InterruptContext) (s : Machine) :
    Machine.run inthandler ret (e.stub index) (e.deliver top ctx s) =
      .ok (((s.set .rsp top).pushWords (e.words ctx s)).set .rcx index) := by
  cases e <;> rfl

end Entry

/-- The registers in the order in which they are pushed, behind `rcx`. -/
def savedRegs : List Reg :=
  [.r15, .r14, .r13, .r12, .r11, .r10, .r9, .r8, .rdi, .rsi, .rbp, .rbx, .rdx, .rax]

/-- The code in front saves a list of registers. -/
theorem saveRegisters_eq : saveRegisters = savedRegs.map .push ++ [.sub .rsp (512 + 8)] := rfl

/-- The code behind the call restores a list of registers. -/
theorem restoreRegisters_eq : restoreRegisters =
    [.mov .rsp .rbp, .fxrstor64, .add .rsp (512 + 8)] ++
      (poppedRegs.map .pop ++ [.add .rsp 8]) := rfl

theorem mem_poppedRegs {r : Reg} (h : r ≠ .rsp) : r ∈ poppedRegs := by
  cases r <;> first | exact absurd rfl h | decide

/-- RSP and RCX are not among those that are saved here. -/
theorem ne_of_mem_savedRegs {r : Reg} (h : r ∈ savedRegs) : r ≠ .rsp ∧ r ≠ .rcx := by
  revert h
  cases r <;> decide

/-- In front of `fxsave64` the whole frame is on the stack, with room for the image of the FPU. -/
theorem run_save (inthandler : Machine → Option Machine) (ret : BitVec 64) (e : Entry)
    (index top : BitVec 64) (ctx : InterruptContext) (s : Machine) :
    ∃ t, Machine.run inthandler ret (e.stub index ++ saveRegisters) (e.deliver top ctx s) = .ok t ∧
      t.reg .rsp = top - BitVec.ofNat 64 688 ∧ t.reg .rcx = index ∧ t.fpu = s.fpu ∧
      Holds t.mem (t.reg .rsp + BitVec.ofNat 64 520) (frameWords s e.errorCode ctx) := by
  obtain ⟨hrsp, hreg, hfpu, hholds⟩ := Machine.pushWords_spec (s := s.set .rsp top) (e.words ctx s)
    (show Holds _ _ [] from trivial) (by simp [Entry.words])
  let s₁ := ((s.set .rsp top).pushWords (e.words ctx s)).set .rcx index
  -- seven words are on the stack, and only `rsp` and `rcx` have changed
  have hrsp₁ : s₁.reg .rsp = top - BitVec.ofNat 64 56 := hrsp
  have hreg₁ : ∀ r ∈ savedRegs, s₁.reg r = s.reg r := by
    intro r hr
    obtain ⟨hne, hne'⟩ := ne_of_mem_savedRegs hr
    rw [Machine.set_reg_of_ne _ _ hne', hreg r hne, Machine.set_reg_of_ne _ _ hne]
  obtain ⟨hrsp₂, hreg₂, hfpu₂, hholds₂⟩ := Machine.pushWords_spec (s := s₁)
    (savedRegs.map s₁.reg) hholds (by simp [savedRegs, Entry.words])
  let s₂ := s₁.pushWords (savedRegs.map s₁.reg)
  refine ⟨s₂.set .rsp (s₂.reg .rsp - (512 + 8)), ?_, ?_, ?_, ?_, ?_⟩
  · rw [Machine.run_append_of_ok (e.run_stub index top ctx s), saveRegisters_eq,
      Machine.run_append_of_ok (Machine.run_pushes (by decide) s₁)]
    rfl
  · have hlen : (savedRegs.map s₁.reg).length = 14 := rfl
    rw [Machine.set_reg_self, hrsp₂, hrsp₁, hlen, BitVec.sub_sub, BitVec.sub_sub]
    exact congrArg (top - ·) (by decide)
  · rw [Machine.set_reg_of_ne _ _ (by decide), hreg₂ _ (by decide)]
    exact Machine.set_reg_self _ _ _
  · exact hfpu₂.trans hfpu
  · have hwords : (savedRegs.map s₁.reg).reverse ++ ((e.words ctx s).reverse ++ []) =
        frameWords s e.errorCode ctx := by
      rw [List.map_congr_left hreg₁]
      rfl
    rw [hwords] at hholds₂
    rw [Machine.set_reg_self, Machine.set_mem,
      show (512 + 8 : BitVec 64) = BitVec.ofNat 64 520 by rfl, BitVec.sub_add_cancel]
    exact hholds₂

/-- Up to the call the image of the FPU is stored, and the arguments are passed. -/
theorem run_prepare (inthandler : Machine → Option Machine) (ret : BitVec 64) {t : Machine}
    (haligned : t.Aligned) :
    ∃ u, Machine.run inthandler ret prepareCall t = .ok u ∧ u.reg .rsp = t.reg .rsp ∧
      u.reg .rdi = t.reg .rsp ∧ u.reg .rbp = t.reg .rsp ∧ u.reg .rsi = t.reg .rcx ∧
      u.mem = store t.mem (t.reg .rsp) 464 t.fpu.toNat := by
  -- the stack is aligned already, so that `and rsp, -16` changes nothing
  have hmask : t.reg .rsp &&& -16 = t.reg .rsp := by
    apply BitVec.eq_of_toNat_eq
    rw [show (-16 : BitVec 64) = ~~~BitField.lowMask 64 4 by decide,
      BitField.toNat_and_not_lowMask (by decide)]
    have hzero : (t.reg .rsp).toNat % 2 ^ 4 = 0 := haligned
    rw [hzero, Nat.sub_zero]
  refine ⟨((((Machine.set { t with mem := store t.mem (t.reg .rsp) 464 t.fpu.toNat }
    .rdi (t.reg .rsp)).set .rbp (t.reg .rsp)).set .rsp (t.reg .rsp &&& -16)).set .rsi
    (t.reg .rcx)), ?_, ?_, rfl, rfl, rfl, rfl⟩
  · rw [prepareCall, Machine.run_cons, Machine.exec, if_pos haligned]
    rfl
  · exact hmask

/-- Behind the call everything is popped. -/
theorem run_restore (inthandler : Machine → Option Machine) (ret : BitVec 64) {u : Machine}
    (hrbp : u.reg .rbp = a) (haligned : a.toNat % 16 = 0)
    (h : Holds u.mem (a + BitVec.ofNat 64 520) (frameWords s code ctx))
    (hfpu : load u.mem a 464 = s.fpu.toNat) :
    ∃ v, Machine.run inthandler ret restoreRegisters u = .ok v ∧
      (∀ r, r ≠ .rsp → v.reg r = s.reg r) ∧ v.reg .rsp = a + BitVec.ofNat 64 648 ∧
      v.fpu = s.fpu ∧ iretq v = ctx := by
  -- in front of the pops, with the stack pointer from `rbp` and above the image of the FPU
  let u₁ : Machine := (Machine.set { u.set .rsp a with fpu := s.fpu } .rsp (a + (512 + 8)))
  have hfirst : Machine.run inthandler ret [.mov .rsp .rbp, .fxrstor64, .add .rsp (512 + 8)] u =
      .ok u₁ := by
    have hrsp : (u.set .rsp a).reg .rsp = a := Machine.set_reg_self _ _ _
    have hok : (u.set .rsp a).Aligned := by
      rw [Machine.Aligned, hrsp]
      exact haligned
    rw [Machine.run_cons, Machine.exec, hrbp]
    change Machine.run inthandler ret [.fxrstor64, .add .rsp (512 + 8)] (u.set .rsp a) = _
    rw [Machine.run_cons, Machine.exec, if_pos hok, hrsp, Machine.set_mem, hfpu, BitVec.ofNat_toNat,
      BitVec.setWidth_eq]
    change Except.ok (Machine.set { u.set .rsp a with fpu := s.fpu } .rsp
      ((u.set .rsp a).reg .rsp + (512 + 8))) = _
    rw [hrsp]
  have hrsp₁ : u₁.reg .rsp = a + BitVec.ofNat 64 520 := Machine.set_reg_self _ _ _
  obtain ⟨v, hrun, hrsp, hpopped, -, hmem, hfpu', hholds⟩ :=
    Machine.run_pops inthandler ret (f := s.reg) (s := u₁) (show .rsp ∉ poppedRegs by decide)
      (by decide) (by rw [hrsp₁]; exact h)
  refine ⟨v.set .rsp (v.reg .rsp + 8), ?_, ?_, ?_, ?_, ?_⟩
  · rw [restoreRegisters_eq, Machine.run_append_of_ok hfirst, Machine.run_append_of_ok hrun]
    rfl
  · intro r hr
    rw [Machine.set_reg_of_ne _ _ hr]
    exact hpopped r (mem_poppedRegs hr)
  · rw [Machine.set_reg_self, hrsp, hrsp₁, BitVec.add_assoc, BitVec.add_assoc]
    rfl
  · exact hfpu'
  · rw [iretq, Machine.set_reg_self, Machine.set_mem]
    exact InterruptContext.read_eq hholds.2

/-- The frame and the image of the FPU are left alone by the call. -/
theorem call_frame {u u' : Machine} (hsysv : Sysv64 inthandler) (haligned : u.Aligned)
    (hrdi : u.reg .rdi = u.reg .rsp) (hret : inthandler (u.pushWord ret) = some u')
    (h : Holds u.mem (u.reg .rsp + BitVec.ofNat 64 520) (frameWords s code ctx)) :
    u'.reg .rbp = u.reg .rbp ∧
      Holds u'.mem (u.reg .rsp + BitVec.ofNat 64 520) (frameWords s code ctx) ∧
      load u'.mem (u.reg .rsp) 464 = load u.mem (u.reg .rsp) 464 := by
  have hrsp : (u.pushWord ret).reg .rsp + 8#64 = u.reg .rsp := by
    rw [Machine.pushWord_rsp, BitVec.sub_add_cancel]
  have hrdi' : (u.pushWord ret).reg .rdi = u.reg .rsp := by
    rw [Machine.pushWord_reg_of_ne _ _ (by decide), hrdi]
  have hcall : Called (u.pushWord ret) :=
    ⟨by rw [hrsp]; exact haligned, hrdi'.trans hrsp.symm⟩
  have hlen : (frameWords s code ctx).length = 21 := rfl
  -- the return address lies below the `InterruptInfo`, which is not written
  have hbytes : ∀ i < InterruptInfo.size, u'.mem (u.reg .rsp + BitVec.ofNat 64 i) =
      u.mem (u.reg .rsp + BitVec.ofNat 64 i) := by
    intro i hi
    have hinfo := hsysv.info _ _ hcall hret i hi
    rw [hrdi'] at hinfo
    rw [hinfo]
    exact Stack.store_below le_rfl (by rw [InterruptInfo.size] at hi; omega)
  refine ⟨?_, h.congr fun i hi => ?_, Stack.load_congr fun i hi => hbytes i ?_⟩
  · rw [hsysv.saved _ _ hcall hret .rbp (by decide), Machine.pushWord_reg_of_ne _ _ (by decide)]
  · rw [hlen] at hi
    rw [BitVec.add_assoc, ← BitVec.ofNat_add]
    exact hbytes (520 + i) (by rw [InterruptInfo.size]; omega)
  · rw [InterruptInfo.size]
    omega

/-- What is promised about an interrupt with the vector `index`, whose frame ends at `top`. -/
structure Served (inthandler : Machine → Option Machine) (ret : BitVec 64) (e : Entry)
    (index top : BitVec 64) (ctx : InterruptContext) (s : Machine) : Prop where
  fxsave : ∃ t, Machine.run inthandler ret (e.stub index ++ saveRegisters)
    (e.deliver top ctx s) = .ok t ∧ t.Aligned
  call : ∃ u, Machine.run inthandler ret (e.stub index ++ (saveRegisters ++ prepareCall))
      (e.deliver top ctx s) = .ok u ∧ u.Aligned ∧ u.reg .rsi = index ∧
    InterruptInfo.read u.mem (u.reg .rdi) =
      { greg := s.greg, errorCode := e.errorCode, ctx := ctx } ∧
    (inthandler (u.pushWord ret) = none → Machine.run inthandler ret
      (e.stub index ++ inthandlerCommon) (e.deliver top ctx s) = .error .noReturn) ∧
    ∀ u', inthandler (u.pushWord ret) = some u' →
      ∃ v, Machine.run inthandler ret (e.stub index ++ inthandlerCommon)
          (e.deliver top ctx s) = .ok v ∧
        (∀ r, r ≠ .rsp → v.reg r = s.reg r) ∧ v.reg .rsp = top - 40#64 ∧ v.fpu = s.fpu ∧
        iretq v = ctx

/-- For every state of the registers, both kinds of entry points, every vector and every aligned
frame: when `inthandler` is called, its arguments are the interrupted registers and context with the
error code, and the vector; the stack is aligned for it and for `fxsave64`. If it returns, then at
`iretq` all registers are the interrupted ones again, and the stack pointer points at the saved
`rip`. -/
theorem interrupt_served (hsysv : Sysv64 inthandler) (ret : BitVec 64) (e : Entry)
    (index top : BitVec 64) (htop : top.toNat % 16 = 0) (rip cs rflags ss : BitVec 64)
    (s : Machine) :
    Served inthandler ret e index top { rip, cs, rflags, rsp := s.reg .rsp, ss } s := by
  let ctx : InterruptContext := { rip, cs, rflags, rsp := s.reg .rsp, ss }
  obtain ⟨t, hsave, hrsp, hrcx, hfpu, hholds⟩ := run_save inthandler ret e index top ctx s
  have haligned : t.Aligned := by
    rw [Machine.Aligned, hrsp]
    bv_omega
  obtain ⟨u, hprepare, hursp, hurdi, hurbp, hursi, humem⟩ := run_prepare inthandler ret haligned
  have hualigned : u.Aligned := by
    rw [Machine.Aligned, hursp]
    exact haligned
  -- the image of the FPU is stored below the frame, into the room that was left for it
  have huholds : Holds u.mem (u.reg .rsp + BitVec.ofNat 64 520) (frameWords s e.errorCode ctx) := by
    have hlen : (frameWords s e.errorCode ctx).length = 21 := rfl
    have hstore := hholds.store (n := 464) (v := t.fpu.toNat) (show 464 ≤ 520 by decide)
      (by rw [hlen]; decide)
    rw [add_sub_cancel_right] at hstore
    rw [hursp, humem]
    exact hstore
  have huload : load u.mem (u.reg .rsp) 464 = s.fpu.toNat := by
    rw [humem, hursp, Stack.load_store _ _ (by decide) (Stack.toNat_lt t.fpu), hfpu]
  have hcommon : Machine.run inthandler ret (e.stub index ++ inthandlerCommon)
      (e.deliver top ctx s) = Machine.run inthandler ret (.call :: restoreRegisters) u := by
    rw [inthandlerCommon, ← List.append_assoc, Machine.run_append_of_ok hsave,
      Machine.run_append_of_ok hprepare]
  -- the code up to the call, its argument, and a handler that does not return or returns
  refine ⟨⟨t, hsave, haligned⟩, u, ?_, hualigned, hursi.trans hrcx, ?_, ?_, ?_⟩
  · rw [← List.append_assoc, Machine.run_append_of_ok hsave, hprepare]
  · rw [hurdi, ← hursp]
    exact InterruptInfo.read_eq huholds
  · intro hnone
    rw [hcommon, Machine.run_cons_of_error (Machine.exec_call_of_none hnone)]
  · intro u' hsome
    obtain ⟨hrbp, hframe, hload⟩ :=
      call_frame hsysv hualigned (hurdi.trans hursp.symm) hsome huholds
    obtain ⟨v, hrestore, hreg, hvrsp, hvfpu, hiretq⟩ := run_restore inthandler ret
      (hrbp.trans (hurbp.trans hursp.symm)) hualigned hframe (hload.trans huload)
    refine ⟨v, ?_, hreg, ?_, hvfpu, hiretq⟩
    · rw [hcommon, Machine.run_cons_of_ok (Machine.exec_call_of_some hsome), hrestore]
    · rw [hvrsp, hursp, hrsp]
      bv_omega

/-- Like `inthandler`, it returns for the vectors 3 and 6 only; it overwrites `rax` and the bytes
below its return address. -/
def returningHandler (s : Machine) : Option Machine :=
  if s.reg .rsi = 3 ∨ s.reg .rsi = 6 then
    some (((Machine.set { s with mem := store s.mem (s.reg .rsp - 8#64) 8 0 }
      .rsp (s.reg .rsp + 8#64)).set .rax 0))
  else
    none

/-- A handler that returns at once keeps the calling convention. -/
theorem returningHandler_sysv64 : Sysv64 returningHandler where
  saved s s' _ hret := by
    rw [returningHandler] at hret
    split at hret
    · cases hret
      intro r hr
      have hne : r ≠ .rsp ∧ r ≠ .rax := by
        revert hr
        cases r <;> decide
      rw [Machine.set_reg_of_ne _ _ hne.2, Machine.set_reg_of_ne _ _ hne.1]
    · cases hret
  info s s' hcalled hret := by
    rw [returningHandler] at hret
    split at hret
    · cases hret
      intro i hi
      rw [InterruptInfo.size] at hi
      rw [hcalled.rdi_eq, BitVec.add_assoc, ← BitVec.ofNat_add]
      exact Stack.store_below le_rfl (by omega)
    · cases hret

/-- A machine whose registers are all different. -/
def interrupted : Machine where
  reg
    | .rax => 0xa
    | .rdx => 0xd
    | .rbx => 0xb
    | .rbp => 0xff80
    | .rsi => 0x51
    | .rdi => 0xd1
    | .r8 => 8
    | .r9 => 9
    | .r10 => 10
    | .r11 => 11
    | .r12 => 12
    | .r13 => 13
    | .r14 => 14
    | .r15 => 15
    | .rcx => 0xc
    | .rsp => 0xff78
  mem _ := 0
  fpu := 0

theorem interrupt_served_breakpoint :
    Served returningHandler 0x401000 .plain 3 0x20000
      { rip := 0x402000, cs := 8, rflags := 0x202, rsp := 0xff78, ss := 0x10 } interrupted :=
  interrupt_served returningHandler_sysv64 0x401000 .plain 3 0x20000 (by decide) 0x402000 8 0x202
    0x10 interrupted

end Mushix.X86
