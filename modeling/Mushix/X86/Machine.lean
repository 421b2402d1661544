import Mathlib.Data.List.Nodup
import Mathlib.Logic.Function.Basic
import Mushix.Lib.Stack

/-!
# Straight-line programs

The instructions of the interrupt entry points, on the registers and the memory. The arithmetic
flags are left out: no instruction reads them before `iretq` loads the interrupted ones.

* `Machine`, `Instr`, `Machine.exec`, `Machine.run`: the processor and what it executes;
* `Machine.run_pushes`: registers that are pushed;
* `Machine.run_pops`: registers that are popped.
-/

namespace Mushix.X86

open Stack (Memory Holds load store word)

/-- The general registers. -/
inductive Reg where
  | rax
  | rdx
  | rbx
  | rbp
  | rsi
  | rdi
  | r8
  | r9
  | r10
  | r11
  | r12
  | r13
  | r14
  | r15
  | rcx
  | rsp
  deriving DecidableEq, Repr

/-- What the program can read and write. -/
structure Machine where
  reg : Reg → BitVec 64
  mem : Memory 64
  /-- The bytes that `fxsave64` stores; it leaves the last 48 bytes of the area alone. -/
  fpu : BitVec (8 * 464)

/-- The instructions, in the operands that occur. -/
inductive Instr where
  | push (r : Reg)
  | pushImm (v : BitVec 64)
  | pop (r : Reg)
  | mov (dst src : Reg)
  | movImm (dst : Reg) (v : BitVec 64)
  | add (dst : Reg) (v : BitVec 64)
  | sub (dst : Reg) (v : BitVec 64)
  | and (dst : Reg) (v : BitVec 64)
  /-- The floating-point state is saved at the top of the stack. -/
  | fxsave64
  /-- The floating-point state is loaded from the top of the stack. -/
  | fxrstor64
  /-- A call of `inthandler`. -/
  | call

/-- Why a program does not come to its end. -/
inductive Stop where
  /-- The operand of `fxsave64` or `fxrstor64` is not aligned. -/
  | generalProtection
  /-- The function that was called does not return. -/
  | noReturn
  deriving DecidableEq, Repr

namespace Machine

/-- A register is written. -/
def set (s : Machine) (r : Reg) (v : BitVec 64) : Machine :=
  { s with reg := Function.update s.reg r v }

/-- A word is pushed. -/
def pushWord (s : Machine) (v : BitVec 64) : Machine :=
  { s.set .rsp (s.reg .rsp - 8#64) with mem := store s.mem (s.reg .rsp - 8#64) 8 v.toNat }

/-- Words are pushed, the first one first. -/
def pushWords (s : Machine) (vs : List (BitVec 64)) : Machine := vs.foldl pushWord s

/-- The stack pointer is a multiple of 16. -/
def Aligned (s : Machine) : Prop := (s.reg .rsp).toNat % 16 = 0

instance : DecidablePred Aligned := fun s =>
  inferInstanceAs (Decidable ((s.reg .rsp).toNat % 16 = 0))

/-- One instruction. The function that is called takes the machine at its entry, where the address
`ret` of the next instruction has been pushed, to the machine behind its `ret`, if it returns. -/
def exec (inthandler : Machine → Option Machine) (ret : BitVec 64) (s : Machine) :
    Instr → Except Stop Machine
  -- `push` stores the value that the register had in front of it
  | .push r => .ok (s.pushWord (s.reg r))
  | .pushImm v => .ok (s.pushWord v)
  | .pop r => .ok ((s.set .rsp (s.reg .rsp + 8#64)).set r (word s.mem (s.reg .rsp)))
  | .mov dst src => .ok (s.set dst (s.reg src))
  | .movImm dst v => .ok (s.set dst v)
  | .add dst v => .ok (s.set dst (s.reg dst + v))
  | .sub dst v => .ok (s.set dst (s.reg dst - v))
  | .and dst v => .ok (s.set dst (s.reg dst &&& v))
  | .fxsave64 =>
    if s.Aligned then .ok { s with mem := store s.mem (s.reg .rsp) 464 s.fpu.toNat }
    else .error .generalProtection
  | .fxrstor64 =>
    if s.Aligned then .ok { s with fpu := BitVec.ofNat (8 * 464) (load s.mem (s.reg .rsp) 464) }
    else .error .generalProtection
  | .call =>
    match inthandler (s.pushWord ret) with
    | some s' => .ok s'
    | none => .error .noReturn

/-- A program. -/
def run (inthandler : Machine → Option Machine) (ret : BitVec 64) (program : List Instr)
    (s : Machine) : Except Stop Machine :=
  program.foldlM (exec inthandler ret) s

variable {inthandler : Machine → Option Machine} {ret v : BitVec 64} {s s' : Machine} {r : Reg}
  {rs : List Reg} {vs ws : List (BitVec 64)} {program program' : List Instr}

/-- A program runs from its first instruction on. -/
theorem run_cons (i : Instr) (program : List Instr) (s : Machine) :
    run inthandler ret (i :: program) s =
      (exec inthandler ret s i).bind (run inthandler ret program) := rfl

/-- A program goes on behind an instruction that is executed. -/
theorem run_cons_of_ok {i : Instr} (h : exec inthandler ret s i = .ok s') :
    run inthandler ret (i :: program) s = run inthandler ret program s' := by
  rw [run_cons, h]
  rfl

/-- A program stops at an instruction that is not executed. -/
theorem run_cons_of_error {i : Instr} {stop : Stop} (h : exec inthandler ret s i = .error stop) :
    run inthandler ret (i :: program) s = .error stop := by
  rw [run_cons, h]
  rfl

/-- A call that returns, and one that does not. -/
theorem exec_call_of_some (h : inthandler (s.pushWord ret) = some s') :
    exec inthandler ret s .call = .ok s' := by
  simp only [exec, h]

/-- A call of a function that does not return. -/
theorem exec_call_of_none (h : inthandler (s.pushWord ret) = none) :
    exec inthandler ret s .call = .error .noReturn := by
  simp only [exec, h]

/-- A program goes on behind its first part. -/
theorem run_append_of_ok (h : run inthandler ret program s = .ok s') :
    run inthandler ret (program ++ program') s = run inthandler ret program' s' := by
  rw [run, List.foldlM_append, ← run, h]
  rfl

/-! ## Registers and the stack pointer -/

@[simp]
theorem set_reg_self (s : Machine) (r : Reg) (v : BitVec 64) : (s.set r v).reg r = v :=
  Function.update_self (β := fun _ => BitVec 64) r v s.reg

theorem set_reg_of_ne (s : Machine) {r r' : Reg} (v : BitVec 64) (h : r' ≠ r) :
    (s.set r v).reg r' = s.reg r' :=
  Function.update_of_ne (β := fun _ => BitVec 64) h v s.reg

@[simp]
theorem set_mem (s : Machine) (r : Reg) (v : BitVec 64) : (s.set r v).mem = s.mem := rfl

@[simp]
theorem set_fpu (s : Machine) (r : Reg) (v : BitVec 64) : (s.set r v).fpu = s.fpu := rfl

@[simp]
theorem pushWord_rsp (s : Machine) (v : BitVec 64) : (s.pushWord v).reg .rsp = s.reg .rsp - 8#64 :=
  set_reg_self s .rsp _

theorem pushWord_reg_of_ne (s : Machine) (v : BitVec 64) (h : r ≠ .rsp) :
    (s.pushWord v).reg r = s.reg r :=
  set_reg_of_ne s _ h

@[simp]
theorem pushWord_fpu (s : Machine) (v : BitVec 64) : (s.pushWord v).fpu = s.fpu := rfl

/-- A word that is pushed lies on top of the stack. -/
theorem pushWord_holds (h : Holds s.mem (s.reg .rsp) vs) (hroom : 8 * (vs.length + 1) ≤ 2 ^ 64) :
    Holds (s.pushWord v).mem ((s.pushWord v).reg .rsp) (v :: vs) := by
  rw [pushWord_rsp]
  exact h.push v hroom

/-- What `pushWords` does, by induction on the words. -/
theorem pushWords_spec (ws : List (BitVec 64)) (h : Holds s.mem (s.reg .rsp) vs)
    (hroom : 8 * (ws.length + vs.length) ≤ 2 ^ 64) :
    (s.pushWords ws).reg .rsp = s.reg .rsp - BitVec.ofNat 64 (8 * ws.length) ∧
      (∀ r, r ≠ .rsp → (s.pushWords ws).reg r = s.reg r) ∧ (s.pushWords ws).fpu = s.fpu ∧
      Holds (s.pushWords ws).mem ((s.pushWords ws).reg .rsp) (ws.reverse ++ vs) := by
  induction ws generalizing s vs with
  | nil => exact ⟨by simp [pushWords], fun _ _ => rfl, rfl, h⟩
  | cons v ws ih =>
    rw [List.length_cons] at hroom
    obtain ⟨hrsp, hreg, hfpu, hholds⟩ := ih (pushWord_holds (v := v) h (by omega))
      (by rw [List.length_cons]; omega)
    refine ⟨?_, fun r hr => (hreg r hr).trans (pushWord_reg_of_ne s v hr), hfpu, ?_⟩
    · rw [pushWords, List.foldl_cons, ← pushWords, hrsp, pushWord_rsp, List.length_cons,
        Nat.mul_succ, BitVec.ofNat_add]
      ring
    · rw [List.reverse_cons, List.append_assoc]
      exact hholds

/-- Registers other than the stack pointer are pushed as words. -/
theorem run_pushes (hrs : .rsp ∉ rs) (s : Machine) :
    run inthandler ret (rs.map .push) s = .ok (s.pushWords (rs.map s.reg)) := by
  induction rs generalizing s with
  | nil => rfl
  | cons r rs ih =>
    have hne : ∀ r' ∈ rs, (s.pushWord (s.reg r)).reg r' = s.reg r' := fun r' hr' =>
      pushWord_reg_of_ne s _ fun heq => hrs (List.mem_cons_of_mem r (heq ▸ hr'))
    -- the registers that follow are not changed by the first push
    rw [List.map_cons, run_cons]
    change run inthandler ret (rs.map .push) (s.pushWord (s.reg r)) = _
    rw [ih fun hmem => hrs (List.mem_cons_of_mem r hmem), List.map_congr_left hne]
    rfl

/-- Registers that are popped take the words from the stack, by induction on the registers. -/
theorem run_pops (inthandler : Machine → Option Machine) (ret : BitVec 64) {rs : List Reg}
    (hrs : .rsp ∉ rs) (hnodup : rs.Nodup) {f : Reg → BitVec 64} {s : Machine}
    (h : Holds s.mem (s.reg .rsp) (rs.map f ++ vs)) :
    ∃ s', run inthandler ret (rs.map .pop) s = .ok s' ∧
      s'.reg .rsp = s.reg .rsp + BitVec.ofNat 64 (8 * rs.length) ∧ (∀ r ∈ rs, s'.reg r = f r) ∧
      (∀ r, r ∉ rs → r ≠ .rsp → s'.reg r = s.reg r) ∧ s'.mem = s.mem ∧ s'.fpu = s.fpu ∧
      Holds s'.mem (s'.reg .rsp) vs := by
  induction rs generalizing s with
  | nil => exact ⟨s, rfl, by simp, by simp, fun _ _ _ => rfl, rfl, rfl, h⟩
  | cons r rs ih =>
    obtain ⟨hword, hrest⟩ := h
    obtain ⟨hr, hnodup'⟩ := List.nodup_cons.1 hnodup
    have hne : Reg.rsp ≠ r := fun heq => hrs (heq ▸ List.mem_cons_self)
    let s₁ := (s.set .rsp (s.reg .rsp + 8#64)).set r (word s.mem (s.reg .rsp))
    have hrsp₁ : s₁.reg .rsp = s.reg .rsp + 8#64 := by
      rw [set_reg_of_ne _ _ hne, set_reg_self]
    obtain ⟨s', hrun, hrsp, hpopped, hother, hmem, hfpu, hholds⟩ :=
      ih (fun hmem => hrs (List.mem_cons_of_mem r hmem)) hnodup' (s := s₁) (by
        rw [hrsp₁]
        exact hrest)
    refine ⟨s', ?_, ?_, ?_, ?_, hmem, hfpu, hholds⟩
    · rw [List.map_cons, run_cons]
      exact hrun
    · rw [hrsp, hrsp₁, List.length_cons, Nat.mul_succ, BitVec.ofNat_add]
      ring
    -- the first register is not popped again
    · intro r' hr'
      rcases List.mem_cons.1 hr' with rfl | hr'
      · rw [hother _ hr hne.symm, set_reg_self]
        exact hword
      · exact hpopped r' hr'
    · intro r' hr' hne'
      rw [List.mem_cons, not_or] at hr'
      rw [hother r' hr'.2 hne', set_reg_of_ne _ _ hr'.1, set_reg_of_ne _ _ hne']

end Machine

end Mushix.X86
