import Mathlib.Logic.Function.Iterate
import Mushix.Xhci.Driver

/-!
# Registers that are read again and again

What the program sees of a register that it polls, and an account of all that it does to registers.

* `World.afterReads`, `World.valueAt`: the hardware and the value after a number of reads;
* `World.logged`: hardware that keeps a log of the accesses to its registers.
-/

namespace Mushix

/-- An access to a register. -/
inductive Access where
  | read (addr : ℕ) (value : BitVec 32)
  | write (addr : ℕ) (value : BitVec 32)
  deriving DecidableEq, Repr

namespace World

variable {σ : Type} (w : World σ) (addr : ℕ)

/-- The hardware after `n` reads of a register. -/
def afterReads (n : ℕ) (s : σ) : σ := (fun s => (w.read addr s).2)^[n] s

/-- The value of a register after `n` reads. -/
def valueAt (n : ℕ) (s : σ) : BitVec 32 := (w.read addr (w.afterReads addr n s)).1

/-- The same hardware with a log of the accesses to its registers, the last one first. -/
def logged : World (σ × List Access) where
  read addr s :=
    let (value, hw) := w.read addr s.1
    (value, (hw, .read addr value :: s.2))
  write addr value s := (w.write addr value s.1, .write addr value :: s.2)
  event s :=
    let (answer, hw) := w.event s.1
    (answer, (hw, s.2))
  page := w.page
  buffer := w.buffer

variable {w} {addr}

theorem read_afterReads (n : ℕ) (s : σ) :
    (w.read addr (w.afterReads addr n s)).2 = w.afterReads addr (n + 1) s :=
  (Function.iterate_succ_apply' (fun s => (w.read addr s).2) n s).symm

end World

end Mushix
