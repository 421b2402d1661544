import Mushix.Xhci.Trb
import Mathlib.Logic.Function.Basic

/-!
# Rings of transfer request blocks

`TrbRing` (`xhci.rs`): sixteen TRBs on a page of their own and the index of the one the
program works on next. The command ring and the transfer rings advance with
`advanceIndex`, which hands the slot over by setting its cycle bit; the event ring advances
with `advanceIndexNotoggle`, which leaves the memory alone.
-/

namespace Mushix

/-- The address of an `IoBox`, whose content is aligned to 4096 bytes (`mmio.rs`). -/
structure IoBoxAddr where
  /-- The address itself. -/
  addr : BitVec 64
  /-- An `IoBoxInner` begins with a page. -/
  aligned : addr.toNat % 4096 = 0

/-- A ring has a first TRB. -/
instance instNeZeroTrbs : NeZero 16 := ⟨by decide⟩

/-- `TrbRing`: the TRBs at the address `base` and the index of the current one. The index is
only ever set to a remainder by the number of TRBs, so it is a `Fin`. -/
structure TrbRing where
  /-- The address of the first TRB, which is also the address of the structure. -/
  base : IoBoxAddr
  /-- The TRBs. -/
  trb : Fin 16 → GenericTrbEntry
  /-- The TRB that is read or written next. -/
  currentIndex : Fin 16

namespace TrbRing

/-- The number of TRBs of every ring. -/
def numTrb : ℕ := 16

/-- `TrbRing::new()`: an `IoBox` of zero bytes. -/
def new (base : IoBoxAddr) : TrbRing :=
  { base, trb := fun _ => GenericTrbEntry.default, currentIndex := 0 }

/-- `write` stores a TRB at an index, which must be one of the ring. -/
def write (index : ℕ) (trb : GenericTrbEntry) : Method TrbRing Unit := do
  if h : index < numTrb then
    modify fun self => { self with trb := Function.update self.trb ⟨index, h⟩ trb }
  else
    throw (.err "TrbRing out of range")

/-- `phys_addr()`: the address of TRB 0. -/
def physAddr (self : TrbRing) : BitVec 64 := self.base.addr

/-- The address of TRB number `index`. -/
def trbPtr (self : TrbRing) (index : ℕ) : BitVec 64 :=
  self.base.addr + 16#64 * BitVec.ofNat 64 index

/-- The TRB at the current index. -/
def current (self : TrbRing) : GenericTrbEntry := self.trb self.currentIndex

/-- The address of the TRB at the current index. -/
def currentPtr (self : TrbRing) : BitVec 64 := self.trbPtr self.currentIndex

/-- The index of the next TRB, after the last one that of the first. -/
def nextIndex (index : Fin 16) : Fin 16 := ⟨(index + 1) % 16, Nat.mod_lt _ (by decide)⟩

/-- `advance_index_notoggle` goes on to the next TRB, if the current one has the expected cycle bit.
-/
def advanceIndexNotoggle (cycleOurs : Bool) : Method TrbRing Unit := do
  if (← get).current.cycleState ≠ cycleOurs then
    throw (.err "cycle state mismatch")
  modify fun self => { self with currentIndex := nextIndex self.currentIndex }

/-- `advance_index` gives the current TRB its new cycle bit and goes on to the next one. -/
def advanceIndex (newCycle : Bool) : Method TrbRing Unit := do
  -- a TRB is handed over once: its cycle bit must still be the other one
  if (← get).current.cycleState = newCycle then
    throw (.err "cycle state mismatch")
  modify fun self =>
    { self with
      trb := Function.update self.trb self.currentIndex
        ((self.trb self.currentIndex).setCycleState newCycle) }
  modify fun self => { self with currentIndex := nextIndex self.currentIndex }

/-- `write_current`: the `expect` cannot fail, because the current index is in range. -/
def writeCurrent (trb : GenericTrbEntry) : Method TrbRing Unit := do
  let self ← get
  tryCatch (write self.currentIndex trb)
    fun _ => throw (.panic "Failed to write current TRB")

/-- `write_bytes(dst_ptr, 0, 16)` at the current TRB. -/
def zeroCurrent : Method TrbRing Unit := do
  modify fun self =>
    { self with trb := Function.update self.trb self.currentIndex GenericTrbEntry.default }

/-- TRB number `j`; numbers from 16 on do not occur. -/
def slot (self : TrbRing) (j : ℕ) : GenericTrbEntry := self.trb (Fin.ofNat 16 j)

/-! ## What the methods do -/

variable {r : TrbRing} {t : GenericTrbEntry} {cycle : Bool}

/-- The current TRB is the one at the current index. -/
theorem current_eq_slot (r : TrbRing) : r.current = r.slot r.currentIndex := by
  simp [current, slot]

theorem slot_new (base : IoBoxAddr) (j : ℕ) : (new base).slot j = GenericTrbEntry.default := rfl

/-- A store to one TRB is seen at that TRB and nowhere else. -/
theorem slot_update {i : Fin 16} {j : ℕ} (hj : j < 16) :
    ({ r with trb := Function.update r.trb i t } : TrbRing).slot j =
      if j = i then t else r.slot j := by
  -- below 16 the numbers are the indices
  have hval : (Fin.ofNat 16 j).val = j := Nat.mod_eq_of_lt hj
  change Function.update r.trb i t (Fin.ofNat 16 j) = if j = i then t else r.slot j
  by_cases h : j = i
  · have hi : Fin.ofNat 16 j = i := by
      apply Fin.ext
      rw [hval, h]
    rw [if_pos h, hi, Function.update_self]
  · have hi : Fin.ofNat 16 j ≠ i := by
      intro heq
      rw [← heq, hval] at h
      exact h rfl
    rw [if_neg h, Function.update_of_ne hi, slot]

theorem writeCurrent_eq :
    writeCurrent t r = .ok () { r with trb := Function.update r.trb r.currentIndex t } := by
  have hwrite : write r.currentIndex t r =
      .ok () { r with trb := Function.update r.trb r.currentIndex t } := by
    have hlt : r.currentIndex.val < numTrb := r.currentIndex.isLt
    simp [write, hlt]
  simp [writeCurrent, tryCatch, tryCatchThe, MonadExceptOf.tryCatch, EStateM.tryCatch, hwrite]

theorem zeroCurrent_eq :
    zeroCurrent r = .ok ()
      { r with trb := Function.update r.trb r.currentIndex GenericTrbEntry.default } := rfl

/-- `advance_index` on a TRB that has not been handed over yet. -/
theorem advanceIndex_eq (h : r.current.cycleState ≠ cycle) :
    advanceIndex cycle r = .ok ()
      { r with
        trb := Function.update r.trb r.currentIndex (r.current.setCycleState cycle)
        currentIndex := nextIndex r.currentIndex } := by
  simp only [advanceIndex, Method.run_get_bind, h, if_false, Method.run_modify_bind,
    Method.run_modify]
  rfl

/-- `advance_index_notoggle` on a TRB with the expected cycle bit. -/
theorem advanceIndexNotoggle_eq (h : r.current.cycleState = cycle) :
    advanceIndexNotoggle cycle r =
      .ok () { r with currentIndex := nextIndex r.currentIndex } := by
  simp [advanceIndexNotoggle, h]

/-- The addresses of the TRBs do not wrap. -/
theorem toNat_trbPtr (r : TrbRing) {j : ℕ} (hj : j < 16) :
    (r.trbPtr j).toNat = r.base.addr.toNat + 16 * j := by
  have haligned := r.base.aligned
  have hlt := r.base.addr.isLt
  rw [trbPtr, BitVec.toNat_add, BitVec.toNat_mul, BitVec.toNat_ofNat, BitVec.toNat_ofNat]
  omega

end TrbRing

end Mushix
