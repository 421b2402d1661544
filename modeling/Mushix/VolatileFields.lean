import Mushix.Lib.Run
import Mushix.Uint
import Mushix.Volatile

/-!
# Fields of a `Volatile<T>`

`write_bits` and `read_bits` (`volatile.rs`) as methods, with the checks of the default build
profile. A field that begins inside the integer is written and read as `writeBits` and `readBits`
say. The empty field behind the last bit is the exception: its shift amount is the width of the
integer, by which Rust does not shift.

* `Field`: a field of fewer bits than the integer, which lies inside of it;
* `Checked.writeBits`, `Checked.readBits`: the methods;
* `FieldWrite`, `Checked.writeFields`: writes of several fields, one after the other;
* `FieldLaws`: which values are accepted, what a write changes, and that the order of writes to
  disjoint fields does not matter.
-/

namespace Mushix.Volatile

open BitField (lowMask replace)

variable {w : ℕ}

/-- `Volatile::write_bits`, of the integer that is stored. -/
def Checked.writeBits (shift width : ℕ) (value : BitVec w) : Method (BitVec w) Unit := do
  let mask ← Uint.sub (← Uint.shl 1#w width) 1#w
  if mask &&& value ≠ value then
    throw (.err "Value out of range")
  else
    let mask ← Uint.shl mask shift
    let field ← Uint.shl value shift
    modify fun old => field ||| (old &&& ~~~mask)

/-- `Volatile::read_bits`, of the integer that is stored. -/
def Checked.readBits (shift width : ℕ) : Method (BitVec w) (BitVec w) := do
  let mask ← Uint.sub (← Uint.shl 1#w width) 1#w
  return (← Uint.shr (← get) shift) &&& mask

/-- A field of an integer of `w` bits. It may be empty, and then begin behind the last bit. -/
structure Field (w : ℕ) where
  shift : ℕ
  width : ℕ
  width_lt : width < w
  end_le : shift + width ≤ w

namespace Field

/-- The bit `i` belongs to the field. -/
def HasBit (f : Field w) (i : ℕ) : Prop := f.shift ≤ i ∧ i < f.shift + f.width

/-- No bit belongs to both fields. -/
def Disjoint (f g : Field w) : Prop := ∀ i, ¬(f.HasBit i ∧ g.HasBit i)

theorem Disjoint.symm {f g : Field w} (h : f.Disjoint g) : g.Disjoint f :=
  fun i hbit => h i ⟨hbit.2, hbit.1⟩

/-- The check of `write_bits` compares a value with the width of the field. -/
theorem lowMask_and_iff {f : Field w} {value : BitVec w} :
    lowMask w f.width &&& value = value ↔ value.toNat < 2 ^ f.width :=
  BitField.lowMask_and_eq_self_iff f.width_lt

/-- The check of `write_bits` refuses a value that is too large. -/
theorem not_lowMask_and {f : Field w} {value : BitVec w} (h : 2 ^ f.width ≤ value.toNat) :
    ¬lowMask w f.width &&& value = value := by
  rw [lowMask_and_iff]
  exact Nat.not_lt.2 h

end Field

/-! ## How the methods end -/

namespace Checked

variable {f g : Field w} {value old new : BitVec w}

/-- A value that does not fit is refused before anything is shifted. -/
theorem run_writeBits_of_ge (hfits : 2 ^ f.width ≤ value.toNat) :
    writeBits f.shift f.width value old = .error (.err "Value out of range") old := by
  have hmask := Field.not_lowMask_and hfits
  rw [writeBits, Uint.mask_bind f.width_lt, if_pos hmask, Method.run_throw]

/-- A value that fits is shifted into its place, which panics behind the last bit. -/
theorem run_writeBits (hfits : value.toNat < 2 ^ f.width) :
    writeBits f.shift f.width value old =
      if f.shift < w then .ok () (replace old f.shift f.width value)
      else .error (.panic "attempt to shift left with overflow") old := by
  have hmask := Field.lowMask_and_iff.2 hfits
  rw [writeBits, Uint.mask_bind f.width_lt, if_neg (not_not.2 hmask)]
  split
  case isTrue h => rw [Uint.shl_bind h, Uint.shl_bind h, Method.run_modify, replace]
  case isFalse h => rw [Uint.shl_bind_of_ge (Nat.not_lt.1 h)]

/-- `read_bits` panics for the empty field behind the last bit only. -/
theorem run_readBits : readBits f.shift f.width old =
    if f.shift < w then .ok (Volatile.readBits old f.shift f.width) old
    else .error (.panic "attempt to shift right with overflow") old := by
  rw [readBits, Uint.mask_bind f.width_lt, Method.run_get_bind]
  split
  case isTrue h => rw [Uint.shr_bind h, Method.run_pure, Volatile.readBits, lowMask]
  case isFalse h => rw [Uint.shr_bind_of_ge (Nat.not_lt.1 h)]

end Checked

/-! ## Several writes -/

/-- A call of `write_bits`. -/
structure FieldWrite (w : ℕ) where
  field : Field w
  value : BitVec w

namespace FieldWrite

/-- `write_bits` returns `Ok`. -/
def Accepted (c : FieldWrite w) : Prop :=
  c.field.shift < w ∧ c.value.toNat < 2 ^ c.field.width

/-- The integer after an accepted write. -/
def put (c : FieldWrite w) (x : BitVec w) : BitVec w :=
  replace x c.field.shift c.field.width c.value

/-- The fields of the two writes have no bit in common. -/
def Apart (c d : FieldWrite w) : Prop := c.field.Disjoint d.field

variable {c d : FieldWrite w} {g : Field w}

theorem readBits_put_self (hc : c.Accepted) (x : BitVec w) :
    readBits (c.put x) c.field.shift c.field.width = c.value :=
  BitField.shiftRight_replace c.field.width_lt c.field.end_le (Field.lowMask_and_iff.2 hc.2)

theorem readBits_put_of_disjoint (hc : c.Accepted) (hdisj : c.field.Disjoint g) (x : BitVec w) :
    readBits (c.put x) g.shift g.width = readBits x g.shift g.width :=
  BitField.shiftRight_replace_of_disjoint c.field.width_lt g.width_lt g.end_le
    (Field.lowMask_and_iff.2 hc.2) hdisj

/-- Accepted writes to disjoint fields commute. -/
theorem commute_put (hc : c.Accepted) (hd : d.Accepted) (hapart : c.Apart d) :
    Run.Commute put c d :=
  fun _ => BitField.replace_comm c.field.width_lt d.field.width_lt (Field.lowMask_and_iff.2 hc.2)
    (Field.lowMask_and_iff.2 hd.2) hapart

/-- Writes leave the fields alone that are disjoint from theirs. -/
theorem readBits_exec_of_disjoint {writes : List (FieldWrite w)}
    (haccepted : ∀ c ∈ writes, c.Accepted) (hdisj : ∀ c ∈ writes, c.field.Disjoint g)
    (x : BitVec w) :
    readBits (Run.exec put writes x) g.shift g.width = readBits x g.shift g.width := by
  induction writes generalizing x with
  | nil => rfl
  | cons c writes ih =>
    rw [List.forall_mem_cons] at haccepted hdisj
    rw [Run.exec_cons, ih haccepted.2 hdisj.2, readBits_put_of_disjoint haccepted.1 hdisj.1]

/-- After writes to disjoint fields each of them holds its value. -/
theorem readBits_exec {writes : List (FieldWrite w)} (haccepted : ∀ c ∈ writes, c.Accepted)
    (hapart : writes.Pairwise Apart) (hc : c ∈ writes) (x : BitVec w) :
    readBits (Run.exec put writes x) c.field.shift c.field.width = c.value := by
  induction writes generalizing x with
  | nil => cases hc
  | cons d writes ih =>
    rw [List.forall_mem_cons] at haccepted
    rw [Run.exec_cons]
    cases hc with
    | head =>
      -- the later writes do not reach the field
      have hdisj : ∀ d ∈ writes, d.field.Disjoint c.field :=
        fun d hd => (List.rel_of_pairwise_cons hapart hd).symm
      rw [readBits_exec_of_disjoint haccepted.2 hdisj, readBits_put_self haccepted.1]
    | tail _ hc => exact ih haccepted.2 hapart.of_cons hc (d.put x)

end FieldWrite

namespace Checked

variable {f g : Field w} {value old new : BitVec w} {writes writes' : List (FieldWrite w)}

open FieldWrite (put)

/-- Writes of several fields, in the order of the list. -/
def writeFields (writes : List (FieldWrite w)) : Method (BitVec w) Unit :=
  writes.forM fun c => writeBits c.field.shift c.field.width c.value

/-- `write_bits` returns `Ok` exactly for the writes that are accepted. -/
theorem writeBits_eq_ok_iff {c : FieldWrite w} :
    writeBits c.field.shift c.field.width c.value old = .ok () new ↔
      c.Accepted ∧ c.put old = new := by
  constructor
  · intro hrun
    rcases Nat.lt_or_ge c.value.toNat (2 ^ c.field.width) with hfits | hfits
    · rw [run_writeBits hfits] at hrun
      split at hrun
      case isTrue h =>
        cases hrun
        exact ⟨⟨h, hfits⟩, rfl⟩
      case isFalse h => cases hrun
    · rw [run_writeBits_of_ge hfits] at hrun
      cases hrun
  · rintro ⟨⟨h, hfits⟩, rfl⟩
    rw [run_writeBits hfits, if_pos h, put]

/-- A sequence of writes returns when each of them is accepted. -/
theorem writeFields_eq_ok_iff : writeFields writes old = .ok () new ↔
    (∀ c ∈ writes, c.Accepted) ∧ Run.exec put writes old = new := by
  induction writes generalizing old with
  | nil => simp [writeFields]
  | cons c writes ih =>
    have hcons : writeFields (c :: writes) =
        (writeBits c.field.shift c.field.width c.value >>= fun _ => writeFields writes) := rfl
    rw [hcons, Method.bind_eq_ok, List.forall_mem_cons, Run.exec_cons]
    constructor
    · rintro ⟨⟨⟩, mid, hfirst, hrest⟩
      obtain ⟨haccepted, rfl⟩ := writeBits_eq_ok_iff.1 hfirst
      obtain ⟨hall, hexec⟩ := ih.1 hrest
      exact ⟨⟨haccepted, hall⟩, hexec⟩
    · rintro ⟨⟨haccepted, hall⟩, hexec⟩
      exact ⟨(), c.put old, writeBits_eq_ok_iff.2 ⟨haccepted, rfl⟩, ih.2 ⟨hall, hexec⟩⟩

/-- Accepted writes to disjoint fields store the same integer in every order. -/
theorem writeFields_perm (hperm : writes.Perm writes') (hapart : writes.Pairwise FieldWrite.Apart)
    (hrun : writeFields writes old = .ok () new) : writeFields writes' old = .ok () new := by
  obtain ⟨haccepted, hexec⟩ := writeFields_eq_ok_iff.1 hrun
  have hcomm : writes.Pairwise (Run.Commute put) := by
    refine hapart.imp_of_mem ?_
    intro c d hc hd hcd
    exact FieldWrite.commute_put (haccepted c hc) (haccepted d hd) hcd
  rw [writeFields_eq_ok_iff, ← Run.exec_perm hperm hcomm old]
  exact ⟨fun c hc => haccepted c (hperm.mem_iff.2 hc), hexec⟩

/-- After accepted writes to disjoint fields `read_bits` returns what was written to each. -/
theorem readBits_of_writeFields (hapart : writes.Pairwise FieldWrite.Apart)
    (hrun : writeFields writes old = .ok () new) {c : FieldWrite w} (hc : c ∈ writes) :
    readBits c.field.shift c.field.width new = .ok c.value new := by
  obtain ⟨haccepted, rfl⟩ := writeFields_eq_ok_iff.1 hrun
  rw [run_readBits, if_pos (haccepted c hc).1, FieldWrite.readBits_exec haccepted hapart hc]

end Checked

/-- What the accessors promise for an integer of `w` bits. -/
structure FieldLaws (w : ℕ) : Prop where
  /-- `write_bits` returns `Ok` exactly for the values that fit, -/
  returns_iff (f : Field w) (value old : BitVec w) : f.shift < w →
    ((∃ new, Checked.writeBits f.shift f.width value old = .ok () new) ↔
      value.toNat < 2 ^ f.width)
  /-- and `Err`, without a change of the integer, for all others. -/
  refuses (f : Field w) (value old : BitVec w) : ¬value.toNat < 2 ^ f.width →
    Checked.writeBits f.shift f.width value old = .error (.err "Value out of range") old
  /-- Neither `Err` nor a panic changes the integer. -/
  error_keeps (f : Field w) (value old new : BitVec w) (e : Fault) :
    Checked.writeBits f.shift f.width value old = .error e new → new = old
  /-- After `Ok` the field holds the value. -/
  reads_back (f : Field w) (value old new : BitVec w) :
    Checked.writeBits f.shift f.width value old = .ok () new →
      Checked.readBits f.shift f.width new = .ok value new
  /-- After `Ok` every disjoint field holds what it held before. -/
  reads_other (f g : Field w) (value old new : BitVec w) : f.Disjoint g → g.shift < w →
    Checked.writeBits f.shift f.width value old = .ok () new →
      ∃ other, Checked.readBits g.shift g.width old = .ok other old ∧
        Checked.readBits g.shift g.width new = .ok other new
  /-- The empty field behind the last bit can be neither written nor read. -/
  panics (f : Field w) (value old : BitVec w) : f.shift = w →
    (value.toNat < 2 ^ f.width → Checked.writeBits f.shift f.width value old =
      .error (.panic "attempt to shift left with overflow") old) ∧
    Checked.readBits f.shift f.width old =
      .error (.panic "attempt to shift right with overflow") old
  /-- Accepted writes to disjoint fields store the same integer in every order. -/
  any_order (writes writes' : List (FieldWrite w)) (old new : BitVec w) :
    writes.Pairwise FieldWrite.Apart → writes.Perm writes' →
      Checked.writeFields writes old = .ok () new → Checked.writeFields writes' old = .ok () new

/-- The accessors keep their promises for every integer type. -/
theorem fieldLaws (w : ℕ) : FieldLaws w where
  returns_iff f value old hbegin := by
    constructor
    · rintro ⟨new, hrun⟩
      exact (Checked.writeBits_eq_ok_iff (c := ⟨f, value⟩).1 hrun).1.2
    · intro hfits
      exact ⟨_, Checked.writeBits_eq_ok_iff (c := ⟨f, value⟩).2 ⟨⟨hbegin, hfits⟩, rfl⟩⟩
  refuses f value old hfits := Checked.run_writeBits_of_ge (Nat.not_lt.1 hfits)
  error_keeps f value old new e hrun := by
    rcases Nat.lt_or_ge value.toNat (2 ^ f.width) with hfits | hfits
    · rw [Checked.run_writeBits hfits] at hrun
      split at hrun
      case isTrue h => cases hrun
      case isFalse h => cases hrun; rfl
    · rw [Checked.run_writeBits_of_ge hfits] at hrun
      cases hrun
      rfl
  reads_back f value old new hrun := by
    obtain ⟨haccepted, rfl⟩ := Checked.writeBits_eq_ok_iff (c := ⟨f, value⟩).1 hrun
    rw [Checked.run_readBits, if_pos haccepted.1]
    exact congrArg (EStateM.Result.ok · _) (FieldWrite.readBits_put_self haccepted old)
  reads_other f g value old new hdisj hbegin hrun := by
    obtain ⟨haccepted, rfl⟩ := Checked.writeBits_eq_ok_iff (c := ⟨f, value⟩).1 hrun
    refine ⟨readBits old g.shift g.width, ?_, ?_⟩
    · rw [Checked.run_readBits, if_pos hbegin]
    · rw [Checked.run_readBits, if_pos hbegin,
        FieldWrite.readBits_put_of_disjoint haccepted hdisj]
  panics f value old hbegin := by
    refine ⟨fun hfits => ?_, ?_⟩
    · rw [Checked.run_writeBits hfits, if_neg hbegin.not_lt]
    · rw [Checked.run_readBits, if_neg hbegin.not_lt]
  any_order writes writes' old new hapart hperm hrun :=
    Checked.writeFields_perm hperm hapart hrun

/-- Two fields of the test in a `Volatile<u16>`, written in the other order. -/
theorem fieldLaws_u16 :
    Checked.writeFields
        [⟨⟨8, 4, by decide, by decide⟩, 0b1010#16⟩, ⟨⟨0, 1, by decide, by decide⟩, 1#16⟩] 0#16 =
      .ok () 0b0000101000000001#16 := by
  refine (fieldLaws 16).any_order
    [⟨⟨0, 1, by decide, by decide⟩, 1#16⟩, ⟨⟨8, 4, by decide, by decide⟩, 0b1010#16⟩] _ _ _ ?_
    (List.Perm.swap _ _ []) rfl
  rw [List.pairwise_pair]
  rintro i ⟨⟨-, hlo⟩, hhi, -⟩
  have hle : 8 ≤ i := hhi
  have hlt : i < 0 + 1 := hlo
  omega

/-- The value 0 fits into the empty field behind the last bit of a `Volatile<u16>`, but cannot be
written there. -/
theorem panics_behind_last_bit : 0 < 16 ∧ 16 + 0 ≤ 16 ∧ (0#16).toNat < 2 ^ 0 ∧
    Checked.writeBits 16 0 0#16 0#16 =
      .error (.panic "attempt to shift left with overflow") 0#16 :=
  ⟨by decide, by decide, by decide, rfl⟩

end Mushix.Volatile
