import Mathlib.Data.List.OfFn
import Mushix.Lib.Bytes
import Mushix.Result

/-!
# Slices

A `&[u8]` is the list of its bytes. `Sliceable` (`slice.rs`) are the packed structures that are
read from the bytes of a slice; a read past the end cannot be written down, as a structure is
made from exactly its `size` bytes.
-/

namespace Mushix

namespace Slice

variable {σ α : Type}

/-- An element of a slice, whose index is checked. -/
def index (xs : List α) (i : ℕ) : Method σ α :=
  match xs[i]? with
  | some x => return x
  | none => throw (.panic "index out of bounds")

theorem run_index {xs : List α} {i : ℕ} {x : α} (h : xs[i]? = some x) (s : σ) :
    (index xs i : Method σ α) s = .ok x s := by
  rw [index, h]
  rfl

theorem run_index_of_le {xs : List α} {i : ℕ} (h : xs.length ≤ i) (s : σ) :
    (index xs i : Method σ α) s = .error (.panic "index out of bounds") s := by
  rw [index, List.getElem?_eq_none h]
  rfl

/-- `xs[start..start + ys.len()].copy_from_slice(ys)`, where this range is inside `xs`. -/
def copyInto (xs : List α) (start : ℕ) (ys : List α) : List α :=
  xs.take start ++ ys ++ xs.drop (start + ys.length)

end Slice

/-- `Sliceable`: a packed structure and how it is read from its bytes. -/
class Sliceable (α : Type) where
  /-- The number of bytes of a value. -/
  size : ℕ
  /-- The value that has these bytes. -/
  load : (Fin size → BitVec 8) → α

namespace Sliceable

variable {α : Type} [Sliceable α]

/-- `copy_from_slice` copies a value from the front of a slice, which must be long enough. -/
def copyFromSlice (data : List (BitVec 8)) : Except String α :=
  if h : size α > data.length then
    .error "data is too short"
  else
    .ok (load fun i => data.get ⟨i, i.isLt.trans_le (Nat.le_of_not_lt h)⟩)

/-- What `copy_from_slice` reads are the first bytes of the slice. -/
theorem copyFromSlice_of_le {data : List (BitVec 8)} (h : size α ≤ data.length) :
    ∃ b : Fin (size α) → BitVec 8, copyFromSlice data = .ok (load b) ∧
      List.ofFn b = data.take (size α) := by
  refine ⟨_, dif_neg (Nat.not_lt.2 h), ?_⟩
  refine List.ext_getElem (by simp [h]) fun i hi hi' => ?_
  simp

/-- Too few bytes are an error. -/
theorem copyFromSlice_of_lt {data : List (BitVec 8)} (h : data.length < size α) :
    (copyFromSlice data : Except String α) = .error "data is too short" := dif_pos h

end Sliceable

/-- `u16` from two bytes, the low one first. -/
def u16OfBytes (lo hi : BitVec 8) : BitVec 16 := BitVec.ofNat 16 (Bytes.ofLE [lo, hi])

/-- The bytes of a `u16`, the low one first. -/
def bytesOfU16 (x : BitVec 16) : List (BitVec 8) := Bytes.toLE 2 x.toNat

/-- `u32` from four bytes, the low one first. -/
def u32OfBytes (bytes : List (BitVec 8)) : BitVec 32 := BitVec.ofNat 32 (Bytes.ofLE bytes)

/-- The bytes of a `u32`, the low one first. -/
def bytesOfU32 (x : BitVec 32) : List (BitVec 8) := Bytes.toLE 4 x.toNat

/-- Two bytes are those of the number that is made of them. -/
theorem bytesOfU16_u16OfBytes (lo hi : BitVec 8) : bytesOfU16 (u16OfBytes lo hi) = [lo, hi] := by
  have hlt : Bytes.ofLE [lo, hi] < 2 ^ 16 := by simpa using Bytes.ofLE_lt [lo, hi]
  rw [bytesOfU16, u16OfBytes, BitVec.toNat_ofNat, Nat.mod_eq_of_lt hlt]
  exact Bytes.toLE_ofLE [lo, hi]

end Mushix
