import Mathlib.Data.List.Infix
import Mathlib.Logic.Function.Iterate
import Mushix.Lib.Cursor
import Mushix.Xhci.Descriptor

/-!
# The descriptors in a buffer

What `DescriptorIterator` does with a buffer that a device has filled: the index is a cursor
over records whose first byte is their width.

* `next_of_some`, `next_of_none`: what a call of `next` returns;
* `collect_ends_iff`: which buffers are read to their end;
* `next_safe_iff`: for which buffers no call of `next` panics;
* `collect_blocks`: the descriptors of a buffer of well-formed blocks.
-/

namespace Mushix

open UsbDescriptor (Kind)

namespace DescriptorIterator

open Cursor (reach Visits)

/-- The width of the descriptor at a position, or `none` where no descriptor can be read: the
first byte of it. -/
def width (buf : List (BitVec 8)) (p : ℕ) : Option ℕ :=
  match buf.drop p with
  | descLen :: descType :: body =>
    if (Kind.ofType descType).size ≤ body.length + 2 then some descLen.toNat else none
  | _ => none

/-- The descriptor was read from the front of the bytes: it is the variant of their type and
made from the first of them. -/
def ReadFrom (bytes : List (BitVec 8)) (desc : UsbDescriptor) : Prop :=
  bytes[1]?.map Kind.ofType = some desc.kind ∧ desc.bytes <+: bytes

variable {buf : List (BitVec 8)} {p k n : ℕ}

/-- A structure is read when there are enough bytes for it. -/
theorem descOfType_of_le {descLen descType : BitVec 8} {body : List (BitVec 8)}
    (h : (Kind.ofType descType).size ≤ body.length + 2) :
    ∃ desc, descOfType (descLen :: descType :: body) descLen descType = some desc ∧
      ReadFrom (descLen :: descType :: body) desc := by
  -- the three structures are read in the same way: the copy is a prefix of the bytes
  have hread : ∀ {α : Type} [Sliceable α] {f : α → UsbDescriptor} {bytes : α → List (BitVec 8)}
      {kind : Kind}, Sliceable.size α ≤ body.length + 2 →
      (∀ b, bytes (Sliceable.load b) = List.ofFn b) → (∀ a, (f a).bytes = bytes a) →
      (∀ a, (f a).kind = kind) → Kind.ofType descType = kind →
      ∃ desc, (Sliceable.copyFromSlice (descLen :: descType :: body)).toOption.map f = some desc ∧
        ReadFrom (descLen :: descType :: body) desc := by
    intro α _ f bytes kind hsize hbytes hf hkind htype
    obtain ⟨b, hcopy, htake⟩ := Sliceable.copyFromSlice_of_le (α := α)
      (show Sliceable.size α ≤ (descLen :: descType :: body).length from hsize)
    refine ⟨f (Sliceable.load b), by rw [hcopy]; rfl, ?_, ?_⟩
    · rw [hkind, ← htype]
      rfl
    · rw [hf, hbytes, htake]
      exact List.take_prefix _ _
  unfold descOfType
  split_ifs with hconfig hinterface hendpoint
  · subst hconfig
    exact hread (f := UsbDescriptor.config) h ConfigDescriptor.bytes_load (fun _ => rfl)
      (fun _ => rfl) rfl
  · subst hinterface
    exact hread (f := UsbDescriptor.interface) h InterfaceDescriptor.bytes_load (fun _ => rfl)
      (fun _ => rfl) rfl
  · subst hendpoint
    exact hread (f := UsbDescriptor.endpoint) h EndpointDescriptor.bytes_load (fun _ => rfl)
      (fun _ => rfl) rfl
  -- for an unknown descriptor only its two bytes of header are looked at
  · refine ⟨_, rfl, ?_, ⟨body, rfl⟩⟩
    show some (Kind.ofType descType) = some .unknown
    rw [Kind.ofType, if_neg hconfig, if_neg hinterface, if_neg hendpoint]

/-- No structure is read from too few bytes. -/
theorem descOfType_of_lt {descLen descType : BitVec 8} {body : List (BitVec 8)}
    (h : body.length + 2 < (Kind.ofType descType).size) :
    descOfType (descLen :: descType :: body) descLen descType = none := by
  have hread : ∀ {α : Type} [Sliceable α] {f : α → UsbDescriptor},
      body.length + 2 < Sliceable.size α →
      (Sliceable.copyFromSlice (descLen :: descType :: body)).toOption.map f = none := by
    intro α _ f hsize
    rw [Sliceable.copyFromSlice_of_lt hsize]
    rfl
  unfold descOfType
  split_ifs with hconfig hinterface hendpoint
  · subst hconfig
    exact hread h
  · subst hinterface
    exact hread h
  · subst hendpoint
    exact hread h
  · rw [Kind.ofType, if_neg hconfig, if_neg hinterface, if_neg hendpoint] at h
    -- an unknown descriptor asks for the two bytes that are there
    have h : body.length + 2 < 2 := h
    omega

/-- A call of `next` where no descriptor can be read: it returns `None`, unless there is exactly
one byte left. -/
theorem next_of_none (h : width buf p = none) :
    (p + 1 ≠ buf.length ∧ next ⟨buf, p⟩ = .ok none ⟨buf, p⟩) ∨
      p + 1 = buf.length ∧ ∃ msg, next ⟨buf, p⟩ = .error (.panic msg) ⟨buf, p⟩ := by
  have hlength := List.length_drop (i := p) (l := buf)
  rcases Nat.lt_or_ge p buf.length with hlt | hge
  case inr =>
    refine .inl ⟨by omega, ?_⟩
    rw [next, Method.run_get_bind, if_pos hge]
    rfl
  cases hdrop : buf.drop p with
  | nil =>
    rw [hdrop, List.length_nil] at hlength
    omega
  | cons descLen tail =>
    cases tail with
    | nil =>
      rw [hdrop, List.length_singleton] at hlength
      -- one byte is left: `buf[1]` is indexed before the length is looked at
      refine .inr ⟨by omega, "index out of bounds", ?_⟩
      rw [next, Method.run_get_bind, if_neg (Nat.not_le.2 hlt), hdrop,
        Method.bind_of_ok (Slice.run_index (by rfl) _),
        Method.bind_of_error (Slice.run_index_of_le (by simp) _)]
    | cons descType body =>
      rw [hdrop, List.length_cons, List.length_cons] at hlength
      -- two bytes or more are left, but too few for a structure of this type
      have hshort : body.length + 2 < (Kind.ofType descType).size := by
        rw [width, hdrop] at h
        by_contra hle
        simp [Nat.le_of_not_lt hle] at h
      refine .inl ⟨by omega, ?_⟩
      rw [next, Method.run_get_bind, if_neg (Nat.not_le.2 hlt), hdrop,
        Method.bind_of_ok (Slice.run_index (by rfl) _),
        Method.bind_of_ok (Slice.run_index (by rfl) _), descOfType_of_lt hshort]
      rfl

/-- A call of `next` where a descriptor can be read returns it and moves on by its width. -/
theorem next_of_some {w : ℕ} (h : width buf p = some w) :
    p < buf.length ∧ ∃ desc, next ⟨buf, p⟩ = .ok (some desc) ⟨buf, p + w⟩ ∧
      ReadFrom (buf.drop p) desc := by
  have hlength := List.length_drop (i := p) (l := buf)
  rw [width] at h
  split at h
  case h_2 => cases h
  case h_1 descLen descType body hdrop =>
    rw [hdrop, List.length_cons, List.length_cons] at hlength
    have hlt : p < buf.length := by omega
    split at h
    case isFalse => cases h
    case isTrue hsize =>
      cases h
      obtain ⟨desc, hdesc, hread⟩ := descOfType_of_le hsize
      refine ⟨hlt, desc, ?_, hdrop ▸ hread⟩
      rw [next, Method.run_get_bind, if_neg (Nat.not_le.2 hlt), hdrop,
        Method.bind_of_ok (Slice.run_index (by rfl) _),
        Method.bind_of_ok (Slice.run_index (by rfl) _), hdesc]
      rfl

/-- No descriptor is read from one byte. -/
theorem width_of_last (h : p + 1 = buf.length) : width buf p = none := by
  have hlength := List.length_drop (i := p) (l := buf)
  rw [width]
  split
  case h_1 descLen descType body hdrop =>
    rw [hdrop, List.length_cons, List.length_cons] at hlength
    omega
  case h_2 => rfl

/-- A descriptor begins inside of the buffer. -/
theorem lt_of_width {w : ℕ} (h : width buf p = some w) : p < buf.length := (next_of_some h).1

/-! ## Collecting -/

/-- After `n` more calls the collection has not ended exactly when there were `n` more
descriptors. -/
theorem collect_running_iff (hk : reach (width buf) k = some p) :
    (∃ s', Iter.collect next n ⟨buf, p⟩ = .ok none s') ↔ reach (width buf) (k + n) ≠ none := by
  induction n generalizing k p with
  | zero =>
    rw [Nat.add_zero, hk]
    exact iff_of_true ⟨_, rfl⟩ (by simp)
  | succ n ih =>
    cases hw : width buf p with
    | none =>
      -- no record at `p`: both the cursor and the collection end here
      have hstop : reach (width buf) (k + (n + 1)) = none :=
        Cursor.reach_eq_none_of_le (Cursor.reach_succ_of_none hk hw) (by omega)
      rw [hstop]
      refine iff_of_false ?_ (by simp)
      rintro ⟨s', hcollect⟩
      rcases next_of_none hw with ⟨-, hnext⟩ | ⟨-, msg, hnext⟩
      · rw [Iter.collect_of_none hnext] at hcollect
        cases hcollect
      · rw [Iter.collect_of_error hnext] at hcollect
        cases hcollect
    | some w =>
      obtain ⟨-, desc, hnext, -⟩ := next_of_some hw
      rw [show k + (n + 1) = k + 1 + n by omega, ← ih (Cursor.reach_succ hk hw)]
      constructor
      · rintro ⟨s', hcollect⟩
        cases hrest : Iter.collect next n ⟨buf, p + w⟩ with
        | error e s₁ =>
          rw [Iter.collect_of_some_error hnext hrest] at hcollect
          cases hcollect
        | ok items s₁ =>
          rw [Iter.collect_of_some hnext hrest] at hcollect
          cases items with
          | none => exact ⟨s₁, rfl⟩
          | some items => cases hcollect
      · rintro ⟨s', hrest⟩
        exact ⟨s', Iter.collect_of_some hnext hrest⟩

/-- The collection panics where exactly one byte is left. -/
theorem collect_error_iff (hk : reach (width buf) k = some p) :
    (∃ e s', Iter.collect next n ⟨buf, p⟩ = .error e s') ↔
      ∃ j < n, ∃ q, reach (width buf) (k + j) = some q ∧ q + 1 = buf.length := by
  induction n generalizing k p with
  | zero =>
    refine iff_of_false ?_ (by simp)
    rintro ⟨e, s', hcollect⟩
    cases hcollect
  | succ n ih =>
    cases hw : width buf p with
    | none =>
      -- the cursor has come to its last position, so only `j = 0` is left
      have honly : ∀ j q, reach (width buf) (k + j) = some q → j = 0 := by
        intro j q hq
        by_contra hj
        rw [Cursor.reach_eq_none_of_le (Cursor.reach_succ_of_none hk hw) (by omega)] at hq
        cases hq
      rcases next_of_none hw with ⟨hne, hnext⟩ | ⟨heq, msg, hnext⟩
      · rw [Iter.collect_of_none hnext]
        refine iff_of_false (by simp) ?_
        rintro ⟨j, -, q, hq, hlast⟩
        obtain rfl := honly j q hq
        rw [Nat.add_zero, hk] at hq
        cases hq
        exact hne hlast
      · rw [Iter.collect_of_error hnext]
        exact iff_of_true ⟨_, _, rfl⟩ ⟨0, Nat.succ_pos n, p, hk, heq⟩
    | some w =>
      obtain ⟨hlt, desc, hnext, -⟩ := next_of_some hw
      -- the first call returns a descriptor, so a panic comes from the calls after it
      have hstep : (∃ e s', Iter.collect next (n + 1) ⟨buf, p⟩ = .error e s') ↔
          ∃ e s', Iter.collect next n ⟨buf, p + w⟩ = .error e s' := by
        cases hrest : Iter.collect next n ⟨buf, p + w⟩ with
        | error e s₁ =>
          exact iff_of_true ⟨_, _, Iter.collect_of_some_error hnext hrest⟩ ⟨_, _, rfl⟩
        | ok items s₁ =>
          rw [Iter.collect_of_some hnext hrest]
          exact iff_of_false (by simp) (by simp)
      rw [hstep, ih (Cursor.reach_succ hk hw)]
      constructor
      · rintro ⟨j, hj, q, hq, hlast⟩
        exact ⟨j + 1, by omega, q, by rw [show k + (j + 1) = k + 1 + j by omega, hq], hlast⟩
      · rintro ⟨j, hj, q, hq, hlast⟩
        cases j with
        | zero =>
          -- two bytes at least are left where a descriptor is read
          rw [Nat.add_zero, hk] at hq
          cases hq
          have hwidth := width_of_last hlast
          rw [hw] at hwidth
          cases hwidth
        | succ j =>
          exact ⟨j, by omega, q, by rw [← hq, show k + (j + 1) = k + 1 + j by omega], hlast⟩

/-- Whether `collect` gets through a buffer. With as many calls of `next` as there are bytes, and
one more, the collection has ended exactly when the iterator comes to no descriptor whose length
byte is 0; and it has ended with a list of at most as many descriptors as there are bytes exactly
when the iterator does not stop in front of the last byte either, where it panics. -/
theorem collect_ends_iff (buf : List (BitVec 8)) :
    ((¬∃ s', Iter.collect next (buf.length + 1) (new buf) = .ok none s') ↔
      ∀ p, Visits (width buf) p → width buf p ≠ some 0) ∧
    ((∃ items s', Iter.collect next (buf.length + 1) (new buf) = .ok (some items) s' ∧
        items.length ≤ buf.length) ↔
      ∀ p, Visits (width buf) p → width buf p ≠ some 0 ∧ p + 1 ≠ buf.length) := by
  have hends : (¬∃ s', Iter.collect next (buf.length + 1) (new buf) = .ok none s') ↔
      ∀ p, Visits (width buf) p → width buf p ≠ some 0 := by
    have hreach : reach (width buf) 0 = some 0 := rfl
    rw [new, collect_running_iff hreach, not_not, Nat.zero_add,
      Cursor.reach_eq_none_iff fun _ _ => lt_of_width]
  have herror : (∃ e s', Iter.collect next (buf.length + 1) (new buf) = .error e s') ↔
      ∃ j < buf.length + 1, ∃ q, reach (width buf) j = some q ∧ q + 1 = buf.length := by
    have hreach : reach (width buf) 0 = some 0 := rfl
    rw [new, collect_error_iff hreach]
    simp only [Nat.zero_add]
  refine ⟨hends, ?_, fun hgood => ?_⟩
  · rintro ⟨items, s', hcollect, -⟩
    have hpos := hends.1 (by simp [hcollect])
    refine fun p hp => ⟨hpos p hp, fun hlast => ?_⟩
    obtain ⟨j, hj⟩ := hp
    -- the cursor is in front of the last byte after at most `p` calls, which are among those made
    have hle := Cursor.le_of_reach hpos hj
    obtain ⟨e, s'', hcollect'⟩ := herror.2 ⟨j, by omega, p, hj, hlast⟩
    rw [hcollect] at hcollect'
    cases hcollect'
  · cases hcollect : Iter.collect next (buf.length + 1) (new buf) with
    | error e s' =>
      obtain ⟨j, -, q, hq, hlast⟩ := herror.1 ⟨e, s', hcollect⟩
      -- it panicked in front of a last byte that it visits
      exact absurd hlast (hgood q ⟨j, hq⟩).2
    | ok items s' =>
      cases items with
      | none => exact absurd ⟨s', hcollect⟩ (hends.2 fun p hp => (hgood p hp).1)
      | some items => exact ⟨items, s', rfl, Nat.le_of_lt_succ (Iter.length_lt_of_collect hcollect)⟩

/-- Two bytes of zeros, as a short transfer leaves them, are read over and over again. -/
theorem not_collect_ends_zeros :
    ¬∃ calls items s', Iter.collect next calls (new [0, 0]) = .ok (some items) s' ∧
      items.length ≤ [0, 0].length := by
  rintro ⟨calls, items, s', hcollect, -⟩
  have hwidth : width [0, 0] 0 = some 0 := rfl
  have hstuck : reach (width [0, 0]) (0 + calls) = some 0 :=
    Cursor.reach_add_of_zero rfl hwidth calls
  obtain ⟨s'', hrun⟩ := (collect_running_iff (n := calls) rfl).2 (hstuck ▸ Option.some_ne_none 0)
  rw [new, hrun] at hcollect
  cases hcollect

/-! ## Single calls -/

/-- A call of `next` that returns `None` or a descriptor that was made from bytes of the
buffer. -/
def NextIsSafe (it : DescriptorIterator) : Prop :=
  next it = .ok none it ∨ ∃ desc it', next it = .ok (some desc) it' ∧
    desc.bytes <+: it.buf.drop it.index

/-- The iterator after `k` descriptors. -/
theorem iterate_of_reach (hk : reach (width buf) k = some p) :
    next.stateAfter^[k] (new buf) = ⟨buf, p⟩ := by
  induction k generalizing p with
  | zero =>
    cases hk
    rfl
  | succ k ih =>
    cases hq : reach (width buf) k with
    | none =>
      rw [Cursor.reach_eq_none_of_le hq (Nat.le_succ k)] at hk
      cases hk
    | some q =>
      cases hw : width buf q with
      | none =>
        rw [Cursor.reach_succ_of_none hq hw] at hk
        cases hk
      | some w =>
        obtain ⟨-, desc, hnext, -⟩ := next_of_some hw
        rw [Cursor.reach_succ hq hw] at hk
        cases hk
        rw [Function.iterate_succ_apply', ih hq, Method.stateAfter_of_ok hnext]

/-- However often `next` is called, the iterator is at a position that the cursor visits. -/
theorem visits_iterate (buf : List (BitVec 8)) (n : ℕ) :
    ∃ p, Visits (width buf) p ∧ next.stateAfter^[n] (new buf) = ⟨buf, p⟩ := by
  induction n with
  | zero => exact ⟨0, Cursor.visits_zero, rfl⟩
  | succ n ih =>
    obtain ⟨p, hp, hit⟩ := ih
    rw [Function.iterate_succ_apply', hit]
    cases hw : width buf p with
    | none =>
      refine ⟨p, hp, ?_⟩
      rcases next_of_none hw with ⟨-, hnext⟩ | ⟨-, msg, hnext⟩
      · exact Method.stateAfter_of_ok hnext
      · exact Method.stateAfter_of_error hnext
    | some w =>
      obtain ⟨-, desc, hnext, -⟩ := next_of_some hw
      exact ⟨p + w, hp.add hw, Method.stateAfter_of_ok hnext⟩

/-- Every call of `next`, however many came before it, is safe exactly when the iterator never
stops in front of the last byte. -/
theorem next_safe_iff (buf : List (BitVec 8)) :
    (∀ n, NextIsSafe (next.stateAfter^[n] (new buf))) ↔
      ∀ p, Visits (width buf) p → p + 1 ≠ buf.length := by
  constructor
  · rintro hsafe p ⟨k, hk⟩ hlast
    rcases next_of_none (width_of_last hlast) with ⟨hne, -⟩ | ⟨-, msg, hnext⟩
    · exact hne hlast
    · have hcall := hsafe k
      rw [iterate_of_reach hk, NextIsSafe, hnext] at hcall
      simp at hcall
  · intro hgood n
    obtain ⟨p, hp, hit⟩ := visits_iterate buf n
    rw [hit]
    cases hw : width buf p with
    | none =>
      rcases next_of_none hw with ⟨-, hnext⟩ | ⟨hlast, -⟩
      · exact .inl hnext
      · exact absurd hlast (hgood p hp)
    | some w =>
      obtain ⟨-, desc, hnext, -, hbytes⟩ := next_of_some hw
      exact .inr ⟨desc, _, hnext, hbytes⟩

/-- The type of a descriptor of which only the length has arrived is read past the end. -/
theorem not_next_safe_one : ¬∀ n, NextIsSafe (next.stateAfter^[n] (new [9])) := by
  intro hsafe
  have hcall : NextIsSafe (new [9]) := hsafe 0
  have hrun : next (new [9]) = .error (.panic "index out of bounds") (new [9]) := rfl
  rw [NextIsSafe, hrun] at hcall
  simp at hcall

/-! ## Well-formed blocks -/

/-- A descriptor as it is sent: its length, its type and the rest of it, which is long enough for
its type. -/
structure Block where
  descLen : BitVec 8
  descType : BitVec 8
  body : List (BitVec 8)
  length_eq : descLen.toNat = body.length + 2
  complete : (Kind.ofType descType).size ≤ body.length + 2

/-- The bytes of a block. -/
def Block.bytes (b : Block) : List (BitVec 8) := b.descLen :: b.descType :: b.body

/-- The descriptor is the variant for the type of the block and made from the first bytes of the
block. -/
def Block.Describes (b : Block) (desc : UsbDescriptor) : Prop :=
  desc.kind = Kind.ofType b.descType ∧ desc.bytes = b.bytes.take desc.kind.size

/-- A descriptor has as many bytes as its variant is made from. -/
theorem length_bytes (desc : UsbDescriptor) : desc.bytes.length = desc.kind.size := by
  cases desc <;> rfl

/-- `next` in front of a block returns the descriptor of the block and skips the block. -/
theorem next_block (front tail : List (BitVec 8)) (b : Block) :
    ∃ desc, next ⟨front ++ (b.bytes ++ tail), front.length⟩ =
        .ok (some desc) ⟨front ++ (b.bytes ++ tail), front.length + b.bytes.length⟩ ∧
      b.Describes desc := by
  have hdrop : (front ++ (b.bytes ++ tail)).drop front.length =
      b.descLen :: b.descType :: (b.body ++ tail) := by
    rw [List.drop_left]
    rfl
  have hlength : b.bytes.length = b.descLen.toNat := by
    rw [b.length_eq]
    rfl
  have hcomplete := b.complete
  -- the length byte of a block is the length of the block
  have hwidth : width (front ++ (b.bytes ++ tail)) front.length = some b.bytes.length := by
    rw [width, hdrop, hlength]
    refine if_pos ?_
    rw [List.length_append]
    omega
  obtain ⟨-, desc, hnext, hkind, hbytes⟩ := next_of_some hwidth
  rw [hdrop] at hkind
  have hkind : desc.kind = Kind.ofType b.descType := (Option.some.inj hkind).symm
  refine ⟨desc, hnext, hkind, ?_⟩
  rw [List.drop_left, List.prefix_iff_eq_take, length_bytes] at hbytes
  rw [hbytes, List.take_append_of_le_length]
  rw [hlength, b.length_eq, hkind]
  exact hcomplete

/-- The buffer of a device that sends whole blocks is read to its end, and there is one
descriptor for each of the blocks, in their order. -/
theorem collect_blocks (blocks : List Block) :
    ∃ items s', Iter.collect next (blocks.length + 1) (new (blocks.flatMap Block.bytes)) =
        .ok (some items) s' ∧ List.Forall₂ Block.Describes blocks items := by
  -- the iterator keeps the whole buffer, so the induction is over the blocks behind any front
  suffices h : ∀ front, ∃ items s', Iter.collect next (blocks.length + 1)
      ⟨front ++ blocks.flatMap Block.bytes, front.length⟩ = .ok (some items) s' ∧
        List.Forall₂ Block.Describes blocks items by
    exact h []
  induction blocks with
  | nil =>
    intro front
    have hnext : next ⟨front ++ [], front.length⟩ = .ok none ⟨front ++ [], front.length⟩ := by
      rw [next, Method.run_get_bind, if_pos (by simp)]
      rfl
    exact ⟨[], _, Iter.collect_of_none hnext, .nil⟩
  | cons b blocks ih =>
    intro front
    obtain ⟨desc, hnext, hdesc⟩ := next_block front (blocks.flatMap Block.bytes) b
    obtain ⟨items, s', hrest, hitems⟩ := ih (front ++ b.bytes)
    rw [List.append_assoc, List.length_append] at hrest
    exact ⟨desc :: items, s', Iter.collect_of_some hnext hrest, .cons hdesc hitems⟩

/-- The blocks of a flash drive: its configuration, an interface with a descriptor of its class,
and two bulk endpoints. -/
def Block.flashDrive : List Block := [
  ⟨9, 2, [0x23, 0, 1, 1, 0, 0x80, 50], rfl, by decide⟩,
  ⟨9, 4, [0, 0, 2, 8, 6, 0x50, 0], rfl, by decide⟩,
  ⟨3, 0x24, [1], rfl, by decide⟩,
  ⟨7, 5, [0x81, 2, 0, 2, 0], rfl, by decide⟩,
  ⟨7, 5, [0x02, 2, 0, 2, 0], rfl, by decide⟩]

theorem collect_blocks_flashDrive :
    ∃ items s', Iter.collect next 6 (new (Block.flashDrive.flatMap Block.bytes)) =
      .ok (some items) s' ∧ List.Forall₂ Block.Describes Block.flashDrive items :=
  collect_blocks Block.flashDrive

end DescriptorIterator

end Mushix
