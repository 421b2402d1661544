import Mathlib.Tactic.Linarith
import Mushix.I64
import Mushix.Lib.Bytes
import Mushix.Loop

/-!
# Bitmaps

`Bitmap` (`graphics.rs`): a buffer of pixels, in scan lines of `pixel_per_line` pixels of which
`width` are shown.

* `Bitmap.pixelAtMut`, `Bitmap.drawPoint`, `Bitmap.uncheckedDrawPoint`: one pixel;
* `Bitmap.Painted`: what it means that some pixels have been painted and nothing else was written;
* `Bitmap.Paints`: a method that paints, with a rule for one pixel, for a sequence and for a loop.
-/

namespace Mushix

open Bytes (Memory readLE writeLE)

/-- `Bitmap`, by what its methods return, and the buffer that its `unsafe` methods rely on: a pixel
is stored as a `u32`, and there is room for all scan lines. -/
structure Bitmap where
  bytesPerPixel : ℤ
  pixelPerLine : ℤ
  width : ℤ
  height : ℤ
  bufMut : ℕ
  /-- The bytes of the buffer, which is not larger than `isize::MAX`. -/
  len : ℕ
  four_le : 4 ≤ bytesPerPixel
  room : height * pixelPerLine * bytesPerPixel ≤ len
  len_lt : (len : ℤ) < 2 ^ 63

/-- `VramBufferInfo` (`uefi.rs`): the bitmap of the screen. -/
structure VramBufferInfo where
  buf : ℕ
  width : ℤ
  height : ℤ
  pixelsPerLine : ℤ

/-- `impl Bitmap for VramBufferInfo`, when the frame buffer has `len` bytes. -/
def VramBufferInfo.bitmap (self : VramBufferInfo) (len : ℕ)
    (room : self.height * self.pixelsPerLine * 4 ≤ len) (len_lt : (len : ℤ) < 2 ^ 63) : Bitmap where
  bytesPerPixel := 4
  pixelPerLine := self.pixelsPerLine
  width := self.width
  height := self.height
  bufMut := self.buf
  len := len
  four_le := le_rfl
  room := room
  len_lt := len_lt

namespace Bitmap

variable (self : Bitmap)

/-- The address that a pixel would have. -/
def uncheckedPixelAtMut (x y : ℤ) : Method Memory ℕ := do
  let line ← I64.mul y self.pixelPerLine
  let pixel ← I64.add line x
  let offset ← I64.mul pixel self.bytesPerPixel
  -- `as usize`
  return self.bufMut + (offset % 2 ^ 64).toNat

/-- The column is shown, and a line in memory has it. -/
def isInXRange (px : ℤ) : Bool := decide (0 ≤ px ∧ px < min self.width self.pixelPerLine)

/-- The row is shown. -/
def isInYRange (py : ℤ) : Bool := decide (0 ≤ py ∧ py < self.height)

/-- The address of a pixel that is shown. -/
def pixelAtMut (x y : ℤ) : Method Memory (Option ℕ) := do
  if self.isInXRange x && self.isInYRange y then
    return some (← self.uncheckedPixelAtMut x y)
  else
    return none

/-- `unchecked_draw_point` stores the color of a pixel, whether it is shown or not. -/
def uncheckedDrawPoint (color : BitVec 32) (x y : ℤ) : Method Memory Unit := do
  let pixel ← self.uncheckedPixelAtMut x y
  modify fun m => writeLE m pixel 4 color.toNat

/-- `draw_point` stores the color of a pixel that is shown, and fails on any other. -/
def drawPoint (color : BitVec 32) (x y : ℤ) : Method Memory Unit := do
  match ← self.pixelAtMut x y with
  | some pixel => modify fun m => writeLE m pixel 4 color.toNat
  | none => throw (.err "out of range")

/-! ## The places of the pixels -/

/-- The pixel is shown. -/
def InRange (x y : ℤ) : Prop :=
  0 ≤ x ∧ x < min self.width self.pixelPerLine ∧ 0 ≤ y ∧ y < self.height

instance (x y : ℤ) : Decidable (self.InRange x y) :=
  inferInstanceAs
    (Decidable (0 ≤ x ∧ x < min self.width self.pixelPerLine ∧ 0 ≤ y ∧ y < self.height))

/-- The distance of a pixel from the start of the buffer. -/
def offset (x y : ℤ) : ℤ := (y * self.pixelPerLine + x) * self.bytesPerPixel

/-- The address of a pixel. -/
def addr (x y : ℤ) : ℕ := self.bufMut + (self.offset x y).toNat

/-- The color in a pixel. -/
def pixel (m : Memory) (x y : ℤ) : BitVec 32 := BitVec.ofNat 32 (readLE m (self.addr x y) 4)

variable {self} {x y x' y' : ℤ} {color : BitVec 32} {m m' m'' : Memory}

theorem inRange_iff :
    self.InRange x y ↔ self.isInXRange x = true ∧ self.isInYRange y = true := by
  simp only [InRange, isInXRange, isInYRange, decide_eq_true_eq, and_assoc]

namespace InRange

/-- The number of a pixel that is shown, in all scan lines. -/
theorem index_bounds (h : self.InRange x y) :
    0 ≤ y * self.pixelPerLine ∧ 0 ≤ y * self.pixelPerLine + x ∧
      y * self.pixelPerLine + x + 1 ≤ self.height * self.pixelPerLine := by
  obtain ⟨hx, hx', hy, hy'⟩ := h
  have hline : x < self.pixelPerLine := hx'.trans_le (min_le_right _ _)
  have hpos : 0 ≤ y * self.pixelPerLine := mul_nonneg hy (hx.trans hline.le)
  have hmul : (y + 1) * self.pixelPerLine ≤ self.height * self.pixelPerLine :=
    mul_le_mul_of_nonneg_right hy' (hx.trans hline.le)
  rw [add_mul, one_mul] at hmul
  exact ⟨hpos, by omega, by omega⟩

/-- A pixel that is shown lies in the buffer. -/
theorem offset_bounds (h : self.InRange x y) :
    0 ≤ self.offset x y ∧ self.offset x y + self.bytesPerPixel ≤ self.len := by
  obtain ⟨-, hpos, hlt⟩ := h.index_bounds
  have hfour := self.four_le
  refine ⟨mul_nonneg hpos (by omega), ?_⟩
  have hmul := mul_le_mul_of_nonneg_right hlt (show 0 ≤ self.bytesPerPixel by omega)
  rw [add_mul, one_mul] at hmul
  exact hmul.trans self.room

/-- The four bytes of a pixel lie in the buffer. -/
theorem within (h : self.InRange x y) :
    self.bufMut ≤ self.addr x y ∧ self.addr x y + 4 ≤ self.bufMut + self.len := by
  obtain ⟨hpos, hle⟩ := h.offset_bounds
  have hfour := self.four_le
  rw [addr]
  omega

/-- A pixel in an earlier scan line has a smaller number. -/
theorem index_lt (h : self.InRange x y) (h' : self.InRange x' y') (hlt : y < y') :
    y * self.pixelPerLine + x < y' * self.pixelPerLine + x' := by
  have hline : x < self.pixelPerLine := h.2.1.trans_le (min_le_right _ _)
  have hmul : (y + 1) * self.pixelPerLine ≤ y' * self.pixelPerLine :=
    mul_le_mul_of_nonneg_right hlt (h.1.trans hline.le)
  have hx' := h'.1
  rw [add_mul, one_mul] at hmul
  omega

/-- A pixel with a smaller number is stored in front of another one. -/
theorem addr_add_four_le (h : self.InRange x y)
    (hlt : y * self.pixelPerLine + x < y' * self.pixelPerLine + x') :
    self.addr x y + 4 ≤ self.addr x' y' := by
  have hpos := h.offset_bounds.1
  have hfour := self.four_le
  have hmul : (y * self.pixelPerLine + x + 1) * self.bytesPerPixel ≤ self.offset x' y' :=
    mul_le_mul_of_nonneg_right hlt (by omega)
  have hnext : (y * self.pixelPerLine + x + 1) * self.bytesPerPixel =
      self.offset x y + self.bytesPerPixel := by rw [add_mul, one_mul, offset]
  rw [addr, addr]
  omega

/-- Pixels in different places do not overlap. -/
theorem apart (h : self.InRange x y) (h' : self.InRange x' y') (hne : ¬(x = x' ∧ y = y')) :
    self.addr x y + 4 ≤ self.addr x' y' ∨ self.addr x' y' + 4 ≤ self.addr x y := by
  -- the scan lines decide, and within a scan line the columns
  rcases lt_trichotomy y y' with hlt | rfl | hgt
  · exact .inl (h.addr_add_four_le (h.index_lt h' hlt))
  · rcases lt_or_gt_of_ne fun heq => hne ⟨heq, rfl⟩ with hlt | hgt
    · exact .inl (h.addr_add_four_le (by omega))
    · exact .inr (h'.addr_add_four_le (by omega))
  · exact .inr (h'.addr_add_four_le (h'.index_lt h hgt))

/-- The address of a pixel is computed without an overflow. -/
theorem run_uncheckedPixelAtMut (h : self.InRange x y) :
    self.uncheckedPixelAtMut x y m = .ok (self.addr x y) m := by
  obtain ⟨hline, hindex, -⟩ := h.index_bounds
  obtain ⟨hpos, hle⟩ := h.offset_bounds
  have hfour := self.four_le
  have hlen := self.len_lt
  have hoffset : self.offset x y < 2 ^ 63 := by omega
  have hindex' : y * self.pixelPerLine + x ≤ self.offset x y :=
    le_mul_of_one_le_right hindex (by omega)
  rw [uncheckedPixelAtMut, I64.mul_bind (I64.fits_of_nonneg hline (by have := h.1; omega)),
    I64.add_bind (I64.fits_of_nonneg hindex (by omega)),
    I64.mul_bind (I64.fits_of_nonneg hpos hoffset)]
  change EStateM.Result.ok (self.bufMut + (self.offset x y % 2 ^ 64).toNat) m = _
  rw [Int.emod_eq_of_lt hpos (by omega), addr]

end InRange

/-! ## Painting -/

/-- The pixels of the set `S`, which are shown, hold the color, and nothing else was written. -/
structure Painted (b : Bitmap) (color : BitVec 32) (S : ℤ → ℤ → Prop) (m m' : Memory) : Prop where
  inRange : ∀ x y, S x y → b.InRange x y
  pixel_eq : ∀ x y, S x y → b.pixel m' x y = color
  frame : ∀ a, (∀ x y, S x y → a < b.addr x y ∨ b.addr x y + 4 ≤ a) → m' a = m a

/-- The method returns and paints the pixels of the set. -/
def Paints (b : Bitmap) (color : BitVec 32) (S : ℤ → ℤ → Prop) (draw : Method Memory Unit) :
    Prop :=
  ∀ m, ∃ m', draw m = .ok () m' ∧ b.Painted color S m m'

variable {S T : ℤ → ℤ → Prop} {draw draw' : Method Memory Unit}

namespace Painted

/-- A pixel that is shown and not in the set is left alone. -/
theorem pixel_of_not_mem (h : self.Painted color S m m') (hin : self.InRange x y) (hnot : ¬S x y) :
    self.pixel m' x y = self.pixel m x y := by
  -- the four bytes of the pixel belong to no pixel of the set
  have hbytes : readLE m' (self.addr x y) 4 = readLE m (self.addr x y) 4 := by
    refine Bytes.readLE_congr fun a hlo hhi => h.frame a fun x' y' hmem => ?_
    have hapart := hin.apart (h.inRange x' y' hmem) fun ⟨hx, hy⟩ => hnot (hx ▸ hy ▸ hmem)
    omega
  rw [pixel, pixel, hbytes]

/-- Where nothing is painted, memory stays as it is. -/
theorem empty (m : Memory) : self.Painted color (fun _ _ => False) m m where
  inRange _ _ hmem := hmem.elim
  pixel_eq _ _ hmem := hmem.elim
  frame _ _ := rfl

/-- What is painted in two steps. -/
theorem trans (h : self.Painted color S m m') (h' : self.Painted color T m' m'') :
    self.Painted color (fun x y => S x y ∨ T x y) m m'' where
  inRange x y hmem := hmem.elim (h.inRange x y) (h'.inRange x y)
  pixel_eq x y hmem := by
    -- the second step may paint a pixel again, and otherwise leaves it alone
    by_cases hT : T x y
    · exact h'.pixel_eq x y hT
    · have hS := hmem.resolve_right hT
      rw [h'.pixel_of_not_mem (h.inRange x y hS) hT, h.pixel_eq x y hS]
  frame a hnot := by
    rw [h'.frame a fun x y hmem => hnot x y (.inr hmem),
      h.frame a fun x y hmem => hnot x y (.inl hmem)]

/-- Only the members of the set matter. -/
theorem congr (h : self.Painted color S m m') (hST : ∀ x y, S x y ↔ T x y) :
    self.Painted color T m m' where
  inRange x y hmem := h.inRange x y ((hST x y).2 hmem)
  pixel_eq x y hmem := h.pixel_eq x y ((hST x y).2 hmem)
  frame a hnot := h.frame a fun x y hmem => hnot x y ((hST x y).1 hmem)

end Painted

/-- A pixel that is stored. -/
theorem InRange.painted (h : self.InRange x y) (color : BitVec 32) (m : Memory) :
    self.Painted color (fun x' y' => x' = x ∧ y' = y) m
      (writeLE m (self.addr x y) 4 color.toNat) where
  inRange x' y' hmem := by
    obtain ⟨rfl, rfl⟩ := hmem
    exact h
  pixel_eq x' y' hmem := by
    obtain ⟨rfl, rfl⟩ := hmem
    rw [pixel, Bytes.readLE_writeLE _ _ _ color.isLt, BitVec.ofNat_toNat, BitVec.setWidth_eq]
  frame a hnot := Bytes.writeLE_of_not_mem (hnot x y ⟨rfl, rfl⟩)

namespace Paints

theorem congr (h : self.Paints color S draw) (hST : ∀ x y, S x y ↔ T x y) :
    self.Paints color T draw := fun m => by
  obtain ⟨m', hrun, hpainted⟩ := h m
  exact ⟨m', hrun, hpainted.congr hST⟩

/-- A pixel that is shown is painted by either of the two methods. -/
theorem uncheckedDrawPoint (h : self.InRange x y) (color : BitVec 32) :
    self.Paints color (fun x' y' => x' = x ∧ y' = y) (self.uncheckedDrawPoint color x y) := by
  intro m
  refine ⟨_, ?_, h.painted color m⟩
  rw [Bitmap.uncheckedDrawPoint, Method.bind_of_ok h.run_uncheckedPixelAtMut]
  rfl

theorem drawPoint (h : self.InRange x y) (color : BitVec 32) :
    self.Paints color (fun x' y' => x' = x ∧ y' = y) (self.drawPoint color x y) := by
  intro m
  obtain ⟨hx, hy⟩ := inRange_iff.1 h
  have hpixel : self.pixelAtMut x y m = .ok (some (self.addr x y)) m := by
    rw [pixelAtMut, hx, hy]
    exact Method.bind_of_ok h.run_uncheckedPixelAtMut
  refine ⟨_, ?_, h.painted color m⟩
  rw [Bitmap.drawPoint, Method.bind_of_ok hpixel]
  rfl

/-- A loop paints what its rounds paint. -/
theorem forM {α : Type} {as : List α} {body : α → Method Memory Unit} {S : α → ℤ → ℤ → Prop}
    (hbody : ∀ a ∈ as, self.Paints color (S a) (body a)) :
    self.Paints color (fun x y => ∃ a ∈ as, S a x y) (as.forM body) := by
  -- what is painted by the rounds so far, by induction on the rounds
  intro m
  induction as generalizing m with
  | nil => exact ⟨m, rfl, (Painted.empty m).congr fun x y => by simp⟩
  | cons a as ih =>
    obtain ⟨m', hrun, hpainted⟩ := hbody a List.mem_cons_self m
    obtain ⟨m'', hrest, hpainted'⟩ := ih (fun b hb => hbody b (List.mem_cons_of_mem a hb)) m'
    refine ⟨m'', ?_, (hpainted.trans hpainted').congr fun x y => by simp⟩
    rw [Method.run_forM_cons, Method.bind_of_ok hrun, hrest]

end Paints

end Bitmap

end Mushix
