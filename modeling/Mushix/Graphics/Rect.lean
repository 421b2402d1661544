import Mushix.Graphics.Bitmap

/-!
# Rectangles

`fill_rect` (`graphics.rs`): two corners of the rectangle are tested, and then its pixels are
written without further tests.

* `Bitmap.fillRect`: the function;
* `Bitmap.corners_iff`: the two corners are shown exactly when all pixels are;
* `Bitmap.fillRect_paints`: what is painted, when `Ok` is returned, and that nothing is written
  otherwise.
-/

namespace Mushix

open Bytes (Memory)

namespace Bitmap

/-- The test of `fill_rect`, whose `||` does not evaluate its right operand when the left one is
true. -/
def rectOutOfRange (self : Bitmap) (px py w h : ℤ) : Method Memory Bool := do
  if !self.isInXRange px then return true
  if !self.isInYRange py then return true
  let right ← I64.sub (← I64.add px w) 1
  if !self.isInXRange right then return true
  let bottom ← I64.sub (← I64.add py h) 1
  return !self.isInYRange bottom

/-- `fill_rect` refuses a rectangle whose corners are not shown, and stores the color of all its
pixels. -/
def fillRect (self : Bitmap) (color : BitVec 32) (px py w h : ℤ) : Method Memory Unit := do
  if ← self.rectOutOfRange px py w h then
    throw (.err "out of range")
  let yEnd ← I64.add py h
  (I64.range py yEnd).forM fun y => do
    let xEnd ← I64.add px w
    (I64.range px xEnd).forM fun x => self.uncheckedDrawPoint color x y

/-- The pixels of a rectangle. -/
def InRect (px py w h x y : ℤ) : Prop := (px ≤ x ∧ x < px + w) ∧ py ≤ y ∧ y < py + h

variable {self : Bitmap} {color : BitVec 32} {px py w h : ℤ} {m : Memory}

/-- Both corners are shown. -/
def CornersInRange (self : Bitmap) (px py w h : ℤ) : Prop :=
  self.InRange px py ∧ self.InRange (px + w - 1) (py + h - 1)

instance : Decidable (self.CornersInRange px py w h) :=
  inferInstanceAs (Decidable (self.InRange px py ∧ self.InRange (px + w - 1) (py + h - 1)))

/-- Between two corners that are shown everything is. -/
theorem CornersInRange.inRange (hcorners : self.CornersInRange px py w h) {x y : ℤ}
    (hmem : InRect px py w h x y) : self.InRange x y := by
  obtain ⟨⟨hx, -, hy, -⟩, -, hx', -, hy'⟩ := hcorners
  obtain ⟨⟨hlo, hhi⟩, hlo', hhi'⟩ := hmem
  exact ⟨by omega, by omega, by omega, by omega⟩

/-- The corners of a rectangle that has pixels are shown exactly when these are. -/
theorem corners_iff (hw : 1 ≤ w) (hh : 1 ≤ h) :
    self.CornersInRange px py w h ↔ ∀ x y, InRect px py w h x y → self.InRange x y := by
  constructor
  · exact fun hcorners x y hmem => hcorners.inRange hmem
  · intro hall
    exact ⟨hall _ _ ⟨⟨by omega, by omega⟩, by omega, by omega⟩,
      hall _ _ ⟨⟨by omega, by omega⟩, by omega, by omega⟩⟩

/-- The sums that `fill_rect` computes fit. -/
structure NoOverflow (px py w h : ℤ) : Prop where
  right : I64.Fits (px + w)
  right_sub_one : I64.Fits (px + w - 1)
  bottom : I64.Fits (py + h)
  bottom_sub_one : I64.Fits (py + h - 1)

/-- The test finds out whether both corners are shown. -/
theorem rectOutOfRange_eq (hfits : NoOverflow px py w h) :
    self.rectOutOfRange px py w h m = .ok (!decide (self.CornersInRange px py w h)) m := by
  have hcorners : decide (self.CornersInRange px py w h) =
      (self.isInXRange px && self.isInYRange py && self.isInXRange (px + w - 1) &&
        self.isInYRange (py + h - 1)) := by
    rw [Bool.eq_iff_iff, decide_eq_true_eq, CornersInRange, inRange_iff, inRange_iff]
    simp [and_assoc]
  rw [hcorners, rectOutOfRange]
  cases hx : self.isInXRange px
  · rfl
  cases hy : self.isInYRange py
  · rfl
  simp only [Bool.not_true, Bool.false_eq_true, if_false]
  rw [I64.add_bind hfits.right, I64.sub_bind hfits.right_sub_one]
  cases hx' : self.isInXRange (px + w - 1)
  · rfl
  simp only [Bool.not_true, Bool.false_eq_true, if_false]
  rw [I64.add_bind hfits.bottom, I64.sub_bind hfits.bottom_sub_one]
  rfl

/-- A rectangle whose corners are shown is painted; it is empty when an extent is not positive. -/
theorem fillRect_of_corners (hfits : NoOverflow px py w h)
    (hcorners : self.CornersInRange px py w h) :
    self.Paints color (InRect px py w h) (self.fillRect color px py w h) := by
  -- the inner loop paints one line of the rectangle
  have hline : ∀ y, py ≤ y ∧ y < py + h →
      self.Paints color (fun x' y' => (px ≤ x' ∧ x' < px + w) ∧ y' = y)
        (do
          let xEnd ← I64.add px w
          (I64.range px xEnd).forM fun x => self.uncheckedDrawPoint color x y) := by
    intro y hy m
    obtain ⟨m', hrun, hpainted⟩ := (Paints.forM fun x hx => Paints.uncheckedDrawPoint
      (hcorners.inRange ⟨I64.mem_range.1 hx, hy⟩) color) m
    refine ⟨m', ?_, hpainted.congr fun x' y' => ?_⟩
    · rw [I64.add_bind hfits.right, hrun]
    · simp
  intro m
  obtain ⟨m', hrun, hpainted⟩ := (Paints.forM fun y hy => hline y (I64.mem_range.1 hy)) m
  refine ⟨m', ?_, hpainted.congr fun x' y' => ?_⟩
  · rw [fillRect, Method.bind_of_ok (rectOutOfRange_eq hfits), decide_eq_true hcorners]
    simp only [Bool.not_true, Bool.false_eq_true, if_false]
    rw [I64.add_bind hfits.bottom, hrun]
  · simp only [I64.mem_range, InRect]
    constructor
    · rintro ⟨y, hy, hx, rfl⟩
      exact ⟨hx, hy⟩
    · rintro ⟨hx, hy⟩
      exact ⟨y', hy, hx, rfl⟩

/-- A rectangle of which a corner is not shown is refused. -/
theorem fillRect_of_not_corners (color : BitVec 32) (hfits : NoOverflow px py w h)
    (hcorners : ¬self.CornersInRange px py w h) (m : Memory) :
    self.fillRect color px py w h m = .error (.err "out of range") m := by
  rw [fillRect, Method.bind_of_ok (rectOutOfRange_eq hfits), decide_eq_false hcorners]
  rfl

/-- For every bitmap, every rectangle whose sums do not overflow and every content of the memory:
with positive extents `fill_rect` returns `Ok` exactly when all pixels of the rectangle are shown,
and then these hold the color and no other byte has changed; when it returns `Err`, or when an
extent is not positive, no byte has changed. -/
theorem fillRect_paints (self : Bitmap) (color : BitVec 32) (px py w h : ℤ)
    (hfits : NoOverflow px py w h) (m : Memory) :
    (1 ≤ w → 1 ≤ h →
      ((∃ m', self.fillRect color px py w h m = .ok () m') ↔
        ∀ x y, InRect px py w h x y → self.InRange x y) ∧
      ∀ m', self.fillRect color px py w h m = .ok () m' →
        self.Painted color (InRect px py w h) m m') ∧
    (∀ e m', self.fillRect color px py w h m = .error e m' →
      e = .err "out of range" ∧ m' = m) ∧
    (w ≤ 0 ∨ h ≤ 0 → (self.fillRect color px py w h).stateAfter m = m) := by
  -- the test is about two corners only, which decide about all pixels by `corners_iff`
  by_cases hcorners : self.CornersInRange px py w h
  · obtain ⟨m', hrun, hpainted⟩ := fillRect_of_corners hfits hcorners m
    rw [hrun, Method.stateAfter_of_ok hrun]
    refine ⟨fun hw hh => ⟨?_, ?_⟩, ?_, fun hempty => ?_⟩
    · exact iff_of_true ⟨m', rfl⟩ ((corners_iff hw hh).1 hcorners)
    · rintro _ ⟨⟩
      exact hpainted
    · rintro e _ ⟨⟩
    -- no pixel is in an empty rectangle
    · funext a
      refine hpainted.frame a fun x y hmem => ?_
      obtain ⟨⟨hlo, hhi⟩, hlo', hhi'⟩ := hmem
      omega
  · have hrun := fillRect_of_not_corners color hfits hcorners m
    rw [hrun, Method.stateAfter_of_error hrun]
    refine ⟨fun hw hh => ⟨?_, ?_⟩, ?_, fun _ => rfl⟩
    · refine iff_of_false ?_ (mt (corners_iff hw hh).2 hcorners)
      rintro ⟨m', ⟨⟩⟩
    · rintro m' ⟨⟩
    · rintro e m' ⟨⟩
      exact ⟨rfl, rfl⟩

/-- A bitmap of eight columns, of which six are shown, and four scan lines. -/
def sixByFour : Bitmap :=
  VramBufferInfo.bitmap { buf := 0x1000, width := 6, height := 4, pixelsPerLine := 8 } 128
    (by decide) (by decide)

theorem fillRect_paints_sixByFour :
    (1 ≤ (2 : ℤ) → 1 ≤ (3 : ℤ) →
      ((∃ m', sixByFour.fillRect 0xff 4 1 2 3 (fun _ => 0) = .ok () m') ↔
        ∀ x y, InRect 4 1 2 3 x y → sixByFour.InRange x y) ∧
      ∀ m', sixByFour.fillRect 0xff 4 1 2 3 (fun _ => 0) = .ok () m' →
        sixByFour.Painted 0xff (InRect 4 1 2 3) (fun _ => 0) m') ∧
    (∀ e m', sixByFour.fillRect 0xff 4 1 2 3 (fun _ => 0) = .error e m' →
      e = .err "out of range" ∧ m' = fun _ => 0) ∧
    ((2 : ℤ) ≤ 0 ∨ (3 : ℤ) ≤ 0 →
      (sixByFour.fillRect 0xff 4 1 2 3).stateAfter (fun _ => 0) = fun _ => 0) :=
  fillRect_paints sixByFour 0xff 4 1 2 3
    ⟨by decide, by decide, by decide, by decide⟩ (fun _ => 0)

end Bitmap

end Mushix
