import Mushix.Graphics.Rect
import Mushix.Lib.Rounding

/-!
# Lines

`draw_line` (`graphics.rs`): a line goes along the axis on which its ends are farther apart, one
pixel at a time, and the other coordinate is the nearest one by `calc_slope_point`.

* `calcSlopePoint`, `Bitmap.drawLine`: the functions;
* `calcSlopePoint_eq`: the slope point is the rounded quotient of `Rounding.nearest`;
* `Bitmap.drawLine_paints`: the pixels that are painted;
* `Bitmap.drawLine_misses_end`: the end of the line is not among them.
-/

namespace Mushix

open Bytes (Memory writeLE)
open Rounding (nearest)

/-- `calc_slope_point` finds the offset on the short side that belongs to an offset on the long
side. -/
def calcSlopePoint {σ : Type} (da db ia : ℤ) : Method σ (Option ℤ) := do
  if da < db then
    return none
  else if da = 0 then
    return some 0
  else if 0 ≤ ia ∧ ia ≤ da then
    -- `ia * db / da`, rounded to the nearest integer
    let sum ← I64.add (← I64.mul (← I64.mul 2 db) ia) da
    return some (← I64.div (← I64.div sum da) 2)
  else
    return none

namespace Bitmap

/-- The loop of `draw_line` along the axis on which the ends are `da` apart: the points are drawn
while the iterator computes them. -/
def drawPoints (da db : ℤ) (draw : ℤ → ℤ → Method Memory Unit) : Method Memory Unit :=
  (I64.range 0 da).forM fun ia => do
    match ← calcSlopePoint da db ia with
    | some ib => draw ia ib
    | none => return ()

/-- The call of `draw_point` in either loop of `draw_line`. -/
def drawAt (self : Bitmap) (color : BitVec 32) (x0 y0 sx sy rx ry : ℤ) : Method Memory Unit := do
  let x ← I64.add x0 (← I64.mul rx sx)
  let y ← I64.add y0 (← I64.mul ry sy)
  self.drawPoint color x y

/-- `draw_line` refuses ends that are not shown, and steps along the longer axis. -/
def drawLine (self : Bitmap) (color : BitVec 32) (x0 y0 x1 y1 : ℤ) : Method Memory Unit := do
  if !self.isInXRange x0 || !self.isInXRange x1 || !self.isInYRange y0 || !self.isInYRange y1 then
    throw (.err "out of range")
  let dx ← I64.abs (← I64.sub x1 x0)
  let sx := (← I64.sub x1 x0).sign
  let dy ← I64.abs (← I64.sub y1 y0)
  let sy := (← I64.sub y1 y0).sign
  -- the longer axis has the steps, and the coordinate along the other one is rounded
  if dx ≥ dy then
    drawPoints dx dy fun rx ry => self.drawAt color x0 y0 sx sy rx ry
  else
    drawPoints dy dx fun ry rx => self.drawAt color x0 y0 sx sy rx ry

end Bitmap

/-- The numbers that `calc_slope_point` computes fit as long as there is a buffer for a rectangle
with these sides. -/
theorem run_calcSlopePoint {σ : Type} {da db ia : ℤ} {s : σ} (hdb : 0 ≤ db) (hle : db ≤ da)
    (hia : 0 ≤ ia) (hlt : ia < da) (harea : (da + 1) * (db + 1) * 4 < 2 ^ 63) :
    calcSlopePoint da db ia s = .ok (some (nearest da db ia)) s := by
  have hpos : 0 < da := by omega
  -- the sum is the largest number on the way, and the area bounds it
  have hprod : 0 ≤ 2 * db * ia := by positivity
  have hmul : db * ia ≤ db * da := mul_le_mul_of_nonneg_left hlt.le hdb
  have hsum : 2 * db * ia + da < 2 ^ 63 := by nlinarith
  have hquot : 0 ≤ (2 * db * ia + da) / da := by positivity
  rw [calcSlopePoint, if_neg (by omega), if_neg (by omega), if_pos ⟨hia, hlt.le⟩]
  rw [I64.mul_bind (I64.fits_of_nonneg (by omega) (by nlinarith)),
    I64.mul_bind (I64.fits_of_nonneg hprod (by omega)),
    I64.add_bind (I64.fits_of_nonneg (by omega) hsum),
    I64.div_bind (by omega) hpos (I64.fits_of_nonneg (by omega) hsum),
    I64.div_bind hquot (by decide) (I64.fits_of_nonneg hquot ?_)]
  · rfl
  · exact (Int.ediv_le_self da (by omega)).trans_lt hsum

/-- A coordinate on the way from one end to the other one. -/
def toward (a b k : ℤ) : ℤ := a + k * (b - a).sign

/-- On the way no coordinate leaves an interval that has both ends. -/
theorem toward_bounds {a b k lo hi : ℤ} (ha : lo ≤ a ∧ a < hi) (hb : lo ≤ b ∧ b < hi) (hk : 0 ≤ k)
    (hle : k ≤ |b - a|) : lo ≤ toward a b k ∧ toward a b k < hi := by
  -- one case for each direction, and one for ends with the same coordinate
  rw [toward]
  rcases lt_trichotomy (b - a) 0 with hneg | hzero | hpos
  · rw [abs_of_neg hneg] at hle
    rw [Int.sign_eq_neg_one_of_neg hneg]
    omega
  · rw [hzero, Int.sign_zero, mul_zero, add_zero]
    exact ha
  · rw [abs_of_pos hpos] at hle
    rw [Int.sign_eq_one_of_pos hpos]
    omega

/-- The other end is only reached after its distance. -/
theorem toward_eq_right_iff {a b k : ℤ} (hk : 0 ≤ k) (hle : k ≤ |b - a|) :
    toward a b k = b ↔ k = |b - a| := by
  rw [toward]
  rcases lt_trichotomy (b - a) 0 with hneg | hzero | hpos
  · rw [abs_of_neg hneg, Int.sign_eq_neg_one_of_neg hneg]
    omega
  · rw [hzero, abs_zero] at hle
    rw [hzero, Int.sign_zero, abs_zero]
    omega
  · rw [abs_of_pos hpos, Int.sign_eq_one_of_pos hpos]
    omega

namespace Bitmap

variable {self : Bitmap} {color : BitVec 32} {x0 y0 x1 y1 : ℤ} {m : Memory}

/-- The loop paints a point for every step along the axis. -/
theorem drawPoints_paints {da db : ℤ} {S : ℤ → ℤ → ℤ → Prop} (draw : ℤ → ℤ → Method Memory Unit)
    (hdb : 0 ≤ db) (hle : db ≤ da) (harea : (da + 1) * (db + 1) * 4 < 2 ^ 63)
    (hdraw : ∀ k, 0 ≤ k → k < da → self.Paints color (S k) (draw k (nearest da db k))) :
    self.Paints color (fun x y => ∃ k, (0 ≤ k ∧ k < da) ∧ S k x y) (drawPoints da db draw) := by
  have hbody : ∀ k ∈ I64.range 0 da, self.Paints color (S k) (do
      match ← calcSlopePoint da db k with
      | some ib => draw k ib
      | none => return ()) := by
    intro k hk m
    obtain ⟨hlo, hhi⟩ := I64.mem_range.1 hk
    obtain ⟨m', hrun, hpainted⟩ := hdraw k hlo hhi m
    refine ⟨m', ?_, hpainted⟩
    rw [Method.bind_of_ok (run_calcSlopePoint hdb hle hlo hhi harea)]
    exact hrun
  -- `calc_slope_point` is never `None` here, so that no step is left out
  exact (Paints.forM hbody).congr fun x y => by simp

/-- The coordinates of a pixel that is shown fit. -/
theorem InRange.lt_two_pow {x y : ℤ} (h : self.InRange x y) : x < 2 ^ 63 ∧ y < 2 ^ 63 := by
  obtain ⟨hline, hindex, -⟩ := h.index_bounds
  have hle := h.offset_bounds.2
  have hfour := self.four_le
  have hlen := self.len_lt
  -- neither coordinate exceeds the offset, which lies in the buffer
  have hoffset : y * self.pixelPerLine + x ≤ self.offset x y :=
    le_mul_of_one_le_right hindex (by omega)
  have hy : y ≤ y * self.pixelPerLine :=
    le_mul_of_one_le_right h.2.2.1 (by have := h.1; have := h.2.1; omega)
  have hx := h.1
  constructor <;> omega

/-- Between two pixels that are shown there is a rectangle of which all pixels are stored. -/
theorem area_lt (h : self.InRange x0 y0) (h' : self.InRange x1 y1) :
    (|x1 - x0| + 1) * (|y1 - y0| + 1) * 4 < 2 ^ 63 := by
  obtain ⟨hx, hx', hy, hy'⟩ := h
  obtain ⟨hx1, hx1', hy1, hy1'⟩ := h'
  have hfour := self.four_le
  have hroom := self.room
  have hlen := self.len_lt
  have hdx : |x1 - x0| + 1 ≤ self.pixelPerLine := by
    have := abs_lt.2 ⟨show -self.pixelPerLine < x1 - x0 by omega, by omega⟩
    omega
  have hdy : |y1 - y0| + 1 ≤ self.height := by
    have := abs_lt.2 ⟨show -self.height < y1 - y0 by omega, by omega⟩
    omega
  have hpos : 0 < self.pixelPerLine := by have := abs_nonneg (x1 - x0); omega
  have hsides : (|x1 - x0| + 1) * (|y1 - y0| + 1) ≤ self.pixelPerLine * self.height :=
    mul_le_mul hdx hdy (by positivity) hpos.le
  calc (|x1 - x0| + 1) * (|y1 - y0| + 1) * 4
      ≤ self.pixelPerLine * self.height * 4 := mul_le_mul_of_nonneg_right hsides (by norm_num)
    _ ≤ self.pixelPerLine * self.height * self.bytesPerPixel :=
        mul_le_mul_of_nonneg_left hfour (mul_nonneg hpos.le (hy.trans hy'.le))
    _ = self.height * self.pixelPerLine * self.bytesPerPixel := by ring
    _ < 2 ^ 63 := hroom.trans_lt hlen

/-- The pixel at the distance `k` along the axis on which the ends are farther apart, and at the
distance `j` along the other one. -/
def AtDistance (x0 y0 x1 y1 k j x y : ℤ) : Prop :=
  if |y1 - y0| ≤ |x1 - x0| then x = toward x0 x1 k ∧ y = toward y0 y1 j
  else x = toward x0 x1 j ∧ y = toward y0 y1 k

/-- The steps of a line. -/
def steps (x0 y0 x1 y1 : ℤ) : ℤ := max |x1 - x0| |y1 - y0|

/-- The distance along the other axis. -/
def minorSteps (x0 y0 x1 y1 : ℤ) : ℤ := min |x1 - x0| |y1 - y0|

/-- The distance along the other axis at the step `k`. -/
def minorAt (x0 y0 x1 y1 k : ℤ) : ℤ := nearest (steps x0 y0 x1 y1) (minorSteps x0 y0 x1 y1) k

/-- The pixels of a line. -/
def OnLine (x0 y0 x1 y1 x y : ℤ) : Prop :=
  ∃ k, (0 ≤ k ∧ k < steps x0 y0 x1 y1) ∧ AtDistance x0 y0 x1 y1 k (minorAt x0 y0 x1 y1 k) x y

/-- Between two pixels that are shown all pixels are. -/
theorem InRange.toward (h : self.InRange x0 y0) (h' : self.InRange x1 y1) {rx ry : ℤ}
    (hrx : 0 ≤ rx) (hrx' : rx ≤ |x1 - x0|) (hry : 0 ≤ ry) (hry' : ry ≤ |y1 - y0|) :
    self.InRange (toward x0 x1 rx) (toward y0 y1 ry) := by
  obtain ⟨hx, hx', hy, hy'⟩ := h
  obtain ⟨hx1, hx1', hy1, hy1'⟩ := h'
  obtain ⟨hlo, hhi⟩ := toward_bounds ⟨hx, hx'⟩ ⟨hx1, hx1'⟩ hrx hrx'
  obtain ⟨hlo', hhi'⟩ := toward_bounds ⟨hy, hy'⟩ ⟨hy1, hy1'⟩ hry hry'
  exact ⟨hlo, hhi, hlo', hhi'⟩

/-- The point at the distances `rx` and `ry` is drawn. -/
theorem drawAt_paints (h : self.InRange x0 y0) (h' : self.InRange x1 y1) {rx ry : ℤ}
    (hrx : 0 ≤ rx) (hrx' : rx ≤ |x1 - x0|) (hry : 0 ≤ ry) (hry' : ry ≤ |y1 - y0|) :
    self.Paints color (fun x y => x = toward x0 x1 rx ∧ y = toward y0 y1 ry)
      (self.drawAt color x0 y0 (x1 - x0).sign (y1 - y0).sign rx ry) := by
  intro m
  have hin := h.toward h' hrx hrx' hry hry'
  have hlt := h.lt_two_pow
  have hlt' := hin.lt_two_pow
  have hpos := h.1
  have hpos' := h.2.2.1
  have hin₁ := hin.1
  have hin₂ := hin.2.2.1
  obtain ⟨m', hrun, hpainted⟩ := Paints.drawPoint hin color m
  refine ⟨m', ?_, hpainted⟩
  -- the products are differences of coordinates, which are less than `2 ^ 63` apart
  simp only [Mushix.toward] at hlt' hin₁ hin₂ hrun
  rw [drawAt, I64.mul_bind ⟨by omega, by omega⟩, I64.add_bind (I64.fits_of_nonneg hin₁ hlt'.1),
    I64.mul_bind ⟨by omega, by omega⟩, I64.add_bind (I64.fits_of_nonneg hin₂ hlt'.2)]
  exact hrun

/-- The distance along the other axis does not exceed that of the ends. -/
theorem minorAt_bounds {k : ℤ} (hk : 0 ≤ k) (hlt : k < steps x0 y0 x1 y1) :
    0 ≤ minorAt x0 y0 x1 y1 k ∧ minorAt x0 y0 x1 y1 k ≤ minorSteps x0 y0 x1 y1 := by
  have hpos : 0 < steps x0 y0 x1 y1 := by omega
  have hminor : 0 ≤ minorSteps x0 y0 x1 y1 := le_min (abs_nonneg _) (abs_nonneg _)
  exact ⟨Rounding.nearest_nonneg hpos hminor hk, Rounding.nearest_le_of_le hpos hminor hlt.le⟩

/-- The test of the ends. -/
theorem ends_inRange_iff : self.InRange x0 y0 ∧ self.InRange x1 y1 ↔
    (!self.isInXRange x0 || !self.isInXRange x1 || !self.isInYRange y0 ||
      !self.isInYRange y1) = false := by
  rw [inRange_iff, inRange_iff]
  cases self.isInXRange x0 <;> cases self.isInXRange x1 <;> cases self.isInYRange y0 <;> simp

/-- A line between pixels that are shown is drawn, without an error on the way. -/
theorem drawLine_of_inRange (color : BitVec 32) (h : self.InRange x0 y0) (h' : self.InRange x1 y1) :
    self.Paints color (OnLine x0 y0 x1 y1) (self.drawLine color x0 y0 x1 y1) := by
  have harea := area_lt h h'
  have hlt := h.lt_two_pow
  have hlt' := h'.lt_two_pow
  have hx := h.1
  have hx' := h'.1
  have hy := h.2.2.1
  have hy' := h'.2.2.1
  have hdx : I64.Fits (x1 - x0) := ⟨by omega, by omega⟩
  have hdy : I64.Fits (y1 - y0) := ⟨by omega, by omega⟩
  have hdx' : I64.Fits |x1 - x0| :=
    I64.fits_of_nonneg (abs_nonneg _) (abs_lt.2 ⟨by omega, by omega⟩)
  have hdy' : I64.Fits |y1 - y0| :=
    I64.fits_of_nonneg (abs_nonneg _) (abs_lt.2 ⟨by omega, by omega⟩)
  intro m
  rw [drawLine, ends_inRange_iff.1 ⟨h, h'⟩]
  simp only [Bool.false_eq_true, if_false]
  rw [I64.sub_bind hdx, I64.abs_bind hdx', I64.sub_bind hdx, I64.sub_bind hdy, I64.abs_bind hdy',
    I64.sub_bind hdy]
  -- along the x axis, or along the y axis with the coordinates exchanged
  by_cases hle : |y1 - y0| ≤ |x1 - x0|
  · obtain ⟨m', hrun, hpainted⟩ := drawPoints_paints
      (fun rx ry => self.drawAt color x0 y0 (x1 - x0).sign (y1 - y0).sign rx ry)
      (abs_nonneg _) hle harea
      (fun k hk hklt => drawAt_paints h h' hk hklt.le
        (Rounding.nearest_nonneg (hk.trans_lt hklt) (abs_nonneg _) hk)
        (Rounding.nearest_le_of_le (hk.trans_lt hklt) (abs_nonneg _) hklt.le)) m
    rw [if_pos hle]
    refine ⟨m', hrun, hpainted.congr fun x y => ?_⟩
    simp only [OnLine, AtDistance, if_pos hle, minorAt, steps, minorSteps, max_eq_left hle,
      min_eq_right hle]
  · have hle' : |x1 - x0| ≤ |y1 - y0| := (not_le.1 hle).le
    rw [mul_comm (|x1 - x0| + 1)] at harea
    obtain ⟨m', hrun, hpainted⟩ := drawPoints_paints
      (fun ry rx => self.drawAt color x0 y0 (x1 - x0).sign (y1 - y0).sign rx ry)
      (abs_nonneg _) hle' harea
      (fun k hk hklt => drawAt_paints h h'
        (Rounding.nearest_nonneg (hk.trans_lt hklt) (abs_nonneg _) hk)
        (Rounding.nearest_le_of_le (hk.trans_lt hklt) (abs_nonneg _) hklt.le) hk hklt.le) m
    rw [if_neg hle]
    refine ⟨m', hrun, hpainted.congr fun x y => ?_⟩
    simp only [OnLine, AtDistance, if_neg hle, minorAt, steps, minorSteps, max_eq_right hle',
      min_eq_left hle']

/-- A line of which an end is not shown is refused. -/
theorem drawLine_of_not_inRange (h : ¬(self.InRange x0 y0 ∧ self.InRange x1 y1)) (m : Memory) :
    self.drawLine color x0 y0 x1 y1 m = .error (.err "out of range") m := by
  rw [drawLine, eq_true_of_ne_false (mt ends_inRange_iff.2 h)]
  rfl

/-- For every bitmap, all ends and every content of the memory: `draw_line` returns `Err` and writes
nothing when an end is not shown. Otherwise it returns `Ok` and has painted, at every step, the
pixel at that distance along the axis on which the ends are farther apart, and at the distance along
the other axis that is nearest to the line, which never decreases and grows by one at most; no other
pixel and no other byte has changed. -/
theorem drawLine_paints (self : Bitmap) (color : BitVec 32) (x0 y0 x1 y1 : ℤ) (m : Memory) :
    (¬(self.InRange x0 y0 ∧ self.InRange x1 y1) →
      self.drawLine color x0 y0 x1 y1 m = .error (.err "out of range") m) ∧
    (self.InRange x0 y0 ∧ self.InRange x1 y1 →
      ∃ m', self.drawLine color x0 y0 x1 y1 m = .ok () m' ∧
        ∃ minor : ℤ → ℤ,
          (∀ k, 0 ≤ k ∧ k < steps x0 y0 x1 y1 →
            2 * |minor k * steps x0 y0 x1 y1 - k * minorSteps x0 y0 x1 y1| ≤ steps x0 y0 x1 y1 ∧
              0 ≤ minor k ∧ minor k ≤ minorSteps x0 y0 x1 y1) ∧
          (∀ k, 0 ≤ k ∧ k + 1 < steps x0 y0 x1 y1 →
            minor k ≤ minor (k + 1) ∧ minor (k + 1) ≤ minor k + 1) ∧
          self.Painted color
            (fun x y => ∃ k, (0 ≤ k ∧ k < steps x0 y0 x1 y1) ∧
              AtDistance x0 y0 x1 y1 k (minor k) x y) m m') := by
  refine ⟨fun h => drawLine_of_not_inRange h m, ?_⟩
  rintro ⟨h, h'⟩
  obtain ⟨m', hrun, hpainted⟩ := drawLine_of_inRange color h h' m
  have hminor : 0 ≤ minorSteps x0 y0 x1 y1 := le_min (abs_nonneg _) (abs_nonneg _)
  have hle : minorSteps x0 y0 x1 y1 ≤ steps x0 y0 x1 y1 := min_le_max
  refine ⟨m', hrun, minorAt x0 y0 x1 y1, ?_, ?_, hpainted⟩
  -- every point is the nearest one
  · rintro k ⟨hk, hlt⟩
    have hpos : 0 < steps x0 y0 x1 y1 := hk.trans_lt hlt
    refine ⟨?_, minorAt_bounds hk hlt⟩
    have hhigh := Rounding.nearest_le (b := minorSteps x0 y0 x1 y1) (i := k) hpos
    have hlow := Rounding.lt_nearest (b := minorSteps x0 y0 x1 y1) (i := k) hpos
    rw [minorAt]
    rcases abs_cases (nearest (steps x0 y0 x1 y1) (minorSteps x0 y0 x1 y1) k *
      steps x0 y0 x1 y1 - k * minorSteps x0 y0 x1 y1) with ⟨habs, -⟩ | ⟨habs, -⟩
    · rw [habs]
      exact hhigh
    · rw [habs, neg_sub]
      exact hlow.le
  -- and the next one is not farther away than one pixel
  · rintro k ⟨hk, hlt⟩
    have hpos : 0 < steps x0 y0 x1 y1 := by omega
    exact ⟨Rounding.nearest_mono hpos hminor (by omega), Rounding.nearest_succ_le hpos hle⟩

/-! ## The ends of a line -/

/-- A line between these pixels paints both of them, whatever they held before. -/
def PaintsEnds (b : Bitmap) (color : BitVec 32) (x0 y0 x1 y1 : ℤ) : Prop :=
  ∀ m m', b.drawLine color x0 y0 x1 y1 m = .ok () m' →
    b.pixel m' x0 y0 = color ∧ b.pixel m' x1 y1 = color

/-- The loop ends one step before the end of the line. -/
theorem not_onLine_end : ¬OnLine x0 y0 x1 y1 x1 y1 := by
  rintro ⟨k, ⟨hk, hlt⟩, hat⟩
  -- on the longer axis the end is as far away as there are steps, and the last step is not drawn
  rw [AtDistance] at hat
  rw [steps] at hlt
  split at hat <;> rename_i hle
  · rw [max_eq_left hle] at hlt
    have heq := (toward_eq_right_iff hk hlt.le).1 hat.1.symm
    exact hlt.ne heq
  · rw [max_eq_right (not_le.1 hle).le] at hlt
    have heq := (toward_eq_right_iff hk hlt.le).1 hat.2.symm
    exact hlt.ne heq

/-- So that pixel keeps what it held. -/
theorem pixel_end_of_ok {m' : Memory} (h : self.InRange x0 y0) (h' : self.InRange x1 y1)
    (hok : self.drawLine color x0 y0 x1 y1 m = .ok () m') :
    self.pixel m' x1 y1 = self.pixel m x1 y1 := by
  obtain ⟨m₁, hrun, hpainted⟩ := drawLine_of_inRange color h h' m
  rw [hrun] at hok
  cases hok
  exact hpainted.pixel_of_not_mem h' not_onLine_end

/-- Before the line is drawn, the end of it may hold another color. -/
theorem not_paintsEnds (h : self.InRange x0 y0) (h' : self.InRange x1 y1) :
    ¬self.PaintsEnds color x0 y0 x1 y1 := by
  intro hends
  -- the complement of the color is another color that the end can hold before
  have hother : color ≠ ~~~color := by
    intro heq
    have hbit := congrArg (BitVec.getLsbD · 0) heq
    simp at hbit
  have hpixel := (h'.painted (~~~color) fun _ => 0).pixel_eq x1 y1 ⟨rfl, rfl⟩
  obtain ⟨m', hrun, -⟩ := drawLine_of_inRange color h h'
    (writeLE (fun _ => 0) (self.addr x1 y1) 4 (~~~color).toNat)
  have hend := (hends _ m' hrun).2
  rw [pixel_end_of_ok h h' hrun, hpixel] at hend
  exact hother hend.symm

/-- No line paints both of its ends: whatever the bitmap, the color and the two pixels are, the
second one holds after `draw_line` what it held before. -/
theorem drawLine_misses_end (self : Bitmap) (color : BitVec 32) (x0 y0 x1 y1 : ℤ)
    (h : self.InRange x0 y0) (h' : self.InRange x1 y1) :
    ¬self.PaintsEnds color x0 y0 x1 y1 ∧
      ∀ m m', self.drawLine color x0 y0 x1 y1 m = .ok () m' →
        self.pixel m' x1 y1 = self.pixel m x1 y1 :=
  ⟨not_paintsEnds h h', fun _ _ => pixel_end_of_ok h h'⟩

theorem drawLine_misses_end_sixByFour :
    ¬sixByFour.PaintsEnds 0xff 1 3 5 0 ∧
      ∀ m m', sixByFour.drawLine 0xff 1 3 5 0 m = .ok () m' →
        sixByFour.pixel m' 5 0 = sixByFour.pixel m 5 0 :=
  drawLine_misses_end sixByFour 0xff 1 3 5 0 (by decide) (by decide)

/-- A horizontal line of which only the first pixel is painted. -/
theorem sixByFour_not_paintsEnds :
    sixByFour.InRange 0 0 ∧ sixByFour.InRange 1 0 ∧ ¬sixByFour.PaintsEnds 0xff 0 0 1 0 :=
  ⟨by decide, by decide, not_paintsEnds (by decide) (by decide)⟩

end Bitmap

end Mushix
