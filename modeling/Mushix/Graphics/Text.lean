import Mushix.Graphics.Bitmap
import Mushix.Graphics.Font

/-!
# Text on a bitmap

`draw_font_fg` and `BitmapTextWriter` (`graphics.rs`) draw characters of eight by sixteen pixels.
The writer keeps a cursor, which a line break moves to the start of the next line of characters;
there is neither a line wrap nor a scroll, and pixels that are not shown are left out.

* `Bitmap.drawFontFg`: a character in a given place;
* `TextWriter.writeStr`: `write_str`;
* `TextWriter.forM_writeStr_paints`: what any sequence of calls of `write_str` paints.
-/

namespace Mushix

open Bytes (Memory)

namespace Bitmap

variable (self : Bitmap) (font : Font)

/-- The body of the loops of `draw_font_fg`, which ignores the result of `draw_point`. -/
def drawGlyphPixel (x y : ℤ) (color : BitVec 32) (pixel : Char) (dx dy : ℕ) :
    Method Memory Unit := do
  if pixel = '*' then
    let px ← I64.add x dx
    let py ← I64.add y dy
    let _ ← Method.attempt (self.drawPoint color px py)

/-- `draw_font_fg` draws the glyph of a character, if it has one, in the rows and columns from `(x,
y)` on. -/
def drawFontFg (x y : ℤ) (color : BitVec 32) (c : Char) : Method Memory Unit :=
  match font.glyph c with
  | some glyph =>
    glyph.toList.zipIdx.forM fun row =>
      row.1.toList.zipIdx.forM fun pixel =>
        self.drawGlyphPixel x y color pixel.1 pixel.2 row.2
  | none => return ()

/-- The pixel is shown and set in the glyph of `c` that is drawn at `(x, y)`. -/
def InGlyph (c : Char) (x y px py : ℤ) : Prop :=
  self.InRange px py ∧ ∃ glyph, font.glyph c = some glyph ∧
    ∃ (dy dx : ℕ) (hy : dy < 16) (hx : dx < 8),
      glyph[dy][dx] = '*' ∧ px = x + dx ∧ py = y + dy

/-- The places of the pixels of a glyph are computed without an overflow. -/
structure GlyphFits (x y : ℤ) : Prop where
  left : I64.Fits x
  right : I64.Fits (x + 7)
  top : I64.Fits y
  bottom : I64.Fits (y + 15)

variable {self font} {x y : ℤ} {color : BitVec 32} {c : Char}

/-- A pixel that is not shown is not drawn. -/
theorem drawPoint_of_not_inRange (h : ¬self.InRange x y) (m : Memory) :
    self.drawPoint color x y m = .error (.err "out of range") m := by
  have hrange : (self.isInXRange x && self.isInYRange y) = false := by
    rw [inRange_iff, ← Bool.and_eq_true] at h
    exact Bool.eq_false_of_not_eq_true h
  have hpixel : self.pixelAtMut x y m = .ok none m := by
    rw [pixelAtMut, hrange]
    rfl
  rw [drawPoint, Method.bind_of_ok hpixel]
  rfl

/-- `let _ = draw_point(..)` paints the pixel if it is shown. -/
theorem Paints.attempt_drawPoint (self : Bitmap) (color : BitVec 32) (x y : ℤ) :
    self.Paints color (fun x' y' => self.InRange x' y' ∧ x' = x ∧ y' = y) (do
      let _ ← Method.attempt (self.drawPoint color x y)) := by
  intro m
  by_cases h : self.InRange x y
  · obtain ⟨m', hrun, hpainted⟩ := Paints.drawPoint h color m
    have hattempt : Method.attempt (self.drawPoint color x y) m = .ok (.ok ()) m' := by
      rw [Method.attempt, hrun]
    refine ⟨m', by rw [Method.bind_of_ok hattempt]; rfl, hpainted.congr fun x' y' => ?_⟩
    constructor
    · rintro ⟨rfl, rfl⟩
      exact ⟨h, rfl, rfl⟩
    · exact And.right
  · have hattempt : Method.attempt (self.drawPoint color x y) m =
        .ok (.error "out of range") m := by
      rw [Method.attempt, drawPoint_of_not_inRange h]
    refine ⟨m, by rw [Method.bind_of_ok hattempt]; rfl, (Painted.empty m).congr fun x' y' => ?_⟩
    refine iff_of_false id ?_
    rintro ⟨hin, rfl, rfl⟩
    exact h hin

/-- A pixel of a glyph is painted if it is set and shown. -/
theorem drawGlyphPixel_paints (self : Bitmap) (color : BitVec 32) (pixel : Char) {dx dy : ℕ}
    (hfits : GlyphFits x y) (hdx : dx < 8) (hdy : dy < 16) :
    self.Paints color
      (fun px py => pixel = '*' ∧ self.InRange px py ∧ px = x + dx ∧ py = y + dy)
      (self.drawGlyphPixel x y color pixel dx dy) := by
  obtain ⟨⟨hleft, -⟩, ⟨-, hright⟩, ⟨htop, -⟩, -, hbottom⟩ := hfits
  intro m
  by_cases hpixel : pixel = '*'
  · have hx : I64.Fits (x + dx) := ⟨by omega, by omega⟩
    have hy : I64.Fits (y + dy) := ⟨by omega, by omega⟩
    obtain ⟨m', hrun, hpainted⟩ := Paints.attempt_drawPoint self color (x + dx) (y + dy) m
    refine ⟨m', ?_, hpainted.congr fun px py => by simp [hpixel]⟩
    rw [drawGlyphPixel, if_pos hpixel, I64.add_bind hx, I64.add_bind hy]
    exact hrun
  · exact ⟨m, congrFun (if_neg hpixel) m, (Painted.empty m).congr fun px py => by simp [hpixel]⟩

/-- `draw_font_fg` paints the set pixels of the glyph that are shown. -/
theorem drawFontFg_paints (self : Bitmap) (font : Font) (color : BitVec 32) (c : Char)
    (hfits : GlyphFits x y) :
    self.Paints color (self.InGlyph font c x y) (self.drawFontFg font x y color c) := by
  unfold drawFontFg
  cases hglyph : font.glyph c with
  | none => exact fun m => ⟨m, rfl, (Painted.empty m).congr fun px py => by simp [InGlyph, hglyph]⟩
  | some glyph =>
    -- the rounds of the two loops are the pixels of the glyph
    refine (Paints.forM fun row hrow => Paints.forM fun pixel hpixel =>
      drawGlyphPixel_paints self color pixel.1 hfits ?_ ?_).congr fun px py => ?_
    · have hdx := List.mem_zipIdx' hpixel
      simpa using hdx.1
    · have hdy := List.mem_zipIdx' hrow
      simpa using hdy.1
    · constructor
      · rintro ⟨⟨row, dy⟩, hrow, ⟨pixel, dx⟩, hpixel, rfl, hin, hx, hy⟩
        obtain ⟨hdy, hrow⟩ := List.mem_zipIdx' hrow
        obtain ⟨hdx, hset⟩ := List.mem_zipIdx' hpixel
        rw [Vector.length_toList] at hdy hdx
        rw [Vector.getElem_toList] at hrow hset
        exact ⟨hin, glyph, hglyph, dy, dx, hdy, hdx, by simp only [← hrow, hset], hx, hy⟩
      · rintro ⟨hin, _, hsome, dy, dx, hdy, hdx, hset, hx, hy⟩
        cases hglyph.symm.trans hsome
        refine ⟨(glyph[dy], dy), ?_, (glyph[dy][dx], dx), ?_, hset, hin, hx, hy⟩
        · exact List.mem_zipIdx_iff_getElem?.2 (by simp [hdy])
        · exact List.mem_zipIdx_iff_getElem?.2 (by simp [hdx])

end Bitmap

/-! ## The text writer -/

/-- The cursor of a `BitmapTextWriter`. -/
structure TextCursor where
  cursorX : ℤ
  cursorY : ℤ
  deriving DecidableEq, Repr

namespace TextCursor

/-- A new `BitmapTextWriter` begins at the upper left corner. -/
def start : TextCursor := { cursorX := 0, cursorY := 0 }

/-- The cursor behind a character. -/
def next (cursor : TextCursor) (c : Char) : TextCursor :=
  if c = '\n' then { cursorX := 0, cursorY := cursor.cursorY + 16 }
  else { cursor with cursorX := cursor.cursorX + 8 }

/-- The cursor in front of each character of a text. -/
def places (cursor : TextCursor) : List Char → List (Char × TextCursor)
  | [] => []
  | c :: s => (c, cursor) :: places (cursor.next c) s

/-- There is room for `n` characters on the right and below. -/
structure Room (cursor : TextCursor) (n : ℕ) : Prop where
  left : 0 ≤ cursor.cursorX
  right : cursor.cursorX + 8 * n + 8 < 2 ^ 63
  top : 0 ≤ cursor.cursorY
  bottom : cursor.cursorY + 16 * n + 16 < 2 ^ 63

variable {cursor : TextCursor} {n : ℕ}

/-- A character takes one step of the room. -/
theorem Room.next (h : cursor.Room (n + 1)) (c : Char) : (cursor.next c).Room n := by
  obtain ⟨hleft, hright, htop, hbottom⟩ := h
  unfold TextCursor.next
  split
  · exact ⟨le_rfl, by dsimp only; omega, by dsimp only; omega, by dsimp only; omega⟩
  · exact ⟨by dsimp only; omega, by dsimp only; omega, htop, by dsimp only; omega⟩

/-- Where there is room, the places of a glyph do not overflow. -/
theorem Room.glyphFits (h : cursor.Room n) :
    Bitmap.GlyphFits cursor.cursorX cursor.cursorY := by
  obtain ⟨hleft, hright, htop, hbottom⟩ := h
  constructor <;> exact I64.fits_of_nonneg (by omega) (by omega)

/-! ### Lines and columns -/

/-- The `k`-th character of the `r`-th line of a text. -/
def charAt (s : List Char) (r k : ℕ) : Option Char := ((s.splitOn '\n')[r]?.getD [])[k]?

/-- The place of the column `k` of the line `r` in a text that starts at the cursor. -/
def place (cursor : TextCursor) (r k : ℕ) : TextCursor where
  cursorX := (if r = 0 then cursor.cursorX else 0) + 8 * k
  cursorY := cursor.cursorY + 16 * r

theorem charAt_nil (r k : ℕ) : charAt [] r k = none := by
  rw [charAt, List.splitOn_nil]
  cases r <;> rfl

/-- Behind a line break the lines of the rest follow. -/
theorem charAt_newline (s : List Char) (r k : ℕ) :
    charAt ('\n' :: s) r k = if r = 0 then none else charAt s (r - 1) k := by
  rw [charAt, List.splitOn_cons_eq_if_modifyHead, if_pos (beq_self_eq_true _)]
  cases r <;> rfl

/-- Any other character is the first one of the first line. -/
theorem charAt_cons {c : Char} (hc : c ≠ '\n') (s : List Char) (r k : ℕ) :
    charAt (c :: s) r k =
      if r = 0 then (if k = 0 then some c else charAt s 0 (k - 1)) else charAt s r k := by
  rw [charAt, List.splitOn_cons_eq_if_modifyHead, if_neg (by simpa using hc), charAt, charAt]
  cases hlines : s.splitOn '\n' with
  | nil => exact absurd hlines (List.splitOn_ne_nil '\n' s)
  | cons line lines => cases r <;> cases k <;> rfl

/-- The place behind a line break. -/
theorem place_next_newline (cursor : TextCursor) (r k : ℕ) :
    (cursor.next '\n').place r k = cursor.place (r + 1) k := by
  simp only [place, TextCursor.next, if_pos, ite_self, Nat.add_one_ne_zero, if_false,
    TextCursor.mk.injEq, true_and]
  push_cast
  omega

/-- The place behind any other character. -/
theorem place_next {c : Char} (hc : c ≠ '\n') (cursor : TextCursor) (r k : ℕ) :
    (cursor.next c).place r k = if r = 0 then cursor.place 0 (k + 1) else cursor.place r k := by
  simp only [place, TextCursor.next, if_neg hc]
  split
  next h =>
    subst h
    simp only [if_true, TextCursor.mk.injEq, and_true]
    push_cast
    omega
  next h => simp

/-- The characters of a text that are drawn, with their places, are those of its lines. -/
theorem mem_places_iff {cursor : TextCursor} {s : List Char} {c : Char} {p : TextCursor} :
    (c, p) ∈ cursor.places s ∧ c ≠ '\n' ↔
      ∃ r k, charAt s r k = some c ∧ p = cursor.place r k := by
  induction s generalizing cursor with
  | nil => simp [places, charAt_nil]
  | cons d s ih =>
    rw [places, List.mem_cons, or_and_right, ih]
    -- a line break ends the first line; any other character makes it one longer
    by_cases hd : d = '\n'
    · subst hd
      constructor
      · rintro (⟨⟨⟩, hc⟩ | ⟨r, k, hchar, rfl⟩)
        · exact absurd rfl hc
        · exact ⟨r + 1, k, by rw [charAt_newline]; exact hchar, place_next_newline cursor r k⟩
      · rintro ⟨r, k, hchar, rfl⟩
        rw [charAt_newline] at hchar
        cases r with
        | zero => cases hchar
        | succ r => exact .inr ⟨r, k, hchar, (place_next_newline cursor r k).symm⟩
    · constructor
      · rintro (⟨⟨⟩, -⟩ | ⟨r, k, hchar, rfl⟩)
        · exact ⟨0, 0, by rw [charAt_cons hd]; rfl, by simp [place]⟩
        · rw [place_next hd]
          cases r with
          | zero => exact ⟨0, k + 1, by rw [charAt_cons hd]; exact hchar, rfl⟩
          | succ r => exact ⟨r + 1, k, by rw [charAt_cons hd]; exact hchar, rfl⟩
      · rintro ⟨r, k, hchar, rfl⟩
        rw [charAt_cons hd] at hchar
        cases r with
        | zero =>
          cases k with
          | zero =>
            cases hchar
            exact .inl ⟨by simp [place], hd⟩
          | succ k => exact .inr ⟨0, k, hchar, by rw [place_next hd, if_pos rfl]⟩
        | succ r =>
          exact .inr ⟨r + 1, k, hchar, by rw [place_next hd, if_neg r.succ_ne_zero]⟩

/-- The place behind the last character of the last line. -/
def atEnd (cursor : TextCursor) (s : List Char) : TextCursor :=
  let lines := s.splitOn '\n'
  cursor.place (lines.length - 1) (lines.getLast?.getD []).length

/-- The cursor moves from character to character. -/
theorem foldl_next (cursor : TextCursor) (s : List Char) :
    s.foldl next cursor = cursor.atEnd s := by
  induction s generalizing cursor with
  | nil => simp [atEnd, place]
  | cons d s ih =>
    rw [List.foldl_cons, ih, atEnd, atEnd, List.splitOn_cons_eq_if_modifyHead]
    cases hlines : s.splitOn '\n' with
    | nil => exact absurd hlines (List.splitOn_ne_nil '\n' s)
    | cons line lines =>
      by_cases hd : d = '\n'
      · subst hd
        exact place_next_newline cursor _ _
      · have hbeq : (d == '\n') = false := by simpa using hd
        simp only [hbeq, Bool.false_eq_true, if_false]
        rw [place_next hd]
        cases lines <;> rfl

end TextCursor

/-- `BitmapTextWriter`, with the font of `lookup_font`. -/
structure TextWriter where
  buf : Bitmap
  font : Font

namespace TextWriter

/-- The body of the loop of `write_str`. -/
def writeChar (w : TextWriter) (c : Char) : Method (Memory × TextCursor) Unit := do
  let cursor := (← get).2
  if c = '\n' then
    let y ← I64.add cursor.cursorY 16
    modify fun s => (s.1, { cursorX := 0, cursorY := y })
  else
    Method.onFst (w.buf.drawFontFg w.font cursor.cursorX cursor.cursorY 0xffffff c)
    let x ← I64.add cursor.cursorX 8
    modify fun s => (s.1, { cursor with cursorX := x })

/-- `write_str` draws the characters of a text one after the other. -/
def writeStr (w : TextWriter) (s : List Char) : Method (Memory × TextCursor) Unit :=
  s.forM w.writeChar

/-- The pixel is shown and set in a character of the text that starts at the cursor. -/
def InText (w : TextWriter) (cursor : TextCursor) (s : List Char) (px py : ℤ) : Prop :=
  ∃ p ∈ cursor.places s, p.1 ≠ '\n' ∧
    w.buf.InGlyph w.font p.1 p.2.cursorX p.2.cursorY px py

variable {w : TextWriter} {cursor : TextCursor} {s t : List Char} {m : Memory} {n : ℕ}

/-- A character is painted at the cursor, which moves on. -/
theorem writeChar_paints (w : TextWriter) (c : Char) (h : cursor.Room (n + 1)) (m : Memory) :
    ∃ m', w.writeChar c (m, cursor) = .ok () (m', cursor.next c) ∧
      w.buf.Painted 0xffffff (fun px py => c ≠ '\n' ∧
        w.buf.InGlyph w.font c cursor.cursorX cursor.cursorY px py) m m' := by
  have hnext := h.next c
  have hright : cursor.cursorX + 8 < 2 ^ 63 := by
    have := h.right
    omega
  have hbottom : cursor.cursorY + 16 < 2 ^ 63 := by
    have := h.bottom
    omega
  unfold TextCursor.next at hnext ⊢
  unfold writeChar
  rw [Method.run_get_bind]
  -- a line break only moves the cursor
  by_cases hc : c = '\n'
  · rw [if_pos hc] at hnext ⊢
    rw [if_pos hc, I64.add_bind (I64.fits_of_nonneg hnext.top hbottom)]
    exact ⟨m, rfl, (Bitmap.Painted.empty m).congr fun px py => by simp [hc]⟩
  · rw [if_neg hc] at hnext ⊢
    rw [if_neg hc]
    obtain ⟨m', hrun, hpainted⟩ := Bitmap.drawFontFg_paints w.buf w.font 0xffffff c h.glyphFits m
    have hdraw : Method.onFst (w.buf.drawFontFg w.font cursor.cursorX cursor.cursorY 0xffffff c)
        (m, cursor) = .ok () (m', cursor) := by
      rw [Method.onFst, hrun]
    refine ⟨m', ?_, hpainted.congr fun px py => by simp [hc]⟩
    rw [Method.bind_of_ok hdraw,
      I64.add_bind (I64.fits_of_nonneg hnext.left hright)]
    rfl

/-- The characters of a text are painted one after the other. -/
theorem writeStr_paints (w : TextWriter) (s : List Char) (h : cursor.Room s.length)
    (m : Memory) :
    ∃ m', w.writeStr s (m, cursor) = .ok () (m', s.foldl TextCursor.next cursor) ∧
      w.buf.Painted 0xffffff (w.InText cursor s) m m' := by
  induction s generalizing cursor m with
  | nil => exact ⟨m, rfl, (Bitmap.Painted.empty m).congr fun px py => by
      simp [InText, TextCursor.places]⟩
  | cons c s ih =>
    obtain ⟨m', hrun, hpainted⟩ := writeChar_paints w c h m
    obtain ⟨m'', hrest, hpainted'⟩ := ih (h.next c) m'
    refine ⟨m'', ?_, (hpainted.trans hpainted').congr fun px py => ?_⟩
    · rw [writeStr, Method.run_forM_cons, Method.bind_of_ok hrun]
      exact hrest
    · simp [InText, TextCursor.places]

theorem writeStr_append (w : TextWriter) (s t : List Char) :
    w.writeStr (s ++ t) = w.writeStr s >>= fun _ => w.writeStr t := by
  induction s with
  | nil => rfl
  | cons c s ih =>
    show (w.writeChar c >>= fun _ => w.writeStr (s ++ t)) =
      (w.writeChar c >>= fun _ => w.writeStr s) >>= fun _ => w.writeStr t
    rw [ih, bind_assoc]

/-- Several calls of `write_str` are one with the whole text. -/
theorem forM_writeStr (w : TextWriter) (texts : List (List Char)) :
    texts.forM w.writeStr = w.writeStr texts.flatten := by
  induction texts with
  | nil => rfl
  | cons text texts ih =>
    rw [List.flatten_cons, writeStr_append, ← ih]
    rfl

/-- Whatever calls of `write_str` follow each other on a new writer, they return, and on the bitmap
the `k`-th character of the `r`-th line of the whole text is painted at `(8 * k, 16 * r)`, as far as
it is shown; nothing else is written. -/
theorem forM_writeStr_paints (w : TextWriter) (texts : List (List Char))
    (hlen : texts.flatten.length < 2 ^ 58) (m : Memory) :
    let s := texts.flatten
    ∃ m', texts.forM w.writeStr (m, TextCursor.start) = .ok () (m', TextCursor.start.atEnd s) ∧
      w.buf.Painted 0xffffff (fun px py => ∃ r k c, TextCursor.charAt s r k = some c ∧
        w.buf.InGlyph w.font c (8 * k) (16 * r) px py) m m' := by
  intro s
  have hlen : s.length < 2 ^ 58 := hlen
  -- no coordinate of a text this short leaves `i64`
  have hroom : TextCursor.start.Room s.length :=
    ⟨le_rfl, by simp only [TextCursor.start]; omega, le_rfl, by simp only [TextCursor.start]; omega⟩
  obtain ⟨m', hrun, hpainted⟩ := writeStr_paints w s hroom m
  rw [TextCursor.foldl_next] at hrun
  refine ⟨m', by rw [forM_writeStr, hrun], hpainted.congr fun px py => ?_⟩
  have hplace : ∀ r k, TextCursor.start.place r k = { cursorX := 8 * k, cursorY := 16 * r } :=
    fun r k => by simp [TextCursor.place, TextCursor.start]
  constructor
  · rintro ⟨⟨c, p⟩, hmem, hc, hin⟩
    obtain ⟨r, k, hchar, rfl⟩ := TextCursor.mem_places_iff.1 ⟨hmem, hc⟩
    rw [hplace] at hin
    exact ⟨r, k, c, hchar, hin⟩
  · rintro ⟨r, k, c, hchar, hin⟩
    obtain ⟨hmem, hc⟩ := TextCursor.mem_places_iff.2 ⟨r, k, hchar, rfl⟩
    refine ⟨_, hmem, hc, ?_⟩
    rw [hplace]
    exact hin

end TextWriter

end Mushix
