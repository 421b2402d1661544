import Mathlib.Data.List.Basic
import Mushix.Lib.LastMatch
import Mushix.Result

/-!
# The font

`lookup_font` (`graphics.rs`) reads the glyphs of 256 characters out of a text when it is called
for the first time. A line `0x..` is the header of the glyph in the sixteen lines behind it. These
lines are read as headers as well, and everything else is skipped.

* `Font.parse`: the glyphs of a text;
* `Font.getElem_parse`: which lines of the text a glyph comes from;
* `Font.parse_render`: a font that is written in this format is read back.
-/

namespace Mushix

/-- Sixteen rows of eight pixels, where `'*'` is a pixel that is set. -/
abbrev Glyph : Type := Vector (Vector Char 8) 16

/-- The glyphs of the characters whose code is a `u8`. -/
abbrev Font : Type := Vector Glyph 256

namespace Font

/-- The glyph whose pixels are all set. -/
def solid : Glyph := Vector.replicate 16 (Vector.replicate 8 '*')

/-- The value of a hexadecimal digit. -/
def toDigit (c : Char) : Option ℕ :=
  if '0' ≤ c ∧ c ≤ '9' then
    some (c.toNat - '0'.toNat)
  else if 'a' ≤ c ∧ c ≤ 'f' then
    some (c.toNat - 'a'.toNat + 10)
  else if 'A' ≤ c ∧ c ≤ 'F' then
    some (c.toNat - 'A'.toNat + 10)
  else
    none

/-- The loop of `from_str_radix`, whose product and sum have to fit into a `u8`. -/
def fromDigits : List Char → Fin 256 → Option (Fin 256)
  | [], result => some result
  | c :: digits, result =>
    match toDigit c with
    | some x =>
      if h : result * 16 + x < 256 then fromDigits digits ⟨result * 16 + x, h⟩ else none
    | none => none

/-- `u8::from_str_radix(line, 16).ok()`, which allows a sign in front of the digits. -/
def fromStrRadix : List Char → Option (Fin 256)
  | [] => none
  | ['+'] => none
  | ['-'] => none
  | '+' :: digits => fromDigits digits 0
  | digits => fromDigits digits 0

/-- The index in a line `0x..`. -/
def header (line : List Char) : Option (Fin 256) := do
  let digits ← ['0', 'x'].isPrefixOf? line
  fromStrRadix digits

/-- The characters of a line are stored in a row for as long as there is room. -/
def readRow (row : Vector Char 8) (line : List Char) : Vector Char 8 :=
  line.zipIdx.foldl (fun row (c, x) => row.setIfInBounds x c) row

/-- The glyph in up to sixteen lines. -/
def readGlyph (lines : List (List Char)) : Glyph :=
  lines.zipIdx.foldl (fun glyph (line, y) =>
    -- `take(16)` has left no other line
    if h : y < 16 then glyph.set y (readRow glyph[y] line) else glyph) solid

/-- The body of the loop over the lines, for the line in front of `lines`. -/
def parseLine (font : Font) (line : List Char) (lines : List (List Char)) : Font :=
  match header line with
  | some idx => font.set idx (readGlyph (lines.take 16))
  | none => font

/-- The loop over the lines. -/
def parseLines (font : Font) : List (List Char) → Font
  | [] => font
  | line :: lines => parseLines (parseLine font line lines) lines

/-- The initial value of `FONT_CACHE` for a text. -/
def parse (source : List Char) : Font :=
  parseLines (Vector.replicate 256 solid) (source.splitOn '\n')

/-- The glyph of a character whose code is a `u8`. -/
def glyph (font : Font) (c : Char) : Option Glyph :=
  if h : c.toNat < 256 then some font[c.toNat] else none

/-- `lookup_font`, with `FONT_CACHE` as its state. -/
def lookup (source : List Char) (c : Char) : Method (Option Font) (Option Glyph) := do
  if c.toNat < 256 then
    let font := (← get).getD (parse source)
    set (some font)
    return glyph font c
  else
    return none

/-- The cache is empty or holds the font of the text. -/
def Caches (source : List Char) (cache : Option Font) : Prop :=
  cache = none ∨ cache = some (parse source)

/-- The glyph does not depend on what has been looked up before. -/
theorem lookup_eq {source : List Char} {cache : Option Font} (h : Caches source cache)
    (c : Char) : ∃ cache', lookup source c cache = .ok (glyph (parse source) c) cache' ∧
      Caches source cache' := by
  unfold lookup
  by_cases hc : c.toNat < 256
  · have hfont : cache.getD (parse source) = parse source := by
      rcases h with rfl | rfl <;> rfl
    rw [if_pos hc, Method.run_get_bind, hfont]
    exact ⟨_, rfl, .inr rfl⟩
  · rw [if_neg hc, glyph, dif_neg hc]
    exact ⟨cache, rfl, h⟩

/-! ## The glyphs of a text -/

section Read

variable {x y : ℕ}

/-- A row in which the characters have been stored from the column `k` on. -/
theorem getElem_foldl_setIfInBounds (cs : List Char) (k : ℕ) (row : Vector Char 8) (hx : x < 8) :
    ((cs.zipIdx k).foldl (fun row (c, x) => row.setIfInBounds x c) row)[x] =
      if k ≤ x then cs[x - k]?.getD row[x] else row[x] := by
  induction cs generalizing k row with
  | nil => simp
  | cons c cs ih =>
    rw [List.zipIdx_cons, List.foldl_cons, ih, Vector.getElem_setIfInBounds hx]
    rcases Nat.lt_trichotomy x k with hlt | rfl | hgt
    · rw [if_neg (by omega), if_neg (by omega), if_neg (by omega)]
    · rw [if_neg (by omega), if_pos rfl, if_pos (Nat.le_refl x), Nat.sub_self]
      rfl
    · rw [if_pos (Nat.succ_le_of_lt hgt), if_neg (by omega), if_pos (Nat.le_of_lt hgt),
        show x - k = x - (k + 1) + 1 by omega]
      rfl

/-- The `x`-th character of the line is stored in the column `x`. -/
theorem getElem_readRow (row : Vector Char 8) (cs : List Char) (hx : x < 8) :
    (readRow row cs)[x] = cs[x]?.getD row[x] := by
  rw [readRow, getElem_foldl_setIfInBounds cs 0 row hx, if_pos (Nat.zero_le x), Nat.sub_zero]

/-- A glyph in which the lines have been stored from the row `k` on. -/
theorem getElem_foldl_set (lines : List (List Char)) (k : ℕ) (glyph : Glyph) (hy : y < 16) :
    ((lines.zipIdx k).foldl (fun glyph (line, y) =>
      if h : y < 16 then glyph.set y (readRow glyph[y] line) else glyph) glyph)[y] =
      if k ≤ y then readRow glyph[y] (lines[y - k]?.getD []) else glyph[y] := by
  induction lines generalizing k glyph with
  | nil => simp [readRow]
  | cons line lines ih =>
    rw [List.zipIdx_cons, List.foldl_cons, ih]
    by_cases hk : k < 16
    · simp only [dif_pos hk, Vector.getElem_set hk hy]
      rcases Nat.lt_trichotomy y k with hlt | rfl | hgt
      · rw [if_neg (by omega), if_neg (by omega), if_neg (by omega)]
      · rw [if_neg (by omega), if_pos rfl, if_pos (Nat.le_refl y), Nat.sub_self]
        rfl
      · rw [if_pos (Nat.succ_le_of_lt hgt), if_neg (by omega), if_pos (Nat.le_of_lt hgt),
          show y - k = y - (k + 1) + 1 by omega]
        rfl
    · simp only [dif_neg hk]
      rw [if_neg (by omega), if_neg (by omega)]

/-- The pixel in the row `y` and the column `x` is the `x`-th character of the `y`-th line. Pixels
without a character are set. -/
theorem getElem_readGlyph (lines : List (List Char)) (hy : y < 16) (hx : x < 8) :
    (readGlyph lines)[y][x] = (lines[y]?.getD [])[x]?.getD '*' := by
  have hrow : (readGlyph lines)[y] = readRow solid[y] (lines[y]?.getD []) := by
    rw [readGlyph, getElem_foldl_set lines 0 solid hy, if_pos (Nat.zero_le y), Nat.sub_zero]
  rw [hrow, getElem_readRow]
  simp [solid]

end Read

/-- The line is a header of the glyph with the index `c`. -/
def IsHeader (c : Fin 256) (line : List Char) : Prop := header line = some c

instance (c : Fin 256) : DecidablePred (IsHeader c) := fun line =>
  inferInstanceAs (Decidable (header line = some c))

/-- A line stores one glyph if it is a header. -/
theorem getElem_parseLine (font : Font) (line : List Char) (lines : List (List Char))
    (c : Fin 256) : (parseLine font line lines)[c] =
      if IsHeader c line then readGlyph (lines.take 16) else font[c] := by
  unfold parseLine
  split
  next idx hheader =>
    simp only [IsHeader, hheader, Fin.getElem_fin, Vector.getElem_set, Option.some.injEq,
      Fin.ext_iff]
  next hheader => simp [IsHeader, hheader]

/-- A glyph without a header is left alone, and otherwise its last header counts. -/
theorem getElem_parseLines (font : Font) (lines : List (List Char)) (c : Fin 256) :
    ((∀ line ∈ lines, ¬IsHeader c line) → (parseLines font lines)[c] = font[c]) ∧
      ∀ k line, LastMatch.IsLastAt (IsHeader c) lines k line →
        (parseLines font lines)[c] = readGlyph ((lines.drop (k + 1)).take 16) := by
  induction lines generalizing font with
  | nil => exact ⟨fun _ => rfl, fun k line h => nomatch h.get⟩
  | cons head lines ih =>
    obtain ⟨hnone, hlast⟩ := ih (parseLine font head lines)
    rw [getElem_parseLine] at hnone
    refine ⟨fun hall => ?_, fun k line h => ?_⟩
    · rw [List.forall_mem_cons] at hall
      exact (hnone hall.2).trans (if_neg hall.1)
    · cases k with
      | zero =>
        -- the glyph is stored now and not again
        obtain ⟨rfl, hhead, hrest⟩ := LastMatch.isLastAt_cons_zero.1 h
        exact (hnone hrest).trans (if_pos hhead)
      | succ k => exact hlast k line (LastMatch.isLastAt_cons_succ.1 h)

/-- The glyph of a character is in the sixteen lines behind its last header, clipped to eight
columns and with all pixels set where there is no character; without a header all pixels are
set. -/
theorem getElem_parse (source : List Char) (c : Fin 256) (y : Fin 16) (x : Fin 8) :
    ((∀ line ∈ source.splitOn '\n', ¬IsHeader c line) → (parse source)[c][y][x] = '*') ∧
      ∀ k line, LastMatch.IsLastAt (IsHeader c) (source.splitOn '\n') k line →
        (parse source)[c][y][x] =
          ((source.splitOn '\n')[k + 1 + y.val]?.getD [])[x.val]?.getD '*' := by
  obtain ⟨hnone, hlast⟩ :=
    getElem_parseLines (Vector.replicate 256 solid) (source.splitOn '\n') c
  refine ⟨fun hall => ?_, fun k line h => ?_⟩
  · have hglyph : (parse source)[c] = solid := (hnone hall).trans (Vector.getElem_replicate _)
    rw [hglyph]
    simp [solid]
  · have hglyph : (parse source)[c] =
        readGlyph (((source.splitOn '\n').drop (k + 1)).take 16) := hlast k line h
    rw [hglyph, Fin.getElem_fin, Fin.getElem_fin, getElem_readGlyph _ y.isLt x.isLt,
      List.getElem?_take_of_lt y.isLt, List.getElem?_drop]

/-! ## Writing a font -/

/-- The header of the glyph with the index `c`. -/
def renderHeader (c : Fin 256) : List Char :=
  ['0', 'x', Nat.digitChar (c.val / 16), Nat.digitChar (c.val % 16)]

/-- The lines of a glyph, with an empty line behind them. -/
def renderGlyph (c : Fin 256) (glyph : Glyph) : List (List Char) :=
  renderHeader c :: (glyph.toList.map Vector.toList ++ [[]])

/-- The lines of the glyphs `cs` of a font. -/
def renderLines (font : Font) (cs : List (Fin 256)) : List (List Char) :=
  cs.flatMap fun c => renderGlyph c font[c]

/-- The text of a font. -/
def render (font : Font) : List Char :=
  ['\n'].intercalate (renderLines font (List.finRange 256))

/-- No row of the glyph would be read as a header or as two lines. -/
def Plain (glyph : Glyph) : Prop :=
  ∀ row ∈ glyph.toList, '\n' ∉ row.toList ∧ header row.toList = none

instance : DecidablePred Plain := fun glyph =>
  inferInstanceAs
    (Decidable (∀ row ∈ glyph.toList, '\n' ∉ row.toList ∧ header row.toList = none))

theorem toDigit_digitChar : ∀ n < 16, toDigit (Nat.digitChar n) = some n := by decide

theorem digitChar_ne : ∀ n < 16, Nat.digitChar n ≠ '+' ∧ Nat.digitChar n ≠ '\n' := by decide

/-- Two digits that do not start with a sign. -/
theorem fromStrRadix_digits {a b : Char} (h : a ≠ '+') :
    fromStrRadix [a, b] = fromDigits [a, b] 0 := by
  unfold fromStrRadix
  split <;> simp_all

theorem header_renderHeader (c : Fin 256) : header (renderHeader c) = some c := by
  have hhigh : c.val / 16 < 16 := Nat.div_lt_of_lt_mul c.isLt
  have hlow : c.val % 16 < 16 := Nat.mod_lt _ (by decide)
  have hvalue : c.val / 16 * 16 + c.val % 16 = c.val := Nat.div_add_mod' c.val 16
  show fromStrRadix _ = _
  rw [fromStrRadix_digits (digitChar_ne _ hhigh).1]
  have hfits : c.val / 16 < 256 := Nat.lt_of_lt_of_le hhigh (by decide)
  simp only [fromDigits, toDigit_digitChar _ hhigh, toDigit_digitChar _ hlow, Fin.val_zero,
    Nat.zero_mul, Nat.zero_add, hvalue, dif_pos hfits, dif_pos c.isLt]

/-- The rows of a glyph are read back. -/
theorem readGlyph_rows (glyph : Glyph) : readGlyph (glyph.toList.map Vector.toList) = glyph := by
  ext y hy x hx
  rw [getElem_readGlyph _ hy hx]
  simp [hy, hx]

/-- Lines that are no headers are skipped. -/
theorem parseLines_append_of_none (font : Font) {rows : List (List Char)}
    (hrows : ∀ row ∈ rows, header row = none) (lines : List (List Char)) :
    parseLines font (rows ++ lines) = parseLines font lines := by
  induction rows with
  | nil => rfl
  | cons row rows ih =>
    rw [List.forall_mem_cons] at hrows
    rw [List.cons_append, parseLines, parseLine, hrows.1]
    exact ih hrows.2

/-- A glyph that was written is read back in front of any other lines. -/
theorem parseLines_renderGlyph (font : Font) (c : Fin 256) {glyph : Glyph} (hplain : Plain glyph)
    (lines : List (List Char)) :
    parseLines font (renderGlyph c glyph ++ lines) = parseLines (font.set c glyph) lines := by
  have htake : (glyph.toList.map Vector.toList ++ [[]] ++ lines).take 16 =
      glyph.toList.map Vector.toList := by
    rw [List.append_assoc]
    exact List.take_left' (by simp)
  rw [renderGlyph, List.cons_append, parseLines, parseLine, header_renderHeader]
  simp only [htake, readGlyph_rows]
  refine parseLines_append_of_none _ (fun line hline => ?_) lines
  rcases List.mem_append.1 hline with hrow | hempty
  · obtain ⟨row, hmem, rfl⟩ := List.mem_map.1 hrow
    exact (hplain row hmem).2
  · cases List.mem_singleton.1 hempty
    rfl

/-- The glyphs that were written are read back one after the other. -/
theorem parseLines_renderLines (font written : Font) (hplain : ∀ c : Fin 256, Plain written[c])
    (cs : List (Fin 256)) :
    parseLines font (renderLines written cs) =
      cs.foldl (fun font c => font.set c written[c]) font := by
  induction cs generalizing font with
  | nil => rfl
  | cons c cs ih =>
    rw [renderLines, List.flatMap_cons, parseLines_renderGlyph font c (hplain c)]
    exact ih (font.set c written[c])

/-- Every glyph is that of the written font where it is stored, or was there before. -/
theorem getElem_foldl_set_of_font (font written : Font) (cs : List (Fin 256)) (c : Fin 256)
    (hc : c ∈ cs ∨ font[c] = written[c]) :
    (cs.foldl (fun font c => font.set c written[c]) font)[c] = written[c] := by
  induction cs generalizing font with
  | nil => exact hc.resolve_left List.not_mem_nil
  | cons d cs ih =>
    apply ih
    by_cases hd : d = c
    · subst hd
      exact .inr (Vector.getElem_set_self d.isLt)
    · have hne : d.val ≠ c.val := fun h => hd (Fin.ext h)
      refine hc.imp (fun hmem => ?_) fun hfont => ?_
      · exact (List.mem_cons.1 hmem).resolve_left (Ne.symm hd)
      · exact (Vector.getElem_set_ne d.isLt c.isLt hne).trans hfont

/-- A line of a font contains no line break. -/
theorem not_mem_renderLines (font : Font) (hplain : ∀ c : Fin 256, Plain font[c])
    (cs : List (Fin 256)) : ∀ line ∈ renderLines font cs, '\n' ∉ line := by
  intro line hline
  obtain ⟨c, -, hline⟩ := List.mem_flatMap.1 hline
  rcases List.mem_cons.1 hline with rfl | hline
  · have hhigh := (digitChar_ne (c.val / 16) (Nat.div_lt_of_lt_mul c.isLt)).2
    have hlow := (digitChar_ne (c.val % 16) (Nat.mod_lt _ (by decide))).2
    simp [renderHeader, hhigh.symm, hlow.symm]
  rcases List.mem_append.1 hline with hrow | hempty
  · obtain ⟨row, hmem, rfl⟩ := List.mem_map.1 hrow
    exact (hplain c row hmem).1
  · cases List.mem_singleton.1 hempty
    exact List.not_mem_nil

/-- A font that is written in the format is read back. -/
theorem parse_render (font : Font) (hplain : ∀ c : Fin 256, Plain font[c]) :
    parse (render font) = font := by
  have hne : renderLines font (List.finRange 256) ≠ [] :=
    List.ne_nil_of_mem
      (List.mem_flatMap.2 ⟨0, List.mem_finRange 0, List.mem_cons_self⟩ : renderHeader 0 ∈ _)
  have hlines : (render font).splitOn '\n' = renderLines font (List.finRange 256) :=
    List.splitOn_intercalate '\n' (not_mem_renderLines font hplain _) hne
  rw [parse, hlines, parseLines_renderLines _ font hplain]
  apply Vector.ext
  intro i hi
  exact getElem_foldl_set_of_font (Vector.replicate 256 solid) font (List.finRange 256) ⟨i, hi⟩
    (.inl (List.mem_finRange _))

/-- A glyph of which every second pixel is clear. -/
def checkered : Glyph :=
  Vector.ofFn fun y => Vector.ofFn fun x => if (x.val + y.val) % 2 = 0 then '*' else '.'

/-- A font of which every second glyph is checkered. -/
def alternating : Font :=
  Vector.ofFn fun c => if c.val % 2 = 0 then solid else checkered

/-- Pixels are no header and no line break. -/
theorem plain_of_pixels {glyph : Glyph}
    (h : ∀ row ∈ glyph.toList, ∀ c ∈ row.toList, c = '*' ∨ c = '.') : Plain glyph := by
  intro row hrow
  constructor
  · intro hmem
    rcases h row hrow '\n' hmem with heq | heq <;> exact absurd heq (by decide)
  · cases hline : row.toList with
    | nil => rfl
    | cons c line =>
      have hc : c = '*' ∨ c = '.' := h row hrow c (by rw [hline]; exact List.mem_cons_self)
      rcases hc with rfl | rfl <;> rfl

theorem plain_solid : Plain solid := by
  refine plain_of_pixels fun row hrow c hc => .inl ?_
  obtain rfl : row = Vector.replicate 8 '*' := by simpa [solid] using hrow
  simpa using hc

theorem plain_checkered : Plain checkered := by
  refine plain_of_pixels fun row hrow c hc => ?_
  rw [checkered, Vector.mem_toList_iff, Vector.mem_ofFn] at hrow
  obtain ⟨y, rfl⟩ := hrow
  rw [Vector.mem_toList_iff, Vector.mem_ofFn] at hc
  obtain ⟨x, rfl⟩ := hc
  split
  · exact .inl rfl
  · exact .inr rfl

theorem parse_render_alternating : parse (render alternating) = alternating := by
  refine parse_render alternating fun c => ?_
  rw [Fin.getElem_fin, alternating, Vector.getElem_ofFn]
  split
  · exact plain_solid
  · exact plain_checkered

end Font

end Mushix
