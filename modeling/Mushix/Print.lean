import Mathlib.Algebra.Ring.Nat
import Mathlib.Data.List.Induction
import Mushix.Loop

/-!
# Hex dumps

`hexdump_bytes` (`print.rs`) prints sixteen bytes in a row, and what is left in a last one. The
state is the text that has been printed.

* `hexdumpByte`, `hexdumpBytes`: the body of the loop and the function;
* `HexLayout.rows`: rows of sixteen bytes with one layout for all of them;
* `hexdumpBytes_of_lt`: the text that is printed, which has two layouts;
* `printsRows_iff`: for which slices one layout is enough.
-/

namespace Mushix

/-- A number with at least `width` hexadecimal digits, as `{:0widthX}` prints it. -/
def upperHex (width n : ℕ) : List Char :=
  ((Nat.toDigits 16 n).map Char.toUpper).leftpad width '0'

/-- `print!` puts a text behind what was printed before. -/
def print (text : List Char) : Method (List Char) Unit := modify fun printed => printed ++ text

/-- The character of a byte in a full row. -/
def fullGlyph (c : BitVec 8) : Char :=
  if 0x20 ≤ c ∧ c ≤ 0x7e then Char.ofNat c.toNat else '.'

/-- The character of a byte in the last row. -/
def partialGlyph (c : BitVec 8) : Char :=
  if 0x20 ≤ c ∧ c ≤ 0x7f then Char.ofNat c.toNat else '.'

/-- The variables of `hexdump_bytes`; `offset` is an `i32`, as nothing else determines its type. -/
structure HexRow where
  i : ℕ
  ascii : Vector (BitVec 8) 16
  offset : ℕ

/-- The variables in front of the loop. -/
def HexRow.start : HexRow := { i := 0, ascii := Vector.replicate 16 0, offset := 0 }

/-- The start of the body of the loop of `hexdump_bytes`, in front of the first byte of a row. -/
def printOffset (row : HexRow) : Method (List Char) Unit :=
  if row.i = 0 then print (upperHex 8 row.offset ++ [':', ' ', ' ']) else pure ()

/-- The end of the body, behind the last byte of a row. -/
def endRow (row : HexRow) : Method (List Char) HexRow :=
  if row.i = 16 then do
    print [' ', '|', ' ']
    row.ascii.toList.forM fun c => print [fullGlyph c]
    print ['|', '\n']
    -- `offset += 16`
    if row.offset + 16 < 2 ^ 31 then
      return { row with i := 0, offset := row.offset + 16 }
    else
      throw (.panic "attempt to add with overflow")
  else
    return row

/-- The body of the loop of `hexdump_bytes`. -/
def hexdumpByte (row : HexRow) (v : BitVec 8) : Method (List Char) HexRow := do
  printOffset row
  print (upperHex 2 v.toNat ++ [' '])
  if h : row.i < 16 then
    endRow { row with i := row.i + 1, ascii := row.ascii.set row.i v }
  else
    throw (.panic "index out of bounds")

/-- `hexdump_bytes` prints rows of sixteen bytes, with their offsets and characters. -/
def hexdumpBytes (bytes : List (BitVec 8)) : Method (List Char) Unit := do
  let row ← bytes.foldlM hexdumpByte .start
  if row.i ≠ 0 then
    -- `while i < 16`
    (List.range' row.i (16 - row.i)).forM fun _ => print [' ', ' ', ' ']
    print ['|']
    (row.ascii.toList.take row.i).forM fun c => print [partialGlyph c]
    print ['|', '\n']

/-! ## Rows with one layout -/

/-- What can differ between two rows: the text in front of the characters, and the character of a
byte. -/
structure HexLayout where
  separator : List Char
  glyph : BitVec 8 → Char

namespace HexLayout

/-- The row of up to sixteen bytes, whose hex column is padded to sixteen cells. -/
def row (L : HexLayout) (offset : ℕ) (bytes : List (BitVec 8)) : List Char :=
  upperHex 8 offset ++ [':', ' ', ' '] ++ bytes.flatMap (fun v => upperHex 2 v.toNat ++ [' ']) ++
    (List.range (16 - bytes.length)).flatMap (fun _ => [' ', ' ', ' ']) ++ L.separator ++
    bytes.map L.glyph ++ ['|', '\n']

/-- The rows of a slice: the row `r` starts with the offset `16 * r` and has the bytes from there
on. -/
def rows (L : HexLayout) (bytes : List (BitVec 8)) : List Char :=
  (List.range ((bytes.length + 15) / 16)).flatMap fun r =>
    L.row (16 * r) ((bytes.drop (16 * r)).take 16)

/-- The layout of the rows that the loop prints. -/
def full : HexLayout := { separator := [' ', '|', ' '], glyph := fullGlyph }

/-- The layout of the last row. -/
def rest : HexLayout := { separator := ['|'], glyph := partialGlyph }

end HexLayout

variable {row : HexRow} {v : BitVec 8} {text : List Char} {bytes bs : List (BitVec 8)}
  {offset k : ℕ}

/-- A print goes on behind what was printed. -/
theorem run_print_bind {β : Type} (t : List Char) (f : Unit → Method (List Char) β) :
    (print t >>= f) text = f () (text ++ t) := rfl

/-- A loop that prints. -/
theorem forM_print {α : Type} (f : α → List Char) (as : List α) (text : List Char) :
    (as.forM fun a => print (f a)) text = .ok () (text ++ as.flatMap f) := by
  induction as generalizing text with
  | nil => rw [Method.run_forM_nil, List.flatMap_nil, List.append_nil]
  | cons a as ih =>
    rw [Method.run_forM_cons, run_print_bind, ih, List.flatMap_cons, List.append_assoc]

/-- The text in front of the cell of a byte. -/
def cellHeader (row : HexRow) : List Char :=
  if row.i = 0 then upperHex 8 row.offset ++ [':', ' ', ' '] else []

/-- The offset is printed in front of the first byte of a row. -/
theorem run_printOffset (row : HexRow) (text : List Char) :
    printOffset row text = .ok () (text ++ cellHeader row) := by
  rw [printOffset, cellHeader]
  split
  · rfl
  · rw [List.append_nil]
    rfl

/-- A byte is printed in its cell and stored for the end of the row. -/
theorem hexdumpByte_eq (h : row.i < 16) : hexdumpByte row v text =
    endRow { row with i := row.i + 1, ascii := row.ascii.set row.i v }
      (text ++ cellHeader row ++ (upperHex 2 v.toNat ++ [' '])) := by
  rw [hexdumpByte, Method.bind_of_ok (run_printOffset row text), run_print_bind, dif_pos h]

/-- Only a full row ends with its characters. -/
theorem endRow_of_ne (h : row.i ≠ 16) : endRow row text = .ok row text := by
  rw [endRow, if_neg h]
  rfl

/-- A row that is full is ended, and its offset is the next one that must fit. -/
theorem endRow_of_eq (h : row.i = 16) : endRow row text =
    if row.offset + 16 < 2 ^ 31 then
      .ok { row with i := 0, offset := row.offset + 16 }
        (text ++ [' ', '|', ' '] ++ row.ascii.toList.map fullGlyph ++ ['|', '\n'])
    else
      .error (.panic "attempt to add with overflow")
        (text ++ [' ', '|', ' '] ++ row.ascii.toList.map fullGlyph ++ ['|', '\n']) := by
  rw [endRow, if_pos h, run_print_bind, Method.bind_of_ok (forM_print _ _ _), run_print_bind,
    ← List.map_eq_flatMap, Method.run_ite]
  rfl

/-- The buffer holds the bytes of the row so far in front of what the last row has left there. -/
theorem take_set (ascii : Vector (BitVec 8) 16) {i : ℕ} (hi : i < 16) (v : BitVec 8) :
    (ascii.set i v).toList.take (i + 1) = ascii.toList.take i ++ [v] := by
  rw [Vector.toList_set, List.take_add_one, List.take_set_of_le (Nat.le_refl i),
    List.getElem?_set_self (by simpa using hi)]
  rfl

/-- What is printed of a row before its end. -/
def begun (offset : ℕ) (bs : List (BitVec 8)) : List Char :=
  if bs = [] then []
  else upperHex 8 offset ++ [':', ' ', ' '] ++ bs.flatMap fun v => upperHex 2 v.toNat ++ [' ']

/-- One more byte of a row that has begun is one more cell. -/
theorem begun_concat (ascii : Vector (BitVec 8) 16) (offset : ℕ) (bs : List (BitVec 8))
    (v : BitVec 8) : begun offset (bs ++ [v]) =
      begun offset bs ++ cellHeader { i := bs.length, ascii, offset } ++
        (upperHex 2 v.toNat ++ [' ']) := by
  rw [begun, if_neg (by simp), List.flatMap_append, List.flatMap_singleton]
  by_cases hnil : bs = []
  · simp [begun, cellHeader, hnil]
  · have hlen : bs.length ≠ 0 := by simpa using hnil
    rw [begun, if_neg hnil, cellHeader, if_neg hlen]
    simp only [List.append_nil, List.append_assoc]

/-- The parts of a row that is not empty. -/
theorem row_eq (L : HexLayout) (offset : ℕ) (hne : bs ≠ []) :
    L.row offset bs = begun offset bs ++
      ((List.range (16 - bs.length)).flatMap (fun _ => [' ', ' ', ' ']) ++ L.separator ++
        bs.map L.glyph ++ ['|', '\n']) := by
  rw [HexLayout.row, begun, if_neg hne]
  simp only [List.append_assoc]

/-- A row that has begun with the bytes `bs`, by induction on the last one of them. -/
theorem foldlM_of_lt (bs : List (BitVec 8)) (ascii : Vector (BitVec 8) 16) (offset : ℕ)
    (text : List Char) (hlen : bs.length < 16) :
    ∃ ascii' : Vector (BitVec 8) 16, ascii'.toList.take bs.length = bs ∧
      bs.foldlM hexdumpByte { i := 0, ascii, offset } text =
        .ok { i := bs.length, ascii := ascii', offset } (text ++ begun offset bs) := by
  induction bs using List.reverseRecOn with
  | nil => exact ⟨ascii, rfl, by simp [begun, pure, EStateM.pure]⟩
  | append_singleton bs v ih =>
    rw [List.length_append, List.length_singleton] at hlen
    have hi : bs.length < 16 := Nat.lt_of_succ_lt hlen
    have hnot : bs.length + 1 ≠ 16 := Nat.ne_of_lt hlen
    obtain ⟨ascii', htake, hrun⟩ := ih hi
    refine ⟨ascii'.set bs.length v, ?_, ?_⟩
    · rw [List.length_append, List.length_singleton, take_set, htake]
    · rw [List.foldlM_append, Method.bind_of_ok hrun, List.foldlM_cons]
      simp only [List.foldlM_nil, bind_pure]
      rw [hexdumpByte_eq hi, endRow_of_ne hnot, begun_concat ascii', List.length_append,
        List.length_singleton]
      simp only [List.append_assoc]

/-- Sixteen bytes are a row with the full layout, after which the buffer is free again. -/
theorem foldlM_of_eq (ascii : Vector (BitVec 8) 16) (offset : ℕ) (text : List Char)
    (hlen : bs.length = 16) :
    ∃ ascii' : Vector (BitVec 8) 16,
      bs.foldlM hexdumpByte { i := 0, ascii, offset } text =
        if offset + 16 < 2 ^ 31 then
          .ok { i := 0, ascii := ascii', offset := offset + 16 }
            (text ++ HexLayout.full.row offset bs)
        else
          .error (.panic "attempt to add with overflow")
            (text ++ HexLayout.full.row offset bs) := by
  obtain ⟨init, v, rfl⟩ : ∃ init v, bs = init ++ [v] := by
    refine ⟨bs.dropLast, bs.getLast (List.ne_nil_of_length_pos (by omega)), ?_⟩
    rw [List.dropLast_concat_getLast]
  rw [List.length_append, List.length_singleton] at hlen
  obtain ⟨ascii', htake, hrun⟩ := foldlM_of_lt init ascii offset text (by omega)
  have hlt : init.length < 16 := by omega
  -- with the last byte the whole buffer is new, and nothing of the row before is left
  have hascii : (ascii'.set init.length v).toList = init ++ [v] := by
    have hset := take_set ascii' hlt v
    rw [htake, List.take_of_length_le (by simp [hlen])] at hset
    exact hset
  refine ⟨ascii'.set init.length v, ?_⟩
  rw [List.foldlM_append, Method.bind_of_ok hrun, List.foldlM_cons]
  simp only [List.foldlM_nil, bind_pure]
  have htext : text ++ begun offset init ++
      cellHeader { i := init.length, ascii := ascii', offset } ++ (upperHex 2 v.toNat ++ [' ']) ++
      [' ', '|', ' '] ++ (ascii'.set init.length v).toList.map fullGlyph ++ ['|', '\n'] =
      text ++ HexLayout.full.row offset (init ++ [v]) := by
    rw [row_eq _ _ (by simp), begun_concat ascii', List.length_append, List.length_singleton, hlen,
      hascii]
    simp only [List.append_assoc, HexLayout.full, Nat.sub_self, List.range_zero, List.flatMap_nil,
      List.nil_append]
  rw [hexdumpByte_eq hlt, endRow_of_eq hlen, htext]

/-- The rows that the loop prints. -/
def fullRows (bytes : List (BitVec 8)) (n : ℕ) : List Char :=
  (List.range n).flatMap fun r => HexLayout.full.row (16 * r) ((bytes.drop (16 * r)).take 16)

theorem take_next (bytes : List (BitVec 8)) (n : ℕ) :
    bytes.take (16 * (n + 1)) = bytes.take (16 * n) ++ (bytes.drop (16 * n)).take 16 := by
  rw [Nat.mul_succ, List.take_add]

theorem length_full_row (bytes : List (BitVec 8)) {n : ℕ} (hlen : 16 * (n + 1) ≤ bytes.length) :
    ((bytes.drop (16 * n)).take 16).length = 16 := by
  rw [List.length_take, List.length_drop]
  omega

/-- The first `n` rows, as long as the next offset fits. -/
theorem foldlM_rows (bytes : List (BitVec 8)) (text : List Char) {n : ℕ}
    (hlen : 16 * n ≤ bytes.length) (hoffset : 16 * n < 2 ^ 31) :
    ∃ ascii : Vector (BitVec 8) 16, (bytes.take (16 * n)).foldlM hexdumpByte .start text =
      .ok { i := 0, ascii, offset := 16 * n } (text ++ fullRows bytes n) := by
  induction n with
  | zero => exact ⟨_, by simp [fullRows, HexRow.start, pure, EStateM.pure]; rfl⟩
  | succ n ih =>
    obtain ⟨ascii, hrun⟩ := ih (by omega) (by omega)
    have hrow := length_full_row bytes hlen
    obtain ⟨ascii', hnext⟩ := foldlM_of_eq ascii (16 * n) (text ++ fullRows bytes n) hrow
    refine ⟨ascii', ?_⟩
    rw [take_next, List.foldlM_append, Method.bind_of_ok hrun, hnext, if_pos (by omega), fullRows,
      fullRows, List.range_succ, List.flatMap_append, List.flatMap_singleton, List.append_assoc]
    rfl

/-- The row after which the next offset does not fit ends with a panic. -/
theorem foldlM_panic (text : List Char) (hlen : 2 ^ 31 ≤ bytes.length) :
    ∃ text', bytes.foldlM hexdumpByte .start text =
      .error (.panic "attempt to add with overflow") text' := by
  -- the last row whose offset fits
  obtain ⟨n, hn⟩ : ∃ n, 16 * n + 16 = 2 ^ 31 := ⟨2 ^ 27 - 1, by decide⟩
  obtain ⟨ascii, hrun⟩ := foldlM_rows bytes text (n := n) (by omega) (by omega)
  have hrow := length_full_row bytes (n := n) (by omega)
  obtain ⟨ascii', hnext⟩ := foldlM_of_eq ascii (16 * n) (text ++ fullRows bytes n) hrow
  rw [if_neg (by omega)] at hnext
  have happend := List.take_append_drop (16 * (n + 1)) bytes
  refine ⟨text ++ fullRows bytes n ++
    HexLayout.full.row (16 * n) ((bytes.drop (16 * n)).take 16), ?_⟩
  rw [← happend, List.foldlM_append]
  apply Method.bind_of_error
  rw [happend, take_next, List.foldlM_append, Method.bind_of_ok hrun, hnext]

/-- A dump of `2 ^ 31` bytes or more panics. -/
theorem not_ok_of_ge (hlen : 2 ^ 31 ≤ bytes.length) {text' : List Char} :
    hexdumpBytes bytes text ≠ .ok () text' := by
  obtain ⟨text'', hrun⟩ := foldlM_panic text hlen
  rw [hexdumpBytes, Method.bind_of_error hrun]
  rintro ⟨⟩

/-- The loop, which leaves the bytes of the last row in the buffer. -/
theorem foldlM_eq (hlen : bytes.length < 2 ^ 31) (text : List Char) :
    ∃ ascii : Vector (BitVec 8) 16,
      ascii.toList.take (bytes.length % 16) = bytes.drop (16 * (bytes.length / 16)) ∧
      bytes.foldlM hexdumpByte .start text =
        .ok { i := bytes.length % 16, ascii, offset := 16 * (bytes.length / 16) }
          (text ++ fullRows bytes (bytes.length / 16) ++
            begun (16 * (bytes.length / 16)) (bytes.drop (16 * (bytes.length / 16)))) := by
  have hrest : (bytes.drop (16 * (bytes.length / 16))).length = bytes.length % 16 := by
    rw [List.length_drop]
    omega
  obtain ⟨ascii, hrun⟩ := foldlM_rows bytes text (n := bytes.length / 16) (by omega)
    (by omega)
  obtain ⟨ascii', htake, hend⟩ := foldlM_of_lt
    (bytes.drop (16 * (bytes.length / 16))) ascii (16 * (bytes.length / 16))
    (text ++ fullRows bytes (bytes.length / 16)) (by omega)
  rw [hrest] at htake hend
  refine ⟨ascii', htake, ?_⟩
  -- the full rows and the bytes that are left
  have happend := List.take_append_drop (16 * (bytes.length / 16)) bytes
  calc bytes.foldlM hexdumpByte .start text
      = (bytes.take (16 * (bytes.length / 16)) ++
          bytes.drop (16 * (bytes.length / 16))).foldlM hexdumpByte .start text := by rw [happend]
    _ = (bytes.drop (16 * (bytes.length / 16))).foldlM hexdumpByte _ _ := by
        rw [List.foldlM_append, Method.bind_of_ok hrun]
    _ = _ := hend

/-- What is printed: full rows with their layout, and then the bytes that are left with another
one. -/
theorem hexdumpBytes_of_lt (hlen : bytes.length < 2 ^ 31) (text : List Char) :
    hexdumpBytes bytes text = .ok () (text ++ fullRows bytes (bytes.length / 16) ++
      if bytes.length % 16 = 0 then []
      else HexLayout.rest.row (16 * (bytes.length / 16))
        (bytes.drop (16 * (bytes.length / 16)))) := by
  obtain ⟨ascii, htake, hrun⟩ := foldlM_eq hlen text
  have hrest : (bytes.drop (16 * (bytes.length / 16))).length = bytes.length % 16 := by
    rw [List.length_drop]
    omega
  -- behind the loop there is only something to print when a row has begun
  rw [hexdumpBytes, Method.bind_of_ok hrun]
  by_cases hzero : bytes.length % 16 = 0
  · have hnil := List.length_eq_zero_iff.1 (hrest.trans hzero)
    simp only [hzero, ne_eq, not_true_eq_false, if_false, if_true, hnil, begun]
    rfl
  · have hne : bytes.drop (16 * (bytes.length / 16)) ≠ [] := by
      apply List.ne_nil_of_length_pos
      omega
    simp only [if_pos (show bytes.length % 16 ≠ 0 from hzero), if_neg hzero, htake]
    rw [Method.bind_of_ok (forM_print _ _ _), run_print_bind, Method.bind_of_ok (forM_print _ _ _),
      ← List.map_eq_flatMap, row_eq _ _ hne, hrest]
    have hpadding : (List.range' (bytes.length % 16) (16 - bytes.length % 16)).flatMap
        (fun _ => [' ', ' ', ' ']) =
        (List.range (16 - bytes.length % 16)).flatMap fun _ => [' ', ' ', ' '] := by
      rw [List.range'_eq_map_range, List.flatMap_map]
    rw [hpadding]
    simp only [print, Method.run_modify, HexLayout.rest, List.append_assoc]

/-! ## The same layout for all rows -/

/-- The rows are printed, and the layout of the full ones is the layout of all of them. -/
def PrintsRows (bytes : List (BitVec 8)) : Prop :=
  ∀ text, hexdumpBytes bytes text = .ok () (text ++ HexLayout.full.rows bytes)

/-- The rows of a slice that does not end with a full row. -/
theorem rows_of_ne (h : bytes.length % 16 ≠ 0) : HexLayout.full.rows bytes =
    fullRows bytes (bytes.length / 16) ++
      HexLayout.full.row (16 * (bytes.length / 16)) (bytes.drop (16 * (bytes.length / 16))) := by
  have hcount : (bytes.length + 15) / 16 = bytes.length / 16 + 1 := by omega
  have htake : (bytes.drop (16 * (bytes.length / 16))).take 16 =
      bytes.drop (16 * (bytes.length / 16)) := by
    apply List.take_of_length_le
    rw [List.length_drop]
    omega
  rw [HexLayout.rows, hcount, List.range_succ, List.flatMap_append, List.flatMap_singleton, htake]
  rfl

/-- The layouts of a row differ right behind its hex column. -/
theorem rest_row_ne (offset : ℕ) (hne : bs ≠ []) :
    HexLayout.rest.row offset bs ≠ HexLayout.full.row offset bs := by
  rw [row_eq _ _ hne, row_eq _ _ hne]
  intro heq
  -- with the hex columns taken away, one row goes on with a bar and the other one with a blank
  simp only [List.append_assoc] at heq
  have htail := List.append_cancel_left (List.append_cancel_left heq)
  cases htail

/-- Where all rows are full, they have the layout of the dump. -/
theorem printsRows_of_eq (hzero : bytes.length % 16 = 0) (hlen : bytes.length < 2 ^ 31) :
    PrintsRows bytes := by
  intro text
  have hcount : (bytes.length + 15) / 16 = bytes.length / 16 := by omega
  rw [hexdumpBytes_of_lt hlen, if_pos hzero, List.append_nil, HexLayout.rows, hcount, fullRows]

/-- Where the last row is not full, the rows do not have the layout of the dump. -/
theorem not_printsRows_of_ne (hne : bytes.length % 16 ≠ 0) : ¬PrintsRows bytes := by
  intro hrows
  have hrun := hrows []
  rcases Nat.lt_or_ge bytes.length (2 ^ 31) with hlen | hge
  · rw [hexdumpBytes_of_lt hlen, if_neg hne, rows_of_ne hne, List.append_assoc] at hrun
    injection hrun with _ htext
    have hrow := List.append_cancel_left (List.append_cancel_left htext)
    refine rest_row_ne _ ?_ hrow
    apply List.ne_nil_of_length_pos
    rw [List.length_drop]
    omega
  · exact not_ok_of_ge hge hrun

/-- One layout is enough exactly for a slice that consists of full rows, as long as the offset
behind it fits into an `i32`. -/
theorem printsRows_iff (bytes : List (BitVec 8)) :
    PrintsRows bytes ↔ bytes.length % 16 = 0 ∧ bytes.length < 2 ^ 31 := by
  constructor
  · intro hrows
    refine ⟨by_contra fun hne => not_printsRows_of_ne hne hrows, by_contra fun hge => ?_⟩
    exact not_ok_of_ge (Nat.le_of_not_lt hge) (hrows [])
  · rintro ⟨hzero, hlen⟩
    exact printsRows_of_eq hzero hlen

/-- A single byte, whose row has no blanks next to the bar and shows it as a character that the loop
does not. -/
theorem not_printsRows_singleton : ¬PrintsRows [0x7f] := not_printsRows_of_ne (by decide)

end Mushix
