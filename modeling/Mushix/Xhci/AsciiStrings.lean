import Mathlib.Algebra.Ring.Nat
import Mathlib.Data.List.Induction
import Mathlib.Order.Nat
import Mushix.Lib.Runs

/-!
# Strings in a sector

`find_ascii_strings` (`xhci.rs`): the strings of at least four printable characters in the bytes
of a sector, with their offsets.

* `findAsciiStrings`: the scan, whose result is what it reports;
* `AsciiScan.Tracks`: what the scan knows about the bytes that it has seen;
* `findAsciiStrings_maximal_runs`: it reports the maximal runs of four and more, in order.
-/

namespace Mushix

open Runs (IsRun IsTail Closed)

/-- `is_ascii_graphic` holds from `'!'` to `'~'`. -/
def isAsciiGraphic (byte : BitVec 8) : Bool := decide (0x21#8 ≤ byte ∧ byte ≤ 0x7E#8)

/-- The character whose code is the byte. -/
def charOfByte (byte : BitVec 8) : Char := Char.ofNat byte.toNat

/-- `String::len`: the bytes of the characters in UTF-8. -/
def stringLen (s : List Char) : ℕ := (s.map Char.utf8Size).sum

/-- The variables of `find_ascii_strings` and what it has reported. -/
structure AsciiScan where
  currentString : List Char
  startOffset : ℕ
  /-- The offsets and strings that were printed. -/
  reported : List (ℕ × List Char)
  deriving Repr

namespace AsciiScan

/-- The variables before the first byte. -/
def start : AsciiScan := { currentString := [], startOffset := 0, reported := [] }

/-- Print the current string when it is long enough. -/
def report (self : AsciiScan) : AsciiScan :=
  if stringLen self.currentString ≥ 4 then
    { self with reported := self.reported ++ [(self.startOffset, self.currentString)] }
  else self

/-- The body of the loop, for the byte at the offset `i`. -/
def visit (self : AsciiScan) (i : ℕ) (byte : BitVec 8) : AsciiScan :=
  if isAsciiGraphic byte || byte == 0x20#8 then
    { self with
      startOffset := if self.currentString.isEmpty then i else self.startOffset
      currentString := self.currentString ++ [charOfByte byte] }
  else
    { self.report with currentString := [] }

end AsciiScan

/-- The variables of `find_ascii_strings` behind its loop. -/
def scanAscii (data : List (BitVec 8)) : AsciiScan :=
  data.zipIdx.foldl (fun s e => s.visit e.2 e.1) AsciiScan.start

/-- `find_ascii_strings`, with what it prints behind the heading as its result. -/
def findAsciiStrings (data : List (BitVec 8)) : List (ℕ × List Char) :=
  -- the last string has no byte behind it that would end it
  (scanAscii data).report.reported

/-- A byte in `0x20..=0x7E`. -/
def Printable (byte : BitVec 8) : Prop := 0x20 ≤ byte.toNat ∧ byte.toNat ≤ 0x7E

/-- The test of the loop. -/
theorem isAsciiGraphic_or_space_iff (byte : BitVec 8) :
    (isAsciiGraphic byte || byte == 0x20#8) = true ↔ Printable byte := by
  rw [Bool.or_eq_true, isAsciiGraphic, decide_eq_true_eq, beq_iff_eq, BitVec.le_def, BitVec.le_def,
    ← BitVec.toNat_inj, Printable]
  simp only [BitVec.toNat_ofNat]
  omega

/-- A printable character is one byte in UTF-8. -/
theorem utf8Size_charOfByte {byte : BitVec 8} (h : Printable byte) :
    (charOfByte byte).utf8Size = 1 := by
  have hlt := h.2
  have hvalid : byte.toNat.isValidChar := .inl (by omega)
  have hval : (charOfByte byte).toNat = byte.toNat := by
    rw [charOfByte, Char.ofNat, dif_pos hvalid]
    rfl
  rw [Char.utf8Size_eq_one_iff, UInt32.le_iff_toNat_le]
  exact hval.le.trans (by simp; omega)

/-- The length of a string of printable characters is the number of its bytes. -/
theorem stringLen_map {run : List (BitVec 8)} (h : ∀ byte ∈ run, Printable byte) :
    stringLen (run.map charOfByte) = run.length := by
  have hone : (run.map charOfByte).map Char.utf8Size = List.replicate run.length 1 := by
    rw [List.map_map, ← List.map_const]
    exact List.map_congr_left fun byte hbyte => utf8Size_charOfByte (h byte hbyte)
  rw [stringLen, hone]
  simp

theorem scanAscii_concat (data : List (BitVec 8)) (byte : BitVec 8) :
    scanAscii (data ++ [byte]) = (scanAscii data).visit data.length byte := by
  simp [scanAscii, List.zipIdx_append]

/-! ## The invariant of the scan -/

namespace AsciiScan

/-- The scan has seen `data`, which ends with the printable bytes `cur` behind `front`. -/
structure Tracks (s : AsciiScan) (data front cur : List (BitVec 8)) : Prop where
  tail : IsTail Printable data front cur
  currentString_eq : s.currentString = cur.map charOfByte
  startOffset_eq : cur ≠ [] → s.startOffset = front.length
  /-- The runs that have ended are reported when they are long enough. -/
  mem_reported_iff : ∀ k str, (k, str) ∈ s.reported ↔
    ∃ run, Closed Printable data k run ∧ 4 ≤ run.length ∧ str = run.map charOfByte
  reported_lt : ∀ found ∈ s.reported, found.1 < front.length
  sorted : s.reported.Pairwise fun found found' => found.1 < found'.1

variable {s : AsciiScan} {data front cur : List (BitVec 8)} {byte : BitVec 8} {k : ℕ}
  {str : List Char}

theorem tracks_start : Tracks start [] [] [] where
  tail := Runs.isTail_nil
  currentString_eq := rfl
  startOffset_eq hne := absurd rfl hne
  mem_reported_iff k str := by
    constructor
    · intro hmem
      cases hmem
    · rintro ⟨run, hclosed, -⟩
      exact absurd hclosed Runs.not_closed_nil
  reported_lt found hmem := by cases hmem
  sorted := .nil

namespace Tracks

/-- A printable byte makes the current string longer. -/
theorem visit_of_printable (h : Tracks s data front cur) (hbyte : Printable byte) :
    Tracks (s.visit data.length byte) (data ++ [byte]) front (cur ++ [byte]) := by
  rw [visit, if_pos ((isAsciiGraphic_or_space_iff byte).2 hbyte)]
  refine ⟨h.tail.concat hbyte, ?_, fun _ => ?_, fun k str => ?_, h.reported_lt, h.sorted⟩
  · simp [h.currentString_eq]
  · -- the first byte of a string sets its offset
    by_cases hcur : cur = []
    · have hsplit := h.tail.split
      simp [h.currentString_eq, hcur, hsplit]
    · simp [h.currentString_eq, hcur, h.startOffset_eq hcur]
  · simp only [h.mem_reported_iff, Runs.closed_concat_of_pos hbyte]

/-- With the current string everything is reported that is a run of the bytes so far. -/
theorem mem_report_iff (h : Tracks s data front cur) :
    (k, str) ∈ s.report.reported ↔
      ∃ run, (∃ front back, front.length = k ∧ IsRun Printable data front run back) ∧
        4 ≤ run.length ∧ str = run.map charOfByte := by
  have hlen : stringLen s.currentString = cur.length := by
    rw [h.currentString_eq, stringLen_map h.tail.all]
  simp only [Runs.exists_isRun_iff h.tail]
  by_cases hlong : 4 ≤ cur.length
  · have hne : cur ≠ [] := List.ne_nil_of_length_pos (by omega)
    rw [report, hlen, if_pos hlong, List.mem_append, h.mem_reported_iff, List.mem_singleton,
      Prod.mk.injEq, h.startOffset_eq hne, h.currentString_eq]
    constructor
    · rintro (⟨run, hrun, hrest⟩ | ⟨hk, hstr⟩)
      · exact ⟨run, .inl hrun, hrest⟩
      · exact ⟨cur, .inr ⟨hne, hk.symm, rfl⟩, hlong, hstr⟩
    · rintro ⟨run, hrun | ⟨-, hk, rfl⟩, hrest⟩
      · exact .inl ⟨run, hrun, hrest⟩
      · exact .inr ⟨hk.symm, hrest.2⟩
  -- a short string is dropped, and its run is not asked for
  · rw [report, hlen, if_neg hlong, h.mem_reported_iff]
    constructor
    · rintro ⟨run, hrun, hrest⟩
      exact ⟨run, .inl hrun, hrest⟩
    · rintro ⟨run, hrun | ⟨-, -, rfl⟩, hrest⟩
      · exact ⟨run, hrun, hrest⟩
      · exact absurd hrest.1 hlong

/-- The current string begins behind the strings that are reported. -/
theorem report_sorted (h : Tracks s data front cur) :
    s.report.reported.Pairwise fun found found' => found.1 < found'.1 := by
  by_cases hlong : stringLen s.currentString ≥ 4
  · have hne : cur ≠ [] := by
      rintro rfl
      rw [h.currentString_eq] at hlong
      exact absurd hlong (by decide)
    rw [report, if_pos hlong, List.pairwise_append]
    refine ⟨h.sorted, List.pairwise_singleton _ _, fun found hfound last hlast => ?_⟩
    rw [List.mem_singleton.1 hlast, h.startOffset_eq hne]
    exact h.reported_lt found hfound
  · rw [report, if_neg hlong]
    exact h.sorted

/-- Another byte ends the current string. -/
theorem visit_of_not_printable (h : Tracks s data front cur) (hbyte : ¬Printable byte) :
    Tracks (s.visit data.length byte) (data ++ [byte]) (data ++ [byte]) [] := by
  rw [visit, if_neg (mt (isAsciiGraphic_or_space_iff byte).1 hbyte)]
  refine ⟨Runs.isTail_concat_of_neg hbyte, rfl, fun hne => absurd rfl hne, fun k str => ?_,
    fun found hmem => ?_, h.report_sorted⟩
  · simp only [h.mem_report_iff, Runs.closed_concat_of_neg hbyte]
  · obtain ⟨run, ⟨front', back, hk, hrun⟩, -⟩ := h.mem_report_iff.1 hmem
    rw [← hk, hrun.split, List.append_assoc, List.append_assoc, List.length_append]
    simp only [List.length_append, List.length_singleton]
    omega

end Tracks

/-- The scan keeps the invariant. -/
theorem exists_tracks (data : List (BitVec 8)) :
    ∃ front cur, Tracks (scanAscii data) data front cur := by
  induction data using List.reverseRecOn with
  | nil => exact ⟨[], [], tracks_start⟩
  | append_singleton data byte ih =>
    obtain ⟨front, cur, h⟩ := ih
    rw [scanAscii_concat]
    by_cases hbyte : Printable byte
    · exact ⟨front, cur ++ [byte], h.visit_of_printable hbyte⟩
    · exact ⟨data ++ [byte], [], h.visit_of_not_printable hbyte⟩

end AsciiScan

/-- For every sequence of bytes the reported offsets and strings are those of the maximal runs of
printable bytes of length at least 4, wherever they begin and end, in increasing order. -/
theorem findAsciiStrings_maximal_runs (data : List (BitVec 8)) :
    (∀ k str, (k, str) ∈ findAsciiStrings data ↔
      ∃ run, (∃ front back, front.length = k ∧ IsRun Printable data front run back) ∧
        4 ≤ run.length ∧ str = run.map charOfByte) ∧
      (findAsciiStrings data).Pairwise fun found found' => found.1 < found'.1 := by
  obtain ⟨front, cur, h⟩ := AsciiScan.exists_tracks data
  exact ⟨fun k str => h.mem_report_iff, h.report_sorted⟩

end Mushix
