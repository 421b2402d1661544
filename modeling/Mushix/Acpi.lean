import Mushix.Iter
import Mushix.Lib.Bytes
import Mushix.Lib.Tiling
import Mushix.Usize

/-!
# ACPI tables

How the program reads the tables of the firmware (`acpi.rs`). A table is its address; a firmware
can put anything into the memory, and any number into the `length` of a table.

* `Xsdt.findTable`: the search for a table by its signature;
* `AcpiMcfgDescriptor.entry`: the entries of the MCFG table;
* `acpi_sound_iff`: for which lengths they are right.
-/

namespace Mushix

open Bytes (Memory readLE)

/-! ## Tables -/

namespace SystemDescriptionTableHeader

variable (mem : Memory) (table : ℕ)

/-- The length of the table, header and entries together. -/
def length : ℕ := readLE mem (table + 4) 4

/-- The four characters that say what kind of table this is. -/
def signature : List (BitVec 8) := (List.range 4).map fun i => mem (table + i)

/-- `expect_signature` panics on a table with another signature. -/
def expectSignature {σ : Type} (sig : List (BitVec 8)) : Method σ Unit :=
  if signature mem table = sig then
    return ()
  else
    throw (.panic "assertion `left == right` failed")

end SystemDescriptionTableHeader

open SystemDescriptionTableHeader (length signature expectSignature)

/-- `XsdtIterator`, with the places of the entries that it has read, the last one first. -/
structure XsdtIterator where
  table : ℕ
  index : ℕ
  reads : List Span
  deriving DecidableEq, Repr

/-- `num_of_entries()` of a table with a header of `headerSize` bytes and entries of `entrySize`
bytes. -/
def numOfEntries {σ : Type} (mem : Memory) (table headerSize entrySize : ℕ) : Method σ ℕ := do
  return (← Usize.sub (length mem table) headerSize) / entrySize

/-- The place of an entry of such a table. -/
def entrySpan (table headerSize entrySize index : ℕ) : Span where
  lo := table + headerSize + entrySize * index
  hi := table + headerSize + entrySize * index + entrySize

namespace Xsdt

variable (mem : Memory) (table : ℕ)

/-- The entries of an XSDT begin behind the common header. -/
def headerSize : ℕ := 36

/-- An entry of an XSDT is a pointer. -/
def entrySize : ℕ := 8

/-- The number of entries that the length of the table leaves room for. -/
def numOfEntries {σ : Type} : Method σ ℕ := Mushix.numOfEntries mem table headerSize entrySize

/-- The place of an entry. -/
def entrySpan (index : ℕ) : Span := Mushix.entrySpan table headerSize entrySize index

/-- `entry` reads the pointer with an index, whether the table has so many or not. -/
def entry (index : ℕ) : Method XsdtIterator ℕ := do
  let place := entrySpan table index
  modify fun it => { it with reads := place :: it.reads }
  return readLE mem place.lo entrySize

end Xsdt

namespace XsdtIterator

/-- An iterator in front of the first entry of a table, which has read nothing. -/
def new (table : ℕ) : XsdtIterator := { table, index := 0, reads := [] }

/-- `next` reads the entry at the index, until the index is the number of entries. -/
def next (mem : Memory) : Method XsdtIterator (Option ℕ) := do
  let self ← get
  let n ← Xsdt.numOfEntries mem self.table
  if self.index ≥ n then
    return none
  else
    set { self with index := self.index + 1 }
    return some (← Xsdt.entry mem self.table (self.index + 1 - 1))

end XsdtIterator

/-- `find_table` with at most `calls` calls of `next`. -/
def Xsdt.findTable (mem : Memory) (sig : List (BitVec 8)) (calls : ℕ) :
    Method XsdtIterator (Option (Option ℕ)) :=
  Iter.find (XsdtIterator.next mem) (fun e => signature mem e == sig) calls

/-- `xsdt.find_table(sig).map(T::new)`, where `T::new` checks the signature again. -/
def AcpiRsdpStruct.table (mem : Memory) (sig : List (BitVec 8)) (calls : ℕ) :
    Method XsdtIterator (Option (Option ℕ)) := do
  match ← Xsdt.findTable mem sig calls with
  | some (some header) =>
    expectSignature mem header sig
    return some (some header)
  | found => return found

namespace AcpiMcfgDescriptor

variable (mem : Memory) (table : ℕ)

/-- The entries of an MCFG table begin behind the header and eight reserved bytes. -/
def headerSize : ℕ := 44

/-- An entry of an MCFG table is an `EcamEntry`. -/
def entrySize : ℕ := 16

/-- `num_of_entries()` of this table. -/
def numOfEntries {σ : Type} : Method σ ℕ := Mushix.numOfEntries mem table headerSize entrySize

/-- The place of an entry. -/
def entrySpan (index : ℕ) : Span := Mushix.entrySpan table headerSize entrySize index

/-- `entry`, which returns the address of an `EcamEntry`. -/
def entry {σ : Type} (index : ℕ) : Method σ (Option ℕ) := do
  let n ← numOfEntries mem table
  if index ≥ n then
    return none
  else
    return some (entrySpan table index).lo

end AcpiMcfgDescriptor

/-- `base_address` of an `EcamEntry`, where the configuration space of its segment begins. -/
def EcamEntry.baseAddress (mem : Memory) (entry : ℕ) : ℕ := readLE mem entry 8

/-! ## What the tables say -/

/-- The memory of a table. -/
def tableSpan (mem : Memory) (table : ℕ) : Span where
  lo := table
  hi := table + length mem table

/-- The tables that the XSDT lists: its entries that lie wholly inside it, in order. -/
def Xsdt.listed (mem : Memory) (table : ℕ) : List ℕ :=
  ((List.range (length mem table)).filter fun i =>
    decide ((entrySpan table i).Within (tableSpan mem table))).map fun i =>
      readLE mem (entrySpan table i).lo entrySize

/-- The iteration over the XSDT returns the tables that it lists, and a search the first one of them
with the signature. Both read entries inside the table only. -/
structure Xsdt.Sound (mem : Memory) (table : ℕ) : Prop where
  iterates : ∃ n, ∀ calls > n, ∃ it,
    Iter.collect (XsdtIterator.next mem) calls (.new table) = .ok (some (listed mem table)) it ∧
      ∀ r ∈ it.reads, r.Within (tableSpan mem table)
  finds (sig : List (BitVec 8)) : ∃ n, ∀ calls > n, ∃ it,
    findTable mem sig calls (.new table) =
      .ok (some ((listed mem table).find? fun e => signature mem e == sig)) it ∧
        ∀ r ∈ it.reads, r.Within (tableSpan mem table)

/-- The MCFG table has as many entries as lie wholly inside it, and these are the ones that it
returns. -/
structure AcpiMcfgDescriptor.Sound (mem : Memory) (table : ℕ) : Prop where
  counts : ∃ n, (numOfEntries mem table : Method Unit ℕ) () = .ok n () ∧
    ∀ i, i < n ↔ (entrySpan table i).Within (tableSpan mem table)
  entry (i : ℕ) : (entry mem table i : Method Unit (Option ℕ)) () =
    .ok (if (entrySpan table i).Within (tableSpan mem table) then
      some (entrySpan table i).lo else none) ()

/-! ## Counting entries -/

section Entries

variable {mem : Memory} {table headerSize entrySize i n m : ℕ}

/-- The entries that are counted are those that lie wholly inside the table. -/
theorem lt_div_iff_within (h : headerSize ≤ length mem table) (hpos : 0 < entrySize) :
    i < (length mem table - headerSize) / entrySize ↔
      (entrySpan table headerSize entrySize i).Within (tableSpan mem table) := by
  rw [← Nat.succ_le_iff, Nat.le_div_iff_mul_le hpos, Nat.succ_mul, Nat.mul_comm]
  simp only [Span.Within, entrySpan, tableSpan]
  omega

/-- The subtraction does not overflow where the length covers the header. -/
theorem run_numOfEntries {σ : Type} (h : headerSize ≤ length mem table) (s : σ) :
    numOfEntries mem table headerSize entrySize s =
      .ok ((length mem table - headerSize) / entrySize) s := by
  rw [numOfEntries, Usize.sub_bind h]
  rfl

/-- A table that says that it is shorter than its header makes the count panic. -/
theorem run_numOfEntries_of_lt {σ : Type} (h : length mem table < headerSize) (s : σ) :
    numOfEntries mem table headerSize entrySize s =
      .error (.panic "attempt to subtract with overflow") s := by
  have hsub : (Usize.sub (length mem table) headerSize : Method σ ℕ) s =
      .error (.panic "attempt to subtract with overflow") s := by
    rw [Usize.sub]
    exact congrFun (if_neg (Nat.not_le.2 h)) s
  exact Method.bind_of_error hsub

theorem filter_range_lt (h : n ≤ m) :
    (List.range m).filter (fun i => decide (i < n)) = List.range n := by
  induction m with
  | zero => simp [Nat.le_zero.1 h]
  | succ m ih =>
    rcases Nat.lt_or_eq_of_le h with hlt | rfl
    · have hle : n ≤ m := Nat.le_of_lt_succ hlt
      simp [List.range_succ, ih hle, hle]
    · simp

end Entries

namespace Xsdt

variable {mem : Memory} {table : ℕ}

/-- The number of entries of a table that is not shorter than its header. -/
def count (mem : Memory) (table : ℕ) : ℕ := (length mem table - headerSize) / entrySize

/-- The pointer in an entry. -/
def pointer (mem : Memory) (table i : ℕ) : ℕ := readLE mem (entrySpan table i).lo entrySize

/-- The entries that are listed are the pointers behind the header. -/
theorem listed_eq (h : headerSize ≤ length mem table) :
    listed mem table = (List.range (count mem table)).map (pointer mem table) := by
  have hle : count mem table ≤ length mem table :=
    (Nat.div_le_self _ _).trans (Nat.sub_le _ _)
  have hcount : ∀ i, decide ((entrySpan table i).Within (tableSpan mem table)) =
      decide (i < count mem table) :=
    fun i => decide_eq_decide.2 (lt_div_iff_within h (by decide)).symm
  rw [listed, funext hcount, filter_range_lt hle]
  rfl

/-- What a call of `next` does. -/
theorem next_eq (it : XsdtIterator) (h : headerSize ≤ length mem it.table) :
    XsdtIterator.next mem it =
      if it.index < count mem it.table then
        .ok (some (pointer mem it.table it.index))
          { it with
            index := it.index + 1
            reads := entrySpan it.table it.index :: it.reads }
      else
        .ok none it := by
  have hcount : (numOfEntries mem it.table : Method XsdtIterator ℕ) it =
      .ok (count mem it.table) it := run_numOfEntries h it
  rw [XsdtIterator.next, Method.run_get_bind, Method.bind_of_ok hcount, Method.run_ite]
  by_cases hlt : it.index < count mem it.table
  · rw [if_pos hlt, if_neg (Nat.not_le.2 hlt)]
    rfl
  · rw [if_neg hlt, if_pos (Nat.not_lt.1 hlt)]
    rfl

/-- The iteration from an entry on. -/
theorem yields (h : headerSize ≤ length mem table) (i : ℕ) (reads : List Span) :
    Iter.Yields (XsdtIterator.next mem)
      ((List.range' i (count mem table - i)).map (pointer mem table))
        { table, index := i, reads } := by
  induction hleft : count mem table - i generalizing i reads with
  | zero =>
    have hdone := next_eq { table, index := i, reads } h
    rw [if_neg (by simpa using Nat.sub_eq_zero_iff_le.1 hleft)] at hdone
    exact .done hdone
  | succ left ih =>
    refine .more ?_ (ih (i + 1) (entrySpan table i :: reads) (by omega))
    rw [next_eq _ h, if_pos (show i < count mem table by omega)]

/-- The iteration reads entries inside the table only. -/
theorem safe_next (h : headerSize ≤ length mem table) :
    Method.Safe (fun it : XsdtIterator => it.table = table ∧
      ∀ r ∈ it.reads, r.Within (tableSpan mem table)) (XsdtIterator.next mem) := by
  rintro it ⟨rfl, hreads⟩
  rw [next_eq it h]
  split_ifs with hlt
  · refine .inl ⟨_, _, rfl, rfl, ?_⟩
    exact List.forall_mem_cons.2 ⟨(lt_div_iff_within h (by decide)).1 hlt, hreads⟩
  · exact .inl ⟨_, _, rfl, rfl, hreads⟩

/-- A search or iteration that returns has read inside the table only. -/
theorem reads_of_safe {α : Type} {x : Method XsdtIterator α} {a : α} {it : XsdtIterator}
    (hx : x.Safe fun it => it.table = table ∧ ∀ r ∈ it.reads, r.Within (tableSpan mem table))
    (hrun : x (.new table) = .ok a it) : ∀ r ∈ it.reads, r.Within (tableSpan mem table) := by
  have hstart : ∀ r ∈ (XsdtIterator.new table).reads, r.Within (tableSpan mem table) := by
    simp [XsdtIterator.new]
  rcases hx (.new table) ⟨rfl, hstart⟩ with ⟨_, _, hok, -, hreads⟩ | ⟨_, _, herr, -⟩
  · rw [hrun] at hok
    cases hok
    exact hreads
  · rw [hrun] at herr
    cases herr

/-- The XSDT is read rightly exactly when its length is not below that of its header. -/
theorem sound_iff (mem : Memory) (table : ℕ) :
    Sound mem table ↔ headerSize ≤ length mem table := by
  constructor
  · intro h
    -- the first `next` counts the entries
    by_contra hlt
    obtain ⟨n, hn⟩ := h.iterates
    obtain ⟨it, hrun, -⟩ := hn (n + 1) n.lt_succ_self
    have hnext : XsdtIterator.next mem (.new table) =
        .error (.panic "attempt to subtract with overflow") (.new table) := by
      rw [XsdtIterator.next, Method.run_get_bind]
      exact Method.bind_of_error (run_numOfEntries_of_lt (Nat.not_le.1 hlt) _)
    rw [Iter.collect_of_error hnext] at hrun
    cases hrun
  · intro h
    have hyields := yields h 0 []
    rw [Nat.sub_zero, ← List.range_eq_range', ← listed_eq h] at hyields
    have hsafe := safe_next h
    constructor
    · refine ⟨(listed mem table).length, fun calls hcalls => ?_⟩
      obtain ⟨it, hrun⟩ := hyields.collect_eq hcalls
      exact ⟨it, hrun, reads_of_safe (Iter.safe_collect hsafe calls) hrun⟩
    · refine fun sig => ⟨(listed mem table).length, fun calls hcalls => ?_⟩
      obtain ⟨it, hrun⟩ := hyields.find_eq (fun e => signature mem e == sig) hcalls
      exact ⟨it, hrun, reads_of_safe (Iter.safe_find hsafe _ calls) hrun⟩

end Xsdt

/-- The assertion about the signature of a table that was found never fails. -/
theorem AcpiRsdpStruct.table_of_sound {mem : Memory} {xsdt : ℕ} (h : Xsdt.Sound mem xsdt)
    (sig : List (BitVec 8)) :
    ∃ n, ∀ calls > n, ∃ it, AcpiRsdpStruct.table mem sig calls (.new xsdt) =
      .ok (some ((Xsdt.listed mem xsdt).find? fun e => signature mem e == sig)) it := by
  obtain ⟨n, hfinds⟩ := h.finds sig
  refine ⟨n, fun calls hcalls => ?_⟩
  obtain ⟨it, hrun, -⟩ := hfinds calls hcalls
  refine ⟨it, ?_⟩
  rw [AcpiRsdpStruct.table, Method.bind_of_ok hrun]
  cases hfound : (Xsdt.listed mem xsdt).find? fun e => signature mem e == sig with
  | none => rfl
  | some header =>
    have hsig : signature mem header = sig := by simpa using List.find?_some hfound
    have hexpect : (expectSignature mem header sig : Method XsdtIterator Unit) it = .ok () it := by
      rw [expectSignature]
      exact congrFun (if_pos hsig) it
    exact Method.bind_of_ok hexpect

/-- The MCFG table is read rightly exactly when its length is not below that of its header. -/
theorem AcpiMcfgDescriptor.sound_iff (mem : Memory) (table : ℕ) :
    Sound mem table ↔ headerSize ≤ length mem table := by
  constructor
  · intro h
    -- a length below that of the header underflows the count
    by_contra hlt
    obtain ⟨n, hrun, -⟩ := h.counts
    have hpanic : (numOfEntries mem table : Method Unit ℕ) () =
        .error (.panic "attempt to subtract with overflow") () :=
      run_numOfEntries_of_lt (Nat.not_le.1 hlt) ()
    rw [hpanic] at hrun
    cases hrun
  · intro h
    have hcount : (numOfEntries mem table : Method Unit ℕ) () =
        .ok ((length mem table - headerSize) / entrySize) () := run_numOfEntries h ()
    have hwithin : ∀ i, i < (length mem table - headerSize) / entrySize ↔
        (entrySpan table i).Within (tableSpan mem table) :=
      fun i => lt_div_iff_within h (by decide)
    refine ⟨⟨_, hcount, hwithin⟩, fun i => ?_⟩
    rw [AcpiMcfgDescriptor.entry, Method.bind_of_ok hcount, Method.run_ite]
    by_cases hi : (entrySpan table i).Within (tableSpan mem table)
    · rw [if_pos hi, if_neg (Nat.not_le.2 ((hwithin i).2 hi))]
      rfl
    · rw [if_neg hi, if_pos (Nat.not_lt.1 fun hlt => hi ((hwithin i).1 hlt))]
      rfl

/-- The tables of the firmware are read rightly, whatever is in them, exactly when their lengths are
not below those of their headers. -/
theorem acpi_sound_iff (mem : Memory) (xsdt mcfg : ℕ) :
    (Xsdt.Sound mem xsdt ↔ Xsdt.headerSize ≤ length mem xsdt) ∧
      (AcpiMcfgDescriptor.Sound mem mcfg ↔ AcpiMcfgDescriptor.headerSize ≤ length mem mcfg) :=
  ⟨Xsdt.sound_iff mem xsdt, AcpiMcfgDescriptor.sound_iff mem mcfg⟩

/-- Tables with a length of 0, which have no entries. -/
theorem not_acpi_sound_zero :
    ¬Xsdt.Sound (fun _ => 0) 0 ∧ ¬AcpiMcfgDescriptor.Sound (fun _ => 0) 0 := by
  rw [Xsdt.sound_iff, AcpiMcfgDescriptor.sound_iff]
  decide

end Mushix
