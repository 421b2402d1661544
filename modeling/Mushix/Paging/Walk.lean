import Mushix.Lib.Radix
import Mushix.Paging.PageTable

/-!
# The page walk of the processor

How the processor translates a virtual address with the page tables in memory. A table is
named by its address and its height: page tables have height 0 and the PML4 table has height 3.

* `translate`: the translation of an address;
* `Reaches`: the tables of a tree, each with its height and the addresses it is responsible for;
* `MeetsTables`: what the walk of an address meets on its way to the page table.

Reserved bits are not modelled, except that a PML4 entry has no large page.
-/

namespace Mushix

/-- The address field of an entry, bits 12 to 51. -/
def frameMask : BitVec 64 := 0x000FFFFFFFFFF000

/-- The address in an entry. -/
def frame (e : BitVec 64) : ℕ := (e &&& frameMask).toNat

/-- The attribute bits of an entry. -/
def flags (e : BitVec 64) : BitVec 64 := e &&& ~~~frameMask

/-- Bit 0 of an entry: the entry is in use. -/
def Present (e : BitVec 64) : Prop := e.getLsbD 0 = true

/-- Bit 7 of an entry above the page tables: it maps a large page. -/
def Large (e : BitVec 64) : Prop := e.getLsbD 7 = true

instance : DecidablePred Present := fun e => inferInstanceAs (Decidable (e.getLsbD 0 = true))

instance : DecidablePred Large := fun e => inferInstanceAs (Decidable (e.getLsbD 7 = true))

/-- What the processor finds out about an address. -/
structure Translation where
  /-- The physical address. -/
  phys : ℕ
  /-- The attribute bits of all entries on the way, the one of the page last. -/
  flags : List (BitVec 64)
  deriving DecidableEq, Repr

namespace Translation

/-- The translation by an entry that maps a page of `2 ^ (12 + 9 * h)` bytes. -/
def ofPage (h : ℕ) (e : BitVec 64) (va : ℕ) : Translation :=
  let shift := 12 + 9 * h
  { phys := frame e / 2 ^ shift * 2 ^ shift + va % 2 ^ shift
    flags := [e &&& ~~~(frameMask >>> shift <<< shift)] }

/-- The translation with an entry in front that leads to the next table. -/
def under (e : BitVec 64) (tr : Translation) : Translation :=
  { tr with flags := Mushix.flags e :: tr.flags }

end Translation

/-- The address of the entry for a virtual address. -/
def slot (h table va : ℕ) : ℕ := table + 8 * (va / 2 ^ (12 + 9 * h) % 512)

/-- The walk from a table of height `h` on. -/
def walk (mem : ℕ → BitVec 64) : ℕ → ℕ → ℕ → Option Translation
  | 0, table, va =>
    let e := mem (slot 0 table va)
    if Present e then some (.ofPage 0 e va) else none
  | h + 1, table, va =>
    let e := mem (slot (h + 1) table va)
    if ¬Present e then
      none
    else if Large e then
      -- pages of 2 MiB and 1 GiB; bit 7 of an entry of the PML4 is reserved
      if h + 1 ≤ 2 then some (.ofPage (h + 1) e va) else none
    else
      (walk mem h (frame e) va).map (.under e)

/-- The translation of a virtual address with the PML4 table `root`. -/
def translate (mem : ℕ → BitVec 64) (root va : ℕ) : Option Translation := walk mem 3 root va

/-- The virtual addresses of the processor: both halves of a space of 48 bits. -/
def Canonical (va : ℕ) : Prop := va < 2 ^ 47 ∨ 2 ^ 64 - 2 ^ 47 ≤ va ∧ va < 2 ^ 64

/-- The tables of a tree: the table of height `h` is responsible for the pages whose number
divided by `512 ^ (h + 1)` is `q`. -/
inductive Reaches (mem : ℕ → BitVec 64) (root : ℕ) : ℕ → ℕ → ℕ → Prop where
  | root : Reaches mem root root 3 0
  | child {table h q i : ℕ} (parent : Reaches mem root table (h + 1) q) (index : i < 512)
      (present : Present (mem (table + 8 * i))) (pointer : ¬Large (mem (table + 8 * i))) :
      Reaches mem root (frame (mem (table + 8 * i))) h (512 * q + i)

/-- No two entries lead to the same table. -/
def IsTree (mem : ℕ → BitVec 64) (root : ℕ) : Prop :=
  ∀ table h q h' q', Reaches mem root table h q → Reaches mem root table h' q' → h = h' ∧ q = q'

/-- The entry points to a table and has no attributes in bits 52 to 63. -/
def IsTablePointer (e : BitVec 64) : Prop := ¬Large e ∧ e.toNat < 2 ^ 52

instance : DecidablePred IsTablePointer := fun e =>
  inferInstanceAs (Decidable (¬Large e ∧ e.toNat < 2 ^ 52))

/-- Every present entry that the walk meets above the page tables is a pointer to a table
without attributes in bits 52 to 63. -/
def MeetsTables (mem : ℕ → BitVec 64) : ℕ → ℕ → ℕ → Prop
  | 0, _, _ => True
  | h + 1, table, va =>
    let e := mem (slot (h + 1) table va)
    Present e → IsTablePointer e ∧ MeetsTables mem h (frame e) va

/-! ## Entries -/

/-- The address field as a number. -/
theorem frame_eq (e : BitVec 64) : frame e = e.toNat % 2 ^ 52 - e.toNat % 2 ^ 52 % 2 ^ 12 := by
  -- the field is bits 12 to 51: what two masks of low bits leave
  have hmask : e &&& frameMask = (e &&& BitField.lowMask 64 52) &&& ~~~BitField.lowMask 64 12 := by
    rw [BitVec.and_assoc, show frameMask = BitField.lowMask 64 52 &&& ~~~BitField.lowMask 64 12
      by decide]
  rw [frame, hmask, BitField.toNat_and_not_lowMask (by decide),
    BitField.toNat_and_lowMask (by decide)]

/-- The address of a table is the address of a page below `2 ^ 52`. -/
theorem frame_page (e : BitVec 64) : frame e % 4096 = 0 ∧ frame e + 4096 ≤ 2 ^ 52 := by
  have hframe := frame_eq e
  omega

theorem present_iff {e : BitVec 64} : Present e ↔ e.toNat % 2 = 1 := by
  rw [Present, BitVec.getLsbD, Nat.testBit_zero, decide_eq_true_iff]

theorem large_iff {e : BitVec 64} : Large e ↔ e.toNat / 128 % 2 = 1 := by
  rw [Large, BitVec.getLsbD, Nat.testBit_eq_decide_div_mod_eq, decide_eq_true_iff]

section Address

variable {page : ℕ} {bits : BitVec 64}

theorem toNat_ofNat_page (hlt : page + 4096 ≤ 2 ^ 52) : (BitVec.ofNat 64 page).toNat = page := by
  rw [BitVec.toNat_ofNat, Nat.mod_eq_of_lt (by omega)]

variable (hpage : page % 4096 = 0) (hlt : page + 4096 ≤ 2 ^ 52) (hbits : bits.toNat < 4096)

include hpage hlt hbits

/-- An entry that holds the address of a page and attributes in its low bits. -/
theorem toNat_entry : (BitVec.ofNat 64 page ||| bits).toNat = page + bits.toNat := by
  rw [BitField.toNat_or_of_aligned (k := 12) (by rwa [toNat_ofNat_page hlt]) hbits,
    toNat_ofNat_page hlt]

/-- An entry points to the page it was made of. -/
theorem frame_entry : frame (BitVec.ofNat 64 page ||| bits) = page := by
  rw [frame_eq, toNat_entry hpage hlt hbits]
  omega

theorem present_entry : Present (BitVec.ofNat 64 page ||| bits) ↔ Present bits := by
  rw [present_iff, present_iff, toNat_entry hpage hlt hbits]
  omega

theorem flags_entry : flags (BitVec.ofNat 64 page ||| bits) = bits := by
  -- the address of a page is inside the field, and the attributes are outside
  have hhigh : BitVec.ofNat 64 page &&& frameMask = BitVec.ofNat 64 page := by
    apply BitVec.eq_of_toNat_eq
    show frame (BitVec.ofNat 64 page) = _
    rw [frame_eq, toNat_ofNat_page hlt]
    omega
  have hlow : bits &&& frameMask = 0 := by
    apply BitVec.eq_of_toNat_eq
    show frame bits = 0
    rw [frame_eq]
    omega
  rw [flags, BitVec.or_comm, ← hhigh, BitField.or_and_not_mask hlow]

end Address

/-- Without high attributes the program and the processor find the same table. -/
theorem toNat_and_not_attrMask {e : BitVec 64} (h : e.toNat < 2 ^ 52) :
    (e &&& ~~~attrMask).toNat = frame e := by
  have hlow : e &&& BitField.lowMask 64 52 = e := by
    apply BitVec.eq_of_toNat_eq
    rw [BitField.toNat_and_lowMask (by decide), Nat.mod_eq_of_lt h]
  rw [frame, show frameMask = BitField.lowMask 64 52 &&& ~~~attrMask by decide,
    ← BitVec.and_assoc, hlow]

/-! ## Addresses and positions -/

theorem div_two_pow (h va : ℕ) : va / 2 ^ (12 + 9 * h) = va / 4096 / 512 ^ h := by
  rw [Nat.pow_add, Nat.pow_mul, Nat.div_div_eq_div_mul]

/-- The entry of a table is the digit of the page number. -/
theorem slot_eq (h table va : ℕ) :
    slot h table va = table + 8 * Radix.digit 512 h (va / 4096) := by
  rw [slot, div_two_pow]
  rfl

/-- The walk goes on behind a pointer. -/
theorem walk_of_pointer {mem : ℕ → BitVec 64} {h table va : ℕ}
    (hp : Present (mem (slot (h + 1) table va))) (hl : ¬Large (mem (slot (h + 1) table va))) :
    walk mem (h + 1) table va =
      (walk mem h (frame (mem (slot (h + 1) table va))) va).map
        (.under (mem (slot (h + 1) table va))) := by
  rw [walk, if_neg (not_not.2 hp), if_neg hl]

/-- The walk uses the low 48 bits of an address only. -/
theorem walk_mod (mem : ℕ → BitVec 64) {h : ℕ} (hh : h ≤ 3) (t va : ℕ) :
    walk mem h t (va % 2 ^ 48) = walk mem h t va := by
  have hslot : ∀ k ≤ 3, ∀ t, slot k t (va % 2 ^ 48) = slot k t va := by
    intro k hk t
    have hpow : 2 ^ 48 = 2 ^ (12 + 9 * k) * 2 ^ (48 - (12 + 9 * k)) := by
      rw [← Nat.pow_add]
      congr 1
      omega
    have hdvd : 512 ∣ 2 ^ (48 - (12 + 9 * k)) := Nat.pow_dvd_pow 2 (by omega : 9 ≤ _)
    rw [slot, hpow, Nat.mod_mul_right_div_self, Nat.mod_mod_of_dvd _ hdvd, slot]
  have hpage : ∀ k ≤ 3, ∀ e, Translation.ofPage k e (va % 2 ^ 48) = .ofPage k e va := by
    intro k hk e
    have hdvd : 2 ^ (12 + 9 * k) ∣ 2 ^ 48 := Nat.pow_dvd_pow 2 (by omega)
    rw [Translation.ofPage, Nat.mod_mod_of_dvd _ hdvd, Translation.ofPage]
  induction h generalizing t with
  | zero => rw [walk, walk, hslot 0 hh, hpage 0 hh]
  | succ h ih => rw [walk, walk, hslot (h + 1) hh, hpage (h + 1) hh, ih (by omega)]

/-- The walk of an entry that holds the address of a page and attributes in its low bits. -/
theorem walk_zero_entry {mem : ℕ → BitVec 64} {table page va : ℕ} {bits : BitVec 64}
    (hmem : mem (slot 0 table va) = BitVec.ofNat 64 page ||| bits) (hpage : page % 4096 = 0)
    (hlt : page + 4096 ≤ 2 ^ 52) (hbits : bits.toNat < 4096) :
    walk mem 0 table va =
      if Present bits then some { phys := page + va % 4096, flags := [bits] } else none := by
  rw [walk, hmem]
  refine if_congr (present_entry hpage hlt hbits) ?_ rfl
  -- at height 0 the page has 4 KiB, so nothing of its address is cut off
  have hphys : page / 2 ^ 12 * 2 ^ 12 = page := by omega
  rw [Translation.ofPage, frame_entry hpage hlt hbits, hphys,
    show frameMask >>> (12 + 9 * 0) <<< (12 + 9 * 0) = frameMask by decide]
  exact congrArg some (congrArg (Translation.mk _ [·]) (flags_entry hpage hlt hbits))

/-- Entries at the same address belong to the same table. -/
theorem entry_inj {t t' i i' : ℕ} (ht : t % 4096 = 0) (ht' : t' % 4096 = 0) (hi : i < 512)
    (hi' : i' < 512) (h : t + 8 * i = t' + 8 * i') : t = t' ∧ i = i' := by
  omega

end Mushix
