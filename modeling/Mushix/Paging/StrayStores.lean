import Mushix.Paging.ForeignTables

/-!
# Stores behind other entries

`ensure_populated` leaves every present entry as it is, and `table_mut` takes it for a pointer to a
table: a call goes on in the memory behind a large page, or at the wrong address behind a pointer
with attributes in bits 52 to 63.

* `PML4.strayWords`: the words that a call reads there for a page;
* `PML4.strayLoop_spec`: a call that gets to such a page stores to one of these words, unless it
  ends on the page without a store;
* `PML4.createMapping_framed`: when a call is framed.
-/

namespace Mushix

namespace PML4

open Radix (digit blockEnd)

/-- The words that the descent to page `n` comes to, from a table of height `h` on: it goes on
behind every entry that is in use. -/
def descent (mem : ℕ → BitVec 64) : ℕ → ℕ → ℕ → List ℕ
  | 0, t, n => [t + 8 * digit 512 0 n]
  | h + 1, t, n =>
    let a := t + 8 * digit 512 (h + 1) n
    a :: if Present (mem a) then descent mem h (mem a &&& ~~~attrMask).toNat n else []

/-- All entries above the page table are in use on the descent to page `n`. -/
def Complete (mem : ℕ → BitVec 64) : ℕ → ℕ → ℕ → Prop
  | 0, _, _ => True
  | h + 1, t, n =>
    let e := mem (t + 8 * digit 512 (h + 1) n)
    Present e ∧ Complete mem h (e &&& ~~~attrMask).toNat n

/-- The words that the descent to page `n` comes to behind the first entry in use that is no
pointer to a table. -/
def strayWords (mem : ℕ → BitVec 64) : ℕ → ℕ → ℕ → List ℕ
  | 0, _, _ => []
  | h + 1, t, n =>
    let e := mem (t + 8 * digit 512 (h + 1) n)
    if ¬Present e then []
    else if IsTablePointer e then strayWords mem h (frame e) n
    else descent mem h (e &&& ~~~attrMask).toNat n

/-- A call that gets to page `n` makes no store for it: its physical address overflows when all
entries on the descent are in use, and otherwise `Box::new` has run out of pages. -/
structure EndsAt (box : BoxSource) (root : ℕ) (r : MapRequest) (s : TableMemory) (n : ℕ) :
    Prop where
  overflows : Complete s.mem 3 root n → 2 ^ 64 ≤ r.phys + 4096 * n
  exhausted : ¬Complete s.mem 3 root n → box.supply - s.boxes ≤ demand s.mem root r.first n

/-- The word at `a` is part of no table of the tree and of no page that `Box::new` may return. -/
def OutsideTables (box : BoxSource) (root : ℕ) (s : TableMemory) (a : ℕ) : Prop :=
  ∀ t, (∃ h q, Reaches s.mem root t h q) ∨ (∃ k, s.boxes ≤ k ∧ k < box.supply ∧ box.addr k = t) →
    ¬Span.Within ⟨a, a + 8⟩ ⟨t, t + 4096⟩

section Words

variable {mem : ℕ → BitVec 64} {h n t a : ℕ}

/-- A page has a store in the last table, at least. -/
theorem descent_ne_nil (mem : ℕ → BitVec 64) (h t n : ℕ) : descent mem h t n ≠ [] := by
  cases h <;> simp [descent]

/-- The walk of a page meets other entries than pointers to tables when there are words behind
them. -/
theorem meetsTables_iff : MeetsTables mem h t (4096 * n) ↔ strayWords mem h t n = [] := by
  induction h generalizing t with
  | zero => simp [MeetsTables, strayWords]
  | succ h ih =>
    rw [MeetsTables, slot_page, strayWords]
    by_cases hp : Present (mem (t + 8 * digit 512 (h + 1) n))
    · rw [if_neg (not_not.2 hp)]
      by_cases hpointer : IsTablePointer (mem (t + 8 * digit 512 (h + 1) n))
      · rw [if_pos hpointer, ← ih]
        exact ⟨fun h => (h hp).2, fun h _ => ⟨hpointer, h⟩⟩
      · rw [if_neg hpointer]
        exact iff_of_false (fun h => hpointer (h hp).1) (descent_ne_nil mem h _ n)
    · simp [hp]

/-- `table_mut` returns the address of a page. -/
theorem and_not_attrMask_mod (e : BitVec 64) : (e &&& ~~~attrMask).toNat % 4096 = 0 := by
  rw [show attrMask = BitField.lowMask 64 12 by decide, BitField.toNat_and_not_lowMask (by decide)]
  omega

theorem mod_of_mem_descent (ht : t % 4096 = 0) (ha : a ∈ descent mem h t n) : a % 8 = 0 := by
  induction h generalizing t with
  | zero =>
    obtain rfl := List.mem_singleton.1 ha
    omega
  | succ h ih =>
    rcases List.mem_cons.1 ha with rfl | ha
    · omega
    split at ha
    · exact ih (and_not_attrMask_mod _) ha
    · cases ha

/-- The words that are hit outside of the tables are aligned. -/
theorem mod_of_mem_strayWords (ha : a ∈ strayWords mem h t n) : a % 8 = 0 := by
  induction h generalizing t with
  | zero => cases ha
  | succ h ih =>
    rw [strayWords] at ha
    split_ifs at ha
    · exact ih ha
    · exact mod_of_mem_descent (and_not_attrMask_mod _) ha
    · cases ha

end Words

/-! ## Loops do not undo stores -/

/-- The word that the descent to page `n` stores to first: the entry of the page, or the first
entry on the way that is not in use. -/
def firstStore (mem : ℕ → BitVec 64) : ℕ → ℕ → ℕ → ℕ
  | 0, t, n => t + 8 * digit 512 0 n
  | h + 1, t, n =>
    let e := mem (t + 8 * digit 512 (h + 1) n)
    if Present e then firstStore mem h (e &&& ~~~attrMask).toNat n else
      t + 8 * digit 512 (h + 1) n

section Stores

variable {box : BoxSource} {b : ℕ} {c : MapCall} {x : Span} {mem : ℕ → BitVec 64} {p t h n : ℕ}
  {s s' : TableMemory} {body inner : ℕ → ℕ → Method TableMemory ℕ}

variable (box b x) in
/-- The store was made, with no more calls of `Box::new` than there are pages after the first
`b` of them. -/
def Stored (s : TableMemory) : Prop := x ∈ s.written ∧ s.boxes ≤ max b box.supply

variable (box b c x) in
/-- Code for the pages up to `m` runs to its end or faults, and the store is made then. -/
def Stores (code : Method TableMemory ℕ) (s : TableMemory) (m : ℕ) : Prop :=
  Ends c (code s) (fun n s' => c.first ≤ n ∧ Stored box b x s') (fun _ => Stored box b x) m

variable (box b c) in
/-- Whatever table it runs in, a loop at height `h` does not undo stores. -/
def LoopKeeps (h : ℕ) (loop : ℕ → ℕ → Method TableMemory ℕ) : Prop :=
  ∀ x t n s, c.first ≤ n → n < c.limit → Stored box b x s →
    Stores box b c x (loop t (c.address n)) s (min (blockEnd 512 (h + 1) n) c.limit)

/-- A loop does not undo stores when its body does not. -/
theorem indexLoop_keeps (hh : h ≤ 3)
    (hkeeps : ∀ {n s}, c.first ≤ n → n < c.limit → Stored box b x s →
      Stores box b c x (body (digit 512 h n) (c.address n)) s (min (blockEnd 512 h n) c.limit))
    (hfirst : c.first ≤ n) (hn : n < c.limit) (hstored : Stored box b x s) :
    Stores box b c x (indexLoop c.virtEnd (h + 1) body 512 (c.address n)) s
      (min (blockEnd 512 (h + 1) n) c.limit) :=
  indexLoop_rule hh (fun hI hlt _ => hkeeps hI.1 hlt hI.2) ⟨hfirst, hstored⟩ hn rfl
    (Nat.le_add_right _ _)

/-- Setting an entry does not undo stores. -/
theorem mapPage_keeps (t : ℕ) (hfirst : c.first ≤ n) (hn : n < c.limit)
    (hstored : Stored box b x s) :
    Stores box b c x (mapPage c.virtStart c.phys c.attr t (digit 512 0 n) (c.address n)) s
      (min (blockEnd 512 0 n) c.limit) := by
  rw [Radix.blockEnd_zero, Nat.min_eq_left (by omega : n + 1 ≤ c.limit)]
  cases hrefusal : c.refusal n with
  | none =>
    exact .inl ⟨_, mapPage_ok t _ s hfirst hn hrefusal, by omega,
      List.mem_cons_of_mem _ hstored.1, hstored.2⟩
  | some e => exact .inr ⟨e, s, mapPage_refused t _ s hfirst hrefusal, hstored⟩

/-- Entering a table does not undo stores when the loop inside does not. -/
theorem enterTable_keeps (hinner : LoopKeeps box b c h inner) (t : ℕ)
    (hfirst : c.first ≤ n) (hn : n < c.limit) (hstored : Stored box b x s) :
    Stores box b c x (enterTable box inner t (digit 512 (h + 1) n) (c.address n)) s
      (min (blockEnd 512 (h + 1) n) c.limit) := by
  rcases enterTable_cases box inner t (digit 512 (h + 1) n) (c.address n) s with
    ⟨-, hrun⟩ | ⟨-, hbox, hrun⟩ | ⟨-, -, hrun⟩
  · rw [Stores, hrun]
    exact hinner x _ n s hfirst hn hstored
  · rw [Stores, hrun]
    exact hinner x _ n _ hfirst hn
      ⟨List.mem_cons_of_mem _ (List.mem_cons_of_mem _ hstored.1), le_max_of_le_right hbox⟩
  · exact .inr ⟨_, s, hrun, hstored⟩

/-- The loop of a page table keeps what is promised. -/
theorem pageLoop_keeps : LoopKeeps box b c 0 (pageLoop c.virtStart c.virtEnd c.phys c.attr) :=
  fun _ t _ _ => indexLoop_keeps (by decide) (mapPage_keeps t)

/-- The loop of another table keeps what its inner loop does. -/
theorem tableLoop_keeps (hh : h + 1 ≤ 3) (hinner : LoopKeeps box b c h inner) :
    LoopKeeps box b c (h + 1) (tableLoop box c.virtEnd (h + 2) inner) :=
  fun _ t _ _ => indexLoop_keeps hh (enterTable_keeps hinner t)

/-! ## Loops behind a stray entry -/

/-- The first store of a page is one of its descent. -/
theorem firstStore_mem (mem : ℕ → BitVec 64) (h t n : ℕ) :
    firstStore mem h t n ∈ descent mem h t n := by
  induction h generalizing t with
  | zero => exact List.mem_singleton_self _
  | succ h ih =>
    rw [firstStore, descent]
    split
    · exact List.mem_cons_of_mem _ (ih _)
    · exact List.mem_cons_self

variable (mem p t h) in
/-- The words that the descent to page `p` comes to are as in the memory `mem`. -/
def SameWords (s' : TableMemory) : Prop := ∀ a ∈ descent mem h t p, s'.mem a = mem a

theorem SameWords.head (h' : SameWords mem p t (h + 1) s') :
    s'.mem (t + 8 * digit 512 (h + 1) p) = mem (t + 8 * digit 512 (h + 1) p) :=
  h' _ List.mem_cons_self

theorem SameWords.tail (h' : SameWords mem p t (h + 1) s')
    (hp : Present (mem (t + 8 * digit 512 (h + 1) p))) :
    SameWords mem p (mem (t + 8 * digit 512 (h + 1) p) &&& ~~~attrMask).toNat h s' := by
  intro a ha
  refine h' a ?_
  rw [descent, if_pos hp]
  exact List.mem_cons_of_mem _ ha

variable (box b c mem p) in
/-- A loop at height `h` that starts at page `p`, whatever table it runs in: it makes the store
that `firstStore` says, unless the page is refused or there is no page left for a table. -/
def LoopStores (h : ℕ) (loop : ℕ → ℕ → Method TableMemory ℕ) : Prop :=
  ∀ t s', SameWords mem p t h s' → s'.boxes ≤ max b box.supply →
    (Complete mem h t p → c.refusal p = none) → (¬Complete mem h t p → s'.boxes < box.supply) →
    Stores box b c ⟨firstStore mem h t p, firstStore mem h t p + 8⟩ (loop t (c.address p)) s'
      (min (blockEnd 512 (h + 1) p) c.limit)

variable (box c mem p) in
/-- A loop at height `h` that starts at page `p`, whatever table it runs in: it changes nothing
where the page is refused or there is no page left for a table. -/
def LoopFaults (h : ℕ) (loop : ℕ → ℕ → Method TableMemory ℕ) : Prop :=
  ∀ t s', SameWords mem p t h s' → (Complete mem h t p → c.refusal p ≠ none) →
    (¬Complete mem h t p → box.supply ≤ s'.boxes) →
    ∃ e, loop t (c.address p) s' = .error e s'

/-- A loop makes a store when its body makes it for the first page and does not undo stores. -/
theorem indexLoop_stores (hh : h ≤ 3) (hp : c.first ≤ p) (hlt : p < c.limit)
    (hfirst : Stores box b c x (body (digit 512 h p) (c.address p)) s
      (min (blockEnd 512 h p) c.limit))
    (hkeeps : ∀ {n s}, c.first ≤ n → n < c.limit → Stored box b x s →
      Stores box b c x (body (digit 512 h n) (c.address n)) s (min (blockEnd 512 h n) c.limit)) :
    Stores box b c x (indexLoop c.virtEnd (h + 1) body 512 (c.address p)) s
      (min (blockEnd 512 (h + 1) p) c.limit) := by
  have hend := Radix.lt_blockEnd (by decide : 0 < 512) (h + 1) p
  -- either the loop has not begun, or the store was made
  let I : ℕ → TableMemory → Prop := fun n s' =>
    n = p ∧ s' = s ∨ c.first ≤ n ∧ Stored box b x s'
  have hbody : ∀ {n s'}, I n s' → n < c.limit → n / 512 ^ (h + 1) = p / 512 ^ (h + 1) →
      Ends c (body (digit 512 h n) (c.address n) s') I (fun _ => Stored box b x)
        (min (blockEnd 512 h n) c.limit) := by
    intro n s' hI hn _
    have hrun : Stores box b c x (body (digit 512 h n) (c.address n)) s'
        (min (blockEnd 512 h n) c.limit) := by
      rcases hI with ⟨rfl, rfl⟩ | ⟨hle, hstored⟩
      · exact hfirst
      · exact hkeeps hle hn hstored
    rcases hrun with ⟨s'', hrun, hstored⟩ | herror
    · exact .inl ⟨s'', hrun, .inr hstored⟩
    · exact .inr herror
  rcases indexLoop_rule hh hbody (.inl ⟨rfl, rfl⟩) hlt rfl (Nat.le_add_right 512 _) with
    ⟨s', hrun, ⟨heq, -⟩ | hstored⟩ | herror
  · omega
  · exact .inl ⟨s', hrun, hstored⟩
  · exact .inr herror

/-- A loop faults when its body faults for the first page. -/
theorem indexLoop_faults (hh : h ≤ 3) {e : Fault}
    (hfirst : body (digit 512 h p) (c.address p) s = .error e s) :
    indexLoop c.virtEnd (h + 1) body 512 (c.address p) s = .error e s := by
  show indexLoop c.virtEnd (h + 1) body (511 + 1) (c.address p) s = .error e s
  rw [indexLoop, c.calcIndex_address hh, Method.bind_of_error hfirst]

/-- The innermost loop sets the entry of the page. -/
theorem pageLoop_stores (hp : c.first ≤ p) (hlt : p < c.limit) :
    LoopStores box b c mem p 0 (pageLoop c.virtStart c.virtEnd c.phys c.attr) := by
  intro t s' _ hboxes hset _
  refine indexLoop_stores (by decide) hp hlt ?_ (mapPage_keeps t)
  rw [Radix.blockEnd_zero, Nat.min_eq_left (by omega : p + 1 ≤ c.limit)]
  exact .inl ⟨_, mapPage_ok t _ s' hp hlt (hset trivial), by omega, List.mem_cons_self, hboxes⟩

/-- The loop of a page table faults at the page that is refused. -/
theorem pageLoop_faults (hp : c.first ≤ p) :
    LoopFaults box c mem p 0 (pageLoop c.virtStart c.virtEnd c.phys c.attr) := by
  intro t s' _ hrefused _
  obtain ⟨e, he⟩ := Option.ne_none_iff_exists'.1 (hrefused trivial)
  exact ⟨e, indexLoop_faults (by decide) (mapPage_refused t _ s' hp he)⟩

/-- A loop around another one descends to the page, unless it populates an entry. -/
theorem tableLoop_stores (hh : h + 1 ≤ 3) (hp : c.first ≤ p) (hlt : p < c.limit)
    (hkeeps : LoopKeeps box b c h inner) (hstores : LoopStores box b c mem p h inner) :
    LoopStores box b c mem p (h + 1) (tableLoop box c.virtEnd (h + 2) inner) := by
  intro t s' hwords hboxes hset hbox
  refine indexLoop_stores hh hp hlt ?_ (enterTable_keeps hkeeps t)
  have hhead := hwords.head
  rw [firstStore]
  by_cases hpresent : Present (mem (t + 8 * digit 512 (h + 1) p))
  · rcases enterTable_cases box inner t (digit 512 (h + 1) p) (c.address p) s' with
      ⟨-, hrun⟩ | ⟨habsent, -⟩ | ⟨habsent, -⟩
    -- an entry in use is followed, whether it is a pointer or a large page
    · rw [Stores, hrun, if_pos hpresent, hhead]
      exact hstores _ s' (hwords.tail hpresent) hboxes (fun h => hset ⟨hpresent, h⟩)
        fun h => hbox fun h' => h h'.2
    · exact absurd (hhead ▸ hpresent) habsent
    · exact absurd (hhead ▸ hpresent) habsent
  · have hbox := hbox fun h => hpresent h.1
    rcases enterTable_cases box inner t (digit 512 (h + 1) p) (c.address p) s' with
      ⟨hp', -⟩ | ⟨-, -, hrun⟩ | ⟨-, hfull, -⟩
    · exact absurd (hhead ▸ hp') hpresent
    -- an entry that is not in use gets a pointer, which is the store
    · rw [Stores, hrun, if_neg hpresent]
      exact hkeeps _ _ _ _ hp hlt ⟨List.mem_cons_self, le_max_of_le_right hbox⟩
    · omega

/-- The loop of another table faults where its inner loop does. -/
theorem tableLoop_faults (hh : h + 1 ≤ 3) (hinner : LoopFaults box c mem p h inner) :
    LoopFaults box c mem p (h + 1) (tableLoop box c.virtEnd (h + 2) inner) := by
  intro t s' hwords hrefused hfull
  have hhead := hwords.head
  rcases enterTable_cases box inner t (digit 512 (h + 1) p) (c.address p) s' with
    ⟨hpresent, hrun⟩ | ⟨habsent, hbox, -⟩ | ⟨-, -, hrun⟩
  · rw [hhead] at hpresent hrun
    obtain ⟨e, he⟩ := hinner _ s' (hwords.tail hpresent) (fun h => hrefused ⟨hpresent, h⟩)
      fun h => hfull fun h' => h h'.2
    exact ⟨e, indexLoop_faults hh (hrun.trans he)⟩
  · rw [hhead] at habsent
    have hle := hfull fun h => habsent h.1
    omega
  · exact ⟨_, indexLoop_faults hh hrun⟩

end Stores

/-! ## Calls that get to a stray entry -/

section Stray

variable {box : BoxSource} {root : ℕ} {r : MapRequest} {s s' : TableMemory} {own' : Owners}
  {p h g t q n : ℕ} {loop inner : ℕ → ℕ → Method TableMemory ℕ}

/-- The pages in front of page `p`. -/
def Before (r : MapRequest) (p n : ℕ) : Prop := r.first ≤ n ∧ n < p

variable (box root r s p) in
/-- One of the words behind the stray entry of page `p` was stored to. -/
def Strayed (s' : TableMemory) : Prop :=
  ¬EndsAt box root r s p ∧
    ∃ a ∈ strayWords s.mem 3 root p, Stored box s.boxes ⟨a, a + 8⟩ s'

variable (box root r s p) in
/-- From page `n` on, the pages up to page `m` were mapped. -/
def MappedBefore (own : Owners) (s : TableMemory) (n m : ℕ) (s' : TableMemory) : Prop :=
  Mapped box root (Before r p) IsTablePointer r.call own s n m s'

variable (box root r s p) in
/-- A word behind the stray entry was stored to, or the call ends on page `p` without a store. -/
def StrayFault (s' : TableMemory) : Prop :=
  Strayed box root r s p s' ∨
    EndsAt box root r s p ∧ MappedBefore box root r p (placeOf s.mem root) s r.first p s'

variable (box root r s p) in
/-- From page `n` on, the pages up to page `m` were mapped, which is not behind page `p`; or a word
behind the stray entry was stored to. -/
def StrayRun (own' : Owners) (s' : TableMemory) (n m : ℕ) (s'' : TableMemory) : Prop :=
  m ≤ p ∧ MappedBefore box root r p own' s' n m s'' ∨
    r.call.first ≤ m ∧ Strayed box root r s p s''

variable (root s p) in
/-- When the table is one for page `p`, the descent to this page comes through it in front of the
stray entry. -/
def OnDescent (h t q : ℕ) : Prop :=
  p / 512 ^ (h + 1) = q → placeOf s.mem root t = some (h, q) ∧
    strayWords s.mem h t p = strayWords s.mem 3 root p ∧
    (Complete s.mem h t p ↔ Complete s.mem 3 root p)

variable (box root r s p) in
/-- A loop over the entries of a table of height `h` in a call that gets to a stray entry on page
`p`. -/
def StrayLoop (h : ℕ) (loop : ℕ → ℕ → Method TableMemory ℕ) : Prop :=
  ∀ own' s' t q n, Shape box root (Before r p) IsTablePointer own' s' →
    Begun box (Before r p) IsTablePointer r.call (placeOf s.mem root) s own' s' n →
    own' t = some (h, q) → n / 512 ^ (h + 1) = q → OnDescent root s p h t q →
    r.first ≤ n → n < r.limit → n ≤ p →
    Ends r.call (loop t (r.call.address n) s') (StrayRun box root r s p own' s' n)
      (fun _ => StrayFault box root r s p) (min (blockEnd 512 (h + 1) n) r.call.limit)

section Descent

variable (hmem : strayWords s.mem 3 root p ≠ []) {e : BitVec 64}
  (he : s.mem (t + 8 * digit 512 (h + 1) p) = e) (ht : OnDescent root s p (h + 1) t q)
  (hq : p / 512 ^ (h + 2) = q)

include hmem he ht hq

/-- The entry on the descent to the stray entry is in use. -/
theorem OnDescent.present : Present e := by
  subst he
  by_contra habsent
  have hwords := (ht hq).2.1
  rw [strayWords, if_pos habsent] at hwords
  exact hmem hwords.symm

/-- Behind a pointer to a table the descent goes on to the stray entry. -/
theorem OnDescent.child (hs : Shape box root (Before r p) IsTablePointer (placeOf s.mem root) s)
    (hpointer : IsTablePointer e) :
    OnDescent root s p h (frame e) (512 * q + digit 512 (h + 1) p) := by
  have hpresent := ht.present hmem he hq
  subst he
  obtain ⟨hplace, hwords, hcomplete⟩ := ht hq
  intro _
  refine ⟨hs.child hplace (Radix.digit_lt (by decide) _ p) hpresent hpointer.1, ?_, ?_⟩
  · rw [← hwords, strayWords, if_neg (not_not.2 hpresent), if_pos hpointer]
  · rw [← hcomplete, Complete, toNat_and_not_attrMask hpointer.2]
    exact ⟨fun h => ⟨hpresent, h⟩, fun h => h.2⟩

/-- Behind the stray entry the descent comes to the stray words. -/
theorem OnDescent.stray (hpointer : ¬IsTablePointer e) :
    descent s.mem h (e &&& ~~~attrMask).toNat p = strayWords s.mem 3 root p ∧
      (Complete s.mem h (e &&& ~~~attrMask).toNat p ↔ Complete s.mem 3 root p) := by
  have hpresent := ht.present hmem he hq
  subst he
  obtain ⟨-, hwords, hcomplete⟩ := ht hq
  rw [← hwords, ← hcomplete, strayWords, if_neg (not_not.2 hpresent), if_neg hpointer, Complete]
  exact ⟨rfl, fun h => ⟨hpresent, h⟩, fun h => h.2⟩

end Descent

variable (htree : IsTree s.mem root)
  (hs : Shape box root (Before r p) IsTablePointer (placeOf s.mem root) s)
  (hgets : GetsTo box root r s p)

include hs hgets

/-- At page `p` exactly the tables were added that the pages before it lack. -/
theorem boxes_eq (hs' : Shape box root (Before r p) IsTablePointer own' s')
    (hbegun : Begun box (Before r p) IsTablePointer r.call (placeOf s.mem root) s own' s' p) :
    s'.boxes - s.boxes = demand s.mem root r.first p := by
  have hlimit := r.limit_le
  have hlt := hgets.lt_limit
  have hmaps := hbegun.2
  rw [r.call_first] at hmaps
  exact Nat.le_antisymm
    (hs.boxes_le_demand hs' hgets.meets hmaps (fun n hn => hn.2) (by omega))
    (hs.demand_le_boxes hs' hgets.meets hmaps le_rfl (by omega))

include htree

/-- The words behind the stray entry are in no table, so that the call has not changed them. -/
theorem sameWords_stray (hout : ∀ a ∈ strayWords s.mem 3 root p, OutsideTables box root s a)
    (hs' : Shape box root (Before r p) IsTablePointer own' s')
    (hbegun : Begun box (Before r p) IsTablePointer r.call (placeOf s.mem root) s own' s' p)
    (hwords : descent s.mem h g p = strayWords s.mem 3 root p) : SameWords s.mem p g h s' := by
  have hboxes := boxes_eq hs hgets hs' hbegun
  have hmaps := hbegun.2
  have hsupply := hmaps.boxes_le_supply
  intro a ha
  rw [hwords] at ha
  have hmod := mod_of_mem_strayWords ha
  refine hmaps.outside fun t ht hin => hout a ha t ?_ ?_
  · cases hold : placeOf s.mem root t with
    | some place => exact .inl ⟨_, _, (placeOf_eq_some_iff htree).1 hold⟩
    | none =>
      obtain ⟨k, hlo, hhi, heq⟩ := hmaps.new hold ht
      exact .inr ⟨k, hlo, by omega, heq.symm⟩
  · obtain ⟨place, hplace⟩ := Option.ne_none_iff_exists'.1 ht
    have hpage := hs'.page hplace
    refine ⟨hin.1, ?_⟩
    show a + 8 ≤ t + 4096
    omega

/-- A loop behind the stray entry. -/
theorem loop_stray (hout : ∀ a ∈ strayWords s.mem 3 root p, OutsideTables box root s a)
    (hstores : LoopStores box s.boxes r.call s.mem p h loop)
    (hfaults : LoopFaults box r.call s.mem p h loop)
    (hs' : Shape box root (Before r p) IsTablePointer own' s')
    (hbegun : Begun box (Before r p) IsTablePointer r.call (placeOf s.mem root) s own' s' p)
    (hwords : descent s.mem h g p = strayWords s.mem 3 root p)
    (hcomplete : Complete s.mem h g p ↔ Complete s.mem 3 root p) :
    Ends r.call (loop g (r.call.address p) s')
      (fun m s'' => r.call.first ≤ m ∧ Strayed box root r s p s'')
      (fun _ => StrayFault box root r s p) (min (blockEnd 512 (h + 1) p) r.call.limit) := by
  have hboxes := boxes_eq hs hgets hs' hbegun
  have hmaps := hbegun.2
  have hsupply := hmaps.boxes_le_supply
  have hsame := sameWords_stray htree hs hgets hout hs' hbegun hwords
  by_cases hends : EndsAt box root r s p
  · have hrefused : Complete s.mem h g p → r.call.refusal p ≠ none := by
      intro hc hnone
      have hover := hends.overflows (hcomplete.1 hc)
      have hfit := refusal_call_eq_none_iff.1 hnone
      omega
    have hfull : ¬Complete s.mem h g p → box.supply ≤ s'.boxes := by
      intro hc
      have hle := hends.exhausted fun h => hc (hcomplete.2 h)
      have hle' := hmaps.boxes_le
      omega
    obtain ⟨e, he⟩ := hfaults g s' hsame hrefused hfull
    have hmapped := hbegun.mapped hs' (by rw [r.call_first]; exact hgets.first_le)
    rw [r.call_first] at hmapped
    exact .inr ⟨e, s', he, .inr ⟨hends, hmapped⟩⟩
  · have hset : Complete s.mem h g p → r.call.refusal p = none := by
      intro hc
      rw [refusal_call_eq_none_iff]
      by_contra hover
      exact hends ⟨fun _ => Nat.le_of_not_lt hover, fun h => absurd (hcomplete.1 hc) h⟩
    have hbox : ¬Complete s.mem h g p → s'.boxes < box.supply := by
      intro hc
      by_contra hfull
      refine hends ⟨fun h => absurd (hcomplete.2 h) hc, fun _ => ?_⟩
      omega
    have hstray : ∀ s'', Stored box s.boxes
        ⟨firstStore s.mem h g p, firstStore s.mem h g p + 8⟩ s'' →
        Strayed box root r s p s'' := fun s'' hstored =>
      ⟨hends, _, hwords ▸ firstStore_mem s.mem h g p, hstored⟩
    rcases hstores g s' hsame hsupply hset hbox with ⟨s'', hrun, hle, hstored⟩ |
      ⟨e, s'', hrun, hstored⟩
    · exact .inl ⟨s'', hrun, hle, hstray s'' hstored⟩
    · exact .inr ⟨e, s'', hrun, .inl (hstray s'' hstored)⟩

omit htree hs hgets in
/-- Code that does not undo stores goes on after the store to a stray word. -/
theorem Strayed.keeps {code : Method TableMemory ℕ} {m : ℕ} (h : Strayed box root r s p s')
    (hkeeps : ∀ {x}, Stored box s.boxes x s' → Stores box s.boxes r.call x code s' m)
    (own' : Owners) (s₀ : TableMemory) (n : ℕ) :
    Ends r.call (code s') (StrayRun box root r s p own' s₀ n)
      (fun _ => StrayFault box root r s p) m := by
  obtain ⟨hends, a, ha, hstored⟩ := h
  rcases hkeeps hstored with ⟨s'', hrun, hle, hstored⟩ | ⟨e, s'', hrun, hstored⟩
  · exact .inl ⟨s'', hrun, .inr ⟨hle, hends, a, ha, hstored⟩⟩
  · exact .inr ⟨e, s'', hrun, .inl ⟨hends, a, ha, hstored⟩⟩

variable (hmem : strayWords s.mem 3 root p ≠ [])

include hmem

omit htree hs in
/-- The innermost loop does not come to page `p`. -/
theorem pageLoop_strayLoop :
    StrayLoop box root r s p 0
      (pageLoop r.call.virtStart r.call.virtEnd r.call.phys r.call.attr) := by
  intro own' s' t q n hs' hbegun ht hq hpath hfirst hn hp
  rw [← r.call_limit] at hn
  refine indexLoop_rule (I := StrayRun box root r s p own' s' n) (by decide) ?_
    (.inl ⟨hp, .refl hs' n⟩) hn hq (Nat.le_add_right _ _)
  rintro n' s₁ (⟨hp', hle, hset, own₁, hs₁, hmaps⟩ | ⟨hfirst', hstrayed⟩) hn' hq'
  case inr => exact hstrayed.keeps (mapPage_keeps t hfirst' hn') own' s' n
  -- the descent to page `p` ends at the stray entry, which is above the page tables
  have hlt : n' < p := by
    refine lt_of_le_of_ne hp' ?_
    rintro rfl
    exact hmem (hpath hq').2.1.symm
  have hi := Radix.digit_lt (by decide : 0 < 512) 0 n'
  have hpre := Radix.div_pow_eq 512 0 n'
  rw [Nat.pow_zero, Nat.div_one, hq'] at hpre
  rw [Radix.blockEnd_zero, Nat.min_eq_left (by omega : n' + 1 ≤ r.call.limit)]
  have hrefusal : r.call.refusal n' = none :=
    refusal_call_eq_none_iff.2 (hgets.fits n' (hfirst.trans hle) hlt)
  obtain ⟨hs₂, hmaps'⟩ := setPage_spec hs₁ (hmaps.kept ht) hi (congrArg r.call.pte hpre).symm
  rw [← hpre] at hmaps'
  have hfirst' : r.call.first ≤ n' := by
    rw [r.call_first]
    exact hfirst.trans hle
  refine .inl ⟨_, mapPage_ok t _ s₁ hfirst' hn' hrefusal, .inl ⟨hlt, ?_⟩⟩
  refine .trans hle hset hmaps ⟨Nat.le_succ _, fun k hlo hhi => ?_, own₁, hs₂, hmaps'⟩
  obtain rfl : k = n' := by omega
  exact hrefusal

omit htree in
/-- In front of page `p` the call goes on in the table that an entry leads to. -/
theorem enterTable_front (hh : h + 1 ≤ 3) (hinner : StrayLoop box root r s p h inner)
    (hs' : Shape box root (Before r p) IsTablePointer own' s')
    (hbegun : Begun box (Before r p) IsTablePointer r.call (placeOf s.mem root) s own' s' n)
    (ht : own' t = some (h + 1, n / 512 ^ (h + 2)))
    (hpath : OnDescent root s p (h + 1) t (n / 512 ^ (h + 2))) (hfirst : r.first ≤ n)
    (hlt : n < p) :
    Ends r.call (enterTable box inner t (digit 512 (h + 1) n) (r.call.address n) s')
      (StrayRun box root r s p own' s' n) (fun _ => StrayFault box root r s p)
      (min (blockEnd 512 (h + 1) n) r.call.limit) := by
  have hlimit := r.limit_le
  have hlast := hgets.lt_limit
  have hi := Radix.digit_lt (by decide : 0 < 512) (h + 1) n
  have hpre := Radix.div_pow_eq 512 (h + 1) n
  have hmaps := hbegun.2
  rw [r.call_first] at hmaps
  have hrisk : Before r p n := ⟨hfirst, hlt⟩
  rcases enter_spec hs' ht hi hrisk hpre (fun _ h => h) (fun _ => isTablePointer_pointer)
    r.call.pte inner (r.call.address n) with ⟨own₂, s₂, c, hs₂, hmaps₂, hc, hrun⟩ |
      ⟨habsent, hbox, -⟩
  case inr =>
    -- `Box::new` has a page for every table that the pages in front of page `p` lack
    have hless := hs.boxes_lt_demand hs' hgets.meets hmaps (fun n hn => hn.2) (by omega) hfirst
      hlt (by omega : h < 3) (hs'.none_of_absent ht habsent le_rfl)
    have hsupplied := hgets.supplied
    omega
  have hchild : OnDescent root s p h c (512 * (n / 512 ^ (h + 2)) + digit 512 (h + 1) n) := by
    -- pages that share the entry also share the table behind it
    intro hp
    have hdigit : digit 512 (h + 1) p = digit 512 (h + 1) n := Radix.digit_of_div_eq hi hp
    have hprefix : p / 512 ^ (h + 2) = n / 512 ^ (h + 2) := Radix.div_succ_of_div_eq hi hp
    have hpresent := hpath.present hmem (congrArg (fun i => s.mem (t + 8 * i)) hdigit) hprefix
    have hkept := hbegun.2.upper_kept (hpath hprefix).1 hi hpresent
    have hpointer := hs'.upper ht hi hrisk hpre (hkept ▸ hpresent)
    rw [hkept] at hpointer
    have hnext := hpath.child hmem (congrArg (fun i => s.mem (t + 8 * i)) hdigit) hprefix hs
      hpointer
    rw [hdigit] at hnext
    have hplace := hmaps₂.kept (hbegun.2.kept (hnext hp).1)
    rw [hs₂.unique hc hplace]
    exact hnext hp
  rw [hrun]
  have hbegun₂ := hbegun.trans (fun k hlo hhi => by omega) hmaps₂ (by rwa [r.call_first]) le_rfl
  rcases hinner own₂ s₂ c _ n hs₂ hbegun₂ hc hpre hchild hfirst (by omega) hlt.le with
    ⟨s₃, hrun, ⟨hm, hmapped⟩ | hstrayed⟩ | hfault
  · exact .inl ⟨s₃, hrun, .inl ⟨hm, .trans le_rfl (fun k hlo hhi => by omega) hmaps₂ hmapped⟩⟩
  · exact .inl ⟨s₃, hrun, .inr hstrayed⟩
  · exact .inr hfault

/-- On page `p` the call goes on behind the entry, which is in use. -/
theorem enterTable_descent (hout : ∀ a ∈ strayWords s.mem 3 root p, OutsideTables box root s a)
    (hstores : LoopStores box s.boxes r.call s.mem p h inner)
    (hfaults : LoopFaults box r.call s.mem p h inner)
    (hinner : StrayLoop box root r s p h inner)
    (hs' : Shape box root (Before r p) IsTablePointer own' s')
    (hbegun : Begun box (Before r p) IsTablePointer r.call (placeOf s.mem root) s own' s' p)
    (hpath : OnDescent root s p (h + 1) t (p / 512 ^ (h + 2))) :
    Ends r.call (enterTable box inner t (digit 512 (h + 1) p) (r.call.address p) s')
      (StrayRun box root r s p own' s' p) (fun _ => StrayFault box root r s p)
      (min (blockEnd 512 (h + 1) p) r.call.limit) := by
  have hi := Radix.digit_lt (by decide : 0 < 512) (h + 1) p
  have hpresent := hpath.present hmem rfl rfl
  have hkept := hbegun.2.upper_kept (hpath rfl).1 hi hpresent
  rcases enterTable_cases box inner t (digit 512 (h + 1) p) (r.call.address p) s' with
    ⟨-, hrun⟩ | ⟨habsent, -⟩ | ⟨habsent, -⟩
  case inr.inl => exact absurd (hkept ▸ hpresent) habsent
  case inr.inr => exact absurd (hkept ▸ hpresent) habsent
  rw [hrun, hkept]
  by_cases hpointer : IsTablePointer (s.mem (t + 8 * digit 512 (h + 1) p))
  · have hnext := hpath.child hmem rfl rfl hs hpointer
    rw [← Radix.div_pow_eq] at hnext
    rw [toNat_and_not_attrMask hpointer.2]
    exact hinner own' s' _ _ p hs' hbegun (hbegun.2.kept (hnext rfl).1) rfl hnext hgets.first_le
      hgets.lt_limit le_rfl
  · obtain ⟨hwords, hcomplete⟩ := hpath.stray hmem rfl rfl hpointer
    rcases loop_stray htree hs hgets hout hstores hfaults hs' hbegun hwords hcomplete with
      ⟨s₂, hrun, hstrayed⟩ | hfault
    · exact .inl ⟨s₂, hrun, .inr hstrayed⟩
    · exact .inr hfault

/-- A loop around another one goes on to page `p`, and behind the stray entry. -/
theorem tableLoop_strayLoop (hh : h + 1 ≤ 3)
    (hout : ∀ a ∈ strayWords s.mem 3 root p, OutsideTables box root s a)
    (hkeeps : LoopKeeps box s.boxes r.call h inner)
    (hstores : LoopStores box s.boxes r.call s.mem p h inner)
    (hfaults : LoopFaults box r.call s.mem p h inner)
    (hinner : StrayLoop box root r s p h inner) :
    StrayLoop box root r s p (h + 1) (tableLoop box r.call.virtEnd (h + 2) inner) := by
  intro own' s' t q n hs' hbegun ht hq hpath hfirst hn hp
  rw [← r.call_limit] at hn
  refine indexLoop_rule (I := StrayRun box root r s p own' s' n) hh ?_
    (.inl ⟨hp, .refl hs' n⟩) hn hq (Nat.le_add_right _ _)
  rintro n' s₁ (⟨hp', hle, hset, own₁, hs₁, hmaps⟩ | ⟨hfirst', hstrayed⟩) hn' rfl
  case inr => exact hstrayed.keeps (enterTable_keeps hkeeps t hfirst' hn') own' s' n
  have hbegun' := hbegun.trans hset hmaps (by rwa [r.call_first]) hle
  have hstep : Ends r.call
      (enterTable box inner t (digit 512 (h + 1) n') (r.call.address n') s₁)
      (StrayRun box root r s p own₁ s₁ n') (fun _ => StrayFault box root r s p)
      (min (blockEnd 512 (h + 1) n') r.call.limit) := by
    rcases Nat.lt_or_eq_of_le hp' with hlt | rfl
    · exact enterTable_front hs hgets hmem hh hinner hs₁ hbegun' (hmaps.kept ht) hpath
        (hfirst.trans hle) hlt
    · exact enterTable_descent htree hs hgets hmem hout hstores hfaults hinner hs₁ hbegun' hpath
  -- what the step maps is mapped after the pages before it
  rcases hstep with ⟨s₂, hrun, ⟨hm, hmapped⟩ | hstrayed⟩ | hfault
  · exact .inl ⟨s₂, hrun, .inl ⟨hm, .trans hle hset hmaps hmapped⟩⟩
  · exact .inl ⟨s₂, hrun, .inr hstrayed⟩
  · exact .inr hfault

/-- A call that gets to a page with a stray entry stores to a word behind this entry, or it ends on
the page without a store for it. -/
theorem createMapping_strays
    (hout : ∀ a ∈ strayWords s.mem 3 root p, OutsideTables box root s a) :
    StrayFault box root r s p
      ((createMapping box r.virtStart r.virtEnd r.phys r.attr root).stateAfter s) := by
  have hfirst := hgets.first_le
  have hlast := hgets.lt_limit
  have hlimit := r.limit_le
  have hp : r.call.first ≤ p ∧ p < r.call.limit := by
    rw [r.call_first, r.call_limit]
    exact ⟨hfirst, hlast⟩
  have hkeeps₀ : LoopKeeps box s.boxes r.call 0 _ := pageLoop_keeps
  have hkeeps₁ := tableLoop_keeps (by decide) hkeeps₀
  have hkeeps₂ := tableLoop_keeps (by decide) hkeeps₁
  have hstores₀ : LoopStores box s.boxes r.call s.mem p 0 _ := pageLoop_stores hp.1 hp.2
  have hstores₁ := tableLoop_stores (by decide) hp.1 hp.2 hkeeps₀ hstores₀
  have hstores₂ := tableLoop_stores (by decide) hp.1 hp.2 hkeeps₁ hstores₁
  have hfaults₀ : LoopFaults box r.call s.mem p 0 _ := pageLoop_faults hp.1
  have hfaults₁ := tableLoop_faults (by decide) hfaults₀
  have hfaults₂ := tableLoop_faults (by decide) hfaults₁
  have hpages := pageLoop_strayLoop (s := s) hgets hmem
  have htables := tableLoop_strayLoop htree hs hgets hmem (by decide) hout hkeeps₀ hstores₀
    hfaults₀ hpages
  have hdirectories := tableLoop_strayLoop htree hs hgets hmem (by decide) hout hkeeps₁ hstores₁
    hfaults₁ htables
  have hloop := tableLoop_strayLoop htree hs hgets hmem (by decide) hout hkeeps₂ hstores₂
    hfaults₂ hdirectories
  -- the page numbers have 36 bits, so the root table is the one for all of them
  have htop : r.call.first / 512 ^ (3 + 1) = 0 := by
    rw [r.call_first]
    exact Nat.div_eq_of_lt (by omega)
  have hbegin := hloop _ s root 0 r.call.first hs
    (.refl box (Before r p) IsTablePointer r.call (placeOf s.mem root) s) hs.owns_root htop
    (fun _ => ⟨hs.owns_root, rfl, Iff.rfl⟩) (by rw [r.call_first]) (by rw [r.call_first]; omega)
    hp.1
  have hend : min (blockEnd 512 (3 + 1) r.call.first) r.call.limit = r.call.limit := by
    rw [blockEnd, htop, r.call_limit]
    omega
  rw [hend, r.call.address_first] at hbegin
  rcases hbegin with ⟨s', hrun, ⟨hm, -⟩ | ⟨-, hstrayed⟩⟩ | ⟨e, s', hrun, hfault⟩
  · omega
  · have hcall : createMapping box r.virtStart r.virtEnd r.phys r.attr root s = .ok () s' :=
      Method.bind_of_ok hrun
    rw [Method.stateAfter_of_ok hcall]
    exact .inl hstrayed
  · have hcall : createMapping box r.virtStart r.virtEnd r.phys r.attr root s = .error e s' :=
      Method.bind_of_error hrun
    rwa [Method.stateAfter_of_error hcall]

/-- A call that gets to a page with a stray entry is framed exactly when it ends on this page
without a store for it. -/
theorem framed_iff_endsAt (hlog : s.written = [])
    (hout : ∀ a ∈ strayWords s.mem 3 root p, OutsideTables box root s a) :
    Framed box root r s
        ((createMapping box r.virtStart r.virtEnd r.phys r.attr root).stateAfter s) ↔
      EndsAt box root r s p := by
  rcases createMapping_strays htree hs hgets hmem hout with ⟨hnot, a, ha, hstore, hboxes⟩ |
    ⟨hends, -, -, own', hs', hmaps⟩
  · refine iff_of_false (fun hframed => ?_) hnot
    rcases hframed.stores _ hstore with hold | ⟨t, htable, hwithin⟩
    · rw [hlog] at hold
      cases hold
    · refine hout a ha t ?_ hwithin
      rcases htable with hreach | ⟨k, hlo, hhi, heq⟩
      · exact .inl hreach
      · exact .inr ⟨k, hlo, by omega, heq⟩
  · exact iff_of_true (framed_of_maps htree hgets.lt_limit.le hs hs' hmaps) hends

end Stray

/-- Let the call get to a page when the walks of the pages before it meet pointers to tables only,
and the call does not end on one of them. It is framed if the walks of all pages it gets to meet
pointers to tables only. If it gets to a page whose walk meets a large page or attributes in the
high bits of a pointer, and no word behind this entry is part of a table, then it is framed exactly
when it ends on this page without a store. -/
theorem createMapping_framed {box : BoxSource} {root : ℕ} {r : MapRequest} (mem : ℕ → BitVec 64)
    (boxes : ℕ) (hroot : root % 4096 = 0 ∧ root + 4096 ≤ 2 ^ 52) (htree : IsTree mem root)
    (hfresh : ∀ k, boxes ≤ k → k < box.supply → ∀ h q, ¬Reaches mem root (box.addr k) h q) :
    let s : TableMemory := ⟨mem, boxes, []⟩
    let s' := (createMapping box r.virtStart r.virtEnd r.phys r.attr root).stateAfter s
    ((∀ n, GetsTo box root r s n → MeetsTables mem 3 root (4096 * n)) → Framed box root r s s') ∧
      ((∀ n, GetsTo box root r s n → ∀ a ∈ strayWords mem 3 root n, OutsideTables box root s a) →
        (Framed box root r s s' ↔ ∀ n, GetsTo box root r s n →
          MeetsTables mem 3 root (4096 * n) ∨ EndsAt box root r s n)) := by
  intro s s'
  have hframed := framed_of_meetsTables (s := s) (r := r) hroot htree hfresh
  refine ⟨hframed, fun hout => ?_⟩
  by_cases hmeets : ∀ n, GetsTo box root r s n → MeetsTables mem 3 root (4096 * n)
  · exact iff_of_true (hframed hmeets) fun n hgets => .inl (hmeets n hgets)
  · obtain ⟨p, hgets, hstray⟩ : ∃ p, GetsTo box root r s p ∧
        ¬MeetsTables mem 3 root (4096 * p) := by
      simpa using hmeets
    have hs : Shape box root (Before r p) IsTablePointer (placeOf mem root) s :=
      shape_of_tree hroot htree hfresh fun n hn => hgets.meets n hn.1 hn.2
    rw [framed_iff_endsAt htree hs hgets (mt meetsTables_iff.2 hstray) rfl (hout p hgets)]
    constructor
    -- the call gets to no other page whose walk meets something else
    · intro hends n hgets'
      by_cases hn : MeetsTables mem 3 root (4096 * n)
      · exact .inl hn
      rcases Nat.lt_trichotomy n p with hlt | rfl | hgt
      · exact absurd (hgets.meets n hgets'.first_le hlt) hn
      · exact .inr hends
      · exact absurd (hgets'.meets p hgets.first_le hgt) hstray
    · exact fun h => (h p hgets).resolve_left hstray

/-! ## A large page of the firmware -/

/-- The tables of a firmware that maps the two MiB from `0x200000` on to themselves. -/
def firmwareTables : ℕ → BitVec 64 := fun a =>
  if a = 0x1000 then 0x2003 else if a = 0x2000 then 0x3003 else if a = 0x3000 then 0x4003 else
    if a = 0x3008 then 0x200083 else 0

/-- A call of `create_mapping` for pages of a device. -/
def devicePages (n count phys : ℕ) (hcount : 0 < count) (hn : n + count ≤ 2 ^ 35) : MapRequest where
  virtStart := 4096 * n
  virtEnd := 4096 * (n + count)
  phys := 4096 * phys
  attr := .readWriteIo
  start_aligned := Nat.mul_mod_right _ _
  start_lt_end := by omega
  end_le := by omega
  phys_aligned := Nat.mul_mod_right _ _

theorem reaches_firmwareTables {t h q : ℕ} (hreach : Reaches firmwareTables 0x1000 t h q) :
    t = 0x1000 ∧ h = 3 ∧ q = 0 ∨ t = 0x2000 ∧ h = 2 ∧ q = 0 ∨ t = 0x3000 ∧ h = 1 ∧ q = 0 ∨
      t = 0x4000 ∧ h = 0 ∧ q = 0 := by
  -- three words are pointers, and the fourth one in use is the large page
  have hword : ∀ a, Present (firmwareTables a) → ¬Large (firmwareTables a) →
      a = 0x1000 ∧ frame (firmwareTables a) = 0x2000 ∨
        a = 0x2000 ∧ frame (firmwareTables a) = 0x3000 ∨
          a = 0x3000 ∧ frame (firmwareTables a) = 0x4000 := by
    intro a hp hl
    unfold firmwareTables at hp hl ⊢
    split_ifs at hp hl ⊢ with h₁ h₂ h₃ h₄
    · exact .inl ⟨h₁, by decide⟩
    · exact .inr (.inl ⟨h₂, by decide⟩)
    · exact .inr (.inr ⟨h₃, by decide⟩)
    · exact absurd (by decide) hl
    · exact absurd hp (by decide)
  induction hreach with
  | root => exact .inl ⟨rfl, rfl, rfl⟩
  | child _ _ present pointer ih =>
    rcases hword _ present pointer with ⟨haddr, hframe⟩ | ⟨haddr, hframe⟩ | ⟨haddr, hframe⟩
    · exact .inr (.inl ⟨hframe, by omega, by omega⟩)
    · exact .inr (.inr (.inl ⟨hframe, by omega, by omega⟩))
    · exact .inr (.inr (.inr ⟨hframe, by omega, by omega⟩))

/-- The firmware's tables are a tree, apart from the pages that `Box::new` returns. -/
theorem isTree_firmwareTables : IsTree firmwareTables 0x1000 := by
  intro t h q h' q' hreach hreach'
  have hcases := reaches_firmwareTables hreach
  have hcases' := reaches_firmwareTables hreach'
  omega

theorem fresh_firmwareTables : ∀ k, 1023 ≤ k → k < BoxSource.consecutive.supply → ∀ h q,
    ¬Reaches firmwareTables 0x1000 (BoxSource.consecutive.addr k) h q := by
  intro k hk _ h q hreach
  have hcases := reaches_firmwareTables hreach
  have haddr : BoxSource.consecutive.addr k = 4096 * (k + 1) := rfl
  omega

/-- The walk of the page in front of the large page meets pointers to tables only, and the descent
to the first page of the large page comes to its first word. -/
theorem strayWords_firmwareTables : strayWords firmwareTables 3 0x1000 511 = [] ∧
    strayWords firmwareTables 3 0x1000 512 = [0x200000] := by decide

/-- The first word of the large page is in no table. -/
theorem outsideTables_largePage :
    OutsideTables .consecutive 0x1000 ⟨firmwareTables, 1023, []⟩ 0x200000 := by
  rintro t htable ⟨hlo, hhi⟩
  rcases htable with ⟨h, q, hreach⟩ | ⟨k, hk, -, rfl⟩
  · have hcases := reaches_firmwareTables hreach
    simp only at hlo hhi
    omega
  · have haddr : BoxSource.consecutive.addr k = 4096 * (k + 1) := rfl
    have hk : 1023 ≤ k := hk
    simp only at hlo hhi
    omega

/-- The call for the last page in front of the large page and its first page. -/
def acrossLargePage (phys : ℕ) : MapRequest :=
  devicePages 511 2 phys (by decide) (by decide)

theorem first_acrossLargePage (phys : ℕ) : (acrossLargePage phys).first = 511 :=
  Nat.mul_div_cancel_left 511 (by decide)

theorem limit_acrossLargePage (phys : ℕ) : (acrossLargePage phys).limit = 513 := by
  show (4096 * 513 + 4095) / 4096 = 513
  norm_num

theorem getsTo_largePage {phys : ℕ} (hphys : 4096 * (phys + 511) < 2 ^ 64) :
    GetsTo .consecutive 0x1000 (acrossLargePage phys) ⟨firmwareTables, 1023, []⟩ 512 := by
  have hfirst := first_acrossLargePage phys
  have hlimit := limit_acrossLargePage phys
  have hdemand : demand firmwareTables 0x1000 511 512 = 0 := by decide
  refine ⟨by omega, by omega, fun k hlo hhi => ?_, fun k hlo hhi => ?_, ?_⟩
  · obtain rfl : k = 511 := by omega
    exact meetsTables_iff.2 strayWords_firmwareTables.1
  · show 4096 * phys + 4096 * k < 2 ^ 64
    omega
  · rw [hfirst, hdemand]
    exact Nat.zero_le _

/-- On the first page of the large page the call does not end without a store. -/
theorem not_endsAt_largePage {phys : ℕ} (hphys : 4096 * (phys + 512) < 2 ^ 64) :
    ¬EndsAt .consecutive 0x1000 (acrossLargePage phys) ⟨firmwareTables, 1023, []⟩ 512 := by
  intro hends
  have hover : 2 ^ 64 ≤ 4096 * phys + 4096 * 512 :=
    hends.overflows ⟨by decide, by decide, by decide, trivial⟩
  omega

theorem outsideTables_acrossLargePage {phys : ℕ} :
    ∀ n, GetsTo .consecutive 0x1000 (acrossLargePage phys) ⟨firmwareTables, 1023, []⟩ n →
      ∀ a ∈ strayWords firmwareTables 3 0x1000 n,
        OutsideTables .consecutive 0x1000 ⟨firmwareTables, 1023, []⟩ a := by
  intro n hgets a ha
  have hfirst := first_acrossLargePage phys
  have hlimit := limit_acrossLargePage phys
  have hlo := hgets.first_le
  have hhi := hgets.lt_limit
  obtain rfl | rfl : n = 511 ∨ n = 512 := by omega
  · rw [strayWords_firmwareTables.1] at ha
    cases ha
  · rw [strayWords_firmwareTables.2] at ha
    obtain rfl := List.mem_singleton.1 ha
    exact outsideTables_largePage

/-- Mapping the two pages to themselves stores to the large page. -/
theorem not_framed_largePage :
    IsTree firmwareTables 0x1000 ∧
      let r := acrossLargePage 511
      let s : TableMemory := ⟨firmwareTables, 1023, []⟩
      let call := createMapping BoxSource.consecutive r.virtStart r.virtEnd r.phys r.attr 0x1000
      ¬Framed .consecutive 0x1000 r s (call.stateAfter s) := by
  refine ⟨isTree_firmwareTables, ?_⟩
  have hgets : GetsTo .consecutive 0x1000 (acrossLargePage 511) ⟨firmwareTables, 1023, []⟩ 512 :=
    getsTo_largePage (by decide)
  have hs := shape_of_tree (by decide) isTree_firmwareTables fresh_firmwareTables
    fun n (hn : Before (acrossLargePage 511) 512 n) => hgets.meets n hn.1 hn.2
  have hwords := strayWords_firmwareTables.2
  refine mt (framed_iff_endsAt isTree_firmwareTables hs hgets ?_ rfl ?_).1
    (not_endsAt_largePage (by decide))
  · rw [hwords]
    simp
  · exact outsideTables_acrossLargePage 512 hgets

/-- The two pages mapped to themselves, and to the end of the physical address space, where the
first page overflows `phys + addr`. -/
theorem createMapping_framed_firmwareTables :
    (let r := acrossLargePage 511
     let s : TableMemory := ⟨firmwareTables, 1023, []⟩
     let call := createMapping BoxSource.consecutive r.virtStart r.virtEnd r.phys r.attr 0x1000
     ¬Framed .consecutive 0x1000 r s (call.stateAfter s)) ∧
    let r := acrossLargePage (2 ^ 52 - 1)
    let s : TableMemory := ⟨firmwareTables, 1023, []⟩
    let call := createMapping BoxSource.consecutive r.virtStart r.virtEnd r.phys r.attr 0x1000
    Framed .consecutive 0x1000 r s (call.stateAfter s) := by
  have hframed := fun r : MapRequest => @createMapping_framed .consecutive 0x1000 r
    firmwareTables 1023 (by decide) isTree_firmwareTables fresh_firmwareTables
  constructor
  · refine mt ((hframed _).2 outsideTables_acrossLargePage).1 fun hcond => ?_
    rcases hcond 512 (getsTo_largePage (by decide)) with hmeets | hends
    · rw [meetsTables_iff, strayWords_firmwareTables.2] at hmeets
      cases hmeets
    · exact not_endsAt_largePage (by decide) hends
  · refine (hframed _).1 fun n hgets => ?_
    have hfirst := first_acrossLargePage (2 ^ 52 - 1)
    have hlimit := limit_acrossLargePage (2 ^ 52 - 1)
    have hlo := hgets.first_le
    have hhi := hgets.lt_limit
    -- the call does not get to the second page
    obtain rfl | rfl : n = 511 ∨ n = 512 := by omega
    · exact meetsTables_iff.2 strayWords_firmwareTables.1
    · have hfits : 4096 * (2 ^ 52 - 1) + 4096 * 511 < 2 ^ 64 := hgets.fits 511 (by omega) (by omega)
      omega

end PML4

end Mushix
