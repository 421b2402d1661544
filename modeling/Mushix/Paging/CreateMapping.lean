import Mushix.Paging.Populate

/-!
# The loops of `create_mapping`

Four nested loops share the moving address `addr`. Each of them runs to the end of its table
or to the end of the range, whichever comes first, and hands `addr` on to the loop around it.

* `MapCall.refusal`: the pages whose entries are not set, and the fault that ends the call there;
* `indexLoop_rule`: the rule for the control flow that the loops share;
* `LoopSpec`: what a loop does to a tree of page tables;
* `createMapping_spec`: the pages of the range were mapped, up to the first one that was refused
  or for which there was no page left for a table.
-/

namespace Mushix

/-- The index is the digit of the page number. -/
theorem Table.calcIndex_eq (h addr : ℕ) :
    calcIndex (h + 1) addr = Radix.digit 512 h (addr / 4096) := by
  have hmask : 0b111111111 = 2 ^ 9 - 1 := rfl
  rw [calcIndex, indexShift, Nat.add_sub_cancel, Nat.shiftRight_eq_div_pow, hmask,
    Nat.and_two_pow_sub_one_eq_mod, Nat.add_comm, Nat.mul_comm h, div_two_pow, Radix.digit]

/-- The arguments of a call of `create_mapping` for addresses in one half of the address space,
aligned or not. -/
structure MapCall where
  virtStart : ℕ
  virtEnd : ℕ
  phys : ℕ
  attr : PageAttr
  start_lt_end : virtStart < virtEnd
  one_half : virtEnd ≤ 2 ^ 47 ∨ 2 ^ 64 - 2 ^ 47 ≤ virtStart ∧ virtEnd ≤ 2 ^ 64 - 4096

namespace MapCall

/-- The number of the first page, in the 36 bits that the tables translate. -/
def first (r : MapCall) : ℕ := r.virtStart / 4096 % 2 ^ 36

/-- The number of the first page behind the range. -/
def limit (r : MapCall) : ℕ := r.first + (r.virtEnd - r.virtStart + 4095) / 4096

/-- What the addresses of the loops have in common besides the number of a page: the offset in
the page, and the bits that sign-extend the address. -/
def shift (r : MapCall) : ℕ := r.virtStart - 4096 * r.first

/-- `addr` at a page. -/
def address (r : MapCall) (n : ℕ) : ℕ := 4096 * n + r.shift

/-- The physical address of a page. -/
def target (r : MapCall) (n : ℕ) : ℕ := r.phys + r.address n - r.virtStart

/-- The entry of a page. -/
def pte (r : MapCall) (n : ℕ) : BitVec 64 := BitVec.ofNat 64 (r.target n) ||| r.attr.toU64

/-- What keeps the innermost loop from setting the entry of a page, if anything does. -/
def refusal (r : MapCall) (n : ℕ) : Option Fault :=
  if 2 ^ 64 ≤ r.phys + r.address n then
    some (.panic "attempt to add with overflow")
  else if r.phys % 4096 ≠ 0 then
    some (.err "phys is not aligned")
  else
    none

variable {r : MapCall} {n : ℕ}

/-- The address of the first page is the start of the range. -/
theorem address_first (r : MapCall) : r.address r.first = r.virtStart := by
  rw [address, shift, first]
  omega

theorem first_lt_limit (r : MapCall) : r.first < r.limit := by
  have hlt := r.start_lt_end
  rw [limit]
  omega

/-- The range ends in the address space of the processor, and `addr` does not wrap around. -/
theorem limit_le (r : MapCall) : r.limit ≤ 2 ^ 36 ∧ r.address r.limit < 2 ^ 64 := by
  have hlt := r.start_lt_end
  rw [address, shift, limit, first]
  rcases r.one_half with hlow | ⟨hstart, hend⟩ <;> omega

/-- The test of the loops, in pages. -/
theorem end_le_iff : r.virtEnd ≤ r.address n ↔ r.limit ≤ n := by
  have hlt := r.start_lt_end
  rw [address, shift, limit, first]
  omega

/-- The index of a page at height `h`. -/
theorem calcIndex_address (r : MapCall) {h : ℕ} (hh : h ≤ 3) (n : ℕ) :
    Table.calcIndex (h + 1) (r.address n) = Radix.digit 512 h n := by
  -- the bits that sign-extend the address are above all indices
  obtain ⟨k, hk⟩ : ∃ k, r.address n / 4096 = n + 512 ^ 4 * k := by
    refine ⟨r.shift / 2 ^ 48, ?_⟩
    rw [address, shift, first]
    omega
  have hpow : 512 ^ 4 * k = 512 ^ h * (512 * (512 ^ (3 - h) * k)) := by
    rw [← Nat.mul_assoc, ← Nat.mul_assoc, ← Nat.pow_succ, ← Nat.pow_add]
    congr 2
    omega
  rw [Table.calcIndex_eq, hk, hpow, Radix.digit, Nat.add_mul_div_left _ _ (by positivity),
    Nat.add_mul_mod_self_left, Radix.digit]

theorem refusal_eq_none_iff :
    r.refusal n = none ↔ r.phys + r.address n < 2 ^ 64 ∧ r.phys % 4096 = 0 := by
  rw [refusal]
  split
  case isTrue hover => exact iff_of_false (by simp) fun h => absurd h.1 (Nat.not_lt.2 hover)
  case isFalse hfit =>
    have hfit := Nat.lt_of_not_le hfit
    split
    case isTrue hphys => exact iff_of_false (by simp) fun h => hphys h.2
    case isFalse hphys => exact iff_of_true rfl ⟨hfit, not_not.1 hphys⟩

/-- The physical addresses follow each other like the pages. -/
theorem target_eq (hfirst : r.first ≤ n) : r.target n = r.phys + 4096 * (n - r.first) := by
  have hstart := r.address_first
  rw [address] at hstart
  rw [target, address]
  omega

/-- The physical addresses are aligned if the first one is. -/
theorem target_mod (hfirst : r.first ≤ n) : r.target n % 4096 = r.phys % 4096 := by
  rw [target_eq hfirst, Nat.add_mul_mod_self_left]

end MapCall

/-- The arguments of a call of `create_mapping` with page-aligned addresses. -/
structure MapRequest where
  virtStart : ℕ
  virtEnd : ℕ
  phys : ℕ
  attr : PageAttr
  start_aligned : virtStart % 4096 = 0
  start_lt_end : virtStart < virtEnd
  end_le : virtEnd ≤ 2 ^ 47
  phys_aligned : phys % 4096 = 0

namespace MapRequest

/-- The number of the first page. -/
def first (r : MapRequest) : ℕ := r.virtStart / 4096

/-- The number of the first page behind the range. -/
def limit (r : MapRequest) : ℕ := (r.virtEnd + 4095) / 4096

/-- The call as one in the lower half. -/
def call (r : MapRequest) : MapCall where
  virtStart := r.virtStart
  virtEnd := r.virtEnd
  phys := r.phys
  attr := r.attr
  start_lt_end := r.start_lt_end
  one_half := .inl r.end_le

variable {r : MapRequest} {n : ℕ}

theorem mul_first (r : MapRequest) : 4096 * r.first = r.virtStart := by
  have h := r.start_aligned
  rw [first]
  omega

theorem first_lt_limit (r : MapRequest) : r.first < r.limit := by
  have h := r.start_lt_end
  rw [first, limit]
  omega

theorem limit_le (r : MapRequest) : r.limit ≤ 2 ^ 35 := by
  have h := r.end_le
  rw [limit]
  omega

@[simp]
theorem call_first (r : MapRequest) : r.call.first = r.first := by
  have hend := r.end_le
  have hlt := r.start_lt_end
  show r.virtStart / 4096 % 2 ^ 36 = r.virtStart / 4096
  omega

@[simp]
theorem call_limit (r : MapRequest) : r.call.limit = r.limit := by
  have hlt := r.start_lt_end
  have hstart := r.mul_first
  rw [MapCall.limit, call_first, limit]
  show r.first + (r.virtEnd - r.virtStart + 4095) / 4096 = _
  omega

@[simp]
theorem call_address (r : MapRequest) (n : ℕ) : r.call.address n = 4096 * n := by
  have hstart := r.mul_first
  rw [MapCall.address, MapCall.shift, call_first]
  show 4096 * n + (r.virtStart - 4096 * r.first) = _
  omega

end MapRequest

namespace PML4

open Radix (digit blockEnd)

/-- A loop returns the address of page `m` in a state with `I m`, or it faults in a state with
`E`. -/
def Ends (r : MapCall) (x : EStateM.Result Fault TableMemory ℕ) (I : ℕ → TableMemory → Prop)
    (E : Fault → TableMemory → Prop) (m : ℕ) : Prop :=
  (∃ s', x = .ok (r.address m) s' ∧ I m s') ∨ ∃ e s', x = .error e s' ∧ E e s'

section Rule

variable {r : MapCall} {h q : ℕ} {body : ℕ → ℕ → Method TableMemory ℕ}
  {I : ℕ → TableMemory → Prop} {E : Fault → TableMemory → Prop}

/-- The loop over the indices of a table runs to the end of the table or of the range, when its
body runs to the end of the entry or of the range. -/
theorem indexLoop_rule (hh : h ≤ 3)
    (hbody : ∀ {n s}, I n s → n < r.limit → n / 512 ^ (h + 1) = q →
      Ends r (body (digit 512 h n) (r.address n) s) I E (min (blockEnd 512 h n) r.limit))
    {fuel n : ℕ} {s : TableMemory} (hI : I n s) (hn : n < r.limit) (hq : n / 512 ^ (h + 1) = q)
    (hfuel : 512 ≤ fuel + digit 512 h n) :
    Ends r (indexLoop r.virtEnd (h + 1) body fuel (r.address n) s) I E
      (min (blockEnd 512 (h + 1) n) r.limit) := by
  induction fuel generalizing n s with
  | zero =>
    have hdigit := Radix.digit_lt (by decide : 0 < 512) h n
    omega
  | succ fuel ih =>
    rw [indexLoop, r.calcIndex_address hh]
    rcases hbody hI hn hq with ⟨s', hrun, hI'⟩ | ⟨e, s', hrun, hE⟩
    · rw [Method.bind_of_ok hrun]
      -- the two tests by which a loop ends, the last index and the end of the range, in pages
      have htest : 1 <<< 9 ≤ digit 512 h n + 1 ∨
          r.virtEnd ≤ r.address (min (blockEnd 512 h n) r.limit) ↔
          512 ≤ digit 512 h n + 1 ∨ r.limit ≤ min (blockEnd 512 h n) r.limit :=
        or_congr Iff.rfl MapCall.end_le_iff
      have hdigit := Radix.digit_lt (by decide : 0 < 512) h n
      have hle := Radix.blockEnd_le_succ (by decide : 0 < 512) h n
      split
      case isTrue hstop =>
        rw [htest] at hstop
        have hend : min (blockEnd 512 h n) r.limit = min (blockEnd 512 (h + 1) n) r.limit := by
          rcases hstop with hlast | hlimit
          · rw [Radix.blockEnd_of_last (by omega)]
          · omega
        rw [hend] at hI' ⊢
        exact .inl ⟨s', rfl, hI'⟩
      case isFalse hgo =>
        rw [htest, not_or] at hgo
        obtain ⟨hnot, hlimit⟩ := hgo
        have hend : min (blockEnd 512 h n) r.limit = blockEnd 512 h n := by omega
        obtain ⟨hpre, hnext⟩ := Radix.blockEnd_of_not_last (by omega : digit 512 h n + 1 < 512)
        rw [hend] at hI' hlimit ⊢
        rw [← Radix.blockEnd_congr hpre]
        exact ih hI' (by omega) (hpre.trans hq) (by omega)
    · exact .inr ⟨e, s', Method.bind_of_error hrun, hE⟩

end Rule

/-! ## Ranges that end in their first page -/

section OnePage

variable {σ ρ : Type} [WordMemory σ] [TableSource ρ σ] {box : ρ}
  {virtStart virtEnd virtEnd' phys addr fuel level t : ℕ} {attr : PageAttr}
  {body inner inner' : ℕ → ℕ → Method σ ℕ}

omit [WordMemory σ] in
/-- Where the body passes the end of the range, the loop has one round. -/
theorem indexLoop_once
    (hbody : ∀ s a s', body (Table.calcIndex level addr) addr s = .ok a s' → virtEnd ≤ a) :
    indexLoop virtEnd level body (fuel + 1) addr = body (Table.calcIndex level addr) addr := by
  funext s
  rw [indexLoop]
  cases hrun : body (Table.calcIndex level addr) addr s with
  | ok a s' =>
    rw [Method.bind_of_ok hrun, if_pos (.inr (hbody s a s' hrun))]
    rfl
  | error e s' => rw [Method.bind_of_error hrun]

/-- The innermost loop goes on with the next page. -/
theorem mapPage_returns {i a : ℕ} {s s' : σ}
    (hrun : mapPage virtStart phys attr t i addr s = .ok a s') :
    a = (addr + pageSize) % 2 ^ 64 := by
  rw [mapPage, Method.bind_eq_ok] at hrun
  obtain ⟨_, _, -, hrun⟩ := hrun
  obtain ⟨_, _, -, hrun⟩ := Method.bind_eq_ok.1 hrun
  obtain ⟨_, _, -, hrun⟩ := Method.bind_eq_ok.1 hrun
  exact (EStateM.Result.ok.inj hrun).1.symm

/-- A return from an entry is one from its inner table. -/
theorem enterTable_returns {i a : ℕ} {s s' : σ}
    (hrun : enterTable box inner t i addr s = .ok a s') :
    ∃ t' s₁, inner t' addr s₁ = .ok a s' := by
  rw [enterTable, Method.bind_eq_ok] at hrun
  obtain ⟨_, _, -, hrun⟩ := hrun
  obtain ⟨t', s₁, -, hrun⟩ := Method.bind_eq_ok.1 hrun
  exact ⟨t', s₁, hrun⟩

/-- An entry is entered alike where its inner tables are. -/
theorem enterTable_congr {i : ℕ} (hinner : ∀ t, inner t addr = inner' t addr) :
    enterTable box inner t i addr = enterTable box inner' t i addr := by
  simp only [enterTable, hinner]

/-- A loop around one that returns the next page has one round if the range ends there. -/
theorem tableLoop_one (box : ρ) (level t : ℕ) {next : ℕ} (hend : virtEnd ≤ next)
    (hnext : ∀ t s a s', inner t addr s = .ok a s' → a = next) :
    tableLoop box virtEnd level inner t addr =
      enterTable box inner t (Table.calcIndex level addr) addr := by
  refine indexLoop_once fun s a s' hrun => ?_
  obtain ⟨t', s₁, hrun⟩ := enterTable_returns hrun
  rw [hnext t' s₁ a s' hrun]
  exact hend

/-- Such a loop returns the next page itself. -/
theorem tableLoop_next (box : ρ) (level : ℕ) {next : ℕ} (hend : virtEnd ≤ next)
    (hnext : ∀ t s a s', inner t addr s = .ok a s' → a = next) :
    ∀ t s a s', tableLoop box virtEnd level inner t addr s = .ok a s' → a = next := by
  intro t s a s' hrun
  rw [tableLoop_one box level t hend hnext] at hrun
  obtain ⟨t', s₁, hrun⟩ := enterTable_returns hrun
  exact hnext t' s₁ a s' hrun

section FirstPage

variable (hlt : virtStart + 4096 < 2 ^ 64) (hend : virtEnd ≤ virtStart + 4096)

include hlt hend

/-- In a range that ends in its first page the innermost loop has one round. -/
theorem pageLoop_one (phys : ℕ) (attr : PageAttr) (t : ℕ) :
    (pageLoop virtStart virtEnd phys attr t virtStart : Method σ ℕ) =
      mapPage virtStart phys attr t (Table.calcIndex 1 virtStart) virtStart :=
  indexLoop_once fun _ _ _ hrun => by
    rw [mapPage_returns hrun, show (virtStart + pageSize) % 2 ^ 64 = virtStart + 4096 from
      Nat.mod_eq_of_lt hlt]
    exact hend

/-- It returns the next page. -/
theorem pageLoop_next (phys : ℕ) (attr : PageAttr) (t : ℕ) (s : σ) (a : ℕ) (s' : σ)
    (hrun : pageLoop virtStart virtEnd phys attr t virtStart s = .ok a s') :
    a = virtStart + 4096 := by
  rw [pageLoop_one hlt hend] at hrun
  exact (mapPage_returns hrun).trans (Nat.mod_eq_of_lt hlt)

end FirstPage

/-- Two loops around others that pass the ends of their ranges in the first round. -/
theorem tableLoop_once (box : ρ) (level : ℕ) {next : ℕ} (hend : virtEnd ≤ next)
    (hend' : virtEnd' ≤ next) (hinner : ∀ t, inner t addr = inner' t addr)
    (hnext : ∀ t s a s', inner t addr s = .ok a s' → a = next) (t : ℕ) :
    tableLoop box virtEnd level inner t addr = tableLoop box virtEnd' level inner' t addr := by
  have hnext' : ∀ t s a s', inner' t addr s = .ok a s' → a = next := fun t s a s' hrun =>
    hnext t s a s' (hinner t ▸ hrun)
  rw [tableLoop_one box level t hend hnext, tableLoop_one box level t hend' hnext',
    enterTable_congr hinner]

/-- A range that ends in its first page or before is mapped like any other such range. -/
theorem createMapping_firstPage (box : ρ) (phys root : ℕ) (attr : PageAttr)
    (hlt : virtStart + 4096 < 2 ^ 64) (hend : virtEnd ≤ virtStart + 4096)
    (hend' : virtEnd' ≤ virtStart + 4096) :
    createMapping box virtStart virtEnd phys attr root =
      createMapping box virtStart virtEnd' phys attr root := by
  have hpages : ∀ t, (pageLoop virtStart virtEnd phys attr t virtStart : Method σ ℕ) =
      pageLoop virtStart virtEnd' phys attr t virtStart := fun t => by
    rw [pageLoop_one hlt hend, pageLoop_one hlt hend']
  have hnext := pageLoop_next (σ := σ) hlt hend phys attr
  have hnext₂ := tableLoop_next box 2 hend hnext
  have htables := tableLoop_once box 2 hend hend' hpages hnext
  have hdirectories := tableLoop_once box 3 hend hend' htables hnext₂
  have hroot := tableLoop_once box 4 hend hend' hdirectories (tableLoop_next box 3 hend hnext₂)
  rw [createMapping, createMapping, hroot]

end OnePage

section MapPage

variable {r : MapCall} {n : ℕ} (t i : ℕ) (s : TableMemory)

/-- The body of the innermost loop sets one entry. -/
theorem mapPage_ok (hfirst : r.first ≤ n) (hn : n < r.limit) (h : r.refusal n = none) :
    mapPage r.virtStart r.phys r.attr t i (r.address n) s =
      .ok (r.address (n + 1)) (Entry.pageSet (t + 8 * i) (r.pte n) s) := by
  obtain ⟨hfit, hphys⟩ := MapCall.refusal_eq_none_iff.1 h
  have hstart := r.address_first
  have hlast := r.limit_le.2
  rw [MapCall.address] at hstart hlast
  have hle : r.virtStart ≤ r.phys + r.address n := by
    rw [MapCall.address]
    omega
  have hnext : (r.address n + pageSize) % 2 ^ 64 = r.address (n + 1) := by
    rw [MapCall.address, MapCall.address, pageSize]
    omega
  have haligned : r.target n % 4096 = 0 := (MapCall.target_mod hfirst).trans hphys
  rw [mapPage, Usize.add_bind hfit, Usize.sub_bind hle, Table.entry]
  refine (Method.bind_of_ok (Entry.run_setPage haligned ((Nat.sub_le _ _).trans_lt hfit)
    r.attr)).trans ?_
  rw [hnext]
  rfl

/-- The body of the innermost loop does not set the entry of a page that is refused. -/
theorem mapPage_refused (hfirst : r.first ≤ n) {e : Fault} (h : r.refusal n = some e) :
    mapPage r.virtStart r.phys r.attr t i (r.address n) s = .error e s := by
  rw [MapCall.refusal] at h
  split at h
  case isTrue hover =>
    cases h
    rw [mapPage, Usize.add, if_neg (Nat.not_lt.2 hover)]
    rfl
  case isFalse hfit =>
    have hfit := Nat.lt_of_not_le hfit
    split at h
    case isFalse => cases h
    case isTrue hphys =>
      cases h
      have hstart := r.address_first
      have hle : r.virtStart ≤ r.phys + r.address n := by
        rw [MapCall.address] at hstart ⊢
        omega
      have hunaligned : r.target n % 4096 ≠ 0 := by rwa [MapCall.target_mod hfirst]
      rw [mapPage, Usize.add_bind hfit, Usize.sub_bind hle, Table.entry]
      exact Method.bind_of_error (Entry.run_setPage_unaligned hunaligned
        ((Nat.sub_le _ _).trans_lt hfit) r.attr)

end MapPage

section Loops

variable {box : BoxSource} {root : ℕ} {AtRisk : ℕ → Prop} {Upper : BitVec 64 → Prop}
  {r : MapCall} {own : Owners} {s : TableMemory}

variable (box root AtRisk Upper r) in
/-- From page `n` on, the pages up to `m` were mapped, and none of them was refused. -/
def Mapped (own : Owners) (s : TableMemory) (n m : ℕ) (s' : TableMemory) : Prop :=
  n ≤ m ∧ (∀ k, n ≤ k → k < m → r.refusal k = none) ∧
    ∃ own', Shape box root AtRisk Upper own' s' ∧ Maps box AtRisk Upper r.pte own own' s s' n m

variable (box root AtRisk Upper r) in
/-- From page `n` on, the pages up to one were mapped that was refused, or for which there was no
page left for a table. -/
def Stopped (own : Owners) (s : TableMemory) (n : ℕ) (e : Fault) (s' : TableMemory) : Prop :=
  ∃ m < r.limit, Mapped box root AtRisk Upper r own s n m s' ∧
    (r.refusal m = some e ∨ e = outOfMemory ∧ box.supply ≤ s'.boxes)

variable (box AtRisk Upper r own s) in
/-- Since the call began, the pages in front of page `n` were mapped, and none of them was
refused. -/
def Begun (own' : Owners) (s' : TableMemory) (n : ℕ) : Prop :=
  (∀ k, r.first ≤ k → k < n → r.refusal k = none) ∧
    Maps box AtRisk Upper r.pte own own' s s' r.first n

variable (box root AtRisk Upper r own s) in
/-- In a call that began in the state `s`, a loop over the entries of a table of height `h` maps
pages up to the end of the table or of the range. -/
def LoopSpec (h : ℕ) (loop : ℕ → ℕ → Method TableMemory ℕ) : Prop :=
  ∀ own' s' t q n, Shape box root AtRisk Upper own' s' → Begun box AtRisk Upper r own s own' s' n →
    own' t = some (h, q) → n / 512 ^ (h + 1) = q → r.first ≤ n → n < r.limit →
    Ends r (loop t (r.address n) s') (Mapped box root AtRisk Upper r own' s' n)
      (Stopped box root AtRisk Upper r own' s' n) (min (blockEnd 512 (h + 1) n) r.limit)

/-- Nothing is mapped before the first page. -/
theorem Begun.refl (box : BoxSource) (AtRisk : ℕ → Prop) (Upper : BitVec 64 → Prop)
    (r : MapCall) (own : Owners) (s : TableMemory) : Begun box AtRisk Upper r own s own s r.first :=
  ⟨fun k hlo hhi => by omega, .refl box AtRisk Upper r.pte own s r.first⟩

/-- A part of a call goes on where the one before it stopped. -/
theorem Begun.trans {own' own'' : Owners} {s' s'' : TableMemory} {n m : ℕ}
    (h : Begun box AtRisk Upper r own s own' s' n) (hset : ∀ k, n ≤ k → k < m → r.refusal k = none)
    (hmaps : Maps box AtRisk Upper r.pte own' own'' s' s'' n m) (hfirst : r.first ≤ n)
    (hle : n ≤ m) :
    Begun box AtRisk Upper r own s own'' s'' m := by
  refine ⟨fun k hlo hhi => ?_, h.2.trans hmaps hfirst hle⟩
  by_cases hk : k < n
  · exact h.1 k hlo hk
  · exact hset k (Nat.le_of_not_lt hk) hhi

/-- A call that went through all its pages has mapped its range. -/
theorem Begun.mapped {own' : Owners} {s' : TableMemory} {n : ℕ}
    (h : Begun box AtRisk Upper r own s own' s' n) (hs : Shape box root AtRisk Upper own' s')
    (hfirst : r.first ≤ n) : Mapped box root AtRisk Upper r own s r.first n s' :=
  ⟨hfirst, h.1, own', hs, h.2⟩

/-- No page was mapped yet. -/
theorem Mapped.refl (hs : Shape box root AtRisk Upper own s) (n : ℕ) :
    Mapped box root AtRisk Upper r own s n n s :=
  ⟨le_rfl, fun k hlo hhi => by omega, own, hs, .refl box AtRisk Upper r.pte own s n⟩

/-- Pages that were mapped one after the other. -/
theorem Mapped.trans {own' : Owners} {s' s'' : TableMemory} {n m l : ℕ} (hle : n ≤ m)
    (hset : ∀ k, n ≤ k → k < m → r.refusal k = none)
    (hmaps : Maps box AtRisk Upper r.pte own own' s s' n m)
    (h : Mapped box root AtRisk Upper r own' s' m l s'') :
    Mapped box root AtRisk Upper r own s n l s'' := by
  obtain ⟨hle', hset', own'', hs'', hmaps'⟩ := h
  refine ⟨hle.trans hle', fun k hlo hhi => ?_, own'', hs'', hmaps.trans hmaps' hle hle'⟩
  by_cases hk : k < m
  · exact hset k hlo hk
  · exact hset' k (Nat.le_of_not_lt hk) hhi

/-- The innermost loop. -/
theorem pageLoop_spec :
    LoopSpec box root AtRisk Upper r own s 0 (pageLoop r.virtStart r.virtEnd r.phys r.attr) := by
  intro own s t q n hs _ ht hq hfirst hn
  refine indexLoop_rule (I := Mapped box root AtRisk Upper r own s n) (by decide) ?_
    (.refl hs n) hn hq (Nat.le_add_right _ _)
  rintro n' s' ⟨hle, hset, own', hs', hmaps⟩ hn' hq'
  have hi := Radix.digit_lt (by decide : 0 < 512) 0 n'
  have hpre := Radix.div_pow_eq 512 0 n'
  rw [Nat.pow_zero, Nat.div_one, hq'] at hpre
  rw [Radix.blockEnd_zero, Nat.min_eq_left (by omega : n' + 1 ≤ r.limit)]
  cases hrefusal : r.refusal n' with
  | none =>
    obtain ⟨hs'', hmaps'⟩ := setPage_spec hs' (hmaps.kept ht) hi (congrArg r.pte hpre).symm
    rw [← hpre] at hmaps'
    refine .inl ⟨_, mapPage_ok t _ s' (hfirst.trans hle) hn' hrefusal, ?_⟩
    refine .trans hle hset hmaps ⟨Nat.le_succ _, fun k hlo hhi => ?_, own', hs'', hmaps'⟩
    obtain rfl : k = n' := by omega
    exact hrefusal
  | some e =>
    exact .inr ⟨e, s', mapPage_refused t _ s' (hfirst.trans hle) hrefusal, n', hn',
      ⟨hle, hset, own', hs', hmaps⟩, .inl hrefusal⟩

/-- A loop around another one. -/
theorem tableLoop_spec {h : ℕ} {inner : ℕ → ℕ → Method TableMemory ℕ} (hh : h + 1 ≤ 3)
    (hrisk : ∀ n s', n < r.limit → Mapped box root AtRisk Upper r own s r.first n s' → AtRisk n)
    (hupper : ∀ e, Upper e → IsTablePointer e) (hpointer : ∀ k < box.supply, Upper (pointer box k))
    (hinner : LoopSpec box root AtRisk Upper r own s h inner) :
    LoopSpec box root AtRisk Upper r own s (h + 1) (tableLoop box r.virtEnd (h + 2) inner) := by
  intro own s t q n hs hbegun ht hq hfirst hn
  refine indexLoop_rule (I := Mapped box root AtRisk Upper r own s n) hh ?_
    (.refl hs n) hn hq (Nat.le_add_right _ _)
  rintro n' s' ⟨hle, hset, own', hs', hmaps⟩ hn' hq'
  have hi := Radix.digit_lt (by decide : 0 < 512) (h + 1) n'
  have hpre := Radix.div_pow_eq 512 (h + 1) n'
  rw [hq'] at hpre
  have hfirst' := hfirst.trans hle
  -- page `n'` is at risk in the state in which the loop gets to it
  have hbegun' := hbegun.trans hset hmaps hfirst hle
  have hn'' := hrisk n' s' hn' (hbegun'.mapped hs' hfirst')
  rcases enter_spec hs' (hmaps.kept ht) hi hn'' hpre hupper hpointer r.pte
    inner (r.address n') with ⟨own₁, s₁, c, hs₁, hmaps₁, hc, henter⟩ | ⟨-, hbox, hrun⟩
  case inr =>
    exact .inr ⟨_, s', hrun, n', hn', ⟨hle, hset, own', hs', hmaps⟩, .inr ⟨rfl, hbox⟩⟩
  have htrans := hmaps.trans hmaps₁ hle le_rfl
  rw [henter]
  -- the loop inside maps on from what is mapped so far, however it ends
  have hbegun₁ := hbegun'.trans (fun k hlo hhi => by omega) hmaps₁ hfirst' le_rfl
  rcases hinner own₁ s₁ c _ n' hs₁ hbegun₁ hc hpre hfirst' hn' with ⟨s₂, hrun, hmapped⟩ |
    ⟨e, s₂, hrun, m, hm, hmapped, hstop⟩
  · exact .inl ⟨s₂, hrun, .trans hle hset htrans hmapped⟩
  · exact .inr ⟨e, s₂, hrun, m, hm, .trans hle hset htrans hmapped, hstop⟩

/-- `create_mapping` on a tree of page tables maps the pages of the range, unless one of them is
refused or there is no page left for a table. -/
theorem createMapping_spec (hs : Shape box root AtRisk Upper own s)
    (hrisk : ∀ n s', n < r.limit → Mapped box root AtRisk Upper r own s r.first n s' → AtRisk n)
    (hupper : ∀ e, Upper e → IsTablePointer e)
    (hpointer : ∀ k < box.supply, Upper (pointer box k)) :
    (∃ s', createMapping box r.virtStart r.virtEnd r.phys r.attr root s = .ok () s' ∧
      Mapped box root AtRisk Upper r own s r.first r.limit s') ∨
    ∃ e s', createMapping box r.virtStart r.virtEnd r.phys r.attr root s = .error e s' ∧
      Stopped box root AtRisk Upper r own s r.first e s' := by
  have hpages : LoopSpec box root AtRisk Upper r own s 0 _ := pageLoop_spec
  have htables := tableLoop_spec (by decide) hrisk hupper hpointer hpages
  have hdirectories := tableLoop_spec (by decide) hrisk hupper hpointer htables
  have hloop := tableLoop_spec (by decide) hrisk hupper hpointer hdirectories
  have hlt := r.first_lt_limit
  have hle := r.limit_le.1
  -- the page numbers have 36 bits, so the root table reaches to the end of the range
  have htop : r.first / 512 ^ (3 + 1) = 0 := Nat.div_eq_of_lt (by omega)
  have hend : min (blockEnd 512 (3 + 1) r.first) r.limit = r.limit := by
    rw [blockEnd, htop]
    omega
  have hrun := hloop own s root 0 r.first hs (.refl box AtRisk Upper r own s) hs.owns_root htop
    le_rfl hlt
  rw [hend, r.address_first] at hrun
  rcases hrun with ⟨s', hrun, hmapped⟩ | ⟨e, s', hrun, hstop⟩
  · exact .inl ⟨s', Method.bind_of_ok hrun, hmapped⟩
  · exact .inr ⟨e, s', Method.bind_of_error hrun, hstop⟩

end Loops

end PML4

end Mushix
