import Mushix.Safe

/-!
# Iterators

An iterator is its method `next`. `collect` calls it until it returns `None`, `find` until it
returns an item with a property; the number of calls is bounded, so that they can be run, and one
that needs more calls has not ended. `Yields` says which items an iterator has left.
-/

namespace Mushix.Iter

variable {σ ι : Type}

/-- `collect()` with at most `calls` calls of `next`: the items, or `none` when `next` has not
returned `None` by then. -/
def collect (next : Method σ (Option ι)) : ℕ → Method σ (Option (List ι))
  | 0 => return none
  | calls + 1 => do
    match ← next with
    | none => return some []
    | some item => return (← collect next calls).map (item :: ·)

/-- `find(p)` with at most `calls` calls of `next`: the first item with the property if there is
one, or `none` when the search has not ended by then. -/
def find (next : Method σ (Option ι)) (p : ι → Bool) : ℕ → Method σ (Option (Option ι))
  | 0 => return none
  | calls + 1 => do
    match ← next with
    | none => return some none
    | some item => if p item then return some (some item) else find next p calls

/-- From the state `s` the iterator returns the items and then `None`. -/
inductive Yields (next : Method σ (Option ι)) : List ι → σ → Prop
  | done {s s' : σ} (h : next s = .ok none s') : Yields next [] s
  | more {s s' : σ} {item : ι} {items : List ι} (h : next s = .ok (some item) s')
    (rest : Yields next items s') : Yields next (item :: items) s

variable {next : Method σ (Option ι)} {s s' : σ} {item : ι} {calls : ℕ}

/-- The collection ends when there is no item. -/
theorem collect_of_none (h : next s = .ok none s') :
    collect next (calls + 1) s = .ok (some []) s' := by
  rw [collect, Method.bind_of_ok h]
  rfl

/-- The collection fails when a call fails. -/
theorem collect_of_error {e : Fault} (h : next s = .error e s') :
    collect next (calls + 1) s = .error e s' := by
  rw [collect, Method.bind_of_error h]

theorem collect_of_some (h : next s = .ok (some item) s') {items : Option (List ι)} {s'' : σ}
    (hrest : collect next calls s' = .ok items s'') :
    collect next (calls + 1) s = .ok (items.map (item :: ·)) s'' := by
  rw [collect, Method.bind_of_ok h]
  exact Method.bind_of_ok hrest

/-- The collection fails when it fails behind an item. -/
theorem collect_of_some_error (h : next s = .ok (some item) s') {e : Fault} {s'' : σ}
    (hrest : collect next calls s' = .error e s'') :
    collect next (calls + 1) s = .error e s'' := by
  rw [collect, Method.bind_of_ok h]
  exact Method.bind_of_error hrest

/-- No more items are collected than `next` was called. -/
theorem length_lt_of_collect {items : List ι} (h : collect next calls s = .ok (some items) s') :
    items.length < calls := by
  induction calls generalizing s items with
  | zero => cases h
  | succ calls ih =>
    cases hnext : next s with
    | error e s₁ =>
      rw [collect_of_error hnext] at h
      cases h
    | ok item s₁ =>
      cases item with
      | none =>
        rw [collect_of_none hnext] at h
        cases h
        exact Nat.succ_pos _
      | some item =>
        cases hrest : collect next calls s₁ with
        | error e s₂ =>
          rw [collect_of_some_error hnext hrest] at h
          cases h
        | ok rest s₂ =>
          rw [collect_of_some hnext hrest] at h
          cases rest with
          | none => cases h
          | some rest =>
            cases h
            exact Nat.succ_lt_succ (ih hrest)

namespace Yields

variable {items : List ι}

/-- A collection with enough calls returns all items. -/
theorem collect_eq (h : Yields next items s) (hcalls : items.length < calls) :
    ∃ s', collect next calls s = .ok (some items) s' := by
  induction h generalizing calls with
  | done h =>
    obtain ⟨calls, rfl⟩ := Nat.exists_eq_succ_of_ne_zero (Nat.ne_of_gt hcalls)
    exact ⟨_, collect_of_none h⟩
  | more h rest ih =>
    obtain ⟨calls, rfl⟩ := Nat.exists_eq_succ_of_ne_zero (Nat.ne_of_gt (Nat.zero_lt_of_lt hcalls))
    obtain ⟨s', hrest⟩ := ih (Nat.lt_of_succ_lt_succ hcalls)
    exact ⟨s', collect_of_some h hrest⟩

/-- The search finds the first of the items that has the property. -/
theorem find_eq (h : Yields next items s) (p : ι → Bool) (hcalls : items.length < calls) :
    ∃ s', find next p calls s = .ok (some (items.find? p)) s' := by
  induction h generalizing calls with
  | done h =>
    obtain ⟨calls, rfl⟩ := Nat.exists_eq_succ_of_ne_zero (Nat.ne_of_gt hcalls)
    rw [find, Method.bind_of_ok h]
    exact ⟨_, rfl⟩
  | @more s s₁ item items h rest ih =>
    obtain ⟨calls, rfl⟩ := Nat.exists_eq_succ_of_ne_zero (Nat.ne_of_gt (Nat.zero_lt_of_lt hcalls))
    rw [find, Method.bind_of_ok h]
    cases hp : p item with
    | true => exact ⟨s₁, by simp [hp]⟩
    | false => simpa [hp] using ih (Nat.lt_of_succ_lt_succ hcalls)

end Yields

/-! ## Safe iterators -/

section Safe

variable {I : σ → Prop}

/-- A collection is as safe as the calls that it makes. -/
theorem safe_collect (h : Method.Safe I next) (calls : ℕ) : Method.Safe I (collect next calls) := by
  induction calls with
  | zero => exact .pure none
  | succ calls ih =>
    refine h.bind fun item => ?_
    cases item with
    | none => exact .pure _
    | some item => exact ih.bind fun _ => .pure _

/-- A search is as safe as the calls that it makes. -/
theorem safe_find (h : Method.Safe I next) (p : ι → Bool) (calls : ℕ) :
    Method.Safe I (find next p calls) := by
  induction calls with
  | zero => exact .pure none
  | succ calls ih =>
    refine h.bind fun item => ?_
    cases item with
    | none => exact .pure _
    | some item => exact .ite (fun _ => .pure _) fun _ => ih

end Safe

end Mushix.Iter
