import Mathlib.Data.List.Induction

/-!
# The last element with a property

Where a list has its last element with a property, for programs that go through a list and keep
what they have found last.

* `isLastAt_concat_of_pos`, `isLastAt_concat_of_neg`: one more element;
* `isLastAt_cons_succ`, `isLastAt_cons_zero`: one more element in front;
* `exists_isLastAt`: there is a last element when there is one at all.
-/

namespace LastMatch

variable {α : Type*} {P : α → Prop} {xs : List α} {a b : α} {k : ℕ}

/-- The element `a` at the place `k` has the property and is the last one that has it. -/
structure IsLastAt (P : α → Prop) (xs : List α) (k : ℕ) (a : α) : Prop where
  get : xs[k]? = some a
  prop : P a
  last (j : ℕ) (b : α) : k < j → xs[j]? = some b → ¬P b

theorem getElem?_concat (xs : List α) (a : α) (k : ℕ) :
    (xs ++ [a])[k]? = if k = xs.length then some a else xs[k]? := by
  split_ifs with hk
  · rw [hk, List.getElem?_concat_length]
  · rcases Nat.lt_or_ge k xs.length with hlt | hge
    · rw [List.getElem?_append_left hlt]
    · rw [List.getElem?_eq_none hge, List.getElem?_eq_none]
      rw [List.length_append, List.length_singleton]
      omega

/-- No later element than the last one has the property. -/
theorem IsLastAt.le (h : IsLastAt P xs k a) {j : ℕ} (hj : xs[j]? = some b) (hb : P b) : j ≤ k :=
  Nat.le_of_not_lt fun hlt => h.last j b hlt hj hb

/-- A new element with the property is the last one. -/
theorem isLastAt_concat_of_pos (ha : P a) :
    IsLastAt P (xs ++ [a]) k b ↔ k = xs.length ∧ b = a := by
  constructor
  · intro h
    have hle := h.le (by rw [getElem?_concat, if_pos rfl]) ha
    have hget := h.get
    have hk : k = xs.length := by
      by_contra hne
      rw [getElem?_concat, if_neg hne, List.getElem?_eq_none hle] at hget
      cases hget
    rw [getElem?_concat, if_pos hk] at hget
    exact ⟨hk, (Option.some.inj hget).symm⟩
  · rintro ⟨rfl, rfl⟩
    refine ⟨by rw [getElem?_concat, if_pos rfl], ha, fun j c hj hget => ?_⟩
    rw [getElem?_concat, if_neg (Nat.ne_of_gt hj), List.getElem?_eq_none (Nat.le_of_lt hj)] at hget
    cases hget

/-- A new element without the property changes nothing. -/
theorem isLastAt_concat_of_neg (ha : ¬P a) :
    IsLastAt P (xs ++ [a]) k b ↔ IsLastAt P xs k b := by
  constructor
  · intro h
    have hget := h.get
    rw [getElem?_concat] at hget
    split_ifs at hget with hk
    · cases hget
      exact absurd h.prop ha
    · refine ⟨hget, h.prop, fun j c hj hc => h.last j c hj ?_⟩
      have hlt := (List.getElem?_eq_some_iff.1 hc).1
      rwa [getElem?_concat, if_neg (Nat.ne_of_lt hlt)]
  · intro h
    have hlt := (List.getElem?_eq_some_iff.1 h.get).1
    refine ⟨by rw [getElem?_concat, if_neg (Nat.ne_of_lt hlt), h.get], h.prop, fun j c hj hc => ?_⟩
    rw [getElem?_concat] at hc
    split_ifs at hc with hk
    · cases hc
      exact ha
    · exact h.last j c hj hc

/-- The last element with the property behind a first element. -/
theorem isLastAt_cons_succ : IsLastAt P (a :: xs) (k + 1) b ↔ IsLastAt P xs k b := by
  constructor
  · intro h
    refine ⟨h.get, h.prop, fun j c hj hget => ?_⟩
    exact h.last (j + 1) c (Nat.succ_lt_succ hj) hget
  · intro h
    refine ⟨h.get, h.prop, fun j c hj hget => ?_⟩
    cases j with
    | zero => exact absurd hj (Nat.not_lt_zero _)
    | succ j => exact h.last j c (Nat.lt_of_succ_lt_succ hj) hget

/-- The first element is the last one with the property where no other has it. -/
theorem isLastAt_cons_zero : IsLastAt P (a :: xs) 0 b ↔ a = b ∧ P b ∧ ∀ c ∈ xs, ¬P c := by
  constructor
  · intro h
    refine ⟨Option.some.inj h.get, h.prop, fun c hc => ?_⟩
    obtain ⟨j, hj, rfl⟩ := List.mem_iff_getElem.1 hc
    exact h.last (j + 1) _ j.succ_pos (List.getElem?_eq_getElem hj)
  · rintro ⟨rfl, ha, hxs⟩
    refine ⟨rfl, ha, fun j c hj hget => ?_⟩
    cases j with
    | zero => exact absurd hj (Nat.lt_irrefl 0)
    | succ j => exact hxs c (List.mem_of_getElem? hget)

/-- Where there is an element with the property, there is a last one. -/
theorem exists_isLastAt (h : ∃ a ∈ xs, P a) : ∃ k a, IsLastAt P xs k a := by
  induction xs using List.reverseRecOn with
  | nil =>
    obtain ⟨a, ha, -⟩ := h
    cases ha
  | append_singleton xs x ih =>
    by_cases hx : P x
    · exact ⟨xs.length, x, (isLastAt_concat_of_pos hx).2 ⟨rfl, rfl⟩⟩
    · obtain ⟨a, ha, hpa⟩ := h
      rcases List.mem_append.1 ha with hxs | hsingle
      · obtain ⟨k, b, hlast⟩ := ih ⟨a, hxs, hpa⟩
        exact ⟨k, b, (isLastAt_concat_of_neg hx).2 hlast⟩
      · rw [List.mem_singleton.1 hsingle] at hpa
        exact absurd hpa hx

end LastMatch
