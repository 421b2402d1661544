import Mathlib.Data.List.Basic

/-!
# Maximal runs in a list

A run of a list is a block of neighbours with a property that no longer block contains.

The module introduces:

* `IsRun P xs front run back`: `run` is a maximal block of `xs`, between `front` and `back`;
* `IsTail P xs front cur`: `cur` is the block with which `xs` ends, which may be empty;
* `Closed P xs k run`: a run from position `k` on that ends before `xs` does.

`IsTail.concat` and `closed_concat` say what one more element does to the two, so that a scan from
left to right can keep them.
-/

namespace Runs

variable {α : Type*} {P : α → Prop} {xs front front' run cur cur' back : List α} {a : α} {k : ℕ}

/-- `run` is a nonempty block of elements with the property that no longer block contains. -/
structure IsRun (P : α → Prop) (xs front run back : List α) : Prop where
  split : xs = front ++ run ++ back
  ne_nil : run ≠ []
  all : ∀ a ∈ run, P a
  left : ∀ a ∈ front.getLast?, ¬P a
  right : ∀ a ∈ back.head?, ¬P a

/-- `cur` are the last elements up to one without the property. -/
structure IsTail (P : α → Prop) (xs front cur : List α) : Prop where
  split : xs = front ++ cur
  all : ∀ a ∈ cur, P a
  left : ∀ a ∈ front.getLast?, ¬P a

/-- A run from position `k` on behind which there is still an element. -/
def Closed (P : α → Prop) (xs : List α) (k : ℕ) (run : List α) : Prop :=
  ∃ front back, front.length = k ∧ back ≠ [] ∧ IsRun P xs front run back

theorem isTail_nil : IsTail P [] [] [] where
  split := rfl
  all a ha := by cases ha
  left a ha := by cases ha

/-- One more element with the property makes the tail longer. -/
theorem IsTail.concat (h : IsTail P xs front cur) (ha : P a) :
    IsTail P (xs ++ [a]) front (cur ++ [a]) where
  split := by rw [h.split, List.append_assoc]
  all b hb := by
    rcases List.mem_append.1 hb with hcur | hsingle
    · exact h.all b hcur
    · rwa [List.mem_singleton.1 hsingle]
  left := h.left

/-- An element without the property ends the tail. -/
theorem isTail_concat_of_neg (ha : ¬P a) : IsTail P (xs ++ [a]) (xs ++ [a]) [] where
  split := (List.append_nil _).symm
  all b hb := by cases hb
  left b hb := by
    rw [List.getLast?_concat, Option.mem_some_iff] at hb
    rwa [← hb]

/-- A run at the end is a tail that is not empty. -/
theorem isRun_nil_iff : IsRun P xs front run [] ↔ IsTail P xs front run ∧ run ≠ [] := by
  constructor
  · intro h
    exact ⟨⟨by rw [h.split, List.append_nil], h.all, h.left⟩, h.ne_nil⟩
  · rintro ⟨h, hne⟩
    exact ⟨by rw [h.split, List.append_nil], hne, h.all, h.left, fun b hb => by cases hb⟩

/-- There is only one tail. -/
theorem IsTail.unique (h : IsTail P xs front cur) (h' : IsTail P xs front' cur') :
    front = front' ∧ cur = cur' := by
  -- an element that only one of the two takes would have to have the property and lack it
  have hle : ∀ {f f' c c' : List α}, IsTail P xs f c → IsTail P xs f' c' →
      f.length ≤ f'.length := by
    intro f f' c c' h h'
    by_contra hnot
    have hlt : f'.length < f.length := Nat.lt_of_not_le hnot
    obtain ⟨f'', hf⟩ : ∃ f'', f = f' ++ f'' :=
      (List.prefix_of_prefix_length_le ⟨c', h'.split.symm⟩ ⟨c, h.split.symm⟩ (Nat.le_of_lt hlt)).imp
        fun _ => Eq.symm
    have hne : f'' ≠ [] := by
      rintro rfl
      rw [hf, List.append_nil] at hlt
      exact Nat.lt_irrefl _ hlt
    have hmem : f''.getLast hne ∈ c' := by
      have hsplit := h'.split
      rw [h.split, hf, List.append_assoc] at hsplit
      rw [← List.append_cancel_left hsplit]
      exact List.mem_append_left _ (List.getLast_mem hne)
    refine h.left (f''.getLast hne) ?_ (h'.all _ hmem)
    rw [hf, List.getLast?_append_of_ne_nil _ hne, List.getLast?_eq_some_getLast hne]
    rfl
  have hlen : front.length = front'.length := Nat.le_antisymm (hle h h') (hle h' h)
  exact List.append_inj (h.split.symm.trans h'.split) hlen

/-- What one more element does to the runs that have ended: a run at the end is closed by an
element without the property, and the others stay. -/
theorem closed_concat :
    Closed P (xs ++ [a]) k run ↔
      Closed P xs k run ∨ ¬P a ∧ ∃ front, front.length = k ∧ IsRun P xs front run [] := by
  constructor
  · rintro ⟨front, back, hk, hne, h⟩
    -- the last element is the last one behind the run
    obtain ⟨back', b, rfl⟩ : ∃ back' b, back = back' ++ [b] :=
      ⟨_, _, (List.dropLast_append_getLast hne).symm⟩
    have hsplit := h.split
    rw [← List.append_assoc] at hsplit
    obtain ⟨hxs, hab⟩ := List.append_inj' hsplit rfl
    obtain rfl : a = b := by simpa using hab
    cases back' with
    | nil => exact .inr ⟨h.right a rfl, front, hk, hxs, h.ne_nil, h.all, h.left, by simp⟩
    | cons c back' =>
      exact .inl ⟨front, c :: back', hk, by simp, hxs, h.ne_nil, h.all, h.left, h.right⟩
  · rintro (⟨front, back, hk, hne, h⟩ | ⟨ha, front, hk, h⟩)
    · refine ⟨front, back ++ [a], hk, by simp, ?_, h.ne_nil, h.all, h.left, ?_⟩
      · rw [h.split, List.append_assoc]
      · rw [List.head?_append_of_ne_nil _ hne]
        exact h.right
    · refine ⟨front, [a], hk, by simp, ?_, h.ne_nil, h.all, h.left, ?_⟩
      · rw [h.split, List.append_nil]
      · intro b hb
        rw [List.head?_cons, Option.mem_some_iff] at hb
        rwa [← hb]

/-- An element with the property ends no run. -/
theorem closed_concat_of_pos (ha : P a) : Closed P (xs ++ [a]) k run ↔ Closed P xs k run := by
  rw [closed_concat]
  exact or_iff_left fun h => h.1 ha

/-- An element without the property ends every run. -/
theorem closed_concat_of_neg (ha : ¬P a) :
    Closed P (xs ++ [a]) k run ↔ ∃ front back, front.length = k ∧ IsRun P xs front run back := by
  rw [closed_concat]
  constructor
  · rintro (⟨front, back, hk, -, h⟩ | ⟨-, front, hk, h⟩)
    · exact ⟨front, back, hk, h⟩
    · exact ⟨front, [], hk, h⟩
  · rintro ⟨front, back, hk, h⟩
    by_cases hne : back = []
    · exact .inr ⟨ha, front, hk, hne ▸ h⟩
    · exact .inl ⟨front, back, hk, hne, h⟩

theorem not_closed_nil : ¬Closed P [] k run := by
  rintro ⟨front, back, -, hne, h⟩
  have hsplit := h.split
  simp_all

/-- Every run has ended or is the tail. -/
theorem exists_isRun_iff (h : IsTail P xs front cur) :
    (∃ front back, front.length = k ∧ IsRun P xs front run back) ↔
      Closed P xs k run ∨ cur ≠ [] ∧ front.length = k ∧ run = cur := by
  constructor
  · rintro ⟨front', back, hk, hrun⟩
    by_cases hne : back = []
    · obtain ⟨htail, hne'⟩ := isRun_nil_iff.1 (hne ▸ hrun)
      obtain ⟨rfl, rfl⟩ := h.unique htail
      exact .inr ⟨hne', hk, rfl⟩
    · exact .inl ⟨front', back, hk, hne, hrun⟩
  · rintro (⟨front', back, hk, -, hrun⟩ | ⟨hne, hk, rfl⟩)
    · exact ⟨front', back, hk, hrun⟩
    · exact ⟨front, [], hk, isRun_nil_iff.2 ⟨h, hne⟩⟩

end Runs
