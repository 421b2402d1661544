import Mathlib.Data.List.Nodup
import Mathlib.Data.List.Basic
import Mathlib.Logic.ExistsUnique

/-!
# Queues that lose their head and grow at the tail

`q n` is the content of a queue at time `n`. Every step removes the head, if there is one, and
appends some list. The element at position `k` is then at the head `k` steps later
(`head_of_getElem`), so a queue that puts its head back behind the others serves each of them
once before it serves the same element again (`served_once`).
-/

namespace Fifo

variable {α : Type*} {q : ℕ → List α} {n m k : ℕ} {a b : α}

/-- Every step removes the head and appends to the tail. -/
def Steps (q : ℕ → List α) : Prop := ∀ n, ∃ added, q (n + 1) = (q n).tail ++ added

/-- What has not reached the head yet is still in the queue, in the same order. -/
theorem drop_prefix (h : Steps q) (n k : ℕ) (hk : k ≤ (q n).length) :
    (q n).drop k <+: q (n + k) := by
  induction k with
  | zero => simp
  | succ k ih =>
    obtain ⟨rest, hrest⟩ := ih (by omega)
    obtain ⟨added, hadded⟩ := h (n + k)
    have hne : (q n).drop k ≠ [] := by
      simp only [ne_eq, List.drop_eq_nil_iff]
      omega
    refine ⟨rest ++ added, ?_⟩
    calc (q n).drop (k + 1) ++ (rest ++ added)
        = ((q n).drop k ++ rest).tail ++ added := by
          rw [List.tail_append_of_ne_nil hne, List.tail_drop, List.append_assoc]
      _ = q (n + (k + 1)) := by rw [hrest, ← hadded, Nat.add_assoc]

/-- The element at position `k` is at the head `k` steps later. -/
theorem head_of_getElem (h : Steps q) (hk : (q n)[k]? = some a) :
    (q (n + k)).head? = some a := by
  have hlt : k < (q n).length := (List.getElem?_eq_some_iff.1 hk).1
  obtain ⟨rest, hrest⟩ := drop_prefix h n k (Nat.le_of_lt hlt)
  have hdrop : (q n).drop k = a :: (q n).drop (k + 1) := by
    rw [List.drop_eq_getElem_cons hlt, (List.getElem?_eq_some_iff.1 hk).2]
  rw [← hrest, hdrop]
  rfl

/-- An element of a queue without repetitions that is put back behind `others` when it is
served at time `n` is served again right after them. -/
theorem served_again (h : Steps q) {others added : List α}
    (hnext : q (n + 1) = others ++ a :: added) :
    (q (n + 1 + others.length)).head? = some a := by
  refine head_of_getElem h ?_
  rw [hnext, List.getElem?_append_right (Nat.le_refl _), Nat.sub_self]
  rfl

/-- Between two services of `a` that follow each other, at the times `n` and `m`, every element
that was in front of `a` when it was put back is served exactly once. -/
theorem served_once (h : Steps q) {others added : List α}
    (hnext : q (n + 1) = others ++ a :: added) (hnodup : others.Nodup) (ha : a ∉ others)
    (hnm : n < m) (hm : (q m).head? = some a)
    (hbetween : ∀ k, n < k → k < m → (q k).head? ≠ some a) (hb : b ∈ others) :
    ∃! k, (n < k ∧ k < m) ∧ (q k).head? = some b := by
  have hserved : ∀ j c, others[j]? = some c → (q (n + 1 + j)).head? = some c := by
    intro j c hj
    refine head_of_getElem h ?_
    rw [hnext, List.getElem?_append_left (List.getElem?_eq_some_iff.1 hj).1, hj]
  -- the next service of `a` comes after the others and not later
  have hlast : n + 1 + others.length = m := by
    rcases Nat.lt_trichotomy (n + 1 + others.length) m with hlt | heq | hgt
    · exact absurd (served_again h hnext) (hbetween _ (by omega) hlt)
    · exact heq
    · have hj : m - (n + 1) < others.length := by omega
      have hc := hserved _ _ (List.getElem?_eq_getElem hj)
      rw [show n + 1 + (m - (n + 1)) = m by omega, hm] at hc
      exact absurd (Option.some.inj hc ▸ List.getElem_mem hj) ha
  obtain ⟨j, hj, rfl⟩ := List.getElem_of_mem hb
  refine ⟨n + 1 + j, ⟨⟨by omega, by omega⟩, hserved j _ (List.getElem?_eq_getElem hj)⟩, ?_⟩
  rintro k ⟨⟨hnk, hkm⟩, hk⟩
  have hk' : k - (n + 1) < others.length := by omega
  have hc := hserved _ _ (List.getElem?_eq_getElem hk')
  rw [show n + 1 + (k - (n + 1)) = k by omega, hk] at hc
  have := (List.Nodup.getElem_inj_iff hnodup).1 (Option.some.inj hc)
  omega

end Fifo
