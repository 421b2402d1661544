import Mathlib.Logic.Function.Iterate
import Mushix.Result

/-!
# Loops

`while test {}` has no body: it goes on until its test, which asks some hardware, is false. The
number of rounds is bounded, so that it can be run, and a loop that needs more rounds has not come
to its end.

* `Method.whileTrue`: the loop;
* `Method.EndsAfter`: after how many rounds it ends, where the test is a function of the state;
* `Method.whileTrue_eq_ok_true_iff`: the loop ends in one state only.

`for a in as { .. }` is `List.forM`.

* `Method.forM_eq_foldl`: a loop of which every round returns.
-/

namespace Mushix.Method

variable {σ : Type}

/-- `while test {}` for a number of rounds: whether it has come to its end. -/
def whileTrue (test : Method σ Bool) : ℕ → Method σ Bool
  | 0 => return false
  | rounds + 1 => do
    if ← test then
      whileTrue test rounds
    else
      return true

/-- The test `holds` is true for `n` rounds and then false, where a round changes the state by
`next`. -/
def EndsAfter (holds : σ → Bool) (next : σ → σ) (n : ℕ) (s : σ) : Prop :=
  holds (next^[n] s) = false ∧ ∀ i < n, holds (next^[i] s) = true

variable {test : Method σ Bool} {holds : σ → Bool} {next : σ → σ} {m n rounds : ℕ} {s s' : σ}

theorem endsAfter_zero : EndsAfter holds next 0 s ↔ holds s = false := by
  simp [EndsAfter]

/-- A loop with rounds goes through the first one. -/
theorem endsAfter_succ :
    EndsAfter holds next (n + 1) s ↔ holds s = true ∧ EndsAfter holds next n (next s) := by
  constructor
  · rintro ⟨hlast, hbefore⟩
    exact ⟨hbefore 0 n.succ_pos, hlast, fun i hi => hbefore (i + 1) (Nat.succ_lt_succ hi)⟩
  · rintro ⟨hfirst, hlast, hbefore⟩
    refine ⟨hlast, fun i hi => ?_⟩
    cases i with
    | zero => exact hfirst
    | succ i => exact hbefore i (Nat.lt_of_succ_lt_succ hi)

/-- A loop ends after one number of rounds only. -/
theorem EndsAfter.unique (hm : EndsAfter holds next m s) (hn : EndsAfter holds next n s) :
    m = n := by
  rcases Nat.lt_trichotomy m n with hlt | heq | hgt
  · simpa [hm.1] using hn.2 m hlt
  · exact heq
  · simpa [hn.1] using hm.2 n hgt

/-- A loop comes to its end in the state after the round in which its test is false. -/
theorem whileTrue_eq_ok_true_iff (htest : ∀ s, test s = .ok (holds s) (next s)) :
    whileTrue test rounds s = .ok true s' ↔
      ∃ n < rounds, EndsAfter holds next n s ∧ s' = next^[n + 1] s := by
  induction rounds generalizing s with
  | zero => simp [whileTrue, pure, EStateM.pure]
  | succ rounds ih =>
    -- one round, and then the loop from the state after it
    rw [whileTrue, bind_of_ok (htest s)]
    cases hholds : holds s with
    | true =>
      rw [if_pos rfl, ih]
      constructor
      · rintro ⟨n, hn, hends, rfl⟩
        exact ⟨n + 1, Nat.succ_lt_succ hn, endsAfter_succ.2 ⟨hholds, hends⟩, rfl⟩
      · rintro ⟨n, hn, hends, rfl⟩
        cases n with
        | zero => simp [endsAfter_zero, hholds] at hends
        | succ n => exact ⟨n, Nat.lt_of_succ_lt_succ hn, (endsAfter_succ.1 hends).2, rfl⟩
    | false =>
      constructor
      · intro h
        cases h
        exact ⟨0, rounds.succ_pos, endsAfter_zero.2 hholds, rfl⟩
      · rintro ⟨n, hn, hends, rfl⟩
        cases n with
        | zero => rfl
        | succ n => simp [endsAfter_succ, hholds] at hends

/-- A loop whose test always returns returns, and has not come to its end when it says so. -/
theorem whileTrue_returns (htest : ∀ s, test s = .ok (holds s) (next s)) (rounds : ℕ) (s : σ) :
    ∃ ended s', whileTrue test rounds s = .ok ended s' := by
  induction rounds generalizing s with
  | zero => exact ⟨false, s, rfl⟩
  | succ rounds ih =>
    rw [whileTrue, bind_of_ok (htest s)]
    cases holds s with
    | true => exact ih (next s)
    | false => exact ⟨true, next s, rfl⟩

/-! ## Loops over a list -/

section ForM

variable {α : Type} {as : List α} {body : α → Method σ PUnit}

theorem run_forM_nil (s : σ) : ([] : List α).forM body s = .ok ⟨⟩ s := rfl

theorem run_forM_cons (a : α) (s : σ) :
    (a :: as).forM body s = (body a >>= fun _ => as.forM body) s := rfl

/-- A loop whose rounds return changes the state round by round. -/
theorem forM_eq_foldl {next : σ → α → σ} (hbody : ∀ a ∈ as, ∀ s, body a s = .ok ⟨⟩ (next s a))
    (s : σ) : as.forM body s = .ok ⟨⟩ (as.foldl next s) := by
  induction as generalizing s with
  | nil => exact run_forM_nil s
  | cons a as ih =>
    rw [run_forM_cons, bind_of_ok (hbody a List.mem_cons_self s), List.foldl_cons]
    exact ih (fun b hb => hbody b (List.mem_cons_of_mem a hb)) (next s a)

/-- A loop depends on the rounds it makes only. -/
theorem forM_congr {body' : α → Method σ PUnit} (h : ∀ a ∈ as, body a = body' a) :
    as.forM body = as.forM body' := by
  induction as with
  | nil => rfl
  | cons a as ih =>
    have hrest := ih fun b hb => h b (List.mem_cons_of_mem a hb)
    funext s
    rw [run_forM_cons, run_forM_cons, h a List.mem_cons_self, hrest]

end ForM

end Mushix.Method
