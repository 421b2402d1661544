import Mathlib.Data.List.Basic

/-!
# Runs of a deterministic system

A system with states `S` and actions `A` is a step function `A → S → S`; a run is the list of
its actions. `exec` is the state a run ends in and `Always C` says that `C` holds in every
state of the run, the first and the last included. Runs of actions that commute with each other
end in the same state in every order (`exec_perm`). A system of which some steps are matched by the
same step of another one, and the others by none, is followed along its runs (`exec_visible`).
-/

namespace Run

variable {S A : Type*} (step : A → S → S)

/-- The state after the actions of a run. -/
def exec : List A → S → S
  | [], s => s
  | a :: as, s => exec as (step a s)

/-- The condition `C` holds in every state of the run. -/
def Always (C : S → Prop) : List A → S → Prop
  | [], s => C s
  | a :: as, s => C s ∧ Always C as (step a s)

/-- A decidable condition can be checked along a run. -/
instance Always.decidable (C : S → Prop) [DecidablePred C] :
    ∀ (as : List A) (s : S), Decidable (Always step C as s)
  | [], s => inferInstanceAs (Decidable (C s))
  | a :: as, s =>
    have := Always.decidable C as (step a s)
    inferInstanceAs (Decidable (C s ∧ Always step C as (step a s)))

variable {step} {C D : S → Prop} {Allowed : A → Prop}

@[simp]
theorem exec_nil (s : S) : exec step [] s = s := rfl

@[simp]
theorem exec_cons (a : A) (as : List A) (s : S) :
    exec step (a :: as) s = exec step as (step a s) := rfl

namespace Always

/-- What holds always holds in the first state. -/
theorem first : ∀ {as : List A} {s : S}, Always step C as s → C s
  | [], _, h => h
  | _ :: _, _, h => h.1

/-- What holds always holds in the last state. -/
theorem last {as : List A} {s : S} (h : Always step C as s) : C (exec step as s) := by
  induction as generalizing s with
  | nil => exact h
  | cons a as ih => exact ih h.2

/-- What holds at every step may be weakened. -/
theorem imp (hCD : ∀ s, C s → D s) : ∀ {as : List A} {s : S}, Always step C as s →
    Always step D as s
  | [], s, h => hCD s h
  | _ :: _, s, h => ⟨hCD s h.1, imp hCD h.2⟩

/-- Two properties that hold at every step hold together. -/
theorem and : ∀ {as : List A} {s : S}, Always step C as s → Always step D as s →
    Always step (fun s => C s ∧ D s) as s
  | [], _, hC, hD => ⟨hC, hD⟩
  | _ :: _, _, hC, hD => ⟨⟨hC.1, hD.1⟩, and hC.2 hD.2⟩

/-- The induction over a run: a property that allowed actions preserve, as long as `C` goes on
holding, holds in every state of the run. -/
theorem of_step (hstep : ∀ s a, Allowed a → D s → C (step a s) → D (step a s)) {as : List A}
    {s : S} (hallowed : ∀ a ∈ as, Allowed a) (hC : Always step C as s) (h : D s) :
    Always step D as s := by
  induction as generalizing s with
  | nil => exact h
  | cons a as ih =>
    refine ⟨h, ih (fun b hb => hallowed b (List.mem_cons_of_mem a hb)) hC.2 ?_⟩
    exact hstep s a (hallowed a List.mem_cons_self) h hC.2.first

/-- An invariant that every step keeps, as long as `C` goes on holding, holds in the last state. -/
theorem exec_of_step (hstep : ∀ s a, C s → D s → D (step a s)) {as : List A} {s : S}
    (hC : Always step C as s) (h : D s) : D (exec step as s) := by
  induction as generalizing s with
  | nil => exact h
  | cons a as ih => exact ih hC.2 (hstep s a hC.1 h)

end Always

/-- A condition that holds everywhere holds always. -/
theorem always_of_forall (h : ∀ s, C s) : ∀ (as : List A) (s : S), Always step C as s
  | [], s => h s
  | _ :: as, s => ⟨h s, always_of_forall h as _⟩

/-! ## The order of the actions -/

variable (step) in
/-- The two actions lead to the same state in either order. -/
def Commute (a b : A) : Prop := ∀ s, step b (step a s) = step a (step b s)

/-- Commuting does not depend on the order. -/
theorem Commute.symm {a b : A} (h : Commute step a b) : Commute step b a := fun s => (h s).symm

/-- Where all actions of a run commute, their order does not matter. -/
theorem exec_perm {as bs : List A} (hperm : as.Perm bs) (hcomm : as.Pairwise (Commute step))
    (s : S) : exec step as s = exec step bs s := by
  induction hperm generalizing s with
  | nil => rfl
  | cons a _ ih => exact ih hcomm.of_cons (step a s)
  | swap a b as =>
    have hswap := List.rel_of_pairwise_cons hcomm List.mem_cons_self
    rw [exec_cons, exec_cons, exec_cons, exec_cons, hswap s]
  | trans hfirst _ ihFirst ihSecond =>
    rw [ihFirst hcomm s, ihSecond ((hfirst.pairwise_iff Commute.symm).1 hcomm) s]

/-! ## Two systems -/

theorem exec_append (as bs : List A) (s : S) :
    exec step (as ++ bs) s = exec step bs (exec step as s) := by
  induction as generalizing s with
  | nil => rfl
  | cons a as ih => exact ih (step a s)

variable (step) in
/-- The actions of a run that satisfy `p` in the state in which they are taken, in their order. -/
def visible (p : A → S → Bool) : List A → S → List A
  | [], _ => []
  | a :: as, s => if p a s then a :: visible p as (step a s) else visible p as (step a s)

/-- A relation between two systems that every step keeps, where the second system takes the visible
steps only, holds at the end of every run. -/
theorem exec_visible {T : Type*} {abstract : A → T → T} {R : S → T → Prop} {p : A → S → Bool}
    (hstep : ∀ s t a, R s t → R (step a s) (if p a s then abstract a t else t)) (as : List A)
    {s : S} {t : T} (h : R s t) : R (exec step as s) (exec abstract (visible step p as s) t) := by
  induction as generalizing s t with
  | nil => exact h
  | cons a as ih =>
    have hnext := hstep s t a h
    rw [visible]
    split at hnext
    case isTrue hp =>
      rw [if_pos hp]
      exact ih hnext
    case isFalse hp =>
      rw [if_neg hp]
      exact ih hnext

end Run
