import Mathlib.Data.Nat.Notation

/-!
# How a call ends

A call of the program returns a value, returns `Err(&'static str)` (`result.rs`), or panics:
an assertion, an `unwrap` or `expect`, and in the default build profile an arithmetic
operation whose result does not fit its type. `Fault` collects the last two, and
`Method σ α` is a method with `&mut self`, which leaves `self` in some state however it ends.
-/

namespace Mushix

/-- The end of a call that returns no value. -/
inductive Fault where
  /-- `Err(msg)`, which `?` passes on to the caller. -/
  | err (msg : String)
  /-- A panic, which ends the program. -/
  | panic (msg : String)
  deriving DecidableEq, Repr

/-- A method with `&mut self` of type `σ`. -/
abbrev Method (σ α : Type) : Type := EStateM Fault σ α

namespace Method

variable {σ α β : Type}

/-- The state in which a method leaves `self`. -/
def stateAfter (x : Method σ α) (s : σ) : σ :=
  match x s with
  | .ok _ s' => s'
  | .error _ s' => s'

theorem stateAfter_of_ok {x : Method σ α} {s s' : σ} {a : α} (h : x s = .ok a s') :
    x.stateAfter s = s' := by
  rw [stateAfter, h]

theorem stateAfter_of_error {x : Method σ α} {s s' : σ} {e : Fault} (h : x s = .error e s') :
    x.stateAfter s = s' := by
  rw [stateAfter, h]

/-- `?` on a `Result` of a function that does not take `self`. -/
def ofResult : Except String α → Method σ α
  | .ok a => return a
  | .error msg => throw (.err msg)

/-- The value that there is, or the fault where there is none. -/
def ofOption (e : Fault) : Option α → Method σ α
  | some a => return a
  | none => throw e

/-- A call without `?`, whose `Err` is a value. A panic ends the program all the same. -/
def attempt (x : Method σ α) : Method σ (Except String α) := fun s =>
  match x s with
  | .ok a s' => .ok (.ok a) s'
  | .error (.err msg) s' => .ok (.error msg) s'
  | .error (.panic msg) s' => .error (.panic msg) s'

/-- A method on the first part of a state. -/
def onFst {τ : Type} (x : Method σ α) : Method (σ × τ) α := fun s =>
  match x s.1 with
  | .ok a s' => .ok a (s', s.2)
  | .error e s' => .error e (s', s.2)

/-! ## Running the primitive methods -/

@[simp]
theorem run_pure (a : α) (s : σ) : (pure a : Method σ α) s = .ok a s := rfl

@[simp]
theorem run_throw (e : Fault) (s : σ) : (throw e : Method σ α) s = .error e s := rfl

@[simp]
theorem run_modify (g : σ → σ) (s : σ) : (modify g : Method σ PUnit) s = .ok ⟨⟩ (g s) := rfl

@[simp]
theorem run_get_bind (f : σ → Method σ β) (s : σ) : ((get : Method σ σ) >>= f) s = f s s := rfl

@[simp]
theorem run_modify_bind (g : σ → σ) (f : PUnit → Method σ β) (s : σ) :
    ((modify g : Method σ PUnit) >>= f) s = f ⟨⟩ (g s) := rfl

@[simp]
theorem run_throw_bind (e : Fault) (f : α → Method σ β) (s : σ) :
    ((throw e : Method σ α) >>= f) s = .error e s := rfl

@[simp]
theorem run_ite (c : Prop) [Decidable c] (x y : Method σ α) (s : σ) :
    (if c then x else y) s = if c then x s else y s := by
  split <;> rfl

@[simp]
theorem run_ofOption_some (e : Fault) (a : α) (s : σ) :
    (ofOption e (some a) : Method σ α) s = .ok a s := rfl

/-- A sequence whose first part returns goes on with the second. -/
theorem bind_of_ok {x : Method σ α} {f : α → Method σ β} {s s' : σ} {a : α}
    (h : x s = .ok a s') : (x >>= f) s = f a s' := by
  simp only [bind, EStateM.bind, h]

/-- A sequence whose first part faults ends with that fault. -/
theorem bind_of_error {x : Method σ α} {f : α → Method σ β} {s s' : σ} {e : Fault}
    (h : x s = .error e s') : (x >>= f) s = .error e s' := by
  simp only [bind, EStateM.bind, h]

/-- The state after two methods, of which the first returns. -/
theorem stateAfter_bind_of_ok {x : Method σ α} {f : α → Method σ β} {s s' : σ} {a : α}
    (h : x s = .ok a s') : (x >>= f).stateAfter s = (f a).stateAfter s' := by
  rw [stateAfter, stateAfter, bind_of_ok h]

/-- A sequence returns exactly when both parts return. -/
theorem bind_eq_ok {x : Method σ α} {f : α → Method σ β} {s t : σ} {b : β} :
    (x >>= f) s = .ok b t ↔ ∃ a s', x s = .ok a s' ∧ f a s' = .ok b t := by
  constructor
  · intro h
    cases hrun : x s with
    | ok a s' => exact ⟨a, s', rfl, by rwa [bind_of_ok hrun] at h⟩
    | error e s' =>
      rw [bind_of_error hrun] at h
      cases h
  · rintro ⟨a, s', hrun, h⟩
    rw [bind_of_ok hrun, h]

/-! ## Methods on the first part of a state -/

section OnFst

variable {τ : Type}

/-- A value that is returned does not depend on the state. -/
@[simp]
theorem onFst_pure (a : α) : (onFst (pure a) : Method (σ × τ) α) = pure a := rfl

@[simp]
theorem onFst_bind (x : Method σ α) (f : α → Method σ β) :
    (onFst (x >>= f) : Method (σ × τ) β) = onFst x >>= fun a => onFst (f a) := by
  funext s
  cases hrun : x s.1 <;> simp [onFst, bind, EStateM.bind, hrun]

/-- An attempt of a method of the first part. -/
@[simp]
theorem onFst_attempt (x : Method σ α) :
    (onFst (attempt x) : Method (σ × τ) (Except String α)) = attempt (onFst x) := by
  funext s
  cases hrun : x s.1 with
  | ok a s' => simp [onFst, attempt, hrun]
  | error e s' => cases e <;> simp [onFst, attempt, hrun]

/-- A choice between methods of the first part. -/
@[simp]
theorem onFst_ite (c : Prop) [Decidable c] (x y : Method σ α) :
    (onFst (if c then x else y) : Method (σ × τ) α) = if c then onFst x else onFst y := by
  split <;> rfl

end OnFst

end Method

/-- `r.unwrap()` on a `Result` that is known to be `Ok`. -/
def unwrap {ε α : Type} : (r : Except ε α) → r.isOk → α
  | .ok a, _ => a

@[simp]
theorem unwrap_ok {ε α : Type} (a : α) (h : (Except.ok a : Except ε α).isOk) :
    unwrap (.ok a) h = a := rfl

end Mushix
