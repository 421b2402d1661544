import Mushix.Loop
import Mushix.Safe

/-!
# What a method leaves behind

`Method.Ends P Q x s` says what state `x` leaves from `s`: one with `P` when it ends without a
value, and one with `Q` when it returns. `Method.Stays I x` is the case of an invariant. Unlike
`Method.Safe`, neither keeps `x` from panicking. `Method.onSnd` is for a state with two parts, as
`Method.onFst` is.
-/

namespace Mushix.Method

variable {σ α β : Type}

/-- From the state `s` the method leaves a state with `P` when it ends without a value, and one with
`Q` when it returns. -/
def Ends (P : σ → Prop) (Q : α → σ → Prop) (x : Method σ α) (s : σ) : Prop :=
  match x s with
  | .ok a s' => Q a s'
  | .error _ s' => P s'

/-- However the method ends, it keeps the invariant. -/
def Stays (I : σ → Prop) (x : Method σ α) : Prop := ∀ s, I s → Ends I (fun _ => I) x s

/-- A method on the second part of a state. -/
def onSnd {τ : Type} (x : Method σ α) : Method (τ × σ) α := fun s =>
  match x s.2 with
  | .ok a s' => .ok a (s.1, s')
  | .error e s' => .error e (s.1, s')

/-- A method of the first part returns with the second part as it was. -/
theorem onFst_of_ok {τ : Type} {x : Method σ α} {a : α} {s s' : σ} (h : x s = .ok a s') (t : τ) :
    onFst x (s, t) = .ok a (s', t) := by
  simp only [onFst, h]

/-- A method of the first part fails with the second part as it was. -/
theorem onFst_of_error {τ : Type} {x : Method σ α} {e : Fault} {s s' : σ}
    (h : x s = .error e s') (t : τ) : onFst x (s, t) = .error e (s', t) := by
  simp only [onFst, h]

/-- A method of the second part returns with the first part as it was. -/
theorem onSnd_of_ok {τ : Type} {x : Method σ α} {a : α} {s s' : σ} (h : x s = .ok a s') (t : τ) :
    onSnd x (t, s) = .ok a (t, s') := by
  simp only [onSnd, h]

/-- A method of the second part fails with the first part as it was. -/
theorem onSnd_of_error {τ : Type} {x : Method σ α} {e : Fault} {s s' : σ}
    (h : x s = .error e s') (t : τ) : onSnd x (t, s) = .error e (t, s') := by
  simp only [onSnd, h]

namespace Ends

variable {P P' : σ → Prop} {Q Q' : α → σ → Prop} {R : β → σ → Prop} {x : Method σ α} {s s' : σ}

theorem pure {a : α} (h : Q a s) : Ends P Q (pure a) s := h

theorem throw {e : Fault} (h : P s) : Ends P Q (throw e) s := h

/-- A method that returns ends as it returns. -/
theorem of_ok {a : α} (hrun : x s = .ok a s') (h : Q a s') : Ends P Q x s := by
  rwa [Ends, hrun]

/-- A method that fails ends as it fails. -/
theorem of_error {e : Fault} (hrun : x s = .error e s') (h : P s') : Ends P Q x s := by
  rwa [Ends, hrun]

/-- What is known where the method returns. -/
theorem ok {a : α} (h : Ends P Q x s) (hrun : x s = .ok a s') : Q a s' := by
  rwa [Ends, hrun] at h

/-- Where a method fails, what it guarantees for this holds. -/
theorem error {e : Fault} (h : Ends P Q x s) (hrun : x s = .error e s') : P s' := by
  rwa [Ends, hrun] at h

/-- A method guarantees whatever follows from what it guarantees. -/
theorem imp (h : Ends P Q x s) (hP : ∀ s', P s' → P' s') (hQ : ∀ a s', Q a s' → Q' a s') :
    Ends P' Q' x s := by
  cases hrun : x s with
  | ok a s' => exact of_ok hrun (hQ a s' (h.ok hrun))
  | error e s' => exact of_error hrun (hP s' (h.error hrun))

/-- A sequence goes on where its first part returns. -/
theorem bind {f : α → Method σ β} (hx : Ends P Q x s) (hf : ∀ a s', Q a s' → Ends P R (f a) s') :
    Ends P R (x >>= f) s := by
  cases hrun : x s with
  | ok a s' =>
    rw [Ends, bind_of_ok hrun]
    exact hf a s' (hx.ok hrun)
  | error e s' => exact of_error (bind_of_error hrun) (hx.error hrun)

/-- The first part of a sequence may say more about its failures than is asked of the whole. -/
theorem bind_imp {f : α → Method σ β} (hx : Ends P Q x s) (hP : ∀ s', P s' → P' s')
    (hf : ∀ a s', Q a s' → Ends P' R (f a) s') : Ends P' R (x >>= f) s :=
  (hx.imp hP fun _ _ h => h).bind hf

/-- An `Err` that is a value keeps what is known of the state in which it was returned. -/
theorem attempt (hx : Ends P Q x s) :
    Ends P (fun r s' => r.casesOn (fun _ => P s') fun a => Q a s') (attempt x) s := by
  cases hrun : x s with
  | ok a s' => exact of_ok (a := .ok a) (by rw [Method.attempt, hrun]) (hx.ok hrun)
  | error e s' =>
    cases e with
    | err msg => exact of_ok (a := .error msg) (by rw [Method.attempt, hrun]) (hx.error hrun)
    | panic msg =>
      exact of_error (e := .panic msg) (by rw [Method.attempt, hrun]) (hx.error hrun)

/-- Whatever the method does not return, its plan has a result where it returns. -/
theorem of_follows {δ : Type} {plan : Option δ} {Q : δ → α → σ → Prop} (h : Follows plan Q x s) :
    Ends (fun _ => True) (fun a s' => ∃ r, Q r a s') x s := by
  cases hrun : x s with
  | ok a s' =>
    obtain ⟨r, -, hQ⟩ := h.of_ok hrun
    exact of_ok hrun ⟨r, hQ⟩
  | error e s' => exact of_error hrun trivial

section Parts

variable {τ : Type} {t : τ}

/-- A method of the first part guarantees that the second part stays. -/
theorem onFst (h : Ends P Q x s) :
    Ends (fun u => P u.1 ∧ u.2 = t) (fun a u => Q a u.1 ∧ u.2 = t) (Method.onFst x) (s, t) := by
  cases hrun : x s with
  | ok a s' => exact of_ok (onFst_of_ok hrun t) ⟨h.ok hrun, rfl⟩
  | error e s' => exact of_error (onFst_of_error hrun t) ⟨h.error hrun, rfl⟩

/-- A method of the second part guarantees that the first part stays. -/
theorem onSnd (h : Ends P Q x s) :
    Ends (fun u => P u.2 ∧ u.1 = t) (fun a u => Q a u.2 ∧ u.1 = t) (Method.onSnd x) (t, s) := by
  cases hrun : x s with
  | ok a s' => exact of_ok (onSnd_of_ok hrun t) ⟨h.ok hrun, rfl⟩
  | error e s' => exact of_error (onSnd_of_error hrun t) ⟨h.error hrun, rfl⟩

end Parts

/-- The state in which the method leaves `self`. -/
theorem stateAfter (h : Ends P (fun _ => P) x s) : P (x.stateAfter s) := by
  cases hrun : x s with
  | ok a s' => exact stateAfter_of_ok hrun ▸ h.ok hrun
  | error e s' => exact stateAfter_of_error hrun ▸ h.error hrun

end Ends

namespace Stays

variable {I : σ → Prop} {x y : Method σ α}

theorem pure (a : α) : Stays I (pure a : Method σ α) := fun _ h => h

theorem throw (e : Fault) : Stays I (throw e : Method σ α) := fun _ h => h

/-- An invariant of a function is one of the method that applies it. -/
theorem modify {g : σ → σ} (hg : ∀ s, I s → I (g s)) : Stays I (modify g : Method σ PUnit) := hg

/-- An invariant of two methods is one of both, one after the other. -/
theorem bind {f : α → Method σ β} (hx : Stays I x) (hf : ∀ a, Stays I (f a)) :
    Stays I (x >>= f) :=
  fun s h => (hx s h).bind fun a s' h' => hf a s' h'

theorem get_bind {f : σ → Method σ β} (hf : ∀ s, Stays I (f s)) : Stays I (get >>= f) :=
  fun s h => hf s s h

/-- An invariant of both branches is one of the choice. -/
theorem ite {c : Prop} [Decidable c] (hx : c → Stays I x) (hy : ¬c → Stays I y) :
    Stays I (if c then x else y) := by
  split
  case isTrue h => exact hx h
  case isFalse h => exact hy h

/-- An invariant about what the method leaves as it is. -/
theorem of_keeps {γ : Type} {g : σ → γ} (hx : Keeps g x) (hI : ∀ s s', g s' = g s → I s → I s') :
    Stays I x := by
  intro s h
  have hkeep := hx s
  cases hrun : x s with
  | ok a s' => exact Ends.of_ok hrun (hI s s' (stateAfter_of_ok hrun ▸ hkeep) h)
  | error e s' => exact Ends.of_error hrun (hI s s' (stateAfter_of_error hrun ▸ hkeep) h)

/-- A loop whose test keeps the invariant. -/
theorem whileTrue {test : Method σ Bool} (h : Stays I test) (rounds : ℕ) :
    Stays I (Method.whileTrue test rounds) := by
  induction rounds with
  | zero => exact Stays.pure false
  | succ rounds ih => exact h.bind fun _ => Stays.ite (fun _ => ih) fun _ => Stays.pure true

/-- What is returned does not matter to what follows. -/
theorem bind_ends {P : σ → Prop} {R : β → σ → Prop} {f : α → Method σ β} {s : σ} (hx : Stays I x)
    (h : I s) (hP : ∀ s', I s' → P s') (hf : ∀ a s', I s' → Ends P R (f a) s') :
    Ends P R (x >>= f) s :=
  (hx s h).bind_imp hP hf

/-- After every run the invariant holds. -/
theorem stateAfter {s : σ} (hx : Stays I x) (h : I s) : I (x.stateAfter s) := (hx s h).stateAfter

end Stays

end Mushix.Method
