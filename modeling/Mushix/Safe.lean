import Mushix.Result

/-!
# Methods that do not panic

`Method.Safe I x` says that the invariant `I` keeps `x` from panicking and that `x` keeps the
invariant, and its rules follow the way methods are put together. `Method.Returns` is the same for
a method that returns a value from a given state, and `Method.Keeps f x` says that `x` leaves what
`f` sees of the state as it is, however it ends. `Method.Follows plan Q x` compares `x` with a plan
that may fail: `x` returns exactly when the plan has a result.
-/

namespace Mushix.Method

variable {σ α β : Type}

/-- From a state with the invariant the method returns a value or `Err`, and never panics. It
leaves a state with the invariant. -/
def Safe (I : σ → Prop) (x : Method σ α) : Prop :=
  ∀ s, I s → (∃ a s', x s = .ok a s' ∧ I s') ∨ ∃ msg s', x s = .error (.err msg) s' ∧ I s'

/-- From the state `s` the method returns a value, in a state with the condition `Q`. -/
def Returns (Q : α → σ → Prop) (x : Method σ α) (s : σ) : Prop := ∃ a s', x s = .ok a s' ∧ Q a s'

namespace Safe

variable {I : σ → Prop}

theorem pure (a : α) : Safe I (pure a : Method σ α) :=
  fun s h => .inl ⟨a, s, rfl, h⟩

/-- An error is safe, since it is no panic. -/
theorem throw (msg : String) : Safe I (throw (.err msg) : Method σ α) :=
  fun s h => .inr ⟨msg, s, rfl, h⟩

/-- A method that returns a value is safe when it keeps the invariant. -/
theorem of_returns {x : Method σ α} (hx : ∀ s, I s → Returns (fun _ => I) x s) : Safe I x :=
  fun s h => .inl (hx s h)

theorem get : Safe I (get : Method σ σ) :=
  fun s h => .inl ⟨s, s, rfl, h⟩

/-- A function that keeps the invariant is safe. -/
theorem modify {g : σ → σ} (hg : ∀ s, I s → I (g s)) : Safe I (modify g : Method σ PUnit) :=
  fun s h => .inl ⟨⟨⟩, g s, rfl, hg s h⟩

/-- A sequence is safe when its first part is, and its second part for all that the first part
can return. -/
theorem bind_of_result {x : Method σ α} {f : α → Method σ β} (hx : Safe I x)
    (hf : ∀ a, (∃ s s', x s = .ok a s') → Safe I (f a)) : Safe I (x >>= f) := by
  intro s h
  rcases hx s h with ⟨a, s', hrun, h'⟩ | ⟨msg, s', hrun, h'⟩
  · rw [bind_of_ok hrun]
    exact hf a ⟨s, s', hrun⟩ s' h'
  · rw [bind_of_error hrun]
    exact .inr ⟨msg, s', rfl, h'⟩

theorem bind {x : Method σ α} {f : α → Method σ β} (hx : Safe I x) (hf : ∀ a, Safe I (f a)) :
    Safe I (x >>= f) :=
  bind_of_result hx fun a _ => hf a

theorem ite {c : Prop} [Decidable c] {x y : Method σ α} (hx : c → Safe I x) (hy : ¬c → Safe I y) :
    Safe I (if c then x else y) := by
  split
  case isTrue h => exact hx h
  case isFalse h => exact hy h

/-- A safe method does not panic. -/
theorem ne_panic {x : Method σ α} (hx : Safe I x) {s s' : σ} (h : I s) (msg : String) :
    x s ≠ .error (.panic msg) s' := by
  rcases hx s h with ⟨a, t, hrun, -⟩ | ⟨msg', t, hrun, -⟩ <;> simp [hrun]

end Safe

namespace Returns

/-- A sequence goes on where its first part returns. -/
theorem bind {x : Method σ α} {f : α → Method σ β} {Q : α → σ → Prop} {R : β → σ → Prop} {s : σ}
    (hx : Returns Q x s) (hf : ∀ a s', Q a s' → Returns R (f a) s') : Returns R (x >>= f) s := by
  obtain ⟨a, s', hrun, hQ⟩ := hx
  rw [Returns, bind_of_ok hrun]
  exact hf a s' hQ

theorem pure {a : α} {Q : α → σ → Prop} {s : σ} (h : Q a s) :
    Returns Q (pure a : Method σ α) s :=
  ⟨a, s, rfl, h⟩

theorem imp {x : Method σ α} {Q R : α → σ → Prop} {s : σ} (hx : Returns Q x s)
    (hQR : ∀ a s', Q a s' → R a s') : Returns R x s := by
  obtain ⟨a, s', hrun, hQ⟩ := hx
  exact ⟨a, s', hrun, hQR a s' hQ⟩

end Returns

/-- From the state `s` the method does what the plan says: it ends without a value where the plan
fails, and returns where the plan has a result, with `Q` between the two. -/
def Follows {δ : Type} (plan : Option δ) (Q : δ → α → σ → Prop) (x : Method σ α) (s : σ) : Prop :=
  match plan with
  | none => ∃ e s', x s = .error e s'
  | some r => Returns (Q r) x s

namespace Follows

variable {γ δ : Type} {plan : Option δ} {Q : δ → α → σ → Prop} {s s' : σ}

/-- A method and its plan go on together. -/
theorem bind {next : δ → Option γ} {x : Method σ α} {f : α → Method σ β} {R : γ → β → σ → Prop}
    (hx : Follows plan Q x s) (hf : ∀ r a s', Q r a s' → Follows (next r) R (f a) s') :
    Follows (plan >>= next) R (x >>= f) s := by
  cases plan with
  | none =>
    obtain ⟨e, s', hrun⟩ := hx
    exact ⟨e, s', bind_of_error hrun⟩
  | some r =>
    obtain ⟨a, s', hrun, hQ⟩ := hx
    have hnext := hf r a s' hQ
    show Follows (next r) R (x >>= f) s
    simpa only [Follows, Returns, bind_of_ok hrun] using hnext

/-- A method may go on when its plan is done. -/
theorem bind_returns {x : Method σ α} {f : α → Method σ β} {R : δ → β → σ → Prop}
    (hx : Follows plan Q x s) (hf : ∀ r a s', Q r a s' → Returns (R r) (f a) s') :
    Follows plan R (x >>= f) s := by
  cases plan with
  | none =>
    obtain ⟨e, s', hrun⟩ := hx
    exact ⟨e, s', bind_of_error hrun⟩
  | some r => exact Returns.bind hx fun a s' hQ => hf r a s' hQ

/-- A method may begin before its plan does. -/
theorem returns_bind {x : Method σ α} {f : α → Method σ β} {P : α → σ → Prop}
    {R : δ → β → σ → Prop} (hx : Returns P x s)
    (hf : ∀ a s', P a s' → Follows plan R (f a) s') : Follows plan R (x >>= f) s := by
  obtain ⟨a, s', hrun, hP⟩ := hx
  have hrest := hf a s' hP
  simpa only [Follows, Returns, bind_of_ok hrun] using hrest

/-- A plan may go on when its method is done. -/
theorem map {x : Method σ α} {g : δ → γ} {R : γ → α → σ → Prop} (hx : Follows plan Q x s)
    (hQR : ∀ r a s', Q r a s' → R (g r) a s') :
    Follows (plan >>= fun r => some (g r)) R x s := by
  cases plan with
  | none => exact hx
  | some r => exact Returns.imp hx (hQR r)

theorem imp {x : Method σ α} {R : δ → α → σ → Prop} (hx : Follows plan Q x s)
    (hQR : ∀ r a s', Q r a s' → R r a s') : Follows plan R x s := by
  cases plan with
  | none => exact hx
  | some r => exact Returns.imp hx (hQR r)

/-- What may be missing is its own plan. -/
theorem ofOption (e : Fault) (o : Option α) (s : σ) :
    Follows o (fun r a s' => o = some r ∧ r = a ∧ s = s') (Method.ofOption e o) s := by
  cases o with
  | none => exact ⟨e, s, rfl⟩
  | some a => exact ⟨a, s, rfl, rfl, rfl, rfl⟩

/-- Where the method returns, the plan has a result. -/
theorem of_ok {x : Method σ α} {a : α} (hx : Follows plan Q x s) (hrun : x s = .ok a s') :
    ∃ r, plan = some r ∧ Q r a s' := by
  cases plan with
  | none =>
    obtain ⟨e, t, hrun'⟩ := hx
    rw [hrun] at hrun'
    cases hrun'
  | some r =>
    obtain ⟨b, t, hrun', hQ⟩ := hx
    rw [hrun] at hrun'
    cases hrun'
    exact ⟨r, rfl, hQ⟩

/-- A method on the first part of a state leaves the second part as it is. -/
theorem onFst {τ : Type} {x : Method σ α} (hx : Follows plan Q x s) (t : τ) :
    Follows plan (fun r a u => Q r a u.1 ∧ u.2 = t) (Method.onFst x) (s, t) := by
  cases plan with
  | none =>
    obtain ⟨e, s', hrun⟩ := hx
    exact ⟨e, (s', t), by simp only [Method.onFst, hrun]⟩
  | some r =>
    obtain ⟨a, s', hrun, hQ⟩ := hx
    exact ⟨a, (s', t), by simp only [Method.onFst, hrun], hQ, rfl⟩

/-- Where the plan has a result, the method returns. -/
theorem returns {x : Method σ α} {r : δ} (hx : Follows plan Q x s) (hplan : plan = some r) :
    Returns (Q r) x s := by
  subst hplan
  exact hx

end Follows

/-- From the state `s` the method returns, with `Q`, exactly when `c` holds. -/
structure ReturnsIff (c : Prop) (Q : α → σ → Prop) (x : Method σ α) (s : σ) : Prop where
  returns : c → Returns Q x s
  fails : ¬c → ∃ e s', x s = .error e s'

namespace ReturnsIff

variable {c d : Prop} {Q : α → σ → Prop} {s s' : σ}

theorem of_returns {x : Method σ α} (hc : c) (hx : Returns Q x s) : ReturnsIff c Q x s :=
  ⟨fun _ => hx, fun h => absurd hc h⟩

theorem of_run_eq {x y : Method σ α} (h : x s = y s') (hy : ReturnsIff c Q y s') :
    ReturnsIff c Q x s := by
  constructor
  · intro hc
    simpa only [Returns, h] using hy.returns hc
  · intro hc
    simpa only [h] using hy.fails hc

theorem congr {x : Method σ α} (hx : ReturnsIff c Q x s) (h : c ↔ d) : ReturnsIff d Q x s :=
  propext h ▸ hx

/-- A sequence returns exactly when both parts do. -/
theorem bind {x : Method σ α} {f : α → Method σ β} {R : β → σ → Prop} (hx : ReturnsIff c Q x s)
    (hf : ∀ a s', Q a s' → ReturnsIff d R (f a) s') : ReturnsIff (c ∧ d) R (x >>= f) s := by
  by_cases hc : c
  · obtain ⟨a, s', hrun, hQ⟩ := hx.returns hc
    have hrest := hf a s' hQ
    constructor
    · rintro ⟨-, hd⟩
      simpa only [Returns, bind_of_ok hrun] using hrest.returns hd
    · intro h
      simpa only [bind_of_ok hrun] using hrest.fails fun hd => h ⟨hc, hd⟩
  · obtain ⟨e, s', hrun⟩ := hx.fails hc
    exact ⟨fun h => absurd h.1 hc, fun _ => ⟨e, s', bind_of_error hrun⟩⟩

theorem imp {x : Method σ α} {R : α → σ → Prop} (hx : ReturnsIff c Q x s)
    (hQR : ∀ a s', Q a s' → R a s') : ReturnsIff c R x s :=
  ⟨fun hc => (hx.returns hc).imp hQR, hx.fails⟩

/-- What follows may be sure to return. -/
theorem bind_returns {x : Method σ α} {f : α → Method σ β} {R : β → σ → Prop}
    (hx : ReturnsIff c Q x s) (hf : ∀ a s', Q a s' → Returns R (f a) s') :
    ReturnsIff c R (x >>= f) s :=
  (hx.bind fun a s' hQ => of_returns trivial (hf a s' hQ)).congr (and_iff_left trivial)

/-- A call with `?` returns exactly when its result is `Ok`. -/
theorem ofResult (r : Except String α) (s : σ) :
    ReturnsIff r.isOk (fun a s' => r = .ok a ∧ s' = s) (Method.ofResult r) s := by
  cases r with
  | ok a => exact of_returns rfl ⟨a, s, rfl, rfl, rfl⟩
  | error msg => exact ⟨fun h => absurd h Bool.false_ne_true, fun _ => ⟨.err msg, s, rfl⟩⟩

end ReturnsIff

/-- However the method ends, `f` sees the same. -/
def Keeps {γ : Type} (f : σ → γ) (x : Method σ α) : Prop := ∀ s, f (x.stateAfter s) = f s

namespace Keeps

variable {γ : Type} {g : σ → γ}

theorem pure (a : α) : Keeps g (pure a : Method σ α) := fun _ => rfl

theorem get_bind {f : σ → Method σ β} (hf : ∀ s, Keeps g (f s)) : Keeps g (get >>= f) :=
  fun s => hf s s

theorem ite {c : Prop} [Decidable c] {x y : Method σ α} (hx : c → Keeps g x)
    (hy : ¬c → Keeps g y) : Keeps g (if c then x else y) := by
  split
  case isTrue h => exact hx h
  case isFalse h => exact hy h

/-- Only the first part of a sequence matters when the second one is not seen. -/
theorem stateAfter_bind {x : Method σ α} {f : α → Method σ β} (hf : ∀ a, Keeps g (f a)) (s : σ) :
    g ((x >>= f).stateAfter s) = g (x.stateAfter s) := by
  cases hrun : x s with
  | ok a s' => rw [stateAfter_bind_of_ok hrun, stateAfter_of_ok hrun, hf a s']
  | error e s' => rw [stateAfter_of_error hrun, stateAfter_of_error (bind_of_error hrun)]

theorem bind {x : Method σ α} {f : α → Method σ β} (hx : Keeps g x) (hf : ∀ a, Keeps g (f a)) :
    Keeps g (x >>= f) :=
  fun s => (stateAfter_bind hf s).trans (hx s)

end Keeps

/-- What a method that returns leaves as it is. -/
theorem Returns.and_keeps {γ : Type} {g : σ → γ} {x : Method σ α} {Q : α → σ → Prop} {s : σ}
    (hx : Returns Q x s) (hg : Keeps g x) : Returns (fun a s' => Q a s' ∧ g s' = g s) x s := by
  obtain ⟨a, s', hrun, hQ⟩ := hx
  have hkeep := hg s
  rw [stateAfter_of_ok hrun] at hkeep
  exact ⟨a, s', hrun, hQ, hkeep⟩

end Mushix.Method
