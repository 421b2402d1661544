import Mathlib.Logic.Function.Basic
import Mushix.Lib.Run
import Mushix.Loop

/-!
# The mutex

`Mutex<T>` (`mutex.rs`) is a flag beside the data. `try_lock` takes the flag by one
compare-and-exchange, `lock` tries 10000 times and panics, and the guard that they return clears
the flag when it is dropped.

* `Mutex.lock`: the call, where nothing else runs between its tries;
* `Contexts.step`: one step of one of many contexts of execution, which run in any order. A try of
  `lock`, an access to the data through a guard and a drop of a guard are one step each;
* `Contexts.serializable`: every run is a run in which each critical section is one step;
* `Contexts.reentrant_lock_panics`: a context that locks the mutex it holds stops itself and all
  others.
-/

namespace Mushix

/-- `Location`, as far as the mutex keeps it. -/
structure Location where
  file : String
  line : UInt32
  deriving DecidableEq, Repr

/-- A `Mutex<T>` is a flag and the data that it protects. -/
structure Mutex (T : Type) where
  data : T
  isTaken : Bool
  takerLineNum : UInt32
  createdAtFile : String
  createdAtLine : UInt32
  deriving DecidableEq, Repr

namespace Mutex

variable {T : Type}

/-- A new mutex is free. -/
def new (location : Location) (data : T) : Mutex T where
  data := data
  isTaken := false
  takerLineNum := 0
  createdAtFile := location.file
  createdAtLine := location.line

/-- `compare_exchange` sets the flag where it has the expected value, and says whether it did. -/
def compareExchange (current new : Bool) : Method (Mutex T) Bool := do
  if (← get).isTaken = current then
    modify fun m => { m with isTaken := new }
    return true
  else
    return false

/-- `try_lock` takes a free mutex, and fails on one that is taken. -/
def tryLock : Method (Mutex T) Unit := do
  if ← compareExchange false true then
    return ()
  else
    throw (.err "Lock faiilsd")

/-- The text of the panic in `lock`; `caller` is the `Debug` text of `Location::caller()`. -/
def lockFailed (caller : String) (m : Mutex T) : String :=
  "Failed to lock mutecx at " ++ m.createdAtFile ++ ":" ++ toString m.createdAtLine ++
    ", Caller: " ++ caller ++ ", taker_line_num: " ++ toString m.takerLineNum

/-- The number of tries in `lock`. -/
def maxTries : ℕ := 10000

/-- The loop of `lock`, of which `tries` rounds are left, and the panic behind it. -/
def lockLoop (caller : String) : ℕ → Method (Mutex T) Unit
  | 0 => do throw (.panic (lockFailed caller (← get)))
  | tries + 1 => do
    match ← Method.attempt tryLock with
    | .ok () => return ()
    | .error _ => lockLoop caller tries

/-- `lock` tries again and again, and panics when it has tried too often. -/
def lock (caller : String) : Method (Mutex T) Unit := lockLoop caller maxTries

/-- A guard that is dropped clears the flag, whoever has set it. -/
def unlock : Method (Mutex T) Unit := modify fun m => { m with isTaken := false }

/-- `under_locked`: the guard is dropped whatever `f` returns, but not when it panics. -/
def underLocked {R : Type} (caller : String) (f : Method T R) : Method (Mutex T) R := do
  lock caller
  let result ← Method.attempt (fun m =>
    match f m.data with
    | .ok r data => .ok r { m with data }
    | .error e data => .error e { m with data })
  unlock
  Method.ofResult result

theorem tryLock_of_free {m : Mutex T} (h : m.isTaken = false) :
    tryLock m = .ok () { m with isTaken := true } := by
  have hexchange : compareExchange false true m = .ok true { m with isTaken := true } := by
    rw [compareExchange, Method.run_get_bind, if_pos h]
    rfl
  rw [tryLock, Method.bind_of_ok hexchange]
  rfl

theorem tryLock_of_taken {m : Mutex T} (h : m.isTaken = true) :
    tryLock m = .error (.err "Lock faiilsd") m := by
  have hexchange : compareExchange false true m = .ok false m := by
    rw [compareExchange, Method.run_get_bind, if_neg (by simp [h])]
    rfl
  rw [tryLock, Method.bind_of_ok hexchange]
  rfl

/-- Where nothing else runs, the first try decides: a free mutex is taken. -/
theorem lock_of_free {m : Mutex T} (caller : String) (h : m.isTaken = false) :
    lock caller m = .ok () { m with isTaken := true } := by
  have htry : Method.attempt tryLock m = .ok (.ok ()) { m with isTaken := true } := by
    rw [Method.attempt, tryLock_of_free h]
  rw [lock, maxTries, lockLoop, Method.bind_of_ok htry]
  rfl

/-- Where nothing else runs, a mutex that is taken stays so until `lock` panics. -/
theorem lock_of_taken {m : Mutex T} (caller : String) (h : m.isTaken = true) :
    lock caller m = .error (.panic (lockFailed caller m)) m := by
  have htry : Method.attempt tryLock m = .ok (.error "Lock faiilsd") m := by
    rw [Method.attempt, tryLock_of_taken h]
  rw [lock]
  generalize maxTries = tries
  induction tries with
  | zero => rfl
  | succ tries ih =>
    rw [lockLoop, Method.bind_of_ok htry]
    exact ih

/-- Where nothing else runs, `under_locked` on a free mutex calls `f` on the data and leaves the
mutex free, whether `f` returns `Ok` or `Err`. -/
theorem underLocked_of_free {R : Type} {m : Mutex T} {f : Method T R} {r : Except String R}
    {data : T} (caller : String) (h : m.isTaken = false)
    (hf : Method.attempt f m.data = .ok r data) :
    underLocked caller f m = Method.ofResult r { m with data } := by
  unfold underLocked
  rw [Method.bind_of_ok (lock_of_free caller h)]
  unfold Method.attempt at hf ⊢
  dsimp only
  cases hrun : f m.data with
  | ok a data' =>
    rw [hrun] at hf
    cases hf
    simp [bind, EStateM.bind, hrun, unlock, h]
  | error e data' =>
    cases e with
    | err msg =>
      rw [hrun] at hf
      cases hf
      simp [bind, EStateM.bind, hrun, unlock, h]
    | panic msg =>
      rw [hrun] at hf
      cases hf

end Mutex

/-! ## Contexts of execution -/

/-- What the code of a context does with one mutex; `L` is the type of its local variables. -/
inductive Instr (T L : Type) where
  /-- A call of `lock`. -/
  | lock (caller : String)
  /-- An access to the data through the guard. -/
  | access (f : L → T → L × T)
  /-- The drop of the guard. -/
  | drop

/-- The borrow checker's view of code that starts with `n` guards: the data is accessed and a
guard is dropped only where there is a guard. -/
def Scoped {T L : Type} : ℕ → List (Instr T L) → Prop
  | _, [] => True
  | n, .lock _ :: code => Scoped (n + 1) code
  | n, .access _ :: code => 0 < n ∧ Scoped n code
  | n, .drop :: code => 0 < n ∧ Scoped (n - 1) code

/-- The code of a context, which starts without a guard. -/
structure Program (T L : Type) where
  code : List (Instr T L)
  wellScoped : Scoped 0 code

/-- A call of `under_locked`, whose `f` accesses the data by `fs`, and what comes behind it. -/
def Program.underLocked {T L : Type} (caller : String) (fs : List (L → T → L × T))
    (program : Program T L) : Program T L where
  code := .lock caller :: (fs.map .access ++ .drop :: program.code)
  wellScoped := by
    show Scoped 1 _
    induction fs with
    | nil => exact ⟨Nat.one_pos, program.wellScoped⟩
    | cons f fs ih => exact ⟨Nat.one_pos, ih⟩

/-- One context of execution. -/
structure Context (T L : Type) where
  locals : L
  /-- The guards that live. -/
  guards : ℕ
  /-- The tries of the present call of `lock` that have failed. -/
  tries : ℕ
  /-- The panic that ended it. -/
  panicked : Option String
  /-- What is left of its code. -/
  code : List (Instr T L)

/-- A mutex and the contexts that use it. -/
structure Contexts (ι T L : Type) where
  mutex : Mutex T
  contexts : ι → Context T L

namespace Contexts

variable {ι T L : Type} [DecidableEq ι]

/-- The mutex and one context change. -/
def set (s : Contexts ι T L) (i : ι) (m : Mutex T) (c : Context T L) : Contexts ι T L where
  mutex := m
  contexts := Function.update s.contexts i c

/-- One step of the context `i`. -/
def step (i : ι) (s : Contexts ι T L) : Contexts ι T L :=
  let c := s.contexts i
  if c.panicked.isSome then
    s
  else
    match c.code with
    | [] => s
    | .lock caller :: code =>
      match Mutex.tryLock s.mutex with
      | .ok _ m => s.set i m { c with guards := c.guards + 1, tries := 0, code }
      | .error _ m =>
        -- the loop of `lock` goes round, or has ended without a guard
        if c.tries + 1 < Mutex.maxTries then
          s.set i m { c with tries := c.tries + 1 }
        else
          s.set i m { c with tries := c.tries + 1, panicked := some (Mutex.lockFailed caller m) }
    | .access f :: code =>
      let (locals, data) := f c.locals s.mutex.data
      s.set i { s.mutex with data } { c with locals, code }
    | .drop :: code =>
      s.set i (Method.stateAfter Mutex.unlock s.mutex) { c with guards := c.guards - 1, code }

/-- The contexts before their first steps. -/
def start (m : Mutex T) (locals : ι → L) (program : ι → Program T L) : Contexts ι T L where
  mutex := m
  contexts i :=
    { locals := locals i, guards := 0, tries := 0, panicked := none, code := (program i).code }

/-- The next step of the context `i` drops a guard. -/
def drops (i : ι) (s : Contexts ι T L) : Bool :=
  (s.contexts i).panicked.isNone &&
    match (s.contexts i).code with
    | .drop :: _ => true
    | _ => false

/-- What a step of the context `i` can do. -/
inductive Moves (s : Contexts ι T L) (i : ι) : Contexts ι T L → Prop where
  | rest (h : (s.contexts i).panicked.isSome ∨ (s.contexts i).code = []) : Moves s i s
  | taken {caller : String} {code : List (Instr T L)}
      (hrunning : (s.contexts i).panicked = none)
      (hcode : (s.contexts i).code = .lock caller :: code) (hfree : s.mutex.isTaken = false) :
      Moves s i (s.set i { s.mutex with isTaken := true }
        { s.contexts i with guards := (s.contexts i).guards + 1, tries := 0, code })
  | failed {caller : String} {code : List (Instr T L)}
      (hrunning : (s.contexts i).panicked = none)
      (hcode : (s.contexts i).code = .lock caller :: code) (htaken : s.mutex.isTaken = true)
      (hlt : (s.contexts i).tries + 1 < Mutex.maxTries) :
      Moves s i (s.set i s.mutex { s.contexts i with tries := (s.contexts i).tries + 1 })
  | panics {caller : String} {code : List (Instr T L)}
      (hrunning : (s.contexts i).panicked = none)
      (hcode : (s.contexts i).code = .lock caller :: code) (htaken : s.mutex.isTaken = true)
      (hge : Mutex.maxTries ≤ (s.contexts i).tries + 1) :
      Moves s i (s.set i s.mutex { s.contexts i with
        tries := (s.contexts i).tries + 1
        panicked := some (Mutex.lockFailed caller s.mutex) })
  | accessed {f : L → T → L × T} {code : List (Instr T L)}
      (hrunning : (s.contexts i).panicked = none)
      (hcode : (s.contexts i).code = .access f :: code) :
      Moves s i (s.set i { s.mutex with data := (f (s.contexts i).locals s.mutex.data).2 }
        { s.contexts i with locals := (f (s.contexts i).locals s.mutex.data).1, code })
  | dropped {code : List (Instr T L)} (hrunning : (s.contexts i).panicked = none)
      (hcode : (s.contexts i).code = .drop :: code) :
      Moves s i (s.set i { s.mutex with isTaken := false }
        { s.contexts i with guards := (s.contexts i).guards - 1, code })

/-- Every step of a context is one of these moves. -/
theorem moves_step (s : Contexts ι T L) (i : ι) : Moves s i (step i s) := by
  unfold step
  by_cases hpanicked : (s.contexts i).panicked.isSome
  · simpa [hpanicked] using Moves.rest (.inl hpanicked)
  have hrunning := Option.not_isSome_iff_eq_none.1 hpanicked
  rw [if_neg hpanicked]
  cases hcode : (s.contexts i).code with
  | nil => exact .rest (.inr hcode)
  | cons instr code =>
    cases instr with
    | lock caller =>
      cases htaken : s.mutex.isTaken with
      | false =>
        simp only [Mutex.tryLock_of_free htaken]
        exact .taken hrunning hcode htaken
      | true =>
        simp only [Mutex.tryLock_of_taken htaken]
        split
        next hlt => simpa only [hcode] using Moves.failed hrunning hcode htaken hlt
        next hge =>
          simpa only [hcode] using Moves.panics hrunning hcode htaken (Nat.le_of_not_lt hge)
    | access f => exact .accessed hrunning hcode
    | drop => exact .dropped hrunning hcode

/-! ## Mutual exclusion -/

section Set

variable (s : Contexts ι T L) (i j : ι) (m : Mutex T) (c : Context T L)

@[simp]
theorem mutex_set : (s.set i m c).mutex = m := rfl

@[simp]
theorem contexts_set_self : (s.set i m c).contexts i = c := Function.update_self ..

theorem contexts_set_of_ne {i j : ι} (h : j ≠ i) : (s.set i m c).contexts j = s.contexts j :=
  Function.update_of_ne h ..

/-- A property of every context, where one context changes. -/
theorem forall_contexts_set {P : ι → Context T L → Prop} {s : Contexts ι T L} {i : ι}
    {m : Mutex T} {c : Context T L} (hi : P i c) (h : ∀ j ≠ i, P j (s.contexts j)) (j : ι) :
    P j ((s.set i m c).contexts j) := by
  by_cases hj : j = i
  · subst hj
    rwa [contexts_set_self]
  · rw [contexts_set_of_ne s m c hj]
    exact h j hj

end Set

/-- The mutex is taken exactly while `owner` has a guard, and it has one guard. -/
structure HeldBy (owner : Option ι) (s : Contexts ι T L) : Prop where
  flag : s.mutex.isTaken = owner.isSome
  guards : ∀ i, (s.contexts i).guards = if owner = some i then 1 else 0

/-- What the borrow checker and the bound of the loop in `lock` promise of one context. -/
structure WellFormed (c : Context T L) : Prop where
  wellScoped : Scoped c.guards c.code
  tries : c.panicked = none → c.tries < Mutex.maxTries

/-- The invariant of all runs. -/
structure Inv (owner : Option ι) (s : Contexts ι T L) : Prop extends HeldBy owner s where
  wellFormed : ∀ i, WellFormed (s.contexts i)

namespace Inv

variable {owner : Option ι} {s : Contexts ι T L} {i : ι}

/-- A context without the mutex has no guard. -/
theorem guards_eq_zero (h : Inv owner s) (hne : owner ≠ some i) : (s.contexts i).guards = 0 := by
  rw [h.guards, if_neg hne]

theorem owner_of_guards (h : Inv owner s) (hpos : 0 < (s.contexts i).guards) :
    owner = some i := by
  by_contra hne
  exact absurd (h.guards_eq_zero hne) (Nat.ne_of_gt hpos)

theorem owner_of_free (h : Inv owner s) (hfree : s.mutex.isTaken = false) : owner = none := by
  rw [h.flag] at hfree
  exact Option.not_isSome_iff_eq_none.1 (by simp [hfree])

/-- A context whose next instruction uses a guard is the owner. -/
theorem owner_of_access (h : Inv owner s) {f : L → T → L × T} {code : List (Instr T L)}
    (hcode : (s.contexts i).code = .access f :: code) :
    owner = some i ∧ Scoped (s.contexts i).guards code := by
  have hscoped := (h.wellFormed i).wellScoped
  rw [hcode] at hscoped
  exact ⟨h.owner_of_guards hscoped.1, hscoped.2⟩

/-- A context that drops a guard has the mutex. -/
theorem owner_of_drop (h : Inv owner s) {code : List (Instr T L)}
    (hcode : (s.contexts i).code = .drop :: code) :
    owner = some i ∧ Scoped ((s.contexts i).guards - 1) code := by
  have hscoped := (h.wellFormed i).wellScoped
  rw [hcode] at hscoped
  exact ⟨h.owner_of_guards hscoped.1, hscoped.2⟩

/-- Code behind a call of `lock` may drop one guard more. -/
theorem scoped_of_lock (h : Inv owner s) {caller : String} {code : List (Instr T L)}
    (hcode : (s.contexts i).code = .lock caller :: code) :
    Scoped ((s.contexts i).guards + 1) code := by
  have hscoped := (h.wellFormed i).wellScoped
  rwa [hcode] at hscoped

/-- A step of a context that leaves the flag and its own guards as they are. -/
theorem set_of_same (h : Inv owner s) {m : Mutex T} {c : Context T L}
    (hflag : m.isTaken = s.mutex.isTaken) (hguards : c.guards = (s.contexts i).guards)
    (hc : WellFormed c) : Inv owner (s.set i m c) where
  flag := hflag.trans h.flag
  guards :=
    forall_contexts_set (P := fun j c => c.guards = if owner = some j then 1 else 0)
      (hguards.trans (h.guards i)) fun j _ => h.guards j
  wellFormed := forall_contexts_set (P := fun _ c => WellFormed c) hc fun j _ => h.wellFormed j

/-- The step in which the context `i` takes the mutex. -/
theorem set_of_taken (h : Inv none s) {m : Mutex T} {c : Context T L}
    (hflag : m.isTaken = true) (hguards : c.guards = (s.contexts i).guards + 1)
    (hc : WellFormed c) : Inv (some i) (s.set i m c) where
  flag := hflag
  guards := by
    refine forall_contexts_set (P := fun j c => c.guards = if some i = some j then 1 else 0) ?_ ?_
    · rw [hguards, h.guards_eq_zero nofun, if_pos rfl]
    · intro j hj
      rw [h.guards_eq_zero nofun, if_neg]
      exact fun heq => hj (Option.some.inj heq).symm
  wellFormed := forall_contexts_set (P := fun _ c => WellFormed c) hc fun j _ => h.wellFormed j

/-- The step in which the owner drops its guard. -/
theorem set_of_dropped (h : Inv (some i) s) {m : Mutex T} {c : Context T L}
    (hflag : m.isTaken = false) (hguards : c.guards = (s.contexts i).guards - 1)
    (hc : WellFormed c) : Inv none (s.set i m c) where
  flag := hflag
  guards := by
    refine forall_contexts_set
      (P := fun j c => c.guards = if (none : Option ι) = some j then 1 else 0) ?_ ?_
    · rw [hguards, h.guards i, if_pos rfl, if_neg nofun]
    · intro j hj
      rw [h.guards_eq_zero (fun heq => hj (Option.some.inj heq).symm), if_neg nofun]
  wellFormed := forall_contexts_set (P := fun _ c => WellFormed c) hc fun j _ => h.wellFormed j

end Inv

/-! ## Critical sections as single steps -/

/-- The accesses of a critical section, one after the other. -/
def accesses (fs : List (L → T → L × T)) (p : L × T) : L × T := fs.foldl (fun p f => f p.1 p.2) p

/-- The accesses up to the drop of the guard, and the code behind it. -/
def criticalSection : List (Instr T L) → Option (List (L → T → L × T) × List (Instr T L))
  | .access f :: code => (criticalSection code).map fun p => (f :: p.1, p.2)
  | .drop :: code => some ([], code)
  | _ => none

/-- What a mutex is for: data that one context at a time changes in one step. -/
structure Atomic (ι T L : Type) where
  data : T
  locals : ι → L
  code : ι → List (Instr T L)

/-- The whole next critical section of the context `i`, in one step. -/
def Atomic.step (i : ι) (a : Atomic ι T L) : Atomic ι T L :=
  match a.code i with
  | .lock _ :: code =>
    match criticalSection code with
    | some (fs, code) =>
      let (locals, data) := accesses fs (a.locals i, a.data)
      { data, locals := Function.update a.locals i locals, code := Function.update a.code i code }
    | none => a
  | _ => a

def Atomic.start (data : T) (locals : ι → L) (program : ι → Program T L) : Atomic ι T L where
  data := data
  locals := locals
  code i := (program i).code

/-- The contexts are where the abstract ones are, except for the owner: it has done a part `fs` of
its critical section. -/
structure Refines (owner : Option ι) (s : Contexts ι T L) (a : Atomic ι T L) : Prop where
  outside : ∀ i, owner ≠ some i →
    (s.contexts i).locals = a.locals i ∧ (s.contexts i).code = a.code i
  free : owner = none → s.mutex.data = a.data
  inside : ∀ i, owner = some i → ∃ caller fs,
    a.code i = .lock caller :: (fs.map .access ++ (s.contexts i).code) ∧
      ((s.contexts i).locals, s.mutex.data) = accesses fs (a.locals i, a.data)

/-- The critical section of code are the accesses in front of the drop. -/
theorem criticalSection_append (fs : List (L → T → L × T)) (code : List (Instr T L)) :
    criticalSection (fs.map .access ++ .drop :: code) = some (fs, code) := by
  induction fs with
  | nil => rfl
  | cons f fs ih => rw [List.map_cons, List.cons_append, criticalSection, ih, Option.map_some]

theorem accesses_concat (fs : List (L → T → L × T)) (f : L → T → L × T) (p : L × T) :
    accesses (fs ++ [f]) p = f (accesses fs p).1 (accesses fs p).2 := by
  rw [accesses, List.foldl_concat]
  rfl

namespace Refines

variable {owner : Option ι} {s : Contexts ι T L} {a : Atomic ι T L} {i : ι}

/-- A step of a context that changes neither its local variables, its code nor the data. -/
theorem set_of_same (h : Refines owner s a) {c : Context T L}
    (hlocals : c.locals = (s.contexts i).locals) (hcode : c.code = (s.contexts i).code) :
    Refines owner (s.set i s.mutex c) a where
  outside :=
    forall_contexts_set
      (P := fun j c => owner ≠ some j → c.locals = a.locals j ∧ c.code = a.code j)
      (by rw [hlocals, hcode]; exact h.outside i) fun j _ => h.outside j
  free := h.free
  inside :=
    forall_contexts_set (P := fun j c => owner = some j → ∃ caller fs,
        a.code j = .lock caller :: (fs.map .access ++ c.code) ∧
          (c.locals, s.mutex.data) = accesses fs (a.locals j, a.data))
      (by rw [hlocals, hcode]; exact h.inside i) fun j _ => h.inside j

/-- The step that takes the mutex begins a critical section. -/
theorem set_of_taken (h : Refines none s a) {caller : String} {code : List (Instr T L)}
    {m : Mutex T} {c : Context T L} (hlock : (s.contexts i).code = .lock caller :: code)
    (hlocals : c.locals = (s.contexts i).locals) (hcode : c.code = code)
    (hdata : m.data = s.mutex.data) : Refines (some i) (s.set i m c) a where
  outside := by
    intro j hj
    rw [contexts_set_of_ne s m c fun heq => hj (congrArg some heq.symm)]
    exact h.outside j nofun
  free := nofun
  inside := by
    rintro j heq
    cases heq
    obtain ⟨hsame, hsameCode⟩ := h.outside i nofun
    refine ⟨caller, [], ?_, ?_⟩
    · rw [contexts_set_self, hcode, ← hsameCode, hlock]
      rfl
    · rw [contexts_set_self, hlocals, hsame, mutex_set, hdata, h.free rfl]
      rfl

/-- An access of the owner is one more access of its critical section. -/
theorem set_of_accessed (h : Refines (some i) s a) {f : L → T → L × T}
    {code : List (Instr T L)} (haccess : (s.contexts i).code = .access f :: code) :
    Refines (some i) (s.set i { s.mutex with data := (f (s.contexts i).locals s.mutex.data).2 }
      { s.contexts i with locals := (f (s.contexts i).locals s.mutex.data).1, code }) a where
  outside := by
    intro j hj
    rw [contexts_set_of_ne s _ _ fun heq => hj (congrArg some heq.symm)]
    exact h.outside j hj
  free := nofun
  inside := by
    rintro j heq
    cases heq
    obtain ⟨caller, fs, hfs, haccesses⟩ := h.inside i rfl
    refine ⟨caller, fs ++ [f], ?_, ?_⟩
    · rw [contexts_set_self, hfs, haccess]
      simp
    · rw [contexts_set_self, accesses_concat, ← haccesses]
      rfl

/-- The drop of the guard is the step of the whole critical section. -/
theorem set_of_dropped (h : Refines (some i) s a) {code : List (Instr T L)} {m : Mutex T}
    {c : Context T L} (hdrop : (s.contexts i).code = .drop :: code)
    (hlocals : c.locals = (s.contexts i).locals) (hcode : c.code = code)
    (hdata : m.data = s.mutex.data) : Refines none (s.set i m c) (a.step i) := by
  obtain ⟨caller, fs, hfs, haccesses⟩ := h.inside i rfl
  rw [hdrop] at hfs
  have hstep : a.step i =
      { data := s.mutex.data
        locals := Function.update a.locals i (s.contexts i).locals
        code := Function.update a.code i code } := by
    simp only [Atomic.step, hfs, criticalSection_append, ← haccesses]
  rw [hstep]
  refine ⟨?_, fun _ => hdata, nofun⟩
  refine forall_contexts_set (P := fun j c => none ≠ some j →
    c.locals = Function.update a.locals i (s.contexts i).locals j ∧
      c.code = Function.update a.code i code j) ?_ ?_
  · intro _
    rw [Function.update_self, Function.update_self]
    exact ⟨hlocals, hcode⟩
  · intro j hj _
    rw [Function.update_of_ne hj, Function.update_of_ne hj]
    exact h.outside j fun heq => hj (Option.some.inj heq).symm

end Refines

/-- The invariant and the refinement hold for some owner. -/
def Follows (s : Contexts ι T L) (a : Atomic ι T L) : Prop :=
  ∃ owner, Inv owner s ∧ Refines owner s a

/-- At the start nothing has happened in either system. -/
theorem follows_start (m : Mutex T) (hfree : m.isTaken = false) (locals : ι → L)
    (program : ι → Program T L) :
    Follows (start m locals program) (Atomic.start m.data locals program) := by
  refine ⟨none, ⟨⟨hfree, fun _ => rfl⟩, fun i => ⟨(program i).wellScoped, fun _ => ?_⟩⟩, ?_⟩
  · exact Nat.succ_pos 9999
  · exact ⟨fun _ _ => ⟨rfl, rfl⟩, fun _ => rfl, nofun⟩

/-- A step of a context that drops its guard is the step of its whole critical section, and every
other step is no step of the abstract contexts. -/
theorem Follows.step {s : Contexts ι T L} {a : Atomic ι T L} (i : ι) (h : Follows s a) :
    Follows (step i s) (if drops i s then a.step i else a) := by
  obtain ⟨owner, hinv, hrefines⟩ := h
  have hwell := hinv.wellFormed i
  unfold drops
  have hmoves := moves_step s i
  generalize Contexts.step i s = s' at hmoves
  cases hmoves with
  | rest hrest =>
    have hrests : ¬((s.contexts i).panicked = none ∧ (s.contexts i).code ≠ []) := by
      rcases hrest with hsome | hnil
      · exact fun h => absurd (h.1 ▸ hsome) Bool.noConfusion
      · exact fun h => h.2 hnil
    rw [if_neg fun hdrops => hrests ?_]
    · exact ⟨owner, hinv, hrefines⟩
    · rw [Bool.and_eq_true, Option.isNone_iff_eq_none] at hdrops
      exact ⟨hdrops.1, fun hnil => by simp [hnil] at hdrops⟩
  | taken _ hcode hfree =>
    -- nobody had the mutex, so that this context gets it
    cases hinv.owner_of_free hfree
    rw [hcode, if_neg (by simp)]
    refine ⟨some i, hinv.set_of_taken rfl rfl ⟨hinv.scoped_of_lock hcode, fun _ => ?_⟩,
      hrefines.set_of_taken hcode rfl rfl rfl⟩
    exact Nat.succ_pos 9999
  | failed _ hcode _ hlt =>
    rw [hcode, if_neg (by simp)]
    exact ⟨owner, hinv.set_of_same rfl rfl ⟨hwell.wellScoped, fun _ => hlt⟩,
      hrefines.set_of_same rfl rfl⟩
  | panics _ hcode =>
    rw [hcode, if_neg (by simp)]
    exact ⟨owner, hinv.set_of_same rfl rfl ⟨hwell.wellScoped, nofun⟩,
      hrefines.set_of_same rfl rfl⟩
  | accessed _ hcode =>
    -- the borrow checker lets only the owner of the guard at the data
    obtain ⟨rfl, hscoped⟩ := hinv.owner_of_access hcode
    rw [hcode, if_neg (by simp)]
    exact ⟨some i, hinv.set_of_same rfl rfl ⟨hscoped, hwell.tries⟩,
      hrefines.set_of_accessed hcode⟩
  | dropped hrunning hcode =>
    rw [hcode, if_pos (by simp [hrunning])]
    -- here the abstract contexts make up for the whole critical section
    obtain ⟨rfl, hscoped⟩ := hinv.owner_of_drop hcode
    exact ⟨none, hinv.set_of_dropped rfl rfl ⟨hscoped, hwell.tries⟩,
      hrefines.set_of_dropped hcode rfl rfl rfl⟩

/-- Along every schedule the contexts follow the atomic system. -/
theorem follows_exec (m : Mutex T) (hfree : m.isTaken = false) (locals : ι → L)
    (program : ι → Program T L) (schedule : List ι) :
    Follows (Run.exec step schedule (start m locals program))
      (Run.exec Atomic.step (Run.visible step drops schedule (start m locals program))
        (Atomic.start m.data locals program)) :=
  Run.exec_visible (fun _ _ i h => h.step i) schedule (follows_start m hfree locals program)

/-- Contexts that run in any order leave the data and their local variables as if each critical
section was one step, in the order in which the guards are dropped along the run. At most one
context has a guard at a time, and what it has done with it is a part of its critical section. -/
theorem serializable (location : Location) (data : T) (locals : ι → L)
    (program : ι → Program T L) (schedule : List ι) :
    let s₀ := start (Mutex.new location data) locals program
    let s := Run.exec step schedule s₀
    ∃ owner : Option ι, HeldBy owner s ∧ Refines owner s
      (Run.exec Atomic.step (Run.visible step drops schedule s₀)
        (Atomic.start data locals program)) := by
  intro s₀ s
  obtain ⟨owner, hinv, hrefines⟩ :=
    follows_exec (Mutex.new location data) rfl locals program schedule
  exact ⟨owner, hinv.toHeldBy, hrefines⟩

/-! ## A lock inside a critical section -/

/-- The mutex is taken and every context stands at a call of `lock` or at its end. -/
structure Stuck (s : Contexts ι T L) : Prop where
  taken : s.mutex.isTaken = true
  code : ∀ i, (s.contexts i).code = [] ∨
    ∃ caller code, (s.contexts i).code = .lock caller :: code

/-- Code without a guard starts with a call of `lock`. -/
theorem lock_of_scoped_zero {code : List (Instr T L)} (h : Scoped 0 code) :
    code = [] ∨ ∃ caller rest, code = .lock caller :: rest := by
  cases code with
  | nil => exact .inl rfl
  | cons instr code =>
    cases instr with
    | lock caller => exact .inr ⟨caller, code, rfl⟩
    | access f => exact absurd h.1 (Nat.lt_irrefl 0)
    | drop => exact absurd h.1 (Nat.lt_irrefl 0)

/-- An owner that stands at a call of `lock` stops all contexts. -/
theorem Inv.stuck {owner : Option ι} {s : Contexts ι T L} {i : ι} (h : Inv owner s)
    {caller : String} {code : List (Instr T L)} (hguards : 0 < (s.contexts i).guards)
    (hcode : (s.contexts i).code = .lock caller :: code) : Stuck s := by
  have howner := h.owner_of_guards hguards
  refine ⟨by rw [h.flag, howner]; rfl, fun j => ?_⟩
  by_cases hj : j = i
  · subst hj
    exact .inr ⟨caller, code, hcode⟩
  · apply lock_of_scoped_zero
    have hother : owner ≠ some j := by
      rw [howner]
      exact fun heq => hj (Option.some.inj heq).symm
    rw [← h.guards_eq_zero hother]
    exact (h.wellFormed j).wellScoped

/-- What `n` further steps of a context do where the mutex stays taken. -/
def spin (m : Mutex T) (n : ℕ) (c : Context T L) : Context T L :=
  match c.panicked, c.code with
  | none, .lock caller :: _ =>
    if c.tries + n < Mutex.maxTries then
      { c with tries := c.tries + n }
    else
      { c with tries := Mutex.maxTries, panicked := some (Mutex.lockFailed caller m) }
  | _, _ => c

section Spin

variable {m : Mutex T} {n : ℕ} {c : Context T L} {caller : String} {code : List (Instr T L)}

/-- A context that waits has tried more often, while it may try again. -/
theorem spin_of_lt (hpanicked : c.panicked = none) (hcode : c.code = .lock caller :: code)
    (hlt : c.tries + n < Mutex.maxTries) : spin m n c = { c with tries := c.tries + n } := by
  simp only [spin, hpanicked, hcode, if_pos hlt]

/-- A context that has tried too often has panicked. -/
theorem spin_of_le (hpanicked : c.panicked = none) (hcode : c.code = .lock caller :: code)
    (hle : Mutex.maxTries ≤ c.tries + n) : spin m n c =
      { c with tries := Mutex.maxTries, panicked := some (Mutex.lockFailed caller m) } := by
  simp only [spin, hpanicked, hcode, if_neg (Nat.not_lt.2 hle)]

/-- A context that has ended stays where it is. -/
theorem spin_of_rest (h : c.panicked.isSome ∨ c.code = []) : spin m n c = c := by
  unfold spin
  rcases h with hsome | hnil
  · obtain ⟨text, htext⟩ := Option.isSome_iff_exists.1 hsome
    rw [htext]
  · cases hpanicked : c.panicked <;> simp [hnil]

/-- Waiting does not change the code that is left. -/
@[simp]
theorem code_spin : (spin m n c).code = c.code := by
  unfold spin
  split
  · split <;> rfl
  · rfl

@[simp]
theorem guards_spin : (spin m n c).guards = c.guards := by
  unfold spin
  split
  · split <;> rfl
  · rfl

/-- A context that waits stays well formed. -/
theorem wellFormed_spin (h : WellFormed c) : WellFormed (spin m n c) := by
  refine ⟨by simpa using h.wellScoped, ?_⟩
  unfold spin
  split
  · split
    · exact fun _ => ‹_›
    · exact nofun
  · exact h.tries

/-- A context that waits for the mutex has panicked after `maxTries` tries. -/
theorem panicked_spin (hpanicked : c.panicked = none) (hcode : c.code = .lock caller :: code) :
    (spin m n c).panicked =
      if c.tries + n < Mutex.maxTries then none else some (Mutex.lockFailed caller m) := by
  split
  next hlt => rw [spin_of_lt hpanicked hcode hlt, hpanicked]
  next hge => rw [spin_of_le hpanicked hcode (Nat.le_of_not_lt hge)]

theorem spin_zero (h : WellFormed c) : spin m 0 c = c := by
  unfold spin
  split
  next caller code hpanicked hcode => exact if_pos (h.tries hpanicked)
  next => rfl

theorem spin_spin (k : ℕ) : spin m n (spin m k c) = spin m (k + n) c := by
  by_cases hwaits : c.panicked = none ∧ ∃ caller code, c.code = .lock caller :: code
  · obtain ⟨hpanicked, caller, code, hcode⟩ := hwaits
    by_cases hlt : c.tries + k < Mutex.maxTries
    · rw [spin_of_lt hpanicked hcode hlt]
      by_cases hlast : c.tries + (k + n) < Mutex.maxTries
      · rw [spin_of_lt hpanicked hcode hlast]
        rw [← Nat.add_assoc] at hlast ⊢
        exact spin_of_lt hpanicked hcode hlast
      · have hle := Nat.le_of_not_lt hlast
        rw [spin_of_le hpanicked hcode hle]
        rw [← Nat.add_assoc] at hle
        exact spin_of_le hpanicked hcode hle
    · have hle := Nat.le_of_not_lt hlt
      rw [spin_of_le hpanicked hcode hle, spin_of_rest (.inl rfl),
        spin_of_le hpanicked hcode (Nat.le_trans hle (by omega))]
  · have hspin : ∀ l, spin m l c = c := by
      intro l
      unfold spin
      split
      next caller code hpanicked hcode => exact absurd ⟨hpanicked, caller, code, hcode⟩ hwaits
      next => rfl
    rw [hspin, hspin, hspin]

end Spin

/-- A step of a context that waits for a mutex that is taken is one more failed try. -/
theorem step_of_taken {s : Contexts ι T L} {i : ι} (htaken : s.mutex.isTaken = true)
    (hcode : (s.contexts i).code = [] ∨ ∃ caller code, (s.contexts i).code = .lock caller :: code)
    (hwell : WellFormed (s.contexts i)) :
    step i s = s.set i s.mutex (spin s.mutex 1 (s.contexts i)) := by
  have hmoves := moves_step s i
  generalize Contexts.step i s = s' at hmoves
  cases hmoves with
  | rest hrest => simp [spin_of_rest hrest, set]
  | taken _ _ hfree => exact absurd (htaken.symm.trans hfree) Bool.noConfusion
  | failed hrunning hcode _ hlt => rw [spin_of_lt hrunning hcode hlt]
  | panics hrunning hcode _ hge =>
    -- the try that fails is the last one
    have hlast := Nat.le_antisymm (hwell.tries hrunning) hge
    rw [spin_of_le hrunning hcode hge, ← hlast]
  | accessed _ haccess => rcases hcode with hnil | ⟨_, _, hlock⟩ <;> simp_all
  | dropped _ hdrop => rcases hcode with hnil | ⟨_, _, hlock⟩ <;> simp_all

/-- A context that runs alone is at the end of its call of `lock` where `Mutex.lock` ends. -/
theorem exec_lock_alone {s : Contexts ι T L} {i : ι} {caller : String} {code : List (Instr T L)}
    (hrunning : (s.contexts i).panicked = none) (htries : (s.contexts i).tries = 0)
    (hwell : WellFormed (s.contexts i)) (hcode : (s.contexts i).code = .lock caller :: code) :
    ∃ n, Run.exec step (List.replicate n i) s =
      match Mutex.lock caller s.mutex with
      | .ok _ m => s.set i m
          { s.contexts i with guards := (s.contexts i).guards + 1, tries := 0, code }
      | .error _ m => s.set i m { s.contexts i with
          tries := Mutex.maxTries, panicked := some (Mutex.lockFailed caller m) } := by
  cases htaken : s.mutex.isTaken with
  | false =>
    -- the first `try_lock` succeeds
    refine ⟨1, ?_⟩
    rw [Mutex.lock_of_free caller htaken]
    show step i s = _
    simp only [step, hrunning, hcode, Mutex.tryLock_of_free htaken]
    rfl
  | true =>
    -- every try fails, and the last one panics
    refine ⟨Mutex.maxTries, ?_⟩
    rw [Mutex.lock_of_taken caller htaken]
    have hspin : ∀ n, Run.exec step (List.replicate n i) s =
        s.set i s.mutex (spin s.mutex n (s.contexts i)) := by
      intro n
      induction n with
      | zero => simp [spin_zero hwell, set]
      | succ n ih =>
        have hnext := step_of_taken
          (s := s.set i s.mutex (spin s.mutex n (s.contexts i))) (i := i) htaken
          (by simp [hcode]) (by simpa using wellFormed_spin hwell)
        rw [List.replicate_succ', Run.exec_append, ih, Run.exec_cons, Run.exec_nil, hnext]
        simp [set, spin_spin]
    rw [hspin, spin_of_le hrunning hcode (by simp [htries])]

namespace Stuck

variable {s : Contexts ι T L}

/-- Contexts that all wait for the mutex go on waiting until each of them has panicked. -/
theorem exec_eq (h : Stuck s) (hwell : ∀ i, WellFormed (s.contexts i)) (later : List ι) :
    (Run.exec step later s).mutex = s.mutex ∧
      ∀ i, (Run.exec step later s).contexts i =
        spin s.mutex (later.count i) (s.contexts i) := by
  induction later generalizing s with
  | nil => exact ⟨rfl, fun i => (spin_zero (hwell i)).symm⟩
  | cons j later ih =>
    -- the context that steps tries once more, the others wait
    have hspin : ∀ i, (step j s).contexts i =
        spin s.mutex (if j = i then 1 else 0) (s.contexts i) := by
      intro i
      rw [step_of_taken h.taken (h.code j) (hwell j)]
      by_cases hi : i = j
      · subst hi
        rw [contexts_set_self, if_pos rfl]
      · rw [contexts_set_of_ne _ _ _ hi, if_neg (Ne.symm hi), spin_zero (hwell i)]
    have hmutex : (step j s).mutex = s.mutex := by
      rw [step_of_taken h.taken (h.code j) (hwell j), mutex_set]
    have hstuck : Stuck (step j s) := by
      refine ⟨by rw [hmutex]; exact h.taken, fun i => ?_⟩
      rw [hspin, code_spin]
      exact h.code i
    obtain ⟨hsame, hlater⟩ :=
      ih hstuck fun i => by rw [hspin]; exact wellFormed_spin (hwell i)
    refine ⟨hsame.trans hmutex, fun i => ?_⟩
    rw [Run.exec_cons, hlater, hmutex, hspin, spin_spin, List.count_cons, Nat.add_comm]
    simp only [beq_iff_eq]

end Stuck

/-- A context that locks the mutex while it holds it never gets it, and neither does any other:
from then on the mutex does not change, no context goes on in its code, and each that waits
panics with its 10000th try. -/
theorem reentrant_lock_panics (location : Location) (data : T) (locals : ι → L)
    (program : ι → Program T L) (schedule later : List ι) (i : ι) (caller : String)
    (code : List (Instr T L)) :
    let s := Run.exec step schedule (start (Mutex.new location data) locals program)
    let t := Run.exec step later s
    0 < (s.contexts i).guards → (s.contexts i).code = .lock caller :: code →
      t.mutex = s.mutex ∧ ∀ j, (t.contexts j).code = (s.contexts j).code ∧
        (t.contexts j).guards = (s.contexts j).guards ∧
        ∀ caller code, (s.contexts j).panicked = none →
          (s.contexts j).code = .lock caller :: code →
          (t.contexts j).panicked =
            if (s.contexts j).tries + later.count j < 10000 then none
            else some (Mutex.lockFailed caller s.mutex) := by
  intro s t hguards hcode
  obtain ⟨owner, hinv, _⟩ :=
    follows_exec (Mutex.new location data) rfl locals program schedule
  -- the owner waits for its own guard, and everyone else for the owner
  obtain ⟨hmutex, hspin⟩ := (hinv.stuck hguards hcode).exec_eq hinv.wellFormed later
  refine ⟨hmutex, fun j => ?_⟩
  rw [hspin j]
  exact ⟨code_spin, guards_spin, fun caller code hrunning hlock => panicked_spin hrunning hlock⟩

/-- A second call of `lock` before the guard of the first one is dropped. -/
def lockTwice : Program ℕ Unit where
  code := [.lock "src/hpet.rs:87:18", .lock "src/hpet.rs:88:6"]
  wellScoped := trivial

theorem reentrant_lock_panics_lockTwice :
    let m := Mutex.new { file := "src/hpet.rs", line := 85 } 7
    let s := Run.exec step [()] (start m (fun _ => ()) fun _ => lockTwice)
    let t := Run.exec step [(), ()] s
    t.mutex = s.mutex ∧ ∀ j, (t.contexts j).code = (s.contexts j).code ∧
      (t.contexts j).guards = (s.contexts j).guards ∧
      ∀ caller code, (s.contexts j).panicked = none →
        (s.contexts j).code = .lock caller :: code →
        (t.contexts j).panicked =
          if (s.contexts j).tries + [(), ()].count j < 10000 then none
          else some (Mutex.lockFailed caller s.mutex) :=
  reentrant_lock_panics _ 7 _ _ [()] [(), ()] () "src/hpet.rs:88:6" [] Nat.one_pos rfl

end Contexts

end Mushix
