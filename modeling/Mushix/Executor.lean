import Mathlib.Data.List.Range
import Mathlib.Data.List.Perm.Basic
import Mushix.Lib.Fifo

/-!
# The executor

`Executor` (`executor.rs`): one queue of tasks behind a global mutex. `run` pops a task, polls
it without holding the mutex, so that the task may spawn others through `spawn_global`, and
puts it back behind them while it is pending.

The futures are arbitrary: a poll of a future is a function `poll` of the future and of
everything else in the world, and returns with both of them and with the futures it spawned.

* `Machine.iteration`: one iteration of the loop in `run`;
* `Machine.accounted_run`: no task is lost or duplicated;
* `Machine.run_fair`: that, and the bounded bypass between two polls of one task.
-/

namespace Mushix

/-- What a future returns when it is polled. -/
inductive Poll where
  | ready (result : Except String Unit)
  | pending
  deriving DecidableEq

/-- `Task<()>`; `id` tells the calls of `spawn_global` apart. -/
structure Task (F : Type) where
  future : F
  id : ℕ

/-- An `Executor` has a queue of tasks, once it was given one. -/
structure Executor (F : Type) where
  taskQueue : Option (List (Task F))

namespace Executor

variable {F : Type}

/-- An executor whose queue was not used yet. -/
def new : Executor F := { taskQueue := none }

/-- `task_queue()`: the queue, which is created when it is needed for the first time. -/
def queue (self : Executor F) : List (Task F) := self.taskQueue.getD []

/-- A task gets in line at the end of the queue. -/
def enqueue (task : Task F) (self : Executor F) : Executor F :=
  { taskQueue := some (self.queue ++ [task]) }

/-- The task at the front of the queue, which is taken off. -/
def popFront (self : Executor F) : Option (Task F) × Executor F :=
  (self.queue.head?, { taskQueue := some self.queue.tail })

/-- A task that gets in line is behind all others. -/
@[simp]
theorem queue_enqueue (task : Task F) (self : Executor F) :
    (self.enqueue task).queue = self.queue ++ [task] := rfl

end Executor

/-- How a poll of a future ends: its result, the future and the world afterwards, and the
futures that it passed to `spawn_global`, in order. -/
structure Outcome (F W : Type) where
  result : Poll
  future : F
  world : W
  spawned : List F

/-- `GLOBAL_EXECUTOR` and the rest of the world, with a history of the tasks. -/
structure Machine (F W : Type) where
  /-- The content of the mutex. -/
  executor : Option (Executor F)
  /-- Everything that futures read and write, apart from the executor. -/
  world : W
  /-- The number of calls of `spawn_global`. -/
  spawned : ℕ
  /-- The tasks that returned `Ready`. -/
  completed : List ℕ

namespace Machine

variable {F W : Type}

/-- `spawn_global` puts a new task at the end of the queue. -/
def spawnGlobal (s : Machine F W) (future : F) : Machine F W :=
  let task : Task F := { future, id := s.spawned }
  { s with
    executor := some ((s.executor.getD Executor.new).enqueue task)
    spawned := s.spawned + 1 }

/-- `e.task_queue().push_back(task)` for a pending task. -/
def requeue (task : Task F) (s : Machine F W) : Machine F W :=
  { s with executor := s.executor.map (Executor.enqueue task) }

/-- The `match` on the result of a poll in `run`. -/
def finish (task : Task F) (s : Machine F W) : Poll → Machine F W
  | .ready _ => { s with completed := s.completed ++ [task.id] }
  | .pending => s.requeue task

/-- One iteration of the loop in `run`. -/
def iteration (poll : F → W → Outcome F W) (s : Machine F W) : Machine F W :=
  match s.executor.map Executor.popFront with
  | some (some task, executor) =>
    let out := poll task.future s.world
    let task := { task with future := out.future }
    -- the mutex is not held during a poll, so what the future spawns is queued before the task
    -- itself
    let s := out.spawned.foldl spawnGlobal { s with executor := some executor, world := out.world }
    s.finish task out.result
  | some (none, executor) => { s with executor := some executor }
  | none => s

/-- The machine at the loop head after `n` iterations. -/
def run (poll : F → W → Outcome F W) : ℕ → Machine F W → Machine F W
  | 0, s => s
  | n + 1, s => iteration poll (run poll n s)

/-- The machine in which `futures` were spawned before the executor is started. -/
def start (futures : List F) (world : W) : Machine F W :=
  futures.foldl spawnGlobal { executor := none, world, spawned := 0, completed := [] }

/-- The queue. -/
def queue (s : Machine F W) : List (Task F) := (s.executor.map Executor.queue).getD []

/-- The tasks in the queue, the next one first. -/
def queued (s : Machine F W) : List ℕ := s.queue.map Task.id

/-- The task that is polled next. -/
def next (s : Machine F W) : Option ℕ := s.queued.head?

/-- The next task is polled and returns `Ready`. -/
def Returns (poll : F → W → Outcome F W) (s : Machine F W) (id : ℕ) : Prop :=
  ∃ task, s.queue.head? = some task ∧ task.id = id ∧
    (poll task.future s.world).result ≠ .pending

/-! ## What one iteration does -/

variable (poll : F → W → Outcome F W) {s : Machine F W}

/-- A task that is spawned is behind all others, with the next number. -/
@[simp]
theorem queue_spawnGlobal (s : Machine F W) (future : F) :
    (s.spawnGlobal future).queue = s.queue ++ [{ future, id := s.spawned }] := by
  rcases s with ⟨_ | e, world, spawned, completed⟩ <;> rfl

/-- Spawning appends the new tasks, which are numbered on. -/
theorem foldl_spawnGlobal (futures : List F) (s : Machine F W) :
    (futures.foldl spawnGlobal s).queued =
        s.queued ++ List.range' s.spawned futures.length ∧
      (futures.foldl spawnGlobal s).spawned = s.spawned + futures.length ∧
      (futures.foldl spawnGlobal s).completed = s.completed ∧
      (futures.foldl spawnGlobal s).world = s.world ∧
      ((futures.foldl spawnGlobal s).executor = none → s.executor = none) := by
  induction futures generalizing s with
  | nil => simp
  | cons future futures ih =>
    obtain ⟨hqueued, hspawned, hcompleted, hworld, hexecutor⟩ := ih (s.spawnGlobal future)
    rw [List.foldl_cons]
    refine ⟨?_, ?_, hcompleted, hworld, ?_⟩
    · calc (futures.foldl spawnGlobal (s.spawnGlobal future)).queued
          = (s.spawnGlobal future).queued ++ List.range' (s.spawned + 1) futures.length := hqueued
        _ = s.queued ++ List.range' s.spawned (future :: futures).length := by
          simp [queued, List.range'_succ]
    · rw [hspawned, List.length_cons]
      show s.spawned + 1 + futures.length = _
      omega
    -- an executor is created by the first spawn and never removed
    · intro hnone
      exact absurd (hexecutor hnone) (Option.some_ne_none _)

/-- An iteration with an empty queue leaves it empty. -/
theorem iteration_idle (h : s.queue = []) :
    (iteration poll s).queue = [] ∧ (iteration poll s).spawned = s.spawned ∧
      (iteration poll s).completed = s.completed := by
  rcases s with ⟨_ | e, world, spawned, completed⟩
  · exact ⟨rfl, rfl, rfl⟩
  · have hqueue : e.queue = [] := h
    have hpop : e.popFront = (none, { taskQueue := some [] }) := by
      rw [Executor.popFront, hqueue]
      rfl
    rw [iteration, Option.map_some, hpop]
    exact ⟨rfl, rfl, rfl⟩

/-- A pending task goes to the end of the queue, a ready one to the completed tasks. -/
theorem finish_eq (task : Task F) (h : s.executor ≠ none) (result : Poll) :
    (s.finish task result).spawned = s.spawned ∧
      (s.finish task result).queued =
        s.queued ++ (if result = .pending then [task.id] else []) ∧
      (s.finish task result).completed =
        s.completed ++ (if result = .pending then [] else [task.id]) := by
  obtain ⟨e, he⟩ := Option.ne_none_iff_exists'.1 h
  cases result with
  | ready result => simp [finish, queued, queue]
  | pending => simp [finish, queued, queue, requeue, he]

/-- An iteration polls the first task; the tasks it spawns come behind the others, and it
comes behind them if it is pending. -/
theorem iteration_poll {task : Task F} {rest : List (Task F)} (h : s.queue = task :: rest) :
    let out := poll task.future s.world
    let new := List.range' s.spawned out.spawned.length
    (iteration poll s).spawned = s.spawned + out.spawned.length ∧
      (iteration poll s).queued = rest.map Task.id ++ new ++
        (if out.result = .pending then [task.id] else []) ∧
      (iteration poll s).completed =
        s.completed ++ (if out.result = .pending then [] else [task.id]) := by
  intro out new
  rcases s with ⟨_ | e, world, spawned, completed⟩
  · cases h
  have hqueue : e.queue = task :: rest := h
  have hpop : e.popFront = (some task, { taskQueue := some rest }) := by
    rw [Executor.popFront, hqueue]
    rfl
  -- the head is popped before the poll, and the poll can only spawn
  obtain ⟨hqueued, hspawned, hcompleted, -, hexecutor⟩ :=
    foldl_spawnGlobal out.spawned
      ({ executor := some { taskQueue := some rest }, world := out.world, spawned, completed } :
        Machine F W)
  have hsome := fun hnone => Option.some_ne_none _ (hexecutor hnone)
  obtain ⟨hspawned', hqueued', hcompleted'⟩ :=
    finish_eq { task with future := out.future } hsome out.result
  rw [iteration, Option.map_some, hpop]
  refine ⟨hspawned'.trans hspawned, hqueued'.trans ?_, hcompleted'.trans ?_⟩
  · rw [hqueued]
    rfl
  · rw [hcompleted]

/-! ## Runs -/

/-- Every spawned task is once in the queue or once among the completed ones. -/
def Accounted (s : Machine F W) : Prop :=
  (s.queued ++ s.completed).Perm (List.range s.spawned)

/-- An iteration loses no task. -/
theorem accounted_iteration (h : s.Accounted) : (iteration poll s).Accounted := by
  unfold Accounted at h ⊢
  cases hqueue : s.queue with
  -- an idle iteration moves no task
  | nil =>
    obtain ⟨hqueue', hspawned, hcompleted⟩ := iteration_idle poll hqueue
    have hsame : (iteration poll s).queued = s.queued := by
      rw [queued, queued, hqueue', hqueue]
    rwa [hsame, hspawned, hcompleted]
  | cons task rest =>
    obtain ⟨hspawned, hqueued, hcompleted⟩ := iteration_poll poll hqueue
    have hold : (task.id :: rest.map Task.id ++ s.completed).Perm (List.range s.spawned) := by
      simpa [queued, hqueue] using h
    rw [hspawned, hqueued, hcompleted, List.range_eq_range', ← List.range'_append_1,
      ← List.range_eq_range', Nat.zero_add]
    refine List.Perm.trans ?_ (hold.append_right _)
    -- the polled task is at the end of one of the two lists
    rw [List.perm_iff_count]
    intro id
    simp only [List.cons_append, List.count_append, List.count_cons]
    split <;> simp only [List.count_nil, List.count_cons] <;> omega

/-- No task is ever lost. -/
theorem accounted_run (futures : List F) (world : W) (n : ℕ) :
    (run poll n (start futures world)).Accounted := by
  induction n with
  | zero =>
    obtain ⟨hqueued, hspawned, hcompleted, -, -⟩ := foldl_spawnGlobal futures
      ({ executor := none, world, spawned := 0, completed := [] } : Machine F W)
    show (List.Perm _ _)
    rw [run, start, hqueued, hspawned, hcompleted, List.append_nil, Nat.zero_add,
      List.range_eq_range']
    exact List.Perm.refl _
  | succ n ih => exact accounted_iteration poll ih

/-- A task is not in the queue twice, nor in the queue and completed. -/
theorem Accounted.nodup (h : s.Accounted) : (s.queued ++ s.completed).Nodup :=
  h.nodup_iff.2 List.nodup_range

/-- The queue loses its head and grows at the tail. -/
theorem steps_queued (s : Machine F W) :
    Fifo.Steps fun n => (run poll n s).queued := by
  intro n
  cases hqueue : (run poll n s).queue with
  | nil =>
    refine ⟨[], ?_⟩
    simp [queued, run, hqueue, (iteration_idle poll hqueue).1]
  | cons task rest =>
    obtain ⟨-, hqueued, -⟩ := iteration_poll poll hqueue
    have htail : (run poll n s).queued.tail = rest.map Task.id := by simp [queued, hqueue]
    show ∃ added, (iteration poll (run poll n s)).queued = (run poll n s).queued.tail ++ added
    rw [hqueued, htail, List.append_assoc]
    exact ⟨_, rfl⟩

/-- The completed tasks stay completed. -/
theorem completed_prefix (s : Machine F W) (n k : ℕ) :
    (run poll n s).completed <+: (run poll (n + k) s).completed := by
  induction k with
  | zero => exact List.prefix_refl _
  | succ k ih =>
    refine ih.trans ?_
    show _ <+: (iteration poll (run poll (n + k) s)).completed
    cases hqueue : (run poll (n + k) s).queue with
    | nil =>
      exact (iteration_idle poll hqueue).2.2 ▸ List.prefix_rfl
    | cons task rest =>
      rw [(iteration_poll poll hqueue).2.2]
      exact List.prefix_append _ _

section Start

variable (futures : List F) (world : W) {n m id other : ℕ}

/-- A task that returned `Ready` is never polled again. -/
theorem not_polled_again (h : (run poll n (start futures world)).Returns poll id)
    (hnm : n < m) : (run poll m (start futures world)).next ≠ some id := by
  obtain ⟨task, hhead, rfl, hready⟩ := h
  obtain ⟨rest, hqueue⟩ : ∃ rest, (run poll n (start futures world)).queue = task :: rest :=
    List.head?_eq_some_iff.1 hhead
  -- it is completed from the next iteration on, and then it is not in the queue
  have hcompleted : task.id ∈ (run poll (n + 1) (start futures world)).completed := by
    show task.id ∈ (iteration poll (run poll n (start futures world))).completed
    rw [(iteration_poll poll hqueue).2.2, if_neg hready]
    exact List.mem_append_right _ List.mem_cons_self
  have hlater : task.id ∈ (run poll m (start futures world)).completed := by
    have hpre := completed_prefix poll (start futures world) (n + 1) (m - (n + 1))
    rw [show n + 1 + (m - (n + 1)) = m by omega] at hpre
    exact hpre.subset hcompleted
  intro hnext
  have hnodup := (accounted_run poll futures world m).nodup
  exact (List.nodup_append.1 hnodup).2.2 _ (List.mem_of_mem_head? hnext) _ hlater rfl

/-- A task that is polled again later was pending, and every other task of the queue that it
left and of the queue that it was put back to is polled once in between. -/
theorem polled_once_between (hnm : n < m) (hn : (run poll n (start futures world)).next = some id)
    (hm : (run poll m (start futures world)).next = some id)
    (hbetween : ∀ k, n < k → k < m → (run poll k (start futures world)).next ≠ some id)
    (hne : other ≠ id)
    (hother : other ∈ (run poll n (start futures world)).queued ∨
      other ∈ (run poll (n + 1) (start futures world)).queued) :
    ∃! k, (n < k ∧ k < m) ∧ (run poll k (start futures world)).next = some other := by
  obtain ⟨task, hhead, hid⟩ : ∃ task, (run poll n (start futures world)).queue.head? =
      some task ∧ task.id = id := by
    simpa [next, queued, List.head?_map] using hn
  obtain ⟨rest, hqueue⟩ := List.head?_eq_some_iff.1 hhead
  have hpending :
      (poll task.future (run poll n (start futures world)).world).result = .pending := by
    by_contra hready
    exact not_polled_again poll futures world ⟨task, hhead, hid, hready⟩ hnm hm
  -- pending: behind the rest of the queue and behind what it has spawned
  have hstep := (iteration_poll poll hqueue).2.1
  rw [if_pos hpending, hid] at hstep
  set new := List.range' (run poll n (start futures world)).spawned
    (poll task.future (run poll n (start futures world)).world).spawned.length
  have hnodup : (rest.map Task.id ++ new ++ [id]).Nodup := by
    have h := (List.nodup_append.1 (accounted_run poll futures world (n + 1)).nodup).1
    rwa [show (run poll (n + 1) (start futures world)).queued = _ from hstep] at h
  obtain ⟨hothers, -, hdisjoint⟩ := List.nodup_append.1 hnodup
  -- what is in front of the task in the queue is served once before it
  refine Fifo.served_once (steps_queued poll (start futures world)) hstep hothers ?_ hnm hm
    hbetween ?_
  · intro hmem
    exact hdisjoint id hmem id List.mem_cons_self rfl
  · rcases hother with hmem | hmem
    · rw [queued, hqueue, List.map_cons, hid] at hmem
      exact List.mem_append_left _ ((List.mem_cons.1 hmem).resolve_left hne)
    · rw [show (run poll (n + 1) (start futures world)).queued = _ from hstep] at hmem
      exact (List.mem_append.1 hmem).resolve_right (by simpa using hne)

/-- For every behaviour of the tasks and every number of iterations: every spawned task is once
in the queue or once among the completed ones; a task that returned `Ready` is never polled
again; and between two polls of one task that follow each other, every other task that was in
the queue at the first of them is polled exactly once. -/
theorem run_fair :
    let s : ℕ → Machine F W := fun n => run poll n (start futures world)
    (∀ n, (s n).Accounted) ∧
      (∀ n m id, (s n).Returns poll id → n < m → (s m).next ≠ some id) ∧
      ∀ n m id other, n < m → (s n).next = some id → (s m).next = some id →
        (∀ k, n < k → k < m → (s k).next ≠ some id) → other ≠ id →
        other ∈ (s n).queued ∨ other ∈ (s (n + 1)).queued →
        ∃! k, (n < k ∧ k < m) ∧ (s k).next = some other := by
  intro s
  refine ⟨accounted_run poll futures world, ?_, ?_⟩
  · intro n m id h hnm
    exact not_polled_again poll futures world h hnm
  · intro n m id other hnm hn hm hbetween hne hother
    exact polled_once_between poll futures world hnm hn hm hbetween hne hother

end Start

end Machine

end Mushix
