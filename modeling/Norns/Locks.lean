import Norns.Lib.SharedMutex

/-! # Locks of the task manager

`task_manager::m_mutex` guards the table of tasks, and each record has a `task_info::m_mutex`.
Here are the lock operations of the functions that use them: the functions of the thread that
serves the API, which take the mutex of the table before those of records, and those of the
workers, which take the mutex of one record.

The predicate that `check_shutdown` counts with holds a record in shared mode and calls
`status()`, which takes it in shared mode again.  `no_deadlock` is about the runs in which no
worker asks for the record in between.

Where the operations of a call depend on a test of the data, they are a function of its outcome,
and the model has all outcomes. -/

namespace Norns

open Lib

/-- The mutexes. -/
inductive TaskMutex where
  /-- `task_manager::m_mutex`. -/
  | table
  /-- `task_info::m_mutex` of a record. -/
  | record (r : ℕ)
deriving DecidableEq, Repr

/-- The order in which they are taken. -/
def TaskMutex.rank : TaskMutex → ℕ
  | table => 0
  | record _ => 1

abbrev TaskLockOps := List (LockOp TaskMutex)

/-! ### Records -/

/-- `task_info::status`, `stats`, `bandwidth` and the other functions that read. -/
def readInfo (r : ℕ) : TaskLockOps := withLock .shared (.record r) []

/-- `task_info::update_status`, `record_transfer` and the other functions that write. -/
def writeInfo (r : ℕ) : TaskLockOps := withLock .exclusive (.record r) []

/-- The predicate `task_is_active` of `urd::check_shutdown`.  If the task is not pending, the status
is read once more to compare it with `running`. -/
def taskIsActive (r : ℕ) (isPending : Bool) : TaskLockOps :=
  withLock .shared (.record r) (readInfo r ++ if isPending then [] else readInfo r)

/-! ### The table -/

/-- `task_manager::find`. -/
def findOps : TaskLockOps := withLock .shared .table []

/-- `task_manager::erase` and the functions that create a task. -/
def writeTable : TaskLockOps := withLock .exclusive .table []

/-- `task_manager::count_if` with `task_is_active`, for the records that are in the table; the
flags are the outcomes of the first comparisons. -/
def checkShutdownOps (records : List (ℕ × Bool)) : TaskLockOps :=
  withLock .exclusive .table (records.flatMap fun e => taskIsActive e.1 e.2)

/-- `task_manager::global_stats`. -/
def globalStatsOps (records : List ℕ) : TaskLockOps :=
  withLock .exclusive .table (records.flatMap readInfo)

/-- `urd::iotask_status_handler`, for the record that was found and the outcomes of the two
comparisons. -/
def iotaskStatusOps (found : Option ℕ) (finished failed : Bool) : TaskLockOps :=
  match found with
  | none => findOps
  | some r =>
      findOps ++ (readInfo r ++ (readInfo r ++
        if finished then writeTable
        else readInfo r ++ if failed then writeTable else []))

/-! ### Threads -/

/-- What the thread that serves the API can do. -/
inductive IpcOps : TaskLockOps → Prop
  | checkShutdown (records : List (ℕ × Bool)) : IpcOps (checkShutdownOps records)
  | globalStats (records : List ℕ) : IpcOps (globalStatsOps records)
  | find : IpcOps findOps
  | writeTable : IpcOps writeTable
  | iotaskStatus (found : Option ℕ) (finished failed : Bool) :
      IpcOps (iotaskStatusOps found finished failed)

/-- What a worker can do. -/
inductive WorkerOps : TaskLockOps → Prop
  | write (r : ℕ) : WorkerOps (writeInfo r)
  | read (r : ℕ) : WorkerOps (readInfo r)

/-- One thread serves the API, and there are `n` workers. -/
abbrev TaskThread (n : ℕ) := Option (Fin n)

def taskThreadOps (n : ℕ) : TaskThread n → Set TaskLockOps
  | none => {p | IpcOps p}
  | some _ => {p | WorkerOps p}

/-- All threads before their first call. -/
def allIdle (n : ℕ) : LockState (TaskThread n) TaskMutex := fun _ => ⟨[], [], false⟩

/-! ### The discipline -/

section discipline

variable {held : List (LockMode × TaskMutex)}

theorem balanced_readInfo {r : ℕ}
    (h : ∀ l ∈ held, l.2 = .table ∨ l = (.shared, .record r)) :
    Balanced TaskMutex.rank held (readInfo r) := by
  refine balanced_withLock (fun l hl => ?_) balanced_nil
  obtain htable | heq := h l hl
  · rw [htable]
    exact .inl Nat.zero_lt_one
  · exact .inr ⟨heq, rfl⟩

theorem balanced_taskIsActive (r : ℕ) (isPending : Bool) :
    Balanced TaskMutex.rank [(.exclusive, .table)] (taskIsActive r isPending) := by
  have hread : Balanced TaskMutex.rank [(.shared, .record r), (.exclusive, .table)]
      (readInfo r) := by
    refine balanced_readInfo fun l hl => ?_
    obtain rfl | rfl := List.mem_pair.mp hl
    · exact .inr rfl
    · exact .inl rfl
  refine balanced_withLock (fun l hl => ?_) (hread.append ?_)
  · rw [List.mem_singleton.mp hl]
    exact .inl Nat.zero_lt_one
  · cases isPending with
    | true => exact balanced_nil
    | false => exact hread

theorem balanced_table (mode : LockMode) {body : TaskLockOps}
    (h : Balanced TaskMutex.rank [(mode, .table)] body) :
    Balanced TaskMutex.rank [] (withLock mode .table body) :=
  balanced_withLock (fun l hl => by cases hl) h

theorem ordered_ipcOps {p : TaskLockOps} (h : IpcOps p) : Ordered TaskMutex.rank [] p := by
  have hfind : Balanced TaskMutex.rank [] findOps := balanced_table _ balanced_nil
  have hwrite : Balanced TaskMutex.rank [] writeTable := balanced_table _ balanced_nil
  have hread : ∀ r, Balanced TaskMutex.rank [] (readInfo r) :=
    fun r => balanced_readInfo fun l hl => by cases hl
  cases h with
  | checkShutdown records =>
    exact (balanced_table _ (balanced_flatMap _ _ fun e _ =>
      balanced_taskIsActive e.1 e.2)).ordered
  | globalStats records =>
    refine (balanced_table _ (balanced_flatMap _ _ fun r _ => ?_)).ordered
    exact balanced_readInfo fun l hl => .inl (by rw [List.mem_singleton.mp hl])
  | find => exact hfind.ordered
  | writeTable => exact hwrite.ordered
  | iotaskStatus found finished failed =>
    cases found with
    | none => exact hfind.ordered
    | some r =>
      refine (hfind.append ((hread r).append ((hread r).append ?_))).ordered
      cases finished with
      | true => exact hwrite
      | false =>
        refine (hread r).append ?_
        cases failed with
        | true => exact hwrite
        | false => exact balanced_nil

theorem ordered_workerOps {p : TaskLockOps} (h : WorkerOps p) : Ordered TaskMutex.rank [] p := by
  cases h with
  | write r => exact (balanced_withLock (fun l hl => by cases hl) balanced_nil).ordered
  | read r => exact (balanced_readInfo fun l hl => by cases hl).ordered

end discipline

theorem ordered_taskThreadOps (n : ℕ) :
    ∀ t, ∀ p ∈ taskThreadOps n t, Ordered TaskMutex.rank [] p := by
  intro t p hp
  cases t with
  | none => exact ordered_ipcOps hp
  | some i => exact ordered_workerOps hp

theorem lockInv_allIdle (n : ℕ) : LockInv TaskMutex.rank (allIdle n) where
  ordered _ := rfl
  exclusion t u m h _ := by cases h
  reentry t u m _ h _ := by
    obtain ⟨hasked, -⟩ := h
    cases hasked

/-- **No deadlock**, for any number of workers: if no worker asks for a record while the thread that
serves the API holds it and is going to lock it again, then no threads ever wait for each other,
and as long as a thread has something to do some thread can go on. -/
theorem no_deadlock {n : ℕ} {s : LockState (TaskThread n) TaskMutex}
    (hrun : Run (Guarded (LockStep (taskThreadOps n)) Guard) (allIdle n) s) :
    (∀ W, ¬ Deadlocked s W) ∧
      ((∃ t, (s t).prog ≠ []) → ∃ t th, (s t).prog ≠ [] ∧ ThreadStep (taskThreadOps n) s t th) := by
  have hinv : LockInv TaskMutex.rank s := by
    refine Run.invariant (P := LockInv TaskMutex.rank) ?_ hrun (lockInv_allIdle n)
    exact fun s s' hinv hstep => hinv.step (ordered_taskThreadOps n) hstep.1 hstep.2
  exact ⟨hinv.not_deadlocked, hinv.progress⟩

/-! ### A worker in between -/

/-- The thread that serves the API and one worker. -/
def twoThreads (ipc worker : LockThread TaskMutex) : LockState (TaskThread 1) TaskMutex
  | none => ipc
  | some _ => worker

section twoThreads

variable {a a' b b' : LockThread TaskMutex}

theorem twoThreads_idle : twoThreads ⟨[], [], false⟩ ⟨[], [], false⟩ = allIdle 1 := by
  funext t
  cases t <;> rfl

theorem ipc_step (h : ThreadStep (taskThreadOps 1) (twoThreads a b) none a') :
    LockStep (taskThreadOps 1) (twoThreads a b) (twoThreads a' b) := by
  refine ⟨none, a', h, ?_⟩
  funext t
  cases t <;> rfl

theorem worker_step (h : ThreadStep (taskThreadOps 1) (twoThreads a b) (some 0) b') :
    LockStep (taskThreadOps 1) (twoThreads a b) (twoThreads a b') := by
  refine ⟨some 0, b', h, ?_⟩
  funext t
  cases t with
  | none => rfl
  | some i =>
    rw [Subsingleton.elim i 0, Function.update_self]
    rfl

theorem not_obstructs_twoThreads {mode : LockMode} {m : TaskMutex} (ha : ¬ Obstructs a mode m)
    (hb : ¬ Obstructs b mode m) (t : TaskThread 1) : ¬ Obstructs (twoThreads a b t) mode m := by
  cases t with
  | none => exact ha
  | some i => exact hb

end twoThreads

/-- A thread that holds nothing and has not asked stands in nobody's way. -/
theorem not_obstructs_idle {prog : TaskLockOps} {mode : LockMode} {m : TaskMutex} :
    ¬ Obstructs (M := TaskMutex) ⟨[], prog, false⟩ mode m := by
  cases mode with
  | shared =>
    rintro (hmem | ⟨hasked, -⟩)
    · cases hmem
    · cases hasked
  | exclusive =>
    rintro ⟨mode, hmem⟩
    cases hmem

/-- The daemon is asked to shut down while task 0 is running.  Between the lock of
`task_is_active` and that of `status()` the worker of the task asks for its record in order to
update the status: neither of the two threads ever goes on. -/
theorem inspected_task_deadlocks :
    ∃ s, Run (LockStep (taskThreadOps 1)) (allIdle 1) s ∧ Deadlocked s {none, some 0} := by
  let rest : TaskLockOps := [.unlock .shared (.record 0), .lock .shared (.record 0),
    .unlock .shared (.record 0), .unlock .shared (.record 0), .unlock .exclusive .table]
  let inspect : TaskLockOps := .lock .shared (.record 0) :: rest
  let enter : TaskLockOps := .lock .shared (.record 0) :: inspect
  let idle : LockThread TaskMutex := ⟨[], [], false⟩
  let T : LockMode × TaskMutex := (.exclusive, .table)
  let R : LockMode × TaskMutex := (.shared, .record 0)
  -- the API thread comes to hold the table and the record
  have h₁ : LockStep (taskThreadOps 1) (twoThreads idle idle)
      (twoThreads ⟨[], .lock .exclusive .table :: enter, false⟩ idle) :=
    ipc_step (.start rfl (IpcOps.checkShutdown [(0, false)]))
  have h₂ : LockStep (taskThreadOps 1)
      (twoThreads ⟨[], .lock .exclusive .table :: enter, false⟩ idle)
      (twoThreads ⟨[], .lock .exclusive .table :: enter, true⟩ idle) := ipc_step (.ask rfl rfl)
  have h₃ : LockStep (taskThreadOps 1)
      (twoThreads ⟨[], .lock .exclusive .table :: enter, true⟩ idle)
      (twoThreads ⟨[T], enter, false⟩ idle) := by
    refine ipc_step (.acquire rfl rfl (not_obstructs_twoThreads ?_ not_obstructs_idle))
    rintro ⟨mode, hmem⟩
    cases hmem
  have h₄ : LockStep (taskThreadOps 1) (twoThreads ⟨[T], enter, false⟩ idle)
      (twoThreads ⟨[T], enter, true⟩ idle) := ipc_step (.ask rfl rfl)
  have h₅ : LockStep (taskThreadOps 1) (twoThreads ⟨[T], enter, true⟩ idle)
      (twoThreads ⟨[R, T], inspect, false⟩ idle) := by
    refine ipc_step (.acquire rfl rfl (not_obstructs_twoThreads ?_ not_obstructs_idle))
    rintro (hmem | ⟨-, tail, hprog⟩)
    · simp [T] at hmem
    · cases hprog
  -- the worker asks for the record, and then the API thread asks for it again
  have h₆ : LockStep (taskThreadOps 1) (twoThreads ⟨[R, T], inspect, false⟩ idle)
      (twoThreads ⟨[R, T], inspect, false⟩ ⟨[], writeInfo 0, false⟩) :=
    worker_step (.start rfl (WorkerOps.write 0))
  have h₇ : LockStep (taskThreadOps 1)
      (twoThreads ⟨[R, T], inspect, false⟩ ⟨[], writeInfo 0, false⟩)
      (twoThreads ⟨[R, T], inspect, false⟩ ⟨[], writeInfo 0, true⟩) :=
    worker_step (.ask rfl rfl)
  have h₈ : LockStep (taskThreadOps 1)
      (twoThreads ⟨[R, T], inspect, false⟩ ⟨[], writeInfo 0, true⟩)
      (twoThreads ⟨[R, T], inspect, true⟩ ⟨[], writeInfo 0, true⟩) := ipc_step (.ask rfl rfl)
  refine ⟨_, twoThreads_idle ▸ (((((((Relation.ReflTransGen.single h₁).tail h₂).tail h₃).tail
    h₄).tail h₅).tail h₆).tail h₇).tail h₈, by simp, fun t ht => ?_⟩
  have hworker : (twoThreads ⟨[R, T], inspect, true⟩ ⟨[], writeInfo 0, true⟩ (some 0)).WaitsFor
      .exclusive (.record 0) := ⟨rfl, _, rfl⟩
  have hipc : (twoThreads ⟨[R, T], inspect, true⟩ ⟨[], writeInfo 0, true⟩ none).WaitsFor
      .shared (.record 0) := ⟨rfl, _, rfl⟩
  cases t with
  | none => exact ⟨some 0, by simp, .shared, _, hipc, .inr hworker⟩
  | some i =>
    obtain rfl := Subsingleton.elim i 0
    exact ⟨none, by simp, .exclusive, _, hworker, .shared, List.mem_cons_self ..⟩

/-- A step of the API thread, while the worker holds nothing. -/
theorem guard_ipc {a a' : LockThread TaskMutex} {prog : TaskLockOps} {asked : Bool} :
    Guard (twoThreads a ⟨[], prog, asked⟩) (twoThreads a' ⟨[], prog, asked⟩) := by
  intro t u m hne hnot hwaits
  cases t with
  | some i => exact absurd hwaits hnot
  | none =>
    cases u with
    | none => exact absurd rfl hne
    | some j =>
      simp [twoThreads, LockThread.Reenters, LockThread.holds, LockThread.relocks_zero]

/-- A step of the worker, while the API thread does not lock anything again. -/
theorem guard_worker {a b b' : LockThread TaskMutex} (h : ∀ m, ¬ a.Reenters m) :
    Guard (twoThreads a b) (twoThreads a b') := by
  intro t u m hne hnot hwaits
  cases t with
  | none => exact absurd hwaits hnot
  | some i =>
    cases u with
    | none => exact h m
    | some j => exact absurd (congrArg some (Subsingleton.elim j i)) hne

/-- The daemon is asked to shut down while task 0 is pending, and the worker asks for its record
when `status()` has returned: the predicate still holds the record, but does not lock it again. -/
theorem waiting_worker_goes_on :
    ∃ s, Run (Guarded (LockStep (taskThreadOps 1)) Guard) (allIdle 1) s ∧
      (s none).Holds .table ∧ (s none).Holds (.record 0) ∧
      (s (some 0)).WaitsFor .exclusive (.record 0) ∧ (∀ W, ¬ Deadlocked s W) ∧
      ∃ t th, (s t).prog ≠ [] ∧ ThreadStep (taskThreadOps 1) s t th := by
  let leave : TaskLockOps := [.unlock .shared (.record 0), .unlock .exclusive .table]
  let inspect : TaskLockOps := .lock .shared (.record 0) :: .unlock .shared (.record 0) :: leave
  let enter : TaskLockOps := .lock .shared (.record 0) :: inspect
  let idle : LockThread TaskMutex := ⟨[], [], false⟩
  let T : LockMode × TaskMutex := (.exclusive, .table)
  let R : LockMode × TaskMutex := (.shared, .record 0)
  -- a shared lock is given, whatever the API thread holds in shared mode
  have hshared : ∀ {held : List (LockMode × TaskMutex)} {prog : TaskLockOps},
      (.exclusive, .record 0) ∉ held →
      ¬ Obstructs (M := TaskMutex) ⟨held, .lock .shared (.record 0) :: prog, true⟩ .shared
        (.record 0) := by
    rintro held prog hheld (hmem | ⟨-, tail, hprog⟩)
    · exact hheld hmem
    · cases hprog
  -- the API thread enters the predicate, and comes back from `status()`
  have h₁ : LockStep (taskThreadOps 1) (twoThreads idle idle)
      (twoThreads ⟨[], .lock .exclusive .table :: enter, false⟩ idle) :=
    ipc_step (.start rfl (IpcOps.checkShutdown [(0, true)]))
  have h₂ : LockStep (taskThreadOps 1)
      (twoThreads ⟨[], .lock .exclusive .table :: enter, false⟩ idle)
      (twoThreads ⟨[], .lock .exclusive .table :: enter, true⟩ idle) := ipc_step (.ask rfl rfl)
  have h₃ : LockStep (taskThreadOps 1)
      (twoThreads ⟨[], .lock .exclusive .table :: enter, true⟩ idle)
      (twoThreads ⟨[T], enter, false⟩ idle) := by
    refine ipc_step (.acquire rfl rfl (not_obstructs_twoThreads ?_ not_obstructs_idle))
    rintro ⟨mode, hmem⟩
    cases hmem
  have h₄ : LockStep (taskThreadOps 1) (twoThreads ⟨[T], enter, false⟩ idle)
      (twoThreads ⟨[T], enter, true⟩ idle) := ipc_step (.ask rfl rfl)
  have h₅ : LockStep (taskThreadOps 1) (twoThreads ⟨[T], enter, true⟩ idle)
      (twoThreads ⟨[R, T], inspect, false⟩ idle) :=
    ipc_step (.acquire rfl rfl (not_obstructs_twoThreads (hshared (by decide)) not_obstructs_idle))
  have h₆ : LockStep (taskThreadOps 1) (twoThreads ⟨[R, T], inspect, false⟩ idle)
      (twoThreads ⟨[R, T], inspect, true⟩ idle) := ipc_step (.ask rfl rfl)
  have h₇ : LockStep (taskThreadOps 1) (twoThreads ⟨[R, T], inspect, true⟩ idle)
      (twoThreads ⟨[R, R, T], .unlock .shared (.record 0) :: leave, false⟩ idle) :=
    ipc_step (.acquire rfl rfl (not_obstructs_twoThreads (hshared (by decide)) not_obstructs_idle))
  have h₈ : LockStep (taskThreadOps 1)
      (twoThreads ⟨[R, R, T], .unlock .shared (.record 0) :: leave, false⟩ idle)
      (twoThreads ⟨[R, T], leave, false⟩ idle) :=
    ipc_step (@ThreadStep.release _ _ _ _ _ _ .shared (.record 0) leave rfl)
  -- the worker asks for the record
  have h₉ : LockStep (taskThreadOps 1) (twoThreads ⟨[R, T], leave, false⟩ idle)
      (twoThreads ⟨[R, T], leave, false⟩ ⟨[], writeInfo 0, false⟩) :=
    worker_step (.start rfl (WorkerOps.write 0))
  have h₁₀ : LockStep (taskThreadOps 1)
      (twoThreads ⟨[R, T], leave, false⟩ ⟨[], writeInfo 0, false⟩)
      (twoThreads ⟨[R, T], leave, false⟩ ⟨[], writeInfo 0, true⟩) := worker_step (.ask rfl rfl)
  have hleaves : ∀ m, ¬ LockThread.Reenters ⟨[R, T], leave, false⟩ m := by
    intro m
    cases m with
    | table =>
      rw [LockThread.Reenters]
      decide
    | record r =>
      by_cases hr : r = 0
      · subst hr
        rw [LockThread.Reenters]
        decide
      · simp [LockThread.Reenters, LockThread.holds, R, T, Ne.symm hr, LockThread.relocks_zero]
  have hrun : Run (Guarded (LockStep (taskThreadOps 1)) Guard) (allIdle 1)
      (twoThreads ⟨[R, T], leave, false⟩ ⟨[], writeInfo 0, true⟩) := by
    rw [← twoThreads_idle]
    exact (((((((((Relation.ReflTransGen.single ⟨h₁, guard_ipc⟩).tail ⟨h₂, guard_ipc⟩).tail
      ⟨h₃, guard_ipc⟩).tail ⟨h₄, guard_ipc⟩).tail ⟨h₅, guard_ipc⟩).tail ⟨h₆, guard_ipc⟩).tail
      ⟨h₇, guard_ipc⟩).tail ⟨h₈, guard_ipc⟩).tail ⟨h₉, guard_worker hleaves⟩).tail
      ⟨h₁₀, guard_worker hleaves⟩
  obtain ⟨hfree, hprogress⟩ := no_deadlock hrun
  exact ⟨_, hrun, ⟨.exclusive, by simp [twoThreads, T]⟩, ⟨.shared, by simp [twoThreads, R]⟩,
    ⟨rfl, _, rfl⟩, hfree, hprogress ⟨some 0, by simp [twoThreads, writeInfo, withLock]⟩⟩

end Norns
