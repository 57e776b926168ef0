import Norns.Lib.ThreadPool
import Norns.Daemon
import Norns.Task
import Norns.Urd

/-! # Submissions and workers

An `IOTASK_SUBMIT` request creates a record and hands a `generic_task` to the pool of
`task_manager`, whose workers execute it (`urd::iotask_create_handler`,
`task_manager::enqueue_task`, `thread-pool.hpp`, `thread-pool-queue.hpp`).  `PoolSystem` puts the
daemon of `Daemon`, the bodies of `Task` and the pool together.  The handler is cut where the queue
has its mutex, so that workers and a stop of the pool can come between the creation of a record
and the push of its task.

`accepted_once`: what is accepted is executed once, by one worker, in the order of the
submissions, and nothing is taken from the queue once the pool has been stopped. -/

namespace Norns

open Lib

/-! ### Tasks in the pool -/

/-- An entry of the queue: a `generic_task`, the pointer to its record, and the record as it is when
the task is made. -/
structure PoolTask where
  generic : GenericTask
  info : ℕ
  record : TaskInfo

/-- Tasks are only compared in what is said about them. -/
noncomputable instance : DecidableEq PoolTask := Classical.decEq PoolTask

/-- `generic_task::m_impl`; a copy or a move without a transferor is no task. -/
def GenericTask.impl (t : GenericTask) : Option Task :=
  match t.type with
  | .copy => t.transferor.map .copy
  | .move => t.transferor.map .move
  | .remove => some .remove
  | .noop => some .noop
  | .remoteTransfer => t.transferor.map .remoteTransfer
  | .unknown => none

/-- `generic_task::operator()`. -/
def PoolTask.call (t : PoolTask) : TaskProgram :=
  match t.generic.impl with
  | some impl => impl.call t.record
  | none => Task.crash .nullDeref

/-- `enqueue_task` gives the task a `completion_callback`. -/
def PoolTask.hasEpilog (t : PoolTask) : Bool := t.generic.type = .copy || t.generic.type = .move

/-- Where a worker is in `pool::task::execute`, with the record of the task. -/
inductive Execution where
  | func (p : TaskProgram) (ti : TaskInfo)
  | epilog (ti : TaskInfo)
  | ended (ti : TaskInfo)

def Execution.record : Execution → TaskInfo
  | func _ ti => ti
  | epilog ti => ti
  | ended ti => ti

/-- `m_func` has returned, or `completion_callback` has run and found a status. -/
inductive ExecLabel where
  | returned
  | epilog (status : TaskStatus)
deriving DecidableEq, Repr

/-- A step of `execute`. -/
inductive PoolTask.Exec (t : PoolTask) : Execution → Option ExecLabel → Execution → Prop
  | func {p p' : TaskProgram} {ti ti' : TaskInfo}
      (h : Program.Step anyOutcome (p, ti) (p', ti')) : Exec t (.func p ti) none (.func p' ti')
  | ret {ti : TaskInfo} : Exec t (.func (.ret (.ok ())) ti) (some .returned) (.epilog ti)
  | epilog {ti : TaskInfo} (h : t.hasEpilog = true) :
      Exec t (.epilog ti) (some (.epilog ti.status)) (.ended ti)
  | noopEpilog {ti : TaskInfo} (h : t.hasEpilog = false) : Exec t (.epilog ti) none (.ended ti)

/-- The jobs of the pool. -/
def poolJobs : Jobs PoolTask Execution ExecLabel where
  start t := .func t.call t.record
  exec := PoolTask.Exec
  final e := ∃ ti, e = .ended ti

/-- A body that has returned has written its last status. -/
theorem Machine.terminal_of_returned {plan : List TaskCall} {es : TaskTrace} {ti : TaskInfo}
    (h : Machine plan es ti (.ret (.ok ()))) : ti.status.terminal = true := by
  generalize hp : (.ret (.ok ()) : TaskProgram) = p at h
  cases h with
  | stopped f _ _ => cases hp
  | pending _ _ _ => cases hp
  | running _ _ _ _ hstaged => cases hstaged <;> cases hp
  | failing _ _ _ _ _ _ => cases hp
  | failed _ _ _ _ _ hti => rw [hti.1]; rfl
  | finished _ _ _ hti => rw [hti.1]; rfl

/-- The labels of an execution that has come to `e`, and the record there. -/
def PoolTask.Reached (t : PoolTask) (ls : List ExecLabel) : Execution → Prop
  | .func p ti => ls = [] ∧ ∃ plan es, Machine plan es ti p
  | .epilog ti => ls = [.returned] ∧ ti.status.terminal = true
  | .ended ti =>
      ls = .returned :: (if t.hasEpilog then [.epilog ti.status] else []) ∧
      ti.status.terminal = true

/-- The record of a step is the one before, or a worker has updated it. -/
theorem PoolTask.Exec.record {t : PoolTask} {e e' : Execution} {l : Option ExecLabel}
    {ls : List ExecLabel} (h : t.Exec e l e') (hreached : t.Reached ls e) :
    (e'.record = e.record ∨ WorkerUpdate e.record e'.record) ∧ t.Reached (ls ++ l.toList) e' := by
  cases h with
  | func hstep =>
      obtain ⟨rfl, plan, es, hm⟩ := hreached
      obtain ⟨hupd, es', hm'⟩ := hm.update hstep
      exact ⟨hupd, rfl, plan, es', hm'⟩
  | ret =>
      obtain ⟨rfl, plan, es, hm⟩ := hreached
      exact ⟨Or.inl rfl, rfl, hm.terminal_of_returned⟩
  | epilog hepilog =>
      obtain ⟨rfl, hterminal⟩ := hreached
      refine ⟨Or.inl rfl, ?_, hterminal⟩
      rw [if_pos hepilog]
      rfl
  | noopEpilog hepilog =>
      obtain ⟨rfl, hterminal⟩ := hreached
      refine ⟨Or.inl rfl, ?_, hterminal⟩
      rw [if_neg (by simp [hepilog])]
      rfl

/-- An execution from the start. -/
theorem PoolTask.reached_of_execs {t : PoolTask} (hfresh : t.record.Fresh) {ls : List ExecLabel}
    {e : Execution} (h : poolJobs.Execs t (poolJobs.start t) ls e) : t.Reached ls e := by
  induction h with
  | refl =>
      refine ⟨rfl, ?_⟩
      unfold PoolTask.call
      cases t.generic.impl with
      | none => exact ⟨[], [], .stopped _ hfresh rfl⟩
      | some impl => exact ⟨_, _, .start impl hfresh⟩
  | tail _ hexec ih => exact (PoolTask.Exec.record hexec ih).2

/-! ### What the handler hands over -/

/-- `enqueue_task` knows what to do with the task. -/
def GenericTask.Runnable (t : GenericTask) : Prop :=
  t.type = .remove ∨ t.type = .noop ∨ t.type = .copy ∨ t.type = .move

theorem makeTask_runnable {tm tm' : TaskManager} {type : IotaskType} {n : ℕ}
    {tx : Option Transferor} {e : UrdError} {g : GenericTask}
    (h : tm.makeTask type n tx = .ok (tm', e, some g)) : g.Runnable := by
  unfold TaskManager.makeTask at h
  cases type with
  | remove =>
      dsimp only at h
      split_ifs at h
      cases h
      exact Or.inl rfl
  | noop =>
      cases h
      exact Or.inr (Or.inl rfl)
  | copy =>
      cases h
      exact Or.inr (Or.inr (Or.inl rfl))
  | move =>
      cases h
      exact Or.inr (Or.inr (Or.inr rfl))
  | _ => cases h

/-- A local creation only makes tasks that the pool runs. -/
theorem createLocal_runnable {tm tm' : TaskManager} {type : IotaskType} {auth : Credentials}
    {backendPtrs : List Backend} {rinfoPtrs : List ResourceInfo} {size : UInt64} {e : UrdError}
    {g : GenericTask}
    (h : tm.createLocalInitiatedTask type auth backendPtrs rinfoPtrs size =
      .ok (tm', e, some g)) : g.Runnable := by
  unfold TaskManager.createLocalInitiatedTask at h
  split at h
  · cases h
  · split at h
    · cases h
    · split at h
      · cases h
      · dsimp only at h
        split at h
        · split at h
          · cases h
          · split at h
            · cases h
            · split at h
              · cases h
              · split at h
                · cases h
                · exact makeTask_runnable h
        · exact makeTask_runnable h

theorem Urd.enqueueTask_of_runnable {u : Urd} {t : GenericTask} (h : t.Runnable) :
    u.enqueueTask t = { u with runners := u.runners ++ [t] } := by
  unfold Urd.enqueueTask
  obtain h | h | h | h := h <;> rw [h]

/-- A submission is refused before or by a creation and hands nothing over, or it is accepted and
hands over the task that has been made. -/
def SubmitOutcome (u u' : Urd) (type : IotaskType) (src dst : Option ResourceInfo) (size : UInt64)
    (rv : UrdError) (tid : IotaskId) : Prop :=
  (rv ≠ .success ∧ u'.runners = u.runners ∧ (u'.taskMgr = u.taskMgr ∨
    ∃ auth bs t, u.taskMgr.createLocalInitiatedTask type auth bs (rinfoPtrs src dst) size =
      .ok (u'.taskMgr, rv, t))) ∨
  (rv = .success ∧ ∃ auth bs t,
    u.taskMgr.createLocalInitiatedTask type auth bs (rinfoPtrs src dst) size =
      .ok (u'.taskMgr, .success, some t) ∧
    u'.runners = u.runners ++ [t] ∧ tid = t.info)

/-- What follows the creation of a task, whatever its type. -/
def Urd.afterCreation (u : Urd)
    (r : Except Fault (TaskManager × UrdError × Option GenericTask)) :
    Except Fault (Urd × UrdError × IotaskId) :=
  match r with
  | .error f => .error f
  | .ok (tm, rv, t) =>
      match rv, t with
      | .success, some t => .ok (Urd.enqueueTask { u with taskMgr := tm } t, .success, t.info)
      | .success, none => .error .nullDeref
      | _, _ => .ok ({ u with taskMgr := tm }, rv, 0)

theorem afterCreation_cases {u u' : Urd} {type : IotaskType} {auth : Credentials}
    {bs : List Backend} {src dst : Option ResourceInfo} {size : UInt64} {rv : UrdError}
    {tid : IotaskId}
    (h : u.afterCreation (u.taskMgr.createLocalInitiatedTask type auth bs (rinfoPtrs src dst)
      size) = .ok (u', rv, tid)) : SubmitOutcome u u' type src dst size rv tid := by
  cases hcreate : u.taskMgr.createLocalInitiatedTask type auth bs (rinfoPtrs src dst) size with
  | error f =>
      rw [hcreate] at h
      cases h
  | ok r =>
      obtain ⟨tm, rv', t⟩ := r
      rw [hcreate] at h
      unfold Urd.afterCreation at h
      dsimp only at h
      split at h
      · next g =>
          rw [Urd.enqueueTask_of_runnable (createLocal_runnable hcreate)] at h
          cases h
          exact Or.inr ⟨rfl, auth, bs, g, hcreate, rfl, rfl⟩
      · cases h
      · next hsome hnone =>
          cases h
          refine Or.inl ⟨?_, rfl, Or.inr ⟨auth, bs, t, hcreate⟩⟩
          rintro rfl
          cases t with
          | none => exact hnone rfl rfl
          | some g => exact hsome g rfl rfl

theorem iotaskCreateHandler_cases {u u' : Urd} {creds : Option Credentials} {type : IotaskType}
    {src dst : Option ResourceInfo} {size : UInt64} {rv : UrdError} {tid : IotaskId}
    (h : u.iotaskCreateHandler creds type src dst size = .ok (u', rv, tid)) :
    SubmitOutcome u u' type src dst size rv tid := by
  unfold Urd.iotaskCreateHandler at h
  split at h
  · cases h
    exact Or.inl ⟨by decide, rfl, Or.inl rfl⟩
  · split at h
    · cases h
      exact Or.inl ⟨by decide, rfl, Or.inl rfl⟩
    · split at h
      · cases h
        exact Or.inl ⟨by decide, rfl, Or.inl rfl⟩
      · cases type with
        | copy => exact afterCreation_cases h
        | move => exact afterCreation_cases h
        | remove => exact afterCreation_cases h
        | noop => exact afterCreation_cases h
        | _ =>
            cases h
            exact Or.inl ⟨by decide, rfl, Or.inl rfl⟩

/-! ### The system -/

/-- A submission that has been answered, with the task that has been put into the queue for it. -/
structure Submission where
  rv : UrdError
  tid : IotaskId
  task : Option PoolTask

/-- Where the thread that serves the API is in `iotask_create_handler`. -/
inductive SubmitPc where
  | idle
  /-- the record is there; the push is next. -/
  | enqueue (t : PoolTask) (rv : UrdError) (tid : IotaskId)
  /-- the response is next. -/
  | respond (sub : Submission)

def SubmitPc.waiting : SubmitPc → List PoolTask
  | enqueue t _ _ => [t]
  | _ => []

def SubmitPc.answering : SubmitPc → List Submission
  | respond sub => [sub]
  | _ => []

/-- The daemon, its pool of workers, and the submissions that have been answered. -/
structure PoolSystem where
  sys : DaemonSystem
  pool : ThreadPool PoolTask Execution ExecLabel
  handler : SubmitPc
  submissions : List Submission

/-- The task with the record that its `task_info_ptr` points to. -/
def DaemonSystem.carried (s : DaemonSystem) (t : GenericTask) : Option PoolTask := do
  let p ← s.core.table.lookup t.info
  let ti ← s.core.heap[p]?
  return ⟨t, p, ti⟩

namespace PoolSystem

/-- A daemon with `n` workers that has just started. -/
def init (dryRun : Bool) (namespaces : NamespaceManager) (n : ℕ) : PoolSystem :=
  ⟨.init dryRun namespaces, .init n, .idle, []⟩

/-- What the handler finds; `runners` are the tasks that it hands over. -/
def urd (s : PoolSystem) : Urd := ⟨s.sys.isPaused, s.sys.namespaceMgr, s.sys.taskMgr, []⟩

/-- The handler has returned from the creation. -/
def create (s : PoolSystem) (u : Urd) (rv : UrdError) (tid : IotaskId) : PoolSystem :=
  let sys := s.sys.enter u.taskMgr
  { s with
    sys := sys
    handler :=
      match u.runners.filterMap sys.carried with
      | [] => .respond ⟨rv, tid, none⟩
      | t :: _ => .enqueue t rv tid }

end PoolSystem

/-- One step of some thread.  The other steps of the thread that serves the API, such as status
requests and commands, leave the records alone. -/
inductive PoolStep : PoolSystem → PoolSystem → Prop
  | submit {s : PoolSystem} {u : Urd} {creds : Option Credentials} {type : IotaskType}
      {src dst : Option ResourceInfo} {size : UInt64} {rv : UrdError} {tid : IotaskId}
      (hidle : s.handler = .idle) (hsys : s.sys.Idle)
      (h : s.urd.iotaskCreateHandler creds type src dst size = .ok (u, rv, tid)) :
      PoolStep s (s.create u rv tid)
  | enqueue {s : PoolSystem} {pool : ThreadPool PoolTask Execution ExecLabel} {t : PoolTask}
      {rv : UrdError} {tid : IotaskId} (hpc : s.handler = .enqueue t rv tid)
      (h : ThreadPool.Step poolJobs s.pool (.push t) pool) :
      PoolStep s { s with pool := pool, handler := .respond ⟨rv, tid, some t⟩ }
  | respond {s : PoolSystem} {sub : Submission} (hpc : s.handler = .respond sub) :
      PoolStep s { s with handler := .idle, submissions := s.submissions ++ [sub] }
  | other {s : PoolSystem} {sys : DaemonSystem} (hidle : s.handler = .idle)
      (h : ApiStep s.sys sys) (hheap : sys.core.heap = s.sys.core.heap) :
      PoolStep s { s with sys := sys }
  | exec {s : PoolSystem} {pool : ThreadPool PoolTask Execution ExecLabel} {t : PoolTask}
      {e e' : Execution} (h : ThreadPool.Step poolJobs s.pool (.exec t e e') pool) :
      PoolStep s { s with sys := s.sys.setRecord t.info e'.record, pool := pool }
  | silent {s : PoolSystem} {pool : ThreadPool PoolTask Execution ExecLabel}
      (h : ThreadPool.Step poolJobs s.pool .silent pool) : PoolStep s { s with pool := pool }

/-- The submission has been answered with success and the id of its task, or with an error and
without a task. -/
def Submission.Good (sub : Submission) : Prop :=
  (sub.rv = .success → ∃ t, sub.task = some t ∧ t.record.id = sub.tid) ∧
  (sub.rv ≠ .success → sub.task = none)

/-- The tasks of the pool have records of their own, which are as the workers have left them. -/
structure PoolSystem.Inv (s : PoolSystem) : Prop where
  sound : s.sys.core.Sound
  pool : s.pool.Inv poolJobs
  answers : s.pool.pushes = (s.submissions ++ s.handler.answering).filterMap Submission.task
  good : ∀ sub ∈ s.submissions ++ s.handler.answering, sub.Good
  handing : ∀ t rv tid, s.handler = .enqueue t rv tid → rv = .success ∧ t.record.id = tid
  fresh : ∀ t ∈ s.pool.pushes ++ s.handler.waiting, t.record.Fresh
  pointers : ((s.pool.pushes ++ s.handler.waiting).map PoolTask.info).Nodup
  owned : ∀ t ∈ s.pool.pushes ++ s.handler.waiting,
    ∃ ti, s.sys.core.heap[t.info]? = some ti ∧ ti.id = t.record.id
  idle : ∀ t ∈ s.pool.items ++ s.handler.waiting, s.sys.core.heap[t.info]? = some t.record
  busy : ∀ (w : ℕ) (t : PoolTask) (e : Execution), s.pool.workers[w]? = some (.busy t e) →
    s.sys.core.heap[t.info]? = some e.record

namespace DaemonSystem

variable {s : DaemonSystem}

/-- A creation that leaves the manager alone leaves the daemon alone. -/
theorem enter_taskMgr (hs : s.core.Sound) : s.enter s.taskMgr = s := by
  by_cases htaken : s.nextId ∈ s.core.table
  · exact enter_of_taken htaken
  · have hfind : s.taskMgr.find s.nextId = none := by
      rw [← mem_taskMgr hs] at htaken
      exact AList.lookup_eq_none.mpr htaken
    unfold enter
    rw [if_neg htaken, hfind]

/-- The records before a creation are there after it. -/
theorem Entered.heap {s' : DaemonSystem} (h : s.Entered s') {p : ℕ} {ti : TaskInfo}
    (hp : s.core.heap[p]? = some ti) : s'.core.heap[p]? = some ti := by
  obtain rfl | ⟨ti', -, -, rfl⟩ := h
  · exact hp
  · exact StatusSystem.Inv.heap_create_of_some hp

end DaemonSystem

/-- The record and the task of a submission that is accepted. -/
theorem PoolSystem.create_of_success {s : PoolSystem} {u : Urd} {type : IotaskType}
    {auth : Credentials} {bs : List Backend} {rs : List ResourceInfo} {size : UInt64}
    {g : GenericTask} (hs : s.sys.core.Sound)
    (hcreate : s.sys.taskMgr.createLocalInitiatedTask type auth bs rs size =
      .ok (u.taskMgr, .success, some g)) (hrunners : u.runners = [g]) :
    ∃ ti, ti.Fresh ∧ ti.id = g.info ∧ s.sys.Entered (s.sys.enter u.taskMgr) ∧
      (s.sys.enter u.taskMgr).core.heap[s.sys.core.heap.length]? = some ti ∧
      s.create u .success g.info =
        { s with sys := s.sys.enter u.taskMgr,
                 handler := .enqueue ⟨g, s.sys.core.heap.length, ti⟩ .success g.info } := by
  have hfree : s.sys.nextId ∉ s.sys.taskMgr.taskInfo := by
    intro htaken
    have heq : s.sys.taskMgr.createLocalInitiatedTask type auth bs rs size =
        .ok (s.sys.taskMgr, .tooManyTasks, none) := if_pos htaken
    rw [heq] at hcreate
    have hcode := (Prod.mk.inj (Prod.mk.inj (Except.ok.inj hcreate)).2).1
    cases hcode
  have hfree' : s.sys.nextId ∉ s.sys.core.table := by
    rwa [← DaemonSystem.mem_taskMgr hs]
  have hentered := DaemonSystem.entered_createLocal hs hcreate
  obtain ⟨src, dst, htm, -, hinfo⟩ := createLocal_record hfree hcreate
  have hg : g.info = s.sys.nextId := hinfo g rfl
  obtain ⟨ti, hti, hfresh, hid⟩ : ∃ ti, u.taskMgr = s.sys.taskMgr.enter ti ∧ ti.Fresh ∧
      ti.id = s.sys.nextId := ⟨_, htm, TaskInfo.fresh_new _ _ _ _ _ _ _ _ _, rfl⟩
  have hcore : (s.sys.enter u.taskMgr).core = s.sys.core.create ti := by
    rw [hti, DaemonSystem.enter_enter hs hfree]
  have hget : (s.sys.enter u.taskMgr).core.heap[s.sys.core.heap.length]? = some ti := by
    rw [hcore]
    exact StatusSystem.Inv.heap_create_self
  have hlookup : (s.sys.enter u.taskMgr).core.table.lookup g.info =
      some s.sys.core.heap.length := by
    rw [hcore, hg]
    show (s.sys.core.table.emplace ti.id _).lookup _ = _
    rw [hid]
    exact (Table.lookup_emplace_of_notMem hfree').trans (if_pos rfl)
  refine ⟨ti, hfresh, hid.trans hg.symm, hentered, hget, ?_⟩
  have hcarried : (s.sys.enter u.taskMgr).carried g =
      some ⟨g, s.sys.core.heap.length, ti⟩ := by
    unfold DaemonSystem.carried
    rw [hlookup, Option.bind_eq_bind, Option.bind_some, hget]
    rfl
  unfold PoolSystem.create
  dsimp only
  rw [hrunners, List.filterMap_cons_some hcarried]

namespace PoolSystem.Inv

variable {s : PoolSystem}

theorem ofInit (dryRun : Bool) (namespaces : NamespaceManager) (n : ℕ) :
    (PoolSystem.init dryRun namespaces n).Inv where
  sound := StatusSystem.Sound.ofInit
  pool := .ofInit n
  answers := rfl
  good sub hsub := absurd hsub List.not_mem_nil
  handing t rv tid h := by cases h
  fresh t ht := absurd ht List.not_mem_nil
  pointers := List.nodup_nil
  owned t ht := absurd ht List.not_mem_nil
  idle t ht := absurd ht List.not_mem_nil
  busy w t e hw := by
    obtain ⟨hlt, hget⟩ := List.getElem?_eq_some_iff.mp hw
    simp [PoolSystem.init, ThreadPool.init] at hget

/-- New records, or none, while the handler is somewhere without a task. -/
theorem withSys (h : s.Inv) (hwaiting : s.handler.waiting = []) {sys : DaemonSystem}
    (hsound : sys.core.Sound)
    (hheap : ∀ (p : ℕ) (ti : TaskInfo), s.sys.core.heap[p]? = some ti →
      sys.core.heap[p]? = some ti) {handler : SubmitPc} (hpc : handler.waiting = [])
    (hanswers : s.pool.pushes = (s.submissions ++ handler.answering).filterMap Submission.task)
    (hgood : ∀ sub ∈ s.submissions ++ handler.answering, sub.Good) :
    PoolSystem.Inv { s with sys := sys, handler := handler } where
  sound := hsound
  pool := h.pool
  answers := hanswers
  good := hgood
  handing t rv tid heq := by
    obtain rfl : handler = .enqueue t rv tid := heq
    cases hpc
  fresh t ht := h.fresh t (by rwa [hwaiting, ← hpc])
  pointers := by
    show ((s.pool.pushes ++ handler.waiting).map PoolTask.info).Nodup
    rw [hpc, ← hwaiting]
    exact h.pointers
  owned t ht := by
    obtain ⟨ti, hget, hid⟩ := h.owned t (by rwa [hwaiting, ← hpc])
    exact ⟨ti, hheap _ _ hget, hid⟩
  idle t ht := hheap _ _ (h.idle t (by rwa [hwaiting, ← hpc]))
  busy w t e hw := hheap _ _ (h.busy w t e hw)

/-- The pointers are in the heap. -/
theorem info_lt (h : s.Inv) {t : PoolTask} (ht : t ∈ s.pool.pushes ++ s.handler.waiting) :
    t.info < s.sys.core.heap.length := by
  obtain ⟨ti, hget, -⟩ := h.owned t ht
  exact (List.getElem?_eq_some_iff.mp hget).1

/-- A submission that is accepted. -/
theorem accept (h : s.Inv) (hidle : s.handler = .idle) {sys : DaemonSystem} {g : GenericTask}
    {ti : TaskInfo} (hsound : sys.core.Sound)
    (hheap : ∀ (p : ℕ) (ti : TaskInfo), s.sys.core.heap[p]? = some ti →
      sys.core.heap[p]? = some ti) (hfresh : ti.Fresh) (hid : ti.id = g.info)
    (hget : sys.core.heap[s.sys.core.heap.length]? = some ti) :
    PoolSystem.Inv { s with sys := sys,
                            handler := .enqueue ⟨g, s.sys.core.heap.length, ti⟩ .success g.info } := by
  have hold : ∀ t ∈ s.pool.pushes, t ∈ s.pool.pushes ++ s.handler.waiting := fun t ht =>
    List.mem_append_left _ ht
  refine ⟨hsound, h.pool, ?_, ?_, ?_, ?_, ?_, ?_, ?_, fun w t e hw => hheap _ _ (h.busy w t e hw)⟩
  · have hanswers := h.answers
    rw [hidle] at hanswers
    exact hanswers
  · have hgood := h.good
    rw [hidle] at hgood
    exact hgood
  · rintro t rv tid ⟨⟩
    exact ⟨rfl, hid⟩
  · intro t ht
    obtain ht | ht := List.mem_append.mp ht
    · exact h.fresh t (hold t ht)
    · rw [List.mem_singleton.mp ht]
      exact hfresh
  · show ((s.pool.pushes ++ [_]).map PoolTask.info).Nodup
    rw [List.map_append]
    have hpointers := h.pointers
    rw [hidle] at hpointers
    simp only [SubmitPc.waiting, List.append_nil] at hpointers
    refine hpointers.append (List.nodup_singleton _) ?_
    rw [List.map_singleton, List.disjoint_singleton]
    intro hmem
    obtain ⟨t, ht, hinfo⟩ := List.mem_map.mp hmem
    have hlt := h.info_lt (hold t ht)
    rw [hinfo] at hlt
    exact absurd hlt (lt_irrefl _)
  · intro t ht
    obtain ht | ht := List.mem_append.mp ht
    · obtain ⟨ti', hget', hid'⟩ := h.owned t (hold t ht)
      exact ⟨ti', hheap _ _ hget', hid'⟩
    · rw [List.mem_singleton.mp ht]
      exact ⟨ti, hget, rfl⟩
  · intro t ht
    obtain ht | ht := List.mem_append.mp ht
    · exact hheap _ _ (h.idle t (List.mem_append_left _ ht))
    · rw [List.mem_singleton.mp ht]
      exact hget

theorem submit (h : s.Inv) {u : Urd} {creds : Option Credentials} {type : IotaskType}
    {src dst : Option ResourceInfo} {size : UInt64} {rv : UrdError} {tid : IotaskId}
    (hidle : s.handler = .idle)
    (hcall : s.urd.iotaskCreateHandler creds type src dst size = .ok (u, rv, tid)) :
    (s.create u rv tid).Inv := by
  obtain ⟨hrv, hrunners, htm⟩ | ⟨rfl, auth, bs, g, hcreate, hrunners, rfl⟩ :=
    iotaskCreateHandler_cases hcall
  · have hentered : s.sys.Entered (s.sys.enter u.taskMgr) := by
      obtain htm | ⟨auth, bs, t, hcreate⟩ := htm
      · rw [htm]
        exact Or.inl (DaemonSystem.enter_taskMgr h.sound)
      · exact DaemonSystem.entered_createLocal h.sound hcreate
    have hsound : (s.sys.enter u.taskMgr).core.Sound := by
      obtain heq | hstep := hentered.core
      · rw [heq]
        exact h.sound
      · exact StatusSystem.Sound.step _ _ h.sound hstep
    have hcreate : s.create u rv tid =
        { s with sys := s.sys.enter u.taskMgr, handler := .respond ⟨rv, tid, none⟩ } := by
      unfold PoolSystem.create
      dsimp only
      rw [hrunners]
      rfl
    rw [hcreate]
    refine h.withSys (by rw [hidle]; rfl) hsound (fun p ti => hentered.heap) rfl ?_ ?_
    · have hanswers := h.answers
      rw [hidle] at hanswers
      rw [hanswers, List.filterMap_append, List.filterMap_append]
      rfl
    · intro sub hsub
      obtain hsub | hsub := List.mem_append.mp hsub
      · exact h.good sub (List.mem_append_left _ hsub)
      · rw [List.mem_singleton.mp hsub]
        exact ⟨fun hsuccess => absurd hsuccess hrv, fun _ => rfl⟩
  · obtain ⟨ti, hfresh, hid, hentered, hget, heq⟩ :=
      PoolSystem.create_of_success h.sound hcreate hrunners
    rw [heq]
    refine h.accept hidle ?_ (fun p ti => hentered.heap) hfresh hid hget
    obtain hcore | hstep := hentered.core
    · rw [hcore]
      exact h.sound
    · exact StatusSystem.Sound.step _ _ h.sound hstep

/-- The task of the handler is not in the queue yet. -/
theorem not_pushed (h : s.Inv) {t : PoolTask} {rv : UrdError} {tid : IotaskId}
    (hpc : s.handler = .enqueue t rv tid) : t ∉ s.pool.pushes := by
  intro hmem
  have hpointers := h.pointers
  rw [hpc, SubmitPc.waiting, List.map_append, List.map_singleton] at hpointers
  exact List.disjoint_of_nodup_append hpointers (List.mem_map_of_mem hmem)
    (List.mem_singleton_self _)

theorem enqueue (h : s.Inv) {pool : ThreadPool PoolTask Execution ExecLabel} {t : PoolTask}
    {rv : UrdError} {tid : IotaskId} (hpc : s.handler = .enqueue t rv tid)
    (hstep : ThreadPool.Step poolJobs s.pool (.push t) pool) :
    PoolSystem.Inv { s with pool := pool, handler := .respond ⟨rv, tid, some t⟩ } := by
  obtain ⟨hpushes, hitems, hbusy⟩ := hstep.push_spec
  obtain ⟨rfl, hid⟩ := h.handing t rv tid hpc
  have hall : pool.pushes ++ (SubmitPc.respond ⟨.success, tid, some t⟩).waiting =
      s.pool.pushes ++ s.handler.waiting := by
    rw [hpushes, hpc]
    exact List.append_nil _
  refine ⟨h.sound, h.pool.step (fun j hj => ?_) hstep, ?_, ?_, fun t rv tid heq => (by cases heq),
    fun t ht => h.fresh t (hall ▸ ht), ?_, fun t ht => h.owned t (hall ▸ ht), ?_,
    fun w t e hw => h.busy w t e ((hbusy w t e).mp hw)⟩
  · cases hj
    exact h.not_pushed hpc
  · have hanswers := h.answers
    rw [hpc] at hanswers
    show pool.pushes = _
    rw [hpushes, hanswers, List.filterMap_append, List.filterMap_append]
    simp [SubmitPc.answering]
  · intro sub hsub
    obtain hsub | hsub := List.mem_append.mp hsub
    · exact h.good sub (List.mem_append_left _ hsub)
    · rw [List.mem_singleton.mp hsub]
      exact ⟨fun _ => ⟨t, rfl, hid⟩, fun hne => absurd rfl hne⟩
  · show ((pool.pushes ++ _).map PoolTask.info).Nodup
    rw [hall]
    exact h.pointers
  · intro t' ht'
    apply h.idle t'
    rw [hpc]
    have hmem : t' ∈ pool.items ++ [] := ht'
    rw [hitems, List.append_nil] at hmem
    exact hmem

theorem respond (h : s.Inv) {sub : Submission} (hpc : s.handler = .respond sub) :
    PoolSystem.Inv { s with handler := .idle, submissions := s.submissions ++ [sub] } := by
  have hsubs : s.submissions ++ s.handler.answering =
      s.submissions ++ [sub] ++ SubmitPc.idle.answering := by
    rw [hpc]
    exact (List.append_nil _).symm
  have hwaiting : s.handler.waiting = SubmitPc.idle.waiting := by
    rw [hpc]
    rfl
  refine ⟨h.sound, h.pool, ?_, ?_, fun t rv tid heq => (by cases heq),
    fun t ht => h.fresh t (hwaiting ▸ ht), ?_, fun t ht => h.owned t (hwaiting ▸ ht),
    fun t ht => h.idle t (hwaiting ▸ ht), h.busy⟩
  · show _ = (s.submissions ++ [sub] ++ _).filterMap _
    rw [← hsubs]
    exact h.answers
  · intro sub' hsub'
    exact h.good sub' (by rw [hsubs]; exact hsub')
  · show ((s.pool.pushes ++ _).map PoolTask.info).Nodup
    rw [← hwaiting]
    exact h.pointers

theorem silent (h : s.Inv) {pool : ThreadPool PoolTask Execution ExecLabel}
    (hstep : ThreadPool.Step poolJobs s.pool .silent pool) :
    PoolSystem.Inv { s with pool := pool } := by
  obtain ⟨hpushes, hitems, hbusy⟩ := hstep.silent_spec
  refine ⟨h.sound, h.pool.step (fun j hj => (by cases hj)) hstep, hpushes.trans h.answers, h.good,
    h.handing, fun t ht => h.fresh t (hpushes ▸ ht), ?_, fun t ht => h.owned t (hpushes ▸ ht), ?_,
    ?_⟩
  · show ((pool.pushes ++ _).map PoolTask.info).Nodup
    rw [hpushes]
    exact h.pointers
  · intro t ht
    obtain ht | ht := List.mem_append.mp ht
    · exact h.idle t (List.mem_append_left _ (hitems t ht))
    · exact h.idle t (List.mem_append_right _ ht)
  · intro w t e hw
    obtain hw | ⟨ht, rfl⟩ := hbusy w t e hw
    · exact h.busy w t e hw
    · exact h.idle t (List.mem_append_left _ ht)

/-- Two tasks of the system with the same record are the same. -/
theorem info_inj (h : s.Inv) {t t' : PoolTask} (ht : t ∈ s.pool.pushes ++ s.handler.waiting)
    (ht' : t' ∈ s.pool.pushes ++ s.handler.waiting) (hinfo : t.info = t'.info) : t = t' :=
  List.inj_on_of_nodup_map h.pointers ht ht' hinfo

theorem exec (h : s.Inv) {pool : ThreadPool PoolTask Execution ExecLabel} {t : PoolTask}
    {e e' : Execution} (hstep : ThreadPool.Step poolJobs s.pool (.exec t e e') pool) :
    PoolSystem.Inv { s with sys := s.sys.setRecord t.info e'.record, pool := pool } := by
  obtain ⟨hpushes, hitems, w, l, hw, hexec, hworkers⟩ := hstep.exec_spec
  have ht : t ∈ s.pool.pushes ++ s.handler.waiting :=
    List.mem_append_left _ (h.pool.mem_pushes_of_busy hw)
  obtain ⟨ls, hls, hexecs⟩ := h.pool.busy w t e hw
  obtain ⟨hrecord, -⟩ := PoolTask.Exec.record hexec
    (PoolTask.reached_of_execs (h.fresh t ht) hexecs)
  have hget := h.busy w t e hw
  have hid : e'.record.id = e.record.id := by
    obtain heq | hupd := hrecord
    · rw [heq]
    · exact hupd.spec.2
  -- the other tasks have other records
  have hother : ∀ t' ∈ s.pool.pushes ++ s.handler.waiting, t' ≠ t → ∀ ti,
      s.sys.core.heap[t'.info]? = some ti →
      (s.sys.core.heap.set t.info e'.record)[t'.info]? = some ti := by
    intro t' ht' hne ti hti
    have hinfo : t.info ≠ t'.info := fun heq => hne (h.info_inj ht' ht heq.symm)
    rwa [List.getElem?_set_ne hinfo]
  have hqueued : t ∉ s.pool.items ++ s.handler.waiting := by
    intro hmem
    obtain hmem | hmem := List.mem_append.mp hmem
    · have heq := (h.pool.queued t hmem).symm.trans hls
      simp [ThreadPool.started] at heq
    · have hnodup := List.Nodup.of_map _ h.pointers
      exact List.disjoint_of_nodup_append hnodup (h.pool.mem_pushes_of_busy hw) hmem
  refine ⟨?_, h.pool.step (fun j hj => (by cases hj)) hstep, hpushes.trans h.answers, h.good,
    h.handing, fun t ht => h.fresh t (hpushes ▸ ht), ?_, ?_, ?_, ?_⟩
  · obtain heq | hupd := hrecord
    · have hsame : s.sys.setRecord t.info e'.record = s.sys := by
        obtain ⟨hlt, hval⟩ := List.getElem?_eq_some_iff.mp hget
        unfold DaemonSystem.setRecord
        rw [heq, ← hval, List.set_getElem_self]
      rw [hsame]
      exact h.sound
    · exact h.sound.update hget hupd
  · show ((pool.pushes ++ _).map PoolTask.info).Nodup
    rw [hpushes]
    exact h.pointers
  · intro t' ht'
    have ht'' : t' ∈ s.pool.pushes ++ s.handler.waiting := hpushes ▸ ht'
    obtain ⟨ti, hti, hid'⟩ := h.owned t' ht''
    by_cases hne : t' = t
    · subst hne
      refine ⟨e'.record, StatusSystem.Inv.heap_update_self hget, ?_⟩
      obtain rfl := Option.some.inj (hget.symm.trans hti)
      exact hid.trans hid'
    · exact ⟨ti, hother t' ht'' hne ti hti, hid'⟩
  · intro t' ht'
    have ht'' : t' ∈ s.pool.items ++ s.handler.waiting := hitems ▸ ht'
    have hne : t' ≠ t := fun heq => hqueued (heq ▸ ht'')
    refine hother t' ?_ hne _ (h.idle t' ht'')
    obtain hmem | hmem := List.mem_append.mp ht''
    · exact List.mem_append_left _ (h.pool.mem_pushes_of_items hmem)
    · exact List.mem_append_right _ hmem
  · intro w' t' e'' hw'
    have hw'' : (s.pool.workers.set w (.busy t e'))[w']? = some (.busy t' e'') := hworkers ▸ hw'
    by_cases hww : w = w'
    · subst hww
      rw [List.getElem?_set_self (List.getElem?_eq_some_iff.mp hw).1] at hw''
      cases hw''
      exact StatusSystem.Inv.heap_update_self hget
    · rw [List.getElem?_set_ne hww] at hw''
      have hne : t' ≠ t := by
        rintro rfl
        exact hww (h.pool.worker_unique hw hw'')
      exact hother t' (List.mem_append_left _ (h.pool.mem_pushes_of_busy hw'')) hne _
        (h.busy w' t' e'' hw'')

theorem step (s s' : PoolSystem) (h : s.Inv) (hstep : PoolStep s s') : s'.Inv := by
  cases hstep with
  | submit hidle _ hcall => exact h.submit hidle hcall
  | enqueue hpc hpush => exact h.enqueue hpc hpush
  | respond hpc => exact h.respond hpc
  | exec hexec => exact h.exec hexec
  | silent hsilent => exact h.silent hsilent
  | @other sys hidle hother hheap =>
      have hwaiting : s.handler.waiting = [] := by
        rw [hidle]
        rfl
      refine h.withSys hwaiting (DaemonStep.sound h.sound (.api hother)) ?_ hwaiting h.answers h.good
      intro p ti hp
      rwa [hheap]

end PoolSystem.Inv

/-! ### Accepted work -/

/-- The whole history of a task that the worker `w` has executed; `st` is what the callback of a
copy or a move has found. -/
def PoolTask.wholeHistory (t : PoolTask) (w : ℕ) (st : TaskStatus) :
    List (JobEvent PoolTask ExecLabel) :=
  [.pushed t, .popped w t, .label w t .returned] ++
    (if t.generic.type = .copy ∨ t.generic.type = .move then [.label w t (.epilog st)] else []) ++
    [.ended w t]

theorem PoolTask.hasEpilog_iff {t : PoolTask} :
    t.hasEpilog = true ↔ t.generic.type = .copy ∨ t.generic.type = .move := by
  simp [hasEpilog]

/-- What is true of accepted work at any time.  A submission that was answered with success has put
one task into the queue, with the record of the id in the answer, and one that was answered with
an error has put none.  Tasks leave the queue in order and once; each is at one place; its function
returns before the callback of a copy or a move is run once, by the same worker and with a final
status.  And before the pool is stopped a task does not wait while all workers sleep. -/
structure PoolSystem.AcceptedOnce (s : PoolSystem) : Prop where
  accepted : ∀ sub ∈ s.submissions, sub.rv = .success → ∃ t ti, sub.task = some t ∧
    s.sys.core.heap[t.info]? = some ti ∧ ti.id = sub.tid ∧
    (ti.status.active = true → s.sys.core.table.lookup sub.tid = some t.info)
  refused : ∀ sub ∈ s.submissions, sub.rv ≠ .success → sub.task = none
  pushed : s.pool.pushes = (s.submissions ++ s.handler.answering).filterMap Submission.task
  own : (s.pool.pushes.map PoolTask.info).Nodup
  order : s.pool.pops <+: s.pool.pushes
  once : s.pool.pops.Nodup
  placed : ∀ t ∈ s.pool.pushes, ∃! p, s.pool.At t p
  underway : ∀ t ∈ s.pool.pushes, ∃ w st, st.terminal = true ∧
    s.pool.history t <+: t.wholeHistory w st
  executed : ∀ w t, .ended w t ∈ s.pool.log → ∃ st, st.terminal = true ∧
    s.pool.history t = t.wholeHistory w st
  awake : s.pool.done = false → s.pool.items ≠ [] →
    ∃ x ∈ s.pool.workers, x ≠ .asleep ∧ x ≠ .exited

/-- The history of a task in execution. -/
theorem PoolTask.started_prefix {t : PoolTask} {ls : List ExecLabel} {e : Execution} (w : ℕ)
    (h : t.Reached ls e) :
    ∃ st, st.terminal = true ∧ ThreadPool.started w t ls <+: t.wholeHistory w st := by
  cases e with
  | func p ti =>
      obtain ⟨rfl, -⟩ := h
      exact ⟨.finished, rfl, ⟨_, rfl⟩⟩
  | epilog ti =>
      obtain ⟨rfl, hst⟩ := h
      refine ⟨ti.status, hst, ⟨(if t.generic.type = .copy ∨ t.generic.type = .move then
        [.label w t (.epilog ti.status)] else []) ++ [.ended w t], ?_⟩⟩
      simp only [PoolTask.wholeHistory, List.append_assoc]
      rfl
  | ended ti =>
      obtain ⟨rfl, hst⟩ := h
      refine ⟨ti.status, hst, ⟨[.ended w t], ?_⟩⟩
      simp only [PoolTask.wholeHistory, ThreadPool.started, ← PoolTask.hasEpilog_iff]
      split_ifs <;> rfl

namespace PoolSystem.Inv

variable {s : PoolSystem}

theorem fresh_of_pushed (h : s.Inv) {t : PoolTask} (ht : t ∈ s.pool.pushes) : t.record.Fresh :=
  h.fresh t (List.mem_append_left _ ht)

theorem executed (h : s.Inv) {w : ℕ} {t : PoolTask} (hend : .ended w t ∈ s.pool.log) :
    ∃ st, st.terminal = true ∧ s.pool.history t = t.wholeHistory w st := by
  obtain ⟨ls, e, hls, hexecs, ti, rfl⟩ := h.pool.history_of_ended hend
  have ht : t ∈ s.pool.pushes := h.pool.known _ hend
  obtain ⟨rfl, hst⟩ := PoolTask.reached_of_execs (h.fresh_of_pushed ht) hexecs
  refine ⟨ti.status, hst, hls.trans ?_⟩
  simp only [PoolTask.wholeHistory, ThreadPool.started, ← PoolTask.hasEpilog_iff]
  split_ifs <;> rfl

theorem underway (h : s.Inv) {t : PoolTask} (ht : t ∈ s.pool.pushes) :
    ∃ w st, st.terminal = true ∧ s.pool.history t <+: t.wholeHistory w st := by
  obtain ⟨p, hp, -⟩ := h.pool.existsUnique_place ht
  cases p with
  | queued =>
      refine ⟨0, .finished, rfl, ?_⟩
      rw [h.pool.queued t hp]
      exact ⟨_, rfl⟩
  | executing =>
      obtain ⟨w, e, hw⟩ := hp
      obtain ⟨ls, hls, hexecs⟩ := h.pool.busy w t e hw
      obtain ⟨st, hst, hprefix⟩ :=
        PoolTask.started_prefix w (PoolTask.reached_of_execs (h.fresh_of_pushed ht) hexecs)
      exact ⟨w, st, hst, hls ▸ hprefix⟩
  | executed =>
      obtain ⟨w, hend⟩ := hp
      obtain ⟨st, hst, heq⟩ := h.executed hend
      exact ⟨w, st, hst, heq ▸ List.prefix_rfl⟩

theorem acceptedOnce (h : s.Inv) (hawake : s.pool.Awake) : s.AcceptedOnce where
  accepted sub hsub hrv := by
    obtain ⟨t, htask, hid⟩ := (h.good sub (List.mem_append_left _ hsub)).1 hrv
    have ht : t ∈ s.pool.pushes := by
      rw [h.answers]
      exact List.mem_filterMap.mpr ⟨sub, List.mem_append_left _ hsub, htask⟩
    obtain ⟨ti, hget, hid'⟩ := h.owned t (List.mem_append_left _ ht)
    refine ⟨t, ti, htask, hget, hid'.trans hid, fun hactive => ?_⟩
    rw [← hid, ← hid']
    exact h.sound.activeIn t.info ti hget hactive
  refused sub hsub hrv := (h.good sub (List.mem_append_left _ hsub)).2 hrv
  pushed := h.answers
  own := by
    have hpointers := h.pointers
    rw [List.map_append] at hpointers
    exact List.Nodup.of_append_left hpointers
  order := h.pool.pops_prefix
  once := h.pool.pops_nodup
  placed t ht := h.pool.existsUnique_place ht
  underway t ht := h.underway ht
  executed w t hend := h.executed hend
  awake hdone hitems := by
    obtain ⟨x, hx, hne⟩ := hawake.awake hdone hitems
    refine ⟨x, hx, hne, ?_⟩
    rintro rfl
    exact (hawake.alive hdone).2 hx

end PoolSystem.Inv

/-- A step of the system is one of the pool, or leaves the pool alone. -/
theorem PoolStep.pool {s s' : PoolSystem} (h : PoolStep s s') :
    s'.pool = s.pool ∨ ∃ a, ThreadPool.Step poolJobs s.pool a s'.pool := by
  cases h with
  | submit _ _ _ => exact Or.inl rfl
  | respond _ => exact Or.inl rfl
  | other _ _ _ => exact Or.inl rfl
  | enqueue _ h => exact Or.inr ⟨_, h⟩
  | exec h => exact Or.inr ⟨_, h⟩
  | silent h => exact Or.inr ⟨_, h⟩

theorem PoolStep.awake (s s' : PoolSystem) (hs : s.pool.Awake) (h : PoolStep s s') :
    s'.pool.Awake := by
  obtain heq | ⟨a, hstep⟩ := h.pool
  · rwa [heq]
  · exact hs.step hstep

/-- Once the queue is invalid, nothing leaves it. -/
theorem PoolSystem.pops_of_invalid {s s' : PoolSystem} (hrun : Run PoolStep s s')
    (hvalid : s.pool.valid = false) : s'.pool.valid = false ∧ s'.pool.pops = s.pool.pops := by
  refine Run.invariant (P := fun s' => s'.pool.valid = false ∧ s'.pool.pops = s.pool.pops) ?_ hrun
    ⟨hvalid, rfl⟩
  rintro s₁ s₂ ⟨hinvalid, hpops⟩ hstep
  obtain heq | ⟨a, hpool⟩ := hstep.pool
  · rw [heq]
    exact ⟨hinvalid, hpops⟩
  · obtain ⟨hinvalid', hpops'⟩ := hpool.pops_of_invalid hinvalid
    exact ⟨hinvalid', hpops'.trans hpops⟩

/-- **Accepted work is executed once**, however submissions, workers and a stop of the pool
interleave; and once the queue has been invalidated by the stop, no task is taken from it. -/
theorem accepted_once {dryRun : Bool} {namespaces : NamespaceManager} {n : ℕ} (hn : 1 ≤ n)
    {s : PoolSystem} (hrun : Run PoolStep (.init dryRun namespaces n) s) :
    s.AcceptedOnce ∧
    ∀ s', Run PoolStep s s' → s.pool.valid = false → s'.pool.pops = s.pool.pops := by
  have hinv : s.Inv := Run.invariant PoolSystem.Inv.step hrun (.ofInit dryRun namespaces n)
  have hawake : s.pool.Awake := by
    refine Run.invariant (P := fun s => s.pool.Awake) PoolStep.awake hrun ?_
    exact ThreadPool.Awake.ofInit hn
  exact ⟨hinv.acceptedOnce hawake, fun s' hrun' hvalid =>
    (PoolSystem.pops_of_invalid hrun' hvalid).2⟩

/-- A worker makes a step of its task. -/
theorem PoolSystem.exec_busy {s : PoolSystem} {w : ℕ} {t : PoolTask} {e e' : Execution}
    {l : Option ExecLabel} (hw : s.pool.workers[w]? = some (.busy t e)) (hexec : t.Exec e l e') :
    ∃ s', PoolStep s s' ∧ s'.pool.workers[w]? = some (.busy t e') ∧
      s'.submissions = s.submissions := by
  have hstep : ThreadPool.Step poolJobs s.pool (.exec t e e') _ := .exec w hw hexec
  exact ⟨_, .exec hstep, List.getElem?_set_self (List.getElem?_eq_some_iff.mp hw).1, rfl⟩

/-- A worker goes on with the body of its task. -/
theorem PoolSystem.run_body {s : PoolSystem} {w : ℕ} {t : PoolTask}
    {c c' : TaskProgram × TaskInfo} (hw : s.pool.workers[w]? = some (.busy t (.func c.1 c.2)))
    {es : TaskTrace} (h : Program.Trace anyOutcome c es c') :
    ∃ s', Run PoolStep s s' ∧ s'.pool.workers[w]? = some (.busy t (.func c'.1 c'.2)) ∧
      s'.submissions = s.submissions := by
  induction h with
  | refl => exact ⟨s, .refl, hw, rfl⟩
  | answer _ hanswer ih =>
      obtain ⟨s₁, hrun, hw₁, hsubs⟩ := ih
      obtain ⟨s', hstep, hw', hsubs'⟩ := exec_busy hw₁ (.func (.answer hanswer))
      exact ⟨s', hrun.tail hstep, hw', hsubs'.trans hsubs⟩
  | within _ hwithin ih =>
      obtain ⟨s₁, hrun, hw₁, hsubs⟩ := ih
      obtain ⟨s', hstep, hw', hsubs'⟩ := exec_busy hw₁ (.func (.within hwithin))
      exact ⟨s', hrun.tail hstep, hw', hsubs'.trans hsubs⟩

/-- The record of a copy within `tmp0`. -/
def requestedCopy : TaskInfo :=
  .new 1 .copy false ⟨1, 0, 0⟩ (some tmp0Backend) (some (.localPath "tmp0" "a")) (some tmp0Backend)
    (some (.localPath "tmp0" "b")) 3

/-- Its entry in the queue. -/
def copyJob : PoolTask :=
  ⟨⟨.copy, 1, some TransferorKind.localPathToLocalPath.plugin⟩, 0, requestedCopy⟩

/-- The request to copy, in the hands of the handler. -/
def copyHandled : PoolSystem :=
  (PoolSystem.init false tmp0 2).create
    ⟨false, tmp0, (DaemonSystem.init false tmp0).taskMgr.enter requestedCopy, [copyJob.generic]⟩
    .success 1

/-- The copy is answered and taken out by the first of two workers. -/
theorem copy_popped : ∃ s, Run PoolStep (.init false tmp0 2) s ∧
    s.submissions = [⟨.success, 1, some copyJob⟩] ∧
    s.pool.workers[0]? = some (.busy copyJob (.func copyJob.call requestedCopy)) := by
  have hsubmit : PoolStep (.init false tmp0 2) copyHandled :=
    @PoolStep.submit (.init false tmp0 2) _ (some ⟨1, 0, 0⟩) .copy
      (some (.localPath "tmp0" "a")) (some (.localPath "tmp0" "b")) 3 _ _ rfl ⟨rfl, rfl⟩ rfl
  have henqueue : PoolStep copyHandled _ :=
    .enqueue rfl (.push copyJob (.none (by simp [copyHandled, PoolSystem.create, PoolSystem.init,
      ThreadPool.init])))
  have hanswered := ((Relation.ReflTransGen.single hsubmit).tail henqueue).tail (.respond rfl)
  have hpopped := (hanswered.tail (.silent (.test 0 rfl))).tail (.silent (.pop 0 rfl rfl rfl))
  exact ⟨_, hpopped, rfl, rfl⟩

/-- The copy is executed, with its callback. -/
theorem copy_executed : ∃ s, Run PoolStep (.init false tmp0 2) s ∧ s.AcceptedOnce ∧
    s.submissions = [⟨.success, 1, some copyJob⟩] ∧
    ∃ st, st.terminal = true ∧ s.pool.history copyJob =
      [.pushed copyJob, .popped 0 copyJob, .label 0 copyJob .returned,
       .label 0 copyJob (.epilog st), .ended 0 copyJob] := by
  obtain ⟨s₀, hpopped, hsubs₀, hw₀⟩ := copy_popped
  obtain ⟨es, hreturns, -⟩ := @Task.copy_returns TransferorKind.localPathToLocalPath.plugin
    requestedCopy _ _ _ _ rfl rfl rfl rfl (.localPath tmp0Backend "/a".toList false)
    (some (.localPath tmp0Backend "/b".toList false))
  obtain ⟨s₁, hbody, hw₁, hsubs₁⟩ := PoolSystem.run_body hw₀ hreturns
  obtain ⟨s₂, hret, hw₂, hsubs₂⟩ := PoolSystem.exec_busy hw₁ .ret
  obtain ⟨s₃, hepilog, hw₃, hsubs₃⟩ := PoolSystem.exec_busy hw₂ (.epilog rfl)
  have hend : ThreadPool.Step poolJobs s₃.pool .silent _ := .finish 0 hw₃ ⟨_, rfl⟩
  have hrun := (((hpopped.trans hbody).tail hret).tail hepilog).tail (.silent hend)
  have honce := (accepted_once (by decide) hrun).1
  exact ⟨_, hrun, honce, (hsubs₃.trans (hsubs₂.trans hsubs₁)).trans hsubs₀,
    honce.executed 0 copyJob (List.mem_append_right _ List.mem_cons_self)⟩

end Norns
