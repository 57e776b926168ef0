import Norns.Rpc
import Norns.Status
import Norns.TaskIds

/-! # The threads of the daemon

One thread serves the API: it creates tasks for the clients, answers their status requests and
executes the commands.  The workers run the tasks of the clients.  The threads of the network
service run the handlers of pushes and pulls and, later, the callbacks of the bulk operations that
these have posted.  `DaemonSystem` puts the records and the table of `Status` together with the
pause flag, the command in execution and the calls of `Rpc`; a step is a step of one thread.

Nothing orders a call of a peer and a shutdown: the handler tests the flag when it starts, and the
record of its task says `finished` as soon as the operation is posted.

* `safe_shutdown`: after a successful shutdown nothing is active, outstanding or created any more,
  provided that no call is under way when the tasks have been counted.
* `table_hygiene`: the table holds active tasks and those that a client has yet to ask for, as
  long as no task of a peer ends; the record of such a task has no reader.

A step that stops the process, such as a failed assertion in a handler, has no state after it. -/

namespace Norns

open Lib

/-! ### The system -/

/-- A push or a pull that has arrived. -/
structure InboundCall where
  req : Inbound
  /-- the value of `m_is_paused` that the handler has read. -/
  paused : Option Bool
  st : TransferState
  /-- the record of its task. -/
  record : Option ℕ

/-- Where the thread that serves the API is in `command_handler`, for a shutdown. -/
inductive CommandPc where
  | idle
  /-- `pause_listening` has returned. -/
  | paused
  /-- `count_if` holds the lock of the table: the records it has yet to look at, and its count. -/
  | counting (todo : List ℕ) (n : ℕ)
  /-- there are no active tasks; the namespaces are next. -/
  | namespaces
  /-- the answer is `success`, and `shutdown` has stopped the thread. -/
  | stopped
deriving DecidableEq, Repr

/-- The state of a daemon. -/
structure DaemonSystem where
  core : StatusSystem
  idBase : IotaskId
  dryRun : Bool
  /-- the records of the tasks that have been given to the workers. -/
  tasks : List ℕ
  isPaused : Bool
  namespaceMgr : NamespaceManager
  command : CommandPc
  calls : List InboundCall

namespace DaemonSystem

/-- A daemon with the given namespaces that has just started. -/
def init (dryRun : Bool) (namespaces : NamespaceManager) : DaemonSystem :=
  ⟨.init, 0, dryRun, [], false, namespaces, .idle, []⟩

/-- The id that `++m_id_base` yields. -/
def nextId (s : DaemonSystem) : IotaskId := s.idBase + 1

/-- The thread that serves the API waits for a request. -/
def Idle (s : DaemonSystem) : Prop := s.core.ipc = .idle ∧ s.command = .idle

/-- The task manager of the daemon: its table with the pointers followed. -/
def taskMgr (s : DaemonSystem) : TaskManager where
  idBase := s.idBase
  dryRun := s.dryRun
  taskInfo := s.core.table.filterMap fun p => s.core.heap[p]?
  transferorRegistry := loadTransferPlugins

/-- What a handler that has read the flag finds in the daemon. -/
def Sees (s : DaemonSystem) (c : InboundCall) (env : InboundEnv) : Prop :=
  c.paused = some env.isPaused ∧ env.namespaceMgr = s.namespaceMgr ∧ env.taskMgr = s.taskMgr

/-- The records after a creation that leaves the manager as `tm`. -/
def enter (s : DaemonSystem) (tm : TaskManager) : DaemonSystem :=
  if s.nextId ∈ s.core.table then s else
    match tm.find s.nextId with
    | some ti => { s with core := s.core.create ti, idBase := s.nextId }
    | none => s

/-- The rest of `command_handler` for a shutdown, and `check_shutdown`; `isEmpty` is what a
backend answers for the state of its mount. -/
def commandNext (isEmpty : Backend → Bool) (s : DaemonSystem) : Option DaemonSystem :=
  match s.command with
  | .idle => none
  | .paused => some { s with command := .counting (s.core.table.entries.map (·.2)) 0 }
  | .counting (p :: todo) n =>
      match s.core.heap[p]? with
      | some ti => some { s with command := .counting todo (if ti.status.active then n + 1 else n) }
      | none => none
  | .counting [] n =>
      if n ≠ 0 then some { s with isPaused := false, command := .idle }
      else some { s with command := .namespaces }
  | .namespaces =>
      if s.namespaceMgr.countIf (fun b => b.isTracked && !isEmpty b) ≠ 0 then
        some { s with isPaused := false, command := .idle }
      else some { s with command := .stopped }
  | .stopped => none

/-- The call `i` goes on as `c`. -/
def setCall (s : DaemonSystem) (i : ℕ) (c : InboundCall) : DaemonSystem :=
  { s with calls := s.calls.set i c }

/-- The record `p` becomes `ti`. -/
def setRecord (s : DaemonSystem) (p : ℕ) (ti : TaskInfo) : DaemonSystem :=
  { s with core := { s.core with heap := s.core.heap.set p ti } }

end DaemonSystem

namespace InboundCall

/-- A call before its handler has started. -/
def arrived (req : Inbound) : InboundCall := ⟨req, none, .init, none⟩

/-- The handler can go on.  It creates the record in a step of its own, and the task writes
`running` when it starts and its outcome when it ends. -/
def Ready (c : InboundCall) (heap : List TaskInfo) : Prop :=
  match c.st.pc with
  | .create _ => False
  | .run _ _ => ∃ p ti, c.record = some p ∧ heap[p]? = some ti ∧ ti.status = .running
  | .check _ => ∃ p ti, c.record = some p ∧ heap[p]? = some ti ∧ ti.status.terminal = true
  | _ => True

/-- What the task of the call does to its record. -/
inductive Writes : HandlerPc → TaskInfo → TaskInfo → Prop
  | start {b : Backend} {tx : Transferor} {ti : TaskInfo} (h : ti.status = .pending) :
      Writes (.run b tx) ti (ti.updateStatus .running)
  | complete {out : TaskOutcome} {ti : TaskInfo} (h : ti.status = .running)
      (hout : out.status.terminal = true) :
      Writes (.check out) ti (ti.updateStatusError out.status out.taskError out.sysError)

end InboundCall

/-- A step of the thread that serves the API. -/
inductive ApiStep : DaemonSystem → DaemonSystem → Prop
  | submit {s : DaemonSystem} {tm : TaskManager} {type : IotaskType} {auth : Credentials}
      {backendPtrs : List Backend} {rinfoPtrs : List ResourceInfo} {size : UInt64} {e : UrdError}
      {t : Option GenericTask} (hidle : s.Idle) (hopen : s.isPaused = false)
      (h : s.taskMgr.createLocalInitiatedTask type auth backendPtrs rinfoPtrs size =
        .ok (tm, e, t)) :
      ApiStep s { s.enter tm with
        tasks := if t.isSome then s.tasks ++ [s.core.heap.length] else s.tasks }
  | status {s : DaemonSystem} (tid : IotaskId) (hidle : s.Idle) :
      ApiStep s { s with core := s.core.request tid }
  | ipc {s : DaemonSystem} {core : StatusSystem} (hidle : s.command = .idle)
      (h : s.core.ipcNext = some core) : ApiStep s { s with core := core }
  | namespaces {s : DaemonSystem} (namespaces : NamespaceManager) (hidle : s.Idle) :
      ApiStep s { s with namespaceMgr := namespaces }
  | pauseListening {s : DaemonSystem} (hidle : s.Idle) : ApiStep s { s with isPaused := true }
  | resumeListening {s : DaemonSystem} (hidle : s.Idle) : ApiStep s { s with isPaused := false }
  | shutdown {s : DaemonSystem} (hidle : s.Idle) :
      ApiStep s { s with isPaused := true, command := .paused }
  | command {s s' : DaemonSystem} (isEmpty : Backend → Bool) (h : s.commandNext isEmpty = some s') :
      ApiStep s s'

/-- A step of a worker, on the record of a task that it has been given. -/
inductive WorkerStep : DaemonSystem → DaemonSystem → Prop
  | work {s : DaemonSystem} (p : ℕ) {ti ti' : TaskInfo} (hp : p ∈ s.tasks)
      (hget : s.core.heap[p]? = some ti) (hupd : WorkerUpdate ti ti') :
      WorkerStep s (s.setRecord p ti')

/-- A step of a thread of the network service, on the call `i`. -/
inductive NetworkStep : DaemonSystem → DaemonSystem → Prop
  | arrive {s : DaemonSystem} (req : Inbound) :
      NetworkStep s { s with calls := s.calls ++ [.arrived req] }
  | test {s : DaemonSystem} (i : ℕ) {c : InboundCall} (hget : s.calls[i]? = some c)
      (hpc : c.st.pc = .entry) (hnew : c.paused = none) :
      NetworkStep s (s.setCall i { c with paused := some s.isPaused })
  | handler {s : DaemonSystem} (i : ℕ) {c : InboundCall} {env : InboundEnv} {st : TransferState}
      (hget : s.calls[i]? = some c) (hready : c.Ready s.core.heap) (hsees : s.Sees c env)
      (h : handlerNext env c.req c.st = some st) (hlive : ∀ f, st.pc ≠ .crashed f) :
      NetworkStep s (s.setCall i { c with st := st })
  -- `count_if` and `create_remote_initiated_task` exclude each other
  | create {s : DaemonSystem} (i : ℕ) {c : InboundCall} {env : InboundEnv} {st : TransferState}
      {b : Backend} {tm : TaskManager} {e : UrdError} {t : Option GenericTask}
      (hget : s.calls[i]? = some c) (hpc : c.st.pc = .create b) (hsees : s.Sees c env)
      (hfree : ∀ todo n, s.command ≠ .counting todo n)
      (hcreate : createForPeer env c.req b = .ok (tm, e, t))
      (h : handlerNext env c.req c.st = some st) (hlive : ∀ f, st.pc ≠ .crashed f) :
      NetworkStep s ((s.enter tm).setCall i
        { c with st := st, record := t.map fun _ => s.core.heap.length })
  | task {s : DaemonSystem} (i : ℕ) {c : InboundCall} {p : ℕ} {ti ti' : TaskInfo}
      (hget : s.calls[i]? = some c) (hrec : c.record = some p) (hti : s.core.heap[p]? = some ti)
      (hupd : InboundCall.Writes c.st.pc ti ti') : NetworkStep s (s.setRecord p ti')
  | completion {s : DaemonSystem} (i : ℕ) {c : InboundCall} {env : InboundEnv} {st : TransferState}
      (hget : s.calls[i]? = some c) (h : completionNext env c.req c.st = some st) :
      NetworkStep s (s.setCall i { c with st := st })

/-- A step of some thread. -/
inductive DaemonStep (s s' : DaemonSystem) : Prop
  | api (h : ApiStep s s')
  | worker (h : WorkerStep s s')
  | network (h : NetworkStep s s')

/-! ### What a step does to the records -/

theorem InboundCall.Writes.workerUpdate {pc : HandlerPc} {ti ti' : TaskInfo}
    (h : InboundCall.Writes pc ti ti') : WorkerUpdate ti ti' := by
  cases h with
  | start h => exact .start h
  | complete h hout => exact .complete _ _ _ h hout

namespace DaemonSystem

variable {s s' : DaemonSystem}

/-- The table of the manager has the keys of the table of the daemon. -/
theorem mem_taskMgr (h : s.core.Sound) (tid : IotaskId) :
    tid ∈ s.taskMgr.taskInfo ↔ tid ∈ s.core.table := by
  rw [← AList.lookup_isSome, ← AList.lookup_isSome, taskMgr, Table.lookup_filterMap]
  cases hl : s.core.table.lookup tid with
  | none => simp
  | some p =>
      obtain ⟨ti, hget, -⟩ := h.tableOk tid p hl
      simp [hget]

theorem enter_of_taken {tm : TaskManager} (htaken : s.nextId ∈ s.core.table) : s.enter tm = s :=
  if_pos htaken

/-- The daemon after a creation: as it was, or with a pending record under a free id. -/
def Entered (s s' : DaemonSystem) : Prop :=
  s' = s ∨ ∃ ti, ti.id ∉ s.core.table ∧ ti.status = .pending ∧
    s' = { s with core := s.core.create ti, idBase := s.nextId }

/-- A creation that finds its id taken. -/
theorem entered_of_taken {tm : TaskManager} (hs : s.core.Sound)
    (htaken : s.nextId ∈ s.taskMgr.taskInfo) : s.Entered (s.enter tm) := by
  apply Or.inl
  apply enter_of_taken
  rwa [← mem_taskMgr hs]

/-- A creation that enters `ti`. -/
theorem enter_enter {ti : TaskInfo} (hs : s.core.Sound) (hfree : s.nextId ∉ s.taskMgr.taskInfo) :
    s.enter (s.taskMgr.enter ti) = { s with core := s.core.create ti, idBase := s.nextId } := by
  have hfree' : s.nextId ∉ s.core.table := by rwa [← mem_taskMgr hs]
  have hfind : (s.taskMgr.enter ti).find s.nextId = some ti := by
    rw [TaskManager.find, lookup_enter hfree]
    exact if_pos rfl
  unfold enter
  rw [if_neg hfree', hfind]

theorem entered_of_enter {ti : TaskInfo} (hs : s.core.Sound)
    (hfree : s.nextId ∉ s.taskMgr.taskInfo) (hid : ti.id = s.nextId)
    (hpending : ti.status = .pending) : s.Entered (s.enter (s.taskMgr.enter ti)) := by
  refine Or.inr ⟨ti, ?_, hpending, enter_enter hs hfree⟩
  rwa [hid, ← mem_taskMgr hs]

/-- A creation for a client. -/
theorem entered_createLocal {tm : TaskManager} {type : IotaskType} {auth : Credentials}
    {backendPtrs : List Backend} {rinfoPtrs : List ResourceInfo} {size : UInt64} {e : UrdError}
    {t : Option GenericTask} (hs : s.core.Sound)
    (h : s.taskMgr.createLocalInitiatedTask type auth backendPtrs rinfoPtrs size =
      .ok (tm, e, t)) : s.Entered (s.enter tm) := by
  by_cases htaken : s.nextId ∈ s.taskMgr.taskInfo
  · exact entered_of_taken hs htaken
  · obtain ⟨src, dst, rfl, -, -⟩ := createLocal_record htaken h
    exact entered_of_enter hs htaken rfl rfl

/-- A creation for a peer. -/
theorem entered_createForPeer {c : InboundCall} {env : InboundEnv} {b : Backend}
    {tm : TaskManager} {e : UrdError} {t : Option GenericTask} (hs : s.core.Sound)
    (hsees : s.Sees c env) (h : createForPeer env c.req b = .ok (tm, e, t)) :
    s.Entered (s.enter tm) := by
  have hview : env.taskMgr = s.taskMgr := hsees.2.2
  by_cases htaken : s.nextId ∈ s.taskMgr.taskInfo
  · exact entered_of_taken hs htaken
  · have hfree : env.taskMgr.nextId ∉ env.taskMgr.taskInfo := by
      rw [hview]
      exact htaken
    obtain ⟨src, f, -, -, hr⟩ | ⟨size, hr⟩ := createForPeer_cases c.req b hfree
    · rw [hr] at h
      cases h
    · rw [hr, hview] at h
      obtain ⟨rfl, -, -⟩ := createRemote_record htaken h
      exact entered_of_enter hs htaken rfl rfl

theorem Entered.core (h : s.Entered s') : s'.core = s.core ∨ StatusStep s.core s'.core := by
  obtain rfl | ⟨ti, hfree, hpending, rfl⟩ := h
  · exact Or.inl rfl
  · exact Or.inr (.create ti hfree hpending)

end DaemonSystem

/-- The steps of a shutdown. -/
theorem commandNext_cases {isEmpty : Backend → Bool} {s s' : DaemonSystem}
    (h : s.commandNext isEmpty = some s') :
    (s.command = .paused ∧
      s' = { s with command := .counting (s.core.table.entries.map (·.2)) 0 }) ∨
    (∃ p todo n ti, s.command = .counting (p :: todo) n ∧ s.core.heap[p]? = some ti ∧
      s' = { s with command := .counting todo (if ti.status.active then n + 1 else n) }) ∨
    (s.command = .counting [] 0 ∧ s' = { s with command := .namespaces }) ∨
    (s.command = .namespaces ∧ s' = { s with command := .stopped }) ∨
    (s.command ≠ .stopped ∧ s' = { s with isPaused := false, command := .idle }) := by
  unfold DaemonSystem.commandNext at h
  split at h
  · cases h
  · next hc => exact Or.inl ⟨hc, (Option.some.inj h).symm⟩
  · next p todo n hc =>
      split at h
      · next ti hget =>
          exact Or.inr (Or.inl ⟨p, todo, n, ti, hc, hget, (Option.some.inj h).symm⟩)
      · cases h
  · next n hc =>
      split_ifs at h with hn
      · exact Or.inr (Or.inr (Or.inr (Or.inr ⟨by simp [hc], (Option.some.inj h).symm⟩)))
      · rw [not_not] at hn
        subst hn
        exact Or.inr (Or.inr (Or.inl ⟨hc, (Option.some.inj h).symm⟩))
  · next hc =>
      split_ifs at h
      · exact Or.inr (Or.inr (Or.inr (Or.inr ⟨by simp [hc], (Option.some.inj h).symm⟩)))
      · exact Or.inr (Or.inr (Or.inr (Or.inl ⟨hc, (Option.some.inj h).symm⟩)))
  · cases h

theorem commandNext_core {isEmpty : Backend → Bool} {s s' : DaemonSystem}
    (h : s.commandNext isEmpty = some s') : s'.core = s.core := by
  obtain ⟨-, rfl⟩ | ⟨_, _, _, _, -, -, rfl⟩ | ⟨-, rfl⟩ | ⟨-, rfl⟩ | ⟨-, rfl⟩ :=
    commandNext_cases h
  all_goals rfl

/-- Every step is one of the system of status requests, or none of it. -/
theorem DaemonStep.core {s s' : DaemonSystem} (hs : s.core.Sound) (h : DaemonStep s s') :
    s'.core = s.core ∨ StatusStep s.core s'.core := by
  cases h with
  | api h =>
      cases h with
      | submit _ _ h => exact (DaemonSystem.entered_createLocal hs h).core
      | status tid hidle => exact Or.inr (.request tid hidle.1)
      | ipc _ h => exact Or.inr (.ipc h)
      | namespaces _ _ => exact Or.inl rfl
      | pauseListening _ => exact Or.inl rfl
      | resumeListening _ => exact Or.inl rfl
      | shutdown _ => exact Or.inl rfl
      | command _ h => exact Or.inl (commandNext_core h)
  | worker h =>
      cases h with
      | work p _ hget hupd => exact Or.inr (.update p hget hupd)
  | network h =>
      cases h with
      | arrive _ => exact Or.inl rfl
      | test _ _ _ _ => exact Or.inl rfl
      | handler _ _ _ _ _ _ => exact Or.inl rfl
      | create _ _ _ hsees _ hc _ _ => exact (DaemonSystem.entered_createForPeer hs hsees hc).core
      | task _ _ _ hti hupd => exact Or.inr (.update _ hti hupd.workerUpdate)
      | completion _ _ _ => exact Or.inl rfl

theorem DaemonStep.sound {s s' : DaemonSystem} (hs : s.core.Sound) (h : DaemonStep s s') :
    s'.core.Sound := by
  obtain heq | hstep := h.core hs
  · rwa [heq]
  · exact StatusSystem.Sound.step _ _ hs hstep

/-! ### A push, step by step -/

/-- A push of one buffer into the namespace `tmp0`. -/
def samplePush : Inbound := .push ⟨"node0", "tmp1", "tmp0", 1, false, "a", "b", [16]⟩

/-- The backend of `tmp0`. -/
def tmp0Backend : Backend := ⟨.posixFilesystem, "tmp0", false, "/mnt".toList, 0⟩

/-- The transferor of a push. -/
def pushTransferor : Transferor := TransferorKind.localPathToRemoteResource.plugin

/-- The record of its task. -/
def pushRecord (status : TaskStatus) : TaskInfo :=
  { TaskInfo.new 1 .remoteTransfer true ⟨0, 0, 0⟩ (some (.remote "tmp1")) samplePush.srcRinfo
      (some tmp0Backend) samplePush.dstRinfo 0 with status := status }

/-- A fresh daemon with the call of the push, which has read the flag as `paused`. -/
def calledPush (paused : Option Bool) (st : TransferState) : DaemonSystem :=
  { DaemonSystem.init false tmp0 with calls := [⟨samplePush, paused, st, none⟩] }

/-- The push when its namespace has been found. -/
def foundPush : TransferState := ⟨.create tmp0Backend, .context, []⟩

/-- The push when it has its task. -/
def taskPush : TransferState := ⟨.run tmp0Backend pushTransferor, .context, []⟩

/-- The push when its bulk operation has been posted. -/
def postedPush : TransferState := ⟨.check .finished, .bulk, []⟩

/-- The daemon with the record of the push. -/
def withPush (st : TransferState) (status : TaskStatus) : DaemonSystem :=
  { DaemonSystem.init false tmp0 with
    core := ⟨[pushRecord status], (∅ : Table IotaskId ℕ).emplace 1 0, .idle, []⟩
    idBase := 1
    calls := [⟨samplePush, some false, st, some 0⟩] }

/-- A machine where nothing fails, with the task manager `tm`. -/
def InboundEnv.withManager (tm : TaskManager) (h : tm.transferorRegistry = loadTransferPlugins) :
    InboundEnv :=
  { InboundEnv.sample with taskMgr := tm, plugins := h }

theorem calledPush_sees (st : TransferState) :
    (calledPush (some false) st).Sees ⟨samplePush, some false, st, none⟩ .sample :=
  ⟨rfl, rfl, rfl⟩

/-- The handler of the push goes on, once there is a record. -/
theorem withPush_handler {st st' : TransferState} {status : TaskStatus}
    (hready : InboundCall.Ready ⟨samplePush, some false, st, some 0⟩ [pushRecord status])
    (h : ∀ tm hreg, handlerNext (.withManager tm hreg) samplePush st = some st')
    (hlive : ∀ f, st'.pc ≠ .crashed f) : DaemonStep (withPush st status) (withPush st' status) :=
  .network (@NetworkStep.handler (withPush st status) 0 _
    (.withManager (withPush st status).taskMgr rfl) st' rfl hready ⟨rfl, rfl, rfl⟩ (h _ _) hlive)

/-- The task of the push writes to the record. -/
theorem withPush_task {st : TransferState} {status status' : TaskStatus}
    (h : InboundCall.Writes st.pc (pushRecord status) (pushRecord status')) :
    DaemonStep (withPush st status) (withPush st status') :=
  .network (@NetworkStep.task (withPush st status) 0 _ 0 _ _ rfl rfl rfl h)

section Runs

variable {ok : DaemonSystem → DaemonSystem → Prop}

/-- The push arrives, reads the flag and finds its namespace. -/
theorem foundPush_run (hok : ∀ s s', s.command = .idle → ok s s') :
    Run (Guarded DaemonStep ok) (.init false tmp0) (calledPush (some false) foundPush) := by
  have harrive : DaemonStep (.init false tmp0) (calledPush none .init) :=
    .network (.arrive samplePush)
  have htest : DaemonStep (calledPush none .init) (calledPush (some false) .init) :=
    .network (@NetworkStep.test (calledPush none .init) 0 _ rfl rfl rfl)
  have hfound : DaemonStep (calledPush (some false) .init) (calledPush (some false) foundPush) :=
    .network (@NetworkStep.handler (calledPush (some false) .init) 0 _ _ foundPush rfl trivial
      (calledPush_sees _) rfl fun _ h => by cases h)
  exact ((Relation.ReflTransGen.single ⟨harrive, hok _ _ rfl⟩).tail ⟨htest, hok _ _ rfl⟩).tail
    ⟨hfound, hok _ _ rfl⟩

/-- Its record is entered, the task starts, posts the bulk operation and ends. -/
theorem postedPush_run (hok : ∀ s s', s.command = .idle → ok s s') :
    Run (Guarded DaemonStep ok) (.init false tmp0) (withPush postedPush .finished) := by
  have hcreate : DaemonStep (calledPush (some false) foundPush) (withPush taskPush .pending) :=
    .network (@NetworkStep.create (calledPush (some false) foundPush) 0 _ _ _ tmp0Backend _ _ _
      rfl rfl (calledPush_sees _) (fun _ _ h => by cases h) rfl rfl fun _ h => by cases h)
  have hstart : DaemonStep (withPush taskPush .pending) (withPush taskPush .running) :=
    withPush_task (.start rfl)
  have hresources : DaemonStep (withPush taskPush .running)
      (withPush ⟨.accept pushTransferor false, .context, []⟩ .running) :=
    withPush_handler ⟨0, _, rfl, rfl, rfl⟩ (fun _ _ => rfl) fun _ h => by cases h
  have hposted : DaemonStep (withPush ⟨.accept pushTransferor false, .context, []⟩ .running)
      (withPush postedPush .running) :=
    withPush_handler trivial (fun _ _ => rfl) fun _ h => by cases h
  have hend : DaemonStep (withPush postedPush .running) (withPush postedPush .finished) :=
    withPush_task (.complete rfl rfl)
  exact (((((foundPush_run hok).tail ⟨hcreate, hok _ _ rfl⟩).tail ⟨hstart, hok _ _ rfl⟩).tail
    ⟨hresources, hok _ _ rfl⟩).tail ⟨hposted, hok _ _ rfl⟩).tail ⟨hend, hok _ _ rfl⟩

/-- The callback of the push is called, answers it, and the handler returns. -/
theorem answeredPush_run (hok : ∀ s s', s.command = .idle → ok s s') :
    ∃ r, Run (Guarded DaemonStep ok) (.init false tmp0)
      (withPush ⟨.returned, .spent, [r]⟩ .finished) := by
  have hcall : DaemonStep (withPush postedPush .finished)
      (withPush ⟨.check .finished, .completion, []⟩ .finished) :=
    .network (@NetworkStep.completion (withPush postedPush .finished) 0 _ .sample _ rfl rfl)
  have hanswer : DaemonStep (withPush ⟨.check .finished, .completion, []⟩ .finished)
      (withPush ⟨.check .finished, .spent, [completionOutput .sample samplePush]⟩ .finished) :=
    .network (@NetworkStep.completion (withPush ⟨.check .finished, .completion, []⟩ .finished) 0 _
      .sample _ rfl rfl)
  have hreturn : DaemonStep
      (withPush ⟨.check .finished, .spent, [completionOutput .sample samplePush]⟩ .finished)
      (withPush ⟨.returned, .spent, [completionOutput .sample samplePush]⟩ .finished) :=
    withPush_handler ⟨0, _, rfl, rfl, rfl⟩ (fun _ _ => rfl) fun _ h => by cases h
  exact ⟨_, (((postedPush_run hok).tail ⟨hcall, hok _ _ rfl⟩).tail ⟨hanswer, hok _ _ rfl⟩).tail
    ⟨hreturn, hok _ _ rfl⟩⟩

/-- The count passes over records that are not active. -/
theorem counting_run {s : DaemonSystem} (hok : ∀ c s', ok { s with command := c } s')
    (todo : List ℕ)
    (htodo : ∀ p ∈ todo, ∃ ti, s.core.heap[p]? = some ti ∧ ti.status.active = false) :
    Run (Guarded DaemonStep ok) { s with command := .counting todo 0 }
      { s with command := .counting [] 0 } := by
  induction todo with
  | nil => exact .refl
  | cons p todo ih =>
      obtain ⟨ti, hget, hti⟩ := htodo p List.mem_cons_self
      have hnext : DaemonSystem.commandNext (fun _ => true)
          { s with command := .counting (p :: todo) 0 } =
          some { s with command := .counting todo 0 } := by
        simp only [DaemonSystem.commandNext, hget, hti, Bool.false_eq_true, if_false]
      exact .head ⟨.api (.command _ hnext), hok _ _⟩
        (ih fun q hq => htodo q (List.mem_cons_of_mem p hq))

/-- A shutdown that no other thread interferes with succeeds if the table holds no active task. -/
theorem shutdown_run {s : DaemonSystem} (hidle : s.Idle) (hok : ∀ s', ok s s')
    (hok' : ∀ c s', ok { s with isPaused := true, command := c } s')
    (hinactive : ∀ p ∈ s.core.table.entries.map (·.2), ∃ ti, s.core.heap[p]? = some ti ∧
      ti.status.active = false) :
    Run (Guarded DaemonStep ok) s { s with isPaused := true, command := .stopped } := by
  have hempty : s.namespaceMgr.countIf (fun b => b.isTracked && !true) = 0 := by
    simp [Table.countIf]
  have hcount := counting_run (s := { s with isPaused := true }) (fun c s' => hok' c s') _ hinactive
  have hlast : DaemonSystem.commandNext (fun _ => true)
      { s with isPaused := true, command := .namespaces } =
      some { s with isPaused := true, command := .stopped } := by
    simp only [DaemonSystem.commandNext, hempty, ne_eq, not_true_eq_false, if_false]
  have hstart : Run (Guarded DaemonStep ok) s { s with isPaused := true, command := .paused } :=
    .single ⟨.api (.shutdown hidle), hok _⟩
  exact (((hstart.tail ⟨.api (.command (fun _ => true) rfl), hok' _ _⟩).trans hcount).tail
    ⟨.api (.command (fun _ => true) rfl), hok' _ _⟩).tail ⟨.api (.command _ hlast), hok' _ _⟩

end Runs

/-! ### The table over time -/

namespace StatusSystem

/-- The record of a task of a client that has ended, before a response says so. -/
def Uncollected (s : StatusSystem) (p : ℕ) (ti : TaskInfo) : Prop :=
  ti.isRemote = false ∧ ti.status.terminal = true ∧ s.reports p = 0

/-- The records of active tasks. -/
def activeTasks (s : StatusSystem) : Finset ℕ :=
  (Finset.range s.heap.length).filter fun p => (s.heap[p]?.any fun ti => ti.status.active) = true

/-- The uncollected records. -/
def uncollectedTasks (s : StatusSystem) : Finset ℕ :=
  (Finset.range s.heap.length).filter fun p =>
    (s.heap[p]?.any fun ti => !ti.isRemote && ti.status.terminal) = true ∧ s.reports p = 0

/-- Every record of the table is active or uncollected. -/
def Hygienic (s : StatusSystem) : Prop :=
  ∀ tid p, s.table.lookup tid = some p → ∃ ti, s.heap[p]? = some ti ∧
    (ti.status.active = true ∨ s.Uncollected p ti)

/-- The tasks of peers that are in the heap have not ended. -/
def RemoteActive (s : StatusSystem) : Prop :=
  ∀ (p : ℕ) (ti : TaskInfo), s.heap[p]? = some ti → ti.isRemote = true → ti.status.active = true

theorem Sound.hygienic {s : StatusSystem} (h : s.Sound) (hremote : s.RemoteActive) :
    s.Hygienic := by
  intro tid p hl
  obtain ⟨ti, hget, -⟩ := h.tableOk tid p hl
  refine ⟨ti, hget, ?_⟩
  cases hterm : ti.status.terminal with
  | false => exact Or.inl ((h.active_iff hget).mpr hterm)
  | true =>
      refine Or.inr ⟨Bool.eq_false_iff.mpr fun hr => ?_, hterm, h.unreported tid p hl⟩
      have hrun := (h.active_iff hget).mp (hremote p ti hget hr)
      rw [hterm] at hrun
      cases hrun

/-- The table is no larger than the active and the uncollected tasks together. -/
theorem Sound.table_le {s : StatusSystem} (h : s.Sound) (hclean : s.Hygienic) :
    s.table.entries.length ≤ s.activeTasks.card + s.uncollectedTasks.card := by
  refine le_trans (Table.length_le_card (S := s.activeTasks ∪ s.uncollectedTasks)
    (fun k k' p hk hk' => h.injective hk hk') fun tid p hl => ?_) (Finset.card_union_le _ _)
  obtain ⟨ti, hget, hti⟩ := hclean tid p hl
  have hrange : p ∈ Finset.range s.heap.length :=
    Finset.mem_range.mpr (List.getElem?_eq_some_iff.mp hget).1
  rw [Finset.mem_union]
  obtain hact | ⟨hlocal, hterm, hrep⟩ := hti
  · exact Or.inl (Finset.mem_filter.mpr ⟨hrange, by simp [hget, hact]⟩)
  · exact Or.inr (Finset.mem_filter.mpr ⟨hrange, by simp [hget, hlocal, hterm], hrep⟩)

end StatusSystem

/-- The step does not end a task that a peer has requested. -/
def NoInboundEnd (s s' : DaemonSystem) : Prop :=
  ∀ (p : ℕ) (ti ti' : TaskInfo), s.core.heap[p]? = some ti → s'.core.heap[p]? = some ti' →
    ti.isRemote = true → ti.status.terminal = false → ti'.status.terminal = false

theorem DaemonStep.remoteActive {s s' : DaemonSystem} (hs : s.core.Sound)
    (hremote : s.core.RemoteActive) (h : DaemonStep s s') (hno : NoInboundEnd s s') :
    s'.core.RemoteActive := by
  obtain heq | hstep := h.core hs
  · rwa [heq]
  · intro p ti' hp' hr
    obtain hp | ⟨-, hpending⟩ | ⟨ti, hp, hupd, -⟩ := hstep.record hp'
    · exact hremote p ti' hp hr
    · rw [hpending]
      rfl
    · have hr' : ti.isRemote = true := hupd.frame.1.symm.trans hr
      rw [hupd.frame.2.1, hno p ti ti' hp hp' hr' hupd.spec.1]
      rfl

/-- The record of a task of a peer that ends stays in the table. -/
theorem DaemonStep.noInboundEnd {s s' : DaemonSystem} (hs : s.core.Sound) (h : DaemonStep s s')
    (hclean : s'.core.Hygienic) : NoInboundEnd s s' := by
  intro p ti ti' hp hp' hr hrun
  obtain heq | hstep := h.core hs
  · rw [heq] at hp'
    rwa [← Option.some.inj (hp.symm.trans hp')]
  · obtain hp'' | ⟨hnone, -⟩ | ⟨ti₀, hp'', hupd, htable⟩ := hstep.record hp'
    · rwa [← Option.some.inj (hp.symm.trans hp'')]
    · rw [hnone] at hp
      cases hp
    · obtain rfl := Option.some.inj (hp.symm.trans hp'')
      have hl : s'.core.table.lookup ti.id = some p := by
        rw [htable]
        exact hs.activeIn p ti hp ((hs.active_iff hp).mpr hrun)
      obtain ⟨ti₁, hp₁, hti₁⟩ := hclean ti.id p hl
      obtain rfl := Option.some.inj (hp'.symm.trans hp₁)
      obtain hact | ⟨hlocal, -, -⟩ := hti₁
      · exact ((h.sound hs).active_iff hp').mp hact
      · rw [hupd.frame.1, hr] at hlocal
        cases hlocal

/-- **The table holds what somebody will ask for.**  In every run in which no task of a peer ends,
each record of the table is that of an active task, or of one that ended for a client who has not
been told, and there are no more records than such tasks.  No more can be said: any step after
which the table still has this property is one that ends no task of a peer. -/
theorem table_hygiene {dryRun : Bool} {namespaces : NamespaceManager} {s : DaemonSystem}
    (hrun : Run (Guarded DaemonStep NoInboundEnd) (.init dryRun namespaces) s) :
    s.core.Hygienic ∧
    s.core.table.entries.length ≤ s.core.activeTasks.card + s.core.uncollectedTasks.card ∧
    ∀ s', DaemonStep s s' → (s'.core.Hygienic ↔ NoInboundEnd s s') := by
  have hinv : s.core.Sound ∧ s.core.RemoteActive :=
    Run.invariant (P := fun s => s.core.Sound ∧ s.core.RemoteActive)
      (fun s s' h hstep => ⟨hstep.1.sound h.1, hstep.1.remoteActive h.1 h.2 hstep.2⟩) hrun
      ⟨StatusSystem.Sound.ofInit, fun p ti hp => by cases hp⟩
  have hclean := hinv.1.hygienic hinv.2
  refine ⟨hclean, hinv.1.table_le hclean, fun s' hstep => ⟨hstep.noInboundEnd hinv.1, ?_⟩⟩
  intro hno
  exact (hstep.sound hinv.1).hygienic (hstep.remoteActive hinv.1 hinv.2 hno)

/-- The record of a removal that a client has requested. -/
def removeRecord (status : TaskStatus) : TaskInfo :=
  { TaskInfo.new 1 .remove false ⟨1, 0, 0⟩ (some tmp0Backend) (some (.localPath "tmp0" "a")) none
      none 0 with status := status }

/-- The daemon with that record. -/
def withRemove (status : TaskStatus) : DaemonSystem :=
  { DaemonSystem.init false tmp0 with
    core := ⟨[removeRecord status], (∅ : Table IotaskId ℕ).emplace 1 0, .idle, []⟩
    idBase := 1
    tasks := [0] }

/-- The record of a removal that has ended is in the table, and the table is no larger. -/
theorem finished_remove_kept :
    Run (Guarded DaemonStep NoInboundEnd) (.init false tmp0) (withRemove .finished) ∧
    (withRemove .finished).core.Hygienic ∧
    (withRemove .finished).core.table.entries.length ≤
      (withRemove .finished).core.activeTasks.card +
        (withRemove .finished).core.uncollectedTasks.card := by
  have hlocal : ∀ s s' : DaemonSystem, (∀ ti ∈ s.core.heap, ti.isRemote = false) →
      NoInboundEnd s s' := by
    intro s s' h p ti ti' hp _ hr _
    rw [h ti (List.mem_of_getElem? hp)] at hr
    cases hr
  have hremove : ∀ status s', NoInboundEnd (withRemove status) s' := fun status s' =>
    hlocal _ s' fun ti hti => by rw [List.mem_singleton.mp hti]; rfl
  have hsubmit : DaemonStep (.init false tmp0) (withRemove .pending) :=
    .api (@ApiStep.submit (.init false tmp0) _ .remove ⟨1, 0, 0⟩ [tmp0Backend]
      [.localPath "tmp0" "a"] 0 _ _ ⟨rfl, rfl⟩ rfl rfl)
  have hstart : DaemonStep (withRemove .pending) (withRemove .running) :=
    .worker (@WorkerStep.work (withRemove .pending) 0 _ _ List.mem_cons_self rfl (.start rfl))
  have hend : DaemonStep (withRemove .running) (withRemove .finished) :=
    .worker (@WorkerStep.work (withRemove .running) 0 _ _ List.mem_cons_self rfl
      (.complete .finished .success 0 rfl rfl))
  have hrun : Run (Guarded DaemonStep NoInboundEnd) (.init false tmp0) (withRemove .finished) :=
    ((Relation.ReflTransGen.single ⟨hsubmit, hlocal _ _ fun ti hti => by cases hti⟩).tail
      ⟨hstart, hremove _ _⟩).tail ⟨hend, hremove _ _⟩
  obtain ⟨hclean, hsize, -⟩ := table_hygiene hrun
  exact ⟨hrun, hclean, hsize⟩

/-- The push whose operation has been posted has ended, and its record stays in the table. -/
theorem finished_push_stays : ∃ s, Run DaemonStep (.init false tmp0) s ∧
    ∃ ti, s.core.table.lookup 1 = some 0 ∧ s.core.heap[0]? = some ti ∧ ti.isRemote = true ∧
      ti.status = .finished ∧ ¬ s.core.Hygienic := by
  have hrun : Run (Guarded DaemonStep fun _ _ => True) (.init false tmp0)
      (withPush postedPush .finished) := postedPush_run fun _ _ _ => trivial
  refine ⟨_, hrun.of_guarded, _, rfl, rfl, rfl, rfl, fun h => ?_⟩
  obtain ⟨ti, hget, hti⟩ := h 1 0 rfl
  obtain rfl := Option.some.inj hget
  obtain hact | ⟨hlocal, -, -⟩ := hti
  · cases hact
  · cases hlocal

/-! ### Shutdown -/

/-- No bulk operation or callback has the request. -/
def Place.AtRest (p : Place) : Prop := p ≠ .bulk ∧ p ≠ .completion

/-- The call has nothing left to do that matters to a shutdown: no bulk operation or callback is
outstanding, and it will not get a record, because it has been refused, or will be for the flag,
the namespace or the id. -/
def InboundCall.Settled (c : InboundCall) (s : DaemonSystem) : Prop :=
  c.st.place.AtRest ∧
  match c.st.pc with
  | .entry => c.paused = some false → s.namespaceMgr.find c.req.localNsid false = none
  | .create _ => s.nextId ∈ s.core.table
  | .run _ _ => False
  | .accept _ _ => False
  | _ => True

/-- Nothing is active or outstanding, and nothing new can start. -/
structure DaemonSystem.Quiet (s : DaemonSystem) : Prop where
  inactive : ∀ (p : ℕ) (ti : TaskInfo), s.core.heap[p]? = some ti → ti.status.active = false
  settled : ∀ c ∈ s.calls, c.Settled s

/-- When the count has found no active task, the calls are settled. -/
def QuietShutdown (s s' : DaemonSystem) : Prop :=
  s.command = .counting [] 0 → s'.command = .namespaces → ∀ c ∈ s.calls, c.Settled s

/-- The flag is set during a shutdown, the active tasks that the count has passed are in it, and
once there are none, nothing goes on. -/
structure DaemonSystem.ShutdownInv (s : DaemonSystem) : Prop where
  sound : s.core.Sound
  paused : s.command ≠ .idle → s.isPaused = true
  counted : ∀ todo, s.command = .counting todo 0 → ∀ (p : ℕ) (ti : TaskInfo),
    s.core.heap[p]? = some ti → ti.status.active = true → p ∈ todo
  quiet : s.command = .namespaces ∨ s.command = .stopped → s.Quiet

theorem RpcState.move_atRest {π ρ : Type} {s : RpcState π ρ} (h : s.place.AtRest) (x : Place)
    {y : Place} (hy : y.AtRest) : (s.move x y).place.AtRest := by
  unfold RpcState.move
  split_ifs
  · exact hy
  · exact h

theorem RpcState.respond_atRest {π ρ : Type} {s : RpcState π ρ} (h : s.place.AtRest) (x : Place)
    (r : ρ) : (s.respond x r).place.AtRest := by
  unfold RpcState.respond
  split_ifs
  · exact ⟨by simp, by simp⟩
  · exact h

namespace InboundCall.Settled

variable {c : InboundCall} {s : DaemonSystem}

/-- A handler that returns settles its call, unless it has given the request to hermes. -/
theorem of_returned {st : TransferState} (hrest : st.place.AtRest) {record : Option ℕ} :
    Settled { c with st := st.goto .returned, record := record } s :=
  ⟨hrest, trivial⟩

/-- The handler of a settled call refuses the request, or has nothing to do but return. -/
theorem handler {env : InboundEnv} {st : TransferState} (h : c.Settled s)
    (hready : c.Ready s.core.heap) (hsees : s.Sees c env)
    (hnext : handlerNext env c.req c.st = some st) : Settled { c with st := st } s := by
  obtain ⟨hrest, hpc⟩ := h
  unfold Ready at hready
  unfold handlerNext at hnext
  split at hnext
  · next hentry =>
      rw [hentry] at hpc
      cases hflag : env.isPaused with
      | true =>
          rw [if_pos hflag] at hnext
          obtain rfl := Option.some.inj hnext
          exact of_returned (RpcState.respond_atRest hrest _ _)
      | false =>
          rw [hflag, if_neg Bool.false_ne_true, hsees.2.1, hpc (hsees.1.trans (by rw [hflag]))]
            at hnext
          obtain rfl := Option.some.inj hnext
          exact of_returned (RpcState.respond_atRest hrest _ _)
  · next hcreate =>
      rw [hcreate] at hready
      exact hready.elim
  · next hrun =>
      rw [hrun] at hpc
      exact hpc.elim
  · next haccept =>
      rw [haccept] at hpc
      exact hpc.elim
  · have hmove : (c.st.move .context .handler).place.AtRest :=
      RpcState.move_atRest hrest _ ⟨by simp, by simp⟩
    dsimp only at hnext
    split_ifs at hnext
    · obtain rfl := Option.some.inj hnext
      exact of_returned (RpcState.respond_atRest hmove _ _)
    · obtain rfl := Option.some.inj hnext
      exact of_returned hmove
  · cases hnext
  · cases hnext

/-- A settled call that reaches the task manager finds no free id. -/
theorem create {env : InboundEnv} {st : TransferState} {b : Backend} (hs : s.core.Sound)
    (h : c.Settled s) (hpc : c.st.pc = .create b) (hsees : s.Sees c env)
    (hnext : handlerNext env c.req c.st = some st) :
    s.nextId ∈ s.core.table ∧ ∀ record, Settled { c with st := st, record := record } s := by
  obtain ⟨hrest, htaken⟩ := h
  rw [hpc] at htaken
  refine ⟨htaken, fun record => ?_⟩
  have htm : env.taskMgr.nextId ∈ env.taskMgr.taskInfo := by
    rw [hsees.2.2]
    exact (DaemonSystem.mem_taskMgr hs _).mpr htaken
  have hfull : createForPeer env c.req b = .ok (env.taskMgr, .tooManyTasks, none) := by
    simp only [createForPeer, if_pos htm, TaskManager.createRemoteInitiatedTask]
  unfold handlerNext at hnext
  rw [hpc] at hnext
  dsimp only at hnext
  rw [hfull] at hnext
  obtain rfl := Option.some.inj hnext
  exact of_returned hrest

/-- The callback of a settled call has been called. -/
theorem completion {env : InboundEnv} (h : c.Settled s) : completionNext env c.req c.st = none := by
  obtain ⟨⟨hbulk, hcompletion⟩, -⟩ := h
  unfold completionNext
  split
  · next hplace => exact absurd hplace hbulk
  · next hplace => exact absurd hplace hcompletion
  · rfl

end InboundCall.Settled

namespace DaemonSystem

variable {s s' : DaemonSystem}

@[simp] theorem enter_command (tm : TaskManager) : (s.enter tm).command = s.command := by
  unfold enter
  split_ifs
  · rfl
  · split <;> rfl

@[simp] theorem enter_isPaused (tm : TaskManager) : (s.enter tm).isPaused = s.isPaused := by
  unfold enter
  split_ifs
  · rfl
  · split <;> rfl

namespace ShutdownInv

/-- Between commands there is nothing to show. -/
theorem of_idle (hs : s.core.Sound) (hidle : s.command = .idle) : s.ShutdownInv := by
  refine ⟨hs, fun h => absurd hidle h, fun todo h => ?_, fun h => ?_⟩
  · rw [hidle] at h
    cases h
  · rw [hidle] at h
    obtain h | h := h <;> cases h

/-- The rest of the shutdown command. -/
theorem command (h : s.ShutdownInv) {isEmpty : Backend → Bool}
    (hnext : s.commandNext isEmpty = some s') (hguard : QuietShutdown s s') : s'.ShutdownInv := by
  obtain ⟨hc, rfl⟩ | ⟨p, todo, n, ti, hc, hget, rfl⟩ | ⟨hc, rfl⟩ | ⟨hc, rfl⟩ | ⟨-, rfl⟩ :=
    commandNext_cases hnext
  · refine ⟨h.sound, fun _ => h.paused (by simp [hc]), fun todo htodo p ti hget hact => ?_, ?_⟩
    · obtain ⟨rfl, -⟩ := CommandPc.counting.inj htodo
      have hl := h.sound.activeIn p ti hget hact
      exact List.mem_map.mpr ⟨⟨ti.id, p⟩, AList.mem_lookup_iff.mp hl, rfl⟩
    · rintro (h | h) <;> cases h
  · refine ⟨h.sound, fun _ => h.paused (by simp [hc]), fun todo' htodo q tq hq hact => ?_, ?_⟩
    · obtain ⟨rfl, hn⟩ := CommandPc.counting.inj htodo
      have hti : ti.status.active = false ∧ n = 0 := by
        split_ifs at hn with hti
        exact ⟨Bool.eq_false_iff.mpr hti, hn⟩
      obtain ⟨hti, rfl⟩ := hti
      obtain rfl | hmem := List.mem_cons.mp (h.counted _ hc q tq hq hact)
      · rw [Option.some.inj (hq.symm.trans hget), hti] at hact
        cases hact
      · exact hmem
    · rintro (h | h) <;> cases h
  · refine ⟨h.sound, fun _ => h.paused (by simp [hc]), fun todo htodo => ?_, fun _ => ⟨?_, ?_⟩⟩
    · cases htodo
    · intro p ti hget
      refine Bool.eq_false_iff.mpr fun hact => ?_
      cases h.counted [] hc p ti hget hact
    · exact hguard hc rfl
  · have hquiet := h.quiet (Or.inl hc)
    refine ⟨h.sound, fun _ => h.paused (by simp [hc]), fun todo htodo => ?_, fun _ =>
      ⟨hquiet.inactive, hquiet.settled⟩⟩
    cases htodo
  · exact of_idle h.sound rfl

theorem api (h : s.ShutdownInv) (hstep : ApiStep s s') (hguard : QuietShutdown s s') :
    s'.ShutdownInv := by
  have hs := DaemonStep.sound h.sound (.api hstep)
  cases hstep with
  | submit hidle _ _ => exact of_idle hs ((enter_command _).trans hidle.2)
  | status _ hidle => exact of_idle hs hidle.2
  | ipc hidle _ => exact of_idle hs hidle
  | namespaces _ hidle => exact of_idle hs hidle.2
  | pauseListening hidle => exact of_idle hs hidle.2
  | resumeListening hidle => exact of_idle hs hidle.2
  | shutdown _ =>
      refine ⟨hs, fun _ => rfl, fun todo htodo => ?_, ?_⟩
      · cases htodo
      · rintro (h | h) <;> cases h
  | command isEmpty hnext => exact h.command hnext hguard

/-- In a quiet daemon no task is left that could write to its record. -/
theorem quiet_update (h : s.ShutdownInv) (hquiet : s.Quiet) {p : ℕ} {ti ti' : TaskInfo}
    (hget : s.core.heap[p]? = some ti) : ¬ WorkerUpdate ti ti' := by
  intro hupd
  have hact := (h.sound.active_iff hget).mpr hupd.spec.1
  rw [hquiet.inactive p ti hget] at hact
  cases hact

/-- A task writes to its record. -/
theorem setRecord (h : s.ShutdownInv) {p : ℕ} {ti ti' : TaskInfo}
    (hget : s.core.heap[p]? = some ti) (hupd : WorkerUpdate ti ti') :
    (s.setRecord p ti').ShutdownInv := by
  refine ⟨h.sound.update hget hupd, h.paused, fun todo htodo q tq hq hact => ?_, fun hc => ?_⟩
  · obtain ⟨rfl, rfl⟩ | hq' := StatusSystem.Inv.heap_set_cases hget hq
    · exact h.counted todo htodo q ti hget (hupd.frame.2.2 hact)
    · exact h.counted todo htodo q tq hq' hact
  · exact absurd hupd (h.quiet_update (h.quiet hc) hget)

/-- A call goes on; once the daemon is quiet, it stays settled. -/
theorem setCall (h : s.ShutdownInv) {i : ℕ} {c c' : InboundCall} (hget : s.calls[i]? = some c)
    (hc : s.isPaused = true → c.Settled s → c'.Settled s) : (s.setCall i c').ShutdownInv := by
  refine ⟨h.sound, h.paused, h.counted, fun hcmd => ⟨(h.quiet hcmd).inactive, fun c₁ hc₁ => ?_⟩⟩
  have hpaused : s.isPaused = true := by
    apply h.paused
    obtain hcmd | hcmd := hcmd <;> intro hidle <;> cases hidle.symm.trans hcmd
  have hsettled := (h.quiet hcmd).settled
  obtain hmem | rfl := List.mem_or_eq_of_mem_set hc₁
  · exact hsettled c₁ hmem
  · exact hc hpaused (hsettled c (List.mem_of_getElem? hget))

theorem network (h : s.ShutdownInv) (hstep : NetworkStep s s') : s'.ShutdownInv := by
  have hs := DaemonStep.sound h.sound (.network hstep)
  cases hstep with
  | arrive req =>
      refine ⟨h.sound, h.paused, h.counted, fun hcmd => ⟨(h.quiet hcmd).inactive, fun c hc => ?_⟩⟩
      obtain hmem | hnew := List.mem_append.mp hc
      · exact (h.quiet hcmd).settled c hmem
      · rw [List.mem_singleton.mp hnew]
        exact ⟨⟨by simp [InboundCall.arrived, TransferState.init],
          by simp [InboundCall.arrived, TransferState.init]⟩, fun hread => by cases hread⟩
  | test i hget hpc _ =>
      refine h.setCall hget fun hpaused hc => ⟨hc.1, ?_⟩
      dsimp only
      rw [hpc, hpaused]
      exact fun hread => by cases hread
  | handler i hget hready hsees hnext _ =>
      exact h.setCall hget fun _ hc => hc.handler hready hsees hnext
  | create i hget hpc hsees hfree _ hnext _ =>
      by_cases hcmd : s.command = .namespaces ∨ s.command = .stopped
      · have hc := (h.quiet hcmd).settled _ (List.mem_of_getElem? hget)
        rw [enter_of_taken (hc.create h.sound hpc hsees hnext).1]
        exact h.setCall hget fun _ hc => (hc.create h.sound hpc hsees hnext).2 _
      · refine ⟨hs, ?_, fun todo htodo => ?_, fun hcmd' => ?_⟩
        · intro hbusy
          exact (enter_isPaused _).trans (h.paused fun hidle =>
            hbusy ((enter_command _).trans hidle))
        · exact absurd ((enter_command _).symm.trans htodo) (hfree todo 0)
        · refine absurd ?_ hcmd
          exact hcmd'.imp (enter_command _).symm.trans (enter_command _).symm.trans
  | task i _ _ hti hupd => exact h.setRecord hti hupd.workerUpdate
  | completion i hget hnext =>
      refine h.setCall hget fun _ hc => ?_
      rw [hc.completion] at hnext
      cases hnext

theorem step (s s' : DaemonSystem) (h : s.ShutdownInv)
    (hstep : Guarded DaemonStep QuietShutdown s s') : s'.ShutdownInv := by
  obtain ⟨hst, hguard⟩ := hstep
  cases hst with
  | api hst => exact h.api hst hguard
  | worker hst =>
      cases hst with
      | work p _ hget hupd => exact h.setRecord hget hupd
  | network hst => exact h.network hst

end ShutdownInv

end DaemonSystem

/-- After a shutdown in a quiet daemon only refused calls go on. -/
theorem stopped_step {s s' : DaemonSystem} (h : s.ShutdownInv) (hstop : s.command = .stopped)
    (hstep : DaemonStep s s') : s'.command = .stopped ∧ s'.core = s.core := by
  have hquiet := h.quiet (Or.inr hstop)
  have hbusy : s.command ≠ .idle := by simp [hstop]
  cases hstep with
  | api hstep =>
      cases hstep with
      | submit hidle _ _ => exact absurd hidle.2 hbusy
      | status _ hidle => exact absurd hidle.2 hbusy
      | ipc hidle _ => exact absurd hidle hbusy
      | namespaces _ hidle => exact absurd hidle.2 hbusy
      | pauseListening hidle => exact absurd hidle.2 hbusy
      | resumeListening hidle => exact absurd hidle.2 hbusy
      | shutdown hidle => exact absurd hidle.2 hbusy
      | command _ hnext =>
          rw [DaemonSystem.commandNext, hstop] at hnext
          cases hnext
  | worker hstep =>
      cases hstep with
      | work p _ hget hupd => exact absurd hupd (h.quiet_update hquiet hget)
  | network hstep =>
      cases hstep with
      | arrive _ => exact ⟨hstop, rfl⟩
      | test _ _ _ _ => exact ⟨hstop, rfl⟩
      | handler _ _ _ _ _ _ => exact ⟨hstop, rfl⟩
      | create _ hget hpc hsees _ _ hnext _ =>
          have hc := hquiet.settled _ (List.mem_of_getElem? hget)
          rw [DaemonSystem.enter_of_taken (hc.create h.sound hpc hsees hnext).1]
          exact ⟨hstop, rfl⟩
      | task _ _ _ hti hupd => exact absurd hupd.workerUpdate (h.quiet_update hquiet hti)
      | completion _ _ _ => exact ⟨hstop, rfl⟩

/-- **A shutdown that succeeds is safe** in every run in which the calls of peers are settled when
the tasks have been counted: from the answer on no task is active, no bulk operation or callback
is outstanding, and the table stays as it is. -/
theorem safe_shutdown {dryRun : Bool} {namespaces : NamespaceManager} {s s' : DaemonSystem}
    (hrun : Run (Guarded DaemonStep QuietShutdown) (.init dryRun namespaces) s)
    (hstop : s.command = .stopped) (hlater : Run DaemonStep s s') :
    (∀ ti ∈ s'.core.heap, ti.status.active = false) ∧
    (∀ c ∈ s'.calls, c.st.place ≠ .bulk ∧ c.st.place ≠ .completion) ∧
    s'.core.table = s.core.table := by
  have hinv : s.ShutdownInv := Run.invariant DaemonSystem.ShutdownInv.step hrun
    (.of_idle StatusSystem.Sound.ofInit rfl)
  have hlast : s'.ShutdownInv ∧ s'.command = .stopped ∧ s'.core = s.core := by
    refine Run.invariant (P := fun x => x.ShutdownInv ∧ x.command = .stopped ∧ x.core = s.core)
      (fun x x' ⟨hx, hstop, hcore⟩ hstep => ?_) hlater ⟨hinv, hstop, rfl⟩
    obtain ⟨hstop', hcore'⟩ := stopped_step hx hstop hstep
    have hguard : QuietShutdown x x' := fun hc => by cases hstop.symm.trans hc
    exact ⟨.step x x' hx ⟨hstep, hguard⟩, hstop', hcore'.trans hcore⟩
  have hquiet := hlast.1.quiet (Or.inr hlast.2.1)
  refine ⟨fun ti hti => ?_, fun c hc => (hquiet.settled c hc).1, ?_⟩
  · obtain ⟨p, hp⟩ := List.mem_iff_getElem?.mp hti
    exact hquiet.inactive p ti hp
  · rw [hlast.2.2]


theorem quietShutdown_of_idle (s s' : DaemonSystem) (h : s.command = .idle) : QuietShutdown s s' :=
  fun hc => by cases h.symm.trans hc

theorem finishedPush_inactive {st : TransferState} (p : ℕ)
    (hp : p ∈ (withPush st .finished).core.table.entries.map (·.2)) :
    ∃ ti, (withPush st .finished).core.heap[p]? = some ti ∧ ti.status.active = false := by
  have hp0 : p = 0 := List.mem_singleton.mp hp
  subst hp0
  exact ⟨_, rfl, rfl⟩

/-- A shutdown after the push has been answered. -/
theorem shutdown_after_push : ∃ s, Run (Guarded DaemonStep QuietShutdown) (.init false tmp0) s ∧
    s.command = .stopped ∧ s.core.heap ≠ [] ∧ (∀ ti ∈ s.core.heap, ti.status.active = false) ∧
    ∀ c ∈ s.calls, c.st.place ≠ .bulk ∧ c.st.place ≠ .completion := by
  obtain ⟨r, hanswered⟩ := answeredPush_run quietShutdown_of_idle
  have hsettled : ∀ c s', QuietShutdown { withPush ⟨.returned, .spent, [r]⟩ .finished with
      isPaused := true, command := c } s' := by
    intro c s' _ _ call hcall
    rw [List.mem_singleton.mp hcall]
    exact ⟨⟨by simp, by simp⟩, trivial⟩
  have hrun := hanswered.trans (shutdown_run ⟨rfl, rfl⟩
    (fun s' => quietShutdown_of_idle _ s' rfl) hsettled finishedPush_inactive)
  obtain ⟨hinactive, hrest, -⟩ := safe_shutdown hrun rfl .refl
  exact ⟨_, hrun, rfl, by simp [withPush], hinactive, hrest⟩

/-- A shutdown succeeds while the operation of a push is outstanding; and it succeeds while a push
that has read the flag before it has no record yet, which it gets afterwards. -/
theorem shutdown_during_push :
    (∃ s, Run DaemonStep (.init false tmp0) s ∧ s.command = .stopped ∧
      ∃ c ∈ s.calls, c.st.place = .bulk) ∧
    ∃ s s', Run DaemonStep (.init false tmp0) s ∧ s.command = .stopped ∧ Run DaemonStep s s' ∧
      s'.core.table ≠ s.core.table ∧ ∃ ti ∈ s'.core.heap, ti.status = .pending := by
  constructor
  · have hposted : Run (Guarded DaemonStep fun _ _ => True) (.init false tmp0)
        (withPush postedPush .finished) := postedPush_run fun _ _ _ => trivial
    have hshut : Run (Guarded DaemonStep fun _ _ => True) (withPush postedPush .finished)
        { withPush postedPush .finished with isPaused := true, command := .stopped } :=
      shutdown_run ⟨rfl, rfl⟩ (fun _ => trivial) (fun _ _ => trivial) finishedPush_inactive
    exact ⟨_, Run.of_guarded (hposted.trans hshut), rfl, _, List.mem_singleton.mpr rfl, rfl⟩
  · have hfound : Run (Guarded DaemonStep fun _ _ => True) (.init false tmp0)
        (calledPush (some false) foundPush) := foundPush_run fun _ _ _ => trivial
    have hshut : Run (Guarded DaemonStep fun _ _ => True) (calledPush (some false) foundPush)
        { calledPush (some false) foundPush with isPaused := true, command := .stopped } :=
      shutdown_run ⟨rfl, rfl⟩ (fun _ => trivial) (fun _ _ => trivial) fun p hp => by cases hp
    have hempty : (1 : IotaskId) ∉ (∅ : Table IotaskId ℕ) := fun h => by cases h
    have hcreate : DaemonStep
        { calledPush (some false) foundPush with isPaused := true, command := .stopped }
        { withPush taskPush .pending with isPaused := true, command := .stopped } :=
      .network (@NetworkStep.create
        { calledPush (some false) foundPush with isPaused := true, command := .stopped } 0 _ _ _
        tmp0Backend _ _ _ rfl rfl (calledPush_sees _) (fun _ _ h => by cases h) rfl rfl
        fun _ h => by cases h)
    exact ⟨_, _, Run.of_guarded (hfound.trans hshut), rfl, .single hcreate,
      Table.emplace_ne_self hempty, _, List.mem_singleton.mpr rfl, rfl⟩

end Norns
