import Norns.Lib.Program
import Norns.Status

/-! # Tasks

The five specialisations of `io::task` (`task-copy.hpp`, `task-move.hpp`, `task-remove.hpp`,
`task-noop.hpp`, `task-remote-transfer.hpp`).  The body of a task, its `operator()`, is a program
that calls its record, its backends and its transferor; nothing is said here about what a backend
or a transferor does, except that it reports an error code and that a transfer may add to the
bytes that have been sent.

* `Staged`: the shape that all bodies have.  The calls of a plan are made in order, an error is
  written to the record and ends the task, and the last call is followed by `finished`.
* `Machine`: what a task with such a body has done to its record at every point of every run.
* `task_status_machine`: the status of a task goes from `pending` over `running` to its final
  value, and no client ever sees it go back. -/

namespace Norns

open Lib

/-! ### The bodies -/

/-- The subclasses of `data::resource` that backends hand out. -/
inductive Resource where
  | memoryRegion (address size : UInt64)
  | localPath (parent : Backend) (name : PathStr) (isCollection : Bool)
  | remoteResource (address nsid : String) (isCollection : Bool) (name : String)
      (buffers : ExposedMemory)
deriving DecidableEq, Repr

namespace Resource

/-- `resource::type()`. -/
def type : Resource → ResourceType
  | memoryRegion _ _ => .memoryRegion
  | localPath _ _ _ => .localPosixPath
  | remoteResource _ _ _ _ _ => .remoteResource

/-- `resource::is_collection()`. -/
def isCollection : Resource → Bool
  | memoryRegion _ _ => false
  | localPath _ _ coll => coll
  | remoteResource _ _ coll _ _ => coll

end Resource

/-- What the body of a task calls. -/
inductive TaskOp where
  | updateStatus (st : TaskStatus)
  | updateStatusError (st : TaskStatus) (ec : UrdError) (sc : ErrorCode)
  | getResource (b : Backend) (rinfo : ResourceInfo)
  | newResource (b : Backend) (rinfo : ResourceInfo) (isCollection : Bool)
  | transfer (tx : Transferor) (auth : Credentials) (src : Resource) (dst : Option Resource)
  | acceptTransfer (tx : Transferor) (auth : Credentials) (src : Resource) (dst : Option Resource)
  | remove (b : Backend) (rinfo : ResourceInfo)

/-- What comes back: a pointer and an error code from the backends that hand out resources, an
error code from the other calls. -/
abbrev TaskOp.Result : TaskOp → Type
  | updateStatus _ => Unit
  | updateStatusError _ _ _ => Unit
  | getResource _ _ => Option Resource × ErrorCode
  | newResource _ _ _ => Option Resource × ErrorCode
  | transfer _ _ _ _ => ErrorCode
  | acceptTransfer _ _ _ _ => ErrorCode
  | remove _ _ => ErrorCode

/-- Programs with the calls of a task. -/
abbrev TaskM := Program TaskOp TaskOp.Result

/-- The body of a task: it returns, or the process stops. -/
abbrev TaskProgram := TaskM (Except Fault Unit)

/-- A call of a task. -/
def TaskOp.perform (op : TaskOp) : TaskM op.Result := Program.perform op

/-- The specialisations of `io::task`, with the members they have besides the record. -/
inductive Task where
  | copy (tx : Transferor)
  | move (tx : Transferor)
  | remove
  | noop
  | remoteTransfer (tx : Transferor)

namespace Task

/-- The process stops. -/
def crash (f : Fault) : TaskProgram := pure (.error f)

/-- `update_status(st)` at the end of a body. -/
def endWith (st : TaskStatus) : TaskProgram := do
  TaskOp.perform (.updateStatus st)
  return .ok ()

/-- `update_status(st, ec, sc)` at the end of a body. -/
def endWithError (st : TaskStatus) (ec : UrdError) (sc : ErrorCode) : TaskProgram := do
  TaskOp.perform (.updateStatusError st ec sc)
  return .ok ()

/-- The lambda `log_error`, which every body but that of a noop has. -/
def logError (ec : ErrorCode) : TaskProgram := endWithError .finishedWithError .systemError ec

/-- The end of a body without errors; the code that it stores is the one that it has tested. -/
def succeed : TaskProgram := endWithError .finished .success 0

/-- The body of `task<copy>`, `task<move>` and `task<remote_transfer>`; `accept` says whether the
transferor's `accept_transfer` is called and not its `transfer`. -/
def transferBody (accept : Bool) (tx : Transferor) (ti : TaskInfo) : TaskProgram :=
  match ti.srcBackend, ti.srcRinfo, ti.dstBackend, ti.dstRinfo with
  | some srcBackend, some srcRinfo, some dstBackend, some dstRinfo => do
      TaskOp.perform (.updateStatus .running)
      let (src, ec) ← TaskOp.perform (.getResource srcBackend srcRinfo)
      if ec ≠ 0 then logError ec
      else
        match src with
        -- the next line of the source reads `src->is_collection()`
        | none => crash .nullDeref
        | some src => do
            let (dst, ec) ← TaskOp.perform (.newResource dstBackend dstRinfo src.isCollection)
            if ec ≠ 0 then logError ec
            else do
              let ec ←
                if accept then TaskOp.perform (.acceptTransfer tx ti.auth src dst)
                else TaskOp.perform (.transfer tx ti.auth src dst)
              if ec ≠ 0 then logError ec else succeed
  | _, _, _, _ => crash .nullDeref

/-- `task<remove>::operator()`. -/
def removeBody (ti : TaskInfo) : TaskProgram :=
  match ti.srcBackend, ti.srcRinfo with
  | some srcBackend, some srcRinfo => do
      TaskOp.perform (.updateStatus .running)
      let ec ← TaskOp.perform (.remove srcBackend srcRinfo)
      if ec ≠ 0 then logError ec else succeed
  | _, _ => crash .nullDeref

/-- `task<noop>::operator()`, without the time it sleeps. -/
def noopBody : TaskProgram := do
  TaskOp.perform (.updateStatus .running)
  endWith .finished

/-- `operator()`. -/
def call (t : Task) (ti : TaskInfo) : TaskProgram :=
  match t with
  | copy tx => transferBody false tx ti
  | move tx => transferBody false tx ti
  | remove => removeBody ti
  | noop => noopBody
  | remoteTransfer tx => transferBody ti.isRemote tx ti

end Task

/-! ### What the calls do -/

/-- The calls that report an error code. -/
inductive TaskCall where
  | getResource
  | newResource
  | transfer
  | acceptTransfer
  | remove
deriving DecidableEq, Repr

/-- A call that has returned, with the code that it reported. -/
def TaskOp.reported : (op : TaskOp) → op.Result → Option (TaskCall × ErrorCode)
  | .updateStatus _, _ => none
  | .updateStatusError _ _ _, _ => none
  | .getResource _ _, r => some (.getResource, r.2)
  | .newResource _ _ _, r => some (.newResource, r.2)
  | .transfer _ _ _ _, ec => some (.transfer, ec)
  | .acceptTransfer _ _ _ _, ec => some (.acceptTransfer, ec)
  | .remove _ _, ec => some (.remove, ec)

/-- The status that a call writes. -/
def TaskOp.written : TaskOp → Option TaskStatus
  | .updateStatus st => some st
  | .updateStatusError st _ _ => some st
  | _ => none

/-- The record after a call of it. -/
def TaskOp.update : TaskOp → TaskInfo → TaskInfo
  | .updateStatus st, ti => ti.updateStatus st
  | .updateStatusError st ec sc, ti => ti.updateStatusError st ec sc
  | _, ti => ti

/-- Every outcome: backends and transferors answer what they like, and a transfer adds to the bytes
that have been sent as often as it likes. -/
def anyOutcome : Program.Interp TaskOp TaskOp.Result TaskInfo where
  answer op ti _ ti' := ti' = op.update ti
  within op ti ti' :=
    match op with
    | .transfer _ _ _ _ => ∃ bytes, ti' = ti.recordTransfer bytes
    | _ => False

/-- The events of a run of a task. -/
abbrev TaskTrace := List (Sigma TaskOp.Result)

/-- The calls that reported an error code, in order. -/
def TaskTrace.calls (es : TaskTrace) : List (TaskCall × ErrorCode) :=
  es.filterMap fun e => e.1.reported e.2

/-- The statuses that the record has had. -/
def TaskTrace.statuses (es : TaskTrace) : List TaskStatus :=
  .pending :: es.filterMap fun e => e.1.written

/-! ### The shape of the bodies -/

/-- A record as its constructor leaves it. -/
structure TaskInfo.Fresh (ti : TaskInfo) : Prop where
  status : ti.status = .pending
  taskError : ti.taskError = .success
  sysError : ti.sysError = 0

theorem TaskInfo.fresh_new (tid : IotaskId) (type : IotaskType) (isRemote : Bool)
    (auth : Credentials) (srcBackend : Option Backend) (srcRinfo : Option ResourceInfo)
    (dstBackend : Option Backend) (dstRinfo : Option ResourceInfo) (size : UInt64) :
    (TaskInfo.new tid type isRemote auth srcBackend srcRinfo dstBackend dstRinfo size).Fresh :=
  ⟨rfl, rfl, rfl⟩

/-- The calls that a task makes if none of them reports an error. -/
def Task.plan (t : Task) (ti : TaskInfo) : List TaskCall :=
  match t with
  | .copy _ | .move _ => [.getResource, .newResource, .transfer]
  | .remove => [.remove]
  | .noop => []
  | .remoteTransfer _ =>
      [.getResource, .newResource, if ti.isRemote then .acceptTransfer else .transfer]

/-- What is left of a body makes the calls of a plan, one after the other.  A code other than zero
goes to `log_error`, a null pointer stops the process, and the end of the plan is the end of the
task. -/
inductive Staged : List TaskCall → TaskProgram → Prop
  | crash {plan : List TaskCall} (f : Fault) : Staged plan (Task.crash f)
  | call {c : TaskCall} {rest : List TaskCall} {op : TaskOp} {next : op.Result → TaskProgram}
      (hop : ∀ r, ∃ ec, op.reported r = some (c, ec))
      (hok : ∀ r, op.reported r = some (c, 0) → Staged rest (next r))
      (herr : ∀ r ec, op.reported r = some (c, ec) → ec ≠ 0 → next r = Task.logError ec) :
      Staged (c :: rest) (.call op next)
  | succeed : Staged [] Task.succeed
  | finish : Staged [] (Task.endWith .finished)

/-- A call whose code is tested. -/
theorem Staged.guarded {c : TaskCall} {rest : List TaskCall} (op : TaskOp)
    (code : op.Result → ErrorCode) {p : op.Result → TaskProgram}
    (hop : ∀ r, op.reported r = some (c, code r)) (hok : ∀ r, code r = 0 → Staged rest (p r)) :
    Staged (c :: rest) (.call op fun r => if code r ≠ 0 then Task.logError (code r) else p r) := by
  refine .call (fun r => ⟨code r, hop r⟩) (fun r hr => ?_) (fun r ec hr hec => ?_)
  · rw [hop r] at hr
    have hcode : code r = 0 := (Prod.mk.inj (Option.some.inj hr)).2
    rw [if_neg (not_not.mpr hcode)]
    exact hok r hcode
  · rw [hop r] at hr
    obtain rfl : code r = ec := (Prod.mk.inj (Option.some.inj hr)).2
    exact if_pos hec

theorem Task.transferBody_staged (accept : Bool) (tx : Transferor) (ti : TaskInfo) :
    Task.transferBody accept tx ti = Task.crash .nullDeref ∨
    ∃ body, Task.transferBody accept tx ti = .call (.updateStatus .running) (fun _ => body) ∧
      Staged [.getResource, .newResource, if accept then .acceptTransfer else .transfer] body := by
  unfold Task.transferBody
  split
  · next srcBackend srcRinfo dstBackend dstRinfo _ _ _ _ =>
      refine Or.inr ⟨_, rfl, ?_⟩
      refine Staged.guarded (.getResource srcBackend srcRinfo) (fun r => r.2) (fun _ => rfl) ?_
      rintro ⟨src, ec⟩ -
      cases src with
      | none => exact .crash _
      | some src =>
          refine Staged.guarded (.newResource dstBackend dstRinfo src.isCollection) (fun r => r.2)
            (fun _ => rfl) ?_
          rintro ⟨dst, ec⟩ -
          cases accept with
          | true =>
              exact Staged.guarded (.acceptTransfer tx ti.auth src dst) (fun r => r)
                (fun _ => rfl) fun _ _ => .succeed
          | false =>
              exact Staged.guarded (.transfer tx ti.auth src dst) (fun r => r)
                (fun _ => rfl) fun _ _ => .succeed
  · exact Or.inl rfl

/-- The body of every task has the shape: it stops at once, or it writes `running` and follows its
plan. -/
theorem Task.call_staged (t : Task) (ti : TaskInfo) :
    (∃ f, t.call ti = Task.crash f) ∨
    ∃ body, t.call ti = .call (.updateStatus .running) (fun _ => body) ∧
      Staged (t.plan ti) body := by
  cases t with
  | copy tx => exact (transferBody_staged false tx ti).imp_left fun h => ⟨_, h⟩
  | move tx => exact (transferBody_staged false tx ti).imp_left fun h => ⟨_, h⟩
  | remoteTransfer tx => exact (transferBody_staged ti.isRemote tx ti).imp_left fun h => ⟨_, h⟩
  | noop => exact Or.inr ⟨_, rfl, .finish⟩
  | remove =>
      unfold Task.call Task.removeBody
      dsimp only
      split
      · next b rinfo _ _ =>
          refine Or.inr ⟨_, rfl, ?_⟩
          exact Staged.guarded (.remove b rinfo) (fun r => r) (fun _ => rfl) fun _ _ => .succeed
      · exact Or.inl ⟨_, rfl⟩

/-! ### The state machine -/

/-- What a task has done when `p` is left of its body: the calls that have returned, the statuses
that have been written, and the record. -/
inductive Machine (plan : List TaskCall) (es : TaskTrace) (ti : TaskInfo) : TaskProgram → Prop
  | stopped (f : Fault) (hfresh : ti.Fresh) (hes : es = []) : Machine plan es ti (Task.crash f)
  | pending {body : TaskProgram} (hfresh : ti.Fresh) (hes : es = []) (hbody : Staged plan body) :
      Machine plan es ti (.call (.updateStatus .running) fun _ => body)
  | running {p : TaskProgram} {rest : List TaskCall}
      (hcalls : es.calls.map Prod.fst ++ rest = plan) (hclear : ∀ c ∈ es.calls, c.2 = 0)
      (hst : es.statuses = [.pending, .running])
      (hti : ti.status = .running ∧ ti.taskError = .success ∧ ti.sysError = 0)
      (hp : Staged rest p) : Machine plan es ti p
  | failing {c : TaskCall} {ec : ErrorCode} {l : List (TaskCall × ErrorCode)}
      (hcalls : es.calls = l ++ [(c, ec)]) (hplan : es.calls.map Prod.fst <+: plan)
      (hclear : ∀ c ∈ l, c.2 = 0) (hec : ec ≠ 0) (hst : es.statuses = [.pending, .running])
      (hrun : ti.status = .running) : Machine plan es ti (Task.logError ec)
  | failed {c : TaskCall} {ec : ErrorCode} {l : List (TaskCall × ErrorCode)}
      (hcalls : es.calls = l ++ [(c, ec)]) (hplan : es.calls.map Prod.fst <+: plan)
      (hclear : ∀ c ∈ l, c.2 = 0) (hec : ec ≠ 0)
      (hst : es.statuses = [.pending, .running, .finishedWithError])
      (hti : ti.status = .finishedWithError ∧ ti.taskError = .systemError ∧ ti.sysError = ec) :
      Machine plan es ti (.ret (.ok ()))
  | finished (hcalls : es.calls.map Prod.fst = plan) (hclear : ∀ c ∈ es.calls, c.2 = 0)
      (hst : es.statuses = [.pending, .running, .finished])
      (hti : ti.status = .finished ∧ ti.taskError = .success ∧ ti.sysError = 0) :
      Machine plan es ti (.ret (.ok ()))

theorem TaskTrace.calls_concat (es : TaskTrace) (op : TaskOp) (r : op.Result) :
    TaskTrace.calls (es ++ [⟨op, r⟩]) = es.calls ++ (op.reported r).toList := by
  simp [TaskTrace.calls, List.filterMap_append, List.filterMap_cons]
  cases op.reported r <;> rfl

theorem TaskTrace.statuses_concat (es : TaskTrace) (op : TaskOp) (r : op.Result) :
    TaskTrace.statuses (es ++ [⟨op, r⟩]) = es.statuses ++ op.written.toList := by
  simp [TaskTrace.statuses, List.filterMap_append, List.filterMap_cons]
  cases op.written <;> rfl

/-- A call that reports a code does not write to the record. -/
theorem TaskOp.reads_of_reported {op : TaskOp} {r : op.Result} {e : TaskCall × ErrorCode}
    (h : op.reported r = some e) : op.written = none ∧ ∀ ti, op.update ti = ti := by
  cases op with
  | updateStatus st => cases h
  | updateStatusError st ec sc => cases h
  | _ => exact ⟨rfl, fun _ => rfl⟩

namespace Machine

variable {plan : List TaskCall} {es : TaskTrace} {ti ti' : TaskInfo} {p : TaskProgram}
  {op : TaskOp} {next : op.Result → TaskProgram}

/-- A fresh record and the whole body. -/
theorem start (t : Task) (hfresh : ti.Fresh) : Machine (t.plan ti) [] ti (t.call ti) := by
  obtain ⟨f, h⟩ | ⟨body, h, hbody⟩ := t.call_staged ti
  · rw [h]
    exact .stopped f hfresh rfl
  · rw [h]
    exact .pending hfresh rfl hbody

/-- The last write, after all calls have returned without an error. -/
theorem complete (hcalls : es.calls.map Prod.fst = plan) (hclear : ∀ c ∈ es.calls, c.2 = 0)
    (hst : es.statuses = [.pending, .running]) (r : op.Result) (hop : op.reported r = none)
    (hwrites : op.written = some .finished)
    (hti : ti.status = .finished ∧ ti.taskError = .success ∧ ti.sysError = 0) :
    Machine plan (es ++ [⟨op, r⟩]) ti (.ret (.ok ())) := by
  have hsame : TaskTrace.calls (es ++ [⟨op, r⟩]) = es.calls := by
    rw [TaskTrace.calls_concat, hop]
    exact List.append_nil _
  refine .finished ?_ ?_ ?_ hti
  · rw [hsame, hcalls]
  · rw [hsame]
    exact hclear
  · rw [TaskTrace.statuses_concat, hst, hwrites]
    rfl

/-- The call at which the task is returns with `r`. -/
theorem answer (h : Machine plan es ti p) (hp : p = .call op next) (r : op.Result) :
    Machine plan (es ++ [⟨op, r⟩]) (op.update ti) (next r) := by
  cases h with
  | stopped f _ _ => cases hp
  | failed _ _ _ _ _ _ => cases hp
  | finished _ _ _ _ => cases hp
  | pending hfresh hes hbody =>
      cases hp
      subst hes
      exact .running rfl (by simp [TaskTrace.calls, TaskOp.reported]) rfl
        ⟨rfl, hfresh.taskError, hfresh.sysError⟩ hbody
  | failing hcalls hplan hclear hec hst hrun =>
      cases hp
      have hsame : TaskTrace.calls (es ++ [⟨_, r⟩]) = es.calls := by
        rw [TaskTrace.calls_concat]
        exact List.append_nil _
      refine .failed (hsame.trans hcalls) ?_ hclear hec ?_ ⟨rfl, rfl, rfl⟩
      · rw [hsame]
        exact hplan
      · rw [TaskTrace.statuses_concat, hst]
        rfl
  | running hcalls hclear hst hti hstaged =>
      cases hstaged with
      | crash f => cases hp
      | succeed =>
          cases hp
          exact complete (by simpa using hcalls) hclear hst r rfl rfl ⟨rfl, rfl, rfl⟩
      | finish =>
          cases hp
          exact complete (by simpa using hcalls) hclear hst r rfl rfl ⟨rfl, hti.2⟩
      | @call c rest _ _ hop hok herr =>
          cases hp
          obtain ⟨ec, hec⟩ := hop r
          obtain ⟨hreads, hsame⟩ := TaskOp.reads_of_reported hec
          have hlog : TaskTrace.calls (es ++ [⟨op, r⟩]) = es.calls ++ [(c, ec)] := by
            rw [TaskTrace.calls_concat, hec]
            rfl
          have hst' : TaskTrace.statuses (es ++ [⟨op, r⟩]) = [.pending, .running] := by
            rw [TaskTrace.statuses_concat, hst, hreads]
            rfl
          have hplan : (es.calls ++ [(c, ec)]).map Prod.fst ++ rest = plan := by
            simpa using hcalls
          rw [hsame]
          by_cases hz : ec = 0
          · subst hz
            refine .running (by rw [hlog, hplan]) ?_ hst' hti (hok r hec)
            rw [hlog]
            simpa [or_imp, forall_and] using hclear
          · rw [herr r ec hec hz]
            exact .failing hlog ⟨rest, by rw [hlog, hplan]⟩ hclear hz hst' hti.1

/-- A task is running when something happens within one of its calls. -/
theorem running_of_within (h : Machine plan es ti p) (hp : p = .call op next)
    (hw : anyOutcome.within op ti ti') :
    ti.status = .running ∧ ∃ bytes, ti' = ti.recordTransfer bytes := by
  have hbytes : ∃ bytes, ti' = ti.recordTransfer bytes := by
    cases op with
    | transfer tx auth src dst => exact hw
    | _ => exact hw.elim
  refine ⟨?_, hbytes⟩
  cases h with
  | stopped f _ _ => cases hp
  | failed _ _ _ _ _ _ => cases hp
  | finished _ _ _ _ => cases hp
  | pending _ _ _ =>
      cases hp
      exact hw.elim
  | failing _ _ _ _ _ hrun => exact hrun
  | running _ _ _ hti _ => exact hti.1

/-- A transfer adds to the bytes that have been sent. -/
theorem within (h : Machine plan es ti p) (hp : p = .call op next)
    (hw : anyOutcome.within op ti ti') : Machine plan es ti' p := by
  obtain ⟨hst, bytes, rfl⟩ := h.running_of_within hp hw
  cases h with
  | stopped f _ _ => cases hp
  | failed _ _ _ _ _ hti => cases hp
  | finished _ _ _ _ => cases hp
  | pending hfresh _ _ =>
      rw [hfresh.status] at hst
      cases hst
  | failing hcalls hplan hclear hec hst hrun => exact .failing hcalls hplan hclear hec hst hrun
  | running hcalls hclear hst hti hstaged => exact .running hcalls hclear hst hti hstaged

end Machine

/-- Every run of every task is one of the state machine. -/
theorem machine_of_trace (t : Task) {ti ti' : TaskInfo} (hfresh : ti.Fresh) {es : TaskTrace}
    {p : TaskProgram} (h : Program.Trace anyOutcome (t.call ti, ti) es (p, ti')) :
    Machine (t.plan ti) es ti' p := by
  refine h.invariant (P := fun es p ti' => Machine (t.plan ti) es ti' p) (.start t hfresh) ?_ ?_
  · intro es op next ti₁ r ti₂ hm ha
    subst ha
    exact hm.answer rfl r
  · intro es op next ti₁ ti₂ hm hw
    exact hm.within rfl hw

/-! ### What the clients see -/

/-- How far a task has come. -/
def TaskStatus.rank : TaskStatus → ℕ
  | .undefined => 0
  | .pending => 1
  | .running => 2
  | .finished => 3
  | .finishedWithError => 3

/-- A task that has had the first status can have the second one later. -/
def TaskStatus.Precedes (st st' : TaskStatus) : Prop := st = st' ∨ st.rank < st'.rank

namespace TaskStatus.Precedes

theorem refl (st : TaskStatus) : st.Precedes st := Or.inl rfl

theorem trans {st st' st'' : TaskStatus} (h : st.Precedes st') (h' : st'.Precedes st'') :
    st.Precedes st'' := by
  obtain rfl | h := h
  · exact h'
  · obtain rfl | h' := h'
    · exact Or.inr h
    · exact Or.inr (h.trans h')

end TaskStatus.Precedes

theorem WorkerUpdate.precedes {ti ti' : TaskInfo} (h : WorkerUpdate ti ti') :
    ti.status.Precedes ti'.status := by
  cases h with
  | start h =>
      apply Or.inr
      rw [h]
      show TaskStatus.pending.rank < TaskStatus.running.rank
      decide
  | record bytes _ => exact .refl _
  | complete st ec sc h hst =>
      apply Or.inr
      rw [h]
      show TaskStatus.running.rank < st.rank
      obtain rfl | rfl := TaskStatus.terminal_iff.mp hst <;> decide

/-- The snapshot that the handler will answer with. -/
def IpcThread.pendingAnswer : IpcThread → Option (ℕ × TaskStats)
  | .idle => none
  | .found _ _ => none
  | .snapshot _ p st => some (p, st)
  | .reread _ p st => some (p, st)
  | .erasing _ p st => some (p, st)

/-- Of two answers about one record, the second reports a status that can follow the first. -/
def StatusAnswer.Before (a b : StatusAnswer) : Prop :=
  ∀ p st st', a.task = some (p, st) → b.task = some (p, st') → st.status.Precedes st'.status

/-- No status that has been reported, or is about to be, lies ahead of the record, and the reports
are in order. -/
structure StatusSystem.Ordered (s : StatusSystem) : Prop where
  answered : ∀ a ∈ s.answers, ∀ p st, a.task = some (p, st) →
    ∃ ti, s.heap[p]? = some ti ∧ st.status.Precedes ti.status
  current : ∀ p st, s.ipc.pendingAnswer = some (p, st) →
    ∃ ti, s.heap[p]? = some ti ∧ st.status.Precedes ti.status
  next : ∀ p st, s.ipc.pendingAnswer = some (p, st) → ∀ a ∈ s.answers, ∀ st',
    a.task = some (p, st') → st'.status.Precedes st.status
  sorted : s.answers.Pairwise StatusAnswer.Before

namespace StatusSystem.Ordered

variable {s s' : StatusSystem}

theorem ofInit : StatusSystem.init.Ordered where
  answered a h := by cases h
  current p st h := by cases h
  next p st h := by cases h
  sorted := List.Pairwise.nil

/-- A change of the heap in which every record goes on. -/
theorem withHeap (h : s.Ordered) (hans : s'.answers = s.answers) (hipc : s'.ipc = s.ipc)
    (hmono : ∀ (p : ℕ) (ti : TaskInfo), s.heap[p]? = some ti →
      ∃ ti', s'.heap[p]? = some ti' ∧ ti.status.Precedes ti'.status) : s'.Ordered := by
  have hgo : ∀ (p : ℕ) (st : TaskStatus),
      (∃ ti : TaskInfo, s.heap[p]? = some ti ∧ st.Precedes ti.status) →
      ∃ ti' : TaskInfo, s'.heap[p]? = some ti' ∧ st.Precedes ti'.status := by
    rintro p st ⟨ti, hget, hle⟩
    obtain ⟨ti', hget', hle'⟩ := hmono p ti hget
    exact ⟨ti', hget', hle.trans hle'⟩
  refine ⟨?_, ?_, ?_, ?_⟩
  · rw [hans]
    exact fun a ha p st hst => hgo p _ (h.answered a ha p st hst)
  · rw [hipc]
    exact fun p st hst => hgo p _ (h.current p st hst)
  · rw [hans, hipc]
    exact h.next
  · rw [hans]
    exact h.sorted

/-- The handler moves on with the same snapshot, or without one. -/
theorem withIpc (h : s.Ordered) {ipc : IpcThread}
    (hipc : ipc.pendingAnswer = none ∨ ipc.pendingAnswer = s.ipc.pendingAnswer) :
    StatusSystem.Ordered { s with ipc := ipc } := by
  refine ⟨h.answered, fun p st hst => ?_, fun p st hst => ?_, h.sorted⟩
  · obtain hnone | heq := hipc
    · cases hnone.symm.trans hst
    · exact h.current p st (heq.symm.trans hst)
  · obtain hnone | heq := hipc
    · cases hnone.symm.trans hst
    · exact h.next p st (heq.symm.trans hst)

/-- A new snapshot. -/
theorem snapshot (h : s.Ordered) (tid : IotaskId) {p : ℕ} {ti : TaskInfo}
    (hget : s.heap[p]? = some ti) :
    StatusSystem.Ordered { s with ipc := .snapshot tid p ti.stats } := by
  refine ⟨h.answered, fun q st hst => ?_, fun q st hst a ha st' hst' => ?_, h.sorted⟩
  · obtain ⟨rfl, rfl⟩ := Prod.mk.inj (Option.some.inj hst)
    exact ⟨ti, hget, .refl _⟩
  · obtain ⟨rfl, rfl⟩ := Prod.mk.inj (Option.some.inj hst)
    obtain ⟨ti', hget', hle⟩ := h.answered a ha p st' hst'
    obtain rfl := Option.some.inj (hget.symm.trans hget')
    exact hle

/-- An answer that reports the snapshot, or nothing. -/
theorem answer (h : s.Ordered) {table : Table IotaskId ℕ} {a : StatusAnswer}
    (ha : ∀ p st, a.task = some (p, st) → s.ipc.pendingAnswer = some (p, st)) :
    StatusSystem.Ordered { s with table := table, ipc := .idle, answers := s.answers ++ [a] } := by
  refine ⟨fun b hb p st hst => ?_, fun p st hst => (by cases hst), fun p st hst => (by cases hst),
    ?_⟩
  · obtain hb | hb := List.mem_append.mp hb
    · exact h.answered b hb p st hst
    · rw [List.mem_singleton.mp hb] at hst
      exact h.current p st (ha p st hst)
  · refine List.pairwise_append.mpr ⟨h.sorted, List.pairwise_singleton _ _, ?_⟩
    intro b hb a' ha' p st st' hst hst'
    rw [List.mem_singleton.mp ha'] at hst'
    exact h.next p st' (ha p st' hst') b hb st hst

theorem request (h : s.Ordered) (tid : IotaskId) (hidle : s.ipc = .idle) :
    (s.request tid).Ordered := by
  unfold StatusSystem.request
  cases s.table.lookup tid with
  | some p => exact h.withIpc (Or.inl rfl)
  | none =>
      have hs : ({ s with answers := s.answers ++ [⟨tid, none, false⟩] } : StatusSystem) =
          { s with table := s.table, ipc := .idle, answers := s.answers ++ [⟨tid, none, false⟩] } := by
        rw [← hidle]
      rw [hs]
      exact h.answer fun p st hst => (by cases hst)

theorem ipc (h : s.Ordered) (hnext : s.ipcNext = some s') : s'.Ordered := by
  obtain ⟨tid, p, ti, hs, hget, rfl⟩ | ⟨tid, p, st, ti, hs, -, ⟨-, rfl⟩ | ⟨-, rfl⟩⟩ |
    ⟨tid, p, st, ti, hs, -, ⟨-, rfl⟩ | ⟨-, rfl⟩⟩ | ⟨tid, p, st, hs, rfl⟩ := ipcNext_cases hnext
  · exact h.snapshot tid hget
  · exact h.withIpc (Or.inr (by rw [hs]; rfl))
  · exact h.withIpc (Or.inr (by rw [hs]; rfl))
  · exact h.withIpc (Or.inr (by rw [hs]; rfl))
  · refine h.answer fun q st' hst => ?_
    rw [hs]
    exact hst
  · refine h.answer fun q st' hst => ?_
    rw [hs]
    exact hst

theorem step (s s' : StatusSystem) (h : s.Ordered) (hstep : StatusStep s s') : s'.Ordered := by
  cases hstep with
  | create ti _ _ =>
      refine h.withHeap rfl rfl fun p ti' hget => ?_
      exact ⟨ti', StatusSystem.Inv.heap_create_of_some hget, .refl _⟩
  | update p hget hupd =>
      refine h.withHeap rfl rfl fun q tq hq => ?_
      exact StatusSystem.Inv.record_update hget ⟨tq, hq, .refl _⟩ fun _ hle =>
        hle.trans hupd.precedes
  | request tid hidle => exact h.request tid hidle
  | ipc hnext => exact h.ipc hnext

end StatusSystem.Ordered

/-! ### Tasks and requests together -/

/-- The records and the handler of status requests, with what is left of the body of each task; a
task that was refused has none. -/
structure TaskSystem where
  core : StatusSystem
  bodies : List (Option TaskProgram)

/-- No task yet. -/
def TaskSystem.init : TaskSystem := ⟨.init, []⟩

/-- One step of some thread. -/
inductive TaskStep : TaskSystem → TaskSystem → Prop
  | create {s : TaskSystem} (ti : TaskInfo) (t : Option Task) (hfree : ti.id ∉ s.core.table)
      (hfresh : ti.Fresh) :
      TaskStep s ⟨s.core.create ti, s.bodies ++ [t.map fun t => t.call ti]⟩
  | work {s : TaskSystem} (p : ℕ) {prog prog' : TaskProgram} {ti ti' : TaskInfo}
      (hbody : s.bodies[p]? = some (some prog)) (hget : s.core.heap[p]? = some ti)
      (h : Program.Step anyOutcome (prog, ti) (prog', ti')) :
      TaskStep s ⟨{ s.core with heap := s.core.heap.set p ti' }, s.bodies.set p (some prog')⟩
  | request {s : TaskSystem} (tid : IotaskId) (hidle : s.core.ipc = .idle) :
      TaskStep s { s with core := s.core.request tid }
  | ipc {s : TaskSystem} {core : StatusSystem} (h : s.core.ipcNext = some core) :
      TaskStep s { s with core := core }

/-- Every body is at a point of the state machine. -/
structure TaskSystem.Inv (s : TaskSystem) : Prop where
  length : s.bodies.length = s.core.heap.length
  machine : ∀ (p : ℕ) (prog : TaskProgram) (ti : TaskInfo), s.bodies[p]? = some (some prog) →
    s.core.heap[p]? = some ti → ∃ plan es, Machine plan es ti prog

/-- A step of a body keeps the record or is one of the updates that the handler can see. -/
theorem Machine.update {plan : List TaskCall} {es : TaskTrace} {ti ti' : TaskInfo}
    {p p' : TaskProgram} (h : Machine plan es ti p)
    (hstep : Program.Step anyOutcome (p, ti) (p', ti')) :
    (ti' = ti ∨ WorkerUpdate ti ti') ∧ ∃ es', Machine plan es' ti' p' := by
  generalize hc : (p, ti) = c at hstep
  generalize hc' : (p', ti') = c' at hstep
  cases hstep with
  | @answer op next _ _ r ha =>
      obtain ⟨rfl, rfl⟩ := Prod.mk.inj hc
      obtain ⟨rfl, rfl⟩ := Prod.mk.inj hc'
      subst ha
      refine ⟨?_, _, h.answer rfl r⟩
      generalize hp : (Program.call op next : TaskProgram) = p at h
      cases h with
      | stopped f _ _ => cases hp
      | failed _ _ _ _ _ _ => cases hp
      | finished _ _ _ _ => cases hp
      | pending hfresh _ _ =>
          cases hp
          exact Or.inr (.start hfresh.status)
      | failing _ _ _ _ _ hrun =>
          cases hp
          exact Or.inr (.complete _ _ _ hrun rfl)
      | running _ _ _ hti hstaged =>
          cases hstaged with
          | crash f => cases hp
          | succeed =>
              cases hp
              exact Or.inr (.complete _ _ _ hti.1 rfl)
          | finish =>
              cases hp
              exact Or.inr (.complete .finished ti.taskError ti.sysError hti.1 rfl)
          | call hop _ _ =>
              cases hp
              obtain ⟨ec, hec⟩ := hop r
              exact Or.inl ((TaskOp.reads_of_reported hec).2 ti)
  | within hw =>
      obtain ⟨rfl, rfl⟩ := Prod.mk.inj hc
      obtain ⟨rfl, rfl⟩ := Prod.mk.inj hc'
      obtain ⟨hst, bytes, rfl⟩ := h.running_of_within rfl hw
      exact ⟨Or.inr (.record bytes hst), _, h.within rfl hw⟩

namespace TaskSystem.Inv

variable {s s' : TaskSystem}

theorem ofInit : TaskSystem.init.Inv where
  length := rfl
  machine p prog ti h := by cases h

theorem step (s s' : TaskSystem) (h : s.Inv) (hstep : TaskStep s s') : s'.Inv := by
  cases hstep with
  | create ti t hfree hfresh =>
      refine ⟨by simp [StatusSystem.create, h.length], fun p prog ti' hbody hget => ?_⟩
      obtain hget' | ⟨rfl, rfl⟩ := StatusSystem.Inv.heap_create_cases hget
      · have hlt : p < s.bodies.length := by
          rw [h.length]
          exact (List.getElem?_eq_some_iff.mp hget').1
        rw [List.getElem?_append_left hlt] at hbody
        exact h.machine p prog ti' hbody hget'
      · rw [← h.length, List.getElem?_concat_length] at hbody
        obtain ⟨t', -, rfl⟩ := Option.map_eq_some_iff.mp (Option.some.inj hbody)
        exact ⟨_, _, .start t' hfresh⟩
  | work q hbody hget hs =>
      obtain ⟨plan, es, hm⟩ := h.machine q _ _ hbody hget
      obtain ⟨-, es', hm'⟩ := hm.update hs
      refine ⟨by simp [h.length], fun p prog ti' hbody' hget' => ?_⟩
      by_cases hpq : q = p
      · subst hpq
        obtain ⟨hlt, -⟩ := List.getElem?_eq_some_iff.mp hbody
        rw [List.getElem?_set_self hlt] at hbody'
        rw [StatusSystem.Inv.heap_update_self hget] at hget'
        obtain rfl := Option.some.inj (Option.some.inj hbody')
        obtain rfl := Option.some.inj hget'
        exact ⟨plan, es', hm'⟩
      · rw [List.getElem?_set_ne hpq] at hbody' hget'
        exact h.machine p prog ti' hbody' hget'
  | request tid hidle =>
      refine ⟨by simpa [request_heap] using h.length, fun p prog ti hbody hget => ?_⟩
      rw [request_heap] at hget
      exact h.machine p prog ti hbody hget
  | ipc hnext =>
      refine ⟨by simpa [ipcNext_heap hnext] using h.length, fun p prog ti hbody hget => ?_⟩
      rw [ipcNext_heap hnext] at hget
      exact h.machine p prog ti hbody hget

/-- The handler of status requests sees nothing but its own steps and updates of the records. -/
theorem core (h : s.Inv) (hstep : TaskStep s s') :
    s'.core = s.core ∨ StatusStep s.core s'.core := by
  cases hstep with
  | create ti t hfree hfresh => exact Or.inr (.create ti hfree hfresh.status)
  | request tid hidle => exact Or.inr (.request tid hidle)
  | ipc hnext => exact Or.inr (.ipc hnext)
  | work q hbody hget hs =>
      obtain ⟨plan, es, hm⟩ := h.machine q _ _ hbody hget
      obtain ⟨rfl | hupd, -⟩ := hm.update hs
      · apply Or.inl
        obtain ⟨hlt, hq⟩ := List.getElem?_eq_some_iff.mp hget
        rw [← hq, List.set_getElem_self]
      · exact Or.inr (.update q hget hupd)

end TaskSystem.Inv

/-- In every run of tasks and requests the reports are in order. -/
theorem TaskSystem.ordered {s : TaskSystem} (h : Run TaskStep .init s) : s.core.Ordered := by
  have hinv : s.Inv ∧ s.core.Ordered := by
    refine Run.invariant (P := fun s => s.Inv ∧ s.core.Ordered) ?_ h
      ⟨.ofInit, StatusSystem.Ordered.ofInit⟩
    rintro s s' ⟨hi, ho⟩ hstep
    refine ⟨TaskSystem.Inv.step s s' hi hstep, ?_⟩
    obtain heq | hcore := hi.core hstep
    · rwa [heq]
    · exact StatusSystem.Ordered.step _ _ ho hcore
  exact hinv.2

/-! ### The status of a task -/

/-- What is true of a task `t` on the record `ti` when the calls `es` have returned, the record has
become `ti'` and `p` is left of the body. -/
structure Task.Behaves (t : Task) (ti : TaskInfo) (es : TaskTrace) (p : TaskProgram)
    (ti' : TaskInfo) : Prop where
  sequence : ∃ T : TaskStatus, T.terminal = true ∧ es.statuses <+: [.pending, .running, T]
  current : es.statuses.getLast? = some ti'.status
  final : ti'.status.terminal = true →
    ∀ es' c, Program.Trace anyOutcome (p, ti') es' c → c.2 = ti'
  returned : p = .ret (.ok ()) ↔ ti'.status.terminal = true
  failed : ti'.status.terminal = true →
    (ti'.status = .finishedWithError ↔ ∃ c ∈ es.calls, c.2 ≠ 0)
  error : ti'.status = .finishedWithError → ∀ c ∈ es.calls, c.2 ≠ 0 →
    ti'.taskError = .systemError ∧ ti'.sysError = c.2
  success : ti'.status = .finished → ti'.taskError = .success ∧ ti'.sysError = 0
  order : es.calls.map Prod.fst <+: t.plan ti
  complete : ti'.status = .finished → es.calls.map Prod.fst = t.plan ti
  guarded : ∀ c ∈ es.calls.dropLast, c.2 = 0

/-- A status before the final one. -/
theorem Task.behaves_of_active {t : Task} {ti ti' : TaskInfo} {es : TaskTrace} {p : TaskProgram}
    (hst : es.statuses <+: [.pending, .running]) (hlast : es.statuses.getLast? = some ti'.status)
    (hactive : ti'.status.terminal = false) (hp : p ≠ .ret (.ok ()))
    (horder : es.calls.map Prod.fst <+: t.plan ti) (hguard : ∀ c ∈ es.calls.dropLast, c.2 = 0) :
    t.Behaves ti es p ti' := by
  have hne : ti'.status.terminal ≠ true := by simp [hactive]
  have hnot : ∀ T : TaskStatus, T.terminal = true → ti'.status ≠ T := by
    rintro T hT rfl
    exact hne hT
  exact ⟨⟨.finished, rfl, hst.trans ⟨[_], rfl⟩⟩, hlast, fun h => absurd h hne,
    ⟨fun h => absurd h hp, fun h => absurd h hne⟩, fun h => absurd h hne,
    fun h => absurd h (hnot _ rfl), fun h => absurd h (hnot _ rfl), horder,
    fun h => absurd h (hnot _ rfl), hguard⟩

theorem Machine.behaves {t : Task} {ti ti' : TaskInfo} {es : TaskTrace} {p : TaskProgram}
    (h : Machine (t.plan ti) es ti' p) : t.Behaves ti es p ti' := by
  cases h with
  | stopped f hfresh hes =>
      subst hes
      refine Task.behaves_of_active ⟨[_], rfl⟩ ?_ ?_ (by rintro ⟨⟩) ⟨_, rfl⟩ (by rintro _ ⟨⟩)
      · rw [hfresh.status]
        rfl
      · rw [hfresh.status]
        rfl
  | pending hfresh hes _ =>
      subst hes
      refine Task.behaves_of_active ⟨[_], rfl⟩ ?_ ?_ (by rintro ⟨⟩) ⟨_, rfl⟩ (by rintro _ ⟨⟩)
      · rw [hfresh.status]
        rfl
      · rw [hfresh.status]
        rfl
  | running hcalls hclear hst hti hstaged =>
      have hp : p ≠ .ret (.ok ()) := by
        rintro rfl
        cases hstaged
      refine Task.behaves_of_active (by rw [hst]) (by rw [hst, hti.1]; rfl) (by rw [hti.1]; rfl) hp
        ⟨_, hcalls⟩ fun c hc => hclear c (List.mem_of_mem_dropLast hc)
  | failing hcalls hplan hclear hec hst hrun =>
      refine Task.behaves_of_active (by rw [hst]) (by rw [hst, hrun]; rfl) (by rw [hrun]; rfl)
        (by rintro ⟨⟩) hplan ?_
      rw [hcalls, List.dropLast_concat]
      exact hclear
  | @failed c ec _ hcalls hplan hclear hec hst hti =>
      obtain ⟨hst', herr, hsys⟩ := hti
      have honly : ∀ c ∈ es.calls, c.2 ≠ 0 → c.2 = ti'.sysError := by
        intro c hc hne
        rw [hcalls] at hc
        obtain hc | hc := List.mem_append.mp hc
        · exact absurd (hclear c hc) hne
        · rw [List.mem_singleton.mp hc, hsys]
      refine ⟨⟨.finishedWithError, rfl, by rw [hst]⟩, by rw [hst, hst']; rfl,
        fun _ es' c hc => by rw [(Program.Trace.of_ret hc).2], ?_, fun _ => ?_, ?_, ?_, hplan, ?_,
        ?_⟩
      · simp [hst', TaskStatus.terminal]
      · have hlast : (c, ec) ∈ es.calls := by
          rw [hcalls]
          exact List.mem_append_right _ (List.mem_singleton_self _)
        exact ⟨fun _ => ⟨_, hlast, hec⟩, fun _ => hst'⟩
      · exact fun _ c hc hne => ⟨herr, (honly c hc hne).symm⟩
      · intro h
        cases hst'.symm.trans h
      · intro h
        cases hst'.symm.trans h
      · rw [hcalls, List.dropLast_concat]
        exact hclear
  | finished hcalls hclear hst hti =>
      refine ⟨⟨.finished, rfl, by rw [hst]⟩, by rw [hst, hti.1]; rfl,
        fun _ es' c hc => by rw [(Program.Trace.of_ret hc).2], ?_, fun _ => ?_, ?_, fun _ => hti.2,
        ⟨[], by rw [hcalls, List.append_nil]⟩, fun _ => hcalls,
        fun c hc => hclear c (List.mem_of_mem_dropLast hc)⟩
      · simp [hti.1, TaskStatus.terminal]
      · constructor
        · intro h
          cases hti.1.symm.trans h
        · rintro ⟨c, hc, hne⟩
          exact absurd (hclear c hc) hne
      · intro h
        cases hti.1.symm.trans h

/-- **The status of a task.**  Whatever its backends and its transferor report, the status of a task
goes from `pending` over `running` to a final value, which says whether a call has reported an error
and stays; the error is the one that was reported; the calls are made in order, each after the one
before has succeeded, and all of them before `finished` is written.  And however the tasks and the
requests for their status interleave, the answers about one task never go back. -/
theorem task_status_machine (t : Task) {ti ti' : TaskInfo} (hfresh : ti.Fresh) {es : TaskTrace}
    {p : TaskProgram} (h : Program.Trace anyOutcome (t.call ti, ti) es (p, ti')) :
    t.Behaves ti es p ti' ∧
    ∀ s, Run TaskStep .init s → s.core.answers.Pairwise StatusAnswer.Before :=
  ⟨(machine_of_trace t hfresh h).behaves, fun _ hrun => (TaskSystem.ordered hrun).sorted⟩

/-- A copy makes its three calls, and is finished if they succeed. -/
theorem Task.copy_returns (tx : Transferor) {ti : TaskInfo} {srcBackend dstBackend : Backend}
    {srcRinfo dstRinfo : ResourceInfo} (hsrcBackend : ti.srcBackend = some srcBackend)
    (hsrcRinfo : ti.srcRinfo = some srcRinfo) (hdstBackend : ti.dstBackend = some dstBackend)
    (hdstRinfo : ti.dstRinfo = some dstRinfo) (src : Resource) (dst : Option Resource) :
    ∃ es, Program.Trace anyOutcome ((Task.copy tx).call ti, ti) es
      (.ret (.ok ()), (ti.updateStatus .running).updateStatusError .finished .success 0) ∧
      TaskTrace.calls es = [(.getResource, 0), (.newResource, 0), (.transfer, 0)] := by
  cases ti
  cases hsrcBackend
  cases hsrcRinfo
  cases hdstBackend
  cases hdstRinfo
  -- `running` is written, the three calls are answered, and `finished` is written
  exact ⟨_, .head (r := ()) rfl (.head (r := (some src, (0 : ErrorCode))) rfl
    (.head (r := (dst, (0 : ErrorCode))) rfl (.head (r := (0 : ErrorCode)) rfl
      (.head (r := ()) rfl .refl)))), rfl⟩

/-- A removal on the POSIX backend of `tmp0`. -/
def removeInfo : TaskInfo :=
  .new 1 .remove false ⟨1, 0, 0⟩ (some ⟨.posixFilesystem, "tmp0", false, "/mnt".toList, 0⟩)
    (some (.localPath "tmp0" "a")) none none 0

/-- A copy on that backend. -/
def copyInfo : TaskInfo :=
  .new 2 .copy false ⟨1, 0, 0⟩ (some ⟨.posixFilesystem, "tmp0", false, "/mnt".toList, 0⟩)
    (some (.localPath "tmp0" "a")) (some ⟨.posixFilesystem, "tmp0", false, "/mnt".toList, 0⟩)
    (some (.localPath "tmp0" "b")) 3

def copyTask : Task := .copy TransferorKind.localPathToLocalPath.plugin

/-- The removal fails with `ENOENT` and has written its two statuses; the copy is finished and has
made its three calls. -/
theorem removal_and_copy_behave :
    (∃ es p ti, Program.Trace anyOutcome (Task.remove.call removeInfo, removeInfo) es (p, ti) ∧
      ti.status = .finishedWithError ∧ ti.sysError = ENOENT ∧ p = .ret (.ok ())) ∧
    ∃ es p ti, Program.Trace anyOutcome (copyTask.call copyInfo, copyInfo) es (p, ti) ∧
      ti.status = .finished ∧
      TaskTrace.calls es = [(.getResource, 0), (.newResource, 0), (.transfer, 0)] ∧
      (TaskTrace.calls es).map Prod.fst = copyTask.plan copyInfo ∧ p = .ret (.ok ()) := by
  have hstart : Program.Trace anyOutcome (Task.remove.call removeInfo, removeInfo) []
      (.call (.updateStatus .running) _, removeInfo) := .refl
  have hrunning : Program.Trace anyOutcome (Task.remove.call removeInfo, removeInfo) _
      (.call (.remove _ _) _, _) := hstart.answer (r := ()) rfl
  have hfailed : Program.Trace anyOutcome (Task.remove.call removeInfo, removeInfo) _
      (.call (.updateStatusError .finishedWithError .systemError ENOENT) _, _) :=
    hrunning.answer (r := ENOENT) rfl
  have htrace := hfailed.answer (r := ()) rfl
  obtain ⟨es, hdone, hcalls⟩ : ∃ es, Program.Trace anyOutcome (copyTask.call copyInfo, copyInfo) es
      (_, _) ∧ _ := Task.copy_returns _ rfl rfl rfl rfl
    (.localPath ⟨.posixFilesystem, "tmp0", false, "/mnt".toList, 0⟩ "/a".toList false)
    (some (.localPath ⟨.posixFilesystem, "tmp0", false, "/mnt".toList, 0⟩ "/b".toList false))
  have hremoval := (task_status_machine .remove (TaskInfo.fresh_new _ _ _ _ _ _ _ _ _) htrace).1
  have hcopy := (task_status_machine copyTask (TaskInfo.fresh_new _ _ _ _ _ _ _ _ _) hdone).1
  exact ⟨⟨_, _, _, htrace, rfl, rfl, hremoval.returned.mpr rfl⟩,
    ⟨es, _, _, hdone, rfl, hcalls, hcopy.complete rfl, hcopy.returned.mpr rfl⟩⟩

end Norns
