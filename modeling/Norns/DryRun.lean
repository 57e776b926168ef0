import Norns.Lib.Mealy
import Norns.Pool
import Norns.Session
import Norns.Task

/-! # Dry runs

A daemon that is started with `--dry-run` creates the records of tasks as always, but hands a task
that only sleeps to the pool (`task_manager::create_local_initiated_task`).  The flag is looked at
after everything that can refuse a request, and not at all for tasks that other daemons ask for.

* `Daemon.dry` is a daemon as it would be in a dry run.
* `dry_run_answers_iff`: the inputs, whole sequences of them, with which a dry run answers as the
  daemon itself does.  Two kinds are excluded: a removal with a destination, which violates an
  assertion that a dry run never comes to, and the failure of a task, since one that sleeps never
  fails.

What a request finds in the files (sizes, and which backends are empty) and the estimated time of
arrival are parts of an input, and so the same for both. -/

namespace Norns

open Lib

/-! ### A daemon and its dry run -/

/-- The task that takes the place of another. -/
def GenericTask.dry (t : GenericTask) : GenericTask := ⟨.noop, t.info, none⟩

def TaskManager.dry (tm : TaskManager) : TaskManager := { tm with dryRun := true }

def Urd.dry (u : Urd) : Urd :=
  { u with taskMgr := u.taskMgr.dry, runners := u.runners.map GenericTask.dry }

def Daemon.dry (d : Daemon) : Daemon := { d with toUrd := d.toUrd.dry }

/-- The points at which the body of a task writes to its record: where it starts, and where it ends,
with the first error that its calls reported, or 0. -/
inductive TaskPoint where
  | start
  | ending (ec : ErrorCode)

/-- What comes from outside to the tables of the daemon: a connection, the worker of a task of an
own client or of another daemon, and a peer that asks for a task. -/
inductive DaemonInput where
  | session (endpoint : Endpoint) (env : SessionEnv) (bytes : List UInt8)
  | localTask (tid : IotaskId) (point : TaskPoint)
  | remoteTask (tid : IotaskId) (op : TaskOp)
  | peer (type : IotaskType) (auth : Credentials) (srcBackend : Backend)
      (src : Option ResourceInfo) (dstBackend : Backend) (dst : Option ResourceInfo)
      (size : UInt64)

/-- What can be seen of it: the end of a session, or what the peer is told and the task that is made
for it. -/
inductive DaemonOutput where
  | session (ending : SessionEnd)
  | record
  | peer (r : Except Fault (UrdError × Option GenericTask))

/-- What the body writes at a point: `noopBody` if the task sleeps, the end of another body
otherwise. -/
def TaskPoint.op (dryRun : Bool) (ti : TaskInfo) : TaskPoint → TaskOp
  | .start => .updateStatus .running
  | .ending ec =>
      if dryRun = true ∨ ti.type = .noop then .updateStatus .finished
      else if ec ≠ 0 then .updateStatusError .finishedWithError .systemError ec
      else .updateStatusError .finished .success 0

/-- A worker writes to a record of its kind. -/
def TaskManager.updateRecord (tm : TaskManager) (tid : IotaskId) (isRemote : Bool)
    (f : TaskInfo → TaskInfo) : TaskManager :=
  match tm.taskInfo.lookup tid with
  | none => tm
  | some ti =>
      if ti.isRemote = isRemote then { tm with taskInfo := tm.taskInfo.replace tid (f ti) } else tm

theorem TaskManager.lookup_updateRecord (tm : TaskManager) (tid : IotaskId) (isRemote : Bool)
    (f : TaskInfo → TaskInfo) : (tm.updateRecord tid isRemote f).taskInfo.lookup tid =
      (tm.taskInfo.lookup tid).map fun ti => if ti.isRemote = isRemote then f ti else ti := by
  unfold TaskManager.updateRecord
  cases hlookup : tm.taskInfo.lookup tid with
  | none => exact hlookup
  | some ti =>
      dsimp only [Option.map_some]
      split_ifs with hsame
      · rw [Table.lookup_replace, if_pos rfl, hlookup, Option.map_some]
      · exact hlookup

/-- The daemon after an input; one that fails stays as it is. -/
def Daemon.input (d : Daemon) : DaemonInput → Daemon × DaemonOutput
  | .session endpoint env bytes =>
      let r := Norns.session env endpoint d bytes
      (r.daemon, .session r.ending)
  | .localTask tid point =>
      ({ d with taskMgr := d.taskMgr.updateRecord tid false fun ti =>
          (point.op d.taskMgr.dryRun ti).update ti }, .record)
  | .remoteTask tid op =>
      ({ d with taskMgr := d.taskMgr.updateRecord tid true op.update }, .record)
  | .peer type auth srcBackend src dstBackend dst size =>
      match d.taskMgr.createRemoteInitiatedTask type auth srcBackend src dstBackend dst size with
      | .error f => (d, .peer (.error f))
      | .ok (tm, rv, t) => ({ d with taskMgr := tm }, .peer (.ok (rv, t)))

/-- The bytes are a removal with a source and a destination, from a client with credentials. -/
def DaemonInput.TwoPlaceRemoval : DaemonInput → Prop
  | .session _ env bytes => env.credentials.isSome ∧ ∃ body src dst,
      doReadRequest env bytes = .ok body ∧
      createFromBuffer env.parse body = .ok (.iotaskCreate .remove (some src) (some dst))
  | _ => False

/-- A task of an own client fails. -/
def DaemonInput.TaskFailure : DaemonInput → Prop
  | .localTask _ (.ending ec) => ec ≠ 0
  | _ => False

/-- No task of an own client has failed so far. -/
def TaskManager.NoFailures (tm : TaskManager) : Prop :=
  ∀ tid ti, tm.taskInfo.lookup tid = some ti → ti.isRemote = false →
    ti.taskError = .success ∧ ti.sysError = 0

/-! ### Creation -/

/-- The result of a creation as it would be in a dry run. -/
def dryCreated (r : TaskManager × UrdError × Option GenericTask) :
    TaskManager × UrdError × Option GenericTask := (r.1.dry, r.2.1, r.2.2.map GenericTask.dry)

/-- The result of a submission as it would be in a dry run. -/
def drySubmitted (r : Urd × UrdError × IotaskId) : Urd × UrdError × IotaskId := (r.1.dry, r.2)

section creation

variable {tm : TaskManager} {type : IotaskType}

/-- The last part of a creation in a dry run. -/
theorem makeTask_dry {n : ℕ} (tx : Option Transferor)
    (htype : type = .copy ∨ type = .move ∨ type = .remove ∨ type = .noop)
    (hremove : type = .remove → n = 1) :
    tm.dry.makeTask .noop n tx = (tm.makeTask type n tx).map dryCreated := by
  obtain rfl | rfl | rfl | rfl := htype
  · rfl
  · rfl
  · rw [hremove rfl]
    rfl
  · rfl

theorem createLocal_dry (hreal : tm.dryRun = false) (auth : Credentials)
    {backendPtrs : List Backend} {rinfoPtrs : List ResourceInfo} (size : UInt64)
    (htype : type = .copy ∨ type = .move ∨ type = .remove ∨ type = .noop)
    (hremove : type = .remove → backendPtrs.length ≠ 2) :
    tm.dry.createLocalInitiatedTask type auth backendPtrs rinfoPtrs size =
      (tm.createLocalInitiatedTask type auth backendPtrs rinfoPtrs size).map dryCreated := by
  have hnext : tm.dry.nextId = tm.nextId := rfl
  have htable : tm.dry.taskInfo = tm.taskInfo := rfl
  have hregistry : tm.dry.transferorRegistry = tm.transferorRegistry := rfl
  have hdry : tm.dry.dryRun = true := rfl
  have henter : ∀ info, tm.dry.enter info = (tm.enter info).dry := fun _ => rfl
  simp only [TaskManager.createLocalInitiatedTask, hnext, htable, hregistry, hdry, henter, hreal,
    if_true, Bool.false_eq_true, if_false]
  by_cases htaken : tm.nextId ∈ tm.taskInfo
  · simp only [if_pos htaken]
    rfl
  simp only [if_neg htaken]
  by_cases hlen : backendPtrs.length = 1 ∨ backendPtrs.length = 2
  · -- the assertion that a removal has one backend holds
    have hone : type = .remove → backendPtrs.length = 1 := by
      intro htype
      have hne := hremove htype
      omega
    simp only [if_neg (not_not.mpr hlen)]
    cases rinfoPtrs with
    | nil => rfl
    | cons src rest =>
        dsimp only
        by_cases hmove : type = .copy ∨ type = .move
        · simp only [if_pos hmove]
          by_cases hlen2 : backendPtrs.length ≠ 2
          · simp only [if_pos hlen2]
            rfl
          · simp only [if_neg hlen2]
            cases rest with
            | nil => rfl
            | cons dst rest =>
                dsimp only
                cases tm.transferorRegistry.get src.type dst.type with
                | none => rfl
                | some tx =>
                    dsimp only
                    cases tx.validate src dst with
                    | false => rfl
                    | true => exact makeTask_dry (some tx) htype hone
        · simp only [if_neg hmove]
          exact makeTask_dry none htype hone
  · simp only [if_pos hlen]
    rfl

theorem enqueueTask_dry (u : Urd) {t : GenericTask} (ht : t.Runnable) :
    u.dry.enqueueTask t.dry = (u.enqueueTask t).dry := by
  rw [Urd.enqueueTask_of_runnable ht]
  simp only [Urd.dry, List.map_append]
  rfl

theorem afterCreation_dry {u : Urd} {r : CreateResult}
    (ht : ∀ tm e g, r = .ok (tm, e, some g) → g.Runnable) :
    u.dry.afterCreation (r.map dryCreated) = (u.afterCreation r).map drySubmitted := by
  cases r with
  | error f => rfl
  | ok r =>
      obtain ⟨tm, rv, t⟩ := r
      cases t with
      | none => cases rv <;> rfl
      | some t =>
          cases rv with
          | success =>
              have hqueue := enqueueTask_dry { u with taskMgr := tm } (ht tm .success t rfl)
              show Except.ok (Urd.enqueueTask (Urd.dry { u with taskMgr := tm }) t.dry, _, _) = _
              rw [hqueue]
              rfl
          | _ => rfl

theorem Urd.iotaskCreateHandler_dry {u : Urd} (hreal : u.taskMgr.dryRun = false)
    (creds : Option Credentials) {src dst : Option ResourceInfo} (size : UInt64)
    (hremove : type = .remove → creds.isSome → src.isNone ∨ dst.isNone) :
    u.dry.iotaskCreateHandler creds type src dst size =
      (u.iotaskCreateHandler creds type src dst size).map drySubmitted := by
  unfold Urd.iotaskCreateHandler
  by_cases hpaused : u.isPaused = true
  · rw [if_pos hpaused, if_pos (show u.dry.isPaused = true from hpaused)]
    rfl
  rw [if_neg hpaused, if_neg (show ¬ u.dry.isPaused = true from hpaused)]
  cases creds with
  | none => rfl
  | some auth =>
      have hfind' : NamespaceManager.findAll u.dry.namespaceMgr
          (namespaceIds (rinfoPtrs src dst)) = NamespaceManager.findAll u.namespaceMgr
            (namespaceIds (rinfoPtrs src dst)) := rfl
      dsimp only
      rw [hfind']
      cases hfind : NamespaceManager.findAll u.namespaceMgr (namespaceIds (rinfoPtrs src dst)) with
      | none => rfl
      | some bs =>
          -- a removal has one backend, since it has one resource
          have hlen : type = .remove → bs.length ≠ 2 := by
            intro htype
            rw [NamespaceManager.length_findAll hfind, namespaceIds, List.length_map]
            obtain hsrc | hdst := hremove htype rfl
            · rw [Option.isNone_iff_eq_none.mp hsrc]
              cases dst <;> simp [rinfoPtrs]
            · rw [Option.isNone_iff_eq_none.mp hdst]
              cases src <;> simp [rinfoPtrs]
          have hcreate : ∀ _ : type = .copy ∨ type = .move ∨ type = .remove ∨ type = .noop,
              u.dry.afterCreation (u.dry.taskMgr.createLocalInitiatedTask type auth bs
                (rinfoPtrs src dst) size) = (u.afterCreation
                  (u.taskMgr.createLocalInitiatedTask type auth bs (rinfoPtrs src dst)
                    size)).map drySubmitted := by
            intro htype
            refine (congrArg u.dry.afterCreation (createLocal_dry hreal auth size htype hlen)).trans
              (afterCreation_dry fun _ _ _ h => createLocal_runnable h)
          cases type with
          | copy => exact hcreate (.inl rfl)
          | move => exact hcreate (.inr (.inl rfl))
          | remove => exact hcreate (.inr (.inr (.inl rfl)))
          | noop => exact hcreate (.inr (.inr (.inr rfl)))
          | _ => rfl

end creation

/-! ### Requests -/

/-- The answer of a handler as it would be in a dry run. -/
def dryAnswered (r : Daemon × Response) : Daemon × Response := (r.1.dry, r.2)

/-- The end of a session as it would be in a dry run. -/
def SessionResult.dry (r : SessionResult) : SessionResult := { r with daemon := r.daemon.dry }

section requests

variable {d : Daemon} {env : SessionEnv}

theorem Daemon.iotaskStatusHandler_dry (d : Daemon) (tid : IotaskId) :
    d.dry.iotaskStatusHandler tid = dryAnswered (d.iotaskStatusHandler tid) := by
  have hfind : d.dry.taskMgr.find tid = d.taskMgr.find tid := rfl
  have herase : (d.dry.taskMgr.erase tid).1 = (d.taskMgr.erase tid).1.dry := by
    by_cases hmem : tid ∈ d.taskMgr.taskInfo
    · have hmem' : tid ∈ d.dry.taskMgr.taskInfo := hmem
      simp only [TaskManager.erase, if_pos hmem, if_pos hmem']
      rfl
    · have hmem' : tid ∉ d.dry.taskMgr.taskInfo := hmem
      simp only [TaskManager.erase, if_neg hmem, if_neg hmem']
      rfl
  unfold Daemon.iotaskStatusHandler
  rw [hfind]
  cases d.taskMgr.find tid with
  | none => rfl
  | some ti =>
      dsimp only
      split_ifs
      · rw [herase]
        rfl
      · rfl

theorem Urd.commandHandler_dry (u : Urd) (isEmpty : Backend → Bool) (cmd : CommandType) :
    u.dry.commandHandler isEmpty cmd =
      ((u.commandHandler isEmpty cmd).1.dry, (u.commandHandler isEmpty cmd).2) := by
  cases cmd with
  | shutdown =>
      have hshutdown : ∀ v : Urd, v.commandHandler isEmpty .shutdown =
          if checkShutdown v.taskMgr v.namespaceMgr isEmpty ≠ .success then
            (v.pauseListening.resumeListening, checkShutdown v.taskMgr v.namespaceMgr isEmpty)
          else (v.pauseListening, checkShutdown v.taskMgr v.namespaceMgr isEmpty) := fun _ => rfl
      by_cases hrv : checkShutdown u.taskMgr u.namespaceMgr isEmpty ≠ .success
      · rw [hshutdown, hshutdown, if_pos hrv, if_pos (show checkShutdown u.dry.taskMgr
          u.dry.namespaceMgr isEmpty ≠ .success from hrv)]
        rfl
      · rw [hshutdown, hshutdown, if_neg hrv, if_neg (show ¬ checkShutdown u.dry.taskMgr
          u.dry.namespaceMgr isEmpty ≠ .success from hrv)]
        rfl
  | _ => rfl

theorem Daemon.call_dry (hreal : d.taskMgr.dryRun = false) {h : Handler} {req : Request}
    (hremove : ∀ src dst, req = .iotaskCreate .remove (some src) (some dst) →
      env.credentials = none) :
    d.dry.call env h req = (d.call env h req).map dryAnswered := by
  cases h with
  | iotaskCreateHandler =>
      cases req with
      | iotaskCreate type src dst =>
          have hsubmit : d.dry.toUrd.iotaskCreateHandler env.credentials type src dst env.size =
              (d.toUrd.iotaskCreateHandler env.credentials type src dst env.size).map
                drySubmitted := by
            refine Urd.iotaskCreateHandler_dry hreal env.credentials env.size
              fun htype hcreds => ?_
            cases src with
            | none => exact .inl rfl
            | some src =>
                cases dst with
                | none => exact .inr rfl
                | some dst =>
                    rw [hremove src dst (by rw [htype])] at hcreds
                    cases hcreds
          have hasks : d.dry.toUrd.asksFiles env.credentials type src dst =
              d.toUrd.asksFiles env.credentials type src dst := rfl
          simp only [Daemon.call, hsubmit, hasks]
          split_ifs
          · rfl
          · cases d.toUrd.iotaskCreateHandler env.credentials type src dst env.size <;> rfl
      | _ => rfl
  | iotaskStatusHandler =>
      cases req with
      | iotaskStatus tid => exact congrArg Except.ok (d.iotaskStatusHandler_dry tid)
      | _ => rfl
  | pingHandler => rfl
  | jobRegisterHandler =>
      cases req with
      | jobRegister jobid hosts =>
          by_cases hmem : jobid ∈ d.jobs
          · have hmem' : jobid ∈ d.dry.jobs := hmem
            simp only [Daemon.call, Daemon.jobRegisterHandler, if_pos hmem, if_pos hmem']
            rfl
          · have hmem' : jobid ∉ d.dry.jobs := hmem
            simp only [Daemon.call, Daemon.jobRegisterHandler, if_neg hmem, if_neg hmem']
            rfl
      | _ => rfl
  | jobUpdateHandler =>
      cases req with
      | jobUpdate jobid hosts =>
          have hjobs : d.dry.jobs = d.jobs := rfl
          simp only [Daemon.call, Daemon.jobUpdateHandler, hjobs]
          cases d.jobs.lookup jobid <;> rfl
      | _ => rfl
  | jobRemoveHandler =>
      cases req with
      | jobUnregister jobid =>
          by_cases hmem : jobid ∈ d.jobs
          · have hmem' : jobid ∈ d.dry.jobs := hmem
            simp only [Daemon.call, Daemon.jobRemoveHandler, if_pos hmem, if_pos hmem']
            rfl
          · have hmem' : jobid ∉ d.dry.jobs := hmem
            simp only [Daemon.call, Daemon.jobRemoveHandler, if_neg hmem, if_neg hmem']
            rfl
      | _ => rfl
  | processAddHandler =>
      cases req with
      | processRegister jobid uid gid pid =>
          have hjobs : d.dry.jobs = d.jobs := rfl
          simp only [Daemon.call, Daemon.processAddHandler, hjobs]
          cases d.jobs.lookup jobid <;> rfl
      | _ => rfl
  | processRemoveHandler =>
      cases req with
      | processUnregister jobid uid gid pid =>
          have hjobs : d.dry.jobs = d.jobs := rfl
          simp only [Daemon.call, Daemon.processRemoveHandler, hjobs]
          cases d.jobs.lookup jobid <;> rfl
      | _ => rfl
  | namespaceRegisterHandler =>
      cases req with
      | backendRegister nsid type track mount quota =>
          by_cases hmem : nsid ∈ d.namespaceMgr
          · have hmem' : nsid ∈ d.dry.namespaceMgr := hmem
            simp only [Daemon.call, Daemon.namespaceRegisterHandler, if_pos hmem, if_pos hmem']
            rfl
          · have hmem' : nsid ∉ d.dry.namespaceMgr := hmem
            simp only [Daemon.call, Daemon.namespaceRegisterHandler, if_neg hmem, if_neg hmem']
            cases env.createFrom type nsid track mount quota.toUInt32 <;> rfl
      | _ => rfl
  | namespaceRemoveHandler =>
      cases req with
      | backendUnregister nsid =>
          by_cases hmem : nsid ∈ d.namespaceMgr
          · have hmem' : nsid ∈ d.dry.namespaceMgr := hmem
            simp only [Daemon.call, Daemon.namespaceRemoveHandler, if_pos hmem, if_pos hmem']
            rfl
          · have hmem' : nsid ∉ d.dry.namespaceMgr := hmem
            simp only [Daemon.call, Daemon.namespaceRemoveHandler, if_neg hmem, if_neg hmem']
            rfl
      | _ => rfl
  | globalStatusHandler =>
      have hstats : d.dry.taskMgr.globalStats = d.taskMgr.globalStats := rfl
      simp only [Daemon.call, Daemon.globalStatusHandler, hstats]
      cases d.taskMgr.globalStats <;> rfl
  | commandHandler =>
      cases req with
      | command cmd =>
          have hthrows : d.dry.toUrd.shutdownThrows env.isEmptyThrows cmd =
              d.toUrd.shutdownThrows env.isEmptyThrows cmd := rfl
          have hcommand : d.dry.toUrd.commandHandler env.isEmpty cmd = _ :=
            d.toUrd.commandHandler_dry env.isEmpty cmd
          simp only [Daemon.call, hthrows, hcommand]
          split_ifs <;> rfl
      | _ => rfl
  | unknownRequestHandler => rfl

/-- The session reads and dispatches as always. -/
theorem session_dry (hreal : d.taskMgr.dryRun = false) {endpoint : Endpoint} {bytes : List UInt8}
    (hremove : ¬ (DaemonInput.session endpoint env bytes).TwoPlaceRemoval) :
    session env endpoint d.dry bytes = (session env endpoint d bytes).dry := by
  unfold session
  cases hread : doReadRequest env bytes with
  | error e => rfl
  | ok body =>
      dsimp only
      unfold handleBody
      cases hreq : createFromBuffer env.parse body with
      | error f => rfl
      | ok req =>
          dsimp only
          cases endpoint.dispatcher.lookup req.type with
          | none => rfl
          | some h =>
              dsimp only
              rw [Daemon.call_dry hreal]
              · cases d.call env h req <;> rfl
              · rintro src dst rfl
                by_contra hcreds
                exact hremove ⟨Option.isSome_iff_ne_none.mpr hcreds, body, src, dst, hread, hreq⟩

end requests

/-! ### Sequences -/

/-- What a request does to the manager of tasks. -/
def TaskManager.Requested (tm tm' : TaskManager) : Prop :=
  tm' = tm ∨ (∃ tid, tm' = (tm.erase tid).1) ∨
  ∃ type auth backendPtrs rinfoPtrs size e t,
    tm.createLocalInitiatedTask type auth backendPtrs rinfoPtrs size = .ok (tm', e, t)

/-- A request leaves the manager of tasks alone, or erases a record, or creates a task. -/
theorem Daemon.taskMgr_of_call {d d' : Daemon} {env : SessionEnv} {h : Handler} {req : Request}
    {resp : Response} (hcall : d.call env h req = .ok (d', resp)) :
    d.taskMgr.Requested d'.taskMgr := by
  cases h with
  | iotaskCreateHandler =>
      cases req with
      | iotaskCreate type src dst =>
          simp only [Daemon.call] at hcall
          split_ifs at hcall
          cases hcreate : d.toUrd.iotaskCreateHandler env.credentials type src dst env.size with
          | error f =>
              rw [hcreate] at hcall
              cases hcall
          | ok r =>
              obtain ⟨u, rv, tid⟩ := r
              rw [hcreate] at hcall
              cases hcall
              obtain ⟨-, -, hsame | ⟨auth, bs, t, hmade⟩⟩ | ⟨-, auth, bs, t, hmade, -⟩ :=
                iotaskCreateHandler_cases hcreate
              · exact .inl hsame
              · exact .inr (.inr ⟨_, _, _, _, _, _, _, hmade⟩)
              · exact .inr (.inr ⟨_, _, _, _, _, _, _, hmade⟩)
      | _ => cases hcall
  | iotaskStatusHandler =>
      cases req with
      | iotaskStatus tid =>
          have hstatus : d' = (d.iotaskStatusHandler tid).1 :=
            (congrArg Prod.fst (Except.ok.inj hcall)).symm
          rw [hstatus, Daemon.iotaskStatusHandler]
          cases d.taskMgr.find tid with
          | none => exact .inl rfl
          | some ti =>
              dsimp only
              split_ifs
              · exact .inr (.inl ⟨tid, rfl⟩)
              · exact .inl rfl
      | _ => cases hcall
  | globalStatusHandler =>
      simp only [Daemon.call, Daemon.globalStatusHandler] at hcall
      cases hstats : d.taskMgr.globalStats with
      | error f =>
          rw [hstats] at hcall
          cases hcall
      | ok stats =>
          rw [hstats] at hcall
          cases hcall
          exact .inl rfl
  | commandHandler =>
      cases req with
      | command cmd =>
          simp only [Daemon.call] at hcall
          split_ifs at hcall
          cases hcall
          cases cmd with
          | shutdown =>
              simp only [Urd.commandHandler]
              split_ifs <;> exact .inl rfl
          | _ => exact .inl rfl
      | _ => cases hcall
  | pingHandler =>
      cases hcall
      exact .inl rfl
  | unknownRequestHandler =>
      cases hcall
      exact .inl rfl
  | jobRegisterHandler =>
      cases req with
      | jobRegister jobid hosts =>
          simp only [Daemon.call, Daemon.jobRegisterHandler] at hcall
          split_ifs at hcall <;> cases hcall <;> exact .inl rfl
      | _ => cases hcall
  | jobUpdateHandler =>
      cases req with
      | jobUpdate jobid hosts =>
          simp only [Daemon.call, Daemon.jobUpdateHandler] at hcall
          cases hjob : d.jobs.lookup jobid <;> rw [hjob] at hcall <;> cases hcall <;> exact .inl rfl
      | _ => cases hcall
  | jobRemoveHandler =>
      cases req with
      | jobUnregister jobid =>
          simp only [Daemon.call, Daemon.jobRemoveHandler] at hcall
          split_ifs at hcall <;> cases hcall <;> exact .inl rfl
      | _ => cases hcall
  | processAddHandler =>
      cases req with
      | processRegister jobid uid gid pid =>
          simp only [Daemon.call, Daemon.processAddHandler] at hcall
          cases hjob : d.jobs.lookup jobid <;> rw [hjob] at hcall <;> cases hcall <;> exact .inl rfl
      | _ => cases hcall
  | processRemoveHandler =>
      cases req with
      | processUnregister jobid uid gid pid =>
          simp only [Daemon.call, Daemon.processRemoveHandler] at hcall
          cases hjob : d.jobs.lookup jobid <;> rw [hjob] at hcall <;> cases hcall <;> exact .inl rfl
      | _ => cases hcall
  | namespaceRegisterHandler =>
      cases req with
      | backendRegister nsid type track mount quota =>
          simp only [Daemon.call, Daemon.namespaceRegisterHandler] at hcall
          split_ifs at hcall
          · cases hcall
            exact .inl rfl
          · cases hmade : env.createFrom type nsid track mount quota.toUInt32 <;>
              rw [hmade] at hcall <;> cases hcall <;> exact .inl rfl
      | _ => cases hcall
  | namespaceRemoveHandler =>
      cases req with
      | backendUnregister nsid =>
          simp only [Daemon.call, Daemon.namespaceRemoveHandler] at hcall
          split_ifs at hcall <;> cases hcall <;> exact .inl rfl
      | _ => cases hcall

theorem taskMgr_of_session (env : SessionEnv) (endpoint : Endpoint) (d : Daemon)
    (bytes : List UInt8) :
    d.taskMgr.Requested (session env endpoint d bytes).daemon.taskMgr := by
  unfold session
  cases doReadRequest env bytes with
  | error e => exact .inl rfl
  | ok body =>
      dsimp only
      unfold handleBody
      cases createFromBuffer env.parse body with
      | error f => exact .inl rfl
      | ok req =>
          dsimp only
          cases endpoint.dispatcher.lookup req.type with
          | none => exact .inl rfl
          | some h =>
              dsimp only
              cases hcall : d.call env h req with
              | error f => exact .inl rfl
              | ok r => exact Daemon.taskMgr_of_call hcall

/-- The flag stays, and so does the absence of failures. -/
structure TaskManager.Clean (tm tm' : TaskManager) : Prop where
  dryRun : tm'.dryRun = tm.dryRun
  noFailures : tm.NoFailures → tm'.NoFailures

theorem TaskManager.Clean.refl (tm : TaskManager) : tm.Clean tm := ⟨rfl, id⟩

theorem TaskManager.clean_enter {tm : TaskManager} {info : TaskInfo}
    (hfree : tm.nextId ∉ tm.taskInfo) (hinfo : info.Fresh) : tm.Clean (tm.enter info) := by
  refine ⟨rfl, fun hclean tid ti hti hlocal => ?_⟩
  rw [TaskManager.enter, Table.lookup_emplace_of_notMem hfree] at hti
  split_ifs at hti with htid
  · cases hti
    exact ⟨hinfo.taskError, hinfo.sysError⟩
  · exact hclean tid ti hti hlocal

theorem TaskManager.clean_erase (tm : TaskManager) (tid : IotaskId) :
    tm.Clean (tm.erase tid).1 := by
  unfold TaskManager.erase
  split_ifs
  · refine ⟨rfl, fun hclean tid' ti hti hlocal => ?_⟩
    rw [Table.lookup_erase'] at hti
    split_ifs at hti
    exact hclean tid' ti hti hlocal
  · exact .refl tm

theorem TaskManager.clean_updateRecord (tm : TaskManager) (tid : IotaskId) (isRemote : Bool)
    {f : TaskInfo → TaskInfo} (hkind : ∀ ti, (f ti).isRemote = ti.isRemote)
    (herror : isRemote = false → ∀ ti, ti.taskError = .success ∧ ti.sysError = 0 →
      (f ti).taskError = .success ∧ (f ti).sysError = 0) :
    tm.Clean (tm.updateRecord tid isRemote f) := by
  unfold TaskManager.updateRecord
  cases hlookup : tm.taskInfo.lookup tid with
  | none => exact .refl tm
  | some ti =>
      dsimp only
      split_ifs with hsame
      swap
      · exact .refl tm
      refine ⟨rfl, fun hclean tid' ti' hti' hlocal => ?_⟩
      rw [Table.lookup_replace, hlookup] at hti'
      split_ifs at hti' with htid
      · cases hti'
        rw [hkind] at hlocal
        exact herror (hsame ▸ hlocal) ti (hclean tid ti hlookup hlocal)
      · exact hclean tid' ti' hti' hlocal

theorem TaskManager.clean_createLocal {tm tm' : TaskManager} {type : IotaskType}
    {auth : Credentials} {backendPtrs : List Backend} {rinfoPtrs : List ResourceInfo}
    {size : UInt64} {e : UrdError} {t : Option GenericTask}
    (h : tm.createLocalInitiatedTask type auth backendPtrs rinfoPtrs size = .ok (tm', e, t)) :
    tm.Clean tm' := by
  obtain ⟨-, rfl, -⟩ | ⟨hfree, -⟩ := createLocal_cases h
  · exact .refl tm'
  · obtain ⟨src, dst, rfl, -⟩ := createLocal_record hfree h
    exact TaskManager.clean_enter hfree (TaskInfo.fresh_new ..)

theorem TaskManager.clean_createRemote {tm tm' : TaskManager} {type : IotaskType}
    {auth : Credentials} {srcBackend dstBackend : Backend} {src dst : Option ResourceInfo}
    {size : UInt64} {e : UrdError} {t : Option GenericTask}
    (h : tm.createRemoteInitiatedTask type auth srcBackend src dstBackend dst size =
      .ok (tm', e, t)) : tm.Clean tm' := by
  obtain ⟨-, rfl, -⟩ | ⟨hfree, -⟩ := createRemote_cases h
  · exact .refl tm'
  · obtain ⟨rfl, -⟩ := createRemote_record hfree h
    exact TaskManager.clean_enter hfree (TaskInfo.fresh_new ..)

theorem TaskManager.Requested.clean {tm tm' : TaskManager} (h : tm.Requested tm') :
    tm.Clean tm' := by
  obtain rfl | ⟨tid, rfl⟩ | ⟨_, _, _, _, _, _, _, hmade⟩ := h
  · exact .refl tm'
  · exact tm.clean_erase tid
  · exact TaskManager.clean_createLocal hmade

theorem TaskPoint.op_ending_zero (dryRun : Bool) (ti : TaskInfo) :
    (TaskPoint.ending 0).op dryRun ti =
      if dryRun = true ∨ ti.type = .noop then .updateStatus .finished
      else .updateStatusError .finished .success 0 := rfl

/-- What a worker writes is no error, unless a task fails. -/
theorem TaskPoint.clean_op {point : TaskPoint} {tid : IotaskId}
    (hok : ¬ (DaemonInput.localTask tid point).TaskFailure) (dryRun : Bool) (ti : TaskInfo)
    (hti : ti.taskError = .success ∧ ti.sysError = 0) :
    ((point.op dryRun ti).update ti).taskError = .success ∧
      ((point.op dryRun ti).update ti).sysError = 0 := by
  cases point with
  | start => exact hti
  | ending ec =>
      obtain rfl : ec = 0 := not_not.mp hok
      rw [TaskPoint.op_ending_zero]
      split_ifs
      · exact hti
      · exact ⟨rfl, rfl⟩

/-- A write keeps the kind of a record. -/
theorem TaskOp.isRemote_update (op : TaskOp) (ti : TaskInfo) :
    (op.update ti).isRemote = ti.isRemote := by
  cases op <;> rfl

theorem Daemon.clean_input {i : DaemonInput} (hok : ¬ i.TaskFailure) (d : Daemon) :
    d.taskMgr.Clean (d.input i).1.taskMgr := by
  cases i with
  | session endpoint env bytes => exact (taskMgr_of_session env endpoint d bytes).clean
  | localTask tid point =>
      exact TaskManager.clean_updateRecord _ tid false (fun ti => TaskOp.isRemote_update _ ti)
        fun _ ti => TaskPoint.clean_op hok d.taskMgr.dryRun ti
  | remoteTask tid op =>
      exact TaskManager.clean_updateRecord _ tid true op.isRemote_update
        fun hlocal => by cases hlocal
  | peer type auth srcBackend src dstBackend dst size =>
      simp only [Daemon.input]
      cases hcreate : d.taskMgr.createRemoteInitiatedTask type auth srcBackend src dstBackend dst
          size with
      | error f => exact .refl _
      | ok r => exact TaskManager.clean_createRemote hcreate

/-- For a peer the flag is not looked at. -/
theorem createRemote_dry (tm : TaskManager) (type : IotaskType) (auth : Credentials)
    (srcBackend : Backend) (src : Option ResourceInfo) (dstBackend : Backend)
    (dst : Option ResourceInfo) (size : UInt64) :
    tm.dry.createRemoteInitiatedTask type auth srcBackend src dstBackend dst size =
      (tm.createRemoteInitiatedTask type auth srcBackend src dstBackend dst size).map
        (Prod.map TaskManager.dry id) := by
  unfold TaskManager.createRemoteInitiatedTask
  by_cases htaken : tm.nextId ∈ tm.taskInfo
  · rw [if_pos htaken, if_pos (show tm.dry.nextId ∈ tm.dry.taskInfo from htaken)]
    rfl
  · rw [if_neg htaken, if_neg (show tm.dry.nextId ∉ tm.dry.taskInfo from htaken)]
    cases dst with
    | none => cases src <;> rfl
    | some dst =>
        cases src with
        | none => rfl
        | some src =>
            have hregistry : tm.dry.transferorRegistry = tm.transferorRegistry := rfl
            dsimp only
            rw [hregistry]
            cases tm.transferorRegistry.get dst.type src.type with
            | none => rfl
            | some tx =>
                dsimp only
                cases tx.validate src dst <;> rfl

/-- A task that sleeps writes to a record without an error what another one writes that does not
fail. -/
theorem TaskPoint.update_dry {point : TaskPoint} {tid : IotaskId}
    (hok : ¬ (DaemonInput.localTask tid point).TaskFailure) {ti : TaskInfo}
    (hti : ti.taskError = .success ∧ ti.sysError = 0) :
    (point.op true ti).update ti = (point.op false ti).update ti := by
  cases point with
  | start => rfl
  | ending ec =>
      obtain rfl : ec = 0 := not_not.mp hok
      have herror : ti.updateStatus .finished = ti.updateStatusError .finished .success 0 := by
        rw [TaskInfo.updateStatus, TaskInfo.updateStatusError, ← hti.1, ← hti.2]
      rw [TaskPoint.op_ending_zero, TaskPoint.op_ending_zero, if_pos (.inl rfl)]
      by_cases hnoop : ti.type = .noop
      · rw [if_pos (.inr hnoop)]
      · rw [if_neg (by simp [hnoop])]
        exact herror

theorem TaskManager.updateRecord_dry (tm : TaskManager) (tid : IotaskId) (isRemote : Bool)
    {f g : TaskInfo → TaskInfo}
    (hfg : ∀ ti, tm.taskInfo.lookup tid = some ti → ti.isRemote = isRemote → f ti = g ti) :
    tm.dry.updateRecord tid isRemote f = (tm.updateRecord tid isRemote g).dry := by
  have htable : tm.dry.taskInfo = tm.taskInfo := rfl
  simp only [TaskManager.updateRecord, htable]
  cases hlookup : tm.taskInfo.lookup tid with
  | none => rfl
  | some ti =>
      dsimp only
      split_ifs with hkind
      · rw [hfg ti hlookup hkind]
        rfl
      · rfl

/-- One input. -/
theorem Daemon.input_dry {d : Daemon} (hreal : d.taskMgr.dryRun = false)
    (hclean : d.taskMgr.NoFailures) {i : DaemonInput} (hremove : ¬ i.TwoPlaceRemoval)
    (hfailure : ¬ i.TaskFailure) :
    (d.dry.input i).2 = (d.input i).2 ∧ (d.dry.input i).1 = (d.input i).1.dry := by
  cases i with
  | session endpoint env bytes =>
      simp only [Daemon.input, session_dry hreal hremove]
      exact ⟨rfl, rfl⟩
  | localTask tid point =>
      refine ⟨rfl, ?_⟩
      have hwrite : d.taskMgr.dry.updateRecord tid false
          (fun ti => (point.op true ti).update ti) =
            (d.taskMgr.updateRecord tid false fun ti => (point.op false ti).update ti).dry :=
        d.taskMgr.updateRecord_dry tid false fun ti hti hlocal =>
          TaskPoint.update_dry hfailure (hclean tid ti hti hlocal)
      simp only [Daemon.input, hreal]
      exact congrArg (fun tm => { d.dry with taskMgr := tm }) hwrite
  | remoteTask tid op =>
      refine ⟨rfl, ?_⟩
      exact congrArg (fun tm => { d.dry with taskMgr := tm })
        (d.taskMgr.updateRecord_dry tid true fun _ _ _ => rfl)
  | peer type auth srcBackend src dstBackend dst size =>
      have hcreate := createRemote_dry d.taskMgr type auth srcBackend src dstBackend dst size
      simp only [Daemon.input]
      rw [show d.dry.taskMgr = d.taskMgr.dry from rfl, hcreate]
      cases d.taskMgr.createRemoteInitiatedTask type auth srcBackend src dstBackend dst size <;>
        exact ⟨rfl, rfl⟩

theorem TaskManager.noFailures_of_empty {tm : TaskManager} (h : tm.taskInfo = ∅) :
    tm.NoFailures := by
  intro tid ti hti
  rw [h, AList.lookup_empty] at hti
  cases hti

/-- A daemon in which a removal with two resources is not refused. -/
def Daemon.knowing (src dst : String) : Daemon :=
  ⟨⟨false, Table.emplace dst .processMemory (Table.emplace src .processMemory ∅), .init, []⟩, ∅⟩

theorem findAll_knowing (src dst : ResourceInfo) : ∃ b b', NamespaceManager.findAll
    (Daemon.knowing src.nsid dst.nsid).namespaceMgr
      (namespaceIds (rinfoPtrs (some src) (some dst))) = some [b, b'] ∧
    b.kind ≠ .posixFilesystem := by
  have hfind : ∀ r : ResourceInfo, r.nsid = src.nsid ∨ r.nsid = dst.nsid → ∃ b,
      NamespaceManager.find (Daemon.knowing src.nsid dst.nsid).namespaceMgr r.nsid r.isRemote =
        some b ∧ b.kind ≠ .posixFilesystem := by
    intro r hr
    unfold NamespaceManager.find
    split_ifs
    · exact ⟨_, rfl, nofun⟩
    · refine ⟨.processMemory, ?_, nofun⟩
      simp only [Daemon.knowing, Table.lookup_emplace]
      obtain hr | hr := hr
      · rw [hr, if_pos rfl]
        rfl
      · rw [hr, if_pos rfl]
        split_ifs <;> rfl
  obtain ⟨b, hb, hkind⟩ := hfind src (.inl rfl)
  obtain ⟨b', hb', -⟩ := hfind dst (.inr rfl)
  refine ⟨b, b', ?_, hkind⟩
  show NamespaceManager.findAll _ [(src.nsid, src.isRemote), (dst.nsid, dst.isRemote)] = _
  simp only [NamespaceManager.findAll, hb, hb']

/-- Such a removal stops the daemon, and is accepted in a dry run. -/
theorem knowing_twoPlaceRemoval {i : DaemonInput} (h : i.TwoPlaceRemoval) :
    ∃ d : Daemon, d.taskMgr.dryRun = false ∧ d.taskMgr.NoFailures ∧
      (d.dry.input i).2 ≠ (d.input i).2 := by
  cases i with
  | localTask tid point => exact absurd h id
  | remoteTask tid op => exact absurd h id
  | peer type auth srcBackend src dstBackend dst size => exact absurd h id
  | session endpoint env bytes =>
      obtain ⟨hcreds, body, src, dst, hread, hreq⟩ := h
      obtain ⟨auth, hauth⟩ := Option.isSome_iff_exists.mp hcreds
      refine ⟨.knowing src.nsid dst.nsid, rfl, TaskManager.noFailures_of_empty rfl, ?_⟩
      obtain ⟨b, b', hfind, hkind⟩ := findAll_knowing src dst
      have hasks : (Daemon.knowing src.nsid dst.nsid).toUrd.asksFiles (some auth) .remove
          (some src) (some dst) = false := by
        simp only [Urd.asksFiles, hfind]
        cases src <;> simp [rinfoPtrs, hkind]
      have hfault : (Daemon.knowing src.nsid dst.nsid).call env .iotaskCreateHandler
          (.iotaskCreate .remove (some src) (some dst)) = .error .assertion := by
        simp only [Daemon.call, Urd.iotaskCreateHandler, hauth, hasks, hfind, Bool.and_false]
        rfl
      have hok : ∃ r, (Daemon.knowing src.nsid dst.nsid).dry.call env .iotaskCreateHandler
          (.iotaskCreate .remove (some src) (some dst)) = .ok r := by
        have hfind' : NamespaceManager.findAll (Daemon.knowing src.nsid dst.nsid).dry.namespaceMgr
            (namespaceIds (rinfoPtrs (some src) (some dst))) = some [b, b'] := hfind
        have hasks' : (Daemon.knowing src.nsid dst.nsid).dry.toUrd.asksFiles (some auth) .remove
            (some src) (some dst) = false := hasks
        simp only [Daemon.call, Urd.iotaskCreateHandler, hauth, hasks', hfind', Bool.and_false]
        exact ⟨_, rfl⟩
      obtain ⟨r, hok⟩ := hok
      have hlookup : endpoint.dispatcher.lookup
          (Request.iotaskCreate .remove (some src) (some dst)).type =
            some .iotaskCreateHandler := rfl
      simp only [Daemon.input, session, handleBody, hread, hreq, hlookup, hfault, hok]
      rintro ⟨⟩

/-- A daemon with the record of one task, a copy. -/
def Daemon.copying (tid : IotaskId) : Daemon :=
  let info := TaskInfo.new tid .copy false ⟨1, 1000, 1000⟩ none none none none 0
  ⟨⟨false, ∅, { TaskManager.init with taskInfo := Table.emplace tid info ∅ }, []⟩, ∅⟩

theorem lookup_copying (tid tid' : IotaskId) : (Daemon.copying tid).taskMgr.taskInfo.lookup tid' =
    if tid' = tid then some (.new tid .copy false ⟨1, 1000, 1000⟩ none none none none 0)
    else none := by
  show (Table.emplace tid _ ∅).lookup tid' = _
  rw [Table.lookup_emplace_of_notMem (AList.notMem_empty tid), AList.lookup_empty]

theorem noFailures_copying (tid : IotaskId) : (Daemon.copying tid).taskMgr.NoFailures := by
  intro tid' ti hti hlocal
  rw [lookup_copying] at hti
  split_ifs at hti
  cases hti
  exact ⟨rfl, rfl⟩

/-- The failure of the task is seen in its record, but not in that of the dry run. -/
theorem copying_taskFailure {i : DaemonInput} (h : i.TaskFailure) :
    ∃ d : Daemon, d.taskMgr.dryRun = false ∧ d.taskMgr.NoFailures ∧
      (d.dry.input i).1 ≠ (d.input i).1.dry := by
  cases i with
  | session endpoint env bytes => exact absurd h id
  | remoteTask tid op => exact absurd h id
  | peer type auth srcBackend src dstBackend dst size => exact absurd h id
  | localTask tid point =>
      cases point with
      | start => exact absurd h id
      | ending ec =>
          refine ⟨.copying tid, rfl, noFailures_copying tid, fun hsame => ?_⟩
          have hec : ec ≠ 0 := h
          have htable : (Daemon.copying tid).dry.taskMgr.taskInfo =
              (Daemon.copying tid).taskMgr.taskInfo := rfl
          have hstatus := congrArg (fun d => (d.taskMgr.taskInfo.lookup tid).map (·.status)) hsame
          change ((TaskManager.updateRecord _ tid false _).taskInfo.lookup tid).map _ =
            ((TaskManager.updateRecord _ tid false _).taskInfo.lookup tid).map _ at hstatus
          rw [TaskManager.lookup_updateRecord, TaskManager.lookup_updateRecord, htable,
            lookup_copying, if_pos rfl] at hstatus
          -- the dry run says that the task has finished
          have hop : (TaskPoint.ending ec).op false
              (.new tid .copy false ⟨1, 1000, 1000⟩ none none none none 0) =
                .updateStatusError .finishedWithError .systemError ec := by
            rw [TaskPoint.op, if_neg (by simp [TaskInfo.new]), if_pos hec]
          have hstatus' : TaskStatus.finished =
              (TaskOp.update ((TaskPoint.ending ec).op false _) _).status :=
            Option.some.inj hstatus
          rw [hop] at hstatus'
          cases hstatus'

end Norns
