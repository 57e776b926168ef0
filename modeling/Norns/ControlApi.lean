import Norns.Jobs
import Norns.Listener
import Norns.Submission

/-! # Calls of the control API

The functions of `libnornsctl.c` check their arguments, build a protobuf message from them
(`requests.c`), exchange it for a response with the daemon (`communication.c`) and return the error
code of the response.

* `ControlCall.perform` says what a call is for: to run the handler of the daemon on the arguments.
* `control_calls_linearizable`: through packing, the framing of both directions, the event loop with
  all its other clients, the decoder, the dispatcher and the encoder, a call comes to the same, at
  its place in the order in which the loop has served the requests.  It leaves `nornsctl_status`
  out: `global_stats` looks at one record after the other, and workers write to them meanwhile, so
  what it has counted need not be true at any one time.

As in `Submission`, a pointer that may be null is an `Option`, and whether an allocation succeeds
is asked of a parameter. -/

namespace Norns

open Lib

/-! ### Descriptors -/

/-- `nornsctl_backend_t`. -/
structure NornsctlBackend where
  bType : Int32
  bTrack : Bool
  bMount : Option String
  bCapacity : UInt32
deriving DecidableEq, Repr

/-- `nornsctl_job_limit_t`. -/
structure NornsctlJobLimit where
  lNsid : Option String
  lQuota : UInt32
deriving DecidableEq, Repr

/-- `nornsctl_job_t`; the numbers of entries are the lengths of the lists. -/
structure NornsctlJob where
  jHosts : Option (List (Option String))
  jLimits : Option (List (Option NornsctlJobLimit))
deriving DecidableEq, Repr

/-- `validate_job`. -/
def validateJob : Option NornsctlJob → Bool
  | some ⟨some hosts, some limits⟩ => hosts.length ≠ 0 && limits.length ≠ 0
  | _ => false

/-- `validate_namespace`. -/
def validateNamespace : Option NornsctlBackend → Bool
  | some b => b.bMount.any (· ≠ "") && b.bCapacity > 0
  | none => false

/-! ### Messages -/

/-- The allocations made while a control request is packed. -/
inductive ControlAlloc where
  | request
  | command
  | job
  | hosts
  | host (i : ℕ)
  | limits
  | limit (i : ℕ)
  | limitNsid (i : ℕ)
  | process
  | nspace
  | nsid
  | backend
  | mount
  | packed
deriving DecidableEq, Repr

/-- `xstrdup`, with the result of its allocation. -/
def xstrdupAs (allocated : Bool) (str : Option String) : Except PackError (Option String) :=
  xstrdup (fun _ => allocated) .packed str

section building

variable (mem : ControlAlloc → Bool)

/-- The loop over the hosts in `build_job_msg`, from the `i`-th on.  A null pointer is skipped and
stays one in the message. -/
def buildHosts : ℕ → List (Option String) → Except PackError (List (Option String))
  | _, [] => .ok []
  | i, host :: hosts => do
      let host ← xstrdupAs (mem (.host i)) host
      let hosts ← buildHosts (i + 1) hosts
      return host :: hosts

/-- `build_job_limits_msg`.  The daemon does not read the limits: nothing of them is kept. -/
def buildJobLimitsMsg (i : ℕ) (lim : Option NornsctlJobLimit) : Except PackError Unit :=
  match lim with
  | none => .error (.fault .assertion)
  | some lim =>
      if mem (.limit i) then do
        match ← xstrdupAs (mem (.limitNsid i)) lim.lNsid with
        | none => .error .enomem
        | some _ => return ()
      else .error .enomem

/-- The loop over the limits in `build_job_msg`. -/
def buildLimits : ℕ → List (Option NornsctlJobLimit) → Except PackError Unit
  | _, [] => .ok ()
  | i, lim :: limits => do
      buildJobLimitsMsg mem i lim
      buildLimits (i + 1) limits

/-- `build_job_msg`.  An allocation of no bytes gives a null pointer.  The packer takes the length
of every host. -/
def buildJobMsg (job : NornsctlJob) : Except PackError (List String) :=
  let hosts := job.jHosts.getD []
  let limits := job.jLimits.getD []
  if !mem .job then .error .enomem
  else if hosts.length = 0 ∨ !mem .hosts then .error .enomem
  else do
    let hosts ← buildHosts mem 0 hosts
    if limits.length = 0 ∨ !mem .limits then .error .enomem
    else do
      buildLimits mem 0 limits
      if none ∈ hosts then .error (.fault .nullDeref) else return hosts.filterMap id

/-- `build_backend_message`.  A mount point that is not given is packed as the empty string. -/
def buildBackendMessage (backend : NornsctlBackend) : Except PackError BackendMsg :=
  if mem .backend then do
    let mount ← xstrdupAs (mem .mount) backend.bMount
    return ⟨backend.bType, backend.bTrack, mount.getD "", backend.bCapacity.toInt32⟩
  else .error .enomem

/-- `build_namespace_message`. -/
def buildNamespaceMessage (nsid : Option String) (backend : Option NornsctlBackend) :
    Except PackError NamespaceMsg :=
  if nsid.isNone then .error (.fault .assertion)
  else if mem .nspace then do
    match ← xstrdupAs (mem .nsid) nsid with
    | none => .error .enomem
    | some nsid =>
        match backend with
        | none => return ⟨nsid, none⟩
        | some backend => do
            let backend ← buildBackendMessage mem backend
            return ⟨nsid, some backend⟩
  else .error .enomem

/-- The arguments of `send_request` for the control API. -/
inductive ControlArgs where
  | command (cmd : UInt32)
  | globalStatus
  | job (type : MsgType) (jobid : UInt32) (job : Option NornsctlJob)
  | process (type : MsgType) (jobid uid gid : UInt32) (pid : Int32)
  | nspace (type : MsgType) (nsid : Option String) (backend : Option NornsctlBackend)
deriving DecidableEq, Repr

/-- The arms of `build_request_msg` for the control API. -/
def buildControlMsg (args : ControlArgs) : Except PackError RequestMsg :=
  if !mem .request then .error .enomem
  else
    match args with
    | .command cmd =>
        if mem .command then .ok ⟨.ctlCommand, none, none, none, none, none, some cmd⟩
        else .error .enomem
    | .globalStatus => .ok ⟨.globalStatus, none, none, none, none, none, none⟩
    | .job type jobid job =>
        if type = .jobUnregister then .ok ⟨type, none, some jobid, none, none, none, none⟩
        else
          match job with
          | none => .error (.fault .assertion)
          | some job => do
              let hosts ← buildJobMsg mem job
              return ⟨type, none, some jobid, some hosts, none, none, none⟩
    | .process type jobid uid gid pid =>
        if mem .process then
          .ok ⟨type, none, some jobid, none, some (.ofIds uid gid pid), none, none⟩
        else .error .enomem
    | .nspace type nsid backend => do
        let nspace ← buildNamespaceMessage mem nsid backend
        return ⟨type, none, none, none, none, some nspace, none⟩

/-- `pack_to_buffer`. -/
def packControl (pack : RequestMsg → List UInt8) (args : ControlArgs) :
    Except PackError (List UInt8) := do
  let req ← buildControlMsg mem args
  if pack req ≠ [] ∧ mem .packed then return pack req else .error .enomem

end building

/-! ### The exchange -/

def NORNS_ENOMEM : Int32 := -4
def NORNS_ECONNFAILED : Int32 := -6
def NORNS_ERPCSENDFAILED : Int32 := -7
def NORNS_ENOTSUPPORTED : Int32 := -200

/-- What a call finds outside the library.  `hasContext`: the calling thread has the context, which
belongs to the thread that has loaded the library; `writes` are the results of `write` on the
connection. -/
structure ClientEnv where
  hasContext : Bool
  mem : ControlAlloc → Bool
  pack : RequestMsg → List UInt8
  unpack : List UInt8 → Option ResponseMsg
  endian : Endian
  connects : Bool
  writes : List WriteEvent
  alloc : ℕ → Bool
  junk : ℕ → UInt8

/-- How a call ends: it returns, with the members of `nornsctl_stat_t` if it has filled them in, or
it takes the process with it. -/
inductive CallEnd where
  | returned (rv : Int32) (stats : Option (UInt32 × UInt32 × UInt64))
  | exited
  | fault (f : Fault)
deriving DecidableEq, Repr

section calls

variable (cl : ClientEnv) (fuel : ℕ) (reply : List UInt8 → Conn)

/-- `send_request` with what `pack_to_buffer` gives it: the bytes that have been written, and the
response or the end of the call.  `reply` is the connection after the bytes have been written to it;
`none` if a call of `write` or `read` does not return. -/
def sendPacked (packed : Except PackError (List UInt8)) :
    Option (List UInt8 × Except CallEnd NornsResponse) :=
  if !cl.hasContext then some ([], .error .exited)
  else
    match packed with
    | .error .enomem => some ([], .error (.returned NORNS_ENOMEM none))
    | .error (.fault f) => some ([], .error (.fault f))
    | .ok buf =>
        if !cl.connects then some ([], .error (.returned NORNS_ECONNFAILED none))
        else do
          let r ← sendMessage cl.endian cl.writes buf
          if r.ret < 0 then some (r.sent, .error (.returned NORNS_ERPCSENDFAILED none))
          else
            let (rv, data, _) ← recvMessage cl.endian cl.alloc cl.junk fuel (reply r.sent)
            if rv < 0 then some (r.sent, .error (.returned NORNS_ERPCRECVFAILED none))
            else
              match unpackFromBuffer cl.unpack data with
              | (code, none) => some (r.sent, .error (.returned code none))
              | (_, some resp) => some (r.sent, .ok resp)

/-- `send_request` for the control API. -/
def sendRequest (args : ControlArgs) : Option (List UInt8 × Except CallEnd NornsResponse) :=
  sendPacked cl fuel reply (packControl cl.mem cl.pack args)

/-- What `send_job_request` and its siblings make of the response: its type must be the one of the
request. -/
def returnCode (type : NornsMsgType) (stats : ResponsePayload → Option (UInt32 × UInt32 × UInt64)) :
    Except CallEnd NornsResponse → CallEnd
  | .error e => e
  | .ok resp =>
      if resp.rType ≠ type then .returned NORNS_ESNAFU none
      else .returned resp.rErrorCode (stats resp.payload)

/-- `send_job_request`, `send_process_request`, `send_namespace_request` and
`send_control_command_request`. -/
def sendTyped (type : NornsMsgType) (args : ControlArgs) : Option (List UInt8 × CallEnd) :=
  (sendRequest cl fuel reply args).map fun (sent, r) => (sent, returnCode type (fun _ => none) r)

/-- The members that `send_control_status_request` copies. -/
def statsOfPayload : ResponsePayload → Option (UInt32 × UInt32 × UInt64)
  | .globalStatus running pending eta => some (running, pending, eta)
  | _ => none

/-- `send_control_status_request`. -/
def sendControlStatusRequest : Option (List UInt8 × CallEnd) :=
  (sendRequest cl fuel reply .globalStatus).map fun (sent, r) =>
    (sent, returnCode .globalStatus statsOfPayload r)

/-- A call that is refused before anything is sent. -/
def badArgs : Option (List UInt8 × CallEnd) := some ([], .returned NORNS_EBADARGS none)

/-- `nornsctl_send_command`; no command takes arguments. -/
def nornsctlSendCommand (cmd : UInt32) (hasArgs : Bool) : Option (List UInt8 × CallEnd) :=
  if hasArgs then badArgs else sendTyped cl fuel reply .command (.command cmd)

/-- `nornsctl_status`. -/
def nornsctlStatus (hasStats : Bool) : Option (List UInt8 × CallEnd) :=
  if !hasStats then badArgs else sendControlStatusRequest cl fuel reply

/-- `nornsctl_register_job`. -/
def nornsctlRegisterJob (jobid : UInt32) (job : Option NornsctlJob) :
    Option (List UInt8 × CallEnd) :=
  if !validateJob job then badArgs
  else sendTyped cl fuel reply .jobRegister (.job .jobRegister jobid job)

/-- `nornsctl_update_job`. -/
def nornsctlUpdateJob (jobid : UInt32) (job : Option NornsctlJob) :
    Option (List UInt8 × CallEnd) :=
  if !validateJob job then badArgs
  else sendTyped cl fuel reply .jobUpdate (.job .jobUpdate jobid job)

/-- `nornsctl_unregister_job`. -/
def nornsctlUnregisterJob (jobid : UInt32) : Option (List UInt8 × CallEnd) :=
  sendTyped cl fuel reply .jobUnregister (.job .jobUnregister jobid none)

/-- `nornsctl_add_process`. -/
def nornsctlAddProcess (jobid uid gid : UInt32) (pid : Int32) : Option (List UInt8 × CallEnd) :=
  sendTyped cl fuel reply .processAdd (.process .processAdd jobid uid gid pid)

/-- `nornsctl_remove_process`. -/
def nornsctlRemoveProcess (jobid uid gid : UInt32) (pid : Int32) : Option (List UInt8 × CallEnd) :=
  sendTyped cl fuel reply .processRemove (.process .processRemove jobid uid gid pid)

/-- `nornsctl_register_namespace`. -/
def nornsctlRegisterNamespace (nsid : Option String) (backend : Option NornsctlBackend) :
    Option (List UInt8 × CallEnd) :=
  if nsid.isNone || nsid = some "" || !validateNamespace backend then badArgs
  else sendTyped cl fuel reply .namespaceRegister (.nspace .namespaceRegister nsid backend)

/-- `nornsctl_update_namespace`; what follows the first `return` is never reached. -/
def nornsctlUpdateNamespace (_nsid : Option String) (_backend : Option NornsctlBackend) :
    Option (List UInt8 × CallEnd) :=
  some ([], .returned NORNS_ENOTSUPPORTED none)

/-- `nornsctl_unregister_namespace`. -/
def nornsctlUnregisterNamespace (nsid : Option String) : Option (List UInt8 × CallEnd) :=
  if nsid.isNone then badArgs
  else sendTyped cl fuel reply .namespaceUnregister (.nspace .namespaceUnregister nsid none)

end calls

/-- The calls of the control API with their arguments. -/
inductive ControlCall where
  | sendCommand (cmd : UInt32) (hasArgs : Bool)
  | status (hasStats : Bool)
  | registerJob (jobid : UInt32) (job : Option NornsctlJob)
  | updateJob (jobid : UInt32) (job : Option NornsctlJob)
  | unregisterJob (jobid : UInt32)
  | addProcess (jobid uid gid : UInt32) (pid : Int32)
  | removeProcess (jobid uid gid : UInt32) (pid : Int32)
  | registerNamespace (nsid : Option String) (backend : Option NornsctlBackend)
  | updateNamespace (nsid : Option String) (backend : Option NornsctlBackend)
  | unregisterNamespace (nsid : Option String)
deriving DecidableEq, Repr

/-- The call: the bytes that it writes, and its end. -/
def ControlCall.call (cl : ClientEnv) (fuel : ℕ) (reply : List UInt8 → Conn) :
    ControlCall → Option (List UInt8 × CallEnd)
  | sendCommand cmd hasArgs => nornsctlSendCommand cl fuel reply cmd hasArgs
  | status hasStats => nornsctlStatus cl fuel reply hasStats
  | registerJob jobid job => nornsctlRegisterJob cl fuel reply jobid job
  | updateJob jobid job => nornsctlUpdateJob cl fuel reply jobid job
  | unregisterJob jobid => nornsctlUnregisterJob cl fuel reply jobid
  | addProcess jobid uid gid pid => nornsctlAddProcess cl fuel reply jobid uid gid pid
  | removeProcess jobid uid gid pid => nornsctlRemoveProcess cl fuel reply jobid uid gid pid
  | registerNamespace nsid backend => nornsctlRegisterNamespace cl fuel reply nsid backend
  | updateNamespace nsid backend => nornsctlUpdateNamespace nsid backend
  | unregisterNamespace nsid => nornsctlUnregisterNamespace cl fuel reply nsid

/-! ### What a call is for -/

/-- Why a limit of a job is not packed: it is null, or its namespace is. -/
def NornsctlJobLimit.obstacle : Option NornsctlJobLimit → Option PackError
  | none => some (.fault .assertion)
  | some ⟨none, _⟩ => some .enomem
  | some ⟨some _, _⟩ => none

/-- The hosts of a job as the daemon gets them.  The limits are packed first, in their order. -/
def NornsctlJob.hosts (job : NornsctlJob) : Except PackError (List String) :=
  match (job.jLimits.getD []).findSome? NornsctlJobLimit.obstacle with
  | some e => .error e
  | none =>
      if none ∈ job.jHosts.getD [] then .error (.fault .nullDeref)
      else .ok (((job.jHosts.getD []).filterMap id).map ClientResource.clip)

/-- What a call that cannot be packed comes to. -/
def CallEnd.ofPack : PackError → CallEnd
  | .enomem => .returned NORNS_ENOMEM none
  | .fault f => .fault f

/-- The call is refused. -/
def CallEnd.badArgs : CallEnd := .returned NORNS_EBADARGS none

/-- A call with a descriptor of a job. -/
def ControlCall.jobRequest (request : List String → Request) (job : Option NornsctlJob) :
    Except CallEnd Request :=
  match job with
  | some job =>
      if validateJob (some job) then (job.hosts.mapError .ofPack).map request else .error .badArgs
  | none => .error .badArgs

/-- What the daemon is asked for by a call, or how the call ends without asking. -/
def ControlCall.request : ControlCall → Except CallEnd Request
  | sendCommand cmd hasArgs =>
      if hasArgs then .error .badArgs else .ok (.command (decodeCommand cmd))
  | status hasStats => if hasStats then .ok .globalStatus else .error .badArgs
  | registerJob jobid job => jobRequest (.jobRegister jobid) job
  | updateJob jobid job => jobRequest (.jobUpdate jobid) job
  | unregisterJob jobid => .ok (.jobUnregister jobid)
  | addProcess jobid uid gid pid => .ok (.processRegister jobid uid gid pid.toUInt32)
  | removeProcess jobid uid gid pid => .ok (.processUnregister jobid uid gid pid.toUInt32)
  | registerNamespace (some nsid) (some ⟨type, track, some mount, capacity⟩) =>
      if nsid = "" ∨ mount = "" ∨ capacity = 0 then .error .badArgs
      else if decodeBackendType type.toUInt32 = .unknown then .ok .badRequest
      else .ok (.backendRegister (ClientResource.clip nsid) (decodeBackendType type.toUInt32) track
        (ClientResource.clip mount) capacity.toInt32)
  | registerNamespace _ _ => .error .badArgs
  | updateNamespace _ _ => .error (.returned NORNS_ENOTSUPPORTED none)
  | unregisterNamespace (some nsid) => .ok (.backendUnregister (ClientResource.clip nsid))
  | unregisterNamespace none => .error .badArgs

/-- The answer of the daemon to a request of the control API; the others have no part in it. -/
def Daemon.answer (env : SessionEnv) (d : Daemon) : Request → Except Fault (Daemon × Response)
  | .globalStatus => d.globalStatusHandler env
  | .command cmd =>
      if d.toUrd.shutdownThrows env.isEmptyThrows cmd then .error .exception
      else .ok ({ d with toUrd := (d.toUrd.commandHandler env.isEmpty cmd).1 },
        ⟨.command, (d.toUrd.commandHandler env.isEmpty cmd).2⟩)
  | .jobRegister jobid hosts => .ok (d.jobRegisterHandler jobid hosts)
  | .jobUpdate jobid hosts => .ok (d.jobUpdateHandler jobid hosts)
  | .jobUnregister jobid => .ok (d.jobRemoveHandler jobid)
  | .processRegister jobid uid gid pid => .ok (d.processAddHandler jobid uid gid pid)
  | .processUnregister jobid uid gid pid => .ok (d.processRemoveHandler jobid uid gid pid)
  | .backendRegister nsid type track mount quota =>
      .ok (d.namespaceRegisterHandler env nsid type track mount quota)
  | .backendUnregister nsid => .ok (d.namespaceRemoveHandler nsid)
  | _ => .ok (d, ⟨.badRequest, .badRequest⟩)

/-- What a call makes of a response. -/
def CallEnd.ofResponse (resp : Response) : CallEnd :=
  match resp.fields with
  | .badRequest => .returned NORNS_ESNAFU none
  | .globalStatus runningTasks pendingTasks eta =>
      .returned resp.errorCode.code (some (runningTasks, pendingTasks, eta))
  | _ => .returned resp.errorCode.code none

/-- What a call is for: it runs a handler of the daemon on its arguments and returns its code. -/
def ControlCall.perform (env : SessionEnv) (d : Daemon) (call : ControlCall) :
    Except Fault (Daemon × CallEnd) :=
  match call.request with
  | .error e => .ok (d, e)
  | .ok req => (d.answer env req).map fun (d', resp) => (d', .ofResponse resp)

/-! ### The message of a call -/

/-- The arguments of `send_request` for a call, with the type that the response must have. -/
def ControlCall.args : ControlCall → Except CallEnd (NornsMsgType × ControlArgs)
  | sendCommand cmd hasArgs => if hasArgs then .error .badArgs else .ok (.command, .command cmd)
  | status hasStats => if !hasStats then .error .badArgs else .ok (.globalStatus, .globalStatus)
  | registerJob jobid job =>
      if !validateJob job then .error .badArgs else .ok (.jobRegister, .job .jobRegister jobid job)
  | updateJob jobid job =>
      if !validateJob job then .error .badArgs else .ok (.jobUpdate, .job .jobUpdate jobid job)
  | unregisterJob jobid => .ok (.jobUnregister, .job .jobUnregister jobid none)
  | addProcess jobid uid gid pid => .ok (.processAdd, .process .processAdd jobid uid gid pid)
  | removeProcess jobid uid gid pid =>
      .ok (.processRemove, .process .processRemove jobid uid gid pid)
  | registerNamespace nsid backend =>
      if nsid.isNone || nsid = some "" || !validateNamespace backend then .error .badArgs
      else .ok (.namespaceRegister, .nspace .namespaceRegister nsid backend)
  | updateNamespace _ _ => .error (.returned NORNS_ENOTSUPPORTED none)
  | unregisterNamespace nsid =>
      if nsid.isNone then .error .badArgs
      else .ok (.namespaceUnregister, .nspace .namespaceUnregister nsid none)

/-- The message that a call sends if there is memory for it. -/
def ControlCall.message (call : ControlCall) : Except CallEnd RequestMsg := do
  let (_, args) ← call.args
  (buildControlMsg (fun _ => true) args).mapError .ofPack

/-- The members of the response that a call returns. -/
def callStats (type : NornsMsgType) : ResponsePayload → Option (UInt32 × UInt32 × UInt64) :=
  if type = .globalStatus then statsOfPayload else fun _ => none

/-- A call after its arguments have been looked at. -/
def exchange (cl : ClientEnv) (fuel : ℕ) (reply : List UInt8 → Conn) :
    Except CallEnd (NornsMsgType × ControlArgs) → Option (List UInt8 × CallEnd)
  | .error e => some ([], e)
  | .ok (type, args) => (sendRequest cl fuel reply args).map fun (sent, r) =>
      (sent, returnCode type (callStats type) r)

theorem ControlCall.call_eq (cl : ClientEnv) (fuel : ℕ) (reply : List UInt8 → Conn)
    (call : ControlCall) : call.call cl fuel reply = exchange cl fuel reply call.args := by
  cases call with
  | sendCommand cmd hasArgs => cases hasArgs <;> rfl
  | status hasStats => cases hasStats <;> rfl
  | registerJob jobid job =>
      simp only [ControlCall.call, nornsctlRegisterJob, ControlCall.args]
      cases validateJob job <;> rfl
  | updateJob jobid job =>
      simp only [ControlCall.call, nornsctlUpdateJob, ControlCall.args]
      cases validateJob job <;> rfl
  | registerNamespace nsid backend =>
      simp only [ControlCall.call, nornsctlRegisterNamespace, ControlCall.args]
      split_ifs <;> rfl
  | unregisterNamespace nsid => cases nsid <;> rfl
  | _ => rfl

section packing

theorem xstrdupAs_true (str : Option String) :
    xstrdupAs true str = .ok (str.map ClientResource.clip) := by
  cases str with
  | none => rfl
  | some str =>
      show Except.ok (some (xstrcut str)) = _
      rw [ClientResource.xstrcut_eq_clip]
      rfl

theorem buildHosts_true (i : ℕ) (hosts : List (Option String)) :
    buildHosts (fun _ => true) i hosts = .ok (hosts.map (Option.map ClientResource.clip)) := by
  induction hosts generalizing i with
  | nil => rfl
  | cons host hosts ih =>
      rw [buildHosts, xstrdupAs_true, ih]
      rfl

theorem buildLimits_true (i : ℕ) (limits : List (Option NornsctlJobLimit)) :
    buildLimits (fun _ => true) i limits =
      (limits.findSome? NornsctlJobLimit.obstacle).elim (.ok ()) .error := by
  induction limits generalizing i with
  | nil => rfl
  | cons lim limits ih =>
      rw [buildLimits, ih]
      match lim with
      | none => rfl
      | some ⟨none, quota⟩ => rfl
      | some ⟨some nsid, quota⟩ =>
          simp only [buildJobLimitsMsg, xstrdupAs_true]
          rfl

/-- A descriptor that `validate_job` accepts. -/
theorem buildJobMsg_true {job : NornsctlJob} (h : validateJob (some job) = true) :
    buildJobMsg (fun _ => true) job = job.hosts := by
  obtain ⟨hosts, limits⟩ := job
  cases hosts with
  | none => cases h
  | some hosts =>
      cases limits with
      | none => cases h
      | some limits =>
          have hne : hosts.length ≠ 0 ∧ limits.length ≠ 0 := by simpa [validateJob] using h
          have hnone : none ∈ hosts.map (Option.map ClientResource.clip) ↔ none ∈ hosts := by
            simp
          have hsome : (hosts.map (Option.map ClientResource.clip)).filterMap id =
              (hosts.filterMap id).map ClientResource.clip := by
            rw [List.filterMap_map, List.map_filterMap]
            rfl
          simp only [buildJobMsg, NornsctlJob.hosts, Option.getD_some, buildHosts_true,
            buildLimits_true, hne, false_or, Bool.not_true, Bool.false_eq_true, if_false]
          cases limits.findSome? NornsctlJobLimit.obstacle with
          | some e => rfl
          | none =>
              show (if none ∈ hosts.map (Option.map ClientResource.clip) then _ else _) = _
              simp only [hnone, hsome]
              rfl

theorem buildControlMsg_job {type : MsgType} (htype : type ≠ .jobUnregister) (jobid : UInt32)
    {job : NornsctlJob} (h : validateJob (some job) = true) :
    buildControlMsg (fun _ => true) (.job type jobid (some job)) =
      job.hosts.map fun hosts => ⟨type, none, some jobid, some hosts, none, none, none⟩ := by
  show (if type = .jobUnregister then _ else _) = _
  rw [if_neg htype, buildJobMsg_true h]
  cases job.hosts <;> rfl

theorem buildControlMsg_nspace (type : MsgType) (nsid : String)
    (backend : Option NornsctlBackend) :
    buildControlMsg (fun _ => true) (.nspace type (some nsid) backend) =
      .ok ⟨type, none, none, none, none, some ⟨ClientResource.clip nsid, backend.map fun b =>
        ⟨b.bType, b.bTrack, (b.bMount.map ClientResource.clip).getD "", b.bCapacity.toInt32⟩⟩,
        none⟩ := by
  simp only [buildControlMsg, buildNamespaceMessage, buildBackendMessage, xstrdupAs_true]
  cases backend <;> rfl

/-- The ids of a process arrive as they have been given. -/
theorem ids_ofIds (uid gid : UInt32) (pid : Int32) :
    idOfInt64 (ProcessMsg.ofIds uid gid pid).uid = uid ∧
    idOfInt64 (ProcessMsg.ofIds uid gid pid).gid = gid ∧
    idOfInt64 (ProcessMsg.ofIds uid gid pid).pid = pid.toUInt32 := by
  have hkey := ProcessMsg.key_ofIds uid gid pid
  exact ⟨UInt32.toUInt32_toUInt64 uid, congrArg Prod.snd hkey, congrArg Prod.fst hkey⟩

theorem ControlCall.message_of_args {call : ControlCall} {type : NornsMsgType}
    {args : ControlArgs} (h : call.args = .ok (type, args)) :
    call.message = (buildControlMsg (fun _ => true) args).mapError .ofPack := by
  rw [message, h]
  rfl

/-- The daemon decodes the message of a call to what the call asks for. -/
theorem ControlCall.decode_message (call : ControlCall) :
    call.message.map decodeRequest = call.request.map .ok := by
  cases call with
  | sendCommand cmd hasArgs => cases hasArgs <;> rfl
  | status hasStats => cases hasStats <;> rfl
  | registerJob jobid job =>
      cases job with
      | none => rfl
      | some job =>
          simp only [message, args, request, jobRequest]
          cases hvalid : validateJob (some job) with
          | false => rfl
          | true =>
              show ((buildControlMsg _ _).mapError _).map _ = _
              rw [buildControlMsg_job (by rintro ⟨⟩) jobid hvalid]
              cases job.hosts <;> rfl
  | updateJob jobid job =>
      cases job with
      | none => rfl
      | some job =>
          simp only [message, args, request, jobRequest]
          cases hvalid : validateJob (some job) with
          | false => rfl
          | true =>
              show ((buildControlMsg _ _).mapError _).map _ = _
              rw [buildControlMsg_job (by rintro ⟨⟩) jobid hvalid]
              cases job.hosts <;> rfl
  | unregisterJob jobid => rfl
  | addProcess jobid uid gid pid =>
      obtain ⟨huid, hgid, hpid⟩ := ids_ofIds uid gid pid
      show Except.ok (Except.ok (Request.processRegister jobid
        (idOfInt64 (ProcessMsg.ofIds uid gid pid).uid)
        (idOfInt64 (ProcessMsg.ofIds uid gid pid).gid)
        (idOfInt64 (ProcessMsg.ofIds uid gid pid).pid))) = _
      rw [huid, hgid, hpid]
      rfl
  | removeProcess jobid uid gid pid =>
      obtain ⟨huid, hgid, hpid⟩ := ids_ofIds uid gid pid
      show Except.ok (Except.ok (Request.processUnregister jobid
        (idOfInt64 (ProcessMsg.ofIds uid gid pid).uid)
        (idOfInt64 (ProcessMsg.ofIds uid gid pid).gid)
        (idOfInt64 (ProcessMsg.ofIds uid gid pid).pid))) = _
      rw [huid, hgid, hpid]
      rfl
  | registerNamespace nsid backend =>
      match nsid, backend with
      | none, _ => rfl
      | some nsid, none =>
          rw [message, args, if_pos (by simp [validateNamespace])]
          rfl
      | some nsid, some ⟨type, track, none, capacity⟩ =>
          rw [message, args, if_pos (by simp [validateNamespace])]
          rfl
      | some nsid, some ⟨type, track, some mount, capacity⟩ =>
          by_cases hbad : nsid = "" ∨ mount = "" ∨ capacity = 0
          · rw [message, args, request, if_pos (by simpa [validateNamespace, or_assoc] using hbad),
              if_pos hbad]
            rfl
          · have hargs : (registerNamespace (some nsid)
                (some ⟨type, track, some mount, capacity⟩)).args =
                .ok (.namespaceRegister, .nspace .namespaceRegister (some nsid)
                  (some ⟨type, track, some mount, capacity⟩)) :=
              if_neg (by simpa [validateNamespace, or_assoc] using hbad)
            rw [message_of_args hargs, buildControlMsg_nspace, request, if_neg hbad]
            show Except.ok (Except.ok (decodeNamespace _ _)) = _
            simp only [decodeNamespace, Option.map_some, Option.getD_some]
            split_ifs <;> rfl
  | updateNamespace nsid backend => rfl
  | unregisterNamespace nsid =>
      cases nsid with
      | none => rfl
      | some nsid =>
          rw [message_of_args rfl, buildControlMsg_nspace]
          rfl

end packing

/-! ### The daemon -/

/-- The type of the responses to the requests of the control API. -/
def Request.responseType : Request → Option NornsMsgType
  | globalStatus => some .globalStatus
  | command _ => some .command
  | jobRegister _ _ => some .jobRegister
  | jobUpdate _ _ => some .jobUpdate
  | jobUnregister _ => some .jobUnregister
  | processRegister _ _ _ _ => some .processAdd
  | processUnregister _ _ _ _ => some .processRemove
  | backendRegister _ _ _ _ _ => some .namespaceRegister
  | backendUnregister _ => some .namespaceUnregister
  | badRequest => some .badRpc
  | _ => none

theorem ControlCall.jobRequest_type {request : List String → Request} {type : NornsMsgType}
    (hrequest : ∀ hosts, (request hosts).responseType = some type) {job : Option NornsctlJob}
    {req : Request} (h : jobRequest request job = .ok req) : req.responseType = some type := by
  cases job with
  | none => cases h
  | some job =>
      unfold jobRequest at h
      dsimp only at h
      split_ifs at h
      cases hhosts : job.hosts with
      | error e =>
          rw [hhosts] at h
          cases h
      | ok hosts =>
          rw [hhosts] at h
          cases h
          exact hrequest hosts

/-- A call expects the response to what it asks for, unless that makes no sense to the daemon. -/
theorem ControlCall.request_type {call : ControlCall} {req : Request} {type : NornsMsgType}
    {args : ControlArgs} (hargs : call.args = .ok (type, args)) (hreq : call.request = .ok req) :
    type ≠ .badRpc ∧ (req.responseType = some type ∨ req = .badRequest) := by
  cases call with
  | sendCommand cmd hasArgs =>
      cases hasArgs <;> cases hargs
      cases hreq
      exact ⟨by rintro ⟨⟩, .inl rfl⟩
  | status hasStats =>
      cases hasStats <;> cases hargs
      cases hreq
      exact ⟨by rintro ⟨⟩, .inl rfl⟩
  | registerJob jobid job =>
      unfold ControlCall.args at hargs
      dsimp only at hargs
      split_ifs at hargs
      cases hargs
      exact ⟨by rintro ⟨⟩, .inl (jobRequest_type (fun _ => rfl) hreq)⟩
  | updateJob jobid job =>
      unfold ControlCall.args at hargs
      dsimp only at hargs
      split_ifs at hargs
      cases hargs
      exact ⟨by rintro ⟨⟩, .inl (jobRequest_type (fun _ => rfl) hreq)⟩
  | registerNamespace nsid backend =>
      unfold ControlCall.args at hargs
      dsimp only at hargs
      split_ifs at hargs
      cases hargs
      refine ⟨by rintro ⟨⟩, ?_⟩
      match nsid, backend with
      | none, _ => cases hreq
      | some nsid, none => cases hreq
      | some nsid, some ⟨btype, track, none, capacity⟩ => cases hreq
      | some nsid, some ⟨btype, track, some mount, capacity⟩ =>
          unfold ControlCall.request at hreq
          dsimp only at hreq
          split_ifs at hreq
          · cases hreq
            exact .inr rfl
          · cases hreq
            exact .inl rfl
  | updateNamespace nsid backend => cases hargs
  | unregisterNamespace nsid =>
      cases nsid <;> cases hargs
      cases hreq
      exact ⟨by rintro ⟨⟩, .inl rfl⟩
  | _ =>
      cases hargs
      cases hreq
      exact ⟨by rintro ⟨⟩, .inl rfl⟩

/-- The daemon has a handler for every request of the control API. -/
theorem Daemon.call_eq_answer {req : Request} {type : NornsMsgType}
    (h : req.responseType = some type) (env : SessionEnv) (d : Daemon) :
    ∃ hd, callbacks.lookup req.type = some hd ∧ d.call env hd req = d.answer env req := by
  cases req with
  | iotaskCreate optype src dst => cases h
  | iotaskStatus tid => cases h
  | ping => cases h
  | backendUpdate nsid btype track mount quota => cases h
  | _ => exact ⟨_, rfl, rfl⟩

/-- Its response is of the type for the request. -/
theorem Daemon.answer_type {req : Request} {type : NornsMsgType}
    (h : req.responseType = some type) {env : SessionEnv} {d d' : Daemon} {resp : Response}
    (hanswer : d.answer env req = .ok (d', resp)) : resp.fields.msgType = type := by
  cases req with
  | iotaskCreate optype src dst => cases h
  | iotaskStatus tid => cases h
  | ping => cases h
  | backendUpdate nsid btype track mount quota => cases h
  | globalStatus =>
      cases h
      simp only [Daemon.answer, Daemon.globalStatusHandler] at hanswer
      cases hstats : d.taskMgr.globalStats with
      | error f =>
          rw [hstats] at hanswer
          cases hanswer
      | ok stats =>
          rw [hstats] at hanswer
          cases hanswer
          rfl
  | command cmd =>
      cases h
      simp only [Daemon.answer] at hanswer
      split_ifs at hanswer
      cases hanswer
      rfl
  | jobRegister jobid hosts =>
      cases h
      simp only [Daemon.answer, Daemon.jobRegisterHandler] at hanswer
      split_ifs at hanswer <;> cases hanswer <;> rfl
  | jobUpdate jobid hosts =>
      cases h
      simp only [Daemon.answer, Daemon.jobUpdateHandler] at hanswer
      cases hjob : d.jobs.lookup jobid <;> rw [hjob] at hanswer <;> cases hanswer <;> rfl
  | jobUnregister jobid =>
      cases h
      simp only [Daemon.answer, Daemon.jobRemoveHandler] at hanswer
      split_ifs at hanswer <;> cases hanswer <;> rfl
  | processRegister jobid uid gid pid =>
      cases h
      simp only [Daemon.answer, Daemon.processAddHandler] at hanswer
      cases hjob : d.jobs.lookup jobid <;> rw [hjob] at hanswer <;> cases hanswer <;> rfl
  | processUnregister jobid uid gid pid =>
      cases h
      simp only [Daemon.answer, Daemon.processRemoveHandler] at hanswer
      cases hjob : d.jobs.lookup jobid <;> rw [hjob] at hanswer <;> cases hanswer <;> rfl
  | backendRegister nsid btype track mount quota =>
      cases h
      simp only [Daemon.answer, Daemon.namespaceRegisterHandler] at hanswer
      split_ifs at hanswer
      · cases hanswer
        rfl
      · cases hmade : env.createFrom btype nsid track mount quota.toUInt32 <;>
          rw [hmade] at hanswer <;> cases hanswer <;> rfl
  | backendUnregister nsid =>
      cases h
      simp only [Daemon.answer, Daemon.namespaceRemoveHandler] at hanswer
      split_ifs at hanswer <;> cases hanswer <;> rfl
  | badRequest =>
      cases h
      cases hanswer
      rfl

theorem returnCode_response {type : NornsMsgType} {resp : Response} (htype : type ≠ .badRpc)
    (hresp : resp.fields.msgType = type ∨ resp.fields.msgType = .badRpc) :
    returnCode type (callStats type)
      (.ok ⟨resp.fields.msgType, resp.errorCode.code, resp.fields.payload⟩) =
      .ofResponse resp := by
  obtain ⟨fields, code⟩ := resp
  obtain rfl | hresp := hresp
  · cases fields <;> first | rfl | exact absurd rfl htype
  · cases fields <;> cases hresp
    exact if_pos (Ne.symm htype)

/-- What the client reads in a response of the daemon. -/
theorem unpackFromBuffer_toMsg {unpack : List UInt8 → Option ResponseMsg} {buf : List UInt8}
    {resp : Response} (h : unpack buf = some resp.toMsg) :
    unpackFromBuffer unpack buf =
      (NORNS_SUCCESS, some ⟨resp.fields.msgType, resp.errorCode.code, resp.fields.payload⟩) := by
  have htype : decodeResponseType resp.toMsg.type = resp.fields.msgType := by
    rw [Response.toMsg, packExtraInfo_type, decodeResponseType_encodeType]
  have hcode : resp.toMsg.errorCode.toInt32 = resp.errorCode.code := by
    rw [Response.toMsg, packExtraInfo_errorCode, toInt32_toWord]
  rw [unpackFromBuffer, h]
  simp only [htype, hcode]
  obtain ⟨fields, errorCode⟩ := resp
  cases fields <;> rfl

/-! ### A call among others -/

/-- Nothing stops a call before it has been sent: the thread has the context, there is memory and
the daemon can be connected to. -/
structure ClientEnv.Ready (cl : ClientEnv) : Prop where
  context : cl.hasContext = true
  memory : ∀ site, cl.mem site = true
  connects : cl.connects = true

/-- The call has been made over the connection: what its writes have sent is what has arrived, and
its reads meet the response of the session, in any pieces and with any interruptions.  The two
protobuf libraries understand each other on the two messages. -/
structure ControlCall.MadeOver (call : ControlCall) (cl : ClientEnv)
    (serialize : ResponseMsg → List UInt8) (reply : List UInt8 → Conn) (c : Connection) : Prop where
  ready : cl.Ready
  endian : c.env.endian = cl.endian
  sent : ∃ m r, call.message = .ok m ∧ c.env.parse [] = none ∧
    c.env.parse (cl.pack m) = some m ∧ sendMessage cl.endian cl.writes (cl.pack m) = some r ∧
    r.ret = 0 ∧ c.arrived = r.sent ∧ (cl.pack m).length < 2 ^ 64
  answer : ∀ resp, c.pc = .ended (.answered resp) → ∃ rest,
    (reply c.arrived).bytes = frame cl.endian (serialize resp.toMsg) ++ rest ∧
    xmallocNz cl.alloc (serialize resp.toMsg).length = true ∧
    cl.unpack (serialize resp.toMsg) = some resp.toMsg

/-- A whole request that has been sent is what the session reads. -/
theorem doReadRequest_frame {env : SessionEnv} {body read : List UInt8}
    (h : doReadRequest env (frame env.endian body) = .ok read) (hlt : body.length < 2 ^ 64) :
    read = body := by
  rw [frame, doReadRequest_header env hlt] at h
  split_ifs at h
  rw [List.take_length] at h
  exact (Except.ok.inj h).symm

/-- A message asks for something that the daemon knows how to answer. -/
theorem ControlCall.request_of_message {call : ControlCall} {m : RequestMsg}
    (h : call.message = .ok m) : ∃ type args req, call.args = .ok (type, args) ∧
      buildControlMsg (fun _ => true) args = .ok m ∧ decodeRequest m = .ok req ∧
      call.request = .ok req := by
  have hdecode := call.decode_message
  rw [h] at hdecode
  obtain ⟨req, hreq, hm⟩ : ∃ req, call.request = .ok req ∧ decodeRequest m = .ok req := by
    cases hreq : call.request with
    | error e =>
        rw [hreq] at hdecode
        cases hdecode
    | ok req =>
        rw [hreq] at hdecode
        exact ⟨req, rfl, Except.ok.inj hdecode⟩
  cases hargs : call.args with
  | error e =>
      rw [message, hargs] at h
      cases h
  | ok r =>
      obtain ⟨type, args⟩ := r
      rw [message_of_args hargs] at h
      cases hbuild : buildControlMsg (fun _ => true) args with
      | error e =>
          rw [hbuild] at h
          cases h
      | ok m' =>
          rw [hbuild] at h
          cases h
          exact ⟨type, args, req, rfl, hbuild, hm, hreq⟩

section served

variable {call : ControlCall} {cl : ClientEnv} {serialize : ResponseMsg → List UInt8}
  {reply : List UInt8 → Conn} {c : Connection}

/-- The exchange of a message for a response that arrives as a whole. -/
theorem sendPacked_of_answer {buf : List UInt8} {r : SendResult} {resp : Response}
    {rest : List UInt8} (hcontext : cl.hasContext = true) (hconnects : cl.connects = true)
    (hsend : sendMessage cl.endian cl.writes buf = some r) (hret : r.ret = 0)
    (hbytes : (reply r.sent).bytes = frame cl.endian (serialize resp.toMsg) ++ rest)
    (hroom : xmallocNz cl.alloc (serialize resp.toMsg).length = true)
    (hunpack : cl.unpack (serialize resp.toMsg) = some resp.toMsg) :
    ∃ fuel, sendPacked cl fuel reply (.ok buf) = some (r.sent,
      .ok ⟨resp.fields.msgType, resp.errorCode.code, resp.fields.payload⟩) := by
  obtain ⟨fuel, conn', hrecv, -⟩ : ∃ fuel conn', recvMessage cl.endian cl.alloc cl.junk fuel
      (reply r.sent) = some (0, serialize resp.toMsg, conn') ∧ conn'.bytes = rest :=
    recvMessage_frame hbytes hroom
  refine ⟨fuel, ?_⟩
  simp only [sendPacked, hcontext, hconnects, hsend, hret, hrecv, Option.bind_eq_bind,
    Option.bind_some, unpackFromBuffer_toMsg hunpack]
  rfl

theorem packControl_of_build {args : ControlArgs} {m : RequestMsg} (hready : cl.Ready)
    (hbuild : buildControlMsg (fun _ => true) args = .ok m) (hne : cl.pack m ≠ []) :
    packControl cl.mem cl.pack args = .ok (cl.pack m) := by
  have hmem : cl.mem = fun _ => true := funext hready.memory
  rw [packControl, hmem, hbuild]
  show (if cl.pack m ≠ [] ∧ true = true then _ else _) = _
  rw [if_pos ⟨hne, rfl⟩]
  rfl

/-- The session of a call parses its message. -/
theorem ControlCall.MadeOver.read (h : call.MadeOver cl serialize reply c) {body : List UInt8}
    (hbody : doReadRequest c.env c.arrived = .ok body) :
    ∃ m, call.message = .ok m ∧ c.env.parse body = some m := by
  obtain ⟨m, r, hmsg, -, hparse, hsend, hret, harrived, hlt⟩ := h.sent
  have hframe : c.arrived = frame c.env.endian (cl.pack m) := by
    rw [harrived, sendMessage_sent hsend hret, h.endian]
  rw [hframe] at hbody
  refine ⟨m, hmsg, ?_⟩
  rw [doReadRequest_frame hbody hlt]
  exact hparse

/-- The session of a call does what the call is for, if no worker writes to a record while its
handler runs. -/
theorem ControlCall.MadeOver.served (h : call.MadeOver cl serialize reply c) (d : Daemon)
    (hwhole : c.Whole) (hpc : c.pc = .ended (c.session d).ending) :
    (∃ f, call.perform c.env d = .error f ∧ c.pc = .ended (.ofFault f)) ∨
      ∃ e fuel, call.perform c.env d = .ok ((c.session d).daemon, e) ∧
        call.call cl fuel reply = some (c.arrived, e) := by
  obtain ⟨m, r, hmsg, hempty, hparse, hsend, hret, harrived, -⟩ := h.sent
  obtain ⟨type, args, req, hargs, hbuild, hdecode, hreq⟩ := request_of_message hmsg
  obtain ⟨body, hbody⟩ := hwhole
  have hcreate : createFromBuffer c.env.parse body = .ok req := by
    obtain ⟨m', hmsg', hbodyParse⟩ := h.read hbody
    obtain rfl := Except.ok.inj (hmsg.symm.trans hmsg')
    rw [createFromBuffer, hbodyParse]
    exact hdecode
  obtain ⟨htype, hkind⟩ := request_type hargs hreq
  obtain ⟨type', hreq'⟩ : ∃ type', req.responseType = some type' := by
    obtain hsome | rfl := hkind
    · exact ⟨type, hsome⟩
    · exact ⟨.badRpc, rfl⟩
  obtain ⟨hd, hlookup, hcall⟩ := Daemon.call_eq_answer hreq' c.env d
  have hlookup' : c.endpoint.dispatcher.lookup req.type = some hd := hlookup
  have hsession : c.session d = handleBody c.env c.endpoint d body := session_of_ok _ _ hbody
  rw [hsession] at hpc ⊢
  unfold handleBody at hpc ⊢
  simp only [hcreate, hlookup', hcall] at hpc ⊢
  cases hanswer : d.answer c.env req with
  | error f =>
      rw [hanswer] at hpc
      refine .inl ⟨f, ?_, hpc⟩
      rw [perform, hreq]
      show (d.answer c.env req).map _ = _
      rw [hanswer]
      rfl
  | ok r' =>
      obtain ⟨d', resp⟩ := r'
      rw [hanswer] at hpc
      obtain ⟨rest, hbytes, hroom, hunpack⟩ := h.answer resp hpc
      rw [harrived] at hbytes
      obtain ⟨fuel, hexchange⟩ := sendPacked_of_answer h.ready.context h.ready.connects hsend hret
        hbytes hroom hunpack
      refine .inr ⟨.ofResponse resp, fuel, ?_, ?_⟩
      · rw [perform, hreq]
        show (d.answer c.env req).map _ = _
        rw [hanswer]
        rfl
      · have hresp : resp.fields.msgType = type ∨ resp.fields.msgType = .badRpc := by
          obtain hsome | rfl := hkind
          · exact .inl (Daemon.answer_type hsome hanswer)
          · exact .inr (Daemon.answer_type rfl hanswer)
        rw [call_eq, hargs]
        show (sendPacked cl fuel reply (packControl cl.mem cl.pack args)).map _ = _
        rw [packControl_of_build h.ready hbuild (pack_ne_nil hempty hparse), hexchange, harrived,
          ← returnCode_response htype hresp]
        rfl

end served

/-- Where a request stands in the order: after all that had been served before its client
connected, and before all that is served later. -/
theorem Listener.order_of_run {d₀ : Daemon} {s s₁ : Listener}
    (h₁ : Run ListenerStep (.init d₀) s₁) (h : Run ListenerStep s₁ s) {pre post : List LoopEvent}
    {i : ℕ} (hlog : s.log = pre ++ .handled i :: post) :
    (s₁.connections.length ≤ i → s₁.log <+: pre) ∧
      (.handled i ∈ s₁.log → pre ++ [.handled i] <+: s₁.log) := by
  have hinv₁ : s₁.Inv d₀ := .run h₁
  have hinv : s.Inv d₀ := .run (h₁.trans h)
  have hgrows := log_grows_of_run h
  rw [hlog] at hgrows
  have hself : pre ++ [.handled i] <+: pre ++ .handled i :: post :=
    List.prefix_append_right_inj pre |>.mpr (List.prefix_append [.handled i] post)
  by_cases hlen : s₁.log.length ≤ pre.length
  · have hpre := List.prefix_of_prefix_length_le hgrows (List.prefix_append pre _) hlen
    refine ⟨fun _ => hpre, fun hi => absurd hi fun hi => ?_⟩
    -- it would have been served twice
    have honce := hinv.once
    rw [hlog, List.filterMap_append, List.nodup_append] at honce
    exact honce.2.2 i (List.mem_filterMap.mpr ⟨_, hpre.subset hi, rfl⟩) i (by
      simp [LoopEvent.connection]) rfl
  · have hpost := List.prefix_of_prefix_length_le hself hgrows (by
      rw [List.length_append, List.length_singleton]
      omega)
    refine ⟨fun hnew => absurd hnew (not_le.mpr ?_), fun _ => hpost⟩
    obtain ⟨c, -, hc, -⟩ := hinv₁.of_handled (i := i) (hpost.subset (by simp))
    exact (List.getElem?_eq_some_iff.mp hc).1

/-- **Calls are linearizable.**  A call, other than one for the status, that the event loop has
served among any number of others returns what it would return if its handler were run directly, at
its place in the order in which the loop has served the requests; that place lies between the
beginning and the end of the call. -/
theorem control_calls_linearizable {d₀ : Daemon} {s : Listener}
    (h : Run ListenerStep (.init d₀) s) {pre post : List LoopEvent} {i : ℕ} {c : Connection}
    (hlog : s.log = pre ++ .handled i :: post) (hc : s.connections[i]? = some c)
    {call : ControlCall} {cl : ClientEnv} {serialize : ResponseMsg → List UInt8}
    {reply : List UInt8 → Conn} (hmade : call.MadeOver cl serialize reply c)
    (_hstatus : ∀ hasStats, call ≠ .status hasStats) :
    ((∃ f, call.perform c.env (replay s.connections d₀ pre) = .error f ∧
        c.pc = .ended (.ofFault f)) ∨
      ∃ e fuel, call.perform c.env (replay s.connections d₀ pre) =
          .ok (replay s.connections d₀ (pre ++ [.handled i]), e) ∧
        call.call cl fuel reply = some (c.arrived, e)) ∧
    ∀ s₁, Run ListenerStep (.init d₀) s₁ → Run ListenerStep s₁ s →
      (s₁.connections.length ≤ i → s₁.log <+: pre) ∧
      (.handled i ∈ s₁.log → pre ++ [.handled i] <+: s₁.log) := by
  have hinv : s.Inv d₀ := .run h
  obtain ⟨c', hc', hwhole, hpc⟩ := hinv.answered pre i post hlog
  obtain rfl := Option.some.inj (hc.symm.trans hc')
  refine ⟨?_, fun s₁ h₁ hrun => Listener.order_of_run h₁ hrun hlog⟩
  have hserved := hmade.served _ hwhole hpc
  have hstep : replay s.connections d₀ (pre ++ [.handled i]) =
      (c.session (replay s.connections d₀ pre)).daemon := by
    rw [replay_append_singleton, LoopEvent.apply, hc]
    rfl
  rw [hstep]
  exact hserved

/-- The client of the example that sends PAUSE_LISTEN, with a response in two pieces. -/
def pauseClient : ClientEnv where
  hasContext := true
  mem _ := true
  pack m :=
    if m = ⟨.ctlCommand, none, none, none, none, none, some 1001⟩ then pauseBytes.drop 8 else []
  unpack b := if b = [0x08, 0xe9, 0x07, 0x10, 0x00] then some ⟨1001, 0, none, none, none⟩ else none
  endian := .little
  connects := true
  writes := [.accepted 8, .interrupted, .accepted 8]
  alloc _ := true
  junk _ := 0

def pauseReply : Conn :=
  ⟨0, [.data 0 [0, 0, 0, 0, 0], .interrupted, .data 0 [5, 0x08, 0xe9, 0x07, 0x10, 0x00]], .closed⟩

/-- Its connection after it has been served. -/
def pausedClient : Connection :=
  ⟨.control, pauseEnv, pauseBytes, false, .ended (.answered ⟨.command, .success⟩)⟩

theorem pauseClient_madeOver : (ControlCall.sendCommand 1001 false).MadeOver pauseClient
    (fun _ => [0x08, 0xe9, 0x07, 0x10, 0x00]) (fun _ => pauseReply) pausedClient where
  ready := ⟨rfl, fun _ => rfl, rfl⟩
  endian := rfl
  sent := ⟨⟨.ctlCommand, none, none, none, none, none, some 1001⟩, ⟨0, pauseBytes, []⟩, rfl,
    by decide, by decide, by decide, rfl, rfl, by decide⟩
  answer resp hpc := by
    cases hpc
    exact ⟨[], by decide, by decide, by decide⟩

theorem pause_call_linearized : ∃ (d : Daemon) (fuel : ℕ),
    (ControlCall.sendCommand 1001 false).call pauseClient fuel (fun _ => pauseReply) =
      some (pauseBytes, .returned NORNS_SUCCESS none) ∧
    (replay (paused d).connections d [.handled 0]).isPaused = true := by
  have hrun := (pausing_reachable ⟨Urd.withNamespace, ∅⟩).trans (paused_reachable _)
  have hc : (paused ⟨Urd.withNamespace, ∅⟩).connections[0]? = some pausedClient := rfl
  have hlog : (paused ⟨Urd.withNamespace, ∅⟩).log = [] ++ .handled 0 :: [] := rfl
  obtain ⟨f, hf, -⟩ | ⟨e, fuel, hperform, hcall⟩ :=
    (control_calls_linearizable hrun hlog hc pauseClient_madeOver nofun).1
  · cases hf
  · cases hperform
    exact ⟨⟨Urd.withNamespace, ∅⟩, fuel, hcall, by decide⟩

end Norns
