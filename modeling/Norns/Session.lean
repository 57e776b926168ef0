import Norns.Command
import Norns.Framing

/-! # Sessions

The daemon listens on two sockets: the control socket, which only its owner can open, and the
global socket, which everybody can.  A connection becomes a session, which reads one request,
calls the handler that is registered for it and writes the response.

The table of handlers belongs to the listener, and every endpoint and session has a pointer to
the same one.  The decoder tells some messages apart by what they contain and not by their type, and
nothing catches what a handler throws: `dispatch_agrees_iff` says when the right handler is called
and nothing is thrown.  An administrative request is served wherever it comes from:
`privilege_separation_iff` says when a connection to the global socket is harmless.  The length a
client announces is taken as it comes: `request_length_handled_iff` says which lengths the session
survives.

Here are also the handlers for jobs, processes and namespaces, and `iotask_status_handler` as one
step (`Status` cuts it where other threads can run). -/

namespace Norns

open Lib

/-! ### Handlers -/

/-- `job`; the processes are keys of a map whose values carry nothing. -/
structure Job where
  hosts : List String
  processes : Finset (UInt32 × UInt32)

namespace Job

/-- `job::update`. -/
def update (job : Job) (hosts : List String) : Job := { job with hosts := hosts }

/-- `job::add_process`. -/
def addProcess (job : Job) (pid gid : UInt32) : Job :=
  { job with processes := insert (pid, gid) job.processes }

/-- `job::find_and_remove_process`; the flag is the returned `bool`. -/
def findAndRemoveProcess (job : Job) (pid gid : UInt32) : Job × Bool :=
  if (pid, gid) ∈ job.processes then
    ({ job with processes := job.processes.erase (pid, gid) }, true)
  else (job, false)

end Job

/-- `urd` with the table of jobs. -/
structure Daemon extends Urd where
  jobs : Table UInt32 Job

/-- What a session finds outside the daemon: the byte order of the host, the protobuf parser, the
credentials of the peer, the size of the source of a task, what backends can be made and which of
them are empty, the estimated time of arrival, and how long a vector can be.  The size is found by
a walk over files, and emptiness by a look at the mount: both can throw. -/
structure SessionEnv where
  endian : Endian
  parse : List UInt8 → Option RequestMsg
  credentials : Option Credentials
  size : UInt64
  sizeThrows : Bool
  createFrom : BackendType → String → Bool → String → UInt32 → Option Backend
  isEmpty : Backend → Bool
  isEmptyThrows : Backend → Bool
  eta : UInt64
  canHold : ℕ → Bool

namespace Daemon

variable (d : Daemon)

/-- `urd::job_register_handler`. -/
def jobRegisterHandler (jobid : UInt32) (hosts : List String) : Daemon × Response :=
  if jobid ∈ d.jobs then (d, ⟨.jobRegister, .jobExists⟩)
  else ({ d with jobs := d.jobs.emplace jobid ⟨hosts, ∅⟩ }, ⟨.jobRegister, .success⟩)

/-- `urd::job_update_handler`. -/
def jobUpdateHandler (jobid : UInt32) (hosts : List String) : Daemon × Response :=
  match d.jobs.lookup jobid with
  | none => (d, ⟨.jobUpdate, .noSuchJob⟩)
  | some job =>
      ({ d with jobs := d.jobs.replace jobid (job.update hosts) }, ⟨.jobUpdate, .success⟩)

/-- `urd::job_remove_handler`. -/
def jobRemoveHandler (jobid : UInt32) : Daemon × Response :=
  if jobid ∈ d.jobs then ({ d with jobs := d.jobs.erase jobid }, ⟨.jobUnregister, .success⟩)
  else (d, ⟨.jobUnregister, .noSuchJob⟩)

/-- `urd::process_add_handler`; the user id is not used. -/
def processAddHandler (jobid _uid gid pid : UInt32) : Daemon × Response :=
  match d.jobs.lookup jobid with
  | none => (d, ⟨.processRegister, .noSuchJob⟩)
  | some job =>
      ({ d with jobs := d.jobs.replace jobid (job.addProcess pid gid) },
       ⟨.processRegister, .success⟩)

/-- `urd::process_remove_handler`. -/
def processRemoveHandler (jobid _uid gid pid : UInt32) : Daemon × Response :=
  match d.jobs.lookup jobid with
  | none => (d, ⟨.processUnregister, .noSuchJob⟩)
  | some job =>
      let (job, removed) := job.findAndRemoveProcess pid gid
      ({ d with jobs := d.jobs.replace jobid job },
       ⟨.processUnregister, if removed then .success else .noSuchProcess⟩)

/-- `urd::namespace_register_handler` with `urd::create_namespace`. -/
def namespaceRegisterHandler (env : SessionEnv) (nsid : String) (type : BackendType)
    (track : Bool) (mount : String) (quota : Int32) : Daemon × Response :=
  if nsid ∈ d.namespaceMgr then (d, ⟨.backendRegister, .namespaceExists⟩)
  else
    match env.createFrom type nsid track mount quota.toUInt32 with
    | some b =>
        ({ d with namespaceMgr := Table.emplace nsid b d.namespaceMgr },
         ⟨.backendRegister, .success⟩)
    | none => (d, ⟨.backendRegister, .badArgs⟩)

/-- `urd::namespace_remove_handler`. -/
def namespaceRemoveHandler (nsid : String) : Daemon × Response :=
  if nsid ∈ d.namespaceMgr then
    ({ d with namespaceMgr := AList.erase nsid d.namespaceMgr }, ⟨.backendUnregister, .success⟩)
  else (d, ⟨.backendUnregister, .noSuchNamespace⟩)

/-- `urd::iotask_status_handler`. -/
def iotaskStatusHandler (tid : IotaskId) : Daemon × Response :=
  match d.taskMgr.find tid with
  | none => (d, ⟨.iotaskStatus ⟨.undefined, .success, 0, 0, 0⟩, .noSuchTask⟩)
  | some ti =>
      (if ti.status = .finished ∨ ti.status = .finishedWithError then
          { d with taskMgr := (d.taskMgr.erase tid).1 }
        else d,
       ⟨.iotaskStatus ti.stats, .success⟩)

/-- `urd::global_status_handler`. -/
def globalStatusHandler (env : SessionEnv) : Except Fault (Daemon × Response) := do
  let stats ← d.taskMgr.globalStats
  return (d, ⟨.globalStatus (UInt32.ofNat stats.runningTasks) (UInt32.ofNat stats.pendingTasks)
    env.eta, .success⟩)

theorem jobRegisterHandler_fields (jobid : UInt32) (hosts : List String) :
    (d.jobRegisterHandler jobid hosts).2.fields = .jobRegister := by
  unfold jobRegisterHandler
  split <;> rfl

theorem jobUpdateHandler_fields (jobid : UInt32) (hosts : List String) :
    (d.jobUpdateHandler jobid hosts).2.fields = .jobUpdate := by
  unfold jobUpdateHandler
  split <;> rfl

theorem jobRemoveHandler_fields (jobid : UInt32) :
    (d.jobRemoveHandler jobid).2.fields = .jobUnregister := by
  unfold jobRemoveHandler
  split <;> rfl

theorem processAddHandler_fields (jobid uid gid pid : UInt32) :
    (d.processAddHandler jobid uid gid pid).2.fields = .processRegister := by
  unfold processAddHandler
  split <;> rfl

theorem processRemoveHandler_fields (jobid uid gid pid : UInt32) :
    (d.processRemoveHandler jobid uid gid pid).2.fields = .processUnregister := by
  unfold processRemoveHandler
  split <;> rfl

theorem namespaceRegisterHandler_fields (env : SessionEnv) (nsid : String) (type : BackendType)
    (track : Bool) (mount : String) (quota : Int32) :
    (d.namespaceRegisterHandler env nsid type track mount quota).2.fields = .backendRegister := by
  unfold namespaceRegisterHandler
  split
  · rfl
  · split <;> rfl

theorem namespaceRemoveHandler_fields (nsid : String) :
    (d.namespaceRemoveHandler nsid).2.fields = .backendUnregister := by
  unfold namespaceRemoveHandler
  split <;> rfl

theorem iotaskStatusHandler_fields (tid : IotaskId) :
    ∃ stats, (d.iotaskStatusHandler tid).2.fields = .iotaskStatus stats := by
  unfold iotaskStatusHandler
  split <;> exact ⟨_, rfl⟩

/-- The call of a handler.  Each casts the request to the class it expects. -/
def call (env : SessionEnv) : Handler → Request → Except Fault (Daemon × Response)
  | .iotaskCreateHandler, .iotaskCreate type src dst =>
      if env.sizeThrows && d.toUrd.asksFiles env.credentials type src dst then .error .exception
      else do
        let (u, rv, tid) ← d.toUrd.iotaskCreateHandler env.credentials type src dst env.size
        return ({ d with toUrd := u }, ⟨.iotaskCreate tid, rv⟩)
  | .iotaskStatusHandler, .iotaskStatus tid => .ok (d.iotaskStatusHandler tid)
  | .pingHandler, _ => .ok (d, ⟨.ping, .success⟩)
  | .jobRegisterHandler, .jobRegister jobid hosts => .ok (d.jobRegisterHandler jobid hosts)
  | .jobUpdateHandler, .jobUpdate jobid hosts => .ok (d.jobUpdateHandler jobid hosts)
  | .jobRemoveHandler, .jobUnregister jobid => .ok (d.jobRemoveHandler jobid)
  | .processAddHandler, .processRegister jobid uid gid pid =>
      .ok (d.processAddHandler jobid uid gid pid)
  | .processRemoveHandler, .processUnregister jobid uid gid pid =>
      .ok (d.processRemoveHandler jobid uid gid pid)
  | .namespaceRegisterHandler, .backendRegister nsid type track mount quota =>
      .ok (d.namespaceRegisterHandler env nsid type track mount quota)
  | .namespaceRemoveHandler, .backendUnregister nsid => .ok (d.namespaceRemoveHandler nsid)
  | .globalStatusHandler, _ => d.globalStatusHandler env
  | .commandHandler, .command cmd =>
      if d.toUrd.shutdownThrows env.isEmptyThrows cmd then .error .exception
      else
        let (u, rv) := d.toUrd.commandHandler env.isEmpty cmd
        .ok ({ d with toUrd := u }, ⟨.command, rv⟩)
  | .unknownRequestHandler, _ => .ok (d, ⟨.badRequest, .badRequest⟩)
  | _, _ => .error .badCast

end Daemon

/-! ### Connections -/

/-- The sockets on which the daemon accepts connections. -/
inductive Endpoint where
  | control
  | global
deriving DecidableEq, Repr

/-- `listener::register_endpoint`: every endpoint is given the table that `register_callback`
fills. -/
def Endpoint.dispatcher : Endpoint → List (RequestType × Handler)
  | _ => callbacks

/-- How a session ends: no whole request has arrived, an exception leaves the completion handler,
the process stops, or a response is written. -/
inductive SessionEnd where
  | noRequest
  | raised
  | fault (f : Fault)
  | answered (resp : Response)
deriving DecidableEq, Repr

/-- How a session ends whose handler does not return: what it throws, nobody catches. -/
def SessionEnd.ofFault : Fault → SessionEnd
  | .exception => .raised
  | f => .fault f

/-- A session that is over: the handler that was called, the daemon, and how it ended. -/
structure SessionResult where
  invoked : Option Handler
  daemon : Daemon
  ending : SessionEnd

/-- `message::decode_header`: the length of the body. -/
def decodeHeader (e : Endian) (header : List UInt8) : ℕ :=
  (ntohll e (UInt64.ofNat (e.load header))).toNat

/-- `session::do_read_request` and the reading part of `do_read_request_body`: the body of the
request that `bytes` begins with.  The buffer is resized before anything else is looked at. -/
def doReadRequest (env : SessionEnv) (bytes : List UInt8) : Except SessionEnd (List UInt8) :=
  if bytes.length < NORNS_RPC_HEADER_LENGTH then .error .noRequest
  else
    let length := decodeHeader env.endian (bytes.take NORNS_RPC_HEADER_LENGTH)
    if !env.canHold length then .error .raised
    else if length = 0 ∨ bytes.length - NORNS_RPC_HEADER_LENGTH < length then .error .noRequest
    else .ok ((bytes.drop NORNS_RPC_HEADER_LENGTH).take length)

/-- The handler at the end of `do_read_request_body`, with `dispatch_table::invoke`, which throws if
there is no callback. -/
def handleBody (env : SessionEnv) (endpoint : Endpoint) (d : Daemon) (body : List UInt8) :
    SessionResult :=
  match createFromBuffer env.parse body with
  | .error f => ⟨none, d, .fault f⟩
  | .ok req =>
      match endpoint.dispatcher.lookup req.type with
      | none => ⟨none, d, .raised⟩
      | some h =>
          match d.call env h req with
          | .error f => ⟨some h, d, .ofFault f⟩
          | .ok (d', resp) => ⟨some h, d', .answered resp⟩

/-- A session on a connection to `endpoint` on which `bytes` arrive. -/
def session (env : SessionEnv) (endpoint : Endpoint) (d : Daemon) (bytes : List UInt8) :
    SessionResult :=
  match doReadRequest env bytes with
  | .error ending => ⟨none, d, ending⟩
  | .ok body => handleBody env endpoint d body

/-! ### Requests and their handlers -/

/-- The handler of the request does not throw: the size of the source of a task can be found, and a
shutdown can ask the backends. -/
def HandlerReturns (env : SessionEnv) (d : Daemon) : Request → Prop
  | .iotaskCreate type src dst =>
      (env.sizeThrows && d.toUrd.asksFiles env.credentials type src dst) = false
  | .command cmd => d.toUrd.shutdownThrows env.isEmptyThrows cmd = false
  | _ => True

/-- The response has the type that matches the handler. -/
def Response.Matches (resp : Response) (h : Handler) : Prop :=
  (h = .unknownRequestHandler → resp.toMsg.type = BAD_REQUEST) ∧
  ∀ T : MsgType, T.handler = some h → resp.toMsg.type = T.number

/-- Decoder, registration and dispatcher agree on the body of a request: the right handler is
called, nothing is thrown, and the response, if there is one, matches the handler. -/
def DispatchAgrees (env : SessionEnv) (endpoint : Endpoint) (d : Daemon) (body : List UInt8) :
    Prop :=
  ∃ h, (handleBody env endpoint d body).invoked = some h ∧
    RightHandler ((env.parse body).map (·.type)) h ∧
    (handleBody env endpoint d body).ending ≠ .raised ∧
    ∀ resp, (handleBody env endpoint d body).ending = .answered resp → resp.Matches h

/-- The handler that is called is the one that the body leads to. -/
theorem invoked_iff {env : SessionEnv} {endpoint : Endpoint} {d : Daemon} {body : List UInt8}
    {h : Handler} :
    (handleBody env endpoint d body).invoked = some h ↔ handlerOf env.parse body = .ok h := by
  unfold handleBody handlerOf dispatch callbackFor Endpoint.dispatcher
  cases createFromBuffer env.parse body with
  | error f => simp
  | ok req =>
    dsimp only
    cases callbacks.lookup req.type with
    | none => simp
    | some h' =>
      dsimp only
      cases d.call env h' req <;> simp

theorem TaskManager.makeTask_ne_exception (tm : TaskManager) (type : IotaskType) (n : ℕ)
    (tx : Option Transferor) : tm.makeTask type n tx ≠ .error .exception := by
  cases type with
  | remove =>
    simp only [TaskManager.makeTask]
    split_ifs <;> simp
  | _ => simp [TaskManager.makeTask]

theorem TaskManager.createLocal_ne_exception (tm : TaskManager) (type : IotaskType)
    (auth : Credentials) (backendPtrs : List Backend) (rinfoPtrs : List ResourceInfo)
    (size : UInt64) :
    tm.createLocalInitiatedTask type auth backendPtrs rinfoPtrs size ≠ .error .exception := by
  unfold TaskManager.createLocalInitiatedTask
  by_cases hfree : tm.nextId ∈ tm.taskInfo
  · simp [hfree]
  rw [if_neg hfree]
  by_cases hlen : backendPtrs.length = 1 ∨ backendPtrs.length = 2
  swap
  · simp [hlen]
  rw [if_neg (not_not.mpr hlen)]
  cases rinfoPtrs with
  | nil => simp
  | cons src rest =>
    dsimp only
    by_cases htx : type = .copy ∨ type = .move
    swap
    · rw [if_neg htx]
      exact TaskManager.makeTask_ne_exception _ _ _ _
    rw [if_pos htx]
    by_cases hlen2 : backendPtrs.length = 2
    swap
    · simp [hlen2]
    rw [if_neg (not_not.mpr hlen2)]
    cases rest with
    | nil => simp
    | cons dst rest =>
      dsimp only
      cases tm.transferorRegistry.get src.type dst.type with
      | none => simp
      | some tx =>
        dsimp only
        split_ifs
        all_goals first | exact TaskManager.makeTask_ne_exception _ _ _ _ | simp

/-- A submission stops, but does not throw. -/
theorem Urd.iotaskCreateHandler_ne_exception (u : Urd) (creds : Option Credentials)
    (type : IotaskType) (src dst : Option ResourceInfo) (size : UInt64) :
    u.iotaskCreateHandler creds type src dst size ≠ .error .exception := by
  unfold Urd.iotaskCreateHandler
  split_ifs
  · simp
  cases creds with
  | none => simp
  | some auth =>
    dsimp only
    cases NamespaceManager.findAll u.namespaceMgr (namespaceIds (rinfoPtrs src dst)) with
    | none => simp
    | some backendPtrs =>
      have hcreate := u.taskMgr.createLocal_ne_exception type auth backendPtrs (rinfoPtrs src dst)
        size
      dsimp only
      cases hr : u.taskMgr.createLocalInitiatedTask type auth backendPtrs (rinfoPtrs src dst)
          size with
      | error f =>
        rw [hr] at hcreate
        have hf : f ≠ .exception := fun h => hcreate (by rw [h])
        cases type <;> simp [hf]
      | ok r =>
        obtain ⟨tm, rv, t⟩ := r
        cases type <;> cases rv <;> cases t <;> simp

/-- What a handler throws comes from these two. -/
theorem call_exception_iff {env : SessionEnv} {d : Daemon} {req : Request} {h : Handler}
    (hlookup : callbacks.lookup req.type = some h) :
    d.call env h req = .error .exception ↔ ¬ HandlerReturns env d req := by
  cases req with
  | iotaskCreate type src dst =>
    obtain rfl : h = .iotaskCreateHandler := (Option.some.inj hlookup).symm
    simp only [Daemon.call, HandlerReturns, Bool.not_eq_false]
    split_ifs with hthrow
    · simp [hthrow]
    · have hne := d.toUrd.iotaskCreateHandler_ne_exception env.credentials type src dst env.size
      cases hr : d.toUrd.iotaskCreateHandler env.credentials type src dst env.size with
      | error f =>
        rw [hr] at hne
        exact iff_of_false (fun heq => hne (by rw [Except.error.inj heq])) hthrow
      | ok r => exact iff_of_false nofun hthrow
  | command cmd =>
    obtain rfl : h = .commandHandler := (Option.some.inj hlookup).symm
    simp only [Daemon.call, HandlerReturns, Bool.not_eq_false]
    split_ifs with hthrow <;> simp [hthrow]
  | globalStatus =>
    obtain rfl : h = .globalStatusHandler := (Option.some.inj hlookup).symm
    simp only [Daemon.call, Daemon.globalStatusHandler, TaskManager.globalStats, HandlerReturns,
      not_true_eq_false, iff_false]
    split_ifs <;> nofun
  | backendUpdate => cases hlookup
  | _ =>
    cases hlookup
    simp [Daemon.call, HandlerReturns]

/-- The handlers of two message types differ. -/
theorem MsgType.handler_inj {T T' : MsgType} {h : Handler} (hT : T.handler = some h)
    (hT' : T'.handler = some h) : T' = T := by
  cases T <;> cases hT <;> cases T' <;> first | rfl | cases hT'

theorem Response.toMsg_type (resp : Response) : resp.toMsg.type = resp.fields.encodeType := by
  unfold Response.toMsg ResponseFields.packExtraInfo
  split <;> rfl

/-- The response of the handler for a message type. -/
theorem Response.Matches.of_type {resp : Response} {h : Handler} (T : MsgType)
    (hT : T.handler = some h) (hnumber : resp.fields.encodeType = T.number) : resp.Matches h := by
  refine ⟨?_, fun T' hT' => ?_⟩
  · rintro rfl
    cases T <;> cases hT
  · rw [MsgType.handler_inj hT hT', resp.toMsg_type, hnumber]

/-- A handler answers with its own type of response. -/
theorem matches_of_call {env : SessionEnv} {d d' : Daemon} {req : Request} {h : Handler}
    {resp : Response} (hlookup : callbacks.lookup req.type = some h)
    (hcall : d.call env h req = .ok (d', resp)) : resp.Matches h := by
  -- the response of a handler that returns a pair
  have hpair : ∀ {r : Daemon × Response} {fields : ResponseFields}, r.2.fields = fields →
      Except.ok (ε := Fault) r = .ok (d', resp) → resp.fields = fields := by
    rintro r fields hfields hr
    rw [← hfields, Except.ok.inj hr]
  cases req <;> cases hlookup
  case iotaskCreate type src dst =>
    simp only [Daemon.call] at hcall
    split_ifs at hcall
    cases hr : d.toUrd.iotaskCreateHandler env.credentials type src dst env.size with
    | error f =>
      rw [hr] at hcall
      cases hcall
    | ok r =>
      rw [hr] at hcall
      cases hcall
      exact .of_type .iotaskSubmit rfl rfl
  case iotaskStatus tid =>
    obtain ⟨stats, hfields⟩ := d.iotaskStatusHandler_fields tid
    exact .of_type .iotaskStatus rfl (by rw [hpair hfields hcall]; rfl)
  case globalStatus =>
    simp only [Daemon.call, Daemon.globalStatusHandler] at hcall
    cases hr : d.taskMgr.globalStats with
    | error f =>
      rw [hr] at hcall
      cases hcall
    | ok stats =>
      rw [hr] at hcall
      cases hcall
      exact .of_type .globalStatus rfl rfl
  case command cmd =>
    simp only [Daemon.call] at hcall
    split_ifs at hcall
    cases hcall
    exact .of_type .ctlCommand rfl rfl
  case ping => exact .of_type .ping rfl (by rw [hpair rfl hcall]; rfl)
  case badRequest =>
    cases hcall
    exact ⟨fun _ => rfl, fun T hT => by cases T <;> cases hT⟩
  case jobRegister =>
    exact .of_type .jobRegister rfl (by rw [hpair (d.jobRegisterHandler_fields _ _) hcall]; rfl)
  case jobUpdate =>
    exact .of_type .jobUpdate rfl (by rw [hpair (d.jobUpdateHandler_fields _ _) hcall]; rfl)
  case jobUnregister =>
    exact .of_type .jobUnregister rfl (by rw [hpair (d.jobRemoveHandler_fields _) hcall]; rfl)
  case processRegister =>
    exact .of_type .processAdd rfl (by rw [hpair (d.processAddHandler_fields _ _ _ _) hcall]; rfl)
  case processUnregister =>
    exact .of_type .processRemove rfl
      (by rw [hpair (d.processRemoveHandler_fields _ _ _ _) hcall]; rfl)
  case backendRegister =>
    exact .of_type .namespaceRegister rfl
      (by rw [hpair (d.namespaceRegisterHandler_fields _ _ _ _ _ _) hcall]; rfl)
  case backendUnregister =>
    exact .of_type .namespaceUnregister rfl
      (by rw [hpair (d.namespaceRemoveHandler_fields _) hcall]; rfl)

/-- A body whose handler is called: nothing is thrown exactly if the handler returns. -/
theorem handleBody_of_handler {env : SessionEnv} (endpoint : Endpoint) (d : Daemon)
    {body : List UInt8} {h : Handler} (hof : handlerOf env.parse body = .ok h) :
    ∃ req, createFromBuffer env.parse body = .ok req ∧
      ((handleBody env endpoint d body).ending ≠ .raised ↔ HandlerReturns env d req) ∧
      ∀ resp, (handleBody env endpoint d body).ending = .answered resp → resp.Matches h := by
  unfold handlerOf dispatch callbackFor at hof
  cases hreq : createFromBuffer env.parse body with
  | error f =>
    rw [hreq] at hof
    cases hof
  | ok req =>
    rw [hreq] at hof
    dsimp only at hof
    cases hlookup : callbacks.lookup req.type with
    | none =>
      rw [hlookup] at hof
      cases hof
    | some h' =>
      rw [hlookup] at hof
      obtain rfl := Except.ok.inj hof
      have hexc : d.call env h' req = .error .exception ↔ ¬ HandlerReturns env d req :=
        call_exception_iff hlookup
      have hdispatcher : endpoint.dispatcher.lookup req.type = some h' := hlookup
      refine ⟨req, rfl, ?_⟩
      unfold handleBody
      rw [hreq]
      dsimp only
      rw [hdispatcher]
      dsimp only
      cases hcall : d.call env h' req with
      | error f =>
        rw [hcall] at hexc
        cases f <;> simp [SessionEnd.ofFault] at hexc ⊢ <;> exact hexc
      | ok r =>
        obtain ⟨d', resp⟩ := r
        rw [hcall] at hexc
        refine ⟨iff_of_true nofun (by simpa using hexc), fun resp' hresp => ?_⟩
        obtain rfl := SessionEnd.answered.inj hresp
        exact matches_of_call hlookup hcall

/-- The bytes of a `NAMESPACE_REGISTER` for `tmp0` without a backend. -/
def registerWithoutBackend : List UInt8 :=
  [0x08, 0x09, 0x32, 0x06, 0x0a, 0x04, 0x74, 0x6d, 0x70, 0x30]

/-- The environment of a session in which the parser understands these bytes. -/
def registerEnv : SessionEnv where
  endian := .little
  parse b :=
    if b = registerWithoutBackend then
      some ⟨.namespaceRegister, none, none, none, none, some ⟨"tmp0", none⟩, none⟩
    else none
  credentials := some ⟨1, 1000, 1000⟩
  size := 0
  sizeThrows := false
  createFrom _ _ _ _ _ := none
  isEmpty _ := true
  isEmptyThrows _ := false
  eta := 0
  canHold _ := true

/-- The handlers of the control API. -/
def Handler.administrative : Handler → Bool
  | jobRegisterHandler | jobUpdateHandler | jobRemoveHandler => true
  | processAddHandler | processRemoveHandler => true
  | namespaceRegisterHandler | namespaceRemoveHandler => true
  | commandHandler => true
  | _ => false

/-- The requests that go to these handlers. -/
def RequestType.administrative : RequestType → Bool
  | jobRegister | jobUpdate | jobUnregister => true
  | processRegister | processUnregister => true
  | backendRegister | backendUnregister => true
  | command => true
  | _ => false

/-- The tables of jobs and namespaces and the flag are the same. -/
def Daemon.SameControl (d d' : Daemon) : Prop :=
  d'.jobs = d.jobs ∧ d'.namespaceMgr = d.namespaceMgr ∧ d'.isPaused = d.isPaused

/-- The bytes begin with a whole administrative request. -/
def CarriesAdministrative (env : SessionEnv) (bytes : List UInt8) : Prop :=
  ∃ body req, doReadRequest env bytes = .ok body ∧ createFromBuffer env.parse body = .ok req ∧
    req.type.administrative = true

/-- What a session may do to the daemon that has not the privileges of the control socket: it
calls no administrative handler and leaves the tables and the flag alone. -/
def SessionResult.Unprivileged (d : Daemon) (r : SessionResult) : Prop :=
  (∀ h, r.invoked = some h → h.administrative = false) ∧ d.SameControl r.daemon

theorem lookup_callbacks {type : RequestType} {h : Handler}
    (hl : callbacks.lookup type = some h) : h.administrative = type.administrative := by
  cases type <;> cases hl <;> rfl

/-- Every administrative request has a handler. -/
theorem lookup_callbacks_administrative {type : RequestType}
    (htype : type.administrative = true) : ∃ h, callbacks.lookup type = some h := by
  cases type <;> first | exact ⟨_, rfl⟩ | cases htype

theorem Daemon.SameControl.refl (d : Daemon) : d.SameControl d := ⟨rfl, rfl, rfl⟩

theorem Daemon.sameControl_iotaskStatusHandler (d : Daemon) (tid : IotaskId) :
    d.SameControl (d.iotaskStatusHandler tid).1 := by
  unfold Daemon.iotaskStatusHandler
  cases d.taskMgr.find tid with
  | none => exact .refl d
  | some ti =>
    dsimp only
    split_ifs
    · exact ⟨rfl, rfl, rfl⟩
    · exact .refl d

/-- The handlers of the user API. -/
theorem Daemon.sameControl_call {d d' : Daemon} {env : SessionEnv} {h : Handler} {req : Request}
    {resp : Response} (huser : h.administrative = false)
    (hcall : d.call env h req = .ok (d', resp)) : d.SameControl d' := by
  cases h with
  | iotaskCreateHandler =>
    cases req with
    | iotaskCreate type src dst =>
      simp only [Daemon.call] at hcall
      split_ifs at hcall
      cases hcreate : d.toUrd.iotaskCreateHandler env.credentials type src dst env.size with
      | error f =>
        rw [hcreate] at hcall
        cases hcall
      | ok r =>
        obtain ⟨u, rv, tid⟩ := r
        rw [hcreate] at hcall
        cases hcall
        obtain ⟨hpaused, hns⟩ := Urd.iotaskCreateHandler_frame hcreate
        exact ⟨rfl, hns, hpaused⟩
    | _ => cases hcall
  | iotaskStatusHandler =>
    cases req with
    | iotaskStatus tid =>
      have hsame := d.sameControl_iotaskStatusHandler tid
      rw [Except.ok.inj hcall] at hsame
      exact hsame
    | _ => cases hcall
  | pingHandler =>
    cases hcall
    exact .refl d
  | globalStatusHandler =>
    simp only [Daemon.call, Daemon.globalStatusHandler] at hcall
    cases hstats : d.taskMgr.globalStats with
    | error f =>
      rw [hstats] at hcall
      cases hcall
    | ok stats =>
      rw [hstats] at hcall
      cases hcall
      exact .refl d
  | unknownRequestHandler =>
    cases hcall
    exact .refl d
  | _ => cases huser

theorem SessionResult.Unprivileged.of_none (d : Daemon) (ending : SessionEnd) :
    (SessionResult.mk none d ending).Unprivileged d := by
  refine ⟨fun h hsome => ?_, .refl d⟩
  cases hsome

/-- A session that reads no administrative request. -/
theorem unprivileged_of_not_carries {env : SessionEnv} {endpoint : Endpoint} {d : Daemon}
    {bytes : List UInt8} (h : ¬ CarriesAdministrative env bytes) :
    (session env endpoint d bytes).Unprivileged d := by
  unfold session
  cases hread : doReadRequest env bytes with
  | error ending => exact .of_none d _
  | ok body =>
    dsimp only
    unfold handleBody
    cases hreq : createFromBuffer env.parse body with
    | error f => exact .of_none d _
    | ok req =>
      have huser : req.type.administrative = false := by
        by_contra hadmin
        exact h ⟨body, req, hread, hreq, by simpa using hadmin⟩
      dsimp only
      cases hlookup : endpoint.dispatcher.lookup req.type with
      | none => exact .of_none d _
      | some hd =>
        have hadmin : hd.administrative = false := (lookup_callbacks hlookup).trans huser
        dsimp only
        cases hcall : d.call env hd req with
        | error f =>
          refine ⟨fun h' hsome => ?_, .refl d⟩
          cases hsome
          exact hadmin
        | ok r =>
          obtain ⟨d', resp⟩ := r
          refine ⟨fun h' hsome => ?_, Daemon.sameControl_call hadmin hcall⟩
          cases hsome
          exact hadmin

/-- An administrative request reaches its handler through either socket. -/
theorem invoked_of_carries {env : SessionEnv} (endpoint : Endpoint) (d : Daemon)
    {bytes : List UInt8} (h : CarriesAdministrative env bytes) :
    ∃ hd, (session env endpoint d bytes).invoked = some hd ∧ hd.administrative = true := by
  obtain ⟨body, req, hread, hreq, hadmin⟩ := h
  obtain ⟨hd, hlookup⟩ := lookup_callbacks_administrative hadmin
  have hlookup' : endpoint.dispatcher.lookup req.type = some hd := hlookup
  refine ⟨hd, ?_, (lookup_callbacks hlookup).trans hadmin⟩
  simp only [session, handleBody, hread, hreq, hlookup']
  cases d.call env hd req <;> rfl

/-- **Privilege separation.**  A connection to the global socket is harmless exactly if it does not
carry an administrative request. -/
theorem privilege_separation_iff (env : SessionEnv) (d : Daemon) (bytes : List UInt8) :
    (session env .global d bytes).Unprivileged d ↔ ¬ CarriesAdministrative env bytes := by
  refine ⟨fun hunpriv hcarries => ?_, unprivileged_of_not_carries⟩
  obtain ⟨hd, hinvoked, hadmin⟩ := invoked_of_carries .global d hcarries
  rw [hunpriv.1 hd hinvoked] at hadmin
  cases hadmin

/-- The command PAUSE_LISTEN with its header, as the client library sends it. -/
def pauseBytes : List UInt8 :=
  [0, 0, 0, 0, 0, 0, 0, 8, 0x08, 0xe9, 0x07, 0x3a, 0x03, 0x08, 0xe9, 0x07]

/-- The environment of a session in which the parser understands that command. -/
def pauseEnv : SessionEnv where
  endian := .little
  parse b :=
    if b = pauseBytes.drop 8 then some ⟨.ctlCommand, none, none, none, none, none, some 1001⟩
    else none
  credentials := some ⟨1, 1000, 1000⟩
  size := 0
  sizeThrows := false
  createFrom _ _ _ _ _ := none
  isEmpty _ := true
  isEmptyThrows _ := false
  eta := 0
  canHold _ := true

/-- Any user can pause the daemon. -/
theorem global_socket_pauses :
    ∃ d : Daemon, d.isPaused = false ∧
      (session pauseEnv .global d pauseBytes).invoked = some .commandHandler ∧
      (session pauseEnv .global d pauseBytes).daemon.isPaused = true ∧
      ¬ (session pauseEnv .global d pauseBytes).Unprivileged d := by
  refine ⟨⟨Urd.withNamespace, ∅⟩, rfl, by decide, by decide, fun hunpriv => ?_⟩
  exact absurd hunpriv.2.2.2 (by decide)

/-! ### Lengths that a client announces -/

/-- What `std::vector` raises. -/
inductive VectorError where
  | lengthError
  | badAlloc
deriving DecidableEq, Repr

/-- `std::vector<uint8_t>::max_size()`. -/
def VECTOR_MAX_SIZE : ℕ := 2 ^ 63 - 1

/-- `resize(n)` of an empty `std::vector<uint8_t>`: its size, or an exception. -/
def vectorResize (alloc : ℕ → Bool) (n : ℕ) : Except VectorError ℕ :=
  if n = 0 then .ok 0
  else if VECTOR_MAX_SIZE < n then .error .lengthError
  else if !alloc n then .error .badAlloc
  else .ok n

/-- The part of `message::decode_header` that resizes the buffer of the body. -/
def decodeHeaderResize (alloc : ℕ → Bool) (e : Endian) (header : List UInt8) :
    Except VectorError ℕ :=
  vectorResize alloc (decodeHeader e header)

/-- The conversion of a `std::size_t` to the parameter `int size` of `create_from_buffer`. -/
def intOfSize (n : ℕ) : ℤ := Int.bmod n (2 ^ 32)

/-- The environment of a session whose buffers are vectors. -/
def SessionEnv.withVectors (env : SessionEnv) (alloc : ℕ → Bool) : SessionEnv :=
  { env with canHold := fun n => (vectorResize alloc n).isOk }

/-- A request that announces the length `L` is handled: the buffer gets that size, no exception
leaves a handler, and the parser is given the bytes that have arrived and their number. -/
structure LengthHandled (env : SessionEnv) (alloc : ℕ → Bool) (L : UInt64) : Prop where
  sized : decodeHeaderResize alloc env.endian (header env.endian L.toNat) = .ok L.toNat
  quiet : ∀ rest, doReadRequest (env.withVectors alloc) (header env.endian L.toNat ++ rest) ≠
    .error .raised
  passed : ∀ rest body,
    doReadRequest (env.withVectors alloc) (header env.endian L.toNat ++ rest) = .ok body →
      body = rest.take L.toNat ∧ body.length = L.toNat ∧ intOfSize body.length = L.toNat

theorem decodeHeader_header (e : Endian) {length : ℕ} (h : length < 2 ^ 64) :
    decodeHeader e (header e length) = length := by
  have hlen : (header e length).length = 8 := length_header e length
  rw [decodeHeader, ntohll_load e _ hlen, header_eq e length h]
  rw [ofBytesBE, bytesBE, List.reverse_reverse]
  exact ofBytesLE_bytesLE NORNS_RPC_HEADER_LENGTH length h

/-- `do_read_request` of a header and what follows it. -/
theorem doReadRequest_header (env : SessionEnv) {length : ℕ} (h : length < 2 ^ 64)
    (rest : List UInt8) :
    doReadRequest env (header env.endian length ++ rest) =
      if !env.canHold length then .error .raised
      else if length = 0 ∨ rest.length < length then .error .noRequest
      else .ok (rest.take length) := by
  have hlen := length_header env.endian length
  unfold doReadRequest
  rw [if_neg (by rw [List.length_append, hlen]; omega), List.take_left' hlen,
    List.drop_left' hlen, decodeHeader_header _ h, List.length_append, hlen,
    Nat.add_sub_cancel_left]

theorem intOfSize_eq_iff {n : ℕ} (h : n < 2 ^ 64) : intOfSize n = n ↔ n < 2 ^ 31 := by
  unfold intOfSize
  constructor
  · intro heq
    have hlt : Int.bmod n (2 ^ 32) < (2 ^ 32 + 1) / 2 := Int.bmod_lt (by decide)
    omega
  · intro hlt
    exact Int.bmod_eq_of_le (by omega) (by omega)

/-- A length that the vector cannot hold. -/
theorem not_handled_of_error {env : SessionEnv} {alloc : ℕ → Bool} {L : UInt64} {e : VectorError}
    (h : vectorResize alloc L.toNat = .error e) : ¬ LengthHandled env alloc L := by
  intro hhandled
  have hsized := hhandled.sized
  rw [decodeHeaderResize, decodeHeader_header _ L.toNat_lt, h] at hsized
  cases hsized

/-- A length that an `int` cannot hold. -/
theorem not_handled_of_large {env : SessionEnv} {alloc : ℕ → Bool} {L : UInt64}
    (h : vectorResize alloc L.toNat = .ok L.toNat) (hlarge : 2 ^ 31 ≤ L.toNat) :
    ¬ LengthHandled env alloc L := by
  intro hhandled
  have hread := doReadRequest_header (env.withVectors alloc) L.toNat_lt
    (List.replicate L.toNat 0)
  have hcan : (env.withVectors alloc).canHold L.toNat = true := by
    show (vectorResize alloc L.toNat).isOk = true
    rw [h]
    rfl
  rw [hcan, List.length_replicate, if_neg (by simp), if_neg (by omega)] at hread
  obtain ⟨-, hlen, hint⟩ := hhandled.passed _ _ hread
  rw [hlen, intOfSize_eq_iff L.toNat_lt] at hint
  omega

/-- **Lengths of requests**: a length is handled exactly if it is zero, or an `int` can hold it and
memory for it can be had. -/
theorem request_length_handled_iff (env : SessionEnv) (alloc : ℕ → Bool) (L : UInt64) :
    LengthHandled env alloc L ↔ L = 0 ∨ (L.toNat < 2 ^ 31 ∧ alloc L.toNat = true) := by
  constructor
  · intro hhandled
    by_cases hzero : L = 0
    · exact Or.inl hzero
    right
    have hne : L.toNat ≠ 0 := fun h => hzero (UInt64.toNat_inj.mp h)
    have halloc : alloc L.toNat = true := by
      by_contra hno
      have hno' : alloc L.toNat = false := by simpa using hno
      by_cases hmax : VECTOR_MAX_SIZE < L.toNat
      · exact not_handled_of_error (by rw [vectorResize, if_neg hne, if_pos hmax]) hhandled
      · exact not_handled_of_error
          (by rw [vectorResize, if_neg hne, if_neg hmax, hno']; rfl) hhandled
    refine ⟨?_, halloc⟩
    by_contra hlarge
    by_cases hmax : VECTOR_MAX_SIZE < L.toNat
    · exact not_handled_of_error (by rw [vectorResize, if_neg hne, if_pos hmax]) hhandled
    · refine not_handled_of_large ?_ (not_lt.mp hlarge) hhandled
      rw [vectorResize, if_neg hne, if_neg hmax, halloc]
      rfl
  · intro h
    have hresize : vectorResize alloc L.toNat = .ok L.toNat := by
      obtain rfl | ⟨hlt, halloc⟩ := h
      · rfl
      · unfold vectorResize VECTOR_MAX_SIZE
        rw [halloc, if_neg (show ¬ 2 ^ 63 - 1 < L.toNat by omega)]
        split_ifs with hzero
        · rw [hzero]
        · simp at *
        · rfl
    have hcan : (env.withVectors alloc).canHold L.toNat = true := by
      show (vectorResize alloc L.toNat).isOk = true
      rw [hresize]
      rfl
    have hlt : L.toNat < 2 ^ 31 := by
      obtain rfl | ⟨hlt, -⟩ := h
      · decide
      · exact hlt
    refine ⟨?_, fun rest => ?_, fun rest body hread => ?_⟩
    · rw [decodeHeaderResize, decodeHeader_header _ L.toNat_lt, hresize]
    · have hread := doReadRequest_header (env.withVectors alloc) L.toNat_lt rest
      rw [hcan, if_neg (by simp)] at hread
      intro hraised
      rw [show env.endian = (env.withVectors alloc).endian from rfl, hread] at hraised
      split_ifs at hraised
      cases hraised
    · have hheader := doReadRequest_header (env.withVectors alloc) L.toNat_lt rest
      rw [hcan, if_neg (by simp)] at hheader
      rw [show env.endian = (env.withVectors alloc).endian from rfl, hheader] at hread
      split_ifs at hread with hshort
      obtain rfl := Except.ok.inj hread
      have hlen : (rest.take L.toNat).length = L.toNat := by
        rw [List.length_take]
        omega
      exact ⟨rfl, hlen, by rw [hlen, intOfSize_eq_iff L.toNat_lt]; exact hlt⟩

/-- With all the memory of the world: the length 2^63 raises an exception, and 2^31 bytes are
parsed as a negative number of them. -/
theorem large_lengths_not_handled :
    decodeHeaderResize (fun _ => true) .little (header .little 0x8000000000000000) =
      .error .lengthError ∧
    ¬ LengthHandled pauseEnv (fun _ => true) 0x8000000000000000 ∧
    intOfSize 0x80000000 = -0x80000000 ∧
    ¬ LengthHandled pauseEnv (fun _ => true) 0x80000000 := by
  have hraises : vectorResize (fun _ => true) 0x8000000000000000 = .error .lengthError := by
    rw [vectorResize, if_neg (by decide), if_pos (by decide)]
  have hholds : vectorResize (fun _ => true) 0x80000000 = .ok 0x80000000 := by
    rw [vectorResize, if_neg (by decide), if_neg (by decide)]
    rfl
  refine ⟨?_, not_handled_of_error hraises, by decide, not_handled_of_large hholds (by decide)⟩
  rw [decodeHeaderResize, decodeHeader_header _ (by decide), hraises]

end Norns
