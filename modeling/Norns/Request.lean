import Norns.Resource

/-! # Requests: decoding and dispatch

The protobuf messages of `rpc/messages.proto` as they come out of the parser, their translation
into typed requests (`request::create_from_buffer`), and the handler that is registered for the
type of a request (`urd::init_event_handlers`).

A required field is a plain field, an optional one an `Option`; a request whose required fields
are missing, or whose type is not one of the enumeration, does not parse.  The parser itself is
generated code and appears as a parameter.

Several message types share an arm of the decoder and are told apart by optional sub-messages:
the arm of the three namespace messages looks at the presence of a backend, not at the type.
`handler_agrees_iff` gives the messages for which decoder and registration agree; what the handler
does is the subject of `Norns.Session`. -/

namespace Norns

open Lib

/-! ### Messages -/

/-- `Request.Type`; also the types of the responses, together with `BAD_REQUEST`. -/
inductive MsgType where
  | iotaskSubmit
  | iotaskStatus
  | ping
  | jobRegister
  | jobUpdate
  | jobUnregister
  | processAdd
  | processRemove
  | namespaceRegister
  | namespaceUpdate
  | namespaceUnregister
  | globalStatus
  | ctlCommand
deriving DecidableEq, Repr

structure MemoryRegionMsg where
  address : UInt64
  size : UInt32
deriving DecidableEq, Repr

structure PosixPathMsg where
  nsid : String
  hostname : Option String
  datapath : String
  isDirectory : Bool
deriving DecidableEq, Repr

structure ResourceMsg where
  type : UInt32
  buffer : Option MemoryRegionMsg
  path : Option PosixPathMsg
deriving DecidableEq, Repr

structure TaskMsg where
  taskid : UInt32
  optype : UInt32
  source : ResourceMsg
  destination : ResourceMsg
deriving DecidableEq, Repr

structure ProcessMsg where
  uid : Int64
  gid : Int64
  pid : Int64
deriving DecidableEq, Repr

structure BackendMsg where
  type : Int32
  track : Bool
  mount : String
  capacity : Int32
deriving DecidableEq, Repr

structure NamespaceMsg where
  nsid : String
  backend : Option BackendMsg
deriving DecidableEq, Repr

/-- `norns::rpc::Request`; of a job descriptor only the hosts are read. -/
structure RequestMsg where
  type : MsgType
  task : Option TaskMsg
  jobid : Option UInt32
  job : Option (List String)
  process : Option ProcessMsg
  nspace : Option NamespaceMsg
  command : Option UInt32
deriving DecidableEq, Repr

/-! ### Resource flags -/

def NORNS_PROCESS_MEMORY : UInt32 := 0x0100000
def NORNS_POSIX_PATH : UInt32 := 0x0200000
def NORNS_NULL_RESOURCE : UInt32 := 0x1000000
def R_LOCAL : UInt32 := 0x0000010
def R_REMOTE : UInt32 := 0x0000020
def R_SHARED : UInt32 := 0x0000040

/-- `type & flag`. -/
def ResourceMsg.has (res : ResourceMsg) (flag : UInt32) : Bool := res.type &&& flag ≠ 0

/-! ### Decoding of enumerations -/

def NORNS_IOTASK_COPY : UInt32 := 1
def NORNS_IOTASK_MOVE : UInt32 := 2
def NORNS_IOTASK_REMOVE : UInt32 := 3

/-- `decode_iotask_type`. -/
def decodeIotaskType (type : UInt32) : IotaskType :=
  if type = NORNS_IOTASK_COPY then .copy
  else if type = NORNS_IOTASK_MOVE then .move
  else if type = NORNS_IOTASK_REMOVE then .remove
  else .unknown

/-- `decode_backend_type`. -/
def decodeBackendType (type : UInt32) : BackendType :=
  if type = 0x10000001 then .nvml
  else if type = 0x10000002 then .lustre
  else if type = 0x10000003 then .echofs
  else if type = 0x10000004 then .posixFilesystem
  else .unknown

/-- `decode_command`. -/
def decodeCommand (type : UInt32) : CommandType :=
  if type = 1000 then .ping
  else if type = 1001 then .pauseListen
  else if type = 1002 then .resumeListen
  else if type = 1003 then .shutdown
  else .unknown

/-! ### Resources of a task -/

/-- `is_valid(Request_Task_Resource)`. -/
def ResourceMsg.isValid (res : ResourceMsg) : Bool :=
  if res.has NORNS_NULL_RESOURCE then true
  else if res.has NORNS_PROCESS_MEMORY then res.buffer.isSome
  else if res.has NORNS_POSIX_PATH then
    match res.path with
    | none => false
    | some path =>
        if !res.has (R_LOCAL ||| R_SHARED ||| R_REMOTE) then false
        else if res.has R_LOCAL && path.hostname.isSome then false
        else if res.has R_SHARED && path.hostname.isSome then false
        else if res.has R_REMOTE && path.hostname.isNone then false
        else true
  else false

/-- `is_valid(Request_Task)`. -/
def TaskMsg.isValid (task : TaskMsg) : Bool :=
  match decodeIotaskType task.optype with
  | .copy | .move | .remove => task.source.isValid && task.destination.isValid
  | _ => false

/-- What `create_from` makes of a resource message: the pointer it returns, and whether it read a
sub-message that is not there (which yields the default instance). -/
structure CreatedInfo where
  info : Option ResourceInfo
  absentRead : Bool
deriving DecidableEq, Repr

/-- `create_from`. -/
def ResourceMsg.createFrom (res : ResourceMsg) : Except Fault CreatedInfo :=
  if !res.isValid then .error .assertion
  else if res.has NORNS_PROCESS_MEMORY then
    let buffer := res.buffer.getD ⟨0, 0⟩
    .ok ⟨some (.memoryRegion buffer.address buffer.size.toUInt64), res.buffer.isNone⟩
  else if res.has NORNS_POSIX_PATH then
    let path := res.path.getD ⟨"", none, "", false⟩
    if res.has R_LOCAL then .ok ⟨some (.localPath path.nsid path.datapath), res.path.isNone⟩
    else if res.has R_SHARED then .ok ⟨some (.sharedPath path.nsid path.datapath), res.path.isNone⟩
    else if !res.has R_REMOTE then .error .assertion
    else .ok ⟨some (.remoteResource (path.hostname.getD "") path.nsid false path.datapath []),
      res.path.isNone⟩
  else if !res.has NORNS_NULL_RESOURCE then .error .assertion
  else .ok ⟨none, false⟩

/-! ### Typed requests -/

/-- The subclasses of `api::request`. -/
inductive Request where
  | iotaskCreate (type : IotaskType) (src dst : Option ResourceInfo)
  | iotaskStatus (tid : IotaskId)
  | globalStatus
  | command (cmd : CommandType)
  | ping
  | jobRegister (jobid : UInt32) (hosts : List String)
  | jobUpdate (jobid : UInt32) (hosts : List String)
  | jobUnregister (jobid : UInt32)
  | processRegister (jobid : UInt32) (uid gid pid : UInt32)
  | processUnregister (jobid : UInt32) (uid gid pid : UInt32)
  | backendRegister (nsid : String) (type : BackendType) (track : Bool) (mount : String)
      (quota : Int32)
  | backendUpdate (nsid : String) (type : BackendType) (track : Bool) (mount : String)
      (quota : Int32)
  | backendUnregister (nsid : String)
  | badRequest
deriving DecidableEq, Repr

/-- `api::request_type`. -/
inductive RequestType where
  | iotaskCreate
  | iotaskStatus
  | globalStatus
  | command
  | ping
  | jobRegister
  | jobUpdate
  | jobUnregister
  | processRegister
  | processUnregister
  | backendRegister
  | backendUpdate
  | backendUnregister
  | badRequest
deriving DecidableEq, Repr

/-- `request::type()`. -/
def Request.type : Request → RequestType
  | iotaskCreate _ _ _ => .iotaskCreate
  | iotaskStatus _ => .iotaskStatus
  | globalStatus => .globalStatus
  | command _ => .command
  | ping => .ping
  | jobRegister _ _ => .jobRegister
  | jobUpdate _ _ => .jobUpdate
  | jobUnregister _ => .jobUnregister
  | processRegister _ _ _ _ => .processRegister
  | processUnregister _ _ _ _ => .processUnregister
  | backendRegister _ _ _ _ _ => .backendRegister
  | backendUpdate _ _ _ _ _ => .backendUpdate
  | backendUnregister _ => .backendUnregister
  | badRequest => .badRequest

/-- The conversion of an `int64` field to a 32-bit id. -/
def idOfInt64 (n : Int64) : UInt32 := n.toUInt64.toUInt32

/-- The arm of `create_from_buffer` for `IOTASK_SUBMIT`. -/
def decodeSubmit (task : TaskMsg) : Except Fault Request :=
  if task.isValid then do
    let src ← task.source.createFrom
    let dst ← task.destination.createFrom
    return .iotaskCreate (decodeIotaskType task.optype) src.info dst.info
  else return .badRequest

/-- The arm for the three namespace messages. -/
def decodeNamespace (type : MsgType) (nspace : NamespaceMsg) : Request :=
  match nspace.backend with
  | some b =>
      let btype := decodeBackendType b.type.toUInt32
      if btype = .unknown then .badRequest
      else if type = .namespaceRegister then
        .backendRegister nspace.nsid btype b.track b.mount b.capacity
      else .backendUpdate nspace.nsid btype b.track b.mount b.capacity
  | none => .backendUnregister nspace.nsid

/-- The `switch` of `request::create_from_buffer`. -/
def decodeRequest (req : RequestMsg) : Except Fault Request :=
  match req.type with
  | .iotaskSubmit =>
      match req.task with
      | some task => decodeSubmit task
      | none => .ok .badRequest
  | .iotaskStatus =>
      match req.task with
      | some task => .ok (.iotaskStatus task.taskid)
      | none => .ok .badRequest
  | .ping => .ok .ping
  | .globalStatus => .ok .globalStatus
  | .ctlCommand =>
      match req.command with
      | some id => .ok (.command (decodeCommand id))
      | none => .ok .badRequest
  | .jobRegister =>
      match req.jobid, req.job with
      | some id, some hosts => .ok (.jobRegister id hosts)
      | _, _ => .ok .badRequest
  | .jobUpdate =>
      match req.jobid, req.job with
      | some id, some hosts => .ok (.jobUpdate id hosts)
      | _, _ => .ok .badRequest
  | .jobUnregister =>
      match req.jobid with
      | some id => .ok (.jobUnregister id)
      | none => .ok .badRequest
  | .processAdd =>
      match req.jobid, req.process with
      | some id, some p =>
          .ok (.processRegister id (idOfInt64 p.uid) (idOfInt64 p.gid) (idOfInt64 p.pid))
      | _, _ => .ok .badRequest
  | .processRemove =>
      match req.jobid, req.process with
      | some id, some p =>
          .ok (.processUnregister id (idOfInt64 p.uid) (idOfInt64 p.gid) (idOfInt64 p.pid))
      | _, _ => .ok .badRequest
  | .namespaceRegister | .namespaceUpdate | .namespaceUnregister =>
      match req.nspace with
      | some nspace => .ok (decodeNamespace req.type nspace)
      | none => .ok .badRequest

/-- `request::create_from_buffer`; `parse` is `Request::ParseFromArray`. -/
def createFromBuffer (parse : List UInt8 → Option RequestMsg) (buffer : List UInt8) :
    Except Fault Request :=
  match parse buffer with
  | some req => decodeRequest req
  | none => .ok .badRequest

/-! ### Dispatch -/

/-- The handlers of `urd`. -/
inductive Handler where
  | iotaskCreateHandler
  | iotaskStatusHandler
  | pingHandler
  | jobRegisterHandler
  | jobUpdateHandler
  | jobRemoveHandler
  | processAddHandler
  | processRemoveHandler
  | namespaceRegisterHandler
  | namespaceRemoveHandler
  | globalStatusHandler
  | commandHandler
  | unknownRequestHandler
deriving DecidableEq, Repr

/-- The registrations of `urd::init_event_handlers`.  The one for `backend_update` is commented
out in the source. -/
def callbacks : List (RequestType × Handler) :=
  [(.iotaskCreate, .iotaskCreateHandler),
   (.iotaskStatus, .iotaskStatusHandler),
   (.ping, .pingHandler),
   (.jobRegister, .jobRegisterHandler),
   (.jobUpdate, .jobUpdateHandler),
   (.jobUnregister, .jobRemoveHandler),
   (.processRegister, .processAddHandler),
   (.processUnregister, .processRemoveHandler),
   (.backendRegister, .namespaceRegisterHandler),
   (.backendUnregister, .namespaceRemoveHandler),
   (.globalStatus, .globalStatusHandler),
   (.command, .commandHandler),
   (.badRequest, .unknownRequestHandler)]

/-- The ways in which a request can end without a response: the process stops, or
`dispatch_table::invoke` throws because there is no callback. -/
inductive DispatchError where
  | fault (f : Fault)
  | noCallback
deriving DecidableEq, Repr

/-- The callback that `dispatch_table::invoke` finds for a request. -/
def callbackFor (req : Request) : Except DispatchError Handler :=
  match callbacks.lookup req.type with
  | some h => .ok h
  | none => .error .noCallback

/-- The callback that a decoded request leads to. -/
def dispatch : Except Fault Request → Except DispatchError Handler
  | .error f => .error (.fault f)
  | .ok req => callbackFor req

/-- The callback that the body of a request leads to. -/
def handlerOf (parse : List UInt8 → Option RequestMsg) (buffer : List UInt8) :
    Except DispatchError Handler :=
  dispatch (createFromBuffer parse buffer)

/-! ### Decoding a resource -/

theorem has_or {res : ResourceMsg} {f g : UInt32} (h : res.has (f ||| g) = true) :
    res.has f = true ∨ res.has g = true := by
  by_contra hcon
  obtain ⟨hf, hg⟩ := not_or.mp hcon
  simp only [ResourceMsg.has, decide_eq_true_eq, not_not] at h hf hg
  refine h (UInt32.toBitVec_inj.mp ?_)
  rw [UInt32.toBitVec_and, UInt32.toBitVec_or, BitVec.and_or_distrib_left, ← UInt32.toBitVec_and,
    ← UInt32.toBitVec_and, hf, hg]
  rfl

/-- A path that is neither local, shared nor remote, let through by the null flag. -/
def ResourceMsg.Unbuildable (res : ResourceMsg) : Prop :=
  res.has NORNS_PROCESS_MEMORY = false ∧ res.has NORNS_POSIX_PATH = true ∧
  res.has R_LOCAL = false ∧ res.has R_SHARED = false ∧ res.has R_REMOTE = false

/-- What a valid message without the null flag holds. -/
theorem ResourceMsg.isValid_spec {res : ResourceMsg} (h : res.isValid = true) :
    res.has NORNS_NULL_RESOURCE = true ∨
    (res.has NORNS_PROCESS_MEMORY = true ∧ res.buffer.isSome = true) ∨
    (res.has NORNS_PROCESS_MEMORY = false ∧ res.has NORNS_POSIX_PATH = true ∧
      res.path.isSome = true ∧
      (res.has R_LOCAL = true ∨ res.has R_SHARED = true ∨ res.has R_REMOTE = true)) := by
  unfold ResourceMsg.isValid at h
  by_cases hnull : res.has NORNS_NULL_RESOURCE = true
  · exact Or.inl hnull
  · rw [if_neg hnull] at h
    by_cases hmem : res.has NORNS_PROCESS_MEMORY = true
    · rw [if_pos hmem] at h
      exact Or.inr (Or.inl ⟨hmem, h⟩)
    · rw [if_neg hmem] at h
      by_cases hposix : res.has NORNS_POSIX_PATH = true
      · rw [if_pos hposix] at h
        cases hpath : res.path with
        | none => simp [hpath] at h
        | some path =>
            by_cases hloc : res.has (R_LOCAL ||| R_SHARED ||| R_REMOTE) = true
            · refine Or.inr (Or.inr ⟨by simpa using hmem, hposix, rfl, ?_⟩)
              obtain hloc | hloc := has_or hloc
              · obtain hloc | hloc := has_or hloc
                · exact Or.inl hloc
                · exact Or.inr (Or.inl hloc)
              · exact Or.inr (Or.inr hloc)
            · simp [hpath, hloc] at h
      · simp [hposix] at h

/-- `create_from` of a valid message stops exactly on the unbuildable paths. -/
theorem createFrom_error_iff {res : ResourceMsg} (h : res.isValid = true) :
    (∃ f, res.createFrom = .error f) ↔ res.Unbuildable := by
  unfold ResourceMsg.createFrom ResourceMsg.Unbuildable
  have hspec := ResourceMsg.isValid_spec h
  simp only [h, Bool.not_true, Bool.false_eq_true, if_false]
  cases hmem : res.has NORNS_PROCESS_MEMORY with
  | true => simp
  | false =>
      cases hposix : res.has NORNS_POSIX_PATH with
      | false =>
          have hnull : res.has NORNS_NULL_RESOURCE = true := by
            simpa [hmem, hposix] using hspec
          simp [hnull]
      | true =>
          cases hl : res.has R_LOCAL <;> cases hs : res.has R_SHARED <;>
            cases hr : res.has R_REMOTE <;> simp

theorem createFrom_ok {res : ResourceMsg} (h : res.isValid = true) (hu : ¬ res.Unbuildable) :
    ∃ c, res.createFrom = .ok c := by
  cases hc : res.createFrom with
  | ok c => exact ⟨c, rfl⟩
  | error f => exact absurd ((createFrom_error_iff h).mp ⟨f, hc⟩) hu

/-! ### Decoder and dispatcher -/

/-- The handler that is registered for a message type.  There is none for `NAMESPACE_UPDATE`. -/
def MsgType.handler : MsgType → Option Handler
  | iotaskSubmit => some .iotaskCreateHandler
  | iotaskStatus => some .iotaskStatusHandler
  | ping => some .pingHandler
  | jobRegister => some .jobRegisterHandler
  | jobUpdate => some .jobUpdateHandler
  | jobUnregister => some .jobRemoveHandler
  | processAdd => some .processAddHandler
  | processRemove => some .processRemoveHandler
  | namespaceRegister => some .namespaceRegisterHandler
  | namespaceUpdate => none
  | namespaceUnregister => some .namespaceRemoveHandler
  | globalStatus => some .globalStatusHandler
  | ctlCommand => some .commandHandler

/-- A request of type `type` (`none` if it did not parse) is dispatched to `h`: to the handler of
bad requests, or to the one registered for the type. -/
def RightHandler (type : Option MsgType) (h : Handler) : Prop :=
  h = .unknownRequestHandler ∨ ∃ T, type = some T ∧ T.handler = some h

/-- Decoder and registration agree on a buffer: it leads to a handler, and to the right one. -/
def HandlerAgrees (parse : List UInt8 → Option RequestMsg) (buffer : List UInt8) : Prop :=
  ∃ h, handlerOf parse buffer = .ok h ∧ RightHandler ((parse buffer).map (·.type)) h

/-- The messages on which they agree: no registration or update without a backend, no update or
removal with a backend of known type, and no submission of a path without a place. -/
def DispatchSafe (req : RequestMsg) : Prop :=
  ¬ ((req.type = .namespaceRegister ∨ req.type = .namespaceUpdate) ∧
    ∃ ns, req.nspace = some ns ∧ ns.backend = none) ∧
  ¬ ((req.type = .namespaceUpdate ∨ req.type = .namespaceUnregister) ∧
    ∃ ns b, req.nspace = some ns ∧ ns.backend = some b ∧
      decodeBackendType b.type.toUInt32 ≠ .unknown) ∧
  ¬ (req.type = .iotaskSubmit ∧ ∃ task, req.task = some task ∧ task.isValid = true ∧
    (task.source.Unbuildable ∨ task.destination.Unbuildable))

theorem rightHandler_bad (type : Option MsgType) : RightHandler type .unknownRequestHandler :=
  Or.inl rfl

theorem TaskMsg.isValid_spec {task : TaskMsg} (h : task.isValid = true) :
    (decodeIotaskType task.optype = .copy ∨ decodeIotaskType task.optype = .move ∨
      decodeIotaskType task.optype = .remove) ∧
    task.source.isValid = true ∧ task.destination.isValid = true := by
  unfold TaskMsg.isValid at h
  split at h
  all_goals simp_all

/-- The submissions. -/
theorem submit_agrees_iff (task : TaskMsg) :
    (∃ h, dispatch (decodeSubmit task) = .ok h ∧ RightHandler (some .iotaskSubmit) h) ↔
      ¬ (task.isValid = true ∧ (task.source.Unbuildable ∨ task.destination.Unbuildable)) := by
  unfold decodeSubmit
  by_cases hv : task.isValid = true
  · have hsrc := (TaskMsg.isValid_spec hv).2
    rw [if_pos hv]
    by_cases hs : task.source.Unbuildable
    · obtain ⟨f, hf⟩ := (createFrom_error_iff hsrc.1).mpr hs
      rw [hf]
      simp [bind, Except.bind, dispatch, hv, hs]
    · obtain ⟨c, hc⟩ := createFrom_ok hsrc.1 hs
      rw [hc]
      by_cases hd : task.destination.Unbuildable
      · obtain ⟨f, hf⟩ := (createFrom_error_iff hsrc.2).mpr hd
        rw [hf]
        simp [bind, Except.bind, dispatch, hv, hd]
      · obtain ⟨c', hc'⟩ := createFrom_ok hsrc.2 hd
        rw [hc']
        simp only [hv, hs, hd, true_and, or_self, not_false_eq_true, iff_true]
        exact ⟨.iotaskCreateHandler, rfl, Or.inr ⟨_, rfl, rfl⟩⟩
  · rw [if_neg hv]
    exact iff_of_true ⟨.unknownRequestHandler, rfl, rightHandler_bad _⟩ (fun h => hv h.1)

/-- The three namespace messages. -/
theorem namespace_agrees_iff (type : MsgType) (nspace : NamespaceMsg)
    (ht : type = .namespaceRegister ∨ type = .namespaceUpdate ∨ type = .namespaceUnregister) :
    (∃ h, dispatch (.ok (decodeNamespace type nspace)) = .ok h ∧ RightHandler (some type) h) ↔
      ¬ ((type = .namespaceRegister ∨ type = .namespaceUpdate) ∧ nspace.backend = none) ∧
      ¬ ((type = .namespaceUpdate ∨ type = .namespaceUnregister) ∧
        ∃ b, nspace.backend = some b ∧ decodeBackendType b.type.toUInt32 ≠ .unknown) := by
  unfold decodeNamespace dispatch
  cases hb : nspace.backend with
  | none =>
      have hinv : callbackFor (.backendUnregister nspace.nsid) = .ok .namespaceRemoveHandler := rfl
      obtain rfl | rfl | rfl := ht <;>
        simp [hinv, RightHandler, MsgType.handler]
  | some b =>
      by_cases hunk : decodeBackendType b.type.toUInt32 = .unknown
      · have hinv : callbackFor .badRequest = .ok .unknownRequestHandler := rfl
        simp [hunk, hinv, rightHandler_bad]
      · have hreg : ∀ c, callbackFor (.backendRegister nspace.nsid c b.track b.mount b.capacity) =
            .ok .namespaceRegisterHandler := fun _ => rfl
        have hupd : ∀ c, callbackFor (.backendUpdate nspace.nsid c b.track b.mount b.capacity) =
            .error .noCallback := fun _ => rfl
        obtain rfl | rfl | rfl := ht <;>
          simp [hunk, hreg, hupd, RightHandler, MsgType.handler]

/-- Decoder and registration agree exactly on the buffers that do not parse and on the messages of
`DispatchSafe`. -/
theorem handler_agrees_iff (parse : List UInt8 → Option RequestMsg) (buffer : List UInt8) :
    HandlerAgrees parse buffer ↔ ∀ req, parse buffer = some req → DispatchSafe req := by
  unfold HandlerAgrees handlerOf createFromBuffer
  cases hp : parse buffer with
  | none =>
      simp only [reduceCtorEq, false_imp_iff, implies_true, iff_true]
      exact ⟨.unknownRequestHandler, rfl, rightHandler_bad _⟩
  | some req =>
      have hone : (∀ req', some req = some req' → DispatchSafe req') ↔ DispatchSafe req :=
        ⟨fun h => h req rfl, fun h req' he => Option.some.inj he ▸ h⟩
      rw [hone]
      unfold DispatchSafe decodeRequest
      simp only [Option.map_some]
      cases ht : req.type with
      | iotaskSubmit =>
          cases htask : req.task with
          | none => exact iff_of_true ⟨_, rfl, rightHandler_bad _⟩ (by simp)
          | some task => simpa using submit_agrees_iff task
      | namespaceRegister =>
          cases hns : req.nspace with
          | none => exact iff_of_true ⟨_, rfl, rightHandler_bad _⟩ (by simp)
          | some ns => simpa using namespace_agrees_iff .namespaceRegister ns (by simp)
      | namespaceUpdate =>
          cases hns : req.nspace with
          | none => exact iff_of_true ⟨_, rfl, rightHandler_bad _⟩ (by simp)
          | some ns => simpa using namespace_agrees_iff .namespaceUpdate ns (by simp)
      | namespaceUnregister =>
          cases hns : req.nspace with
          | none => exact iff_of_true ⟨_, rfl, rightHandler_bad _⟩ (by simp)
          | some ns => simpa using namespace_agrees_iff .namespaceUnregister ns (by simp)
      | iotaskStatus =>
          refine iff_of_true ?_ (by simp)
          cases req.task with
          | none => exact ⟨_, rfl, rightHandler_bad _⟩
          | some task => exact ⟨_, rfl, Or.inr ⟨_, rfl, rfl⟩⟩
      | ping => exact iff_of_true ⟨_, rfl, Or.inr ⟨_, rfl, rfl⟩⟩ (by simp)
      | globalStatus => exact iff_of_true ⟨_, rfl, Or.inr ⟨_, rfl, rfl⟩⟩ (by simp)
      | ctlCommand =>
          refine iff_of_true ?_ (by simp)
          cases req.command with
          | none => exact ⟨_, rfl, rightHandler_bad _⟩
          | some id => exact ⟨_, rfl, Or.inr ⟨_, rfl, rfl⟩⟩
      | jobUnregister =>
          refine iff_of_true ?_ (by simp)
          cases req.jobid with
          | none => exact ⟨_, rfl, rightHandler_bad _⟩
          | some id => exact ⟨_, rfl, Or.inr ⟨_, rfl, rfl⟩⟩
      | jobRegister =>
          refine iff_of_true ?_ (by simp)
          cases req.jobid <;> cases req.job <;>
            first | exact ⟨_, rfl, rightHandler_bad _⟩ | exact ⟨_, rfl, Or.inr ⟨_, rfl, rfl⟩⟩
      | jobUpdate =>
          refine iff_of_true ?_ (by simp)
          cases req.jobid <;> cases req.job <;>
            first | exact ⟨_, rfl, rightHandler_bad _⟩ | exact ⟨_, rfl, Or.inr ⟨_, rfl, rfl⟩⟩
      | processAdd =>
          refine iff_of_true ?_ (by simp)
          cases req.jobid <;> cases req.process <;>
            first | exact ⟨_, rfl, rightHandler_bad _⟩ | exact ⟨_, rfl, Or.inr ⟨_, rfl, rfl⟩⟩
      | processRemove =>
          refine iff_of_true ?_ (by simp)
          cases req.jobid <;> cases req.process <;>
            first | exact ⟨_, rfl, rightHandler_bad _⟩ | exact ⟨_, rfl, Or.inr ⟨_, rfl, rfl⟩⟩

end Norns
