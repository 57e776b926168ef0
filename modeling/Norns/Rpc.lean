import Norns.Lib.Run
import Norns.TaskManager

/-! # Requests from other daemons

The handlers of the three RPCs (`urd::push_resource_handler`, `urd::pull_resource_handler`,
`urd::stat_resource_handler`), the task that a push or a pull starts
(`task<iotask_type::remote_transfer>`), and the `accept_transfer` functions it calls.

An incoming request is one object that is *moved*: from the handler into a context shared with the
task record, from there into `accept_transfer`, from there into the bulk operation, and at last
into `respond`.  `Place` says where it is; whoever does not hold it cannot answer it.  The handler
and the completion callback of the bulk operation run in different threads, so a request is a
transition system with steps of both.

* `TransferState.Inv`: the object is never copied, so in every run at most one response is sent;
  and at every position of the handler it is known where the object is.
* `answered_once_iff`: exactly one response is sent, in every run, if and only if the arguments and
  the state of the daemon are such that no branch drops the object or stops the process.

What hermes does is part of the model as far as the handlers rely on it: a posted operation calls
its callback once, a response is delivered as it is.  Nothing catches what a handler throws: an
exception of Boost or hermes (`ThrowingCall`) takes the request with it. -/

namespace Norns

open Lib

/-! ### Arguments and responses -/

/-- `rpc::push_resource::input`. -/
structure PushArgs where
  inAddress : String
  inNsid : String
  outNsid : String
  outResourceType : UInt32
  inIsCollection : Bool
  inResourceName : String
  outResourceName : String
  inBuffers : ExposedMemory
deriving DecidableEq, Repr

/-- `rpc::pull_resource::input`. -/
structure PullArgs where
  inNsid : String
  inResourceName : String
  inResourceType : UInt32
  outAddress : String
  outNsid : String
  outResourceName : String
  outBuffers : ExposedMemory
deriving DecidableEq, Repr

/-- `rpc::stat_resource::input`. -/
structure StatArgs where
  address : String
  nsid : String
  resourceType : UInt32
  resourceName : String
deriving DecidableEq, Repr

/-- `rpc::push_resource::output` and `rpc::pull_resource::output`. -/
structure TransferOutput where
  status : UInt32
  taskError : UInt32
  sysErrnum : UInt32
  elapsedTime : UInt32
deriving DecidableEq, Repr

/-- `rpc::stat_resource::output`. -/
structure StatOutput where
  taskError : UInt32
  sysErrnum : UInt32
  isCollection : Bool
  packedSize : UInt64
deriving DecidableEq, Repr

/-- A push or a pull, as its handler receives it. -/
inductive Inbound where
  | push (args : PushArgs)
  | pull (args : PullArgs)
deriving DecidableEq, Repr

namespace Inbound

/-- The namespace that is looked up. -/
def localNsid : Inbound → String
  | push args => args.outNsid
  | pull args => args.inNsid

/-- The resource type that travels in the arguments. -/
def typeWord : Inbound → UInt32
  | push args => args.outResourceType
  | pull args => args.inResourceType

/-- `create_rinfo`. -/
def createRinfo (req : Inbound) (rtype : Option ResourceType) : Option ResourceInfo :=
  match rtype, req with
  | some .remoteResource, push args =>
      some (.remoteResource args.inAddress args.inNsid args.inIsCollection args.inResourceName
        args.inBuffers)
  | some .remoteResource, pull args =>
      some (.remoteResource args.outAddress args.outNsid false args.outResourceName args.outBuffers)
  | some .localPosixPath, push args => some (.localPath args.outNsid args.outResourceName)
  | some .sharedPosixPath, push args => some (.localPath args.outNsid args.outResourceName)
  | some .localPosixPath, pull args => some (.localPath args.inNsid args.inResourceName)
  | some .sharedPosixPath, pull args => some (.localPath args.inNsid args.inResourceName)
  | _, _ => none

/-- The resource on this side. -/
def localRinfo (req : Inbound) : Option ResourceInfo :=
  req.createRinfo (ResourceType.ofWord req.typeWord)

/-- The resource on the side of the peer. -/
def peerRinfo (req : Inbound) : Option ResourceInfo := req.createRinfo (some .remoteResource)

def srcRinfo : Inbound → Option ResourceInfo
  | push args => (push args).peerRinfo
  | pull args => (pull args).localRinfo

def dstRinfo : Inbound → Option ResourceInfo
  | push args => (push args).localRinfo
  | pull args => (pull args).peerRinfo

/-- The backends of the source and of the destination, `b` being the one on this side. -/
def srcBackend (b : Backend) : Inbound → Backend
  | push args => .remote args.inNsid
  | pull _ => b

def dstBackend (b : Backend) : Inbound → Backend
  | push _ => b
  | pull args => .remote args.outNsid

end Inbound

/-! ### Backends and the outside world -/

/-- The calls of the handlers and of what they lead to that have no error code to report through:
the POSIX functions of `get_resource` and `new_resource`, `bfs::is_directory` in
`accept_transfer`, `add_directory` in `pack_archive`, `expose`, and `bfs::is_directory` in
`tar::extract`.  The constructor of `temporary_file` is `noexcept`: what it throws stops the
process. -/
inductive ThrowingCall where
  | resource
  | isDirectory
  | packArchive
  | temporaryFile
  | expose
  | unpackArchive
deriving DecidableEq, Repr

/-- What an incoming push or pull depends on besides its arguments: the members of the daemon when
they are read, and what the operating system reports to the functions that are called. -/
structure InboundEnv where
  isPaused : Bool
  namespaceMgr : NamespaceManager
  taskMgr : TaskManager
  /-- the registry is the one that the daemon loads when it starts. -/
  plugins : taskMgr.transferorRegistry = loadTransferPlugins
  /-- the error that a POSIX backend reports for the local resource, and its size; none if
  `get_size` throws. -/
  posixEc : ErrorCode
  size : Option UInt64
  /-- the calls that throw instead of returning. -/
  throws : ThrowingCall → Bool
  /-- whether the local resource is a directory, for `is_collection` and when a push looks again. -/
  isCollection : Bool
  targetIsDirectory : Bool
  /-- the errors of `pack_archive`, `temporary_file`, `mapped_buffer` and `unpack_archive`. -/
  packEc : ErrorCode
  tempfileEc : ErrorCode
  mapEc : ErrorCode
  unpackEc : ErrorCode
  /-- the duration of the bulk operation. -/
  usecs : UInt32

/-- `get_size`; the backends that look at the resource cast it to the type they expect.  `posix` is
what the walk over the files of a POSIX backend comes to, `none` if it throws. -/
def Backend.getSize (b : Backend) (rinfo : ResourceInfo) (posix : Option UInt64) :
    Except Fault UInt64 :=
  match b.kind, rinfo with
  | .posixFilesystem, .localPath _ _ =>
      match posix with
      | some size => .ok size
      | none => .error .exception
  | .posixFilesystem, _ => .error .badCast
  | .processMemory, .memoryRegion _ size => .ok size
  | .processMemory, _ => .error .badCast
  | _, _ => .ok 0

/-- `get_resource`: a pointer (to a resource that may be a collection) and an error code. -/
def Backend.getResource (b : Backend) (rinfo : ResourceInfo) (posixEc : ErrorCode)
    (isCollection : Bool) : Except Fault (Option Bool × ErrorCode) :=
  match b.kind, rinfo with
  | .posixFilesystem, .localPath _ _ =>
      .ok (if posixEc ≠ 0 then none else some isCollection, posixEc)
  | .posixFilesystem, _ => .error .badCast
  | .nvmlDax, _ => .ok (some isCollection, 0)
  | .lustre, _ => .ok (none, 0)
  | .processMemory, .memoryRegion _ _ => .ok (some false, 0)
  | .processMemory, _ => .error .badCast
  | .remoteBackend, .remoteResource _ _ coll _ _ => .ok (some coll, 0)
  | .remoteBackend, _ => .error .badCast

/-- The backends whose resources are made with a look at the file system. -/
def Backend.onFiles (b : Backend) : Bool :=
  match b.kind with
  | .posixFilesystem => true
  | .nvmlDax => true
  | _ => false

/-- `new_resource`. -/
def Backend.newResource (b : Backend) (rinfo : ResourceInfo) (posixEc : ErrorCode)
    (isCollection : Bool) : Except Fault (Option Bool × ErrorCode) :=
  match b.kind with
  | .processMemory => .ok (none, 0)
  | _ => b.getResource rinfo posixEc isCollection

/-! ### Where the request is -/

/-- The place of the request object. -/
inductive Place where
  /-- the variable `req` of the handler. -/
  | handler
  /-- the shared context of the task record. -/
  | context
  /-- the variable `req` of `accept_transfer`. -/
  | transfer
  /-- the bulk operation that has been posted. -/
  | bulk
  /-- the argument of the completion callback. -/
  | completion
  /-- moved into `respond`. -/
  | spent
  /-- destroyed by an exception that leaves the completion callback. -/
  | dropped
deriving DecidableEq, Repr

/-- The state of one request: the position `pc` of the handler, the place of the request object
and the responses that have been sent. -/
structure RpcState (π ρ : Type) where
  pc : π
  place : Place
  responses : List ρ

namespace RpcState

variable {π ρ : Type}

/-- `auto y = std::move(x)`: nothing happens if `x` has been moved from. -/
def move (x y : Place) (s : RpcState π ρ) : RpcState π ρ :=
  if s.place = x then { s with place := y } else s

/-- `m_network_service->respond(std::move(x), ..)`: a request that has been moved from cannot be
answered. -/
def respond (x : Place) (r : ρ) (s : RpcState π ρ) : RpcState π ρ :=
  if s.place = x then { s with place := .spent, responses := s.responses ++ [r] } else s

/-- The handler goes on at `pc`. -/
def goto (pc : π) (s : RpcState π ρ) : RpcState π ρ := { s with pc := pc }

@[simp] theorem goto_pc (pc : π) (s : RpcState π ρ) : (s.goto pc).pc = pc := rfl

theorem move_of_place {s : RpcState π ρ} {x : Place} (h : s.place = x) (y : Place) :
    s.move x y = { s with place := y } := if_pos h

theorem move_of_ne {s : RpcState π ρ} {x : Place} (h : s.place ≠ x) (y : Place) :
    s.move x y = s := if_neg h

theorem respond_of_place {s : RpcState π ρ} {x : Place} (h : s.place = x) (r : ρ) :
    s.respond x r = { s with place := .spent, responses := s.responses ++ [r] } := if_pos h

/-- The object has been spent on one response, or there is none. -/
def Conserved (s : RpcState π ρ) : Prop :=
  s.responses.length = if s.place = .spent then 1 else 0

theorem Conserved.le_one {s : RpcState π ρ} (h : s.Conserved) : s.responses.length ≤ 1 := by
  unfold Conserved at h
  split_ifs at h <;> omega

end RpcState

/-- Every run is answered exactly once: never more often, every run can be finished, and a
finished one has sent its response. -/
structure AnsweredOnce {π ρ : Type} (step : RpcState π ρ → RpcState π ρ → Prop)
    (init : RpcState π ρ) : Prop where
  atMost : ∀ s, Run step init s → s.responses.length ≤ 1
  ends : ∀ s, Run step init s → ∃ s', Run step s s' ∧ Final step s'
  once : ∀ s, Run step init s → Final step s → s.responses.length = 1

/-! ### Push and pull -/

/-- What `accept_transfer` comes to. -/
inductive Accepted where
  | fault (f : Fault)
  /-- an error; the request is back in the context. -/
  | failed (ec : ErrorCode)
  /-- the bulk operation has been posted with the request. -/
  | posted
  /-- success, without a look at the request. -/
  | ignored
deriving DecidableEq, Repr

/-- `local_path_to_remote_resource_transferor::accept_transfer`. -/
def acceptPush (env : InboundEnv) (buffers : ExposedMemory) (name : String) : Accepted :=
  if buffers.length ≠ 1 then .fault .assertion
  else if name.isEmpty && env.throws .isDirectory then .fault .exception
  else if name.isEmpty && env.targetIsDirectory then .failed EISDIR
  else if env.throws .temporaryFile then .fault .exception
  else if env.tempfileEc ≠ 0 then .failed env.tempfileEc
  else if env.mapEc ≠ 0 then .failed env.mapEc
  else if env.throws .expose then .fault .exception
  else .posted

/-- `remote_resource_to_local_path_transferor::accept_transfer`.  A failed packing is not noticed
before the mapping, which leaves the error code as it is if it succeeds. -/
def acceptPull (env : InboundEnv) (isCollection : Bool) : Accepted :=
  if isCollection && env.throws .packArchive then .fault .exception
  else
    let packEc := if isCollection then env.packEc else 0
    let ec := if env.mapEc ≠ 0 then env.mapEc else packEc
    if ec ≠ 0 then .failed ec
    else if env.throws .expose then .fault .exception
    else .posted

/-- The transferor's `accept_transfer`, for a source that may be a collection.  The context is cast
to the type of the request; the transferors that never serve a peer do not look at it. -/
def Inbound.acceptTransfer (req : Inbound) (env : InboundEnv) (tx : Transferor)
    (isCollection : Bool) : Accepted :=
  match tx.kind, req with
  | .localPathToRemoteResource, .push args => acceptPush env args.inBuffers args.inResourceName
  | .remoteResourceToLocalPath, .pull _ => acceptPull env isCollection
  | .localPathToRemoteResource, .pull _ => .fault .badCast
  | .remoteResourceToLocalPath, .push _ => .fault .badCast
  | _, _ => .ignored

/-- The error fields of the task record. -/
structure TaskOutcome where
  status : TaskStatus
  taskError : UrdError
  sysError : ErrorCode
deriving DecidableEq, Repr

/-- `log_error` of `task<remote_transfer>`. -/
def TaskOutcome.logError (ec : ErrorCode) : TaskOutcome := ⟨.finishedWithError, .systemError, ec⟩

/-- The end of a task without errors. -/
def TaskOutcome.finished : TaskOutcome := ⟨.finished, .success, 0⟩

/-- Where the handler is. -/
inductive HandlerPc where
  | entry
  /-- the namespace has been found; `create_remote_initiated_task` is next. -/
  | create (b : Backend)
  /-- the task runs: the resources are next. -/
  | run (b : Backend) (tx : Transferor)
  /-- `accept_transfer` is next. -/
  | accept (tx : Transferor) (isCollection : Bool)
  /-- the task has ended; the handler takes the request back and looks at the status. -/
  | check (out : TaskOutcome)
  | returned
  | crashed (f : Fault)

/-- The state of an incoming push or pull. -/
abbrev TransferState := RpcState HandlerPc TransferOutput

/-- The request has arrived. -/
def TransferState.init : TransferState := ⟨.entry, .handler, []⟩

/-- The responses of the handler itself. -/
def errorOutput (taskError : UrdError) (sysErrnum : ErrorCode) : TransferOutput :=
  ⟨TaskStatus.finishedWithError.toWord, taskError.toWord, wordOfErrc sysErrnum, 0⟩

/-- `create_remote_initiated_task`, with the size that the record asks the source backend for. -/
def createForPeer (env : InboundEnv) (req : Inbound) (b : Backend) : CreateResult :=
  let size := if env.taskMgr.nextId ∈ env.taskMgr.taskInfo then .ok 0 else
    match req.srcRinfo with
    | some src => (req.srcBackend b).getSize src env.size
    | none => .ok 0
  match size with
  | .error f => .error f
  | .ok size => env.taskMgr.createRemoteInitiatedTask .remoteTransfer ⟨0, 0, 0⟩ (req.srcBackend b)
      req.srcRinfo (req.dstBackend b) req.dstRinfo size

/-- The part of `task<remote_transfer>` before `accept_transfer`: the error of the first resource
that reports one, or whether the source is a collection. -/
def getResources (env : InboundEnv) (req : Inbound) (b : Backend) :
    Except Fault (Except ErrorCode Bool) :=
  match req.srcRinfo, req.dstRinfo with
  | some src, some dst =>
      -- the resource of the peer is made without a call that could throw
      if b.onFiles && env.throws .resource then .error .exception
      else
        match (req.srcBackend b).getResource src env.posixEc env.isCollection with
        | .error f => .error f
        | .ok (srcPtr, ec) =>
            if ec ≠ 0 then .ok (.error ec)
            else
              match srcPtr with
              | none => .error .nullDeref
              | some coll =>
                  match (req.dstBackend b).newResource dst env.posixEc coll with
                  | .error f => .error f
                  | .ok (dstPtr, ec) =>
                      if ec ≠ 0 then .ok (.error ec)
                      else if dstPtr.isNone then .error .nullDeref
                      else .ok (.ok coll)
  | _, _ => .error .nullDeref

/-- The next step of the handler. -/
def handlerNext (env : InboundEnv) (req : Inbound) (s : TransferState) : Option TransferState :=
  match s.pc with
  | .entry =>
      if env.isPaused then
        some ((s.respond .handler (errorOutput .acceptPaused 0)).goto .returned)
      else
        match env.namespaceMgr.find req.localNsid false with
        | none => some ((s.respond .handler (errorOutput .noSuchNamespace 0)).goto .returned)
        | some b => some ((s.move .handler .context).goto (.create b))
  | .create b =>
      match createForPeer env req b with
      | .error f => some (s.goto (.crashed f))
      | .ok (_, .success, some ⟨_, _, some tx⟩) => some (s.goto (.run b tx))
      | .ok (_, .success, _) => some (s.goto (.crashed .nullDeref))
      | .ok (_, _, _) => some (s.goto .returned)
  | .run b tx =>
      match getResources env req b with
      | .error f => some (s.goto (.crashed f))
      | .ok (.error ec) => some (s.goto (.check (.logError ec)))
      | .ok (.ok coll) => some (s.goto (.accept tx coll))
  | .accept tx coll =>
      -- the request is taken out of the context and either put back or given to hermes
      match req.acceptTransfer env tx coll with
      | .fault f => some ((s.move .context .transfer).goto (.crashed f))
      | .failed ec =>
          some (((s.move .context .transfer).move .transfer .context).goto (.check (.logError ec)))
      | .posted =>
          some (((s.move .context .transfer).move .transfer .bulk).goto (.check .finished))
      | .ignored => some (s.goto (.check .finished))
  | .check out =>
      let s := s.move .context .handler
      if out.status = .finishedWithError then
        some ((s.respond .handler (errorOutput out.taskError out.sysError)).goto .returned)
      else some (s.goto .returned)
  | .returned => none
  | .crashed _ => none

/-- The response of the completion callback; only a push has something to unpack. -/
def completionOutput (env : InboundEnv) : Inbound → TransferOutput
  | .push args =>
      if args.inIsCollection && env.unpackEc ≠ 0 then errorOutput .systemError env.unpackEc
      else ⟨TaskStatus.finished.toWord, UrdError.success.toWord, 0, env.usecs⟩
  | .pull _ => ⟨TaskStatus.finished.toWord, UrdError.success.toWord, 0, env.usecs⟩

/-- The completion callback throws: `unpack_archive` does. -/
def completionThrows (env : InboundEnv) : Inbound → Bool
  | .push args => args.inIsCollection && env.throws .unpackArchive
  | .pull _ => false

/-- The next step of the thread that completes the bulk operation. -/
def completionNext (env : InboundEnv) (req : Inbound) (s : TransferState) : Option TransferState :=
  match s.place with
  | .bulk => some (s.move .bulk .completion)
  | .completion =>
      if completionThrows env req then some (s.move .completion .dropped)
      else some (s.respond .completion (completionOutput env req))
  | _ => none

/-- A step of either thread. -/
def TransferStep (env : InboundEnv) (req : Inbound) (s s' : TransferState) : Prop :=
  handlerNext env req s = some s' ∨ completionNext env req s = some s'

/-- `urd::push_resource_handler` and the callback it leads to. -/
def pushResourceHandler (env : InboundEnv) (args : PushArgs) := TransferStep env (.push args)

/-- `urd::pull_resource_handler` and the callback it leads to. -/
def pullResourceHandler (env : InboundEnv) (args : PullArgs) := TransferStep env (.pull args)

/-! ### What the handler meets -/

/-- The arguments name a path, and an id is free: `create_remote_initiated_task` gets past the
transferor registry. -/
def Inbound.Creatable (req : Inbound) (env : InboundEnv) : Prop :=
  (req.typeWord = 1 ∨ req.typeWord = 2) ∧ env.taskMgr.nextId ∉ env.taskMgr.taskInfo

/-- The backend yields a resource for a path, or an error, and a push has the one buffer that
`accept_transfer` asserts. -/
def Inbound.ServedBy (req : Inbound) (env : InboundEnv) (b : Backend) : Prop :=
  match b.kind, req with
  | .posixFilesystem, .push args => env.posixEc ≠ 0 ∨ args.inBuffers.length = 1
  | .nvmlDax, .push args => args.inBuffers.length = 1
  | .posixFilesystem, .pull _ => True
  | .nvmlDax, .pull _ => True
  | _, _ => False

/-- The throwing calls that `accept_transfer` and the completion callback make, as the error codes
of the other calls choose them. -/
def Inbound.acceptCalls (env : InboundEnv) : Inbound → List ThrowingCall
  | push args =>
      (if args.inResourceName.isEmpty then [.isDirectory] else []) ++
      if args.inResourceName.isEmpty && env.targetIsDirectory then []
      else .temporaryFile :: if env.tempfileEc ≠ 0 ∨ env.mapEc ≠ 0 then []
      else .expose :: if args.inIsCollection then [.unpackArchive] else []
  | pull _ =>
      (if env.isCollection then [.packArchive] else []) ++
      if env.mapEc ≠ 0 ∨ env.isCollection ∧ env.packEc ≠ 0 then [] else [.expose]

/-- None of these throws. -/
def Inbound.AcceptReturns (req : Inbound) (env : InboundEnv) : Prop :=
  ∀ call ∈ req.acceptCalls env, env.throws call = false

/-- The request reads a path of a POSIX file system. -/
def Inbound.ReadsPosix (b : Backend) : Inbound → Prop
  | push _ => False
  | pull _ => b.kind = .posixFilesystem

/-- No call that is made for the request throws: not the walk that finds the size of what is pulled,
not the functions that make the local resource, and not those that follow if there is one. -/
structure Inbound.Returns (req : Inbound) (env : InboundEnv) (b : Backend) : Prop where
  size : req.ReadsPosix b → env.size ≠ none
  resource : env.throws .resource = false
  accept : (b.kind = .posixFilesystem → env.posixEc = 0) → req.AcceptReturns env

/-- The conditions under which a push or a pull is answered: it is refused by the first two checks
of the handler, or meets the assumptions of all the code behind them. -/
def Inbound.Answerable (req : Inbound) (env : InboundEnv) : Prop :=
  env.isPaused = true ∨ env.namespaceMgr.find req.localNsid false = none ∨
  ∃ b, env.namespaceMgr.find req.localNsid false = some b ∧ req.Creatable env ∧
    req.ServedBy env b ∧ req.Returns env b

/-- The transferor for the direction of the request. -/
def Inbound.transferorKind : Inbound → TransferorKind
  | push _ => .localPathToRemoteResource
  | pull _ => .remoteResourceToLocalPath

theorem localRinfo_of_word {req : Inbound} (h : req.typeWord = 1 ∨ req.typeWord = 2) :
    ∃ nsid path, req.localRinfo = some (.localPath nsid path) := by
  unfold Inbound.localRinfo
  obtain h | h := h <;> rw [h] <;> cases req <;> exact ⟨_, _, rfl⟩

theorem peerRinfo_eq (req : Inbound) :
    ∃ address nsid coll name buffers,
      req.peerRinfo = some (.remoteResource address nsid coll name buffers) := by
  cases req <;> exact ⟨_, _, _, _, _, rfl⟩

/-- A type word that names no path makes a remote resource or nothing. -/
theorem localRinfo_of_not_word {req : Inbound} (h : ¬ (req.typeWord = 1 ∨ req.typeWord = 2)) :
    req.localRinfo = none ∨
    ∃ address nsid coll name buffers,
      req.localRinfo = some (.remoteResource address nsid coll name buffers) := by
  rw [not_or] at h
  unfold Inbound.localRinfo ResourceType.ofWord
  rw [if_neg h.1, if_neg h.2]
  split_ifs <;> cases req <;>
    first | exact Or.inl rfl | exact Or.inr ⟨_, _, _, _, _, rfl⟩

theorem get_push (env : InboundEnv) :
    env.taskMgr.transferorRegistry.get .localPosixPath .remoteResource =
      some (TransferorKind.plugin .localPathToRemoteResource) := by
  rw [env.plugins]
  rfl

theorem get_pull (env : InboundEnv) :
    env.taskMgr.transferorRegistry.get .remoteResource .localPosixPath =
      some (TransferorKind.plugin .remoteResourceToLocalPath) := by
  rw [env.plugins]
  rfl

theorem get_remote (env : InboundEnv) :
    env.taskMgr.transferorRegistry.get .remoteResource .remoteResource = none := by
  rw [env.plugins]
  rfl

/-- The creation stops at the size of the source, or goes on with it. -/
theorem createForPeer_cases {env : InboundEnv} (req : Inbound) (b : Backend)
    (hfree : env.taskMgr.nextId ∉ env.taskMgr.taskInfo) :
    (∃ src f, req.srcRinfo = some src ∧ (req.srcBackend b).getSize src env.size = .error f ∧
      createForPeer env req b = .error f) ∨
    ∃ size, createForPeer env req b = env.taskMgr.createRemoteInitiatedTask .remoteTransfer
      ⟨0, 0, 0⟩ (req.srcBackend b) req.srcRinfo (req.dstBackend b) req.dstRinfo size := by
  unfold createForPeer
  dsimp only
  rw [if_neg hfree]
  cases hsrc : req.srcRinfo with
  | none => exact Or.inr ⟨0, rfl⟩
  | some src =>
      dsimp only
      cases hsize : (req.srcBackend b).getSize src env.size with
      | error f => exact Or.inl ⟨src, f, rfl, hsize, rfl⟩
      | ok size => exact Or.inr ⟨size, rfl⟩

/-- The transferor that the registry holds for a request for a path. -/
theorem get_of_word (env : InboundEnv) {req : Inbound}
    (hword : req.typeWord = 1 ∨ req.typeWord = 2) :
    ∃ src dst, req.srcRinfo = some src ∧ req.dstRinfo = some dst ∧
      env.taskMgr.transferorRegistry.get dst.type src.type = some req.transferorKind.plugin ∧
      req.transferorKind.plugin.validate src dst = true := by
  obtain ⟨nsid, path, hlocal⟩ := localRinfo_of_word hword
  obtain ⟨address, pnsid, coll, name, buffers, hpeer⟩ := peerRinfo_eq req
  cases req with
  | push args => exact ⟨_, _, hpeer, hlocal, get_push env, rfl⟩
  | pull args => exact ⟨_, _, hlocal, hpeer, get_pull env, rfl⟩

/-- The size of a source for a path can always be had, except from the memory of a process and
where the walk over the files throws. -/
theorem getSize_of_word {env : InboundEnv} {req : Inbound} {b : Backend} {src : ResourceInfo}
    (hword : req.typeWord = 1 ∨ req.typeWord = 2) (hsrc : req.srcRinfo = some src)
    (hserved : req.ServedBy env b) :
    (∃ f, (req.srcBackend b).getSize src env.size = .error f) ↔
      req.ReadsPosix b ∧ env.size = none := by
  obtain ⟨nsid, path, hlocal⟩ := localRinfo_of_word hword
  cases req with
  | push args =>
      obtain ⟨a, n, c, m, bs, hpeer⟩ := peerRinfo_eq (.push args)
      obtain rfl := Option.some.inj (hpeer.symm.trans hsrc)
      simp [Inbound.srcBackend, Backend.remote, Backend.getSize, Inbound.ReadsPosix]
  | pull args =>
      obtain rfl := Option.some.inj (hlocal.symm.trans hsrc)
      unfold Inbound.srcBackend Backend.getSize Inbound.ReadsPosix
      cases hk : b.kind <;> simp only [Inbound.ServedBy, hk] at hserved <;>
        cases hsize : env.size <;> simp

/-- A request that can be served has a size. -/
def Inbound.Sized (req : Inbound) (env : InboundEnv) (b : Backend) : Prop :=
  req.ServedBy env b → req.ReadsPosix b → env.size ≠ none

/-- A request for a path that finds a free id gets a task with the transferor for its direction,
unless the backend stops it. -/
theorem createForPeer_of_creatable {env : InboundEnv} {req : Inbound} {b : Backend}
    (hc : req.Creatable env) :
    (req.Sized env b ∧ ∃ tm type id tx,
      createForPeer env req b = .ok (tm, .success, some ⟨type, id, some tx⟩) ∧
        tx.kind = req.transferorKind) ∨
    (¬ (req.ServedBy env b ∧ req.Returns env b) ∧ ∃ f, createForPeer env req b = .error f) := by
  obtain ⟨hword, hfree⟩ := hc
  obtain ⟨src, dst, hsrc, hdst, hget, hval⟩ := get_of_word env hword
  cases hsize : (req.srcBackend b).getSize src env.size with
  | error f =>
      refine .inr ⟨fun h => ?_, f, ?_⟩
      · obtain ⟨hreads, hnone⟩ := (getSize_of_word hword hsrc h.1).mp ⟨f, hsize⟩
        exact h.2.size hreads hnone
      · simp only [createForPeer, if_neg hfree, hsrc, hsize]
  | ok size =>
      refine .inl ⟨fun hserved hreads hnone => ?_, ?_⟩
      · obtain ⟨f, hf⟩ := (getSize_of_word hword hsrc hserved).mpr ⟨hreads, hnone⟩
        rw [hsize] at hf
        cases hf
      · obtain ⟨info, hr⟩ := createRemote_of_get .remoteTransfer ⟨0, 0, 0⟩ (req.srcBackend b)
          (req.dstBackend b) size hfree hget hval
        have hcreated : createForPeer env req b = env.taskMgr.createRemoteInitiatedTask
            .remoteTransfer ⟨0, 0, 0⟩ (req.srcBackend b) (some src) (req.dstBackend b) (some dst)
            size := by
          simp only [createForPeer, if_neg hfree, hsrc, hsize, hdst]
        exact ⟨_, _, _, _, hcreated.trans hr, rfl⟩

/-- A type word that names no path leaves one description null, or makes both remote resources,
for which there is no transferor. -/
theorem not_accepted_of_not_word (env : InboundEnv) {req : Inbound}
    (hword : ¬ (req.typeWord = 1 ∨ req.typeWord = 2)) :
    (req.srcRinfo = none ∨ req.dstRinfo = none) ∨
    ∃ src dst, req.srcRinfo = some src ∧ req.dstRinfo = some dst ∧
      ¬ RemoteAccepted env.taskMgr src dst := by
  obtain ⟨address, pnsid, coll, name, buffers, hpeer⟩ := peerRinfo_eq req
  have hremote : ∀ {a n c m bs a' n' c' m' bs'}, ¬ RemoteAccepted env.taskMgr
      (.remoteResource a n c m bs) (.remoteResource a' n' c' m' bs') := by
    rintro _ _ _ _ _ _ _ _ _ _ ⟨tx, hget, -⟩
    cases (get_remote env).symm.trans hget
  obtain hlocal | ⟨a, n, c, m, bs, hlocal⟩ := localRinfo_of_not_word hword
  · cases req with
    | push args => exact Or.inl (Or.inr hlocal)
    | pull args => exact Or.inl (Or.inl hlocal)
  · cases req with
    | push args => exact Or.inr ⟨_, _, hpeer, hlocal, hremote⟩
    | pull args => exact Or.inr ⟨_, _, hlocal, hpeer, hremote⟩

/-- A creation that does not succeed. -/
theorem createForPeer_of_not_creatable {env : InboundEnv} {req : Inbound} {b : Backend}
    (hc : ¬ req.Creatable env) :
    (∃ f, createForPeer env req b = .error f) ∨
    ∃ tm e t, createForPeer env req b = .ok (tm, e, t) ∧ e ≠ .success := by
  by_cases hfree : env.taskMgr.nextId ∈ env.taskMgr.taskInfo
  · refine Or.inr ⟨env.taskMgr, .tooManyTasks, none, ?_, by decide⟩
    simp only [createForPeer, if_pos hfree, TaskManager.createRemoteInitiatedTask]
  · have hword : ¬ (req.typeWord = 1 ∨ req.typeWord = 2) := fun h => hc ⟨h, hfree⟩
    obtain ⟨src, f, -, -, hr⟩ | ⟨size, hr⟩ := createForPeer_cases req b hfree
    · exact Or.inl ⟨f, hr⟩
    · obtain hnull | ⟨src, dst, hsrc, hdst, hacc⟩ := not_accepted_of_not_word env hword
      · exact Or.inl ⟨_, hr.trans (createRemote_of_null _ _ _ _ _ hfree hnull)⟩
      · obtain ⟨info, e, he, hr'⟩ := createRemote_of_not_accepted .remoteTransfer ⟨0, 0, 0⟩
          (req.srcBackend b) (req.dstBackend b) size hfree hacc
        rw [hsrc, hdst, hr'] at hr
        exact Or.inr ⟨_, e, none, hr, he⟩

/-- The backend makes a resource. -/
def InboundEnv.Made (env : InboundEnv) (b : Backend) : Prop :=
  env.throws .resource = false ∧
    ((b.kind = .posixFilesystem ∧ env.posixEc = 0) ∨ b.kind = .nvmlDax)

/-- The resources of a request for a path. -/
theorem getResources_cases (env : InboundEnv) {req : Inbound} (b : Backend)
    (hword : req.typeWord = 1 ∨ req.typeWord = 2) :
    (¬ (req.ServedBy env b ∧ req.Returns env b) ∧ ∃ f, getResources env req b = .error f) ∨
    (req.ServedBy env b ∧ env.throws .resource = false ∧ b.kind = .posixFilesystem ∧
      env.posixEc ≠ 0 ∧ getResources env req b = .ok (.error env.posixEc)) ∨
    (env.Made b ∧ ∃ coll, (∀ args, req = .pull args → coll = env.isCollection) ∧
      getResources env req b = .ok (.ok coll)) := by
  obtain ⟨nsid, path, hlocal⟩ := localRinfo_of_word hword
  obtain ⟨address, pnsid, coll, name, buffers, hpeer⟩ := peerRinfo_eq req
  by_cases hthrow : b.onFiles = true ∧ env.throws .resource = true
  · -- the exception comes before everything else
    refine Or.inl ⟨fun h => ?_, .exception, ?_⟩
    · rw [h.2.resource] at hthrow
      exact Bool.false_ne_true hthrow.2
    · have hif : (b.onFiles && env.throws .resource) = true := by simp [hthrow]
      cases req with
      | push args =>
          have hsrc : (Inbound.push args).srcRinfo = some (.remoteResource address pnsid coll name
            buffers) := hpeer
          have hdst : (Inbound.push args).dstRinfo = some (.localPath nsid path) := hlocal
          simp only [getResources, hsrc, hdst, if_pos hif]
      | pull args =>
          have hsrc : (Inbound.pull args).srcRinfo = some (.localPath nsid path) := hlocal
          have hdst : (Inbound.pull args).dstRinfo = some (.remoteResource address pnsid coll name
            buffers) := hpeer
          simp only [getResources, hsrc, hdst, if_pos hif]
  · have hif : ¬ (b.onFiles && env.throws .resource) = true := by simpa using hthrow
    have hmade : b.onFiles = true → env.throws .resource = false := fun h => by
      simpa [h] using hthrow
    cases req with
    | push args =>
        have hsrc : (Inbound.push args).srcRinfo = some (.remoteResource address pnsid coll name
          buffers) := hpeer
        have hdst : (Inbound.push args).dstRinfo = some (.localPath nsid path) := hlocal
        simp only [getResources, hsrc, hdst, if_neg hif, Inbound.srcBackend, Inbound.dstBackend,
          Backend.remote, Backend.newResource, Backend.getResource, Inbound.ServedBy]
        cases hk : b.kind with
        | posixFilesystem =>
            have hthrows := hmade (by simp [Backend.onFiles, hk])
            by_cases hec : env.posixEc = 0
            · exact Or.inr (Or.inr ⟨⟨hthrows, Or.inl ⟨hk, hec⟩⟩, coll, nofun, by simp [hec]⟩)
            · exact Or.inr (Or.inl ⟨Or.inl hec, hthrows, rfl, hec, by simp [hec]⟩)
        | nvmlDax =>
            have hthrows := hmade (by simp [Backend.onFiles, hk])
            exact Or.inr (Or.inr ⟨⟨hthrows, Or.inr hk⟩, coll, nofun, rfl⟩)
        | lustre => exact Or.inl ⟨fun h => h.1, _, rfl⟩
        | processMemory => exact Or.inl ⟨fun h => h.1, _, rfl⟩
        | remoteBackend => exact Or.inl ⟨fun h => h.1, _, rfl⟩
    | pull args =>
        have hsrc : (Inbound.pull args).srcRinfo = some (.localPath nsid path) := hlocal
        have hdst : (Inbound.pull args).dstRinfo = some (.remoteResource address pnsid coll name
          buffers) := hpeer
        simp only [getResources, hsrc, hdst, if_neg hif, Inbound.srcBackend, Inbound.dstBackend,
          Backend.remote, Backend.newResource, Backend.getResource, Inbound.ServedBy]
        cases hk : b.kind with
        | posixFilesystem =>
            have hthrows := hmade (by simp [Backend.onFiles, hk])
            by_cases hec : env.posixEc = 0
            · exact Or.inr (Or.inr ⟨⟨hthrows, Or.inl ⟨hk, hec⟩⟩, env.isCollection, fun _ _ => rfl,
                by simp [hec]⟩)
            · exact Or.inr (Or.inl ⟨trivial, hthrows, rfl, hec, by simp [hec]⟩)
        | nvmlDax =>
            have hthrows := hmade (by simp [Backend.onFiles, hk])
            exact Or.inr (Or.inr ⟨⟨hthrows, Or.inr hk⟩, env.isCollection, fun _ _ => rfl, rfl⟩)
        | lustre => exact Or.inl ⟨fun h => h.1, _, rfl⟩
        | processMemory => exact Or.inl ⟨fun h => h.1, _, rfl⟩
        | remoteBackend => exact Or.inl ⟨fun h => h.1, _, rfl⟩

/-- `accept_transfer` of a push, and the callback it leads to. -/
theorem acceptPush_cases {env : InboundEnv} {args : PushArgs} (hlen : args.inBuffers.length = 1) :
    (¬ (Inbound.push args).AcceptReturns env ∧
      acceptPush env args.inBuffers args.inResourceName = .fault .exception) ∨
    ((Inbound.push args).AcceptReturns env ∧
      ∃ ec, ec ≠ 0 ∧ acceptPush env args.inBuffers args.inResourceName = .failed ec) ∨
    (((Inbound.push args).AcceptReturns env ↔ completionThrows env (.push args) = false) ∧
      acceptPush env args.inBuffers args.inResourceName = .posted) := by
  unfold acceptPush Inbound.AcceptReturns Inbound.acceptCalls completionThrows
  rw [if_neg (not_not.mpr hlen)]
  by_cases hname : (args.inResourceName.isEmpty && env.throws .isDirectory) = true
  · obtain ⟨hempty, hthrow⟩ := Bool.and_eq_true_iff.mp hname
    exact Or.inl ⟨fun h => by simpa [hthrow] using h .isDirectory (by simp [hempty]),
      by rw [if_pos hname]⟩
  rw [if_neg hname]
  have hlook : ∀ call ∈ if args.inResourceName.isEmpty then [ThrowingCall.isDirectory] else [],
      env.throws call = false := by
    intro call hcall
    split_ifs at hcall with hempty
    · rw [List.mem_singleton.mp hcall]
      simpa [hempty] using hname
    · cases hcall
  simp only [List.mem_append, or_imp, forall_and]
  by_cases hdir : (args.inResourceName.isEmpty && env.targetIsDirectory) = true
  · rw [if_pos hdir, if_pos hdir]
    exact Or.inr (Or.inl ⟨⟨hlook, by simp⟩, EISDIR, by decide, rfl⟩)
  rw [if_neg hdir, if_neg hdir]
  cases htmp : env.throws .temporaryFile with
  | true => exact Or.inl ⟨fun h => by simpa [htmp] using h.2 .temporaryFile (by simp), rfl⟩
  | false =>
      by_cases htempfile : env.tempfileEc = 0
      · by_cases hmap : env.mapEc = 0
        · cases hexpose : env.throws .expose with
          | true =>
              refine Or.inl ⟨fun h => ?_, by simp [htempfile, hmap]⟩
              simpa [hexpose] using h.2 .expose (by simp [htempfile, hmap])
          | false =>
              refine Or.inr (Or.inr ⟨?_, by simp [htempfile, hmap]⟩)
              rw [and_iff_right hlook]
              cases hcoll : args.inIsCollection <;> simp [htempfile, hmap, htmp, hexpose]
        · refine Or.inr (Or.inl ⟨⟨hlook, by simp [hmap, htmp]⟩, env.mapEc, hmap, ?_⟩)
          simp [htempfile, hmap]
      · refine Or.inr (Or.inl ⟨⟨hlook, by simp [htempfile, htmp]⟩, env.tempfileEc, htempfile, ?_⟩)
        simp [htempfile]

/-- `accept_transfer` of a pull. -/
theorem acceptPull_cases {env : InboundEnv} (args : PullArgs) :
    (¬ (Inbound.pull args).AcceptReturns env ∧
      acceptPull env env.isCollection = .fault .exception) ∨
    ((Inbound.pull args).AcceptReturns env ∧
      ∃ ec, ec ≠ 0 ∧ acceptPull env env.isCollection = .failed ec) ∨
    ((Inbound.pull args).AcceptReturns env ∧ acceptPull env env.isCollection = .posted) := by
  unfold acceptPull Inbound.AcceptReturns Inbound.acceptCalls
  by_cases hpack : (env.isCollection && env.throws .packArchive) = true
  · obtain ⟨hcoll, hthrow⟩ := Bool.and_eq_true_iff.mp hpack
    exact Or.inl ⟨fun h => by simpa [hthrow] using h .packArchive (by simp [hcoll]),
      by rw [if_pos hpack]⟩
  rw [if_neg hpack]
  have hpacked : ∀ call ∈ if env.isCollection then [ThrowingCall.packArchive] else [],
      env.throws call = false := by
    intro call hcall
    split_ifs at hcall with hcoll
    · rw [List.mem_singleton.mp hcall]
      simpa [hcoll] using hpack
    · cases hcall
  simp only [List.mem_append, or_imp, forall_and]
  by_cases hmap : env.mapEc = 0
  · by_cases hec : env.isCollection = true ∧ env.packEc ≠ 0
    · refine Or.inr (Or.inl ⟨⟨hpacked, by simp [hec]⟩, env.packEc, hec.2, by simp [hmap, hec]⟩)
    · have hcode : (if env.isCollection = true then env.packEc else 0) = 0 := by
        split_ifs with hcoll
        · simpa [hcoll] using hec
        · rfl
      cases hexpose : env.throws .expose with
      | true =>
          refine Or.inl ⟨fun h => ?_, by simp [hmap, hcode]⟩
          simpa [hexpose] using h.2 .expose (by simp [hmap, hec])
      | false =>
          exact Or.inr (Or.inr ⟨⟨hpacked, by simp [hmap, hec, hexpose]⟩, by simp [hmap, hcode]⟩)
  · exact Or.inr (Or.inl ⟨⟨hpacked, by simp [hmap]⟩, env.mapEc, hmap, by simp [hmap]⟩)

/-- `accept_transfer` with resources that are there. -/
theorem acceptTransfer_cases {env : InboundEnv} {req : Inbound} {b : Backend} {tx : Transferor}
    {coll : Bool} (htx : tx.kind = req.transferorKind) (hmade : env.Made b)
    (hcoll : ∀ args, req = .pull args → coll = env.isCollection) :
    (¬ (req.ServedBy env b ∧ req.AcceptReturns env) ∧
      ∃ f, req.acceptTransfer env tx coll = .fault f) ∨
    ((req.ServedBy env b ∧ req.AcceptReturns env) ∧
      ∃ ec, ec ≠ 0 ∧ req.acceptTransfer env tx coll = .failed ec) ∨
    ((req.ServedBy env b ∧ req.AcceptReturns env ↔ completionThrows env req = false) ∧
      req.acceptTransfer env tx coll = .posted) := by
  cases req with
  | push args =>
      have hserved : (Inbound.push args).ServedBy env b ↔ args.inBuffers.length = 1 := by
        obtain ⟨hk, hec⟩ | hk := hmade.2
        · simp [Inbound.ServedBy, hk, hec]
        · simp [Inbound.ServedBy, hk]
      rw [hserved]
      simp only [Inbound.acceptTransfer, htx, Inbound.transferorKind]
      by_cases hlen : args.inBuffers.length = 1
      · obtain ⟨h, hr⟩ | ⟨h, ec, hec, hr⟩ | ⟨h, hr⟩ := @acceptPush_cases env _ hlen
        · exact Or.inl ⟨fun hs => h hs.2, _, hr⟩
        · exact Or.inr (Or.inl ⟨⟨hlen, h⟩, ec, hec, hr⟩)
        · exact Or.inr (Or.inr ⟨(and_iff_right hlen).trans h, hr⟩)
      · exact Or.inl ⟨fun hs => hlen hs.1, .assertion, if_pos hlen⟩
  | pull args =>
      have hserved : (Inbound.pull args).ServedBy env b := by
        obtain ⟨hk, -⟩ | hk := hmade.2 <;> simp [Inbound.ServedBy, hk]
      rw [hcoll args rfl]
      simp only [Inbound.acceptTransfer, htx, Inbound.transferorKind]
      obtain ⟨h, hr⟩ | ⟨h, ec, hec, hr⟩ | ⟨h, hr⟩ := @acceptPull_cases env args
      · exact Or.inl ⟨fun hs => h hs.2, _, hr⟩
      · exact Or.inr (Or.inl ⟨⟨hserved, h⟩, ec, hec, hr⟩)
      · exact Or.inr (Or.inr ⟨iff_of_true ⟨hserved, h⟩ rfl, hr⟩)

/-! ### The invariant -/

/-- A response that tells the initiator the truth about an error: the error number is there. -/
def TransferOutput.Honest (r : TransferOutput) : Prop :=
  (r.status = TaskStatus.finishedWithError.toWord ∧ r.sysErrnum ≠ 0) ∨
  r.status = TaskStatus.finished.toWord

/-- The request is on its way through hermes, and answered unless the callback throws, or it has
been through the callback. -/
def Inbound.InFlight (req : Inbound) (env : InboundEnv) (p : Place) : Prop :=
  ((p = .bulk ∨ p = .completion) ∧ (req.Answerable env ↔ completionThrows env req = false)) ∨
  (p = .spent ∧ req.Answerable env) ∨
  (p = .dropped ∧ ¬ req.Answerable env)

/-- The request is refused by one of the first two checks. -/
def Inbound.Refused (req : Inbound) (env : InboundEnv) : Prop :=
  env.isPaused = true ∨ env.namespaceMgr.find req.localNsid false = none

/-- What holds at each position of the handler. -/
def TransferState.PositionOk (env : InboundEnv) (req : Inbound) (s : TransferState) : Prop :=
  match s.pc with
  | .entry => s.place = .handler
  | .create b => s.place = .context ∧ env.isPaused = false ∧
      env.namespaceMgr.find req.localNsid false = some b
  | .run b tx => s.place = .context ∧ env.isPaused = false ∧
      env.namespaceMgr.find req.localNsid false = some b ∧ req.Creatable env ∧
      req.Sized env b ∧ tx.kind = req.transferorKind
  | .accept tx coll => s.place = .context ∧ env.isPaused = false ∧ ∃ b,
      env.namespaceMgr.find req.localNsid false = some b ∧ req.Creatable env ∧
      req.Sized env b ∧ env.Made b ∧ tx.kind = req.transferorKind ∧
      ∀ args, req = .pull args → coll = env.isCollection
  | .check out =>
      (out.status = .finishedWithError ∧ out.sysError ≠ 0 ∧ s.place = .context ∧
        req.Answerable env) ∨
      (out.status = .finished ∧ req.InFlight env s.place)
  | .returned => req.InFlight env s.place ∨ (¬ req.Answerable env ∧ s.place = .context)
  | .crashed _ => ¬ req.Answerable env ∧ (s.place = .context ∨ s.place = .transfer)

structure TransferState.Inv (env : InboundEnv) (req : Inbound) (s : TransferState) : Prop where
  conserved : s.Conserved
  honest : ∀ r ∈ s.responses, req.Refused env ∨ r.Honest
  position : s.PositionOk env req

theorem answerable_iff {env : InboundEnv} {req : Inbound} {b : Backend}
    (hp : env.isPaused = false) (hf : env.namespaceMgr.find req.localNsid false = some b) :
    req.Answerable env ↔ req.Creatable env ∧ req.ServedBy env b ∧ req.Returns env b := by
  unfold Inbound.Answerable
  simp [hp, hf]

theorem wordOfErrc_ne_zero {ec : ErrorCode} (h : ec ≠ 0) : wordOfErrc ec ≠ 0 := by
  intro hw
  apply h
  rw [← errcOfWord_wordOfErrc ec, hw, errcOfWord_zero]

theorem errorOutput_honest (e : UrdError) {ec : ErrorCode} (h : ec ≠ 0) :
    (errorOutput e ec).Honest := Or.inl ⟨rfl, wordOfErrc_ne_zero h⟩

theorem completionOutput_honest (env : InboundEnv) (req : Inbound) :
    (completionOutput env req).Honest := by
  cases req with
  | push args =>
      simp only [completionOutput]
      split_ifs with hec
      · exact errorOutput_honest _ (by simpa using (Bool.and_eq_true_iff.mp hec).2)
      · exact Or.inr rfl
  | pull args => exact Or.inr rfl

namespace TransferState.Inv

variable {env : InboundEnv} {req : Inbound} {s s' : TransferState}

theorem ofInit : Inv env req .init := ⟨rfl, fun _ h => absurd h List.not_mem_nil, rfl⟩

/-- The handler goes on without touching the request. -/
theorem goto (h : Inv env req s) {pc : HandlerPc} (hpos : PositionOk env req (s.goto pc)) :
    Inv env req (s.goto pc) := ⟨h.conserved, h.honest, hpos⟩

/-- The request is moved to `y`. -/
theorem place (h : Inv env req s) {y : Place} {pc : HandlerPc} (hx : s.place ≠ .spent)
    (hy : y ≠ .spent) (hpos : PositionOk env req ⟨pc, y, s.responses⟩) :
    Inv env req ⟨pc, y, s.responses⟩ := by
  refine ⟨?_, h.honest, hpos⟩
  have hcons := h.conserved
  unfold RpcState.Conserved at hcons ⊢
  rw [if_neg hx] at hcons
  rw [if_neg hy]
  exact hcons

/-- The request is answered. -/
theorem answered (h : Inv env req s) {r : TransferOutput} {pc : HandlerPc}
    (hx : s.place ≠ .spent) (hr : req.Refused env ∨ r.Honest)
    (hpos : PositionOk env req ⟨pc, .spent, s.responses ++ [r]⟩) :
    Inv env req ⟨pc, .spent, s.responses ++ [r]⟩ := by
  refine ⟨?_, ?_, hpos⟩
  · have hcons := h.conserved
    unfold RpcState.Conserved at hcons ⊢
    rw [if_neg hx] at hcons
    simp [hcons]
  · intro r' hr'
    obtain hr' | hr' := List.mem_append.mp hr'
    · exact h.honest r' hr'
    · rw [List.mem_singleton.mp hr']
      exact hr

theorem entry (h : Inv env req s) (hpc : s.pc = .entry) (hnext : handlerNext env req s = some s') :
    Inv env req s' := by
  have hplace : s.place = .handler := by
    have hpos := h.position
    unfold PositionOk at hpos
    rwa [hpc] at hpos
  have hlive : s.place ≠ .spent := by simp [hplace]
  unfold handlerNext at hnext
  rw [hpc] at hnext
  dsimp only at hnext
  cases hp : env.isPaused with
  | true =>
      rw [hp, if_pos rfl, RpcState.respond_of_place hplace] at hnext
      obtain rfl := Option.some.inj hnext
      exact h.answered hlive (Or.inl (Or.inl hp))
        (Or.inl (Or.inr (Or.inl ⟨rfl, Or.inl hp⟩)))
  | false =>
      rw [hp] at hnext
      simp only [Bool.false_eq_true, if_false] at hnext
      cases hf : env.namespaceMgr.find req.localNsid false with
      | none =>
          rw [hf] at hnext
          dsimp only at hnext
          rw [RpcState.respond_of_place hplace] at hnext
          obtain rfl := Option.some.inj hnext
          exact h.answered hlive (Or.inl (Or.inr hf))
            (Or.inl (Or.inr (Or.inl ⟨rfl, Or.inr (Or.inl hf)⟩)))
      | some b =>
          rw [hf] at hnext
          dsimp only at hnext
          rw [RpcState.move_of_place hplace] at hnext
          obtain rfl := Option.some.inj hnext
          exact h.place (y := .context) hlive (by decide) ⟨rfl, hp, hf⟩

theorem create (h : Inv env req s) {b : Backend} (hpc : s.pc = .create b)
    (hnext : handlerNext env req s = some s') : Inv env req s' := by
  have hpos := h.position
  unfold PositionOk at hpos
  rw [hpc] at hpos
  obtain ⟨hplace, hp, hf⟩ := hpos
  have hans := answerable_iff hp hf
  unfold handlerNext at hnext
  rw [hpc] at hnext
  dsimp only at hnext
  by_cases hc : req.Creatable env
  · rcases createForPeer_of_creatable (b := b) hc
      with ⟨hsized, tm, type, id, tx, hr, htx⟩ | ⟨hserved, f, hr⟩
    · rw [hr] at hnext
      obtain rfl := Option.some.inj hnext
      exact h.goto ⟨hplace, hp, hf, hc, hsized, htx⟩
    · rw [hr] at hnext
      obtain rfl := Option.some.inj hnext
      exact h.goto ⟨fun ha => hserved (hans.mp ha).2, Or.inl hplace⟩
  · have hna : ¬ req.Answerable env := fun ha => hc (hans.mp ha).1
    obtain ⟨f, hr⟩ | ⟨tm, e, t, hr, he⟩ := createForPeer_of_not_creatable (b := b) hc
    · rw [hr] at hnext
      obtain rfl := Option.some.inj hnext
      exact h.goto ⟨hna, Or.inl hplace⟩
    · rw [hr] at hnext
      have hs' : s' = s.goto .returned := by
        cases e <;> first | exact absurd rfl he | exact (Option.some.inj hnext).symm
      rw [hs']
      exact h.goto (Or.inr ⟨hna, hplace⟩)

theorem run (h : Inv env req s) {b : Backend} {tx : Transferor} (hpc : s.pc = .run b tx)
    (hnext : handlerNext env req s = some s') : Inv env req s' := by
  have hpos := h.position
  unfold PositionOk at hpos
  rw [hpc] at hpos
  obtain ⟨hplace, hp, hf, hc, hsized, htx⟩ := hpos
  have hans := answerable_iff hp hf
  unfold handlerNext at hnext
  rw [hpc] at hnext
  dsimp only at hnext
  obtain ⟨hserved, f, hr⟩ | ⟨hserved, hthrow, hk, hec, hr⟩ | ⟨hmade, coll, hcoll, hr⟩ :=
    getResources_cases env b hc.1
  · rw [hr] at hnext
    obtain rfl := Option.some.inj hnext
    exact h.goto ⟨fun ha => hserved (hans.mp ha).2, Or.inl hplace⟩
  · rw [hr] at hnext
    obtain rfl := Option.some.inj hnext
    exact h.goto (Or.inl ⟨rfl, hec, hplace,
      hans.mpr ⟨hc, hserved, hsized hserved, hthrow, fun h => absurd (h hk) hec⟩⟩)
  · rw [hr] at hnext
    obtain rfl := Option.some.inj hnext
    exact h.goto ⟨hplace, hp, b, hf, hc, hsized, hmade, htx, hcoll⟩

theorem accept (h : Inv env req s) {tx : Transferor} {coll : Bool} (hpc : s.pc = .accept tx coll)
    (hnext : handlerNext env req s = some s') : Inv env req s' := by
  have hpos := h.position
  unfold PositionOk at hpos
  rw [hpc] at hpos
  obtain ⟨hplace, hp, b, hf, hc, hsized, hmade, htx, hcoll⟩ := hpos
  have hans : req.Answerable env ↔ req.ServedBy env b ∧ req.AcceptReturns env := by
    rw [answerable_iff hp hf, and_iff_right hc]
    have hposix : b.kind = .posixFilesystem → env.posixEc = 0 := fun hk =>
      hmade.2.elim And.right fun hn => by rw [hn] at hk; cases hk
    exact and_congr_right fun hserved =>
      ⟨fun h => h.accept hposix, fun h => ⟨hsized hserved, hmade.1, fun _ => h⟩⟩
  unfold handlerNext at hnext
  rw [hpc] at hnext
  dsimp only at hnext
  rw [RpcState.move_of_place hplace] at hnext
  have hlive : s.place ≠ .spent := by simp [hplace]
  obtain ⟨hserved, f, hr⟩ | ⟨hserved, ec, hec, hr⟩ | ⟨hposted, hr⟩ :=
    acceptTransfer_cases htx hmade hcoll
  · rw [hr] at hnext
    obtain rfl := Option.some.inj hnext
    exact h.place (y := .transfer) hlive (by decide) ⟨fun ha => hserved (hans.mp ha), Or.inr rfl⟩
  · rw [hr] at hnext
    obtain rfl := Option.some.inj hnext
    exact h.place (y := .context) hlive (by decide)
      (Or.inl ⟨rfl, hec, rfl, hans.mpr hserved⟩)
  · rw [hr] at hnext
    obtain rfl := Option.some.inj hnext
    exact h.place (y := .bulk) hlive (by decide)
      (Or.inr ⟨rfl, Or.inl ⟨Or.inl rfl, hans.trans hposted⟩⟩)

theorem check (h : Inv env req s) {out : TaskOutcome} (hpc : s.pc = .check out)
    (hnext : handlerNext env req s = some s') : Inv env req s' := by
  have hpos := h.position
  unfold PositionOk at hpos
  rw [hpc] at hpos
  obtain ⟨hst, hec, hplace, hans⟩ | ⟨hst, hplace⟩ := hpos
  · unfold handlerNext at hnext
    rw [hpc] at hnext
    dsimp only at hnext
    rw [if_pos hst, RpcState.move_of_place hplace] at hnext
    obtain rfl := Option.some.inj hnext
    exact h.answered (by simp [hplace]) (Or.inr (errorOutput_honest _ hec))
      (Or.inl (Or.inr (Or.inl ⟨rfl, hans⟩)))
  · have hne : s.place ≠ .context := by
      obtain ⟨h | h, -⟩ | ⟨h, -⟩ | ⟨h, -⟩ := hplace <;> simp [h]
    unfold handlerNext at hnext
    rw [hpc] at hnext
    dsimp only at hnext
    rw [if_neg (by simp [hst]), RpcState.move_of_ne hne] at hnext
    obtain rfl := Option.some.inj hnext
    exact h.goto (Or.inl hplace)

theorem handler (h : Inv env req s) (hnext : handlerNext env req s = some s') :
    Inv env req s' := by
  cases hpc : s.pc with
  | entry => exact h.entry hpc hnext
  | create b => exact h.create hpc hnext
  | run b tx => exact h.run hpc hnext
  | accept tx coll => exact h.accept hpc hnext
  | check out => exact h.check hpc hnext
  | returned =>
      unfold handlerNext at hnext
      rw [hpc] at hnext
      cases hnext
  | crashed f =>
      unfold handlerNext at hnext
      rw [hpc] at hnext
      cases hnext

/-- A request in flight is there because the handler has posted it. -/
theorem inFlight (h : Inv env req s) (hp : s.place = .bulk ∨ s.place = .completion) :
    (req.Answerable env ↔ completionThrows env req = false) ∧
      ∀ p : Place, req.InFlight env p → PositionOk env req ⟨s.pc, p, s.responses⟩ := by
  have hpos := h.position
  have hposted : req.InFlight env s.place →
      (req.Answerable env ↔ completionThrows env req = false) := by
    rintro (⟨-, h⟩ | ⟨h, -⟩ | ⟨h, -⟩)
    · exact h
    all_goals simp [h] at hp
  have hnot : s.place ≠ .handler ∧ s.place ≠ .context ∧ s.place ≠ .transfer := by
    obtain h | h := hp <;> simp [h]
  unfold PositionOk at hpos ⊢
  dsimp only
  cases hpc : s.pc <;> rw [hpc] at hpos
  case entry => exact absurd hpos hnot.1
  case create => exact absurd hpos.1 hnot.2.1
  case run => exact absurd hpos.1 hnot.2.1
  case accept => exact absurd hpos.1 hnot.2.1
  case check =>
    obtain ⟨-, -, hctx, -⟩ | ⟨hst, hflight⟩ := hpos
    · exact absurd hctx hnot.2.1
    · exact ⟨hposted hflight, fun p hp' => Or.inr ⟨hst, hp'⟩⟩
  case returned =>
    obtain hflight | ⟨-, hctx⟩ := hpos
    · exact ⟨hposted hflight, fun p hp' => Or.inl hp'⟩
    · exact absurd hctx hnot.2.1
  case crashed =>
    obtain hctx | htr := hpos.2
    · exact absurd hctx hnot.2.1
    · exact absurd htr hnot.2.2

theorem completion (h : Inv env req s) (hnext : completionNext env req s = some s') :
    Inv env req s' := by
  unfold completionNext at hnext
  split at hnext
  · next hplace =>
      rw [RpcState.move_of_place hplace] at hnext
      obtain rfl := Option.some.inj hnext
      obtain ⟨hposted, hpos⟩ := h.inFlight (Or.inl hplace)
      exact h.place (y := .completion) (by simp [hplace]) (by decide)
        (hpos _ (Or.inl ⟨Or.inr rfl, hposted⟩))
  · next hplace =>
      obtain ⟨hposted, hpos⟩ := h.inFlight (Or.inr hplace)
      split_ifs at hnext with hthrow
      · rw [RpcState.move_of_place hplace] at hnext
        obtain rfl := Option.some.inj hnext
        exact h.place (y := .dropped) (by simp [hplace]) (by decide)
          (hpos _ (Or.inr (Or.inr ⟨rfl, fun ha => by simp [hposted.mp ha] at hthrow⟩)))
      · rw [RpcState.respond_of_place hplace] at hnext
        obtain rfl := Option.some.inj hnext
        exact h.answered (by simp [hplace]) (Or.inr (completionOutput_honest env req))
          (hpos _ (Or.inr (Or.inl ⟨rfl, hposted.mpr (by simpa using hthrow)⟩)))
  · cases hnext

theorem step (s s' : TransferState) (h : Inv env req s) (hstep : TransferStep env req s s') :
    Inv env req s' := hstep.elim h.handler h.completion

end TransferState.Inv

/-! ### Every run ends -/

/-- How far the handler is from its end. -/
def HandlerPc.rank : HandlerPc → ℕ
  | .entry => 5
  | .create _ => 4
  | .run _ _ => 3
  | .accept _ _ => 2
  | .check _ => 1
  | .returned => 0
  | .crashed _ => 0

/-- How far the bulk operation is from its end. -/
def Place.rank : Place → ℕ
  | .bulk => 2
  | .completion => 1
  | _ => 0

theorem Place.rank_le (p : Place) : p.rank ≤ 2 := by cases p <;> decide

/-- A measure of the steps that are left. -/
def TransferState.remaining (s : TransferState) : ℕ := 3 * s.pc.rank + s.place.rank

theorem rank_handlerNext {env : InboundEnv} {req : Inbound} {s s' : TransferState}
    (h : handlerNext env req s = some s') : s'.pc.rank < s.pc.rank := by
  unfold handlerNext at h
  split at h
  · next hpc =>
      rw [hpc]
      split_ifs at h
      · obtain rfl := Option.some.inj h
        simp [HandlerPc.rank]
      · split at h <;> obtain rfl := Option.some.inj h <;> simp [HandlerPc.rank]
  · next hpc =>
      rw [hpc]
      split at h <;> obtain rfl := Option.some.inj h <;> simp [HandlerPc.rank]
  · next hpc =>
      rw [hpc]
      split at h <;> obtain rfl := Option.some.inj h <;> simp [HandlerPc.rank]
  · next hpc =>
      rw [hpc]
      split at h <;> obtain rfl := Option.some.inj h <;> simp [HandlerPc.rank]
  · next hpc =>
      rw [hpc]
      dsimp only at h
      split_ifs at h <;> obtain rfl := Option.some.inj h <;> simp [HandlerPc.rank]
  · cases h
  · cases h

theorem remaining_step {env : InboundEnv} {req : Inbound} (s s' : TransferState)
    (h : TransferStep env req s s') : s'.remaining < s.remaining := by
  unfold TransferState.remaining
  obtain h | h := h
  · have hrank := rank_handlerNext h
    have hle := s'.place.rank_le
    omega
  · unfold completionNext at h
    split at h
    · next hplace =>
        rw [RpcState.move_of_place hplace] at h
        obtain rfl := Option.some.inj h
        rw [hplace]
        simp [Place.rank]
    · next hplace =>
        rw [RpcState.move_of_place hplace, RpcState.respond_of_place hplace] at h
        split_ifs at h
        all_goals
          obtain rfl := Option.some.inj h
          rw [hplace]
          simp [Place.rank]
    · cases h

theorem handlerNext_eq_none {env : InboundEnv} {req : Inbound} {s : TransferState}
    (h : handlerNext env req s = none) : s.pc = .returned ∨ ∃ f, s.pc = .crashed f := by
  unfold handlerNext at h
  split at h
  · split_ifs at h
    split at h <;> cases h
  · split at h <;> cases h
  · split at h <;> cases h
  · split at h <;> cases h
  · dsimp only at h
    split_ifs at h
  · next hpc => exact Or.inl hpc
  · next f hpc => exact Or.inr ⟨f, hpc⟩

/-- A finished run has spent the request exactly if it was answerable. -/
theorem TransferState.Inv.final {env : InboundEnv} {req : Inbound} {s : TransferState}
    (h : Inv env req s) (hfin : Final (TransferStep env req) s) :
    (req.Answerable env ∧ s.place = .spent) ∨ (¬ req.Answerable env ∧ s.place ≠ .spent) := by
  have hnone : handlerNext env req s = none :=
    Option.eq_none_iff_forall_ne_some.mpr fun s' hs' => hfin s' (Or.inl hs')
  have hdone : completionNext env req s = none :=
    Option.eq_none_iff_forall_ne_some.mpr fun s' hs' => hfin s' (Or.inr hs')
  have hplace : s.place ≠ .bulk ∧ s.place ≠ .completion := by
    constructor
    · intro hp
      simp [completionNext, hp] at hdone
    · intro hp
      simp only [completionNext, hp] at hdone
      split_ifs at hdone
  have hpos := h.position
  unfold PositionOk at hpos
  obtain hpc | ⟨f, hpc⟩ := handlerNext_eq_none hnone
  · rw [hpc] at hpos
    obtain (⟨hflight, -⟩ | ⟨hspent, hans⟩ | ⟨hdropped, hans⟩) | ⟨hans, hctx⟩ := hpos
    · exact (hflight.elim hplace.1 hplace.2).elim
    · exact Or.inl ⟨hans, hspent⟩
    · exact Or.inr ⟨hans, by simp [hdropped]⟩
    · exact Or.inr ⟨hans, by simp [hctx]⟩
  · rw [hpc] at hpos
    refine Or.inr ⟨hpos.1, ?_⟩
    obtain hp | hp := hpos.2 <;> simp [hp]

/-- A system whose runs end, with the request spent in exactly the runs of the answerable
requests, answers exactly those once. -/
theorem answeredOnce_iff {π ρ : Type} {step : RpcState π ρ → RpcState π ρ → Prop}
    {init : RpcState π ρ} {P : Prop} (μ : RpcState π ρ → ℕ)
    (hdec : ∀ s s', step s s' → μ s' < μ s) (hcons : ∀ s, Run step init s → s.Conserved)
    (hfin : ∀ s, Run step init s → Final step s →
      (P ∧ s.place = .spent) ∨ (¬ P ∧ s.place ≠ .spent)) :
    AnsweredOnce step init ↔ P := by
  constructor
  · intro h
    obtain ⟨s, hrun, hs⟩ := exists_final μ hdec init
    obtain ⟨hP, -⟩ | ⟨-, hp⟩ := hfin s hrun hs
    · exact hP
    · have hone := h.once s hrun hs
      have hc := hcons s hrun
      unfold RpcState.Conserved at hc
      rw [if_neg hp] at hc
      omega
  · intro hP
    refine ⟨fun s hrun => (hcons s hrun).le_one, fun s _ => exists_final μ hdec s, ?_⟩
    intro s hrun hs
    obtain ⟨-, hp⟩ | ⟨hnP, -⟩ := hfin s hrun hs
    · have hc := hcons s hrun
      unfold RpcState.Conserved at hc
      rwa [if_pos hp] at hc
    · exact absurd hP hnP

theorem transfer_answeredOnce_iff (env : InboundEnv) (req : Inbound) :
    AnsweredOnce (TransferStep env req) TransferState.init ↔ req.Answerable env := by
  have hinv : ∀ s, Run (TransferStep env req) TransferState.init s → TransferState.Inv env req s :=
    fun s hrun => Run.invariant TransferState.Inv.step hrun .ofInit
  exact answeredOnce_iff TransferState.remaining remaining_step
    (fun s hrun => (hinv s hrun).conserved) (fun s hrun hfin => (hinv s hrun).final hfin)

/-! ### Stat -/

/-- What an incoming stat depends on besides its arguments. -/
structure StatEnv where
  namespaceMgr : NamespaceManager
  posixEc : ErrorCode
  isCollection : Bool
  /-- `get_resource` throws. -/
  resourceThrows : Bool
  /-- the answer of `packed_size`, none if it throws. -/
  packedSize : Option UInt64

/-- `create_rinfo` of the handler. -/
def StatArgs.createRinfo (args : StatArgs) : Option ResourceInfo :=
  match ResourceType.ofWord args.resourceType with
  | some .localPosixPath => some (.localPath args.nsid args.resourceName)
  | some .sharedPosixPath => some (.localPath args.nsid args.resourceName)
  | _ => none

/-- Where the handler is. -/
inductive StatPc where
  | entry
  /-- the namespace has been found. -/
  | resource (b : Backend)
  | returned
  | crashed (f : Fault)

abbrev StatState := RpcState StatPc StatOutput

def StatState.init : StatState := ⟨.entry, .handler, []⟩

/-- The next step of `urd::stat_resource_handler`. -/
def statNext (env : StatEnv) (args : StatArgs) (s : StatState) : Option StatState :=
  match s.pc with
  | .entry =>
      match env.namespaceMgr.find args.nsid false with
      | none =>
          -- the arguments are `(rv, false, ENOENT, 0)`: `false` becomes the error number, and
          -- `ENOENT` the flag
          some ((s.respond .handler ⟨UrdError.noSuchNamespace.toWord, 0, ENOENT ≠ 0, 0⟩).goto
            .returned)
      | some b => some (s.goto (.resource b))
  | .resource b =>
      match args.createRinfo with
      -- the message that is logged first asks the null pointer for its text
      | none => some (s.goto (.crashed .nullDeref))
      | some rinfo =>
          if b.onFiles && env.resourceThrows then some (s.goto (.crashed .exception))
          else
            match b.getResource rinfo env.posixEc env.isCollection with
            | .error f => some (s.goto (.crashed f))
            | .ok (rsrc, ec) =>
                if ec ≠ 0 then
                  some ((s.respond .handler
                    ⟨UrdError.noSuchResource.toWord, wordOfErrc ec, false, 0⟩).goto .returned)
                else
                  match rsrc, env.packedSize with
                  | none, _ => some (s.goto (.crashed .nullDeref))
                  | some _, none => some (s.goto (.crashed .exception))
                  | some coll, some packedSize =>
                      some ((s.respond .handler
                        ⟨UrdError.success.toWord, 0, coll, packedSize⟩).goto .returned)
  | .returned => none
  | .crashed _ => none

/-- `urd::stat_resource_handler`. -/
def statResourceHandler (env : StatEnv) (args : StatArgs) (s s' : StatState) : Prop :=
  statNext env args s = some s'

/-- Nothing that a stat calls throws: `packed_size` is asked for a resource that is there. -/
structure StatEnv.Returns (env : StatEnv) (b : Backend) : Prop where
  resource : env.resourceThrows = false
  packedSize : (b.kind = .posixFilesystem → env.posixEc = 0) → env.packedSize ≠ none

/-- The conditions under which a stat is answered. -/
def StatArgs.Answerable (args : StatArgs) (env : StatEnv) : Prop :=
  env.namespaceMgr.find args.nsid false = none ∨
  ∃ b, env.namespaceMgr.find args.nsid false = some b ∧
    (args.resourceType = 1 ∨ args.resourceType = 2) ∧
    (b.kind = .posixFilesystem ∨ b.kind = .nvmlDax) ∧ env.Returns b

/-- A response that tells the initiator the truth about an error. -/
def StatOutput.Honest (r : StatOutput) : Prop :=
  r.taskError = UrdError.success.toWord ∨ r.sysErrnum ≠ 0

/-- The three kinds of states of a stat: before the lookup, before the resource, and at the end. -/
inductive StatState.Inv (env : StatEnv) (args : StatArgs) : StatState → Prop
  | entry : Inv env args .init
  | resource {b : Backend} (hf : env.namespaceMgr.find args.nsid false = some b) :
      Inv env args ⟨.resource b, .handler, []⟩
  | answered {r : StatOutput} (hans : args.Answerable env)
      (hr : env.namespaceMgr.find args.nsid false = none ∨ r.Honest) :
      Inv env args ⟨.returned, .spent, [r]⟩
  | crashed {f : Fault} (hans : ¬ args.Answerable env) : Inv env args ⟨.crashed f, .handler, []⟩

theorem createRinfo_of_word {args : StatArgs} (h : args.resourceType = 1 ∨ args.resourceType = 2) :
    args.createRinfo = some (.localPath args.nsid args.resourceName) := by
  unfold StatArgs.createRinfo
  obtain h | h := h <;> rw [h] <;> rfl

theorem createRinfo_of_not_word {args : StatArgs}
    (h : ¬ (args.resourceType = 1 ∨ args.resourceType = 2)) : args.createRinfo = none := by
  rw [not_or] at h
  unfold StatArgs.createRinfo ResourceType.ofWord
  rw [if_neg h.1, if_neg h.2]
  split_ifs <;> rfl

theorem statAnswerable_iff {env : StatEnv} {args : StatArgs} {b : Backend}
    (hf : env.namespaceMgr.find args.nsid false = some b) :
    args.Answerable env ↔ (args.resourceType = 1 ∨ args.resourceType = 2) ∧
      (b.kind = .posixFilesystem ∨ b.kind = .nvmlDax) ∧ env.Returns b := by
  unfold StatArgs.Answerable
  simp [hf]

/-- The step that looks at the resource. -/
theorem stat_resource_step {env : StatEnv} {args : StatArgs} {b : Backend} {s' : StatState}
    (hf : env.namespaceMgr.find args.nsid false = some b)
    (h : statNext env args ⟨.resource b, .handler, []⟩ = some s') : StatState.Inv env args s' := by
  have hans := statAnswerable_iff hf
  unfold statNext at h
  dsimp only at h
  by_cases hword : args.resourceType = 1 ∨ args.resourceType = 2
  · rw [createRinfo_of_word hword] at h
    dsimp only at h
    split_ifs at h with hthrow
    · obtain rfl := Option.some.inj h
      refine .crashed fun ha => ?_
      have hresource := (hans.mp ha).2.2.resource
      simp [hresource] at hthrow
    · have hresource : b.onFiles = true → env.resourceThrows = false := fun hfiles => by
        simpa [hfiles] using hthrow
      cases hk : b.kind <;> simp only [Backend.getResource, hk] at h
      case posixFilesystem =>
        have hresource := hresource (by simp [Backend.onFiles, hk])
        by_cases hec : env.posixEc = 0
        · simp only [hec, ne_eq, not_true_eq_false, if_false] at h
          cases hsize : env.packedSize with
          | none =>
              rw [hsize] at h
              obtain rfl := Option.some.inj h
              exact .crashed fun ha => (hans.mp ha).2.2.packedSize (fun _ => hec) hsize
          | some size =>
              rw [hsize] at h
              obtain rfl := Option.some.inj h
              exact .answered (hans.mpr ⟨hword, Or.inl hk, hresource, fun _ => by simp [hsize]⟩)
                (Or.inr (Or.inl rfl))
        · simp only [if_pos hec, Option.some.injEq] at h
          subst h
          exact .answered (hans.mpr ⟨hword, Or.inl hk, hresource, fun h => absurd (h hk) hec⟩)
            (Or.inr (Or.inr (wordOfErrc_ne_zero hec)))
      case nvmlDax =>
        have hresource := hresource (by simp [Backend.onFiles, hk])
        cases hsize : env.packedSize with
        | none =>
            rw [hsize] at h
            obtain rfl := Option.some.inj h
            refine .crashed fun ha => (hans.mp ha).2.2.packedSize (fun h => ?_) hsize
            rw [hk] at h
            cases h
        | some size =>
            rw [hsize] at h
            obtain rfl := Option.some.inj h
            exact .answered (hans.mpr ⟨hword, Or.inr hk, hresource, fun _ => by simp [hsize]⟩)
              (Or.inr (Or.inl rfl))
      all_goals
        obtain rfl := Option.some.inj h
        exact .crashed fun ha => by simpa [hk] using (hans.mp ha).2.1
  · rw [createRinfo_of_not_word hword] at h
    obtain rfl := Option.some.inj h
    exact .crashed fun ha => hword (hans.mp ha).1

theorem StatState.Inv.step {env : StatEnv} {args : StatArgs} (s s' : StatState)
    (h : Inv env args s) (hstep : statResourceHandler env args s s') : Inv env args s' := by
  unfold statResourceHandler at hstep
  cases h with
  | entry =>
      unfold statNext at hstep
      dsimp only [StatState.init] at hstep
      cases hf : env.namespaceMgr.find args.nsid false with
      | none =>
          rw [hf] at hstep
          obtain rfl := Option.some.inj hstep
          exact .answered (Or.inl hf) (Or.inl hf)
      | some b =>
          rw [hf] at hstep
          obtain rfl := Option.some.inj hstep
          exact .resource hf
  | resource hf => exact stat_resource_step hf hstep
  | answered _ _ => cases hstep
  | crashed _ => cases hstep

/-- How far the handler is from its end. -/
def StatPc.rank : StatPc → ℕ
  | .entry => 2
  | .resource _ => 1
  | .returned => 0
  | .crashed _ => 0

theorem rank_statNext {env : StatEnv} {args : StatArgs} (s s' : StatState)
    (h : statResourceHandler env args s s') : s'.pc.rank < s.pc.rank := by
  unfold statResourceHandler statNext at h
  split at h
  · next hpc =>
      rw [hpc]
      split at h <;> obtain rfl := Option.some.inj h <;> simp [StatPc.rank]
  · next hpc =>
      rw [hpc]
      split at h
      · obtain rfl := Option.some.inj h
        simp [StatPc.rank]
      · split_ifs at h
        · obtain rfl := Option.some.inj h
          simp [StatPc.rank]
        · split at h
          · obtain rfl := Option.some.inj h
            simp [StatPc.rank]
          · split_ifs at h
            · obtain rfl := Option.some.inj h
              simp [StatPc.rank]
            · split at h <;> obtain rfl := Option.some.inj h <;> simp [StatPc.rank]
  · cases h
  · cases h

theorem statNext_eq_none {env : StatEnv} {args : StatArgs} {s : StatState}
    (h : statNext env args s = none) : s.pc = .returned ∨ ∃ f, s.pc = .crashed f := by
  unfold statNext at h
  split at h
  · split at h <;> cases h
  · split at h
    · cases h
    · split_ifs at h
      split at h
      · cases h
      · split_ifs at h
        split at h <;> cases h
  · next hpc => exact Or.inl hpc
  · next f hpc => exact Or.inr ⟨f, hpc⟩

theorem stat_answeredOnce_iff (env : StatEnv) (args : StatArgs) :
    AnsweredOnce (statResourceHandler env args) StatState.init ↔ args.Answerable env := by
  have hinv : ∀ s, Run (statResourceHandler env args) StatState.init s → StatState.Inv env args s :=
    fun s hrun => Run.invariant StatState.Inv.step hrun .entry
  refine answeredOnce_iff (fun s => s.pc.rank) rank_statNext (fun s hrun => ?_)
    fun s hrun hfin => ?_
  · cases hinv s hrun <;> rfl
  · have hnone : statNext env args s = none :=
      Option.eq_none_iff_forall_ne_some.mpr fun s' hs' => hfin s' hs'
    have hpc := statNext_eq_none hnone
    cases hinv s hrun with
    | entry => simp [StatState.init] at hpc
    | resource _ => simp at hpc
    | answered hans _ => exact Or.inl ⟨hans, rfl⟩
    | crashed hans => exact Or.inr ⟨hans, by simp⟩

/-! ### Exactly one response -/

/-- **Exactly one response for every request**, in every interleaving of the handler and the
completion callback, exactly under the stated conditions: a request for which the daemon is paused
or does not know the namespace is answered at once; any other one must name a path in a namespace
of a backend that makes resources, find a free task id and, for a push, expose one buffer, and
nothing that is called for it may throw. -/
theorem answered_once_iff (env : InboundEnv) (statEnv : StatEnv) (push : PushArgs)
    (pull : PullArgs) (stat : StatArgs) :
    (AnsweredOnce (pushResourceHandler env push) TransferState.init ↔
      (Inbound.push push).Answerable env) ∧
    (AnsweredOnce (pullResourceHandler env pull) TransferState.init ↔
      (Inbound.pull pull).Answerable env) ∧
    (AnsweredOnce (statResourceHandler statEnv stat) StatState.init ↔ stat.Answerable statEnv) :=
  ⟨transfer_answeredOnce_iff env (.push push), transfer_answeredOnce_iff env (.pull pull),
    stat_answeredOnce_iff statEnv stat⟩

/-- A namespace on a POSIX file system. -/
def tmp0 : NamespaceManager :=
  (∅ : NamespaceManager).insert "tmp0" ⟨.posixFilesystem, "tmp0", false, "/mnt".toList, 0⟩

/-- A freshly started daemon with that namespace, on a machine where nothing fails. -/
def InboundEnv.sample : InboundEnv where
  isPaused := false
  namespaceMgr := tmp0
  taskMgr := .init
  plugins := rfl
  posixEc := 0
  size := some 0
  throws _ := false
  isCollection := false
  targetIsDirectory := false
  packEc := 0
  tempfileEc := 0
  mapEc := 0
  unpackEc := 0
  usecs := 1

/-- A push that names a remote resource as its destination, which no transferor supports: the task
is not created, and the handler returns without an answer. -/
theorem unsupported_push_unanswered :
    let args : PushArgs := ⟨"node0", "tmp1", "tmp0", 4, false, "a", "b", [16]⟩
    (∃ s, Run (pushResourceHandler .sample args) TransferState.init s ∧
      Final (pushResourceHandler .sample args) s ∧ s.responses = []) ∧
    ¬ AnsweredOnce (pushResourceHandler .sample args) TransferState.init := by
  intro args
  have hex : ∃ s, Run (pushResourceHandler .sample args) TransferState.init s ∧
      Final (pushResourceHandler .sample args) s ∧ s.responses = [] := by
    refine ⟨⟨.returned, .context, []⟩, ?_, ?_, rfl⟩
    · have hfound : pushResourceHandler .sample args TransferState.init
          ⟨.create ⟨.posixFilesystem, "tmp0", false, "/mnt".toList, 0⟩, .context, []⟩ := Or.inl rfl
      have hreturned : pushResourceHandler .sample args
          ⟨.create ⟨.posixFilesystem, "tmp0", false, "/mnt".toList, 0⟩, .context, []⟩
          ⟨.returned, .context, []⟩ := Or.inl rfl
      exact (Relation.ReflTransGen.single hfound).tail hreturned
    · rintro s' (h | h) <;> cases h
  refine ⟨hex, fun h => ?_⟩
  obtain ⟨s, hrun, hfin, hs⟩ := hex
  have hone := h.once s hrun hfin
  rw [hs] at hone
  cases hone

end Norns
