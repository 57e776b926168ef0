import Mathlib.Tactic

/-! # Types shared by the daemon and the client libraries

The enumerations of `common/types.hpp`, `io/task-stats.hpp`, `resources/resource-type.hpp` and
the numeric codes of `norns_types.h` and `norns_error.h`.  A C++ `enum class` is an inductive
type; where the source casts it to or from a machine word (`static_cast<uint32_t>(..)` in the
RPC handlers, the resource type that travels in an RPC argument) the cast is a function of its
own, so that words which name no enumerator stay visible.

`ErrorCode` is `std::error_code` reduced to its value, an `int`; `operator bool` is `≠ 0`.
`Fault` lists the ways in which a run of the daemon ends without a defined result. -/

namespace Norns

/-- `iotask_id` (`norns_tid_t`). -/
abbrev IotaskId := UInt32

/-- `std::error_code`: the value is an `int`, zero meaning "no error". -/
abbrev ErrorCode := Int32

def EPERM : ErrorCode := 1
def ENOENT : ErrorCode := 2
def EINTR : ErrorCode := 4
def EIO : ErrorCode := 5
def EACCES : ErrorCode := 13
def EBUSY : ErrorCode := 16
def EEXIST : ErrorCode := 17
def ENOTDIR : ErrorCode := 20
def EISDIR : ErrorCode := 21
def EINVAL : ErrorCode := 22
def ENOSPC : ErrorCode := 28
def ELOOP : ErrorCode := 40
def EOPNOTSUPP : ErrorCode := 95

/-- `std::make_error_code(static_cast<std::errc>(w))` of an unsigned response field. -/
def errcOfWord (w : UInt32) : ErrorCode := w.toInt32

/-- `static_cast<uint32_t>(ec.value())`. -/
def wordOfErrc (ec : ErrorCode) : UInt32 := ec.toUInt32

@[simp] theorem errcOfWord_wordOfErrc (ec : ErrorCode) : errcOfWord (wordOfErrc ec) = ec := rfl

@[simp] theorem errcOfWord_zero : errcOfWord 0 = 0 := rfl

theorem errcOfWord_eq_zero {w : UInt32} : errcOfWord w = 0 ↔ w = 0 := by
  constructor
  · intro h
    exact congrArg Int32.toUInt32 h
  · rintro rfl
    rfl

/-- `iotask_type`. -/
inductive IotaskType where
  | copy
  | move
  | remove
  | remoteTransfer
  | noop
  | unknown
deriving DecidableEq, Repr

/-- `backend_type`. -/
inductive BackendType where
  | nvml
  | lustre
  | echofs
  | posixFilesystem
  | unknown
deriving DecidableEq, Repr

/-- `command_type`. -/
inductive CommandType where
  | ping
  | pauseListen
  | resumeListen
  | shutdown
  | unknown
deriving DecidableEq, Repr

/-- `data::resource_type`. -/
inductive ResourceType where
  | memoryRegion
  | localPosixPath
  | sharedPosixPath
  | remotePosixPath
  | remoteResource
  | ignorable
deriving DecidableEq, Repr

/-- `static_cast<data::resource_type>(w)`; `none` for a word that names no enumerator (the
`switch` statements of the source send those to `default`). -/
def ResourceType.ofWord (w : UInt32) : Option ResourceType :=
  if w = 0 then some .memoryRegion
  else if w = 1 then some .localPosixPath
  else if w = 2 then some .sharedPosixPath
  else if w = 3 then some .remotePosixPath
  else if w = 4 then some .remoteResource
  else if w = 5 then some .ignorable
  else none

/-- `static_cast<uint32_t>(data::resource_type)`. -/
def ResourceType.toWord : ResourceType → UInt32
  | .memoryRegion => 0
  | .localPosixPath => 1
  | .sharedPosixPath => 2
  | .remotePosixPath => 3
  | .remoteResource => 4
  | .ignorable => 5

/-- `io::task_status`. -/
inductive TaskStatus where
  | undefined
  | pending
  | running
  | finished
  | finishedWithError
deriving DecidableEq, Repr

namespace TaskStatus

/-- `static_cast<uint32_t>(task_status)`, the enumerator's position. -/
def toWord : TaskStatus → UInt32
  | undefined => 0
  | pending => 1
  | running => 2
  | finished => 3
  | finishedWithError => 4

/-- The status of a completed task. -/
def terminal : TaskStatus → Bool
  | finished => true
  | finishedWithError => true
  | _ => false

/-- The status `check_shutdown` calls active. -/
def active : TaskStatus → Bool
  | pending => true
  | running => true
  | _ => false

end TaskStatus

/-- `urd_error`. -/
inductive UrdError where
  | success
  | snafu
  | badArgs
  | badRequest
  | outOfMemory
  | notSupported
  | systemError
  | connectionFailed
  | rpcSendFailed
  | rpcRecvFailed
  | acceptPaused
  | jobExists
  | noSuchJob
  | processExists
  | noSuchProcess
  | namespaceExists
  | noSuchNamespace
  | namespaceNotEmpty
  | taskExists
  | noSuchTask
  | tooManyTasks
  | tasksPending
  | resourceExists
  | noSuchResource
deriving DecidableEq, Repr

namespace UrdError

/-- The enumerator's value, `norns_error_t` (`norns_error.h`). -/
def code : UrdError → Int32
  | success => 0
  | snafu => -1
  | badArgs => -2
  | badRequest => -3
  | outOfMemory => -4
  | connectionFailed => -6
  | rpcSendFailed => -7
  | rpcRecvFailed => -8
  | acceptPaused => -9
  | jobExists => -10
  | noSuchJob => -11
  | processExists => -20
  | noSuchProcess => -21
  | namespaceExists => -30
  | noSuchNamespace => -31
  | namespaceNotEmpty => -32
  | taskExists => -40
  | noSuchTask => -41
  | tooManyTasks => -42
  | tasksPending => -43
  | resourceExists => -110
  | noSuchResource => -111
  | notSupported => -200
  | systemError => -201

/-- `static_cast<uint32_t>(urd_error)`. -/
def toWord (e : UrdError) : UInt32 := e.code.toUInt32

end UrdError

/-- Ways in which the process stops: a failed `assert` (the build does not define `NDEBUG`), an
index outside a vector, a null pointer, a `static_pointer_cast` to a type the object does not
have, an exception that leaves a handler. -/
inductive Fault where
  | assertion
  | outOfBounds
  | nullDeref
  | badCast
  | exception
deriving DecidableEq, Repr

end Norns
