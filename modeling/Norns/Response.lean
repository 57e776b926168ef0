import Norns.Client
import Norns.Request

/-! # Responses

The way of a response from the daemon to a client: `response::store_to_buffer` translates the
object that a handler returns into a protobuf message, and `unpack_from_buffer` of the client
libraries translates the message into a `norns_response_t`.

The two sides have `switch` tables of their own over the numbers of two enumerations of
`rpc/messages.proto`, and error codes are negative numbers that travel in unsigned fields.
`response_roundtrip`: for every response the client reads what the handler has written.

The serialisers of the two protobuf libraries are parameters.  The estimated time of arrival is
passed on as the bits of a `double`. -/

namespace Norns

open Lib

/-! ### Messages -/

/-- The numbers of `Request.Type`; those of `Response.Type` are the same. -/
def MsgType.number : MsgType → ℕ
  | .iotaskSubmit => 1
  | .iotaskStatus => 2
  | .ping => 3
  | .jobRegister => 4
  | .jobUpdate => 5
  | .jobUnregister => 6
  | .processAdd => 7
  | .processRemove => 8
  | .namespaceRegister => 9
  | .namespaceUpdate => 10
  | .namespaceUnregister => 11
  | .globalStatus => 1000
  | .ctlCommand => 1001

/-- `Response.Type.BAD_REQUEST`. -/
def BAD_REQUEST : ℕ := 2000

structure TaskStatsMsg where
  status : UInt32
  taskError : UInt32
  sysErrnum : UInt32
deriving DecidableEq, Repr

structure GlobalStatsMsg where
  runningTasks : UInt32
  pendingTasks : UInt32
  eta : UInt64
deriving DecidableEq, Repr

/-- `norns::rpc::Response`. -/
structure ResponseMsg where
  type : ℕ
  errorCode : UInt32
  taskid : Option UInt32
  stats : Option TaskStatsMsg
  gstats : Option GlobalStatsMsg
deriving DecidableEq, Repr

/-! ### The daemon -/

/-- The subclasses of `api::response` with their fields. -/
inductive ResponseFields where
  | iotaskCreate (tid : IotaskId)
  | iotaskStatus (stats : TaskStats)
  | globalStatus (runningTasks pendingTasks : UInt32) (eta : UInt64)
  | command
  | ping
  | jobRegister
  | jobUpdate
  | jobUnregister
  | processRegister
  | processUnregister
  | backendRegister
  | backendUpdate
  | backendUnregister
  | badRequest
deriving DecidableEq, Repr

/-- `api::response`. -/
structure Response where
  fields : ResponseFields
  errorCode : UrdError
deriving DecidableEq, Repr

/-- `encode(response_type)`. -/
def ResponseFields.encodeType : ResponseFields → ℕ
  | iotaskCreate _ => MsgType.iotaskSubmit.number
  | iotaskStatus _ => MsgType.iotaskStatus.number
  | ping => MsgType.ping.number
  | jobRegister => MsgType.jobRegister.number
  | jobUpdate => MsgType.jobUpdate.number
  | jobUnregister => MsgType.jobUnregister.number
  | processRegister => MsgType.processAdd.number
  | processUnregister => MsgType.processRemove.number
  | backendRegister => MsgType.namespaceRegister.number
  | backendUpdate => MsgType.namespaceUpdate.number
  | backendUnregister => MsgType.namespaceUnregister.number
  | globalStatus _ _ _ => MsgType.globalStatus.number
  | command => MsgType.ctlCommand.number
  | badRequest => BAD_REQUEST

/-- `pack_extra_info`; the other responses have nothing to add. -/
def ResponseFields.packExtraInfo (f : ResponseFields) (r : ResponseMsg) : ResponseMsg :=
  match f with
  | iotaskCreate tid => { r with taskid := some tid }
  | iotaskStatus stats =>
      { r with stats := some ⟨stats.status.encode.toUInt32, stats.taskError.toWord,
                              wordOfErrc stats.sysError⟩ }
  | globalStatus runningTasks pendingTasks eta =>
      { r with gstats := some ⟨runningTasks, pendingTasks, eta⟩ }
  | _ => r

/-- The message that `store_to_buffer` serialises. -/
def Response.toMsg (resp : Response) : ResponseMsg :=
  resp.fields.packExtraInfo ⟨resp.fields.encodeType, resp.errorCode.toWord, none, none, none⟩

/-- `response::store_to_buffer`: the message goes behind what is in the buffer. -/
def storeToBuffer (serialize : ResponseMsg → List UInt8) (resp : Response)
    (buffer : List UInt8) : List UInt8 := buffer ++ serialize resp.toMsg

/-! ### The client -/

/-- `norns_msgtype_t`. -/
inductive NornsMsgType where
  | iotaskSubmit
  | iotaskStatus
  | globalStatus
  | command
  | ping
  | jobRegister
  | jobUpdate
  | jobUnregister
  | processAdd
  | processRemove
  | namespaceRegister
  | namespaceUpdate
  | namespaceUnregister
  | badRpc
deriving DecidableEq, Repr

/-- `decode_response_type`.  For commands the source names the number of the request type. -/
def decodeResponseType (type : ℕ) : NornsMsgType :=
  if type = MsgType.iotaskSubmit.number then .iotaskSubmit
  else if type = MsgType.iotaskStatus.number then .iotaskStatus
  else if type = MsgType.ping.number then .ping
  else if type = MsgType.jobRegister.number then .jobRegister
  else if type = MsgType.jobUpdate.number then .jobUpdate
  else if type = MsgType.jobUnregister.number then .jobUnregister
  else if type = MsgType.processAdd.number then .processAdd
  else if type = MsgType.processRemove.number then .processRemove
  else if type = MsgType.namespaceRegister.number then .namespaceRegister
  else if type = MsgType.namespaceUpdate.number then .namespaceUpdate
  else if type = MsgType.namespaceUnregister.number then .namespaceUnregister
  else if type = MsgType.globalStatus.number then .globalStatus
  else if type = MsgType.ctlCommand.number then .command
  else .badRpc

/-- The member of the union in `norns_response_t` that has been written. -/
inductive ResponsePayload where
  | unset
  | taskid (rTaskid : UInt64)
  | status (rStatus rTaskError rErrno : Int32)
  | globalStatus (rRunningTasks rPendingTasks : UInt32) (rEta : UInt64)
deriving DecidableEq, Repr

/-- `norns_response_t`. -/
structure NornsResponse where
  rType : NornsMsgType
  rErrorCode : Int32
  payload : ResponsePayload
deriving DecidableEq, Repr

def NORNS_ERPCRECVFAILED : Int32 := -8

/-- `unpack_from_buffer`: the returned code, and the response if it is `NORNS_SUCCESS`. -/
def unpackFromBuffer (unpack : List UInt8 → Option ResponseMsg) (buf : List UInt8) :
    Int32 × Option NornsResponse :=
  match unpack buf with
  | none => (NORNS_ERPCRECVFAILED, none)
  | some resp =>
      let rType := decodeResponseType resp.type
      let rErrorCode := resp.errorCode.toInt32
      match rType with
      | .iotaskSubmit =>
          match resp.taskid with
          | none => (NORNS_ERPCRECVFAILED, none)
          | some taskid => (NORNS_SUCCESS, some ⟨rType, rErrorCode, .taskid taskid.toUInt64⟩)
      | .iotaskStatus =>
          match resp.stats with
          | none => (NORNS_ERPCRECVFAILED, none)
          | some stats =>
              (NORNS_SUCCESS, some ⟨rType, rErrorCode, .status stats.status.toInt32
                stats.taskError.toInt32 stats.sysErrnum.toInt32⟩)
      | .globalStatus =>
          match resp.gstats with
          | none => (NORNS_ERPCRECVFAILED, none)
          | some gstats =>
              (NORNS_SUCCESS, some ⟨rType, rErrorCode,
                .globalStatus gstats.runningTasks gstats.pendingTasks gstats.eta⟩)
      | _ => (NORNS_SUCCESS, some ⟨rType, rErrorCode, .unset⟩)

/-! ### The round trip -/

/-- The message type of a response, as the client API names it. -/
def ResponseFields.msgType : ResponseFields → NornsMsgType
  | iotaskCreate _ => .iotaskSubmit
  | iotaskStatus _ => .iotaskStatus
  | globalStatus _ _ _ => .globalStatus
  | command => .command
  | ping => .ping
  | jobRegister => .jobRegister
  | jobUpdate => .jobUpdate
  | jobUnregister => .jobUnregister
  | processRegister => .processAdd
  | processUnregister => .processRemove
  | backendRegister => .namespaceRegister
  | backendUpdate => .namespaceUpdate
  | backendUnregister => .namespaceUnregister
  | badRequest => .badRpc

/-- What the client should read: the fields of the response, the status under its public code. -/
def ResponseFields.payload : ResponseFields → ResponsePayload
  | iotaskCreate tid => .taskid tid.toUInt64
  | iotaskStatus stats => .status stats.status.encode stats.taskError.code stats.sysError
  | globalStatus runningTasks pendingTasks eta => .globalStatus runningTasks pendingTasks eta
  | _ => .unset

theorem packExtraInfo_type (f : ResponseFields) (r : ResponseMsg) :
    (f.packExtraInfo r).type = r.type := by
  cases f <;> rfl

theorem packExtraInfo_errorCode (f : ResponseFields) (r : ResponseMsg) :
    (f.packExtraInfo r).errorCode = r.errorCode := by
  cases f <;> rfl

/-- The tables of the two sides agree. -/
theorem decodeResponseType_encodeType (f : ResponseFields) :
    decodeResponseType f.encodeType = f.msgType := by
  cases f <;> rfl

/-- A code of the daemon survives the unsigned field. -/
theorem toInt32_toWord (e : UrdError) : e.toWord.toInt32 = e.code := rfl

/-- **Round trip of responses.**  Behind any bytes already in the buffer, the client reads the
response that the daemon has stored. -/
theorem response_roundtrip (serialize : ResponseMsg → List UInt8)
    (unpack : List UInt8 → Option ResponseMsg) (resp : Response) (buffer : List UInt8)
    (hinv : unpack (serialize resp.toMsg) = some resp.toMsg) :
    unpackFromBuffer unpack ((storeToBuffer serialize resp buffer).drop buffer.length) =
      (NORNS_SUCCESS, some ⟨resp.fields.msgType, resp.errorCode.code, resp.fields.payload⟩) := by
  have hbody : (storeToBuffer serialize resp buffer).drop buffer.length =
      serialize resp.toMsg := List.drop_left
  have htype : decodeResponseType resp.toMsg.type = resp.fields.msgType := by
    rw [Response.toMsg, packExtraInfo_type, decodeResponseType_encodeType]
  have hcode : resp.toMsg.errorCode.toInt32 = resp.errorCode.code := by
    rw [Response.toMsg, packExtraInfo_errorCode, toInt32_toWord]
  rw [unpackFromBuffer, hbody, hinv]
  simp only [htype, hcode]
  obtain ⟨fields, errorCode⟩ := resp
  cases fields <;> rfl

/-- The response to a status request for a completed task, as protobuf writes it: the status -103
takes a varint of five bytes. -/
def finishedBytes : List UInt8 :=
  [0x08, 0x02, 0x10, 0x00, 0x22, 0x0a, 0x08, 0x99, 0xff, 0xff, 0xff, 0x0f, 0x10, 0x00, 0x18, 0x00]

theorem finished_response_roundtrip :
    let resp : Response := ⟨.iotaskStatus ⟨.finished, .success, 0, 16, 0⟩, .success⟩
    unpackFromBuffer (fun b => if b = finishedBytes then some resp.toMsg else none)
        (storeToBuffer (fun m => if m = resp.toMsg then finishedBytes else []) resp []) =
      (NORNS_SUCCESS, some ⟨.iotaskStatus, 0, .status NORNS_EFINISHED 0 0⟩) :=
  response_roundtrip (fun m => if m = (Response.mk (.iotaskStatus ⟨.finished, .success, 0, 16, 0⟩)
      .success).toMsg then finishedBytes else [])
    (fun b => if b = finishedBytes then some (Response.mk (.iotaskStatus
      ⟨.finished, .success, 0, 16, 0⟩) .success).toMsg else none) _ [] (by simp)

end Norns
