import Norns.Client
import Norns.JobCalls

/-! # Calls on tasks

`norns_submit` and `norns_error` of `libnorns.c`, which `libnornsctl.c` has once more under other
names, exchange a descriptor for an answer of the daemon in the same way as the calls of the control
API.  A submission writes the id of the task to the descriptor, a query writes the status to an
argument.

* `UserCall.perform` says what a call is for: to run the handler of the daemon on what the
  descriptor says.
* `submissions_linearizable`: among any number of clients a submission comes to the same, at its
  place in the order of the requests.  A query does so only if no worker writes to the record while
  its handler runs (`UserCall.MadeOver.served`); see `late_completion_lost` of `Status`. -/

namespace Norns

open Lib

/-! ### The library -/

/-- `norns_iotask_t` with the status that `norns_wait` keeps in it. -/
structure TaskDescriptor extends NornsIotask where
  tStatus : NornsStat
deriving DecidableEq, Repr

/-- How a call ends: it returns, with the descriptor and the argument for the status as it leaves
them, or it takes the process with it.  Either may be a null pointer. -/
inductive TaskEnd where
  | returned (rv : Int32) (task : Option TaskDescriptor) (stats : Option NornsStat)
  | exited
  | fault (f : Fault)
deriving DecidableEq, Repr

/-- What a call finds outside the library, with the allocations for a task. -/
structure TaskClient extends ClientEnv where
  taskMem : AllocSite → Bool

section packing

variable (mem : AllocSite → Bool)

/-- The arm of `build_request_msg` for both requests on a task. -/
def buildTaskRequest (type : MsgType) (task : NornsIotask) : Except PackError RequestMsg :=
  if mem .request then do
    let task ← buildTaskMsg mem task
    return ⟨type, some task, none, none, none, none, none⟩
  else .error .enomem

/-- `pack_to_buffer` for a task. -/
def packTask (pack : RequestMsg → List UInt8) (type : MsgType) (task : NornsIotask) :
    Except PackError (List UInt8) := do
  let req ← buildTaskRequest mem type task
  if pack req ≠ [] ∧ mem .packed then return pack req else .error .enomem

end packing

/-- The end of a call that has got no response. -/
def TaskEnd.ofCall (task : TaskDescriptor) (stats : Option NornsStat) : CallEnd → TaskEnd
  | .returned rv _ => .returned rv (some task) stats
  | .exited => .exited
  | .fault f => .fault f

/-- The task id in a response; `r_taskid` is wider than the `t_id` of a descriptor. -/
def ResponsePayload.rTaskid : ResponsePayload → UInt32
  | taskid tid => tid.toUInt32
  | _ => 0

/-- The status in a response. -/
def ResponsePayload.stat : ResponsePayload → NornsStat
  | status st taskError errno => ⟨st, taskError, errno⟩
  | _ => ⟨0, 0, 0⟩

/-- The response to a query. -/
def Reply.ofResponse (resp : NornsResponse) : Reply :=
  if resp.rType ≠ .iotaskStatus then .otherType else .status resp.rErrorCode resp.payload.stat

/-- What `send_submit_request` makes of the response.  The id is written whatever the code is. -/
def submitEnd (task : TaskDescriptor) : Except CallEnd NornsResponse → TaskEnd
  | .error e => .ofCall task none e
  | .ok resp =>
      if resp.rType ≠ .iotaskSubmit then .returned NORNS_ESNAFU (some task) none
      else .returned resp.rErrorCode (some { task with tId := resp.payload.rTaskid }) none

/-- What `send_status_request` makes of the response. -/
def statusEnd (task : TaskDescriptor) (stats : NornsStat) :
    Except CallEnd NornsResponse → TaskEnd
  | .error e => .ofCall task (some stats) e
  | .ok resp =>
      .returned (sendStatusRequest stats (.ofResponse resp)).1 (some task)
        (some (sendStatusRequest stats (.ofResponse resp)).2)

/-- The operations that `send_submit_request` lets pass. -/
def KnownOp (op : UInt32) : Prop :=
  op = NORNS_IOTASK_COPY ∨ op = NORNS_IOTASK_MOVE ∨ op = NORNS_IOTASK_REMOVE

instance (op : UInt32) : Decidable (KnownOp op) :=
  inferInstanceAs (Decidable (op = NORNS_IOTASK_COPY ∨ op = NORNS_IOTASK_MOVE ∨
    op = NORNS_IOTASK_REMOVE))

section calls

variable (cl : TaskClient) (fuel : ℕ) (reply : List UInt8 → Conn)

/-- `send_request` for a task. -/
def sendTask (type : MsgType) (task : TaskDescriptor) :
    Option (List UInt8 × Except CallEnd NornsResponse) :=
  sendPacked cl.toClientEnv fuel reply (packTask cl.taskMem cl.pack type task.toNornsIotask)

/-- `norns_submit` with `send_submit_request`. -/
def nornsSubmit (task : Option TaskDescriptor) : Option (List UInt8 × TaskEnd) :=
  match task with
  | none => some ([], .returned NORNS_EBADARGS none none)
  | some task =>
      if task.tId ≠ 0 ∨ ¬ KnownOp task.tOp then
        some ([], .returned NORNS_EBADARGS (some task) none)
      else
        (sendTask cl fuel reply .iotaskSubmit task).map fun (sent, r) => (sent, submitEnd task r)

/-- `norns_error` with `send_status_request`. -/
def nornsErrorOf (task : Option TaskDescriptor) (stats : Option NornsStat) :
    Option (List UInt8 × TaskEnd) :=
  match task, stats with
  | some task, some stats =>
      if task.tStatus.finished then
        some ([], .returned NORNS_SUCCESS (some task) (some task.tStatus))
      else if task.tId = 0 then some ([], .returned NORNS_EBADARGS (some task) (some stats))
      else
        (sendTask cl fuel reply .iotaskStatus task).map fun (sent, r) =>
          (sent, statusEnd task stats r)
  | task, stats => some ([], .returned NORNS_EBADARGS task stats)

end calls

/-! ### What a call is for -/

/-- A task as the client has described it with the constructors of the library, and what calls have
written to the descriptor since. -/
structure ClientTask where
  tId : IotaskId
  op : UInt32
  src : ClientResource
  dst : Option ClientResource
  tStatus : NornsStat
deriving DecidableEq

open ClientResource

/-- The descriptor. -/
def ClientTask.descriptor (t : ClientTask) : TaskDescriptor :=
  { nornsIotaskInit t.op (some t.src.create) (t.dst.map create) with
    tId := t.tId
    tStatus := t.tStatus }

/-- The calls with their arguments. -/
inductive UserCall where
  | submit (task : ClientTask)
  | error (task : ClientTask) (stats : NornsStat)
deriving DecidableEq

namespace UserCall

/-- The call: the bytes that it writes, and its end. -/
def call (cl : TaskClient) (fuel : ℕ) (reply : List UInt8 → Conn) :
    UserCall → Option (List UInt8 × TaskEnd)
  | submit task => nornsSubmit cl fuel reply (some task.descriptor)
  | error task stats => nornsErrorOf cl fuel reply (some task.descriptor) (some stats)

/-- What the daemon is asked for by a call, if it is asked at all. -/
def request : UserCall → Option Request
  | submit task =>
      if task.tId ≠ 0 ∨ ¬ KnownOp task.op then none
      else some (.iotaskCreate (decodeIotaskType task.op) (some task.src.received)
        (task.dst.map received))
  | error task _ =>
      if task.tStatus.finished ∨ task.tId = 0 then none else some (.iotaskStatus task.tId)

/-- What a call is for.  A submission runs `iotask_create_handler` and keeps the id; a query runs
`iotask_status_handler`, unless the status is in the descriptor already. -/
def perform (env : SessionEnv) (d : Daemon) : UserCall → Except Fault (Daemon × TaskEnd)
  | submit task =>
      if task.tId ≠ 0 ∨ ¬ KnownOp task.op then
        .ok (d, .returned NORNS_EBADARGS (some task.descriptor) none)
      else if env.sizeThrows && d.toUrd.asksFiles env.credentials (decodeIotaskType task.op)
          (some task.src.received) (task.dst.map received) then .error .exception
      else do
        let (u, rv, tid) ← d.toUrd.iotaskCreateHandler env.credentials (decodeIotaskType task.op)
          (some task.src.received) (task.dst.map received) env.size
        return ({ d with toUrd := u },
          .returned rv.code (some { task.descriptor with tId := tid }) none)
  | error task stats =>
      if task.tStatus.finished then
        .ok (d, .returned NORNS_SUCCESS (some task.descriptor) (some task.tStatus))
      else if task.tId = 0 then
        .ok (d, .returned NORNS_EBADARGS (some task.descriptor) (some stats))
      else
        let (d', resp) := d.iotaskStatusHandler task.tId
        .ok (d', .returned resp.errorCode.code (some task.descriptor)
          (some resp.fields.payload.stat))

end UserCall

/-! ### Messages -/

/-- The message built for a task when no allocation fails. -/
def ClientTask.msg (type : MsgType) (t : ClientTask) : RequestMsg :=
  ⟨type, some ⟨t.tId, t.op, t.src.msg, (t.dst.map ClientResource.msg).getD absentMsg⟩, none, none,
   none, none, none⟩

theorem yields_buildTaskRequest {mem : AllocSite → Bool} (type : MsgType) (t : ClientTask) :
    Yields mem (buildTaskRequest mem type t.descriptor.toNornsIotask) (t.msg type) := by
  have hdst : Yields mem (buildResourceMsg mem .destination t.descriptor.tDst)
      ((t.dst.map ClientResource.msg).getD absentMsg) := by
    unfold ClientTask.descriptor
    cases t.dst with
    | none => exact yields_buildResourceMsg_null .destination
    | some dst => exact yields_buildResourceMsg .destination dst
  have hinit : t.descriptor.tSrc = t.src.create ∧ t.descriptor.tOp = t.op := by
    unfold ClientTask.descriptor
    cases t.dst <;> exact ⟨rfl, rfl⟩
  unfold buildTaskRequest buildTaskMsg
  rw [hinit.1, hinit.2]
  refine Yields.alloc .request .enomem
    (Yields.bind (v := ⟨t.tId, t.op, t.src.msg, _⟩) ?_ (yields_ok _))
  apply Yields.alloc .task .enomem
  exact (yields_buildResourceMsg .source t.src).bind (hdst.bind (yields_ok _))

theorem packTask_of_memory {mem : AllocSite → Bool} (hmem : ∀ site, mem site = true)
    {pack : RequestMsg → List UInt8} {type : MsgType} {t : ClientTask}
    (hne : pack (t.msg type) ≠ []) :
    packTask mem pack type t.descriptor.toNornsIotask = .ok (pack (t.msg type)) := by
  unfold packTask
  rw [(yields_buildTaskRequest type t).eq_ok hmem]
  show (if pack (t.msg type) ≠ [] ∧ mem .packed = true then _ else _) = _
  rw [if_pos ⟨hne, hmem .packed⟩]
  rfl

namespace UserCall

/-- The task of a call. -/
def task : UserCall → ClientTask
  | submit task => task
  | error task _ => task

/-- The type of its request. -/
def type : UserCall → MsgType
  | submit _ => .iotaskSubmit
  | error _ _ => .iotaskStatus

/-- What it makes of the response. -/
def finish : UserCall → Except CallEnd NornsResponse → TaskEnd
  | submit task => submitEnd task.descriptor
  | error task stats => statusEnd task.descriptor stats

/-- The message that it sends if there is memory for it. -/
def message (call : UserCall) : RequestMsg := call.task.msg call.type

variable {call : UserCall} {req : Request}

/-- The daemon decodes the message of a call to what the call asks for. -/
theorem decode_message (h : call.request = some req) : decodeRequest call.message = .ok req := by
  cases call with
  | submit t =>
      obtain ⟨tId, op, src, dst, tStatus⟩ := t
      unfold request at h
      dsimp only at h
      split_ifs at h with hbad
      push Not at hbad
      obtain ⟨rfl, hop⟩ := hbad
      obtain rfl := Option.some.inj h
      exact decodeRequest_submitMsg op src dst hop
  | error t stats =>
      unfold request at h
      dsimp only at h
      split_ifs at h
      obtain rfl := Option.some.inj h
      rfl

/-- The call exchanges its message. -/
theorem call_of_request (h : call.request = some req) (cl : TaskClient) (fuel : ℕ)
    (reply : List UInt8 → Conn) : call.call cl fuel reply =
      (sendTask cl fuel reply call.type call.task.descriptor).map fun (sent, r) =>
        (sent, call.finish r) := by
  cases call with
  | submit t =>
      have hop : t.descriptor.tOp = t.op := by
        unfold ClientTask.descriptor
        cases t.dst <;> rfl
      have hgood : ¬ (t.descriptor.tId ≠ 0 ∨ ¬ KnownOp t.descriptor.tOp) := by
        intro hbad
        have hbad' : t.tId ≠ 0 ∨ ¬ KnownOp t.op := by
          rw [← hop]
          exact hbad
        rw [request, if_pos hbad'] at h
        cases h
      exact if_neg hgood
  | error t stats =>
      have hgood : ¬ (t.tStatus.finished ∨ t.tId = 0) := by
        intro hbad
        rw [request, if_pos hbad] at h
        cases h
      push Not at hgood
      exact (if_neg hgood.1).trans (if_neg hgood.2)

/-- The status handler answers with a status. -/
theorem iotaskStatusHandler_fields (d : Daemon) (tid : IotaskId) :
    ∃ st, (d.iotaskStatusHandler tid).2.fields = .iotaskStatus st := by
  unfold Daemon.iotaskStatusHandler
  cases d.taskMgr.find tid <;> exact ⟨_, rfl⟩

/-- It is for the handler of its request. -/
theorem perform_of_request (h : call.request = some req) (env : SessionEnv) (d : Daemon) :
    ∃ hd, callbacks.lookup req.type = some hd ∧
      call.perform env d = (d.call env hd req).map fun (d', resp) =>
        (d', call.finish
          (.ok ⟨resp.fields.msgType, resp.errorCode.code, resp.fields.payload⟩)) := by
  cases call with
  | submit t =>
      unfold request at h
      dsimp only at h
      split_ifs at h with hbad
      obtain rfl := Option.some.inj h
      refine ⟨.iotaskCreateHandler, rfl, ?_⟩
      rw [perform, if_neg hbad]
      simp only [Daemon.call]
      split_ifs
      · rfl
      cases d.toUrd.iotaskCreateHandler env.credentials (decodeIotaskType t.op)
          (some t.src.received) (t.dst.map received) env.size with
      | error f => rfl
      | ok r =>
          obtain ⟨u, rv, tid⟩ := r
          show _ = Except.ok (_, TaskEnd.returned rv.code
            (some { t.descriptor with tId := tid.toUInt64.toUInt32 }) none)
          rw [UInt32.toUInt32_toUInt64]
          rfl
  | error t stats =>
      unfold request at h
      dsimp only at h
      split_ifs at h with hbad
      push Not at hbad
      obtain rfl := Option.some.inj h
      refine ⟨.iotaskStatusHandler, rfl, ?_⟩
      rw [perform, if_neg hbad.1, if_neg hbad.2]
      obtain ⟨st, hst⟩ := iotaskStatusHandler_fields d t.tId
      rcases hr : d.iotaskStatusHandler t.tId with ⟨d', fields, code⟩
      rw [hr] at hst
      obtain rfl : fields = .iotaskStatus st := hst
      simp only [Daemon.call, hr]
      rfl

end UserCall

/-! ### A call among others -/

/-- Nothing stops a call before it has been sent. -/
structure TaskClient.Ready (cl : TaskClient) : Prop where
  context : cl.hasContext = true
  memory : ∀ site, cl.taskMem site = true
  connects : cl.connects = true

/-- The call has been made over the connection, as for the calls of the control API. -/
structure UserCall.MadeOver (call : UserCall) (cl : TaskClient)
    (serialize : ResponseMsg → List UInt8) (reply : List UInt8 → Conn) (c : Connection) : Prop where
  ready : cl.Ready
  endian : c.env.endian = cl.endian
  sent : ∃ req r, call.request = some req ∧ c.env.parse [] = none ∧
    c.env.parse (cl.pack call.message) = some call.message ∧
    sendMessage cl.endian cl.writes (cl.pack call.message) = some r ∧ r.ret = 0 ∧
    c.arrived = r.sent ∧ (cl.pack call.message).length < 2 ^ 64
  answer : ∀ resp, c.pc = .ended (.answered resp) → ∃ rest,
    (reply c.arrived).bytes = frame cl.endian (serialize resp.toMsg) ++ rest ∧
    xmallocNz cl.alloc (serialize resp.toMsg).length = true ∧
    cl.unpack (serialize resp.toMsg) = some resp.toMsg

/-- The session of a call does what the call is for, if no worker writes to a record while its
handler runs. -/
theorem UserCall.MadeOver.served {call : UserCall} {cl : TaskClient}
    {serialize : ResponseMsg → List UInt8} {reply : List UInt8 → Conn} {c : Connection}
    (h : call.MadeOver cl serialize reply c) (d : Daemon) (hwhole : c.Whole)
    (hpc : c.pc = .ended (c.session d).ending) :
    (∃ f, call.perform c.env d = .error f ∧ c.pc = .ended (.ofFault f)) ∨
      ∃ e fuel, call.perform c.env d = .ok ((c.session d).daemon, e) ∧
        call.call cl fuel reply = some (c.arrived, e) := by
  obtain ⟨req, r, hreq, hempty, hparse, hsend, hret, harrived, hlt⟩ := h.sent
  obtain ⟨body, hbody⟩ := hwhole
  have hread : body = cl.pack call.message := by
    have hframe := hbody
    rw [harrived, sendMessage_sent hsend hret, ← h.endian] at hframe
    exact doReadRequest_frame hframe hlt
  have hcreate : createFromBuffer c.env.parse body = .ok req := by
    rw [hread, createFromBuffer, hparse]
    exact decode_message hreq
  obtain ⟨hd, hlookup, hperform⟩ := perform_of_request hreq c.env d
  have hlookup' : c.endpoint.dispatcher.lookup req.type = some hd := hlookup
  have hsession : c.session d = handleBody c.env c.endpoint d body := session_of_ok _ _ hbody
  rw [hsession] at hpc ⊢
  unfold handleBody at hpc ⊢
  simp only [hcreate, hlookup'] at hpc ⊢
  cases hcall : d.call c.env hd req with
  | error f =>
      rw [hcall] at hpc hperform
      exact .inl ⟨f, hperform, hpc⟩
  | ok r' =>
      obtain ⟨d', resp⟩ := r'
      rw [hcall] at hpc hperform
      obtain ⟨rest, hbytes, hroom, hunpack⟩ := h.answer resp hpc
      rw [harrived] at hbytes
      obtain ⟨fuel, hexchange⟩ := sendPacked_of_answer h.ready.context h.ready.connects hsend hret
        hbytes hroom hunpack
      refine .inr ⟨_, fuel, hperform, ?_⟩
      rw [call_of_request hreq, sendTask,
        packTask_of_memory h.ready.memory (pack_ne_nil hempty hparse)]
      show (sendPacked cl.toClientEnv fuel reply (.ok (cl.pack call.message))).map _ = _
      rw [hexchange, harrived]
      rfl

/-- **Submissions are linearizable.**  A submission that the event loop has served among any number
of other requests returns, and leaves in the descriptor, what it would if its handler were run
directly at its place in the order in which the loop has served the requests; that place lies
between the beginning and the end of the call. -/
theorem submissions_linearizable {d₀ : Daemon} {s : Listener}
    (h : Run ListenerStep (.init d₀) s) {pre post : List LoopEvent} {i : ℕ} {c : Connection}
    (hlog : s.log = pre ++ .handled i :: post) (hc : s.connections[i]? = some c)
    {task : ClientTask} {cl : TaskClient} {serialize : ResponseMsg → List UInt8}
    {reply : List UInt8 → Conn} (hmade : (UserCall.submit task).MadeOver cl serialize reply c) :
    ((∃ f, (UserCall.submit task).perform c.env (replay s.connections d₀ pre) = .error f ∧
        c.pc = .ended (.ofFault f)) ∨
      ∃ e fuel, (UserCall.submit task).perform c.env (replay s.connections d₀ pre) =
          .ok (replay s.connections d₀ (pre ++ [.handled i]), e) ∧
        (UserCall.submit task).call cl fuel reply = some (c.arrived, e)) ∧
    ∀ s₁, Run ListenerStep (.init d₀) s₁ → Run ListenerStep s₁ s →
      (s₁.connections.length ≤ i → s₁.log <+: pre) ∧
      (.handled i ∈ s₁.log → pre ++ [.handled i] <+: s₁.log) := by
  have hinv : s.Inv d₀ := .run h
  obtain ⟨c', hc', hwhole, hpc⟩ := hinv.answered pre i post hlog
  obtain rfl := Option.some.inj (hc.symm.trans hc')
  refine ⟨?_, fun s₁ h₁ hrun => Listener.order_of_run h₁ hrun hlog⟩
  have hserved := hmade.served _ hwhole hpc
  have hstep : replay s.connections d₀ (pre ++ [.handled i]) =
      (c.session (replay s.connections d₀ pre)).daemon := by
    rw [replay_append_singleton, LoopEvent.apply, hc]
    rfl
  rw [hstep]
  exact hserved

/-! ### A removal -/

/-- The removal of the file `f`. -/
def removal : ClientTask := ⟨0, NORNS_IOTASK_REMOVE, .localPath "tmp0" "f", none, ⟨0, 0, 0⟩⟩

def removalBody : List UInt8 :=
  [0x08, 0x01, 0x12, 0x1f, 0x08, 0x00, 0x10, 0x03,
   0x1a, 0x12, 0x08, 0x90, 0x80, 0x80, 0x01,
   0x22, 0x0b, 0x0a, 0x04, 0x74, 0x6d, 0x70, 0x30, 0x1a, 0x01, 0x66, 0x20, 0x00,
   0x22, 0x05, 0x08, 0x80, 0x80, 0x80, 0x08]

/-- The session of a client that submits it. -/
def removalEnv : SessionEnv :=
  { pauseEnv with
    parse := fun b => if b = removalBody then some (removal.msg .iotaskSubmit) else none }

/-- The client. -/
def removalClient : TaskClient :=
  { jobClient with
    pack := fun m => if m = removal.msg .iotaskSubmit then removalBody else []
    unpack := fun b =>
      if b = [0x08, 0x01, 0x10, 0x00, 0x18, 0x01] then some ⟨1, 0, some 1, none, none⟩ else none
    writes := [.accepted 8, .interrupted, .accepted 35]
    taskMem := fun _ => true }

def removalReply : Conn :=
  ⟨0, [.data 0 [0, 0, 0, 0, 0, 0, 6, 0x08], .interrupted, .data 0x01 [0x10, 0x00, 0x18, 0x01]],
   .closed⟩

/-- Its connection after it has been served. -/
def removingClient : Connection :=
  ⟨.global, removalEnv, frame .little removalBody, false,
   .ended (.answered ⟨.iotaskCreate 1, .success⟩)⟩

theorem removingClient_madeOver : (UserCall.submit removal).MadeOver removalClient
    (fun _ => [0x08, 0x01, 0x10, 0x00, 0x18, 0x01]) (fun _ => removalReply) removingClient where
  ready := ⟨rfl, fun _ => rfl, rfl⟩
  endian := rfl
  sent := ⟨.iotaskCreate .remove (some (.localPath "tmp0" "f")) none,
    ⟨0, frame .little removalBody, []⟩, by decide +kernel, by decide, by decide +kernel,
    by decide +kernel, rfl, rfl, by decide +kernel⟩
  answer resp hpc := by
    cases hpc
    exact ⟨[], by decide, by decide, by decide⟩

/-- The descriptor gets the id of the task that the daemon has made. -/
theorem removal_submitted : ∃ (s : Listener) (fuel : ℕ),
    Run ListenerStep (.init ⟨Urd.withNamespace, ∅⟩) s ∧ s.log = [.handled 0] ∧
    (s.daemon.taskMgr.find 1).map (fun ti => ti.type) = some .remove ∧
    (UserCall.submit removal).call removalClient fuel (fun _ => removalReply) =
      some (frame .little removalBody,
        .returned NORNS_SUCCESS (some { removal.descriptor with tId := 1 }) none) := by
  let s := (Listener.init ⟨Urd.withNamespace, ∅⟩).served .global removalEnv
    (frame .little removalBody) removalBody
  have hrun : Run ListenerStep (.init ⟨Urd.withNamespace, ∅⟩) s :=
    Listener.served_reachable rfl .global (by decide)
  have hc : s.connections[0]? = some removingClient := rfl
  have hlog : s.log = [] ++ .handled 0 :: [] := rfl
  obtain ⟨f, hf, -⟩ | ⟨e, fuel, hperform, hcall⟩ :=
    (submissions_linearizable hrun hlog hc removingClient_madeOver).1
  · cases hf
  · have he := congrArg (Except.map Prod.snd) hperform
    refine ⟨s, fuel, hrun, rfl, by decide +kernel, ?_⟩
    rw [hcall]
    cases he
    decide +kernel

end Norns
