import Norns.ControlApi

/-! # The registry of jobs behind the event loop

Many clients call the control API at once, and others write to the sockets whatever they like.

* `jobRequests` are the requests on jobs that a run has served, in the order of its log.
* `ControlCall.asks` is the request of a call.
* `job_calls_refine_registry`: whatever the clients do, the table of the daemon is what the map of
  `Registry` becomes by the served requests, and a call returns the answer of the map at its place
  in their order. -/

namespace Norns

open Lib

/-! ### Requests on jobs -/

/-- The request on a job that a message carries; the other members of the message are not read. -/
def RequestMsg.jobRequest (m : RequestMsg) : Option JobRequest :=
  match m.type, m.jobid, m.job, m.process with
  | .jobRegister, some jobid, some hosts, _ => some (.register jobid hosts)
  | .jobUpdate, some jobid, some hosts, _ => some (.update jobid hosts)
  | .jobUnregister, some jobid, _, _ => some (.unregister jobid)
  | .processAdd, some jobid, _, some p => some (.addProcess jobid p)
  | .processRemove, some jobid, _, some p => some (.removeProcess jobid p)
  | _, _, _, _ => none

/-- The request on a job in what a client has sent. -/
def Connection.jobRequest (c : Connection) : Option JobRequest :=
  match doReadRequest c.env c.arrived with
  | .error _ => none
  | .ok body => (c.env.parse body).bind RequestMsg.jobRequest

def LoopEvent.jobRequest (cs : List Connection) : LoopEvent → Option JobRequest
  | handled i => cs[i]?.bind Connection.jobRequest
  | other _ _ => none

/-- The requests on jobs that have been served. -/
def jobRequests (cs : List Connection) (log : List LoopEvent) : List JobRequest :=
  log.filterMap (LoopEvent.jobRequest cs)

/-- The map after the requests, if there were no jobs before. -/
def Registry.afterRequests (reqs : List JobRequest) : Registry :=
  after Registry.answer (fun _ => none) reqs

/-- What a call asks of the registry. -/
def ControlCall.asks : ControlCall → Option JobRequest
  | registerJob jobid (some job) =>
      if validateJob (some job) then job.hosts.toOption.map (.register jobid) else none
  | updateJob jobid (some job) =>
      if validateJob (some job) then job.hosts.toOption.map (.update jobid) else none
  | unregisterJob jobid => some (.unregister jobid)
  | addProcess jobid uid gid pid => some (.addProcess jobid (.ofIds uid gid pid))
  | removeProcess jobid uid gid pid => some (.removeProcess jobid (.ofIds uid gid pid))
  | _ => none

/-- The requests that have to do with jobs. -/
def Request.onJobs : Request → Bool
  | jobRegister _ _ | jobUpdate _ _ | jobUnregister _ => true
  | processRegister _ _ _ _ | processUnregister _ _ _ _ => true
  | _ => false

/-! ### Sessions -/

theorem RequestMsg.decode_jobRequest {m : RequestMsg} {r : JobRequest}
    (h : m.jobRequest = some r) : decodeRequest m = decodeRequest r.toMsg := by
  obtain ⟨type, task, jobid, job, process, nspace, command⟩ := m
  cases type <;> cases jobid <;> cases job <;> cases process <;> cases h <;> rfl

theorem onJobs_decodeSubmit {task : TaskMsg} {req : Request} (h : decodeSubmit task = .ok req) :
    req.onJobs = false := by
  unfold decodeSubmit at h
  split_ifs at h
  · cases hsrc : task.source.createFrom with
    | error f =>
        rw [hsrc] at h
        cases h
    | ok src =>
        rw [hsrc] at h
        cases hdst : task.destination.createFrom with
        | error f =>
            rw [hdst] at h
            cases h
        | ok dst =>
            rw [hdst] at h
            cases h
            rfl
  · cases h
    rfl

theorem onJobs_decodeNamespace (type : MsgType) (nspace : NamespaceMsg) :
    (decodeNamespace type nspace).onJobs = false := by
  unfold decodeNamespace
  cases nspace.backend with
  | none => rfl
  | some b =>
      dsimp only
      split_ifs <;> rfl

/-- A message that carries no request on a job is not taken for one. -/
theorem RequestMsg.onJobs_of_none {m : RequestMsg} {req : Request} (h : m.jobRequest = none)
    (hdecode : decodeRequest m = .ok req) : req.onJobs = false := by
  obtain ⟨type, task, jobid, job, process, nspace, command⟩ := m
  cases type with
  | iotaskSubmit =>
      cases task with
      | none =>
          cases hdecode
          rfl
      | some task => exact onJobs_decodeSubmit hdecode
  | iotaskStatus =>
      cases task <;> cases hdecode <;> rfl
  | ping =>
      cases hdecode
      rfl
  | globalStatus =>
      cases hdecode
      rfl
  | ctlCommand =>
      cases command <;> cases hdecode <;> rfl
  | jobRegister | jobUpdate =>
      cases jobid <;> cases job <;> first | (cases hdecode; rfl) | cases h
  | jobUnregister =>
      cases jobid <;> first | (cases hdecode; rfl) | cases h
  | processAdd | processRemove =>
      cases jobid <;> cases job <;> cases process <;> first | (cases hdecode; rfl) | cases h
  | namespaceRegister | namespaceUpdate | namespaceUnregister =>
      cases nspace with
      | none =>
          cases hdecode
          rfl
      | some nspace =>
          cases hdecode
          exact onJobs_decodeNamespace _ nspace

/-- The dispatcher finds the handler of a request on a job. -/
theorem JobRequest.invoked (r : JobRequest) (env : SessionEnv) (d : Daemon) :
    ∃ req h, decodeRequest r.toMsg = .ok req ∧ callbacks.lookup req.type = some h ∧
      d.call env h req = .ok (d.handle r) ∧ d.answer env req = .ok (d.handle r) := by
  cases r <;> exact ⟨_, _, rfl, rfl, rfl, rfl⟩

/-- The other handlers leave the table of jobs alone. -/
theorem Daemon.jobs_of_call {d d' : Daemon} {env : SessionEnv} {h : Handler} {req : Request}
    {resp : Response} (hreq : req.onJobs = false) (hcall : d.call env h req = .ok (d', resp)) :
    d'.jobs = d.jobs := by
  cases hadmin : h.administrative with
  | false => exact (Daemon.sameControl_call hadmin hcall).1
  | true =>
      cases h with
      | namespaceRegisterHandler =>
          cases req with
          | backendRegister nsid type track mount quota =>
              simp only [Daemon.call, Daemon.namespaceRegisterHandler] at hcall
              split_ifs at hcall
              · cases hcall
                rfl
              · cases hmade : env.createFrom type nsid track mount quota.toUInt32 <;>
                  rw [hmade] at hcall <;> cases hcall <;> rfl
          | _ => cases hcall
      | namespaceRemoveHandler =>
          cases req with
          | backendUnregister nsid =>
              simp only [Daemon.call, Daemon.namespaceRemoveHandler] at hcall
              split_ifs at hcall <;> cases hcall <;> rfl
          | _ => cases hcall
      | commandHandler =>
          cases req with
          | command cmd =>
              simp only [Daemon.call] at hcall
              split_ifs at hcall
              cases hcall
              rfl
          | _ => cases hcall
      | jobRegisterHandler | jobUpdateHandler | jobRemoveHandler | processAddHandler
      | processRemoveHandler =>
          cases req <;> first | (cases hreq; done) | cases hcall
      | _ => cases hadmin

namespace Connection

variable {c : Connection}

/-- A session with a request on a job runs its handler. -/
theorem session_of_jobRequest {r : JobRequest} (h : c.jobRequest = some r) (d : Daemon) :
    (c.session d).daemon = (d.handle r).1 ∧
      (c.session d).ending = .answered (d.handle r).2 := by
  unfold jobRequest at h
  cases hread : doReadRequest c.env c.arrived with
  | error e =>
      rw [hread] at h
      cases h
  | ok body =>
      rw [hread] at h
      obtain ⟨m, hm, hr⟩ := Option.bind_eq_some_iff.mp h
      obtain ⟨req, hd, hdecode, hlookup, hcall, -⟩ := r.invoked c.env d
      have hcreate : createFromBuffer c.env.parse body = .ok req := by
        rw [createFromBuffer, hm]
        exact (RequestMsg.decode_jobRequest hr).trans hdecode
      have hlookup' : c.endpoint.dispatcher.lookup req.type = some hd := hlookup
      rw [session, session_of_ok c.endpoint d hread]
      simp only [handleBody, hcreate, hlookup', hcall, and_self]

/-- A session with anything else leaves the jobs alone. -/
theorem jobs_of_session (h : c.jobRequest = none) (d : Daemon) :
    (c.session d).daemon.jobs = d.jobs := by
  unfold jobRequest at h
  cases hread : doReadRequest c.env c.arrived with
  | error e => rw [session, session_of_error c.endpoint d hread]
  | ok body =>
      rw [hread] at h
      rw [session, session_of_ok c.endpoint d hread, handleBody]
      cases hcreate : createFromBuffer c.env.parse body with
      | error f => rfl
      | ok req =>
          dsimp only
          cases c.endpoint.dispatcher.lookup req.type with
          | none => rfl
          | some hd =>
              dsimp only
              cases hcall : d.call c.env hd req with
              | error f => rfl
              | ok r =>
                  obtain ⟨d', resp⟩ := r
                  refine Daemon.jobs_of_call ?_ hcall
                  cases hm : c.env.parse body with
                  | none =>
                      rw [createFromBuffer, hm] at hcreate
                      cases hcreate
                      rfl
                  | some m =>
                      rw [createFromBuffer, hm] at hcreate
                      have hnone : (c.env.parse body).bind RequestMsg.jobRequest = none := h
                      rw [hm] at hnone
                      exact RequestMsg.onJobs_of_none hnone hcreate

end Connection

/-! ### Runs -/

/-- Only the jobs of the daemon matter. -/
theorem Represents.congr {allowed : Set JobRequest} {m : Registry} {d d' : Daemon}
    (hjobs : d'.jobs = d.jobs) (h : Represents allowed m d) : Represents allowed m d' := by
  intro jobid
  rw [hjobs]
  exact h jobid

/-- The daemon after a run of events represents the map after their requests. -/
theorem Represents.replay {allowed : Set JobRequest} (hun : Unambiguous allowed)
    {cs : List Connection} {d : Daemon} (hempty : d.jobs = ∅) {log : List LoopEvent}
    (hlog : ∀ r ∈ jobRequests cs log, r ∈ allowed) :
    Represents allowed (.afterRequests (jobRequests cs log)) (replay cs d log) := by
  have hinit : Represents allowed (fun _ => none) d := by
    intro jobid
    rw [hempty]
    refine ⟨rfl, fun job hjob => ?_⟩
    cases hjob
  refine after_filterMap_of_simulation (fun m d ev r hr hallowed h => ?_) (fun m d ev hr h => ?_)
    hinit hlog
  · cases ev with
    | other taskMgr runners => cases hr
    | handled i =>
        obtain ⟨c, hc, hcr⟩ := Option.bind_eq_some_iff.mp hr
        have hstep := (Represents.step hun c.env hallowed h).2
        rw [Daemon.jobStep, Daemon.serve_eq_handle] at hstep
        show Represents allowed _ (cs[i]?.elim d fun c => (c.session d).daemon)
        rw [hc]
        show Represents allowed _ (c.session d).daemon
        rw [(Connection.session_of_jobRequest hcr d).1]
        exact hstep
  · cases ev with
    | other taskMgr runners => exact h.congr rfl
    | handled i =>
        show Represents allowed m (cs[i]?.elim d fun c => (c.session d).daemon)
        cases hc : cs[i]? with
        | none => exact h
        | some c =>
            have hcr : c.jobRequest = none := by
              rw [LoopEvent.jobRequest, hc] at hr
              exact hr
            exact h.congr (Connection.jobs_of_session hcr d)

/-! ### Calls -/

section calls

variable {call : ControlCall} {r : JobRequest}

/-- A call with a descriptor that is accepted. -/
theorem exists_hosts {job : NornsctlJob} {request : List String → JobRequest}
    (h : (if validateJob (some job) then job.hosts.toOption.map request else none) = some r) :
    validateJob (some job) = true ∧ ∃ hosts, job.hosts = .ok hosts ∧ r = request hosts := by
  split_ifs at h with hvalid
  refine ⟨hvalid, ?_⟩
  cases hhosts : job.hosts with
  | error e =>
      rw [hhosts] at h
      cases h
  | ok hosts =>
      rw [hhosts] at h
      exact ⟨hosts, rfl, (Option.some.inj h).symm⟩

/-- The call sends its request. -/
theorem ControlCall.message_of_asks (h : call.asks = some r) : call.message = .ok r.toMsg := by
  cases call with
  | registerJob jobid job =>
      cases job with
      | none => cases h
      | some job =>
          obtain ⟨hvalid, hosts, hhosts, rfl⟩ := exists_hosts h
          have hargs : (registerJob jobid (some job)).args =
              .ok (.jobRegister, .job .jobRegister jobid (some job)) := by
            rw [args, hvalid]
            rfl
          rw [message_of_args hargs, buildControlMsg_job (by rintro ⟨⟩) jobid hvalid, hhosts]
          rfl
  | updateJob jobid job =>
      cases job with
      | none => cases h
      | some job =>
          obtain ⟨hvalid, hosts, hhosts, rfl⟩ := exists_hosts h
          have hargs : (updateJob jobid (some job)).args =
              .ok (.jobUpdate, .job .jobUpdate jobid (some job)) := by
            rw [args, hvalid]
            rfl
          rw [message_of_args hargs, buildControlMsg_job (by rintro ⟨⟩) jobid hvalid, hhosts]
          rfl
  | unregisterJob jobid =>
      cases h
      rfl
  | addProcess jobid uid gid pid =>
      cases h
      rfl
  | removeProcess jobid uid gid pid =>
      cases h
      rfl
  | _ => cases h

/-- It is for the handler of its request. -/
theorem ControlCall.perform_of_asks (h : call.asks = some r) (env : SessionEnv) (d : Daemon) :
    call.perform env d = .ok ((d.handle r).1, .ofResponse (d.handle r).2) := by
  obtain ⟨req, hd, hdecode, -, -, hanswer⟩ := r.invoked env d
  obtain ⟨-, -, req', -, -, hdecode', hreq⟩ := request_of_message (message_of_asks h)
  obtain rfl := Except.ok.inj (hdecode.symm.trans hdecode')
  rw [perform, hreq]
  show (d.answer env req).map _ = _
  rw [hanswer]
  rfl

/-- The request of a call is what its connection carries. -/
theorem ControlCall.MadeOver.jobRequest {cl : ClientEnv} {serialize : ResponseMsg → List UInt8}
    {reply : List UInt8 → Conn} {c : Connection} (h : call.MadeOver cl serialize reply c)
    (hasks : call.asks = some r) (hwhole : c.Whole) : c.jobRequest = some r := by
  obtain ⟨body, hbody⟩ := hwhole
  obtain ⟨m, hmsg, hparse⟩ := h.read hbody
  obtain rfl := Except.ok.inj ((message_of_asks hasks).symm.trans hmsg)
  rw [Connection.jobRequest, hbody]
  show (c.env.parse body).bind RequestMsg.jobRequest = some r
  rw [hparse]
  cases r <;> rfl

end calls

/-- **The registry of jobs for concurrent clients.**  Whatever the clients send, in whatever pieces,
and whatever the other threads do: if the requests that have been served do not mistake a process
for another, the daemon has the jobs of the map after these requests, and a call has returned the
answer of the map at its place. -/
theorem job_calls_refine_registry {d₀ : Daemon} (hempty : d₀.jobs = ∅) {s : Listener}
    (h : Run ListenerStep (.init d₀) s)
    (hun : Unambiguous {r | r ∈ jobRequests s.connections s.log}) :
    (∀ jobid, s.daemon.jobs.lookup jobid =
      (Registry.afterRequests (jobRequests s.connections s.log) jobid).map RegisteredJob.kept) ∧
    ∀ pre i post c, s.log = pre ++ .handled i :: post → s.connections[i]? = some c →
      ∀ (call : ControlCall) r cl serialize reply, call.asks = some r →
        call.MadeOver cl serialize reply c →
        jobRequests s.connections (pre ++ [.handled i]) = jobRequests s.connections pre ++ [r] ∧
        ∃ fuel, call.call cl fuel reply = some (c.arrived, .ofResponse
          (Registry.step (.afterRequests (jobRequests s.connections pre)) r).2) := by
  have hinv : s.Inv d₀ := .run h
  refine ⟨fun jobid => ?_, fun pre i post c hlog hc call r cl serialize reply hasks hmade => ?_⟩
  · rw [← hinv.daemon]
    exact (Represents.replay hun hempty (fun r hr => hr) jobid).1
  · obtain ⟨c', hc', hwhole, hpc⟩ := hinv.answered pre i post hlog
    obtain rfl := Option.some.inj (hc.symm.trans hc')
    have hcr : LoopEvent.jobRequest s.connections (.handled i) = some r := by
      rw [LoopEvent.jobRequest, hc]
      exact hmade.jobRequest hasks hwhole
    have hreqs : jobRequests s.connections s.log =
        jobRequests s.connections pre ++ r :: jobRequests s.connections post := by
      rw [hlog, jobRequests, List.filterMap_append, List.filterMap_cons_some hcr]
      rfl
    have hrep : Represents {r | r ∈ jobRequests s.connections s.log}
        (.afterRequests (jobRequests s.connections pre)) (replay s.connections d₀ pre) := by
      refine Represents.replay hun hempty fun r hr => ?_
      show r ∈ jobRequests s.connections s.log
      rw [hreqs]
      exact List.mem_append_left _ hr
    have hr : r ∈ jobRequests s.connections s.log := by
      rw [hreqs]
      exact List.mem_append_right _ List.mem_cons_self
    have hanswer := (Represents.step hun c.env hr hrep).1
    rw [Daemon.jobStep, Daemon.serve_eq_handle] at hanswer
    have hresp := Except.ok.inj hanswer
    refine ⟨by rw [jobRequests, List.filterMap_append, List.filterMap_cons_some hcr]; rfl, ?_⟩
    obtain ⟨f, hf, -⟩ | ⟨e, fuel, hperform, hcall⟩ := hmade.served _ hwhole hpc
    · rw [ControlCall.perform_of_asks hasks] at hf
      cases hf
    · rw [ControlCall.perform_of_asks hasks] at hperform
      refine ⟨fuel, ?_⟩
      rw [hcall, ← hresp]
      have hend := congrArg Prod.snd (Except.ok.inj hperform)
      exact congrArg (fun e => some (c.arrived, e)) hend.symm

/-! ### Two clients -/

/-- The listener after a client has connected, has sent a request and has been served. -/
def Listener.served (s : Listener) (endpoint : Endpoint) (env : SessionEnv)
    (bytes body : List UInt8) : Listener :=
  let r := handleBody env endpoint s.daemon body
  { s with
    daemon := r.daemon
    connections := s.connections ++ [⟨endpoint, env, bytes, false, .ended r.ending⟩]
    loop := .after env body r.ending
    log := s.log ++ [.handled s.connections.length] }

theorem Listener.served_reachable {s : Listener} (hrun : s.loop = .running) (endpoint : Endpoint)
    {env : SessionEnv} {bytes body : List UInt8} (hread : doReadRequest env bytes = .ok body) :
    Run ListenerStep s (s.served endpoint env bytes body) := by
  let c : Connection := ⟨endpoint, env, bytes, false, .readHeader⟩
  have hat : ∀ c : Connection, (s.connections ++ [c])[s.connections.length]? = some c :=
    fun c => List.getElem?_concat_length
  have hset : ∀ c c' : Connection,
      (s.connections ++ [c]).set s.connections.length c' = s.connections ++ [c'] := by
    intro c c'
    rw [List.set_append_right _ _ le_rfl, Nat.sub_self]
    rfl
  obtain ⟨hlen, length, hheader, hlong, rfl⟩ := Connection.Whole.headerRead (c := c) hread
  have haccept : ListenerStep s
      { s with connections := s.connections ++ [.accepted endpoint env] } :=
    .accept endpoint env hrun
  have harrive : ListenerStep { s with connections := s.connections ++ [.accepted endpoint env] }
      { s with connections := s.connections ++ [c] } := by
    have hstep := ListenerStep.arrive (s := { s with
      connections := s.connections ++ [.accepted endpoint env] }) s.connections.length bytes
      (hat _) rfl
    rw [hset] at hstep
    exact hstep
  have hread : ListenerStep { s with connections := s.connections ++ [c] }
      { s with connections := s.connections ++ [{ c with pc := .readBody length }] } := by
    have hstep := ListenerStep.header (s := { s with connections := s.connections ++ [c] })
      s.connections.length hrun (hat _) rfl hlen
    unfold Listener.readHeader Listener.setPc at hstep
    rw [hheader, if_neg (by rintro ⟨⟩), hset] at hstep
    exact hstep
  have hserve : ListenerStep
      { s with connections := s.connections ++ [{ c with pc := .readBody length }] }
      (s.served endpoint env bytes ((bytes.drop NORNS_RPC_HEADER_LENGTH).take length)) := by
    have hstep := ListenerStep.body (s := { s with
      connections := s.connections ++ [{ c with pc := .readBody length }] })
      s.connections.length hrun (hat _) rfl hlong
    simp only [Listener.readBody, Listener.setPc, hset] at hstep
    exact hstep
  exact (((Relation.ReflTransGen.single haccept).tail harrive).tail hread).tail hserve

/-- A job on one host, with a limit of which the daemon reads nothing. -/
def registerBody : List UInt8 :=
  [0x08, 0x04, 0x18, 0x2a, 0x22, 0x12, 0x0a, 0x06, 0x68, 0x6f, 0x73, 0x74, 0x30, 0x30,
   0x12, 0x08, 0x0a, 0x04, 0x74, 0x6d, 0x70, 0x30, 0x10, 0x0a]

/-- A process of the job. -/
def processBody (type : UInt8) : List UInt8 :=
  [0x08, type, 0x18, 0x2a, 0x2a, 0x0a, 0x08, 0xe9, 0x07, 0x10, 0xd1, 0x0f, 0x18, 0xb9, 0xc6, 0x01]

def jobMessages : List (List UInt8 × RequestMsg) :=
  [(registerBody, (JobRequest.register 42 ["host00"]).toMsg),
   (processBody 7, (JobRequest.addProcess 42 (.ofIds 1001 2001 25401)).toMsg),
   (processBody 8, (JobRequest.removeProcess 42 (.ofIds 1001 2001 25401)).toMsg)]

/-- The session of a client that sends one of them. -/
def jobEnv : SessionEnv := { pauseEnv with parse := fun b => jobMessages.lookup b }

/-- The client. -/
def jobClient : ClientEnv where
  hasContext := true
  mem _ := true
  pack m := ((jobMessages.find? fun p => p.2 = m).map Prod.fst).getD []
  unpack b :=
    if b = [0x08, 0x08, 0x10, 0x00] then some ⟨8, 0, none, none, none⟩ else none
  endian := .little
  connects := true
  writes := [.accepted 5, .interrupted, .accepted 3, .accepted 16]
  alloc _ := true
  junk _ := 0

/-- The job and its process have been registered by two clients, and the process has been removed by
a third one. -/
def jobServed (d : Daemon) : Listener :=
  (((Listener.init d).served .control jobEnv (frame .little registerBody) registerBody).served
    .control jobEnv (frame .little (processBody 7)) (processBody 7)).served
    .control jobEnv (frame .little (processBody 8)) (processBody 8)

def jobReply : Conn :=
  ⟨0, [.data 0 [0, 0, 0, 0, 0, 0, 4, 0x08], .interrupted, .data 0x08 [0x10, 0x00]], .closed⟩

/-- The connection of the third client. -/
def processRemover : Connection :=
  ⟨.control, jobEnv, frame .little (processBody 8), false,
   .ended (.answered ⟨.processUnregister, .success⟩)⟩

/-- An answer to a request that is no shutdown leaves the loop running. -/
theorem served_running {s : Listener} {bytes body : List UInt8} {resp : Response}
    (hshutdown : ¬ IsShutdown jobEnv body)
    (hend : (handleBody jobEnv .control s.daemon body).ending = .answered resp) :
    (s.served .control jobEnv bytes body).loop = .running := by
  show LoopState.after jobEnv body (handleBody jobEnv .control s.daemon body).ending = _
  rw [hend, LoopState.after, if_neg fun h => hshutdown h.1]

theorem jobServed_reachable (d : Daemon) : Run ListenerStep (.init d) (jobServed d) := by
  have hregister : Run ListenerStep (.init d)
      ((Listener.init d).served .control jobEnv (frame .little registerBody) registerBody) :=
    Listener.served_reachable rfl .control (by decide)
  have hread : doReadRequest jobEnv (frame .little (processBody 7)) = .ok (processBody 7) := by
    decide
  have hadd := hregister.trans
    (Listener.served_reachable (served_running (by decide) rfl) .control hread)
  exact hadd.trans
    (Listener.served_reachable (served_running (by decide) rfl) .control (by decide))

theorem processRemover_madeOver : (ControlCall.removeProcess 42 1001 2001 25401).MadeOver jobClient
    (fun _ => [0x08, 0x08, 0x10, 0x00]) (fun _ => jobReply) processRemover where
  ready := ⟨rfl, fun _ => rfl, rfl⟩
  endian := rfl
  sent := ⟨(JobRequest.removeProcess 42 (.ofIds 1001 2001 25401)).toMsg,
    ⟨0, frame .little (processBody 8), []⟩, rfl, by decide, by decide, by decide, rfl, rfl,
    by decide⟩
  answer resp hpc := by
    cases hpc
    exact ⟨[], by decide, by decide, by decide⟩

/-- A process that one client adds to the job of another is removed by a third. -/
theorem process_removed_by_other : ∃ (d : Daemon) (s : Listener) (fuel : ℕ),
    Run ListenerStep (.init d) s ∧ s.log = [.handled 0, .handled 1, .handled 2] ∧
    jobRequests s.connections s.log = [.register 42 ["host00"],
      .addProcess 42 (.ofIds 1001 2001 25401), .removeProcess 42 (.ofIds 1001 2001 25401)] ∧
    s.daemon.jobs.lookup 42 = some ⟨["host00"], ∅⟩ ∧
    (ControlCall.removeProcess 42 1001 2001 25401).call jobClient fuel (fun _ => jobReply) =
      some (frame .little (processBody 8), .returned NORNS_SUCCESS none) := by
  have hrun := jobServed_reachable ⟨Urd.withNamespace, ∅⟩
  have hreqs : jobRequests (jobServed ⟨Urd.withNamespace, ∅⟩).connections
      (jobServed ⟨Urd.withNamespace, ∅⟩).log = [.register 42 ["host00"],
        .addProcess 42 (.ofIds 1001 2001 25401), .removeProcess 42 (.ofIds 1001 2001 25401)] := by
    decide
  have hlog : (jobServed ⟨Urd.withNamespace, ∅⟩).log =
      [.handled 0, .handled 1] ++ .handled 2 :: [] := rfl
  have hc : (jobServed ⟨Urd.withNamespace, ∅⟩).connections[2]? = some processRemover := rfl
  have hun : Unambiguous {r | r ∈ jobRequests (jobServed ⟨Urd.withNamespace, ∅⟩).connections
      (jobServed ⟨Urd.withNamespace, ∅⟩).log} := by
    rw [hreqs]
    intro jobid hosts p p' hregister hadd hremove _
    simp only [Set.mem_ofPred_eq, List.mem_cons, List.not_mem_nil, or_false, reduceCtorEq, false_or,
      JobRequest.addProcess.injEq, JobRequest.removeProcess.injEq] at hadd hremove
    exact hadd.2.trans hremove.2.symm
  obtain ⟨htable, hcalls⟩ := job_calls_refine_registry rfl hrun hun
  obtain ⟨-, fuel, hcall⟩ := hcalls _ 2 _ _ hlog hc _ _ _ _ _ rfl processRemover_madeOver
  refine ⟨_, _, fuel, hrun, rfl, hreqs, ?_, ?_⟩
  · rw [htable, hreqs]
    rfl
  · rw [hcall]
    rfl

end Norns
