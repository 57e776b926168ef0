import Norns.Binding
import Norns.Config
import Norns.JobCalls

/-! # Namespaces from the configuration to the calls

A daemon starts with the namespace for process memory and those of its configuration; later ones
come and go by requests of clients that do not wait for each other.

* `loadDefaultNamespaces`: the start, with the aliases for the types of backends.
* `NamespaceRequest.serve` says what one namespace is for: it is there or not, and `serve` is the
  answer to a request for it.
* `namespaces_of_run`: every namespace is what the definitions and the served requests with its own
  name make of it, in their order; a call returns the answer for its namespace at its place. -/

namespace Norns

open Lib

/-! ### Start up -/

/-- The aliases that `urd::load_backend_plugins` registers. -/
def backendAliases : List (String × BackendType) :=
  [("POSIX/LOCAL", .posixFilesystem), ("POSIX/SHARED", .posixFilesystem), ("NVML", .nvml),
   ("Lustre", .lustre)]

/-- `backend_factory::get_type`. -/
def getType (aliasName : String) : BackendType := (backendAliases.lookup aliasName).getD .unknown

/-- What `backend_factory::create_from` makes of its arguments. -/
abbrev CreateFrom := BackendType → String → Bool → String → UInt32 → Option Backend

/-- `urd::create_namespace`. -/
def createNamespace (createFrom : CreateFrom) (m : NamespaceManager) (nsid : String)
    (type : BackendType) (track : Bool) (mount : String) (quota : UInt32) :
    NamespaceManager × UrdError :=
  if nsid ∈ m then (m, .namespaceExists)
  else
    match createFrom type nsid track mount quota with
    | some b => (Table.emplace nsid b m, .success)
    | none => (m, .badArgs)

/-- `urd::create_namespace` for a definition of the configuration; the capacity becomes a quota of
32 bits. -/
def createDefined (createFrom : CreateFrom) (m : NamespaceManager) (nsdef : NamespaceDef) :
    NamespaceManager × UrdError :=
  if getType nsdef.aliasName = .unknown then (m, .badArgs)
  else createNamespace createFrom m nsdef.nsid (getType nsdef.aliasName) nsdef.track
    nsdef.mountpoint nsdef.capacity.toUInt32

/-- `urd::load_default_namespaces`; a definition that fails is left out. -/
def loadDefaultNamespaces (createFrom : CreateFrom) (m : NamespaceManager)
    (defs : List NamespaceDef) : NamespaceManager :=
  defs.foldl (fun m nsdef => (createDefined createFrom m nsdef).1) m

/-- The backend for a definition. -/
def NamespaceDef.made (createFrom : CreateFrom) (nsdef : NamespaceDef) : Option Backend :=
  if getType nsdef.aliasName = .unknown then none
  else createFrom (getType nsdef.aliasName) nsdef.nsid nsdef.track nsdef.mountpoint
    nsdef.capacity.toUInt32

/-! ### One namespace -/

/-- A request for a namespace; `made` is the backend that can be made for it when it is served. -/
inductive NamespaceRequest where
  | register (nsid : String) (made : Option Backend)
  | unregister (nsid : String)
deriving DecidableEq

namespace NamespaceRequest

def nsid : NamespaceRequest → String
  | register nsid _ => nsid
  | unregister nsid => nsid

/-- What becomes of the namespace that a request names, and the answer. -/
def serve : Option Backend → NamespaceRequest → Option Backend × UrdError
  | some b, register _ _ => (some b, .namespaceExists)
  | none, register _ (some b) => (some b, .success)
  | none, register _ none => (none, .badArgs)
  | some _, unregister _ => (none, .success)
  | none, unregister _ => (none, .noSuchNamespace)

end NamespaceRequest

/-- The request for a namespace that the daemon has decoded. -/
def Request.onNamespace (createFrom : CreateFrom) : Request → Option NamespaceRequest
  | backendRegister nsid type track mount quota =>
      some (.register nsid (createFrom type nsid track mount quota.toUInt32))
  | backendUnregister nsid => some (.unregister nsid)
  | _ => none

/-- The request for a namespace in what a client has sent. -/
def Connection.onNamespace (c : Connection) : Option NamespaceRequest :=
  match doReadRequest c.env c.arrived with
  | .error _ => none
  | .ok body =>
      match createFromBuffer c.env.parse body with
      | .error _ => none
      | .ok req => req.onNamespace c.env.createFrom

/-- The request with a name that an event serves. -/
def LoopEvent.onNamespace (nsid : String) (cs : List Connection) :
    LoopEvent → Option NamespaceRequest
  | handled i => (cs[i]?.bind Connection.onNamespace).filter fun r => r.nsid = nsid
  | other _ _ => none

/-- The requests for a namespace that have been served. -/
def namespaceRequests (nsid : String) (cs : List Connection) (log : List LoopEvent) :
    List NamespaceRequest :=
  log.filterMap (LoopEvent.onNamespace nsid cs)

/-- The namespace when the daemon begins to serve: the one of the process memory, or the first
definition for which there is a backend. -/
def startedNamespace (createFrom : CreateFrom) (defs : List NamespaceDef) (nsid : String) :
    Option Backend :=
  (NamespaceManager.init.lookup nsid).or
    ((defs.filter fun nsdef => nsdef.nsid = nsid).findSome? (NamespaceDef.made createFrom))

/-- The namespace after a part of the log. -/
def namespaceAfter (createFrom : CreateFrom) (defs : List NamespaceDef) (nsid : String)
    (cs : List Connection) (log : List LoopEvent) : Option Backend :=
  after NamespaceRequest.serve (startedNamespace createFrom defs nsid)
    (namespaceRequests nsid cs log)

/-! ### The table -/

/-- A request that has been served has changed the namespace with its name and no other. -/
def NamespaceRequest.ServedBy (r : NamespaceRequest) (m m' : NamespaceManager) (code : UrdError) :
    Prop :=
  (∀ nsid, m'.lookup nsid =
    if nsid = r.nsid then (serve (m.lookup r.nsid) r).1 else m.lookup nsid) ∧
  code = (serve (m.lookup r.nsid) r).2

/-- It may not have changed anything. -/
theorem NamespaceRequest.ServedBy.refused {r : NamespaceRequest} {m : NamespaceManager}
    {code : UrdError} (h : serve (m.lookup r.nsid) r = (m.lookup r.nsid, code)) :
    r.ServedBy m m code := by
  refine ⟨fun nsid => ?_, ?_⟩
  · split_ifs with hns
    · rw [h, hns]
    · rfl
  · rw [h]

theorem createNamespace_spec (createFrom : CreateFrom) (m : NamespaceManager) (nsid : String)
    (type : BackendType) (track : Bool) (mount : String) (quota : UInt32) :
    (NamespaceRequest.register nsid (createFrom type nsid track mount quota)).ServedBy m
      (createNamespace createFrom m nsid type track mount quota).1
      (createNamespace createFrom m nsid type track mount quota).2 := by
  unfold createNamespace
  cases hb : m.lookup nsid with
  | some b =>
      have hmem : nsid ∈ m := AList.lookup_isSome.mp (by rw [hb]; rfl)
      rw [if_pos hmem]
      have hserve : NamespaceRequest.serve (m.lookup nsid)
          (.register nsid (createFrom type nsid track mount quota)) =
            (m.lookup nsid, .namespaceExists) := by
        rw [hb]
        rfl
      exact .refused hserve
  | none =>
      have hmem : nsid ∉ m := AList.lookup_eq_none.mp hb
      rw [if_neg hmem]
      cases hmade : createFrom type nsid track mount quota with
      | some b =>
          refine ⟨fun k => ?_, ?_⟩
          · rw [NamespaceRequest.nsid, hb]
            exact Table.lookup_emplace_of_notMem hmem
          · rw [NamespaceRequest.nsid, hb]
            rfl
      | none =>
          have hserve : NamespaceRequest.serve (m.lookup nsid) (.register nsid none) =
              (m.lookup nsid, .badArgs) := by
            rw [hb]
            rfl
          exact .refused hserve

/-- A definition is a registration whose answer nobody looks at. -/
theorem lookup_createDefined (createFrom : CreateFrom) (m : NamespaceManager)
    (nsdef : NamespaceDef) (k : String) :
    (createDefined createFrom m nsdef).1.lookup k =
      if k = nsdef.nsid then (m.lookup k).or (nsdef.made createFrom) else m.lookup k := by
  unfold createDefined NamespaceDef.made
  split_ifs with htype hk hk
  · rw [Option.or_none]
  · rfl
  · rw [(createNamespace_spec createFrom m nsdef.nsid _ _ _ _).1, NamespaceRequest.nsid,
      if_pos hk, hk]
    cases m.lookup nsdef.nsid with
    | some b => rfl
    | none => cases createFrom _ _ _ _ _ <;> rfl
  · rw [(createNamespace_spec createFrom m nsdef.nsid _ _ _ _).1, NamespaceRequest.nsid,
      if_neg hk]

/-- The first definition that can be made counts. -/
theorem lookup_loadDefaultNamespaces (createFrom : CreateFrom) (m : NamespaceManager)
    (defs : List NamespaceDef) (nsid : String) :
    (loadDefaultNamespaces createFrom m defs).lookup nsid = (m.lookup nsid).or
      ((defs.filter fun nsdef => nsdef.nsid = nsid).findSome? (NamespaceDef.made createFrom)) := by
  induction defs generalizing m with
  | nil => exact (Option.or_none).symm
  | cons nsdef defs ih =>
      show (loadDefaultNamespaces createFrom (createDefined createFrom m nsdef).1 defs).lookup nsid
        = _
      rw [ih, lookup_createDefined]
      by_cases hns : nsdef.nsid = nsid
      · rw [if_pos hns.symm, List.filter_cons_of_pos (by simpa using hns), List.findSome?_cons,
          Option.or_assoc]
        cases nsdef.made createFrom <;> rfl
      · rw [if_neg (Ne.symm hns), List.filter_cons_of_neg (by simpa using hns)]

/-! ### The handlers -/

section handlers

variable {env : SessionEnv} {d d' : Daemon} {req : Request}

/-- The handler is `urd::create_namespace`. -/
theorem Daemon.namespaceRegisterHandler_eq (d : Daemon) (env : SessionEnv) (nsid : String)
    (type : BackendType) (track : Bool) (mount : String) (quota : Int32) :
    d.namespaceRegisterHandler env nsid type track mount quota =
      ({ d with namespaceMgr := (createNamespace env.createFrom d.namespaceMgr nsid type track mount
          quota.toUInt32).1 },
       ⟨.backendRegister, (createNamespace env.createFrom d.namespaceMgr nsid type track mount
          quota.toUInt32).2⟩) := by
  unfold Daemon.namespaceRegisterHandler createNamespace
  split_ifs
  · rfl
  · cases env.createFrom type nsid track mount quota.toUInt32 <;> rfl

theorem Daemon.namespaceRemoveHandler_spec (d : Daemon) (nsid : String) :
    (NamespaceRequest.unregister nsid).ServedBy d.namespaceMgr
      (d.namespaceRemoveHandler nsid).1.namespaceMgr
      (d.namespaceRemoveHandler nsid).2.errorCode := by
  unfold Daemon.namespaceRemoveHandler
  cases hb : d.namespaceMgr.lookup nsid with
  | some b =>
      have hmem : nsid ∈ d.namespaceMgr := AList.lookup_isSome.mp (by rw [hb]; rfl)
      rw [if_pos hmem]
      refine ⟨fun k => ?_, ?_⟩
      · rw [NamespaceRequest.nsid, hb]
        exact Table.lookup_erase' nsid k d.namespaceMgr
      · rw [NamespaceRequest.nsid, hb]
        rfl
  | none =>
      have hmem : nsid ∉ d.namespaceMgr := AList.lookup_eq_none.mp hb
      rw [if_neg hmem]
      have hserve : NamespaceRequest.serve (d.namespaceMgr.lookup nsid) (.unregister nsid) =
          (d.namespaceMgr.lookup nsid, .noSuchNamespace) := by
        rw [hb]
        rfl
      exact .refused hserve

/-- The dispatcher finds the handler of a request for a namespace, and it serves the request. -/
theorem Request.onNamespace_invoked {r : NamespaceRequest}
    (h : req.onNamespace env.createFrom = some r) (d : Daemon) :
    ∃ hd d' resp, callbacks.lookup req.type = some hd ∧ d.call env hd req = .ok (d', resp) ∧
      d.answer env req = .ok (d', resp) ∧
      r.ServedBy d.namespaceMgr d'.namespaceMgr resp.errorCode ∧
      CallEnd.ofResponse resp = .returned resp.errorCode.code none := by
  cases req with
  | backendRegister nsid type track mount quota =>
      obtain rfl := Option.some.inj h
      refine ⟨.namespaceRegisterHandler, _, _, rfl,
        congrArg Except.ok (d.namespaceRegisterHandler_eq env nsid type track mount quota),
        congrArg Except.ok (d.namespaceRegisterHandler_eq env nsid type track mount quota), ?_, rfl⟩
      exact createNamespace_spec env.createFrom d.namespaceMgr nsid type track mount _
  | backendUnregister nsid =>
      obtain rfl := Option.some.inj h
      refine ⟨.namespaceRemoveHandler, (d.namespaceRemoveHandler nsid).1,
        (d.namespaceRemoveHandler nsid).2, rfl, rfl, rfl, d.namespaceRemoveHandler_spec nsid, ?_⟩
      unfold Daemon.namespaceRemoveHandler
      split_ifs <;> rfl
  | _ => cases h

theorem Urd.namespaceMgr_commandHandler (u : Urd) (isEmpty : Backend → Bool) (cmd : CommandType) :
    (u.commandHandler isEmpty cmd).1.namespaceMgr = u.namespaceMgr := by
  unfold Urd.commandHandler
  cases cmd with
  | shutdown =>
      dsimp only
      split_ifs <;> rfl
  | _ => rfl

/-- The handlers that are not for namespaces leave them alone. -/
theorem Daemon.namespaceMgr_of_call {h : Handler} {resp : Response}
    (hreq : req.onNamespace env.createFrom = none) (hcall : d.call env h req = .ok (d', resp)) :
    d'.namespaceMgr = d.namespaceMgr := by
  cases hadmin : h.administrative with
  | false => exact (Daemon.sameControl_call hadmin hcall).2.1
  | true =>
      cases h with
      | namespaceRegisterHandler | namespaceRemoveHandler =>
          cases req <;> first | (cases hreq; done) | cases hcall
      | commandHandler =>
          cases req with
          | command cmd =>
              simp only [Daemon.call] at hcall
              split_ifs at hcall
              cases hcall
              exact Urd.namespaceMgr_commandHandler d.toUrd env.isEmpty cmd
          | _ => cases hcall
      | jobRegisterHandler =>
          cases req with
          | jobRegister jobid hosts =>
              simp only [Daemon.call, Daemon.jobRegisterHandler] at hcall
              split_ifs at hcall <;> cases hcall <;> rfl
          | _ => cases hcall
      | jobRemoveHandler =>
          cases req with
          | jobUnregister jobid =>
              simp only [Daemon.call, Daemon.jobRemoveHandler] at hcall
              split_ifs at hcall <;> cases hcall <;> rfl
          | _ => cases hcall
      | jobUpdateHandler =>
          cases req with
          | jobUpdate jobid hosts =>
              simp only [Daemon.call, Daemon.jobUpdateHandler] at hcall
              cases hjob : d.jobs.lookup jobid <;> rw [hjob] at hcall <;> cases hcall <;> rfl
          | _ => cases hcall
      | processAddHandler =>
          cases req with
          | processRegister jobid uid gid pid =>
              simp only [Daemon.call, Daemon.processAddHandler] at hcall
              cases hjob : d.jobs.lookup jobid <;> rw [hjob] at hcall <;> cases hcall <;> rfl
          | _ => cases hcall
      | processRemoveHandler =>
          cases req with
          | processUnregister jobid uid gid pid =>
              simp only [Daemon.call, Daemon.processRemoveHandler] at hcall
              cases hjob : d.jobs.lookup jobid <;> rw [hjob] at hcall <;> cases hcall <;> rfl
          | _ => cases hcall
      | _ => cases hadmin

end handlers

namespace Connection

variable {c : Connection}

/-- A session with a request for a namespace serves it. -/
theorem session_of_onNamespace {r : NamespaceRequest} (h : c.onNamespace = some r) (d : Daemon) :
    ∃ code, r.ServedBy d.namespaceMgr (c.session d).daemon.namespaceMgr code := by
  unfold onNamespace at h
  cases hread : doReadRequest c.env c.arrived with
  | error e =>
      rw [hread] at h
      cases h
  | ok body =>
      rw [hread] at h
      dsimp only at h
      cases hcreate : createFromBuffer c.env.parse body with
      | error f =>
          rw [hcreate] at h
          cases h
      | ok req =>
          rw [hcreate] at h
          obtain ⟨hd, d', resp, hlookup, hcall, -, hserved, -⟩ := Request.onNamespace_invoked h d
          have hlookup' : c.endpoint.dispatcher.lookup req.type = some hd := hlookup
          rw [session, session_of_ok c.endpoint d hread]
          simp only [handleBody, hcreate, hlookup', hcall]
          exact ⟨_, hserved⟩

/-- A session with anything else leaves the namespaces alone. -/
theorem namespaceMgr_of_session (h : c.onNamespace = none) (d : Daemon) :
    (c.session d).daemon.namespaceMgr = d.namespaceMgr := by
  unfold onNamespace at h
  cases hread : doReadRequest c.env c.arrived with
  | error e => rw [session, session_of_error c.endpoint d hread]
  | ok body =>
      rw [hread] at h
      rw [session, session_of_ok c.endpoint d hread, handleBody]
      cases hcreate : createFromBuffer c.env.parse body with
      | error f => rfl
      | ok req =>
          dsimp only at h ⊢
          rw [hcreate] at h
          cases c.endpoint.dispatcher.lookup req.type with
          | none => rfl
          | some hd =>
              dsimp only
              cases hcall : d.call c.env hd req with
              | error f => rfl
              | ok r => exact Daemon.namespaceMgr_of_call h hcall

end Connection

/-! ### Runs -/

/-- A namespace after a run of events is what the requests with its name make of it. -/
theorem lookup_replay (nsid : String) (cs : List Connection) (d : Daemon) (log : List LoopEvent) :
    (replay cs d log).namespaceMgr.lookup nsid = after NamespaceRequest.serve
      (d.namespaceMgr.lookup nsid) (namespaceRequests nsid cs log) := by
  let R : Option Backend → Daemon → Prop := fun b d => d.namespaceMgr.lookup nsid = b
  have hother : ∀ b d (ev : LoopEvent), ev.onNamespace nsid cs = none → R b d →
      R b (ev.apply cs d) := by
    intro b d ev hev hb
    cases ev with
    | other taskMgr runners => exact hb
    | handled i =>
        show (cs[i]?.elim d fun c => (c.session d).daemon).namespaceMgr.lookup nsid = b
        cases hc : cs[i]? with
        | none => exact hb
        | some c =>
            rw [LoopEvent.onNamespace, hc] at hev
            show (c.session d).daemon.namespaceMgr.lookup nsid = b
            cases hr : c.onNamespace with
            | none => rw [Connection.namespaceMgr_of_session hr, hb]
            | some r =>
                have hne : ¬ r.nsid = nsid := by
                  intro hns
                  rw [Option.bind_some, hr, Option.filter_some_pos (by simpa using hns)] at hev
                  cases hev
                obtain ⟨code, hserved⟩ := Connection.session_of_onNamespace hr d
                rw [hserved.1, if_neg (Ne.symm hne), hb]
  have hmine : ∀ b d (ev : LoopEvent) r, ev.onNamespace nsid cs = some r → True → R b d →
      R (NamespaceRequest.serve b r).1 (ev.apply cs d) := by
    intro b d ev r hr _ hb
    cases ev with
    | other taskMgr runners => cases hr
    | handled i =>
        obtain ⟨hr, hns⟩ := Option.filter_eq_some_iff.mp hr
        have hns : r.nsid = nsid := by simpa using hns
        obtain ⟨c, hc, hcr⟩ := Option.bind_eq_some_iff.mp hr
        obtain ⟨code, hserved⟩ := Connection.session_of_onNamespace hcr d
        show (cs[i]?.elim d fun c => (c.session d).daemon).namespaceMgr.lookup nsid = _
        rw [hc]
        show (c.session d).daemon.namespaceMgr.lookup nsid = _
        rw [hserved.1, if_pos hns.symm, hns, hb]
  exact after_filterMap_of_simulation hmine hother rfl fun _ _ => trivial

/-- The request of a call is what its connection carries. -/
theorem ControlCall.MadeOver.onNamespace {call : ControlCall} {req : Request}
    {r : NamespaceRequest} {cl : ClientEnv} {serialize : ResponseMsg → List UInt8}
    {reply : List UInt8 → Conn} {c : Connection} (h : call.MadeOver cl serialize reply c)
    (hreq : call.request = .ok req) (hr : req.onNamespace c.env.createFrom = some r)
    (hwhole : c.Whole) : c.onNamespace = some r := by
  obtain ⟨body, hbody⟩ := hwhole
  obtain ⟨m, hmsg, hparse⟩ := h.read hbody
  obtain ⟨-, -, req', -, -, hdecode, hreq'⟩ := request_of_message hmsg
  obtain rfl := Except.ok.inj (hreq.symm.trans hreq')
  have hcreate : createFromBuffer c.env.parse body = .ok req := by
    rw [createFromBuffer, hparse]
    exact hdecode
  simp only [Connection.onNamespace, hbody, hcreate, hr]

/-- **Namespaces.**  A namespace is there or not as the definitions of the configuration and the
requests with its name have made it, whatever else the clients and the other threads do; and a call
returns the answer to its request at its place. -/
theorem namespaces_of_run {createFrom : CreateFrom} {defs : List NamespaceDef} {d₀ : Daemon}
    (hstart : d₀.namespaceMgr = loadDefaultNamespaces createFrom .init defs) {s : Listener}
    (h : Run ListenerStep (.init d₀) s) :
    (∀ nsid, s.daemon.namespaceMgr.lookup nsid =
      namespaceAfter createFrom defs nsid s.connections s.log) ∧
    ∀ pre i post c, s.log = pre ++ .handled i :: post → s.connections[i]? = some c →
      ∀ (call : ControlCall) req r cl serialize reply, call.request = .ok req →
        req.onNamespace c.env.createFrom = some r → call.MadeOver cl serialize reply c →
        namespaceRequests r.nsid s.connections (pre ++ [.handled i]) =
          namespaceRequests r.nsid s.connections pre ++ [r] ∧
        ∃ fuel, call.call cl fuel reply = some (c.arrived, .returned (NamespaceRequest.serve
          (namespaceAfter createFrom defs r.nsid s.connections pre) r).2.code none) := by
  have hinv : s.Inv d₀ := .run h
  have hafter : ∀ nsid log, (replay s.connections d₀ log).namespaceMgr.lookup nsid =
      namespaceAfter createFrom defs nsid s.connections log := by
    intro nsid log
    rw [lookup_replay, hstart, lookup_loadDefaultNamespaces]
    rfl
  refine ⟨fun nsid => ?_, ?_⟩
  · rw [← hinv.daemon, hafter]
  · intro pre i post c hlog hc call req r cl serialize reply hreq hr hmade
    obtain ⟨c', hc', hwhole, hpc⟩ := hinv.answered pre i post hlog
    obtain rfl := Option.some.inj (hc.symm.trans hc')
    have hcr : LoopEvent.onNamespace r.nsid s.connections (.handled i) = some r := by
      rw [LoopEvent.onNamespace, hc, Option.bind_some, hmade.onNamespace hreq hr hwhole,
        Option.filter_some_pos (by simp)]
    refine ⟨by rw [namespaceRequests, List.filterMap_append, List.filterMap_cons_some hcr]; rfl, ?_⟩
    obtain ⟨-, d', resp, -, -, hanswer, hserved, hend⟩ :=
      Request.onNamespace_invoked hr (replay s.connections d₀ pre)
    have hperform : call.perform c.env (replay s.connections d₀ pre) =
        .ok (d', .ofResponse resp) := by
      rw [ControlCall.perform, hreq]
      show (Daemon.answer c.env _ req).map _ = _
      rw [hanswer]
      rfl
    obtain ⟨f, hf, -⟩ | ⟨e, fuel, he, hcall⟩ := hmade.served _ hwhole hpc
    · rw [hperform] at hf
      cases hf
    · rw [hperform] at he
      refine ⟨fuel, ?_⟩
      have hend' : CallEnd.ofResponse resp = e := congrArg Prod.snd (Except.ok.inj he)
      rw [hcall, ← hend', hend, hserved.2, hafter]

/-! ### A namespace is mounted elsewhere -/

/-- Two definitions with one name. -/
def tmp0Defs : List NamespaceDef :=
  [⟨"tmp0", false, "/a", "POSIX/LOCAL", 16777216, "*"⟩,
   ⟨"tmp0", true, "/c", "Lustre", 16777216, "*"⟩]

def mountBackend : NornsctlBackend := ⟨0x10000004, false, some "/b", 10⟩

def unmountBody : List UInt8 := [0x08, 0x0b, 0x32, 0x06, 0x0a, 0x04, 0x74, 0x6d, 0x70, 0x30]

def mountBody : List UInt8 :=
  [0x08, 0x09, 0x32, 0x16, 0x0a, 0x04, 0x74, 0x6d, 0x70, 0x30, 0x12, 0x0e, 0x08, 0x84, 0x80, 0x80,
   0x80, 0x01, 0x10, 0x00, 0x1a, 0x02, 0x2f, 0x62, 0x20, 0x0a]

def mountMsg : RequestMsg :=
  ⟨.namespaceRegister, none, none, none, none,
   some ⟨"tmp0", some ⟨0x10000004, false, "/b", 10⟩⟩, none⟩

def mountMessages : List (List UInt8 × RequestMsg) :=
  [(mountBody, mountMsg),
   (unmountBody, ⟨.namespaceUnregister, none, none, none, none, some ⟨"tmp0", none⟩, none⟩)]

/-- Every mount point is there, and is its own canonical path. -/
def mountedAnywhere : CreateFrom := createBackend fun mount => some mount.toList

/-- The session of a client that removes the namespace or defines it. -/
def mountEnv : SessionEnv :=
  { pauseEnv with
    parse := fun b => mountMessages.lookup b
    createFrom := mountedAnywhere }

/-- The client. -/
def mountClient : ClientEnv :=
  { jobClient with
    pack := fun m => ((mountMessages.find? fun p => p.2 = m).map Prod.fst).getD []
    unpack := fun b =>
      if b = [0x08, 0x09, 0x10, 0x00] then some ⟨9, 0, none, none, none⟩ else none
    writes := [.accepted 5, .interrupted, .accepted 3, .accepted 26] }

def mountReply : Conn :=
  ⟨0, [.data 0 [0, 0, 0, 0, 0, 0, 4, 0x08], .interrupted, .data 0x09 [0x10, 0x00]], .closed⟩

/-- The daemon when it begins to serve. -/
def tmp0Daemon : Daemon :=
  ⟨{ Urd.withNamespace with
     namespaceMgr := loadDefaultNamespaces mountedAnywhere .init tmp0Defs }, ∅⟩

/-- One client has removed the namespace, and another has defined it again. -/
def remounted : Listener :=
  ((Listener.init tmp0Daemon).served .control mountEnv (frame .little unmountBody)
    unmountBody).served .control mountEnv (frame .little mountBody) mountBody

/-- The connection of the second client. -/
def mountingClient : Connection :=
  ⟨.control, mountEnv, frame .little mountBody, false,
   .ended (.answered ⟨.backendRegister, .success⟩)⟩

theorem remounted_reachable : Run ListenerStep (.init tmp0Daemon) remounted := by
  have hrun : ((Listener.init tmp0Daemon).served .control mountEnv (frame .little unmountBody)
      unmountBody).loop = .running := by
    decide +kernel
  exact (Listener.served_reachable rfl .control (by decide)).trans
    (Listener.served_reachable hrun .control (by decide))

theorem mountingClient_madeOver :
    (ControlCall.registerNamespace (some "tmp0") (some mountBackend)).MadeOver mountClient
      (fun _ => [0x08, 0x09, 0x10, 0x00]) (fun _ => mountReply) mountingClient where
  ready := ⟨rfl, fun _ => rfl, rfl⟩
  endian := rfl
  sent := ⟨mountMsg, ⟨0, frame .little mountBody, []⟩, by decide +kernel, by decide +kernel,
    by decide +kernel, by decide +kernel, rfl, by decide +kernel, by decide +kernel⟩
  answer resp hpc := by
    cases hpc
    exact ⟨[], by decide, by decide, by decide⟩

/-- The namespace is where the second client has put it. -/
theorem tmp0_remounted : ∃ (s : Listener) (fuel : ℕ), Run ListenerStep (.init tmp0Daemon) s ∧
    s.log = [.handled 0, .handled 1] ∧
    (tmp0Daemon.namespaceMgr.lookup "tmp0").map Backend.mount = some ['/', 'a'] ∧
    (s.daemon.namespaceMgr.lookup "tmp0").map Backend.mount = some ['/', 'b'] ∧
    (ControlCall.registerNamespace (some "tmp0") (some mountBackend)).call mountClient fuel
      (fun _ => mountReply) =
      some (frame .little mountBody, .returned NORNS_SUCCESS none) := by
  have hlog : remounted.log = [.handled 0] ++ .handled 1 :: [] := rfl
  have hc : remounted.connections[1]? = some mountingClient := rfl
  obtain ⟨htable, hcalls⟩ := namespaces_of_run rfl remounted_reachable
  obtain ⟨-, fuel, hcall⟩ := hcalls _ 1 _ _ hlog hc _ _ _ _ _ _ rfl rfl mountingClient_madeOver
  refine ⟨_, fuel, remounted_reachable, rfl, by decide +kernel, ?_, ?_⟩
  · rw [htable]
    decide +kernel
  · rw [hcall]
    decide +kernel

end Norns
