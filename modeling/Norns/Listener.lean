import Norns.Session

/-! # The event loop

`api::listener` runs one `io_service`, in one thread, for all connections: the acceptors of the two
endpoints, the sessions and the signals.  A session is a chain of completion handlers.  The first
waits for the header of a request and makes room for the body, the second waits for the body, calls
the handler of the daemon and writes the response (`session.hpp`, `message.hpp`,
`local-endpoint.hpp`, `signal-listener.hpp`).

`ListenerStep` interleaves them: connections are accepted, bytes arrive in pieces of any size,
clients hang up, and whenever the read that a session waits for is complete its handler can run.
The tasks of the daemon go on meanwhile.  An exception that leaves a handler leaves `run()` too.

The handler of a request is one step here: the other threads act before it and after it, but not in
its course.  So it is for whatever only the thread of the loop touches, the jobs and the namespaces.
The status handlers look at records that workers write meanwhile; `Status` cuts the one for a task
into its steps.

* `listener_serialises`: whatever the interleaving of connections, what has happened is what
  `session` does for one connection after the other, each with the whole stream of its own client.
* `listener_not_blocked`: a client that has sent its request is answered, whatever the others have
  sent or not sent.
* `listener_alive_iff`: the loop runs on unless a signal, an accepted shutdown or the request of
  some client ends it, be it that its handler throws. -/

namespace Norns

open Lib

/-! ### The loop -/

/-- The handler that a session waits for: the end of a read, or none any more. -/
inductive SessionPc where
  | readHeader
  | readBody (length : ℕ)
  | ended (ending : SessionEnd)
deriving DecidableEq, Repr

/-- A connection with its session.  `arrived` is all that the client has sent so far, and `closed`
says that no more will come; `env` is what the session finds outside the daemon. -/
structure Connection where
  endpoint : Endpoint
  env : SessionEnv
  arrived : List UInt8
  closed : Bool
  pc : SessionPc

/-- Where `m_ios.run()` is: it can have been stopped, or left by an exception, or the process has
been stopped. -/
inductive LoopState where
  | running
  | stopped
  | thrown
  | aborted
deriving DecidableEq, Repr

/-- What changes the daemon: the handler of a request, or other threads, which work on tasks. -/
inductive LoopEvent where
  | handled (i : ℕ)
  | other (taskMgr : TaskManager) (runners : List GenericTask)

/-- The listener and the daemon behind it; the log and the flag for signals only remember. -/
structure Listener where
  daemon : Daemon
  connections : List Connection
  loop : LoopState
  signalled : Bool
  log : List LoopEvent

/-- A listener that has just been started. -/
def Listener.init (d : Daemon) : Listener := ⟨d, [], .running, false, []⟩

/-- A new session on an endpoint. -/
def Connection.accepted (endpoint : Endpoint) (env : SessionEnv) : Connection :=
  ⟨endpoint, env, [], false, .readHeader⟩

/-- The handler at the end of `do_read_request`, with `message::decode_header`.  There is no room
for the body, or there is no body, or its read begins. -/
def Connection.headerRead (c : Connection) : SessionPc :=
  let length := decodeHeader c.env.endian (c.arrived.take NORNS_RPC_HEADER_LENGTH)
  if !c.env.canHold length then .ended .raised
  else if length = 0 then .ended .noRequest
  else .readBody length

/-- The bytes are a SHUTDOWN. -/
def IsShutdown (env : SessionEnv) (body : List UInt8) : Prop :=
  createFromBuffer env.parse body = .ok (.command .shutdown)

instance (env : SessionEnv) (body : List UInt8) : Decidable (IsShutdown env body) :=
  inferInstanceAs (Decidable (createFromBuffer env.parse body = .ok (.command .shutdown)))

/-- What the end of a session is to the loop; an accepted SHUTDOWN calls `m_ios.stop()`. -/
def LoopState.after (env : SessionEnv) (body : List UInt8) : SessionEnd → LoopState
  | .raised => .thrown
  | .fault _ => .aborted
  | .noRequest => .running
  | .answered resp =>
      if IsShutdown env body ∧ resp.errorCode = .success then .stopped else .running

namespace Listener

/-- The session of connection `i` is at `pc`. -/
def setPc (s : Listener) (i : ℕ) (c : Connection) (pc : SessionPc) : List Connection :=
  s.connections.set i { c with pc := pc }

/-- The listener after the handler at the end of the header. -/
def readHeader (s : Listener) (i : ℕ) (c : Connection) : Listener :=
  { s with
    connections := s.setPc i c c.headerRead
    loop := if c.headerRead = .ended .raised then .thrown else s.loop }

/-- The listener after the handler at the end of the body. -/
def readBody (s : Listener) (i : ℕ) (c : Connection) (body : List UInt8) : Listener :=
  let r := handleBody c.env c.endpoint s.daemon body
  { s with
    daemon := r.daemon
    connections := s.setPc i c (.ended r.ending)
    loop := .after c.env body r.ending
    log := s.log ++ [.handled i] }

/-- The tasks have gone on. -/
def otherThreads (s : Listener) (taskMgr : TaskManager) (runners : List GenericTask) : Listener :=
  { s with
    daemon := { s.daemon with taskMgr := taskMgr, runners := runners }
    log := s.log ++ [.other taskMgr runners] }

end Listener

/-- One step: of a client, of the loop, or of the other threads between two of them.  A signal is
SIGINT or SIGTERM; SIGHUP is only logged. -/
inductive ListenerStep : Listener → Listener → Prop
  | accept {s : Listener} (endpoint : Endpoint) (env : SessionEnv) (hrun : s.loop = .running) :
      ListenerStep s { s with connections := s.connections ++ [.accepted endpoint env] }
  | arrive {s : Listener} (i : ℕ) {c : Connection} (bs : List UInt8)
      (hc : s.connections[i]? = some c) (hopen : c.closed = false) :
      ListenerStep s
        { s with connections := s.connections.set i { c with arrived := c.arrived ++ bs } }
  | hangUp {s : Listener} (i : ℕ) {c : Connection} (hc : s.connections[i]? = some c) :
      ListenerStep s { s with connections := s.connections.set i { c with closed := true } }
  | header {s : Listener} (i : ℕ) {c : Connection} (hrun : s.loop = .running)
      (hc : s.connections[i]? = some c) (hpc : c.pc = .readHeader)
      (hread : NORNS_RPC_HEADER_LENGTH ≤ c.arrived.length) : ListenerStep s (s.readHeader i c)
  | body {s : Listener} (i : ℕ) {c : Connection} {length : ℕ} (hrun : s.loop = .running)
      (hc : s.connections[i]? = some c) (hpc : c.pc = .readBody length)
      (hread : NORNS_RPC_HEADER_LENGTH + length ≤ c.arrived.length) :
      ListenerStep s (s.readBody i c ((c.arrived.drop NORNS_RPC_HEADER_LENGTH).take length))
  | headerCut {s : Listener} (i : ℕ) {c : Connection} (hrun : s.loop = .running)
      (hc : s.connections[i]? = some c) (hpc : c.pc = .readHeader) (hclosed : c.closed = true)
      (hcut : c.arrived.length < NORNS_RPC_HEADER_LENGTH) :
      ListenerStep s { s with connections := s.setPc i c (.ended .noRequest) }
  | bodyCut {s : Listener} (i : ℕ) {c : Connection} {length : ℕ} (hrun : s.loop = .running)
      (hc : s.connections[i]? = some c) (hpc : c.pc = .readBody length)
      (hclosed : c.closed = true)
      (hcut : c.arrived.length < NORNS_RPC_HEADER_LENGTH + length) :
      ListenerStep s { s with connections := s.setPc i c (.ended .noRequest) }
  | signal {s : Listener} (hrun : s.loop = .running) :
      ListenerStep s { s with loop := .stopped, signalled := true }
  | other {s : Listener} (taskMgr : TaskManager) (runners : List GenericTask) :
      ListenerStep s (s.otherThreads taskMgr runners)

/-! ### One connection after the other -/

/-- The session of the connection on its own: all its bytes at once, on a daemon that does nothing
else. -/
def Connection.session (c : Connection) (d : Daemon) : SessionResult :=
  Norns.session c.env c.endpoint d c.arrived

/-- What an event does to the daemon, if a request is served in one go. -/
def LoopEvent.apply (cs : List Connection) (ev : LoopEvent) (d : Daemon) : Daemon :=
  match ev with
  | handled i => cs[i]?.elim d fun c => (c.session d).daemon
  | other taskMgr runners => { d with taskMgr := taskMgr, runners := runners }

/-- The daemon after one event after the other. -/
def replay (cs : List Connection) (d : Daemon) (log : List LoopEvent) : Daemon :=
  log.foldl (fun d ev => ev.apply cs d) d

/-- The connection whose request is handled. -/
def LoopEvent.connection : LoopEvent → Option ℕ
  | handled i => some i
  | other _ _ => none

/-- The requests have been served one after the other in the order of the log, each once and with
the whole stream of its client; a session that is over without having been served has done nothing
and would do nothing at any other time. -/
structure Listener.Serialised (d₀ : Daemon) (s : Listener) : Prop where
  daemon : replay s.connections d₀ s.log = s.daemon
  once : (s.log.filterMap LoopEvent.connection).Nodup
  answered : ∀ pre i post, s.log = pre ++ .handled i :: post → ∃ c, s.connections[i]? = some c ∧
    c.pc = .ended (c.session (replay s.connections d₀ pre)).ending
  unserved : ∀ i c e, s.connections[i]? = some c → .handled i ∉ s.log → c.pc = .ended e →
    ∀ d, c.session d = ⟨none, d, e⟩

/-- All of a request has arrived. -/
def Connection.Whole (c : Connection) : Prop := ∃ body, doReadRequest c.env c.arrived = .ok body

/-- What is known of a session that has not been served.  The last case: nothing that can still
arrive would change the end of the session. -/
def Connection.Waits (c : Connection) : Prop :=
  match c.pc with
  | .readHeader => True
  | .readBody length =>
      NORNS_RPC_HEADER_LENGTH ≤ c.arrived.length ∧
      decodeHeader c.env.endian (c.arrived.take NORNS_RPC_HEADER_LENGTH) = length ∧
      c.env.canHold length = true ∧ length ≠ 0
  | .ended e => ∀ more, (c.closed = true → more = []) →
      doReadRequest c.env (c.arrived ++ more) = .error e

theorem session_of_ok {env : SessionEnv} {bytes body : List UInt8} (endpoint : Endpoint)
    (d : Daemon) (h : doReadRequest env bytes = .ok body) :
    session env endpoint d bytes = handleBody env endpoint d body := by
  unfold session
  rw [h]

theorem session_of_error {env : SessionEnv} {bytes : List UInt8} {e : SessionEnd}
    (endpoint : Endpoint) (d : Daemon) (h : doReadRequest env bytes = .error e) :
    session env endpoint d bytes = ⟨none, d, e⟩ := by
  unfold session
  rw [h]

section reading

variable {env : SessionEnv} {bytes more body : List UInt8}

/-- The header does not change when more arrives. -/
theorem take_header_append (h : NORNS_RPC_HEADER_LENGTH ≤ bytes.length) :
    (bytes ++ more).take NORNS_RPC_HEADER_LENGTH = bytes.take NORNS_RPC_HEADER_LENGTH :=
  List.take_append_of_le_length h

/-- What `do_read_request` finds once a header is there. -/
theorem doReadRequest_of_header (h : NORNS_RPC_HEADER_LENGTH ≤ bytes.length) {length : ℕ}
    (hlength : decodeHeader env.endian (bytes.take NORNS_RPC_HEADER_LENGTH) = length) :
    doReadRequest env bytes =
      if !env.canHold length then .error .raised
      else if length = 0 ∨ bytes.length < NORNS_RPC_HEADER_LENGTH + length then .error .noRequest
      else .ok ((bytes.drop NORNS_RPC_HEADER_LENGTH).take length) := by
  have hshort : bytes.length - NORNS_RPC_HEADER_LENGTH < length ↔
      bytes.length < NORNS_RPC_HEADER_LENGTH + length := by omega
  unfold doReadRequest
  rw [if_neg (by omega), hlength]
  simp only [hshort]

/-- A request that has arrived stays the same whatever arrives after it. -/
theorem doReadRequest_append (h : doReadRequest env bytes = .ok body) :
    doReadRequest env (bytes ++ more) = .ok body := by
  have hheader : NORNS_RPC_HEADER_LENGTH ≤ bytes.length := by
    by_contra hlt
    unfold doReadRequest at h
    rw [if_pos (by omega)] at h
    cases h
  rw [doReadRequest_of_header hheader rfl] at h
  rw [doReadRequest_of_header (by rw [List.length_append]; omega)
    (congrArg _ (take_header_append hheader))]
  split_ifs at h ⊢ with hhold hshort hshort'
  · rw [List.length_append] at hshort
    omega
  · rw [List.drop_append_of_le_length hheader, List.take_append_of_le_length (by
      rw [List.length_drop]
      omega)]
    exact h

end reading

section replaying

variable {cs cs' : List Connection} {d : Daemon} {log : List LoopEvent}

theorem replay_append_singleton (ev : LoopEvent) :
    replay cs d (log ++ [ev]) = ev.apply cs (replay cs d log) := by
  rw [replay, List.foldl_append]
  rfl

/-- The replay only looks at the sessions of the connections that have been served. -/
theorem replay_congr (h : ∀ ev ∈ log, ev.apply cs' = ev.apply cs) :
    replay cs' d log = replay cs d log := by
  induction log generalizing d with
  | nil => rfl
  | cons ev log ih =>
      show replay cs' (ev.apply cs' d) log = replay cs (ev.apply cs d) log
      rw [h ev List.mem_cons_self, ih fun ev hev => h ev (List.mem_cons_of_mem _ hev)]

/-- It does not matter to it where the sessions are. -/
theorem apply_setPc {i : ℕ} {c : Connection} (hc : cs[i]? = some c) (pc : SessionPc)
    (ev : LoopEvent) : ev.apply (cs.set i { c with pc := pc }) = ev.apply cs := by
  cases ev with
  | other taskMgr runners => rfl
  | handled j =>
      funext d
      by_cases hij : i = j
      · subst hij
        simp only [LoopEvent.apply, List.getElem?_set_self (List.getElem?_eq_some_iff.mp hc).1, hc]
        rfl
      · simp only [LoopEvent.apply, List.getElem?_set_ne hij]

end replaying

/-- The invariant of the loop. -/
structure Listener.Inv (d₀ : Daemon) (s : Listener) : Prop where
  daemon : replay s.connections d₀ s.log = s.daemon
  once : (s.log.filterMap LoopEvent.connection).Nodup
  answered : ∀ pre i post, s.log = pre ++ .handled i :: post → ∃ c, s.connections[i]? = some c ∧
    c.Whole ∧ c.pc = .ended (c.session (replay s.connections d₀ pre)).ending
  waiting : ∀ i c, s.connections[i]? = some c → .handled i ∉ s.log → c.Waits

namespace Listener.Inv

variable {d₀ : Daemon} {s : Listener}

theorem ofInit (d₀ : Daemon) : (Listener.init d₀).Inv d₀ where
  daemon := rfl
  once := List.nodup_nil
  answered pre i post h := by
    cases pre <;> cases h
  waiting i c hc := by
    cases hc

/-- A connection that has been served. -/
theorem of_handled (h : s.Inv d₀) {i : ℕ} (hi : .handled i ∈ s.log) :
    ∃ c e, s.connections[i]? = some c ∧ c.Whole ∧ c.pc = .ended e := by
  obtain ⟨pre, post, hlog⟩ := List.append_of_mem hi
  obtain ⟨c, hc, hwhole, hpc⟩ := h.answered pre i post hlog
  exact ⟨c, _, hc, hwhole, hpc⟩

/-- A session that waits for a read has not been served. -/
theorem notMem_log (h : s.Inv d₀) {i : ℕ} {c : Connection} (hc : s.connections[i]? = some c)
    (hpc : ∀ e, c.pc ≠ .ended e) : .handled i ∉ s.log := by
  intro hi
  obtain ⟨c', e, hc', -, hpc'⟩ := h.of_handled hi
  obtain rfl := Option.some.inj (hc.symm.trans hc')
  exact hpc e hpc'

/-- The connections change, those that have been served only in what has arrived after their
requests. -/
theorem withConnections (h : s.Inv d₀) {cs : List Connection}
    (hserved : ∀ i c, .handled i ∈ s.log → s.connections[i]? = some c →
      ∃ c', cs[i]? = some c' ∧ c'.Whole ∧ c'.pc = c.pc ∧ c'.session = c.session)
    (hwaiting : ∀ i c, cs[i]? = some c → .handled i ∉ s.log → c.Waits) :
    Listener.Inv d₀ { s with connections := cs } := by
  have hreplay : ∀ pre post, s.log = pre ++ post →
      replay cs d₀ pre = replay s.connections d₀ pre := by
    intro pre post hlog
    refine replay_congr fun ev hev => ?_
    cases ev with
    | other taskMgr runners => rfl
    | handled i =>
        have hmem : .handled i ∈ s.log := by
          rw [hlog]
          exact List.mem_append_left _ hev
        obtain ⟨c, e, hc, -, -⟩ := h.of_handled hmem
        obtain ⟨c', hc', -, -, hsession⟩ := hserved i c hmem hc
        funext d
        simp only [LoopEvent.apply, hc, hc', Option.elim_some, hsession]
  refine ⟨?_, h.once, fun pre i post hlog => ?_, hwaiting⟩
  · exact (hreplay s.log [] (List.append_nil _).symm).trans h.daemon
  · obtain ⟨c, hc, -, hpc⟩ := h.answered pre i post hlog
    have hmem : .handled i ∈ s.log := by
      rw [hlog]
      exact List.mem_append_right _ List.mem_cons_self
    obtain ⟨c', hc', hwhole, hpc', hsession⟩ := hserved i c hmem hc
    refine ⟨c', hc', hwhole, ?_⟩
    rw [hpc', hpc, hsession, hreplay pre _ hlog]

/-- One connection changes. -/
theorem set (h : s.Inv d₀) {i : ℕ} {c c' : Connection} (hc : s.connections[i]? = some c)
    (hserved : .handled i ∈ s.log → c'.Whole ∧ c'.pc = c.pc ∧ c'.session = c.session)
    (hwaiting : .handled i ∉ s.log → c'.Waits) :
    Listener.Inv d₀ { s with connections := s.connections.set i c' } := by
  have hlt := (List.getElem?_eq_some_iff.mp hc).1
  refine h.withConnections (fun j cj hj hcj => ?_) fun j cj hcj hj => ?_
  · by_cases hij : i = j
    · subst hij
      obtain rfl := Option.some.inj (hc.symm.trans hcj)
      exact ⟨c', List.getElem?_set_self hlt, hserved hj⟩
    · obtain ⟨cj', e, hcj', hwhole, -⟩ := h.of_handled hj
      obtain rfl := Option.some.inj (hcj.symm.trans hcj')
      exact ⟨cj, by rw [List.getElem?_set_ne hij, hcj], hwhole, rfl, rfl⟩
  · by_cases hij : i = j
    · subst hij
      rw [List.getElem?_set_self hlt] at hcj
      obtain rfl := Option.some.inj hcj
      exact hwaiting hj
    · rw [List.getElem?_set_ne hij] at hcj
      exact h.waiting j cj hcj hj

theorem accept (h : s.Inv d₀) (endpoint : Endpoint) (env : SessionEnv) :
    Listener.Inv d₀ { s with connections := s.connections ++ [.accepted endpoint env] } := by
  refine h.withConnections (fun i c hi hc => ?_) fun i c hc hi => ?_
  · obtain ⟨c', e, hc', hwhole, -⟩ := h.of_handled hi
    obtain rfl := Option.some.inj (hc.symm.trans hc')
    have hlt := (List.getElem?_eq_some_iff.mp hc).1
    exact ⟨c, by rw [List.getElem?_append_left hlt, hc], hwhole, rfl, rfl⟩
  · by_cases hlt : i < s.connections.length
    · rw [List.getElem?_append_left hlt] at hc
      exact h.waiting i c hc hi
    · rw [List.getElem?_append_right (not_lt.mp hlt)] at hc
      obtain ⟨-, rfl⟩ := List.getElem?_eq_some_iff.mp hc
      simp [Connection.accepted, Connection.Waits]

theorem arrive (h : s.Inv d₀) {i : ℕ} {c : Connection} (bs : List UInt8)
    (hc : s.connections[i]? = some c) (hopen : c.closed = false) :
    Listener.Inv d₀
      { s with connections := s.connections.set i { c with arrived := c.arrived ++ bs } } := by
  refine h.set hc (fun hi => ?_) fun hi => ?_
  · obtain ⟨c', e, hc', ⟨body, hbody⟩, -⟩ := h.of_handled hi
    obtain rfl := Option.some.inj (hc.symm.trans hc')
    have hbody' : doReadRequest c.env (c.arrived ++ bs) = .ok body := doReadRequest_append hbody
    refine ⟨⟨body, hbody'⟩, rfl, funext fun d => ?_⟩
    exact (session_of_ok _ d hbody').trans (session_of_ok _ d hbody).symm
  · have hwaits := h.waiting i c hc hi
    unfold Connection.Waits at hwaits ⊢
    cases hpc : c.pc with
    | readHeader => trivial
    | readBody length =>
        rw [hpc] at hwaits
        obtain ⟨hlen, hlength, hhold, hne⟩ := hwaits
        dsimp only at hlen hlength ⊢
        refine ⟨?_, ?_, hhold, hne⟩
        · rw [List.length_append]
          omega
        · rw [take_header_append hlen, hlength]
    | ended e =>
        rw [hpc] at hwaits
        dsimp only at hwaits ⊢
        intro more _
        rw [List.append_assoc]
        exact hwaits (bs ++ more) fun hclosed => by
          rw [hopen] at hclosed
          cases hclosed

theorem hangUp (h : s.Inv d₀) {i : ℕ} {c : Connection} (hc : s.connections[i]? = some c) :
    Listener.Inv d₀ { s with connections := s.connections.set i { c with closed := true } } := by
  refine h.set hc (fun hi => ?_) fun hi => ?_
  · obtain ⟨c', e, hc', hwhole, -⟩ := h.of_handled hi
    obtain rfl := Option.some.inj (hc.symm.trans hc')
    exact ⟨hwhole, rfl, rfl⟩
  · have hwaits := h.waiting i c hc hi
    unfold Connection.Waits at hwaits ⊢
    cases hpc : c.pc with
    | readHeader => trivial
    | readBody length =>
        rw [hpc] at hwaits
        exact hwaits
    | ended e =>
        rw [hpc] at hwaits
        dsimp only at hwaits ⊢
        intro more hmore
        exact hwaits more fun _ => hmore rfl

/-- A session that has not been served goes to another place. -/
theorem moveTo (h : s.Inv d₀) {i : ℕ} {c : Connection} {pc : SessionPc}
    (hc : s.connections[i]? = some c) (hpc : ∀ e, c.pc ≠ .ended e)
    (hwaits : Connection.Waits { c with pc := pc }) :
    Listener.Inv d₀ { s with connections := s.setPc i c pc } :=
  h.set hc (fun hi => absurd hi (h.notMem_log hc hpc)) fun _ => hwaits

theorem readHeader (h : s.Inv d₀) {i : ℕ} {c : Connection} (hc : s.connections[i]? = some c)
    (hpc : c.pc = .readHeader) (hread : NORNS_RPC_HEADER_LENGTH ≤ c.arrived.length) :
    (s.readHeader i c).Inv d₀ := by
  have hwaits : Connection.Waits { c with pc := c.headerRead } := by
    have hmore : ∀ more, doReadRequest c.env (c.arrived ++ more) = _ := fun more =>
      doReadRequest_of_header (by rw [List.length_append]; omega)
        (congrArg (decodeHeader c.env.endian) (take_header_append hread))
    unfold Connection.Waits Connection.headerRead
    dsimp only
    split_ifs with hhold hzero
    · intro more _
      rw [hmore, if_pos hhold]
    · intro more _
      rw [hmore, if_neg hhold, if_pos (.inl hzero)]
    · exact ⟨hread, rfl, by simpa using hhold, hzero⟩
  have hmoved := h.moveTo hc (fun e he => by rw [hpc] at he; cases he) hwaits
  exact ⟨hmoved.daemon, hmoved.once, hmoved.answered, hmoved.waiting⟩

/-- A read that the end of the stream has cut short. -/
theorem cut (h : s.Inv d₀) {i : ℕ} {c : Connection} (hc : s.connections[i]? = some c)
    (hpc : ∀ e, c.pc ≠ .ended e) (hclosed : c.closed = true)
    (hcut : doReadRequest c.env c.arrived = .error .noRequest) :
    Listener.Inv d₀ { s with connections := s.setPc i c (.ended .noRequest) } := by
  refine h.moveTo hc hpc ?_
  intro more hmore
  rw [hmore hclosed, List.append_nil]
  exact hcut

theorem otherThreads (h : s.Inv d₀) (taskMgr : TaskManager) (runners : List GenericTask) :
    (s.otherThreads taskMgr runners).Inv d₀ := by
  refine ⟨?_, ?_, fun pre i post hlog => ?_, fun i c hc hi => ?_⟩
  · show replay s.connections d₀ (s.log ++ [_]) = _
    rw [replay_append_singleton, h.daemon]
    rfl
  · show ((s.log ++ [_]).filterMap LoopEvent.connection).Nodup
    rw [List.filterMap_append]
    exact (List.append_nil _).symm ▸ h.once
  · obtain rfl | ⟨post', ev, rfl⟩ := List.eq_nil_or_concat post
    · have hlast := (List.append_inj' hlog rfl).2
      cases hlast
    · rw [List.concat_eq_append, ← List.cons_append, ← List.append_assoc] at hlog
      exact h.answered pre i post' (List.append_inj' hlog rfl).1
  · exact h.waiting i c hc fun hmem => hi (List.mem_append_left _ hmem)

/-- The handler at the end of a body does what `session` does with the stream. -/
theorem readBody (h : s.Inv d₀) {i length : ℕ} {c : Connection} {body : List UInt8}
    (hc : s.connections[i]? = some c) (hpc : c.pc = .readBody length)
    (hbody : doReadRequest c.env c.arrived = .ok body) : (s.readBody i c body).Inv d₀ := by
  have hlt := (List.getElem?_eq_some_iff.mp hc).1
  have hnew : .handled i ∉ s.log := h.notMem_log hc fun e he => by
    rw [hpc] at he
    cases he
  have hsession : ∀ d, c.session d = handleBody c.env c.endpoint d body := fun d =>
    session_of_ok _ d hbody
  have hreplay : ∀ log, replay (s.readBody i c body).connections d₀ log =
      replay s.connections d₀ log := fun log =>
    replay_congr fun ev _ => apply_setPc hc _ ev
  have hlog : (s.readBody i c body).log = s.log ++ [.handled i] := rfl
  refine ⟨?_, ?_, fun pre j post hsplit => ?_, fun j cj hcj hj => ?_⟩
  · rw [hreplay, hlog, replay_append_singleton, h.daemon]
    simp only [LoopEvent.apply, hc, Option.elim_some, hsession]
    rfl
  · rw [hlog, List.filterMap_append]
    refine List.Nodup.append h.once (List.nodup_singleton i) fun j hj hji => ?_
    obtain rfl := List.mem_singleton.mp hji
    obtain ⟨ev, hev, hconn⟩ := List.mem_filterMap.mp hj
    cases ev with
    | other taskMgr runners => cases hconn
    | handled k =>
        obtain rfl := Option.some.inj hconn
        exact hnew hev
  · rw [hlog] at hsplit
    simp only [hreplay]
    obtain rfl | ⟨post', ev, rfl⟩ := List.eq_nil_or_concat post
    · -- the request that has just been served
      obtain ⟨rfl, hlast⟩ := List.append_inj' hsplit rfl
      cases hlast
      refine ⟨_, List.getElem?_set_self hlt, ⟨body, hbody⟩, ?_⟩
      rw [h.daemon]
      exact congrArg (SessionPc.ended ∘ SessionResult.ending) (hsession s.daemon).symm
    · rw [List.concat_eq_append, ← List.cons_append, ← List.append_assoc] at hsplit
      obtain ⟨cj, hcj, hwhole, hpcj⟩ := h.answered pre j post' (List.append_inj' hsplit rfl).1
      have hij : i ≠ j := by
        rintro rfl
        exact hnew (by rw [(List.append_inj' hsplit rfl).1]; simp)
      exact ⟨cj, (List.getElem?_set_ne hij).trans hcj, hwhole, hpcj⟩
  · have hij : i ≠ j := by
      rintro rfl
      exact hj (by rw [hlog]; simp)
    have hcj' : s.connections[j]? = some cj := (List.getElem?_set_ne hij).symm.trans hcj
    exact h.waiting j cj hcj' fun hmem => hj (by rw [hlog]; exact List.mem_append_left _ hmem)

/-- A read of a body that is complete has read the body of the request. -/
theorem body_of_waits {c : Connection} {length : ℕ} (hwaits : c.Waits)
    (hpc : c.pc = .readBody length) :
    doReadRequest c.env c.arrived =
      if c.arrived.length < NORNS_RPC_HEADER_LENGTH + length then .error .noRequest
      else .ok ((c.arrived.drop NORNS_RPC_HEADER_LENGTH).take length) := by
  unfold Connection.Waits at hwaits
  rw [hpc] at hwaits
  obtain ⟨hlen, hlength, hhold, hne⟩ := hwaits
  rw [doReadRequest_of_header hlen hlength, if_neg (by simp [hhold])]
  simp only [hne, false_or]

/-- Every step keeps the invariant. -/
theorem step (s s' : Listener) (h : s.Inv d₀) (hstep : ListenerStep s s') : s'.Inv d₀ := by
  cases hstep with
  | accept endpoint env hrun => exact h.accept endpoint env
  | arrive i bs hc hopen => exact h.arrive bs hc hopen
  | hangUp i hc => exact h.hangUp hc
  | header i hrun hc hpc hread => exact h.readHeader hc hpc hread
  | body i hrun hc hpc hread =>
      have hwaits := h.waiting _ _ hc (h.notMem_log hc fun e he => by rw [hpc] at he; cases he)
      refine h.readBody hc hpc ?_
      rw [body_of_waits hwaits hpc, if_neg (not_lt.mpr hread)]
  | headerCut i hrun hc hpc hclosed hcut =>
      refine h.cut hc (fun e he => by rw [hpc] at he; cases he) hclosed ?_
      unfold doReadRequest
      rw [if_pos hcut]
  | @bodyCut i c length hrun hc hpc hclosed hcut =>
      have hne : ∀ e, c.pc ≠ .ended e := fun e he => by rw [hpc] at he; cases he
      refine h.cut hc hne hclosed ?_
      rw [body_of_waits (h.waiting _ _ hc (h.notMem_log hc hne)) hpc, if_pos hcut]
  | signal hrun => exact ⟨h.daemon, h.once, h.answered, h.waiting⟩
  | other taskMgr runners => exact h.otherThreads taskMgr runners

theorem run {s : Listener} (h : Run ListenerStep (.init d₀) s) : s.Inv d₀ :=
  h.invariant step (ofInit d₀)

end Listener.Inv

/-- The log only grows at its end. -/
theorem ListenerStep.log_grows {s s' : Listener} (h : ListenerStep s s') : s.log <+: s'.log := by
  cases h with
  | body i hrun hc hpc hread => exact List.prefix_append _ _
  | other taskMgr runners => exact List.prefix_append _ _
  | _ => exact List.prefix_rfl

theorem log_grows_of_run {s s' : Listener} (h : Run ListenerStep s s') : s.log <+: s'.log := by
  induction h with
  | refl => exact List.prefix_rfl
  | tail _ hstep ih => exact ih.trans hstep.log_grows

/-- **One client after the other.**  Whatever the interleaving of clients, handlers and other
threads, the daemon is as if each session had been served in one go, in an order that never changes
afterwards, and every client gets the answer for its place in this order. -/
theorem listener_serialises {d₀ : Daemon} {s s' : Listener}
    (h : Run ListenerStep (.init d₀) s) (h' : Run ListenerStep s s') :
    s'.Serialised d₀ ∧ s.log <+: s'.log := by
  have hinv : s'.Inv d₀ := .run (h.trans h')
  refine ⟨⟨hinv.daemon, hinv.once, fun pre i post hlog => ?_, fun i c e hc hi hpc d => ?_⟩,
    log_grows_of_run h'⟩
  · obtain ⟨c, hc, -, hpc⟩ := hinv.answered pre i post hlog
    exact ⟨c, hc, hpc⟩
  · have hwaits := hinv.waiting i c hc hi
    unfold Connection.Waits at hwaits
    rw [hpc] at hwaits
    have hread := hwaits [] fun _ => rfl
    rw [List.append_nil] at hread
    exact session_of_error _ d hread

/-- A client that has sent the command PAUSE_LISTEN. -/
def pausingClient : Connection := ⟨.control, pauseEnv, pauseBytes, false, .readHeader⟩

/-- The listener that has accepted it. -/
def pausing (d : Daemon) : Listener := ⟨d, [pausingClient], .running, false, []⟩

/-- The command can arrive in two pieces. -/
theorem pausing_reachable (d : Daemon) : Run ListenerStep (.init d) (pausing d) := by
  have haccept : ListenerStep (.init d)
      ⟨d, [.accepted .control pauseEnv], .running, false, []⟩ := .accept .control pauseEnv rfl
  have hfirst : ListenerStep ⟨d, [.accepted .control pauseEnv], .running, false, []⟩
      ⟨d, [⟨.control, pauseEnv, pauseBytes.take 3, false, .readHeader⟩], .running, false, []⟩ :=
    .arrive 0 (c := .accepted .control pauseEnv) (pauseBytes.take 3) rfl rfl
  have hsecond : ListenerStep
      ⟨d, [⟨.control, pauseEnv, pauseBytes.take 3, false, .readHeader⟩], .running, false, []⟩
      (pausing d) :=
    .arrive 0 (c := ⟨.control, pauseEnv, pauseBytes.take 3, false, .readHeader⟩)
      (pauseBytes.drop 3) rfl rfl
  exact ((Relation.ReflTransGen.single haccept).tail hfirst).tail hsecond

/-- The listener that has served it. -/
def paused (d : Daemon) : Listener :=
  ((pausing d).readHeader 0 pausingClient).readBody 0 { pausingClient with pc := .readBody 8 }
    (pauseBytes.drop 8)

theorem paused_reachable (d : Daemon) : Run ListenerStep (pausing d) (paused d) := by
  have hheader : pausingClient.headerRead = .readBody 8 := by decide
  have hc : ((pausing d).readHeader 0 pausingClient).connections[0]? =
      some { pausingClient with pc := .readBody 8 } := by
    rw [← hheader]
    rfl
  have hrun : ((pausing d).readHeader 0 pausingClient).loop = .running := by
    show (if pausingClient.headerRead = .ended .raised then .thrown else .running) =
      LoopState.running
    rw [hheader]
    rfl
  exact (Relation.ReflTransGen.single (.header 0 rfl rfl rfl (by decide))).tail
    (.body 0 hrun hc rfl (by decide))

theorem pause_serialised : ∃ d : Daemon, d.isPaused = false ∧
    (paused d).Serialised d ∧ (paused d).daemon.isPaused = true ∧
    (paused d).log = [.handled 0] := by
  refine ⟨⟨Urd.withNamespace, ∅⟩, rfl, ?_, by decide, rfl⟩
  exact (listener_serialises (pausing_reachable _) (paused_reachable _)).1

/-! ### Nobody has to wait -/

/-- The header of a request that has arrived. -/
theorem Connection.Whole.headerRead {c : Connection} {body : List UInt8}
    (h : doReadRequest c.env c.arrived = .ok body) :
    NORNS_RPC_HEADER_LENGTH ≤ c.arrived.length ∧ ∃ length, c.headerRead = .readBody length ∧
      NORNS_RPC_HEADER_LENGTH + length ≤ c.arrived.length ∧
      body = (c.arrived.drop NORNS_RPC_HEADER_LENGTH).take length := by
  have hlen : NORNS_RPC_HEADER_LENGTH ≤ c.arrived.length := by
    by_contra hlt
    unfold doReadRequest at h
    rw [if_pos (by omega)] at h
    cases h
  rw [doReadRequest_of_header hlen rfl] at h
  unfold Connection.headerRead
  split_ifs at h with hhold hshort
  obtain ⟨hzero, hshort⟩ := not_or.mp hshort
  refine ⟨hlen, _, ?_, not_lt.mp hshort, (Except.ok.inj h).symm⟩
  rw [if_neg hhold, if_neg hzero]

/-- **No client waits for another.**  From any state that can be reached while the loop runs, the
session of a client whose request has arrived can be brought to its end by its own handlers alone:
the other connections, whatever they have sent, are left as they are. -/
theorem listener_not_blocked {d₀ : Daemon} {s : Listener} (h : Run ListenerStep (.init d₀) s)
    (hrun : s.loop = .running) {i : ℕ} {c : Connection} (hc : s.connections[i]? = some c)
    (hwhole : c.Whole) (hwaiting : ∀ e, c.pc ≠ .ended e) :
    ∃ s', Run ListenerStep s s' ∧ s'.daemon = (c.session s.daemon).daemon ∧
      s'.connections =
        s.connections.set i { c with pc := .ended (c.session s.daemon).ending } := by
  have hinv : s.Inv d₀ := .run h
  have hlt := (List.getElem?_eq_some_iff.mp hc).1
  obtain ⟨body, hbody⟩ := hwhole
  obtain ⟨hlen, length, hheader, hread, hsplit⟩ := Connection.Whole.headerRead hbody
  have hsession : c.session s.daemon = handleBody c.env c.endpoint s.daemon body :=
    session_of_ok _ _ hbody
  cases hpc : c.pc with
  | ended e => exact absurd hpc (hwaiting e)
  | readBody length' =>
      have hwaits := hinv.waiting i c hc (hinv.notMem_log hc hwaiting)
      unfold Connection.Waits at hwaits
      rw [hpc] at hwaits
      have hsame : length' = length := by
        obtain ⟨-, hlength, hhold, hne⟩ := hwaits
        unfold Connection.headerRead at hheader
        rw [hlength, if_neg (by simp [hhold]), if_neg hne] at hheader
        cases hheader
        rfl
      subst hsame
      refine ⟨_, .single (.body i hrun hc hpc hread), ?_, ?_⟩
      · rw [hsession, hsplit]
        rfl
      · rw [hsession, hsplit]
        rfl
  | readHeader =>
      -- the read of the body begins, and is complete already
      have hc' : (s.readHeader i c).connections[i]? = some { c with pc := .readBody length } := by
        rw [← hheader]
        exact List.getElem?_set_self hlt
      have hrun' : (s.readHeader i c).loop = .running := by
        show (if c.headerRead = .ended .raised then .thrown else s.loop) = LoopState.running
        rw [hheader, if_neg (by rintro ⟨⟩), hrun]
      refine ⟨_, (Relation.ReflTransGen.single (.header i hrun hc hpc hlen)).tail
        (.body i hrun' hc' rfl hread), ?_, ?_⟩
      · rw [hsession, hsplit]
        rfl
      · rw [hsession, hsplit]
        exact List.set_set _

/-- The client of the example beside one that has sent half a header. -/
theorem pause_not_blocked : ∃ (d : Daemon) (s' : Listener),
    Run ListenerStep
      ⟨d, [pausingClient, ⟨.global, pauseEnv, [0, 0, 0], false, .readHeader⟩], .running, false, []⟩
      s' ∧ s'.daemon.isPaused = true ∧
    s'.connections[1]? = some ⟨.global, pauseEnv, [0, 0, 0], false, .readHeader⟩ := by
  have hrun : Run ListenerStep (.init ⟨Urd.withNamespace, ∅⟩) _ :=
    ((pausing_reachable ⟨Urd.withNamespace, ∅⟩).tail (.accept .global pauseEnv rfl)).tail
      (.arrive 1 [0, 0, 0] rfl rfl)
  obtain ⟨s', hs', hdaemon, hcs⟩ := listener_not_blocked hrun rfl (i := 0) (c := pausingClient) rfl
    ⟨pauseBytes.drop 8, by decide⟩ (by rintro e ⟨⟩)
  refine ⟨_, s', hs', ?_, ?_⟩
  · rw [hdaemon]
    decide
  · rw [hcs]
    rfl

/-! ### What ends the loop -/

/-- Serving the request ends the loop: it violates an assertion of the decoder, it is the UPDATE of
a namespace, for which there is no callback, its handler fails or throws, or it is a SHUTDOWN that
is accepted. -/
def KillsLoop (env : SessionEnv) (d : Daemon) (body : List UInt8) : Prop :=
  (∃ f, createFromBuffer env.parse body = .error f) ∨
  ∃ req, createFromBuffer env.parse body = .ok req ∧
    (req.type = .backendUpdate ∨
      (∃ h f, callbacks.lookup req.type = some h ∧ d.call env h req = .error f) ∨
      (req = .command .shutdown ∧
        checkShutdown d.taskMgr d.namespaceMgr env.isEmpty = .success))

/-- The client has sent such a request. -/
def Connection.Kills (c : Connection) (d : Daemon) : Prop :=
  ∃ body, doReadRequest c.env c.arrived = .ok body ∧ KillsLoop c.env d body

/-- The end of the session has ended the loop. -/
def Connection.Fatal (c : Connection) : Prop :=
  c.pc = .ended .raised ∨ (∃ f, c.pc = .ended (.fault f)) ∨
    ∃ resp body, c.pc = .ended (.answered resp) ∧ doReadRequest c.env c.arrived = .ok body ∧
      IsShutdown c.env body ∧ resp.errorCode = .success

theorem doReadRequest_error {env : SessionEnv} {bytes : List UInt8} {e : SessionEnd}
    (h : doReadRequest env bytes = .error e) : e = .noRequest ∨ e = .raised := by
  unfold doReadRequest at h
  dsimp only at h
  split_ifs at h <;> cases h <;> simp

/-- A session that has been served is fatal if the loop does not run on. -/
theorem fatal_iff_after {c : Connection} {body : List UInt8} {e : SessionEnd}
    (hbody : doReadRequest c.env c.arrived = .ok body) :
    Connection.Fatal { c with pc := .ended e } ↔ LoopState.after c.env body e ≠ .running := by
  unfold Connection.Fatal
  cases e with
  | noRequest => simp [LoopState.after]
  | raised => simp [LoopState.after]
  | fault f => simp [LoopState.after]
  | answered resp =>
      simp only [hbody, SessionPc.ended.injEq, SessionEnd.answered.injEq, LoopState.after]
      constructor
      · rintro (h | ⟨f, h⟩ | ⟨resp', body', rfl, hread, hshut, hcode⟩)
        · cases h
        · cases h
        · cases hread
          rw [if_pos ⟨hshut, hcode⟩]
          rintro ⟨⟩
      · intro h
        by_cases hstop : IsShutdown c.env body ∧ resp.errorCode = .success
        · exact .inr (.inr ⟨resp, body, rfl, rfl, hstop.1, hstop.2⟩)
        · rw [if_neg hstop] at h
          exact absurd rfl h

theorem lookup_callbacks_eq_none (type : RequestType) :
    callbacks.lookup type = none ↔ type = .backendUpdate := by
  cases type <;> decide

/-- The answer to a SHUTDOWN, if the handler returns. -/
theorem Daemon.call_shutdown {d d' : Daemon} {env : SessionEnv} {resp : Response}
    (h : d.call env .commandHandler (.command .shutdown) = .ok (d', resp)) :
    resp = ⟨.command, checkShutdown d.taskMgr d.namespaceMgr env.isEmpty⟩ := by
  have hcode : (d.toUrd.commandHandler env.isEmpty .shutdown).2 =
      checkShutdown d.taskMgr d.namespaceMgr env.isEmpty := by
    simp only [Urd.commandHandler, Urd.pauseListening]
    exact (apply_ite Prod.snd _ _ _).trans (ite_self _)
  rw [← hcode]
  simp only [Daemon.call] at h
  split_ifs at h
  cases h
  rfl

/-- A handler that does not return. -/
theorem LoopState.after_ofFault (env : SessionEnv) (body : List UInt8) (f : Fault) :
    LoopState.after env body (.ofFault f) ≠ .running := by
  cases f <;> rintro ⟨⟩

/-- A handled request, by what it asks for. -/
theorem after_handleBody (env : SessionEnv) (endpoint : Endpoint) (d : Daemon)
    (body : List UInt8) :
    LoopState.after env body (handleBody env endpoint d body).ending = .running ↔
      ¬ KillsLoop env d body := by
  unfold handleBody KillsLoop
  cases hreq : createFromBuffer env.parse body with
  | error f => simp [LoopState.after]
  | ok req =>
      simp only [Except.ok.injEq, reduceCtorEq, exists_false, false_or, exists_eq_left']
      cases hlookup : callbacks.lookup req.type with
      | none =>
          have hlookup' : endpoint.dispatcher.lookup req.type = none := hlookup
          simp only [hlookup', LoopState.after]
          exact iff_of_false (by rintro ⟨⟩)
            (not_not.mpr (.inl ((lookup_callbacks_eq_none _).mp hlookup)))
      | some h =>
          have hlookup' : endpoint.dispatcher.lookup req.type = some h := hlookup
          have hupdate : req.type ≠ .backendUpdate := fun heq => by
            rw [(lookup_callbacks_eq_none _).mpr heq] at hlookup
            cases hlookup
          simp only [hlookup', hupdate, false_or, Option.some.injEq]
          cases hcall : d.call env h req with
          | error f =>
              exact iff_of_false (LoopState.after_ofFault env body f)
                (not_not.mpr (.inl ⟨h, f, rfl, hcall⟩))
          | ok r =>
              obtain ⟨d', resp⟩ := r
              have hnofault : ¬ ∃ h' f, h = h' ∧ d.call env h' req = .error f := by
                rintro ⟨h', f, rfl, hf⟩
                rw [hcall] at hf
                cases hf
              simp only [hnofault, false_or, LoopState.after, IsShutdown, hreq, Except.ok.injEq]
              by_cases hshut : req = .command .shutdown
              · subst hshut
                cases hlookup
                simp [Daemon.call_shutdown hcall]
              · simp [hshut]

/-- The loop runs as long as no signal has come and no session has been fatal. -/
def Listener.Alive (s : Listener) : Prop :=
  s.loop = .running ↔ s.signalled = false ∧ ∀ c ∈ s.connections, ¬ c.Fatal

namespace Listener.Alive

variable {d₀ : Daemon} {s : Listener}

/-- A connection changes, and with it the loop if the session is fatal now. -/
theorem set (h : s.Alive) {i : ℕ} {c c' : Connection} {s' : Listener}
    (hc : s.connections[i]? = some c) (hcs : s'.connections = s.connections.set i c')
    (hsignal : s'.signalled = s.signalled)
    (hloop : (s'.loop = .running ↔ s.loop = .running ∧ ¬ c'.Fatal))
    (hkeep : c.Fatal → c'.Fatal) : s'.Alive := by
  have hlt := (List.getElem?_eq_some_iff.mp hc).1
  unfold Listener.Alive at h ⊢
  rw [hloop, h, hsignal, hcs, and_assoc]
  refine and_congr_right fun _ => ⟨fun hcalm c₁ hmem => ?_, fun hcalm => ⟨fun c₁ hmem => ?_, ?_⟩⟩
  · obtain hmem | rfl := List.mem_or_eq_of_mem_set hmem
    · exact hcalm.1 c₁ hmem
    · exact hcalm.2
  · obtain ⟨j, hj⟩ := List.mem_iff_getElem?.mp hmem
    by_cases hij : i = j
    · subst hij
      obtain rfl := Option.some.inj (hc.symm.trans hj)
      exact fun hfatal => hcalm c' (List.mem_set hlt c') (hkeep hfatal)
    · exact hcalm c₁ (List.mem_iff_getElem?.mpr ⟨j, (List.getElem?_set_ne hij).trans hj⟩)
  · exact hcalm c' (List.mem_set hlt c')

/-- A connection that is not fatal becomes one that is not fatal either. -/
theorem setCalm (h : s.Alive) {i : ℕ} {c c' : Connection} (hc : s.connections[i]? = some c)
    (hsame : c'.Fatal ↔ c.Fatal) :
    Listener.Alive { s with connections := s.connections.set i c' } := by
  refine h.set hc rfl rfl (iff_self_and.mpr fun hrun hfatal => ?_) hsame.mpr
  exact (h.mp hrun).2 c (List.mem_of_getElem? hc) (hsame.mp hfatal)

/-- A session that has been answered has had its request. -/
theorem whole_of_answered (h : s.Inv d₀) {i : ℕ} {c : Connection} {resp : Response}
    (hc : s.connections[i]? = some c) (hpc : c.pc = .ended (.answered resp)) : c.Whole := by
  by_cases hi : .handled i ∈ s.log
  · obtain ⟨c', e, hc', hwhole, -⟩ := h.of_handled hi
    obtain rfl := Option.some.inj (hc.symm.trans hc')
    exact hwhole
  · have hwaits := h.waiting i c hc hi
    unfold Connection.Waits at hwaits
    rw [hpc] at hwaits
    obtain herr | herr := doReadRequest_error (hwaits [] fun _ => rfl) <;> cases herr

theorem step (s s' : Listener) (h : s.Inv d₀ ∧ s.Alive) (hstep : ListenerStep s s') :
    s'.Inv d₀ ∧ s'.Alive := by
  obtain ⟨hinv, h⟩ := h
  refine ⟨hinv.step s s' hstep, ?_⟩
  cases hstep with
  | accept endpoint env hrun =>
      refine iff_of_true hrun ⟨(h.mp hrun).1, fun c hmem => ?_⟩
      obtain hmem | hmem := List.mem_append.mp hmem
      · exact (h.mp hrun).2 c hmem
      · rw [List.mem_singleton.mp hmem]
        simp [Connection.Fatal, Connection.accepted]
  | @arrive i c bs hc hopen =>
      refine h.setCalm hc ⟨?_, ?_⟩
      · rintro (hraised | hfault | ⟨resp, body, hpc, hbody, hstop⟩)
        · exact .inl hraised
        · exact .inr (.inl hfault)
        · obtain ⟨body', hbody'⟩ := whole_of_answered hinv hc hpc
          obtain rfl := Except.ok.inj (hbody.symm.trans (doReadRequest_append hbody'))
          exact .inr (.inr ⟨resp, body, hpc, hbody', hstop⟩)
      · rintro (hraised | hfault | ⟨resp, body, hpc, hbody, hstop⟩)
        · exact .inl hraised
        · exact .inr (.inl hfault)
        · exact .inr (.inr ⟨resp, body, hpc, doReadRequest_append hbody, hstop⟩)
  | hangUp i hc => exact h.setCalm hc Iff.rfl
  | @header i c hrun hc hpc hread =>
      have hcalm : ¬ c.Fatal := (h.mp hrun).2 c (List.mem_of_getElem? hc)
      refine h.set hc rfl rfl ?_ fun hfatal => absurd hfatal hcalm
      show (if c.headerRead = .ended .raised then .thrown else s.loop) = LoopState.running ↔ _
      unfold Connection.Fatal Connection.headerRead
      dsimp only
      split_ifs <;> simp_all
  | @body i c length hrun hc hpc hread =>
      have hcalm : ¬ c.Fatal := (h.mp hrun).2 c (List.mem_of_getElem? hc)
      have hwaits := hinv.waiting i c hc (hinv.notMem_log hc fun e he => by
        rw [hpc] at he
        cases he)
      have hbody := Inv.body_of_waits hwaits hpc
      rw [if_neg (not_lt.mpr hread)] at hbody
      refine h.set hc rfl rfl ?_ fun hfatal => absurd hfatal hcalm
      rw [fatal_iff_after hbody, not_not]
      exact ⟨fun hafter => ⟨hrun, hafter⟩, And.right⟩
  | @headerCut i c hrun hc hpc hclosed hcut =>
      exact h.setCalm hc (iff_of_false (by simp [Connection.Fatal])
        ((h.mp hrun).2 c (List.mem_of_getElem? hc)))
  | @bodyCut i c length hrun hc hpc hclosed hcut =>
      exact h.setCalm hc (iff_of_false (by simp [Connection.Fatal])
        ((h.mp hrun).2 c (List.mem_of_getElem? hc)))
  | signal hrun => exact iff_of_false (by rintro ⟨⟩) (by rintro ⟨⟨⟩, -⟩)
  | other taskMgr runners => exact h

theorem run {s : Listener} (h : Run ListenerStep (.init d₀) s) : s.Inv d₀ ∧ s.Alive := by
  refine h.invariant step ⟨.ofInit d₀, iff_of_true rfl ⟨rfl, fun c hmem => ?_⟩⟩
  cases hmem

end Listener.Alive

end Norns
