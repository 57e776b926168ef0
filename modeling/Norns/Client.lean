import Norns.Status

/-! # The client libraries

`libnorns` and `libnornsctl` carry two copies of the same functions: `norns_error` asks the daemon
for the status of a task, `norns_wait` asks until the task has completed.  The daemon forgets a
task once it has reported its completion, so the task descriptor has a place for the final status.
`norns_wait` writes it and does not read it; `norns_error` reads it and does not write it.

A call makes a number of status requests and sleeps in between.  The functions take what the
requests and `nanosleep` return as lists, and have a result if the call consumes exactly these.
`ClientStep` runs them against the daemon of `Norns.Status`.

`completion_stable` is about the runs in which a completion that a call has obtained is only asked
for again through the descriptor.  Pointers that the functions compare with `NULL` are not null
here. -/

namespace Norns

open Lib

/-! ### Codes and descriptors -/

def NORNS_SUCCESS : Int32 := 0
def NORNS_ESNAFU : Int32 := -1
def NORNS_EBADARGS : Int32 := -2
def NORNS_ETIMEOUT : Int32 := -5
def NORNS_EUNDEFINED : Int32 := -100
def NORNS_EPENDING : Int32 := -101
def NORNS_EINPROGRESS : Int32 := -102
def NORNS_EFINISHED : Int32 := -103
def NORNS_EFINISHEDWERROR : Int32 := -104

/-- `encode(io::task_status)`. -/
def TaskStatus.encode : TaskStatus → Int32
  | .undefined => NORNS_EUNDEFINED
  | .pending => NORNS_EPENDING
  | .running => NORNS_EINPROGRESS
  | .finished => NORNS_EFINISHED
  | .finishedWithError => NORNS_EFINISHEDWERROR

/-- `norns_stat_t`, as far as a status request fills it in. -/
structure NornsStat where
  stStatus : Int32
  stTaskError : Int32
  stSysErrno : Int32
deriving DecidableEq, Repr

/-- The status is one of a completed task. -/
def NornsStat.finished (st : NornsStat) : Bool :=
  st.stStatus = NORNS_EFINISHED || st.stStatus = NORNS_EFINISHEDWERROR

/-- `norns_iotask_t`: the id and the cached status. -/
structure Iotask where
  tId : IotaskId
  tStatus : NornsStat
deriving DecidableEq, Repr

/-! ### Requests -/

/-- What `send_request` comes back with: an error of its own, a response of another type, or the
status response. -/
inductive Reply where
  | failed (res : Int32) (h : res ≠ NORNS_SUCCESS)
  | otherType
  | status (errorCode : Int32) (stats : NornsStat)

/-- `send_status_request` for a task with an id; `stats` is the argument it writes to. -/
def sendStatusRequest (stats : NornsStat) : Reply → Int32 × NornsStat
  | .failed res _ => (res, stats)
  | .otherType => (NORNS_ESNAFU, stats)
  | .status errorCode st => (errorCode, st)

/-- What `nanosleep` returns; an interrupted sleep tells the time that remains. -/
inductive Nanosleep where
  | slept
  | eintr (remaining : ℕ)
  | einval
  | failed
deriving DecidableEq, Repr

/-- The result of a call that has used up what the requests and the sleeps returned. -/
def finishCall {α : Type} (replies : List Reply) (sleeps : List Nanosleep) (a : α) : Option α :=
  if replies.isEmpty && sleeps.isEmpty then some a else none

/-- The body of `norns_error` and `nornsctl_error`. -/
def errorCall (task : Iotask) (stats : NornsStat) (replies : List Reply) :
    Option (Int32 × NornsStat) :=
  if task.tStatus.finished then finishCall replies [] (NORNS_SUCCESS, task.tStatus)
  else if task.tId = 0 then finishCall replies [] (NORNS_EBADARGS, stats)
  else
    match replies with
    | [] => none
    | r :: rest => finishCall rest [] (sendStatusRequest stats r)

/-- What a wait leaves: its return value, the descriptor and the time it has slept. -/
structure WaitResult where
  rv : Int32
  task : Iotask
  slept : ℕ
deriving DecidableEq, Repr

/-- The loop of `norns_wait` and `nornsctl_wait`; times are in nanoseconds. -/
def waitLoop (dflt : ℕ) (timeout : Option ℕ) (task : Iotask) :
    ℕ → ℕ → List Reply → List Nanosleep → Option WaitResult
  | _, _, [], _ => none
  | requested, slept, r :: replies, sleeps =>
      let (rv, stats) := sendStatusRequest ⟨0, 0, 0⟩ r
      if rv ≠ NORNS_SUCCESS then finishCall replies sleeps ⟨rv, task, slept⟩
      else if stats.finished then
        finishCall replies sleeps ⟨NORNS_SUCCESS, { task with tStatus := stats }, slept⟩
      else
        match sleeps with
        | [] => none
        | .einval :: sleeps => finishCall replies sleeps ⟨NORNS_EBADARGS, task, slept⟩
        | .failed :: sleeps => finishCall replies sleeps ⟨NORNS_ESNAFU, task, slept⟩
        | .slept :: sleeps =>
            if timeout.isNone then
              waitLoop dflt timeout task requested (slept + requested) replies sleeps
            else finishCall replies sleeps ⟨NORNS_ETIMEOUT, task, slept + requested⟩
        | .eintr remaining :: sleeps =>
            if timeout.isNone then
              waitLoop dflt timeout task dflt (slept + (requested - remaining)) replies sleeps
            else
              -- `remaining` is kept for the next round, which does not come
              finishCall replies sleeps ⟨NORNS_ETIMEOUT, task, slept + (requested - remaining)⟩

/-- The body of `norns_wait` and `nornsctl_wait`. -/
def waitCall (dflt : ℕ) (task : Iotask) (timeout : Option ℕ) (replies : List Reply)
    (sleeps : List Nanosleep) : Option WaitResult :=
  if task.tId = 0 then finishCall replies sleeps ⟨NORNS_EBADARGS, task, 0⟩
  else waitLoop dflt timeout task (timeout.getD dflt) 0 replies sleeps

/-- `LIBNORNS_DEFAULT_TIMEOUT`. -/
def LIBNORNS_DEFAULT_TIMEOUT : ℕ := 250000

/-- `LIBNORNSCTL_DEFAULT_TIMEOUT`. -/
def LIBNORNSCTL_DEFAULT_TIMEOUT : ℕ := 250000

def nornsError := errorCall
def nornsctlError := errorCall
def nornsWait := waitCall LIBNORNS_DEFAULT_TIMEOUT
def nornsctlWait := waitCall LIBNORNSCTL_DEFAULT_TIMEOUT

/-- The two copies. -/
inductive Library where
  | norns
  | nornsctl
deriving DecidableEq, Repr

def Library.error : Library → Iotask → NornsStat → List Reply → Option (Int32 × NornsStat)
  | .norns => nornsError
  | .nornsctl => nornsctlError

def Library.wait : Library → Iotask → Option ℕ → List Reply → List Nanosleep → Option WaitResult
  | .norns => nornsWait
  | .nornsctl => nornsctlWait

/-! ### A client and the daemon -/

/-- The response that carries an answer of the status handler. -/
def StatusAnswer.reply (a : StatusAnswer) : Reply :=
  match a.task with
  | some (_, st) => .status UrdError.success.code ⟨st.status.encode, st.taskError.code, st.sysError⟩
  | none => .status UrdError.noSuchTask.code
      ⟨TaskStatus.undefined.encode, UrdError.success.code, 0⟩

/-- Between `s` and `s'` the daemon has served one request of the client for `tid` with the answer
`a`.  Anything else may happen before, during and after. -/
def Served (tid : IotaskId) (s : StatusSystem) (a : StatusAnswer) (s' : StatusSystem) : Prop :=
  ∃ s₁, Run StatusStep s s₁ ∧ s₁.ipc = .idle ∧ Run StatusStep (s₁.request tid) s' ∧
    ∃ rest, s'.answers = s₁.answers ++ a :: rest

/-- Any number of requests, one after the other. -/
inductive Serves (tid : IotaskId) : StatusSystem → List StatusAnswer → StatusSystem → Prop
  | nil {s : StatusSystem} : Serves tid s [] s
  | cons {s s₁ s₂ : StatusSystem} {a : StatusAnswer} {as : List StatusAnswer}
      (h : Served tid s a s₁) (hrest : Serves tid s₁ as s₂) : Serves tid s (a :: as) s₂

/-- The two kinds of calls. -/
inductive ClientCall where
  | error
  | wait
deriving DecidableEq, Repr

/-- A finished call: its return value and the status it stored, in the argument of `norns_error`
or, when it succeeds, in the descriptor of `norns_wait`. -/
structure CallRecord where
  call : ClientCall
  rv : Int32
  stats : Option NornsStat
deriving DecidableEq, Repr

/-- The call succeeded and has obtained a final status. -/
def CallRecord.completed (e : CallRecord) : Bool :=
  e.rv = NORNS_SUCCESS && e.stats.any NornsStat.finished

/-- One client with a task descriptor, the daemon, and the calls made so far. -/
structure ClientSystem where
  task : Iotask
  daemon : StatusSystem
  history : List CallRecord

/-- A step of the daemon, or a call. -/
inductive ClientStep : ClientSystem → ClientSystem → Prop
  | daemon {c : ClientSystem} {d : StatusSystem} (h : StatusStep c.daemon d) :
      ClientStep c { c with daemon := d }
  | error {c : ClientSystem} (lib : Library) (stats : NornsStat) {as : List StatusAnswer}
      {d : StatusSystem} {rv : Int32} {stats' : NornsStat}
      (hserves : Serves c.task.tId c.daemon as d)
      (hcall : lib.error c.task stats (as.map StatusAnswer.reply) = some (rv, stats')) :
      ClientStep c ⟨c.task, d, c.history ++ [⟨.error, rv, some stats'⟩]⟩
  | wait {c : ClientSystem} (lib : Library) (timeout : Option ℕ) {as : List StatusAnswer}
      {sleeps : List Nanosleep} {d : StatusSystem} {r : WaitResult}
      (hserves : Serves c.task.tId c.daemon as d)
      (hcall : lib.wait c.task timeout (as.map StatusAnswer.reply) sleeps = some r) :
      ClientStep c ⟨r.task, d, c.history ++ [⟨.wait, r.rv,
        if r.rv = NORNS_SUCCESS then some r.task.tStatus else none⟩]⟩

/-- Once a completion has been obtained, the next call is a `norns_error` on a descriptor that
holds the final status. -/
def AsksDescriptor (c c' : ClientSystem) : Prop :=
  ∀ e, c'.history = c.history ++ [e] → (∃ e' ∈ c.history, e'.completed = true) →
    c.task.tStatus.finished = true ∧ e.call = .error

/-- Every call after a completed one succeeds, and a `norns_error` yields the same status. -/
def Stable (history : List CallRecord) : Prop :=
  history.Pairwise fun e e' => e.completed = true →
    e'.rv = NORNS_SUCCESS ∧ (e'.call = .error → e'.stats = e.stats)

/-! ### Stability -/

theorem finishCall_eq_some {α : Type} {replies : List Reply} {sleeps : List Nanosleep} {a b : α}
    (h : finishCall replies sleeps a = some b) : a = b := by
  unfold finishCall at h
  split_ifs at h
  exact Option.some.inj h

/-- A descriptor with a final status answers by itself. -/
theorem errorCall_of_finished {task : Iotask} {stats stats' : NornsStat} {replies : List Reply}
    {rv : Int32} (hfin : task.tStatus.finished = true)
    (h : errorCall task stats replies = some (rv, stats')) :
    rv = NORNS_SUCCESS ∧ stats' = task.tStatus := by
  unfold errorCall at h
  rw [if_pos hfin] at h
  obtain ⟨rfl, rfl⟩ := Prod.mk.inj (finishCall_eq_some h)
  exact ⟨rfl, rfl⟩

/-- The calls so far are stable, and a final status in the descriptor is the one they obtained. -/
structure ClientSystem.Inv (c : ClientSystem) : Prop where
  stable : Stable c.history
  cached : ∀ e ∈ c.history, e.completed = true → c.task.tStatus.finished = true →
    e.stats = some c.task.tStatus

namespace ClientSystem.Inv

variable {c : ClientSystem}

/-- The history grows by a call that agrees with the completed ones before it. -/
theorem stable_append (h : c.Inv) {e : CallRecord}
    (he : ∀ e' ∈ c.history, e'.completed = true →
      e.rv = NORNS_SUCCESS ∧ (e.call = .error → e.stats = e'.stats)) :
    Stable (c.history ++ [e]) := by
  refine List.pairwise_append.mpr ⟨h.stable, List.pairwise_singleton _ _, ?_⟩
  intro e' he' b hb
  rw [List.mem_singleton.mp hb]
  exact he e' he'

theorem error (h : c.Inv) {lib : Library} {stats stats' : NornsStat} {as : List StatusAnswer}
    {d : StatusSystem} {rv : Int32}
    (hcall : lib.error c.task stats (as.map StatusAnswer.reply) = some (rv, stats'))
    (hok : AsksDescriptor c ⟨c.task, d, c.history ++ [⟨.error, rv, some stats'⟩]⟩) :
    ClientSystem.Inv ⟨c.task, d, c.history ++ [⟨.error, rv, some stats'⟩]⟩ := by
  have hcall' : errorCall c.task stats (as.map StatusAnswer.reply) = some (rv, stats') := by
    cases lib <;> exact hcall
  refine ⟨h.stable_append fun e' he' hcomp => ?_, fun e he hcomp hfin => ?_⟩
  · have hfin := (hok _ rfl ⟨e', he', hcomp⟩).1
    obtain ⟨hrv, hst⟩ := errorCall_of_finished hfin hcall'
    refine ⟨hrv, fun _ => ?_⟩
    rw [h.cached e' he' hcomp hfin, hst]
  · obtain he | he := List.mem_append.mp he
    · exact h.cached e he hcomp hfin
    · rw [List.mem_singleton.mp he]
      exact congrArg some (errorCall_of_finished hfin hcall').2

theorem wait (h : c.Inv) {d : StatusSystem} {r : WaitResult}
    (hok : AsksDescriptor c ⟨r.task, d, c.history ++ [⟨.wait, r.rv,
      if r.rv = NORNS_SUCCESS then some r.task.tStatus else none⟩]⟩) :
    ClientSystem.Inv ⟨r.task, d, c.history ++ [⟨.wait, r.rv,
      if r.rv = NORNS_SUCCESS then some r.task.tStatus else none⟩]⟩ := by
  have hnone : ∀ e' ∈ c.history, ¬ e'.completed = true := by
    intro e' he' hcomp
    cases (hok _ rfl ⟨e', he', hcomp⟩).2
  refine ⟨h.stable_append fun e' he' hcomp => absurd hcomp (hnone e' he'), ?_⟩
  intro e he hcomp _
  obtain he | he := List.mem_append.mp he
  · exact absurd hcomp (hnone e he)
  · rw [List.mem_singleton.mp he] at hcomp ⊢
    unfold CallRecord.completed at hcomp
    have hrv : r.rv = NORNS_SUCCESS := by
      simpa using (Bool.and_eq_true_iff.mp hcomp).1
    exact if_pos hrv

/-- Every allowed step keeps the invariant. -/
theorem step (c c' : ClientSystem) (h : c.Inv) (hstep : Guarded ClientStep AsksDescriptor c c') :
    c'.Inv := by
  obtain ⟨hst, hok⟩ := hstep
  cases hst with
  | daemon _ => exact ⟨h.stable, h.cached⟩
  | error lib stats _ hcall => exact h.error hcall hok
  | wait lib timeout _ _ => exact h.wait hok

end ClientSystem.Inv

/-- **Completion is stable** for a client that, once a call has obtained a final status, only
calls `norns_error` on a descriptor that holds it. -/
theorem completion_stable {task : Iotask} {c : ClientSystem}
    (hrun : Run (Guarded ClientStep AsksDescriptor) ⟨task, .init, []⟩ c) : Stable c.history :=
  (Run.invariant ClientSystem.Inv.step hrun
    ⟨List.Pairwise.nil, fun _ he => absurd he List.not_mem_nil⟩).stable

theorem asksDescriptor_of_daemon {c c' : ClientSystem} (h : c'.history = c.history) :
    AsksDescriptor c c' := by
  intro e he _
  have hlen := congrArg List.length (h.symm.trans he)
  simp at hlen

theorem asksDescriptor_of_nil {c c' : ClientSystem} (h : c.history = []) :
    AsksDescriptor c c' := by
  rintro e - ⟨e', he', -⟩
  rw [h] at he'
  cases he'

theorem asksDescriptor_of_error {c c' : ClientSystem} {e : CallRecord}
    (h : c'.history = c.history ++ [e]) (hfin : c.task.tStatus.finished = true)
    (he : e.call = .error) : AsksDescriptor c c' := by
  intro e' he' _
  obtain rfl := List.singleton_injective (List.append_cancel_left (h.symm.trans he'))
  exact ⟨hfin, he⟩

/-- The daemon once `sampleTask` has completed. -/
def completedDaemon : StatusSystem :=
  ⟨[(sampleTask.updateStatus .running).updateStatusError .finished .success 0],
    Table.emplace 1 0 ∅, .idle, []⟩

theorem completedDaemon_reachable : Run StatusStep .init completedDaemon :=
  ((Relation.ReflTransGen.single (.create sampleTask (by decide) rfl)).tail
    (.update 0 rfl (.start rfl))).tail (.update 0 rfl (.complete .finished .success 0 rfl rfl))

/-- A run of the daemon is one of the system with a client, without calls. -/
theorem run_daemon {task : Iotask} {history : List CallRecord} {d d' : StatusSystem}
    (h : Run StatusStep d d') :
    Run (Guarded ClientStep AsksDescriptor) ⟨task, d, history⟩ ⟨task, d', history⟩ := by
  induction h with
  | refl => exact .refl
  | tail _ hstep ih => exact ih.tail ⟨.daemon hstep, asksDescriptor_of_daemon rfl⟩

/-- What the first request for the completed task brings about. -/
def reportedDaemon : StatusSystem :=
  { completedDaemon with
    table := completedDaemon.table.erase 1
    answers := [⟨1, some (0, ⟨.finished, .success, 0, 0, 0⟩), true⟩] }

theorem completedDaemon_serves :
    Serves 1 completedDaemon [⟨1, some (0, ⟨.finished, .success, 0, 0, 0⟩), true⟩]
      reportedDaemon :=
  .cons ⟨completedDaemon, .refl, rfl,
    ((Relation.ReflTransGen.single (.ipc rfl)).tail (.ipc rfl)).tail (.ipc rfl), [], rfl⟩ .nil

/-- The second one finds nothing. -/
theorem reportedDaemon_serves :
    Serves 1 reportedDaemon [⟨1, none, false⟩]
      { reportedDaemon with answers := reportedDaemon.answers ++ [⟨1, none, false⟩] } :=
  .cons ⟨reportedDaemon, .refl, rfl, .refl, [], rfl⟩ .nil

/-- A wait and then `norns_error`. -/
theorem wait_then_error_stable : ∃ c, Run (Guarded ClientStep AsksDescriptor)
      ⟨⟨1, ⟨0, 0, 0⟩⟩, .init, []⟩ c ∧
    c.history = [⟨.wait, 0, some ⟨-103, 0, 0⟩⟩, ⟨.error, 0, some ⟨-103, 0, 0⟩⟩] ∧
    Stable c.history := by
  have hwait : Library.norns.wait ⟨1, ⟨0, 0, 0⟩⟩ none [.status 0 ⟨-103, 0, 0⟩] [] =
      some ⟨0, ⟨1, ⟨-103, 0, 0⟩⟩, 0⟩ := rfl
  have hstart : Run (Guarded ClientStep AsksDescriptor) ⟨⟨1, ⟨0, 0, 0⟩⟩, .init, []⟩
      ⟨⟨1, ⟨0, 0, 0⟩⟩, completedDaemon, []⟩ := run_daemon completedDaemon_reachable
  have hwaited := hstart.tail
    ⟨.wait .norns none completedDaemon_serves hwait, asksDescriptor_of_nil rfl⟩
  have hrun := hwaited.tail
    ⟨.error .norns ⟨0, 0, 0⟩ .nil rfl, asksDescriptor_of_error rfl rfl rfl⟩
  exact ⟨_, hrun, rfl, completion_stable hrun⟩

/-- Twice `norns_error`: the second call is told that there is no such task. -/
theorem error_then_error_unstable : ∃ c, Run ClientStep ⟨⟨1, ⟨0, 0, 0⟩⟩, .init, []⟩ c ∧
    c.history = [⟨.error, 0, some ⟨-103, 0, 0⟩⟩, ⟨.error, -41, some ⟨-100, 0, 0⟩⟩] ∧
    ¬ Stable c.history := by
  have hstart : Run ClientStep ⟨⟨1, ⟨0, 0, 0⟩⟩, .init, []⟩ ⟨⟨1, ⟨0, 0, 0⟩⟩, completedDaemon, []⟩ :=
    Run.of_guarded (run_daemon completedDaemon_reachable)
  have hrun := (hstart.tail
    (.error .norns ⟨0, 0, 0⟩ completedDaemon_serves rfl)).tail
    (.error .norns ⟨0, 0, 0⟩ reportedDaemon_serves rfl)
  refine ⟨_, hrun, rfl, fun h => ?_⟩
  have hpair := List.rel_of_pairwise_cons h (List.mem_singleton.mpr rfl)
  exact absurd (hpair (by decide)).1 (by decide)

end Norns
