import Norns.TaskManager
import Norns.Lib.Run

/-! # Status requests

One thread serves the API (`urd::iotask_status_handler`), other threads run the tasks and update
their records (`task_info::update_status`).  A record is shared: the handler, the worker and the
table point to the same object, so the system keeps the objects in a heap and the table maps a
task id to a position in it.

The handler is cut where it takes a lock.  It looks the record up, takes a snapshot (`stats`),
which is the answer, and then asks for the status twice more, once for each of the two final
values, to decide whether the record can be erased.  A task that completes between the snapshot
and those two reads is erased by a request that reports it as running.

`completion_never_lost` is about the runs in which no task completes in that window. -/

namespace Norns

open Lib

/-- `io::task_stats`. -/
structure TaskStats where
  status : TaskStatus
  taskError : UrdError
  sysError : ErrorCode
  totalBytes : UInt64
  pendingBytes : UInt64
deriving DecidableEq, Repr

namespace TaskInfo

/-- `task_info::stats`. -/
def stats (ti : TaskInfo) : TaskStats :=
  ⟨ti.status, ti.taskError, ti.sysError, ti.totalBytes, ti.totalBytes - ti.sentBytes⟩

/-- `task_info::update_status(st)`. -/
def updateStatus (ti : TaskInfo) (st : TaskStatus) : TaskInfo := { ti with status := st }

/-- `task_info::update_status(st, ec, sc)`. -/
def updateStatusError (ti : TaskInfo) (st : TaskStatus) (ec : UrdError) (sc : ErrorCode) :
    TaskInfo := { ti with status := st, taskError := ec, sysError := sc }

/-- `task_info::record_transfer`, without the bandwidth. -/
def recordTransfer (ti : TaskInfo) (bytes : UInt64) : TaskInfo :=
  { ti with sentBytes := ti.sentBytes + bytes }

end TaskInfo

/-! ### The system -/

/-- What the thread that runs a task does to its record. -/
inductive WorkerUpdate : TaskInfo → TaskInfo → Prop
  | start {ti : TaskInfo} (h : ti.status = .pending) : WorkerUpdate ti (ti.updateStatus .running)
  | record {ti : TaskInfo} (bytes : UInt64) (h : ti.status = .running) :
      WorkerUpdate ti (ti.recordTransfer bytes)
  | complete {ti : TaskInfo} (st : TaskStatus) (ec : UrdError) (sc : ErrorCode)
      (h : ti.status = .running) (hst : st.terminal = true) :
      WorkerUpdate ti (ti.updateStatusError st ec sc)

/-- Where the thread that serves the API is in `iotask_status_handler`.  The pointer that `find`
returned is a position in the heap. -/
inductive IpcThread where
  | idle
  /-- `find` returned a record; `stats` is next. -/
  | found (tid : IotaskId) (p : ℕ)
  /-- the snapshot is taken; the comparison with `finished` is next. -/
  | snapshot (tid : IotaskId) (p : ℕ) (st : TaskStats)
  /-- the comparison with `finished_with_error` is next. -/
  | reread (tid : IotaskId) (p : ℕ) (st : TaskStats)
  /-- `erase` is next. -/
  | erasing (tid : IotaskId) (p : ℕ) (st : TaskStats)
deriving DecidableEq, Repr

/-- A response: the record that was found and its snapshot (`none` is `no_such_task`), and
whether the request erased the record. -/
structure StatusAnswer where
  tid : IotaskId
  task : Option (ℕ × TaskStats)
  erased : Bool
deriving DecidableEq, Repr

namespace StatusAnswer

/-- The answer reports a final status. -/
def terminal (a : StatusAnswer) : Bool :=
  match a.task with
  | some (_, st) => st.status.terminal
  | none => false

/-- The answer reports a final status of the record `p`. -/
def reports (p : ℕ) (a : StatusAnswer) : Bool :=
  match a.task with
  | some (q, st) => q = p && st.status.terminal
  | none => false

end StatusAnswer

/-- The records, the table, the thread that serves the API and the responses it has sent. -/
structure StatusSystem where
  heap : List TaskInfo
  table : Table IotaskId ℕ
  ipc : IpcThread
  answers : List StatusAnswer

namespace StatusSystem

/-- No task yet. -/
def init : StatusSystem := ⟨[], ∅, .idle, []⟩

/-- A new record. -/
def create (s : StatusSystem) (ti : TaskInfo) : StatusSystem :=
  { s with heap := s.heap ++ [ti], table := s.table.emplace ti.id s.heap.length }

/-- The handler starts: `find`. -/
def request (s : StatusSystem) (tid : IotaskId) : StatusSystem :=
  match s.table.lookup tid with
  | some p => { s with ipc := .found tid p }
  | none => { s with answers := s.answers ++ [⟨tid, none, false⟩] }

/-- The next step of the handler, once it has found a record. -/
def ipcNext (s : StatusSystem) : Option StatusSystem :=
  match s.ipc with
  | .idle => none
  | .found tid p =>
      match s.heap[p]? with
      | some ti => some { s with ipc := .snapshot tid p ti.stats }
      | none => none
  | .snapshot tid p st =>
      match s.heap[p]? with
      | some ti =>
          if ti.status = .finished then some { s with ipc := .erasing tid p st }
          else some { s with ipc := .reread tid p st }
      | none => none
  | .reread tid p st =>
      match s.heap[p]? with
      | some ti =>
          if ti.status = .finishedWithError then some { s with ipc := .erasing tid p st }
          else some { s with ipc := .idle, answers := s.answers ++ [⟨tid, some (p, st), false⟩] }
      | none => none
  | .erasing tid p st =>
      some { s with table := s.table.erase tid, ipc := .idle,
                    answers := s.answers ++ [⟨tid, some (p, st), true⟩] }

/-- How many responses reported a final status of the record `p`. -/
def reports (s : StatusSystem) (p : ℕ) : ℕ := s.answers.countP (StatusAnswer.reports p)

end StatusSystem

/-- One step of some thread. -/
inductive StatusStep : StatusSystem → StatusSystem → Prop
  | create {s : StatusSystem} (ti : TaskInfo) (hfree : ti.id ∉ s.table)
      (hpending : ti.status = .pending) : StatusStep s (s.create ti)
  | update {s : StatusSystem} (p : ℕ) {ti ti' : TaskInfo} (hget : s.heap[p]? = some ti)
      (hupd : WorkerUpdate ti ti') : StatusStep s { s with heap := s.heap.set p ti' }
  | request {s : StatusSystem} (tid : IotaskId) (hidle : s.ipc = .idle) :
      StatusStep s (s.request tid)
  | ipc {s s' : StatusSystem} (h : s.ipcNext = some s') : StatusStep s s'

/-- No task completes while the handler is between its snapshot and the read of the status that
would see it: after the snapshot neither final value may be written, after the comparison with
`finished` only that one. -/
def OutsideWindow (s s' : StatusSystem) : Prop :=
  ∀ p ti ti', s.heap[p]? = some ti → s'.heap[p]? = some ti' →
    ti.status.terminal = false → ti'.status.terminal = true →
    match s.ipc with
    | .snapshot _ q _ => q ≠ p
    | .reread _ q _ => q = p → ti'.status = .finished
    | _ => True

/-! ### What a step can do -/

theorem WorkerUpdate.spec {ti ti' : TaskInfo} (h : WorkerUpdate ti ti') :
    ti.status.terminal = false ∧ ti'.id = ti.id := by
  cases h with
  | start h => simp [h, TaskInfo.updateStatus, TaskStatus.terminal]
  | record _ h => simp [h, TaskInfo.recordTransfer, TaskStatus.terminal]
  | complete _ _ _ h _ => simp [h, TaskInfo.updateStatusError, TaskStatus.terminal]

theorem TaskStatus.terminal_iff {st : TaskStatus} :
    st.terminal = true ↔ st = .finished ∨ st = .finishedWithError := by
  cases st <;> simp [TaskStatus.terminal]

section Handler

variable {s : StatusSystem} {tid : IotaskId} {p : ℕ} {st : TaskStats} {ti : TaskInfo}

theorem ipcNext_found (hs : s.ipc = .found tid p) (hget : s.heap[p]? = some ti) :
    s.ipcNext = some { s with ipc := .snapshot tid p ti.stats } := by
  simp only [StatusSystem.ipcNext, hs, hget]

theorem ipcNext_snapshot (hs : s.ipc = .snapshot tid p st) (hget : s.heap[p]? = some ti) :
    s.ipcNext = some { s with
      ipc := if ti.status = .finished then .erasing tid p st else .reread tid p st } := by
  simp only [StatusSystem.ipcNext, hs, hget]
  split_ifs <;> rfl

theorem ipcNext_reread (hs : s.ipc = .reread tid p st) (hget : s.heap[p]? = some ti)
    (hfwe : ti.status = .finishedWithError) :
    s.ipcNext = some { s with ipc := .erasing tid p st } := by
  simp only [StatusSystem.ipcNext, hs, hget, if_pos hfwe]

theorem ipcNext_erasing (hs : s.ipc = .erasing tid p st) :
    s.ipcNext = some { s with table := s.table.erase tid, ipc := .idle,
                              answers := s.answers ++ [⟨tid, some (p, st), true⟩] } := by
  simp only [StatusSystem.ipcNext, hs]

end Handler

/-- The steps of the handler. -/
theorem ipcNext_cases {s s' : StatusSystem} (h : s.ipcNext = some s') :
    (∃ tid p ti, s.ipc = .found tid p ∧ s.heap[p]? = some ti ∧
      s' = { s with ipc := .snapshot tid p ti.stats }) ∨
    (∃ tid p st ti, s.ipc = .snapshot tid p st ∧ s.heap[p]? = some ti ∧
      ((ti.status = .finished ∧ s' = { s with ipc := .erasing tid p st }) ∨
       (ti.status ≠ .finished ∧ s' = { s with ipc := .reread tid p st }))) ∨
    (∃ tid p st ti, s.ipc = .reread tid p st ∧ s.heap[p]? = some ti ∧
      ((ti.status = .finishedWithError ∧ s' = { s with ipc := .erasing tid p st }) ∨
       (ti.status ≠ .finishedWithError ∧ s' =
         { s with ipc := .idle, answers := s.answers ++ [⟨tid, some (p, st), false⟩] }))) ∨
    (∃ tid p st, s.ipc = .erasing tid p st ∧ s' =
      { s with table := s.table.erase tid, ipc := .idle,
               answers := s.answers ++ [⟨tid, some (p, st), true⟩] }) := by
  unfold StatusSystem.ipcNext at h
  split at h
  · cases h
  · next tid p hipc =>
      split at h
      · next ti hget => exact Or.inl ⟨tid, p, ti, hipc, hget, (Option.some.inj h).symm⟩
      · cases h
  · next tid p st hipc =>
      split at h
      · next ti hget =>
          refine Or.inr (Or.inl ⟨tid, p, st, ti, hipc, hget, ?_⟩)
          split_ifs at h with hst
          · exact Or.inl ⟨hst, (Option.some.inj h).symm⟩
          · exact Or.inr ⟨hst, (Option.some.inj h).symm⟩
      · cases h
  · next tid p st hipc =>
      split at h
      · next ti hget =>
          refine Or.inr (Or.inr (Or.inl ⟨tid, p, st, ti, hipc, hget, ?_⟩))
          split_ifs at h with hst
          · exact Or.inl ⟨hst, (Option.some.inj h).symm⟩
          · exact Or.inr ⟨hst, (Option.some.inj h).symm⟩
      · cases h
  · next tid p st hipc =>
      exact Or.inr (Or.inr (Or.inr ⟨tid, p, st, hipc, (Option.some.inj h).symm⟩))

/-! ### The invariant -/

/-- What the handler knows about the record it points to: its snapshot is either of a task that
has not completed since, as far as the remaining reads can tell, or the final one. -/
def StatusSystem.IpcOk (s : StatusSystem) : Prop :=
  match s.ipc with
  | .idle => True
  | .found tid p => s.table.lookup tid = some p
  | .snapshot tid p st => s.table.lookup tid = some p ∧ ∃ ti, s.heap[p]? = some ti ∧
      ((ti.status.terminal = false ∧ st.status.terminal = false) ∨
       (ti.status.terminal = true ∧ st = ti.stats))
  | .reread tid p st => s.table.lookup tid = some p ∧ ∃ ti, s.heap[p]? = some ti ∧
      ((ti.status ≠ .finishedWithError ∧ st.status.terminal = false) ∨
       (ti.status = .finishedWithError ∧ st = ti.stats))
  | .erasing tid p st => s.table.lookup tid = some p ∧ ∃ ti, s.heap[p]? = some ti ∧
      ti.status.terminal = true ∧ st = ti.stats

/-- Whether the table leads to the record `p`. -/
def StatusSystem.bound (s : StatusSystem) (p : ℕ) (ti : TaskInfo) : ℕ :=
  if s.table.lookup ti.id = some p then 1 else 0

/-- The invariant: the table leads to records of the right id, an erasing answer is final, and
every record is either in the table or has been reported, once, when it was final. -/
structure StatusSystem.Inv (s : StatusSystem) : Prop where
  tableOk : ∀ tid p, s.table.lookup tid = some p → ∃ ti, s.heap[p]? = some ti ∧ ti.id = tid
  ipcOk : s.IpcOk
  answersOld : ∀ p, s.heap.length ≤ p → s.reports p = 0
  erasedFinal : ∀ a ∈ s.answers, a.erased = true → a.terminal = true
  counted : ∀ p ti, s.heap[p]? = some ti → s.reports p + s.bound p ti = 1
  running : ∀ p ti, s.heap[p]? = some ti → ti.status.terminal = false → s.reports p = 0

theorem StatusAnswer.reports_of_not_terminal {a : StatusAnswer} (h : a.terminal = false) (p : ℕ) :
    a.reports p = false := by
  unfold StatusAnswer.terminal at h
  unfold StatusAnswer.reports
  split at h
  · simp [h]
  · rfl

namespace StatusSystem.Inv

variable {s s' : StatusSystem}

theorem reports_append {table : Table IotaskId ℕ} {ipc : IpcThread} {a : StatusAnswer} {p : ℕ} :
    StatusSystem.reports { s with table := table, ipc := ipc, answers := s.answers ++ [a] } p =
      s.reports p + if a.reports p then 1 else 0 := by
  simp [StatusSystem.reports, List.countP_append, List.countP_singleton]

theorem ofInit : StatusSystem.init.Inv where
  tableOk tid p h := by cases h
  ipcOk := trivial
  answersOld _ _ := rfl
  erasedFinal a h := by cases h
  counted p ti h := by cases h
  running p ti h := by cases h

theorem lookup_lt (h : s.Inv) {tid : IotaskId} {p : ℕ} (hl : s.table.lookup tid = some p) :
    p < s.heap.length := by
  obtain ⟨ti, hget, -⟩ := h.tableOk tid p hl
  exact (List.getElem?_eq_some_iff.mp hget).1

/-! The heap and the table after a creation. -/

section Create

variable {ti : TaskInfo} (hfree : ti.id ∉ s.table)
include hfree

theorem lookup_create (tid : IotaskId) : (s.create ti).table.lookup tid =
    if tid = ti.id then some s.heap.length else s.table.lookup tid :=
  Table.lookup_emplace_of_notMem hfree

theorem lookup_create_of_some {tid : IotaskId} {p : ℕ} (hl : s.table.lookup tid = some p) :
    (s.create ti).table.lookup tid = some p := by
  have hne : tid ≠ ti.id := by
    rintro rfl
    rw [AList.lookup_eq_none.mpr hfree] at hl
    cases hl
  rw [lookup_create hfree, if_neg hne, hl]

omit hfree

theorem heap_create_of_some {p : ℕ} {ti' : TaskInfo} (hp : s.heap[p]? = some ti') :
    (s.create ti).heap[p]? = some ti' :=
  (List.getElem?_append_left (List.getElem?_eq_some_iff.mp hp).1).trans hp

theorem heap_create_self : (s.create ti).heap[s.heap.length]? = some ti := by
  simp [StatusSystem.create]

theorem heap_create_cases {p : ℕ} {ti' : TaskInfo} (hp : (s.create ti).heap[p]? = some ti') :
    s.heap[p]? = some ti' ∨ (p = s.heap.length ∧ ti' = ti) := by
  obtain hlt | rfl | hgt := Nat.lt_trichotomy p s.heap.length
  · exact Or.inl ((List.getElem?_append_left hlt).symm.trans hp)
  · exact Or.inr ⟨rfl, (Option.some.inj (heap_create_self.symm.trans hp)).symm⟩
  · have hlen := (List.getElem?_eq_some_iff.mp hp).1
    simp only [StatusSystem.create, List.length_append, List.length_singleton] at hlen
    omega

end Create

/-- The handler does not notice a creation. -/
theorem ipcOk_create {ti : TaskInfo} (hfree : ti.id ∉ s.table) (hipc : s.IpcOk) :
    (s.create ti).IpcOk := by
  unfold StatusSystem.IpcOk at hipc ⊢
  rw [show (s.create ti).ipc = s.ipc from rfl]
  cases hs : s.ipc <;> rw [hs] at hipc
  · trivial
  · exact lookup_create_of_some hfree hipc
  all_goals
    obtain ⟨hl, ti', hp, hrest⟩ := hipc
    exact ⟨lookup_create_of_some hfree hl, ti', heap_create_of_some hp, hrest⟩

/-- The table leads to an old record after a creation exactly if it did before. -/
theorem bound_create {ti ti' : TaskInfo} (hfree : ti.id ∉ s.table) {p : ℕ}
    (hp : s.heap[p]? = some ti') : (s.create ti).bound p ti' = s.bound p ti' := by
  have hiff : (s.create ti).table.lookup ti'.id = some p ↔ s.table.lookup ti'.id = some p := by
    refine ⟨fun hl => ?_, lookup_create_of_some hfree⟩
    rw [lookup_create hfree] at hl
    split_ifs at hl with hid
    · obtain rfl := Option.some.inj hl
      exact absurd (List.getElem?_eq_some_iff.mp hp).1 (lt_irrefl _)
    · exact hl
  simp only [StatusSystem.bound, hiff]

/-- A new record is in the table and in no answer. -/
theorem create (h : s.Inv) {ti : TaskInfo} (hfree : ti.id ∉ s.table) : (s.create ti).Inv := by
  refine ⟨?_, ipcOk_create hfree h.ipcOk, ?_, h.erasedFinal, ?_, ?_⟩
  · intro tid p hl
    rw [lookup_create hfree] at hl
    split_ifs at hl with htid
    · obtain rfl := Option.some.inj hl
      exact ⟨ti, heap_create_self, htid.symm⟩
    · obtain ⟨ti', hp, hid⟩ := h.tableOk tid p hl
      exact ⟨ti', heap_create_of_some hp, hid⟩
  · intro p hp
    simp only [StatusSystem.create, List.length_append, List.length_singleton] at hp
    exact h.answersOld p (by omega)
  · intro p ti' hp
    obtain hp' | ⟨rfl, rfl⟩ := heap_create_cases hp
    · rw [bound_create hfree hp']
      exact h.counted p ti' hp'
    · rw [StatusSystem.bound, lookup_create hfree, if_pos rfl, if_pos rfl]
      exact congrArg (· + 1) (h.answersOld _ le_rfl)
  · intro p ti' hp hrun
    obtain hp' | ⟨rfl, rfl⟩ := heap_create_cases hp
    · exact h.running p ti' hp' hrun
    · exact h.answersOld _ le_rfl

/-! The heap after an update of the record `p`. -/

section Update

variable {p : ℕ} {ti ti' : TaskInfo} (hget : s.heap[p]? = some ti)
include hget

theorem heap_update_self : (s.heap.set p ti')[p]? = some ti' :=
  List.getElem?_set_self (List.getElem?_eq_some_iff.mp hget).1

theorem heap_set_cases {q : ℕ} {tq : TaskInfo} (hq : (s.heap.set p ti')[q]? = some tq) :
    (q = p ∧ tq = ti') ∨ s.heap[q]? = some tq := by
  by_cases hqp : q = p
  · subst hqp
    exact Or.inl ⟨rfl, (Option.some.inj ((heap_update_self hget).symm.trans hq)).symm⟩
  · exact Or.inr ((List.getElem?_set_ne (Ne.symm hqp)).symm.trans hq)

theorem heap_update_cases (hupd : WorkerUpdate ti ti') {q : ℕ} {tq : TaskInfo}
    (hq : (s.heap.set p ti')[q]? = some tq) :
    ∃ tq', s.heap[q]? = some tq' ∧ tq.id = tq'.id ∧
      (tq.status.terminal = false → tq'.status.terminal = false) := by
  obtain ⟨hrun, hid⟩ := hupd.spec
  obtain ⟨rfl, rfl⟩ | hq' := heap_set_cases hget hq
  · exact ⟨ti, hget, hid, fun _ => hrun⟩
  · exact ⟨tq, hq', rfl, id⟩

/-- What held of the record that the handler points to holds after the update, if the updated
record has the property in the case that it is this one. -/
theorem record_update {P : TaskInfo → Prop} {q : ℕ} (hold : ∃ tq, s.heap[q]? = some tq ∧ P tq)
    (hnew : q = p → P ti → P ti') : ∃ tq, (s.heap.set p ti')[q]? = some tq ∧ P tq := by
  obtain ⟨tq, hq, hP⟩ := hold
  by_cases hqp : q = p
  · subst hqp
    obtain rfl := Option.some.inj (hget.symm.trans hq)
    exact ⟨ti', heap_update_self hget, hnew rfl hP⟩
  · exact ⟨tq, (List.getElem?_set_ne (Ne.symm hqp)).trans hq, hP⟩

/-- Outside the window the handler's snapshot stays what the invariant says: if it is of the
updated record, it is one of a task that has not completed. -/
theorem ipcOk_update (hupd : WorkerUpdate ti ti')
    (hout : OutsideWindow s { s with heap := s.heap.set p ti' }) (hipc : s.IpcOk) :
    StatusSystem.IpcOk { s with heap := s.heap.set p ti' } := by
  have hrun := hupd.spec.1
  have hwindow : ti'.status.terminal = true → _ :=
    hout p ti ti' hget (heap_update_self hget) hrun
  unfold StatusSystem.IpcOk at hipc ⊢
  dsimp only
  cases hs : s.ipc with
  | idle => trivial
  | found tid q =>
      rw [hs] at hipc
      exact hipc
  | snapshot tid q st =>
      rw [hs] at hipc hwindow
      refine ⟨hipc.1, record_update hget hipc.2 ?_⟩
      rintro rfl (⟨-, hst⟩ | ⟨hterm, -⟩)
      · exact Or.inl ⟨Bool.eq_false_iff.mpr fun hterm => hwindow hterm rfl, hst⟩
      · exact absurd hterm (by simp [hrun])
  | reread tid q st =>
      rw [hs] at hipc hwindow
      refine ⟨hipc.1, record_update hget hipc.2 ?_⟩
      rintro rfl (⟨-, hst⟩ | ⟨hfwe, -⟩)
      · refine Or.inl ⟨fun hfwe => ?_, hst⟩
        have hfin := hwindow (TaskStatus.terminal_iff.mpr (Or.inr hfwe)) rfl
        rw [hfwe] at hfin
        cases hfin
      · rw [hfwe] at hrun
        cases hrun
  | erasing tid q st =>
      rw [hs] at hipc
      refine ⟨hipc.1, record_update hget hipc.2 ?_⟩
      rintro rfl ⟨hterm, -⟩
      exact absurd hterm (by simp [hrun])

end Update

/-- A worker changes the record of a task that has not completed, outside the window. -/
theorem update (h : s.Inv) {p : ℕ} {ti ti' : TaskInfo} (hget : s.heap[p]? = some ti)
    (hupd : WorkerUpdate ti ti') (hout : OutsideWindow s { s with heap := s.heap.set p ti' }) :
    StatusSystem.Inv { s with heap := s.heap.set p ti' } := by
  refine ⟨?_, ipcOk_update hget hupd hout h.ipcOk, ?_, h.erasedFinal, ?_, ?_⟩
  · intro tid q hl
    exact record_update hget (h.tableOk tid q hl) fun _ => hupd.spec.2.trans
  · intro q hq
    rw [List.length_set] at hq
    exact h.answersOld q hq
  · intro q tq hq
    obtain ⟨tq', hq', hqid, -⟩ := heap_update_cases hget hupd hq
    have hc := h.counted q tq' hq'
    unfold StatusSystem.bound at hc ⊢
    rw [hqid]
    exact hc
  · intro q tq hq hqrun
    obtain ⟨tq', hq', -, hterm⟩ := heap_update_cases hget hupd hq
    exact h.running q tq' hq' (hterm hqrun)

/-- The handler moves on. -/
theorem withIpc (h : s.Inv) {ipc : IpcThread} (hok : StatusSystem.IpcOk { s with ipc := ipc }) :
    StatusSystem.Inv { s with ipc := ipc } :=
  ⟨h.tableOk, hok, h.answersOld, h.erasedFinal, h.counted, h.running⟩

/-- An answer that reports nothing final and erases nothing. -/
theorem answer (h : s.Inv) {a : StatusAnswer} (hrep : a.terminal = false)
    (herased : a.erased = false) :
    StatusSystem.Inv { s with ipc := .idle, answers := s.answers ++ [a] } := by
  have hsame : ∀ p, StatusSystem.reports { s with ipc := .idle, answers := s.answers ++ [a] } p =
      s.reports p := by
    intro p
    rw [reports_append, StatusAnswer.reports_of_not_terminal hrep]
    simp
  refine ⟨h.tableOk, trivial, fun p hp => ?_, fun b hb he => ?_, fun p ti hp => ?_,
    fun p ti hp hrun => ?_⟩
  · rw [hsame]
    exact h.answersOld p hp
  · obtain hb | hb := List.mem_append.mp hb
    · exact h.erasedFinal b hb he
    · rw [List.mem_singleton.mp hb, herased] at he
      cases he
  · rw [hsame]
    exact h.counted p ti hp
  · rw [hsame]
    exact h.running p ti hp hrun

/-- The erasure of a completed task comes with its report. -/
theorem erase (h : s.Inv) {tid : IotaskId} {p : ℕ} {ti : TaskInfo}
    (hl : s.table.lookup tid = some p) (hget : s.heap[p]? = some ti)
    (hterm : ti.status.terminal = true) :
    StatusSystem.Inv { s with table := s.table.erase tid, ipc := .idle,
                              answers := s.answers ++ [⟨tid, some (p, ti.stats), true⟩] } := by
  have hrep : ∀ q, StatusAnswer.reports q ⟨tid, some (p, ti.stats), true⟩ = decide (p = q) := by
    intro q
    simp [StatusAnswer.reports, TaskInfo.stats, hterm]
  have hid : ti.id = tid := by
    obtain ⟨ti', hp, hid⟩ := h.tableOk tid p hl
    rw [Option.some.inj (hget.symm.trans hp), hid]
  refine ⟨fun tid' q hq => ?_, trivial, fun q hq => ?_, fun b hb he => ?_, fun q tq hq => ?_,
    fun q tq hq hrun => ?_⟩
  · rw [Table.lookup_erase'] at hq
    split_ifs at hq
    exact h.tableOk tid' q hq
  · have hne : p ≠ q := by
      have := h.lookup_lt hl
      rintro rfl
      exact absurd this (not_lt.mpr hq)
    rw [reports_append, hrep, h.answersOld q hq]
    simp [hne]
  · obtain hb | hb := List.mem_append.mp hb
    · exact h.erasedFinal b hb he
    · rw [List.mem_singleton.mp hb]
      exact hterm
  · have hc := h.counted q tq hq
    unfold StatusSystem.bound at hc ⊢
    rw [reports_append, hrep, Table.lookup_erase']
    by_cases hpq : p = q
    · subst hpq
      obtain rfl := Option.some.inj (hget.symm.trans hq)
      rw [hid, if_pos hl] at hc
      simpa [hid] using hc
    · by_cases htid : tq.id = tid
      · have hne : s.table.lookup tq.id ≠ some q := by
          rw [htid, hl]
          exact fun he => hpq (Option.some.inj he)
        rw [if_neg hne] at hc
        simpa [hpq, htid] using hc
      · simp only [hpq, htid, decide_false, if_false]
        simpa using hc
  · have hne : p ≠ q := by
      rintro rfl
      rw [Option.some.inj (hq.symm.trans hget), hterm] at hrun
      cases hrun
    rw [reports_append, hrep, h.running q tq hq hrun]
    simp [hne]

theorem request (h : s.Inv) (tid : IotaskId) (hidle : s.ipc = .idle) : (s.request tid).Inv := by
  unfold StatusSystem.request
  cases hl : s.table.lookup tid with
  | some p => exact h.withIpc hl
  | none =>
      have hs : ({ s with answers := s.answers ++ [⟨tid, none, false⟩] } : StatusSystem) =
          { s with ipc := .idle, answers := s.answers ++ [⟨tid, none, false⟩] } := by
        rw [← hidle]
      rw [hs]
      exact h.answer rfl rfl

theorem ipc (h : s.Inv) (hnext : s.ipcNext = some s') : s'.Inv := by
  have hok := h.ipcOk
  unfold StatusSystem.IpcOk at hok
  obtain ⟨tid, p, ti, hs, hget, rfl⟩ | ⟨tid, p, st, ti, hs, hget, hnext⟩ |
    ⟨tid, p, st, ti, hs, hget, hnext⟩ | ⟨tid, p, st, hs, rfl⟩ := ipcNext_cases hnext
  · rw [hs] at hok
    refine h.withIpc ⟨hok, ti, hget, ?_⟩
    cases hterm : ti.status.terminal with
    | false => exact Or.inl ⟨rfl, hterm⟩
    | true => exact Or.inr ⟨rfl, rfl⟩
  · rw [hs] at hok
    obtain ⟨hl, ti', hget', hfresh⟩ := hok
    obtain rfl := Option.some.inj (hget.symm.trans hget')
    obtain ⟨hfin, rfl⟩ | ⟨hfin, rfl⟩ := hnext
    · have hterm := TaskStatus.terminal_iff.mpr (Or.inl hfin)
      obtain ⟨hrun, -⟩ | ⟨-, rfl⟩ := hfresh
      · rw [hterm] at hrun
        cases hrun
      · exact h.withIpc ⟨hl, ti, hget, hterm, rfl⟩
    · refine h.withIpc ⟨hl, ti, hget, ?_⟩
      obtain ⟨hrun, hst⟩ | ⟨hterm, rfl⟩ := hfresh
      · refine Or.inl ⟨fun hfwe => ?_, hst⟩
        rw [hfwe] at hrun
        cases hrun
      · exact Or.inr ⟨(TaskStatus.terminal_iff.mp hterm).resolve_left hfin, rfl⟩
  · rw [hs] at hok
    obtain ⟨hl, ti', hget', hfresh⟩ := hok
    obtain rfl := Option.some.inj (hget.symm.trans hget')
    obtain ⟨hfwe, rfl⟩ | ⟨hfwe, rfl⟩ := hnext
    · obtain ⟨hne, -⟩ | ⟨-, rfl⟩ := hfresh
      · exact absurd hfwe hne
      · exact h.withIpc ⟨hl, ti, hget, TaskStatus.terminal_iff.mpr (Or.inr hfwe), rfl⟩
    · obtain ⟨-, hst⟩ | ⟨hfwe', -⟩ := hfresh
      · exact h.answer hst rfl
      · exact absurd hfwe' hfwe
  · rw [hs] at hok
    obtain ⟨hl, ti, hget, hterm, rfl⟩ := hok
    exact h.erase hl hget hterm

/-- Every step outside the window keeps the invariant. -/
theorem step (s s' : StatusSystem) (h : s.Inv) (hstep : Guarded StatusStep OutsideWindow s s') :
    s'.Inv := by
  obtain ⟨hst, hout⟩ := hstep
  cases hst with
  | create ti hfree _ => exact h.create hfree
  | update p hget hupd => exact h.update hget hupd hout
  | request tid hidle => exact h.request tid hidle
  | ipc hnext => exact h.ipc hnext

end StatusSystem.Inv

/-! ### A request for a completed task -/

/-- The number of steps the handler still has to take. -/
def IpcThread.remaining : IpcThread → ℕ
  | .idle => 0
  | .erasing _ _ _ => 1
  | .reread _ _ _ => 2
  | .snapshot _ _ _ => 3
  | .found _ _ => 4

theorem remaining_ipcNext {s s' : StatusSystem} (h : s.ipcNext = some s') :
    s'.ipc.remaining < s.ipc.remaining := by
  obtain ⟨tid, p, ti, hs, -, rfl⟩ | ⟨tid, p, st, ti, hs, -, ⟨-, rfl⟩ | ⟨-, rfl⟩⟩ |
    ⟨tid, p, st, ti, hs, -, ⟨-, rfl⟩ | ⟨-, rfl⟩⟩ | ⟨tid, p, st, hs, rfl⟩ := ipcNext_cases h
  all_goals
    rw [hs]
    simp [IpcThread.remaining]

theorem answers_step {s s' : StatusSystem} (h : StatusStep s s') :
    ∃ l, s'.answers = s.answers ++ l := by
  cases h with
  | create ti _ _ => exact ⟨[], (List.append_nil _).symm⟩
  | update p _ _ => exact ⟨[], (List.append_nil _).symm⟩
  | request tid _ =>
      unfold StatusSystem.request
      cases s.table.lookup tid with
      | some p => exact ⟨[], (List.append_nil _).symm⟩
      | none => exact ⟨_, rfl⟩
  | ipc hnext =>
      obtain ⟨_, _, _, _, _, rfl⟩ | ⟨_, _, _, _, _, _, ⟨-, rfl⟩ | ⟨-, rfl⟩⟩ |
        ⟨_, _, _, _, _, _, ⟨-, rfl⟩ | ⟨-, rfl⟩⟩ | ⟨_, _, _, _, rfl⟩ := ipcNext_cases hnext
      · exact ⟨[], (List.append_nil _).symm⟩
      · exact ⟨[], (List.append_nil _).symm⟩
      · exact ⟨[], (List.append_nil _).symm⟩
      · exact ⟨[], (List.append_nil _).symm⟩
      · exact ⟨_, rfl⟩
      · exact ⟨_, rfl⟩

/-- The handler is serving a request for the completed task `ti`, and what it has read of it is
final. -/
def Serving (p : ℕ) (ti : TaskInfo) (s : StatusSystem) : Prop :=
  s.heap[p]? = some ti ∧
  (s.ipc = .found ti.id p ∨ s.ipc = .snapshot ti.id p ti.stats ∨
    (s.ipc = .reread ti.id p ti.stats ∧ ti.status = .finishedWithError) ∨
    s.ipc = .erasing ti.id p ti.stats)

theorem Serving.next {p : ℕ} {ti : TaskInfo} {s : StatusSystem} (h : Serving p ti s) :
    ∃ s', s.ipcNext = some s' := by
  obtain ⟨hget, hs | hs | ⟨hs, hfwe⟩ | hs⟩ := h
  · exact ⟨_, ipcNext_found hs hget⟩
  · exact ⟨_, ipcNext_snapshot hs hget⟩
  · exact ⟨_, ipcNext_reread hs hget hfwe⟩
  · exact ⟨_, ipcNext_erasing hs⟩

/-- Whatever the other threads do, the request goes on and ends with the final report. -/
theorem Serving.step {p : ℕ} {ti : TaskInfo} {s s' : StatusSystem} (h : Serving p ti s)
    (hterm : ti.status.terminal = true) (hstep : StatusStep s s') :
    (Serving p ti s' ∧ s'.answers = s.answers) ∨
    s'.answers = s.answers ++ [⟨ti.id, some (p, ti.stats), true⟩] := by
  obtain ⟨hget, hipc⟩ := h
  cases hstep with
  | create ti' hfree _ =>
      refine Or.inl ⟨⟨?_, hipc⟩, rfl⟩
      exact (List.getElem?_append_left (List.getElem?_eq_some_iff.mp hget).1).trans hget
  | update q hq hupd =>
      have hne : q ≠ p := by
        rintro rfl
        rw [Option.some.inj (hget.symm.trans hq), hupd.spec.1] at hterm
        cases hterm
      exact Or.inl ⟨⟨(List.getElem?_set_ne hne).trans hget, hipc⟩, rfl⟩
  | request tid hidle =>
      rw [hidle] at hipc
      simp at hipc
  | ipc hnext =>
      obtain hs | hs | ⟨hs, hfwe⟩ | hs := hipc
      · obtain rfl := Option.some.inj ((ipcNext_found hs hget).symm.trans hnext)
        exact Or.inl ⟨⟨hget, Or.inr (Or.inl rfl)⟩, rfl⟩
      · obtain rfl := Option.some.inj ((ipcNext_snapshot hs hget).symm.trans hnext)
        by_cases hfin : ti.status = .finished
        · exact Or.inl ⟨⟨hget, Or.inr (Or.inr (Or.inr (if_pos hfin)))⟩, rfl⟩
        · have hfwe := (TaskStatus.terminal_iff.mp hterm).resolve_left hfin
          exact Or.inl ⟨⟨hget, Or.inr (Or.inr (Or.inl ⟨if_neg hfin, hfwe⟩))⟩, rfl⟩
      · obtain rfl := Option.some.inj ((ipcNext_reread hs hget hfwe).symm.trans hnext)
        exact Or.inl ⟨⟨hget, Or.inr (Or.inr (Or.inr rfl))⟩, rfl⟩
      · obtain rfl := Option.some.inj ((ipcNext_erasing hs).symm.trans hnext)
        exact Or.inr rfl

/-- A request for a completed task that is in the table ends with its final report. -/
theorem serving_run {p : ℕ} {ti : TaskInfo} {s s' : StatusSystem} (h : Serving p ti s)
    (hterm : ti.status.terminal = true) (hrun : Run StatusStep s s') :
    (Serving p ti s' ∧ s'.answers = s.answers) ∨
    ∃ rest, s'.answers = s.answers ++ ⟨ti.id, some (p, ti.stats), true⟩ :: rest := by
  induction hrun with
  | refl => exact Or.inl ⟨h, rfl⟩
  | tail _ hstep ih =>
      obtain ⟨hserv, heq⟩ | ⟨rest, heq⟩ := ih
      · obtain ⟨hserv', heq'⟩ | heq' := hserv.step hterm hstep
        · exact Or.inl ⟨hserv', heq'.trans heq⟩
        · exact Or.inr ⟨[], by rw [heq', heq]⟩
      · obtain ⟨l, hl⟩ := answers_step hstep
        exact Or.inr ⟨rest ++ l, by rw [hl, heq, List.append_assoc, List.cons_append]⟩

/-! ### Completions -/

/-- **A completion is never lost** in a run in which no task completes inside the window of a
request.  A request that erases a record reports its final status; a running task is in the
table; a completed one is in the table or has been reported, exactly once; and while it is in the
table, the next request for it reports it, whatever the other threads do meanwhile. -/
theorem completion_never_lost {s : StatusSystem}
    (hrun : Run (Guarded StatusStep OutsideWindow) .init s) :
    (∀ a ∈ s.answers, a.erased = true → a.terminal = true) ∧
    (∀ p ti, s.heap[p]? = some ti → ti.status.terminal = false →
      s.table.lookup ti.id = some p ∧ s.reports p = 0) ∧
    (∀ p ti, s.heap[p]? = some ti → ti.status.terminal = true →
      (s.table.lookup ti.id = some p ∧ s.reports p = 0) ∨
      (s.table.lookup ti.id ≠ some p ∧ s.reports p = 1)) ∧
    (∀ p ti, s.heap[p]? = some ti → ti.status.terminal = true → s.table.lookup ti.id = some p →
      s.ipc = .idle → ∀ s', Run StatusStep (s.request ti.id) s' →
      (s'.answers = s.answers ∧
        ∃ s'', s'.ipcNext = some s'' ∧ s''.ipc.remaining < s'.ipc.remaining) ∨
      ∃ rest, s'.answers = s.answers ++ ⟨ti.id, some (p, ti.stats), true⟩ :: rest) := by
  have hinv := Run.invariant StatusSystem.Inv.step hrun StatusSystem.Inv.ofInit
  have hsplit : ∀ p ti, s.heap[p]? = some ti →
      (s.table.lookup ti.id = some p ∧ s.reports p = 0) ∨
      (s.table.lookup ti.id ≠ some p ∧ s.reports p = 1) := by
    intro p ti hp
    have hc := hinv.counted p ti hp
    unfold StatusSystem.bound at hc
    split_ifs at hc with hl
    · exact Or.inl ⟨hl, by omega⟩
    · exact Or.inr ⟨hl, hc⟩
  refine ⟨hinv.erasedFinal, fun p ti hp hrunning => ?_, fun p ti hp _ => hsplit p ti hp, ?_⟩
  · obtain h | ⟨-, hrep⟩ := hsplit p ti hp
    · exact h
    · rw [hinv.running p ti hp hrunning] at hrep
      cases hrep
  · intro p ti hp hterm hl hidle s' hrun'
    have hreq : s.request ti.id = { s with ipc := .found ti.id p } := by
      simp only [StatusSystem.request, hl]
    have hserv : Serving p ti (s.request ti.id) := by
      rw [hreq]
      exact ⟨hp, Or.inl rfl⟩
    have hans : (s.request ti.id).answers = s.answers := by rw [hreq]
    obtain ⟨hserv', heq⟩ | ⟨rest, heq⟩ := serving_run hserv hterm hrun'
    · obtain ⟨s'', hnext⟩ := hserv'.next
      exact Or.inl ⟨heq.trans hans, s'', hnext, remaining_ipcNext hnext⟩
    · exact Or.inr ⟨rest, heq.trans (by rw [hans])⟩

theorem outsideWindow_of_idle {s s' : StatusSystem} (h : s.ipc = .idle) : OutsideWindow s s' := by
  intro p ti ti' _ _ _ _
  rw [h]
  trivial

theorem outsideWindow_of_heap {s s' : StatusSystem} (h : s'.heap = s.heap) :
    OutsideWindow s s' := by
  intro p ti ti' hp hp' hrun hterm
  rw [h] at hp'
  rw [Option.some.inj (hp.symm.trans hp'), hterm] at hrun
  cases hrun

/-- A copy with the id 1. -/
def sampleTask : TaskInfo := .new 1 .copy false ⟨1, 0, 0⟩ none none none none 0

/-- A copy that is created, started and completed, and then asked for, has been reported once. -/
theorem completed_copy_reported : ∃ s, Run (Guarded StatusStep OutsideWindow) .init s ∧
    s.table.lookup 1 = none ∧ s.reports 0 = 1 := by
  have hrun := (((((((Relation.ReflTransGen.refl.tail (r := Guarded StatusStep OutsideWindow)
    (a := StatusSystem.init)
    ⟨.create sampleTask (by decide) rfl, outsideWindow_of_idle rfl⟩).tail
    ⟨.update 0 rfl (.start rfl), outsideWindow_of_idle rfl⟩).tail
    ⟨.update 0 rfl (.complete .finished .success 0 rfl rfl), outsideWindow_of_idle rfl⟩).tail
    ⟨.request 1 rfl, outsideWindow_of_idle rfl⟩).tail
    ⟨.ipc rfl, outsideWindow_of_heap rfl⟩).tail
    ⟨.ipc rfl, outsideWindow_of_heap rfl⟩).tail
    ⟨.ipc rfl, outsideWindow_of_heap rfl⟩)
  refine ⟨_, hrun, rfl, ?_⟩
  obtain ⟨hl, -⟩ | ⟨-, hrep⟩ := (completion_never_lost hrun).2.2.1 0 _ rfl rfl
  · exact absurd hl (by decide)
  · exact hrep

/-- The same copy, completing between the snapshot and the comparison: the request answers
`running` and erases the record, and no response ever reports the completion. -/
theorem late_completion_lost : ∃ s, Run StatusStep .init s ∧
    (∃ a ∈ s.answers, a.erased = true ∧ a.terminal = false) ∧
    (∃ ti, s.heap[0]? = some ti ∧ ti.status = .finished) ∧
    s.table.lookup 1 = none ∧ s.reports 0 = 0 := by
  have hrun := (((((((Relation.ReflTransGen.refl.tail (r := StatusStep) (a := StatusSystem.init)
    (.create sampleTask (by decide) rfl)).tail
    (.update 0 rfl (.start rfl))).tail
    (.request 1 rfl)).tail
    (.ipc rfl)).tail
    (.update 0 rfl (.complete .finished .success 0 rfl rfl))).tail
    (.ipc rfl)).tail
    (.ipc rfl))
  exact ⟨_, hrun, ⟨_, List.mem_singleton.mpr rfl, rfl, rfl⟩, ⟨_, rfl, rfl⟩, rfl, rfl⟩

/-! ### Every run

What holds without a condition on the moments of completion. -/

theorem WorkerUpdate.frame {ti ti' : TaskInfo} (h : WorkerUpdate ti ti') :
    ti'.isRemote = ti.isRemote ∧ ti'.status.active = !ti'.status.terminal ∧
      (ti'.status.active = true → ti.status.active = true) := by
  cases h with
  | start h => simp [h, TaskInfo.updateStatus, TaskStatus.terminal, TaskStatus.active]
  | record _ h => simp [h, TaskInfo.recordTransfer, TaskStatus.terminal, TaskStatus.active]
  | complete st _ _ h hst =>
      obtain rfl | rfl := TaskStatus.terminal_iff.mp hst <;>
        simp [TaskInfo.updateStatusError, TaskStatus.terminal, TaskStatus.active]

/-- What the handler knows of its record in every run: a final snapshot is still true, and a
record that is about to be erased is that of a completed task. -/
def StatusSystem.HandlerOk (s : StatusSystem) : Prop :=
  match s.ipc with
  | .idle => True
  | .found tid p => s.table.lookup tid = some p
  | .snapshot tid p st => s.table.lookup tid = some p ∧ ∃ ti, s.heap[p]? = some ti ∧
      (st.status.terminal = true → ti.status = st.status)
  | .reread tid p st => s.table.lookup tid = some p ∧ ∃ ti, s.heap[p]? = some ti ∧
      (st.status.terminal = true → ti.status = .finishedWithError)
  | .erasing tid p _ => s.table.lookup tid = some p ∧ ∃ ti, s.heap[p]? = some ti ∧
      ti.status.terminal = true

/-- The table leads to records of the right id whose final status nobody has been told, and every
active record is in it. -/
structure StatusSystem.Sound (s : StatusSystem) : Prop where
  tableOk : ∀ tid p, s.table.lookup tid = some p → ∃ ti, s.heap[p]? = some ti ∧ ti.id = tid
  handlerOk : s.HandlerOk
  defined : ∀ (p : ℕ) (ti : TaskInfo), s.heap[p]? = some ti →
    ti.status.active = !ti.status.terminal
  activeIn : ∀ p ti, s.heap[p]? = some ti → ti.status.active = true → s.table.lookup ti.id = some p
  unreported : ∀ tid p, s.table.lookup tid = some p → s.reports p = 0
  answersOld : ∀ p, s.heap.length ≤ p → s.reports p = 0

namespace StatusSystem.Sound

open StatusSystem.Inv

variable {s s' : StatusSystem}

theorem ofInit : StatusSystem.init.Sound where
  tableOk tid p h := by cases h
  handlerOk := trivial
  defined p ti h := by cases h
  activeIn p ti h := by cases h
  unreported tid p h := by cases h
  answersOld _ _ := rfl

theorem active_iff (h : s.Sound) {p : ℕ} {ti : TaskInfo} (hget : s.heap[p]? = some ti) :
    ti.status.active = true ↔ ti.status.terminal = false := by
  rw [h.defined p ti hget, Bool.not_eq_true']

/-- Two ids never lead to the same record. -/
theorem injective (h : s.Sound) {tid tid' : IotaskId} {p : ℕ} (hl : s.table.lookup tid = some p)
    (hl' : s.table.lookup tid' = some p) : tid = tid' := by
  obtain ⟨ti, hget, hid⟩ := h.tableOk tid p hl
  obtain ⟨ti', hget', hid'⟩ := h.tableOk tid' p hl'
  rw [← hid, ← hid', Option.some.inj (hget.symm.trans hget')]

theorem handlerOk_create {ti : TaskInfo} (hfree : ti.id ∉ s.table) (hok : s.HandlerOk) :
    (s.create ti).HandlerOk := by
  unfold StatusSystem.HandlerOk at hok ⊢
  rw [show (s.create ti).ipc = s.ipc from rfl]
  cases hs : s.ipc <;> rw [hs] at hok
  · trivial
  · exact lookup_create_of_some hfree hok
  all_goals
    obtain ⟨hl, ti', hp, hrest⟩ := hok
    exact ⟨lookup_create_of_some hfree hl, ti', heap_create_of_some hp, hrest⟩

theorem create (h : s.Sound) {ti : TaskInfo} (hfree : ti.id ∉ s.table)
    (hpending : ti.status = .pending) : (s.create ti).Sound := by
  refine ⟨fun tid p hl => ?_, handlerOk_create hfree h.handlerOk, fun p ti' hp => ?_,
    fun p ti' hp hact => ?_, fun tid p hl => ?_, fun p hp => ?_⟩
  · rw [lookup_create hfree] at hl
    split_ifs at hl with htid
    · obtain rfl := Option.some.inj hl
      exact ⟨ti, heap_create_self, htid.symm⟩
    · obtain ⟨ti', hp, hid⟩ := h.tableOk tid p hl
      exact ⟨ti', heap_create_of_some hp, hid⟩
  · obtain hp' | ⟨rfl, rfl⟩ := heap_create_cases hp
    · exact h.defined p ti' hp'
    · rw [hpending]
      rfl
  · obtain hp' | ⟨rfl, rfl⟩ := heap_create_cases hp
    · exact lookup_create_of_some hfree (h.activeIn p ti' hp' hact)
    · rw [lookup_create hfree, if_pos rfl]
  · rw [lookup_create hfree] at hl
    split_ifs at hl
    · obtain rfl := Option.some.inj hl
      exact h.answersOld _ le_rfl
    · exact h.unreported tid p hl
  · simp only [StatusSystem.create, List.length_append, List.length_singleton] at hp
    exact h.answersOld p (by omega)

theorem handlerOk_update {p : ℕ} {ti ti' : TaskInfo} (hget : s.heap[p]? = some ti)
    (hrun : ti.status.terminal = false) (hok : s.HandlerOk) :
    StatusSystem.HandlerOk { s with heap := s.heap.set p ti' } := by
  unfold StatusSystem.HandlerOk at hok ⊢
  dsimp only
  cases hs : s.ipc with
  | idle => trivial
  | found tid q =>
      rw [hs] at hok
      exact hok
  | snapshot tid q st =>
      rw [hs] at hok
      refine ⟨hok.1, record_update hget hok.2 fun _ hst hterm => ?_⟩
      rw [hst hterm, hterm] at hrun
      cases hrun
  | reread tid q st =>
      rw [hs] at hok
      refine ⟨hok.1, record_update hget hok.2 fun _ hst hterm => ?_⟩
      rw [hst hterm] at hrun
      cases hrun
  | erasing tid q st =>
      rw [hs] at hok
      refine ⟨hok.1, record_update hget hok.2 fun _ hterm => ?_⟩
      rw [hterm] at hrun
      cases hrun

theorem update (h : s.Sound) {p : ℕ} {ti ti' : TaskInfo} (hget : s.heap[p]? = some ti)
    (hupd : WorkerUpdate ti ti') : StatusSystem.Sound { s with heap := s.heap.set p ti' } := by
  obtain ⟨hrun, hid⟩ := hupd.spec
  refine ⟨fun tid q hl => record_update hget (h.tableOk tid q hl) fun _ => hid.trans,
    handlerOk_update hget hrun h.handlerOk, fun q tq hq => ?_, fun q tq hq hact => ?_,
    h.unreported, fun q hq => ?_⟩
  · obtain ⟨rfl, rfl⟩ | hq' := heap_set_cases hget hq
    · exact hupd.frame.2.1
    · exact h.defined q tq hq'
  · obtain ⟨rfl, rfl⟩ | hq' := heap_set_cases hget hq
    · rw [hid]
      exact h.activeIn q ti hget (hupd.frame.2.2 hact)
    · exact h.activeIn q tq hq' hact
  · rw [List.length_set] at hq
    exact h.answersOld q hq

theorem withIpc (h : s.Sound) {ipc : IpcThread}
    (hok : StatusSystem.HandlerOk { s with ipc := ipc }) :
    StatusSystem.Sound { s with ipc := ipc } :=
  ⟨h.tableOk, hok, h.defined, h.activeIn, h.unreported, h.answersOld⟩

/-- An answer that does not erase is not final. -/
theorem answer (h : s.Sound) {a : StatusAnswer} (hrep : a.terminal = false) :
    StatusSystem.Sound { s with ipc := .idle, answers := s.answers ++ [a] } := by
  have hsame : ∀ p, StatusSystem.reports { s with ipc := .idle, answers := s.answers ++ [a] } p =
      s.reports p := by
    intro p
    rw [reports_append, StatusAnswer.reports_of_not_terminal hrep]
    simp
  refine ⟨h.tableOk, trivial, h.defined, h.activeIn, fun tid p hl => ?_, fun p hp => ?_⟩
  · rw [hsame]
    exact h.unreported tid p hl
  · rw [hsame]
    exact h.answersOld p hp

/-- Whatever an erasing answer says, its record leaves the table. -/
theorem erase (h : s.Sound) {tid : IotaskId} {p : ℕ} {ti : TaskInfo} (st : TaskStats)
    (hl : s.table.lookup tid = some p) (hget : s.heap[p]? = some ti)
    (hterm : ti.status.terminal = true) :
    StatusSystem.Sound { s with table := s.table.erase tid, ipc := .idle,
                                answers := s.answers ++ [⟨tid, some (p, st), true⟩] } := by
  have hother : ∀ q, q ≠ p → StatusAnswer.reports q ⟨tid, some (p, st), true⟩ = false := by
    intro q hq
    simp [StatusAnswer.reports, Ne.symm hq]
  refine ⟨fun tid' q hq => ?_, trivial, h.defined, fun q tq hq hact => ?_, fun tid' q hq => ?_,
    fun q hq => ?_⟩
  · rw [Table.lookup_erase'] at hq
    split_ifs at hq
    exact h.tableOk tid' q hq
  · have hlq := h.activeIn q tq hq hact
    have hne : tq.id ≠ tid := by
      rintro rfl
      obtain rfl := Option.some.inj (hlq.symm.trans hl)
      obtain rfl := Option.some.inj (hq.symm.trans hget)
      rw [h.active_iff hq, hterm] at hact
      cases hact
    rw [Table.lookup_erase', if_neg hne]
    exact hlq
  · rw [Table.lookup_erase'] at hq
    split_ifs at hq with htid
    have hqp : q ≠ p := by
      rintro rfl
      exact htid (h.injective hq hl)
    rw [reports_append, hother q hqp, h.unreported tid' q hq]
    simp
  · have hqp : q ≠ p := by
      rintro rfl
      exact absurd (List.getElem?_eq_some_iff.mp hget).1 (not_lt.mpr hq)
    rw [reports_append, hother q hqp, h.answersOld q hq]
    simp

theorem request (h : s.Sound) (tid : IotaskId) (hidle : s.ipc = .idle) :
    (s.request tid).Sound := by
  unfold StatusSystem.request
  cases hl : s.table.lookup tid with
  | some p => exact h.withIpc hl
  | none =>
      have hs : ({ s with answers := s.answers ++ [⟨tid, none, false⟩] } : StatusSystem) =
          { s with ipc := .idle, answers := s.answers ++ [⟨tid, none, false⟩] } := by
        rw [← hidle]
      rw [hs]
      exact h.answer rfl

theorem ipc (h : s.Sound) (hnext : s.ipcNext = some s') : s'.Sound := by
  have hok := h.handlerOk
  unfold StatusSystem.HandlerOk at hok
  obtain ⟨tid, p, ti, hs, hget, rfl⟩ | ⟨tid, p, st, ti, hs, hget, hnext⟩ |
    ⟨tid, p, st, ti, hs, hget, hnext⟩ | ⟨tid, p, st, hs, rfl⟩ := ipcNext_cases hnext
  · rw [hs] at hok
    exact h.withIpc ⟨hok, ti, hget, fun _ => rfl⟩
  · rw [hs] at hok
    obtain ⟨hl, ti', hget', hst⟩ := hok
    obtain rfl := Option.some.inj (hget.symm.trans hget')
    obtain ⟨hfin, rfl⟩ | ⟨hfin, rfl⟩ := hnext
    · exact h.withIpc ⟨hl, ti, hget, TaskStatus.terminal_iff.mpr (Or.inl hfin)⟩
    · refine h.withIpc ⟨hl, ti, hget, fun hterm => ?_⟩
      rw [← hst hterm] at hterm
      exact (TaskStatus.terminal_iff.mp hterm).resolve_left hfin
  · rw [hs] at hok
    obtain ⟨hl, ti', hget', hst⟩ := hok
    obtain rfl := Option.some.inj (hget.symm.trans hget')
    obtain ⟨hfwe, rfl⟩ | ⟨hfwe, rfl⟩ := hnext
    · exact h.withIpc ⟨hl, ti, hget, TaskStatus.terminal_iff.mpr (Or.inr hfwe)⟩
    · exact h.answer (Bool.eq_false_iff.mpr fun hterm => hfwe (hst hterm))
  · rw [hs] at hok
    obtain ⟨hl, ti, hget, hterm⟩ := hok
    exact h.erase st hl hget hterm

theorem step (s s' : StatusSystem) (h : s.Sound) (hstep : StatusStep s s') : s'.Sound := by
  cases hstep with
  | create ti hfree hpending => exact h.create hfree hpending
  | update p hget hupd => exact h.update hget hupd
  | request tid hidle => exact h.request tid hidle
  | ipc hnext => exact h.ipc hnext

end StatusSystem.Sound

theorem request_heap (s : StatusSystem) (tid : IotaskId) : (s.request tid).heap = s.heap := by
  unfold StatusSystem.request
  cases s.table.lookup tid <;> rfl

theorem ipcNext_heap {s s' : StatusSystem} (h : s.ipcNext = some s') : s'.heap = s.heap := by
  obtain ⟨_, _, _, _, _, rfl⟩ | ⟨_, _, _, _, _, _, ⟨-, rfl⟩ | ⟨-, rfl⟩⟩ |
    ⟨_, _, _, _, _, _, ⟨-, rfl⟩ | ⟨-, rfl⟩⟩ | ⟨_, _, _, _, rfl⟩ := ipcNext_cases h
  all_goals rfl

/-- Where a record after a step comes from: it was there, it is new, or its task has written it. -/
theorem StatusStep.record {s s' : StatusSystem} (h : StatusStep s s') {p : ℕ} {ti' : TaskInfo}
    (hp : s'.heap[p]? = some ti') :
    s.heap[p]? = some ti' ∨ (s.heap[p]? = none ∧ ti'.status = .pending) ∨
    ∃ ti, s.heap[p]? = some ti ∧ WorkerUpdate ti ti' ∧ s'.table = s.table := by
  cases h with
  | create ti _ hpending =>
      obtain hp' | ⟨rfl, rfl⟩ := StatusSystem.Inv.heap_create_cases hp
      · exact Or.inl hp'
      · exact Or.inr (Or.inl ⟨List.getElem?_eq_none le_rfl, hpending⟩)
  | update q hget hupd =>
      obtain ⟨rfl, rfl⟩ | hp' := StatusSystem.Inv.heap_set_cases hget hp
      · exact Or.inr (Or.inr ⟨_, hget, hupd, rfl⟩)
      · exact Or.inl hp'
  | request tid _ =>
      rw [request_heap] at hp
      exact Or.inl hp
  | ipc hnext =>
      rw [ipcNext_heap hnext] at hp
      exact Or.inl hp

end Norns
