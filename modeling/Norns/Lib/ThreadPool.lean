import Norns.Lib.Run

/-! # Pools of threads

A queue of jobs with a flag that says whether it is valid, and workers that wait for a job, take it
out and execute it, until they are told to stop.  The queue is protected by a mutex and a
condition variable: what is done under the mutex is one step, a worker that finds the queue empty
falls asleep on the condition, and it can wake up without having been notified.

A job is executed by a relation that belongs to the user of the pool (`Jobs`); the steps of an
execution can carry labels.  The pool remembers all that has happened in a `log`.

`ThreadPool.Inv` is kept by every step.  From it: jobs leave the queue in the order in which they
have entered it; a job is waiting, being executed or done, and only one of these; and one worker
has done all that has been done for it. -/

namespace Norns.Lib

variable {J E L : Type}

/-- Where a worker is. -/
inductive Worker (J E : Type) where
  /-- it is about to look whether the pool has been stopped. -/
  | loop
  /-- it wants a job and waits for the mutex. -/
  | entering
  /-- it waits for the condition. -/
  | asleep
  /-- it executes a job. -/
  | busy (j : J) (e : E)
  /-- its thread is over. -/
  | exited

/-- What happens to a job. -/
inductive JobEvent (J L : Type) where
  | pushed (j : J)
  | popped (w : ℕ) (j : J)
  | label (w : ℕ) (j : J) (l : L)
  | ended (w : ℕ) (j : J)
deriving DecidableEq, Repr

namespace JobEvent

def job : JobEvent J L → J
  | pushed j => j
  | popped _ j => j
  | label _ j _ => j
  | ended _ j => j

def pushedJob : JobEvent J L → Option J
  | pushed j => some j
  | _ => none

def poppedJob : JobEvent J L → Option J
  | popped _ j => some j
  | _ => none

end JobEvent

/-- How jobs are executed. -/
structure Jobs (J E L : Type) where
  start : J → E
  exec : J → E → Option L → E → Prop
  final : E → Prop

/-- An execution from `e`, with its labels. -/
inductive Jobs.Execs (X : Jobs J E L) (j : J) (e : E) : List L → E → Prop
  | refl : Execs X j e [] e
  | tail {ls : List L} {l : Option L} {e' e'' : E} (h : Execs X j e ls e')
      (hexec : X.exec j e' l e'') : Execs X j e (ls ++ l.toList) e''

/-- A pool. -/
structure ThreadPool (J E L : Type) where
  items : List J
  valid : Bool
  done : Bool
  workers : List (Worker J E)
  log : List (JobEvent J L)

/-- Waking one of the workers that wait for the condition, if there is one. -/
inductive NotifyOne : List (Worker J E) → List (Worker J E) → Prop
  | none {ws : List (Worker J E)} (h : Worker.asleep ∉ ws) : NotifyOne ws ws
  | wake {ws : List (Worker J E)} (w : ℕ) (h : ws[w]? = some .asleep) :
      NotifyOne ws (ws.set w .entering)

/-- Waking all of them. -/
def notifyAll (ws : List (Worker J E)) : List (Worker J E) :=
  ws.map fun
    | .asleep => .entering
    | w => w

/-- What a step of a pool is to the outside. -/
inductive PoolAct (J E : Type) where
  | push (j : J)
  | exec (j : J) (e e' : E)
  | silent

namespace ThreadPool

/-- A pool of `n` workers. -/
def init (n : ℕ) : ThreadPool J E L := ⟨[], true, false, List.replicate n .loop, []⟩

/-- One step of a worker, of a thread that pushes or of the thread that stops the pool. -/
inductive Step (X : Jobs J E L) : ThreadPool J E L → PoolAct J E → ThreadPool J E L → Prop
  | push {s : ThreadPool J E L} (j : J) {ws : List (Worker J E)}
      (hnotify : NotifyOne s.workers ws) :
      Step X s (.push j)
        { s with items := s.items ++ [j], workers := ws, log := s.log ++ [.pushed j] }
  | test {s : ThreadPool J E L} (w : ℕ) (hw : s.workers[w]? = some .loop) :
      Step X s .silent
        { s with workers := s.workers.set w (if s.done then .exited else .entering) }
  | refuse {s : ThreadPool J E L} (w : ℕ) (hw : s.workers[w]? = some .entering)
      (hvalid : s.valid = false) : Step X s .silent { s with workers := s.workers.set w .loop }
  | sleep {s : ThreadPool J E L} (w : ℕ) (hw : s.workers[w]? = some .entering)
      (hvalid : s.valid = true) (hitems : s.items = []) :
      Step X s .silent { s with workers := s.workers.set w .asleep }
  | wake {s : ThreadPool J E L} (w : ℕ) (hw : s.workers[w]? = some .asleep) :
      Step X s .silent { s with workers := s.workers.set w .entering }
  | pop {s : ThreadPool J E L} (w : ℕ) {j : J} {rest : List J}
      (hw : s.workers[w]? = some .entering) (hvalid : s.valid = true)
      (hitems : s.items = j :: rest) :
      Step X s .silent
        { s with items := rest, workers := s.workers.set w (.busy j (X.start j)),
                 log := s.log ++ [.popped w j] }
  | exec {s : ThreadPool J E L} (w : ℕ) {j : J} {e e' : E} {l : Option L}
      (hw : s.workers[w]? = some (.busy j e)) (hexec : X.exec j e l e') :
      Step X s (.exec j e e')
        { s with workers := s.workers.set w (.busy j e'),
                 log := s.log ++ l.toList.map (.label w j) }
  | finish {s : ThreadPool J E L} (w : ℕ) {j : J} {e : E}
      (hw : s.workers[w]? = some (.busy j e)) (hfinal : X.final e) :
      Step X s .silent
        { s with workers := s.workers.set w .loop, log := s.log ++ [.ended w j] }
  | setDone {s : ThreadPool J E L} : Step X s .silent { s with done := true }
  | invalidate {s : ThreadPool J E L} (hdone : s.done = true) :
      Step X s .silent { s with valid := false, workers := notifyAll s.workers }

/-- The jobs that have entered the queue, in order. -/
def pushes (s : ThreadPool J E L) : List J := s.log.filterMap JobEvent.pushedJob

/-- The jobs that have left the queue, in order. -/
def pops (s : ThreadPool J E L) : List J := s.log.filterMap JobEvent.poppedJob

/-- What has happened to a job. -/
def history [DecidableEq J] (s : ThreadPool J E L) (j : J) : List (JobEvent J L) :=
  s.log.filter fun ev => ev.job = j

/-- Where a job can be. -/
inductive Place where
  | queued
  | executing
  | executed
deriving DecidableEq, Repr

/-- The job is at that place. -/
def At (s : ThreadPool J E L) (j : J) : Place → Prop
  | .queued => j ∈ s.items
  | .executing => ∃ (w : ℕ) (e : E), s.workers[w]? = some (.busy j e)
  | .executed => ∃ w, .ended w j ∈ s.log

/-- The history of a job that the worker `w` executes, with the labels of the execution. -/
def started (w : ℕ) (j : J) (ls : List L) : List (JobEvent J L) :=
  .pushed j :: .popped w j :: ls.map (.label w j)

/-- The workers that are busy stay busy with what they have. -/
def SameBusy (ws ws' : List (Worker J E)) : Prop :=
  ∀ (w : ℕ) (j : J) (e : E), ws'[w]? = some (.busy j e) ↔ ws[w]? = some (.busy j e)

/-- A worker without a job goes to another place without one. -/
theorem SameBusy.set {ws : List (Worker J E)} {w : ℕ} {x y : Worker J E} (hw : ws[w]? = some x)
    (hx : ∀ j e, x ≠ .busy j e) (hy : ∀ j e, y ≠ .busy j e) : SameBusy ws (ws.set w y) := by
  intro w' j e
  obtain ⟨hlt, -⟩ := List.getElem?_eq_some_iff.mp hw
  by_cases hww : w = w'
  · subst hww
    rw [List.getElem?_set_self hlt, hw]
    exact ⟨fun h => absurd (Option.some.inj h) (hy j e), fun h => absurd (Option.some.inj h) (hx j e)⟩
  · rw [List.getElem?_set_ne hww]

theorem SameBusy.notifyOne {ws ws' : List (Worker J E)} (h : NotifyOne ws ws') :
    SameBusy ws ws' := by
  cases h with
  | none _ => exact fun _ _ _ => Iff.rfl
  | wake w hw => exact .set hw (fun _ _ => by rintro ⟨⟩) (fun _ _ => by rintro ⟨⟩)

theorem SameBusy.notifyAll (ws : List (Worker J E)) : SameBusy ws (notifyAll ws) := by
  intro w j e
  rw [Lib.notifyAll, List.getElem?_map]
  cases ws[w]? with
  | none => simp
  | some x => cases x <;> simp

/-! ### Stopping and waking -/

variable {X : Jobs J E L} {s s' : ThreadPool J E L}

/-- An invalid queue stays invalid and gives no job away. -/
theorem Step.pops_of_invalid {a : PoolAct J E} (hstep : Step X s a s') (hvalid : s.valid = false) :
    s'.valid = false ∧ s'.pops = s.pops := by
  have hnone : ∀ evs : List (JobEvent J L), (∀ ev ∈ evs, ev.poppedJob = none) →
      (s.log ++ evs).filterMap JobEvent.poppedJob = s.pops := by
    intro evs hevs
    have hnil : evs.filterMap JobEvent.poppedJob = [] := List.filterMap_eq_nil_iff.mpr hevs
    rw [List.filterMap_append, hnil, List.append_nil]
    rfl
  cases hstep with
  | pop w _ hvalid' _ =>
      rw [hvalid] at hvalid'
      cases hvalid'
  | push j _ => exact ⟨hvalid, hnone _ fun ev hev => by rw [List.mem_singleton.mp hev]; rfl⟩
  | finish w _ _ => exact ⟨hvalid, hnone _ fun ev hev => by rw [List.mem_singleton.mp hev]; rfl⟩
  | exec w _ _ =>
      refine ⟨hvalid, hnone _ fun ev hev => ?_⟩
      obtain ⟨l, -, rfl⟩ := List.mem_map.mp hev
      rfl
  | invalidate _ => exact ⟨rfl, rfl⟩
  | _ => exact ⟨hvalid, rfl⟩

/-- What a push does. -/
theorem Step.push_spec {j : J} (h : Step X s (.push j) s') :
    s'.pushes = s.pushes ++ [j] ∧ s'.items = s.items ++ [j] ∧ SameBusy s.workers s'.workers := by
  cases h with
  | push _ hnotify =>
      refine ⟨?_, rfl, .notifyOne hnotify⟩
      simp only [pushes, List.filterMap_append]
      rfl

/-- What a step of an execution does. -/
theorem Step.exec_spec {j : J} {e e' : E} (h : Step X s (.exec j e e') s') :
    s'.pushes = s.pushes ∧ s'.items = s.items ∧ ∃ (w : ℕ) (l : Option L),
      s.workers[w]? = some (.busy j e) ∧ X.exec j e l e' ∧
      s'.workers = s.workers.set w (.busy j e') := by
  cases h with
  | @exec w _ _ _ l hw hexec =>
      refine ⟨?_, rfl, w, l, hw, hexec, rfl⟩
      simp only [pushes, List.filterMap_append]
      cases l <;> exact List.append_nil _

/-- What the other steps do: nothing is pushed, and a worker that is busy has been busy, or it
starts with a job of the queue. -/
theorem Step.silent_spec (h : Step X s .silent s') :
    s'.pushes = s.pushes ∧ (∀ j ∈ s'.items, j ∈ s.items) ∧
    ∀ (w : ℕ) (j : J) (e : E), s'.workers[w]? = some (.busy j e) →
      s.workers[w]? = some (.busy j e) ∨ (j ∈ s.items ∧ e = X.start j) := by
  have hmove : ∀ {w : ℕ} {x y : Worker J E}, s.workers[w]? = some x → (∀ j e, y ≠ .busy j e) →
      ∀ (w' : ℕ) (j : J) (e : E), (s.workers.set w y)[w']? = some (.busy j e) →
        s.workers[w']? = some (.busy j e) := by
    intro w x y hw hy w' j e hw'
    by_cases hww : w = w'
    · subst hww
      rw [List.getElem?_set_self (List.getElem?_eq_some_iff.mp hw).1] at hw'
      exact absurd (Option.some.inj hw') (hy j e)
    · rwa [List.getElem?_set_ne hww] at hw'
  cases h with
  | test w hw =>
      refine ⟨rfl, fun _ hj => hj, fun w' j e hw' => Or.inl (hmove hw ?_ w' j e hw')⟩
      split_ifs <;> rintro _ _ ⟨⟩
  | refuse w hw _ =>
      exact ⟨rfl, fun _ hj => hj, fun w' j e hw' => Or.inl (hmove hw (by rintro _ _ ⟨⟩) w' j e hw')⟩
  | sleep w hw _ _ =>
      exact ⟨rfl, fun _ hj => hj, fun w' j e hw' => Or.inl (hmove hw (by rintro _ _ ⟨⟩) w' j e hw')⟩
  | wake w hw =>
      exact ⟨rfl, fun _ hj => hj, fun w' j e hw' => Or.inl (hmove hw (by rintro _ _ ⟨⟩) w' j e hw')⟩
  | setDone => exact ⟨rfl, fun _ hj => hj, fun w j e hw => Or.inl hw⟩
  | invalidate _ =>
      exact ⟨rfl, fun _ hj => hj, fun w j e hw => Or.inl ((SameBusy.notifyAll _ w j e).mp hw)⟩
  | finish w hw _ =>
      refine ⟨?_, fun _ hj => hj, fun w' j e hw' => Or.inl (hmove hw (by rintro _ _ ⟨⟩) w' j e hw')⟩
      simp only [pushes, List.filterMap_append]
      exact List.append_nil _
  | @pop w j rest hw _ hitems =>
      refine ⟨?_, fun j' hj' => ?_, fun w' j' e hw' => ?_⟩
      · simp only [pushes, List.filterMap_append]
        exact List.append_nil _
      · rw [hitems]
        exact List.mem_cons_of_mem _ hj'
      · by_cases hww : w = w'
        · subst hww
          rw [List.getElem?_set_self (List.getElem?_eq_some_iff.mp hw).1] at hw'
          cases hw'
          refine Or.inr ⟨?_, rfl⟩
          rw [hitems]
          exact List.mem_cons_self
        · rw [List.getElem?_set_ne hww] at hw'
          exact Or.inl hw'

/-- As long as the pool has not been stopped, its threads are there, and they do not all sleep while
a job is waiting. -/
structure Awake (s : ThreadPool J E L) : Prop where
  workers : s.workers ≠ []
  alive : s.done = false → s.valid = true ∧ Worker.exited ∉ s.workers
  awake : s.done = false → s.items ≠ [] → ∃ x ∈ s.workers, x ≠ .asleep

theorem Awake.ofInit {n : ℕ} (hn : 1 ≤ n) : (init n : ThreadPool J E L).Awake := by
  refine ⟨?_, fun _ => ⟨rfl, fun hmem => ?_⟩, fun _ hitems => absurd rfl hitems⟩
  · intro hnil
    have hlen : n = 0 := by simpa [init] using hnil
    omega
  · cases (List.mem_replicate.mp hmem).2

/-- A worker goes to another place; while the pool has not been stopped, it neither exits nor
sleeps. -/
theorem Awake.set (h : s.Awake) {w : ℕ} {x y : Worker J E} (hw : s.workers[w]? = some x)
    (hy : s.done = false → y ≠ .exited ∧ y ≠ .asleep) {items : List J}
    {log : List (JobEvent J L)} :
    Awake { s with items := items, workers := s.workers.set w y, log := log } := by
  obtain ⟨hlt, -⟩ := List.getElem?_eq_some_iff.mp hw
  refine ⟨?_, fun hdone => ⟨(h.alive hdone).1, fun hmem => ?_⟩, fun hdone _ => ?_⟩
  · exact fun hnil => h.workers (by simpa using hnil)
  · obtain hmem | heq := List.mem_or_eq_of_mem_set hmem
    · exact (h.alive hdone).2 hmem
    · exact (hy hdone).1 heq.symm
  · exact ⟨y, List.mem_set hlt y, (hy hdone).2⟩

theorem Awake.step (h : s.Awake) {a : PoolAct J E} (hstep : Step X s a s') : s'.Awake := by
  cases hstep with
  | @push j ws hnotify =>
      cases hnotify with
      | none hnone =>
          refine ⟨h.workers, h.alive, fun _ _ => ?_⟩
          obtain ⟨x, hx⟩ := List.exists_mem_of_ne_nil _ h.workers
          refine ⟨x, hx, ?_⟩
          rintro rfl
          exact hnone hx
      | wake w hw => exact h.set hw fun _ => ⟨by rintro ⟨⟩, by rintro ⟨⟩⟩
  | test w hw =>
      refine h.set hw fun hdone => ?_
      rw [if_neg (by simp [hdone])]
      exact ⟨by rintro ⟨⟩, by rintro ⟨⟩⟩
  | refuse w hw _ => exact h.set hw fun _ => ⟨by rintro ⟨⟩, by rintro ⟨⟩⟩
  | wake w hw => exact h.set hw fun _ => ⟨by rintro ⟨⟩, by rintro ⟨⟩⟩
  | pop w hw _ _ => exact h.set hw fun _ => ⟨by rintro ⟨⟩, by rintro ⟨⟩⟩
  | exec w hw _ => exact h.set hw fun _ => ⟨by rintro ⟨⟩, by rintro ⟨⟩⟩
  | finish w hw _ => exact h.set hw fun _ => ⟨by rintro ⟨⟩, by rintro ⟨⟩⟩
  | sleep w hw _ hitems =>
      refine ⟨fun hnil => h.workers (by simpa using hnil), fun hdone => ⟨(h.alive hdone).1, ?_⟩,
        fun _ hne => absurd hitems hne⟩
      intro hmem
      obtain hmem | heq := List.mem_or_eq_of_mem_set hmem
      · exact (h.alive hdone).2 hmem
      · cases heq
  | setDone => exact ⟨h.workers, fun hdone => (by cases hdone), fun hdone => (by cases hdone)⟩
  | invalidate hdone =>
      refine ⟨fun hnil => h.workers (by simpa [notifyAll] using hnil), fun hdone' => ?_,
        fun hdone' => ?_⟩
      · cases hdone.symm.trans hdone'
      · cases hdone.symm.trans hdone'

/-- An invalid queue belongs to a pool that has been told to stop, and nobody waits for its
condition. -/
def Unblocked (s : ThreadPool J E L) : Prop :=
  s.valid = false → s.done = true ∧ Worker.asleep ∉ s.workers

theorem Unblocked.ofInit (n : ℕ) : (init n : ThreadPool J E L).Unblocked := by
  rintro ⟨⟩

/-- A worker goes to another place, and does not fall asleep. -/
theorem Unblocked.set (h : s.Unblocked) (w : ℕ) {y : Worker J E} (hy : y ≠ .asleep)
    {items : List J} {log : List (JobEvent J L)} :
    Unblocked { s with items := items, workers := s.workers.set w y, log := log } := by
  intro hvalid
  obtain ⟨hdone, hawake⟩ := h hvalid
  refine ⟨hdone, fun hmem => ?_⟩
  obtain hmem | heq := List.mem_or_eq_of_mem_set hmem
  · exact hawake hmem
  · exact hy heq.symm

theorem Unblocked.step (h : s.Unblocked) {a : PoolAct J E} (hstep : Step X s a s') :
    s'.Unblocked := by
  cases hstep with
  | @push j ws hnotify =>
      cases hnotify with
      | none _ => exact h
      | wake w _ => exact h.set w (by rintro ⟨⟩)
  | test w _ =>
      refine h.set w ?_
      split_ifs <;> rintro ⟨⟩
  | refuse w _ _ => exact h.set w (by rintro ⟨⟩)
  | sleep w _ hvalid _ =>
      intro hinvalid
      cases hvalid.symm.trans hinvalid
  | wake w _ => exact h.set w (by rintro ⟨⟩)
  | pop w _ _ _ => exact h.set w (by rintro ⟨⟩)
  | exec w _ _ => exact h.set w (by rintro ⟨⟩)
  | finish w _ _ => exact h.set w (by rintro ⟨⟩)
  | setDone => exact fun hvalid => ⟨rfl, (h hvalid).2⟩
  | invalidate hdone =>
      refine fun _ => ⟨hdone, fun hmem => ?_⟩
      obtain ⟨x, -, hx⟩ := List.mem_map.mp hmem
      cases x <;> cases hx

/-! ### The invariant -/

variable [DecidableEq J]

/-- Every job is at one place, and its history is the one of that place. -/
structure Inv (X : Jobs J E L) (s : ThreadPool J E L) : Prop where
  fifo : s.pushes = s.pops ++ s.items
  nodup : s.pushes.Nodup
  known : ∀ ev ∈ s.log, ev.job ∈ s.pushes
  queued : ∀ j ∈ s.items, s.history j = [.pushed j]
  busy : ∀ (w : ℕ) (j : J) (e : E), s.workers[w]? = some (.busy j e) →
    ∃ ls, s.history j = started w j ls ∧ X.Execs j (X.start j) ls e
  placed : ∀ j ∈ s.pops, (∃ (w : ℕ) (e : E), s.workers[w]? = some (.busy j e)) ∨
    ∃ w ls e, s.history j = started w j ls ++ [.ended w j] ∧ X.Execs j (X.start j) ls e ∧
      X.final e

theorem Inv.ofInit (n : ℕ) : (init n : ThreadPool J E L).Inv X := by
  refine ⟨rfl, List.nodup_nil, ?_, ?_, fun w j e hw => ?_, ?_⟩
  · exact fun ev hev => absurd hev List.not_mem_nil
  · exact fun j hj => absurd hj List.not_mem_nil
  · obtain ⟨hlt, hget⟩ := List.getElem?_eq_some_iff.mp hw
    simp [init] at hget
  · exact fun j hj => absurd hj List.not_mem_nil

/-- Steps that only move workers without a job. -/
theorem Inv.withWorkers (h : s.Inv X) {ws : List (Worker J E)} (hws : SameBusy s.workers ws)
    {valid done : Bool} : Inv X { s with workers := ws, valid := valid, done := done } where
  fifo := h.fifo
  nodup := h.nodup
  known := h.known
  queued := h.queued
  busy w j e hw := h.busy w j e ((hws w j e).mp hw)
  placed j hj := by
    obtain ⟨w, e, hw⟩ | hended := h.placed j hj
    · exact Or.inl ⟨w, e, (hws w j e).mpr hw⟩
    · exact Or.inr hended

/-- Two workers do not have the same job. -/
theorem Inv.worker_unique (h : s.Inv X) {w w' : ℕ} {j : J} {e e' : E}
    (hw : s.workers[w]? = some (.busy j e)) (hw' : s.workers[w']? = some (.busy j e')) :
    w = w' := by
  obtain ⟨ls, hls, -⟩ := h.busy w j e hw
  obtain ⟨ls', hls', -⟩ := h.busy w' j e' hw'
  have heq := hls.symm.trans hls'
  simp only [started, List.cons.injEq, JobEvent.popped.injEq] at heq
  exact heq.2.1.1

/-- The history of a job after events of another one. -/
theorem filter_job_of_ne {log evs : List (JobEvent J L)} {j j' : J} (hj : j' ≠ j)
    (hevs : ∀ ev ∈ evs, ev.job = j) :
    (log ++ evs).filter (fun ev => ev.job = j') = log.filter (fun ev => ev.job = j') := by
  have hnone : evs.filter (fun ev => ev.job = j') = [] := by
    rw [List.filter_eq_nil_iff]
    intro ev hev
    rw [hevs ev hev]
    simp [Ne.symm hj]
  rw [List.filter_append, hnone, List.append_nil]

/-- The history of a job after events of its own. -/
theorem filter_job_of_eq {log evs : List (JobEvent J L)} {j : J} (hevs : ∀ ev ∈ evs, ev.job = j) :
    (log ++ evs).filter (fun ev => ev.job = j) = log.filter (fun ev => ev.job = j) ++ evs := by
  have hall : evs.filter (fun ev => ev.job = j) = evs := by
    rw [List.filter_eq_self]
    intro ev hev
    simp [hevs ev hev]
  rw [List.filter_append, hall]

/-- A job without a push has no history. -/
theorem Inv.history_eq_nil (h : s.Inv X) {j : J} (hj : j ∉ s.pushes) : s.history j = [] := by
  unfold history
  rw [List.filter_eq_nil_iff]
  intro ev hev heq
  have hjob : ev.job = j := by simpa using heq
  exact hj (hjob ▸ h.known ev hev)

theorem Inv.mem_pushes_of_history (h : s.Inv X) {j : J} {ev : JobEvent J L}
    {evs : List (JobEvent J L)} (hj : s.history j = ev :: evs) : j ∈ s.pushes := by
  by_contra hnot
  rw [h.history_eq_nil hnot] at hj
  cases hj

theorem Inv.mem_pushes_of_busy (h : s.Inv X) {w : ℕ} {j : J} {e : E}
    (hw : s.workers[w]? = some (.busy j e)) : j ∈ s.pushes := by
  obtain ⟨ls, hls, -⟩ := h.busy w j e hw
  exact h.mem_pushes_of_history hls

theorem Inv.mem_pushes_of_pops (h : s.Inv X) {j : J} (hj : j ∈ s.pops) : j ∈ s.pushes := by
  rw [h.fifo]
  exact List.mem_append_left _ hj

theorem Inv.mem_pushes_of_items (h : s.Inv X) {j : J} (hj : j ∈ s.items) : j ∈ s.pushes := by
  rw [h.fifo]
  exact List.mem_append_right _ hj

/-- A job enters the queue. -/
theorem Inv.push (h : s.Inv X) {j : J} (hnew : j ∉ s.pushes) {ws : List (Worker J E)}
    (hws : SameBusy s.workers ws) :
    Inv X { s with items := s.items ++ [j], workers := ws, log := s.log ++ [.pushed j] } := by
  have hpushes : (s.log ++ [JobEvent.pushed j]).filterMap JobEvent.pushedJob = s.pushes ++ [j] := by
    rw [List.filterMap_append]
    rfl
  have hpops : (s.log ++ [JobEvent.pushed j]).filterMap JobEvent.poppedJob = s.pops := by
    rw [List.filterMap_append]
    exact List.append_nil _
  have hhistory : ∀ j' ∈ s.pushes,
      (s.log ++ [JobEvent.pushed j]).filter (fun ev => ev.job = j') = s.history j' := by
    intro j' hj'
    have hne : j' ≠ j := fun heq => hnew (heq ▸ hj')
    refine filter_job_of_ne hne fun ev hev => ?_
    rw [List.mem_singleton.mp hev]
    rfl
  refine ⟨?_, ?_, fun ev hev => ?_, fun j' hj' => ?_, fun w j' e hw => ?_, fun j' hj' => ?_⟩
  · show List.filterMap _ _ = List.filterMap _ _ ++ _
    rw [hpushes, hpops, h.fifo, List.append_assoc]
  · show (List.filterMap _ _).Nodup
    rw [hpushes]
    exact h.nodup.append (List.nodup_singleton j) (by simpa using hnew)
  · show ev.job ∈ List.filterMap _ _
    rw [hpushes]
    obtain hev | hev := List.mem_append.mp hev
    · exact List.mem_append_left _ (h.known ev hev)
    · rw [List.mem_singleton.mp hev]
      exact List.mem_append_right _ (List.mem_singleton_self j)
  · obtain hj' | hj' := List.mem_append.mp hj'
    · exact (hhistory j' (h.mem_pushes_of_items hj')).trans (h.queued j' hj')
    · obtain rfl := List.mem_singleton.mp hj'
      refine (filter_job_of_eq fun ev hev => ?_).trans ?_
      · rw [List.mem_singleton.mp hev]
        rfl
      · have hnil := h.history_eq_nil hnew
        unfold history at hnil
        rw [hnil]
        rfl
  · have hw' := (hws w j' e).mp hw
    obtain ⟨ls, hls, hexecs⟩ := h.busy w j' e hw'
    exact ⟨ls, (hhistory j' (h.mem_pushes_of_busy hw')).trans hls, hexecs⟩
  · have hj : j' ∈ s.pops := by
      have hj'' : j' ∈ List.filterMap _ _ := hj'
      rwa [hpops] at hj''
    obtain ⟨w, e, hw⟩ | ⟨w, ls, e, hls, hrest⟩ := h.placed j' hj
    · exact Or.inl ⟨w, e, (hws w j' e).mpr hw⟩
    · exact Or.inr ⟨w, ls, e, (hhistory j' (h.mem_pushes_of_pops hj)).trans hls, hrest⟩

/-- The worker `w` takes the job `j` a step further, or takes it up, or is done with it. -/
theorem Inv.advance (h : s.Inv X) {w : ℕ} {j : J} {evs : List (JobEvent J L)} {items : List J}
    {x y : Worker J E} (hj : j ∈ s.pushes) (hw : s.workers[w]? = some x)
    (hx : ∀ j' e, x = .busy j' e → j' = j)
    (hother : ∀ (w' : ℕ) (e : E), s.workers[w']? = some (.busy j e) → w = w')
    (hevs : ∀ ev ∈ evs, ev.job = j ∧ ev.pushedJob = none)
    (hitems : s.items = evs.filterMap JobEvent.poppedJob ++ items) (hqueued : j ∉ items)
    (hbusy : ∀ j' e, y = .busy j' e →
      j' = j ∧ ∃ ls, s.history j ++ evs = started w j ls ∧ X.Execs j (X.start j) ls e)
    (hplaced : (∃ e, y = .busy j e) ∨ ∃ ls e, s.history j ++ evs = started w j ls ++ [.ended w j] ∧
      X.Execs j (X.start j) ls e ∧ X.final e) :
    Inv X { s with items := items, workers := s.workers.set w y, log := s.log ++ evs } := by
  obtain ⟨hlt, -⟩ := List.getElem?_eq_some_iff.mp hw
  have hpushes : (s.log ++ evs).filterMap JobEvent.pushedJob = s.pushes := by
    have hnone : evs.filterMap JobEvent.pushedJob = [] := by
      rw [List.filterMap_eq_nil_iff]
      exact fun ev hev => (hevs ev hev).2
    rw [List.filterMap_append, hnone, List.append_nil]
    rfl
  have hpops : (s.log ++ evs).filterMap JobEvent.poppedJob =
      s.pops ++ evs.filterMap JobEvent.poppedJob := List.filterMap_append
  have hown : (s.log ++ evs).filter (fun ev => ev.job = j) = s.history j ++ evs :=
    filter_job_of_eq fun ev hev => (hevs ev hev).1
  have hhistory : ∀ j' ≠ j, (s.log ++ evs).filter (fun ev => ev.job = j') = s.history j' :=
    fun j' hne => filter_job_of_ne hne fun ev hev => (hevs ev hev).1
  refine ⟨?_, ?_, fun ev hev => ?_, fun j' hj' => ?_, fun w' j' e hw' => ?_, fun j' hj' => ?_⟩
  · show List.filterMap _ _ = List.filterMap _ _ ++ _
    rw [hpushes, hpops, h.fifo, hitems, List.append_assoc]
  · show (List.filterMap _ _).Nodup
    rw [hpushes]
    exact h.nodup
  · show ev.job ∈ List.filterMap _ _
    rw [hpushes]
    obtain hev | hev := List.mem_append.mp hev
    · exact h.known ev hev
    · rw [(hevs ev hev).1]
      exact hj
  · have hne : j' ≠ j := fun heq => hqueued (heq ▸ hj')
    have hold : j' ∈ s.items := by
      rw [hitems]
      exact List.mem_append_right _ hj'
    exact (hhistory j' hne).trans (h.queued j' hold)
  · by_cases hww : w = w'
    · subst hww
      rw [List.getElem?_set_self hlt] at hw'
      obtain ⟨rfl, ls, hls, hexecs⟩ := hbusy j' e (Option.some.inj hw')
      exact ⟨ls, hown.trans hls, hexecs⟩
    · rw [List.getElem?_set_ne hww] at hw'
      have hne : j' ≠ j := by
        rintro rfl
        exact hww (hother w' e hw')
      obtain ⟨ls, hls, hexecs⟩ := h.busy w' j' e hw'
      exact ⟨ls, (hhistory j' hne).trans hls, hexecs⟩
  · by_cases hne : j' = j
    · subst hne
      obtain ⟨e, rfl⟩ | ⟨ls, e, hls, hrest⟩ := hplaced
      · exact Or.inl ⟨w, e, List.getElem?_set_self hlt⟩
      · exact Or.inr ⟨w, ls, e, hown.trans hls, hrest⟩
    · have hpop : j' ∈ s.pops := by
        have hj'' : j' ∈ List.filterMap _ _ := hj'
        rw [hpops] at hj''
        obtain hold | hnew := List.mem_append.mp hj''
        · exact hold
        · obtain ⟨ev, hev, hjob⟩ := List.mem_filterMap.mp hnew
          have hjob' : ev.job = j' := by
            cases ev <;> cases hjob
            rfl
          exact absurd (hjob'.symm.trans (hevs ev hev).1) hne
      obtain ⟨w', e, hw'⟩ | ⟨w', ls, e, hls, hrest⟩ := h.placed j' hpop
      · refine Or.inl ⟨w', e, ?_⟩
        have hww : w ≠ w' := by
          rintro rfl
          exact hne (hx j' e (Option.some.inj (hw.symm.trans hw')))
        rw [List.getElem?_set_ne hww]
        exact hw'
      · exact Or.inr ⟨w', ls, e, (hhistory j' hne).trans hls, hrest⟩

/-- Every step keeps the invariant, if no job is pushed twice. -/
theorem Inv.step (h : s.Inv X) {a : PoolAct J E} (hnew : ∀ j, a = .push j → j ∉ s.pushes)
    (hstep : Step X s a s') : s'.Inv X := by
  cases hstep with
  | push j hnotify => exact h.push (hnew j rfl) (.notifyOne hnotify)
  | test w hw =>
      refine h.withWorkers (.set hw (fun _ _ => by rintro ⟨⟩) fun _ _ => ?_)
      split_ifs <;> rintro ⟨⟩
  | refuse w hw _ =>
      exact h.withWorkers (.set hw (fun _ _ => by rintro ⟨⟩) fun _ _ => by rintro ⟨⟩)
  | sleep w hw _ _ =>
      exact h.withWorkers (.set hw (fun _ _ => by rintro ⟨⟩) fun _ _ => by rintro ⟨⟩)
  | wake w hw =>
      exact h.withWorkers (.set hw (fun _ _ => by rintro ⟨⟩) fun _ _ => by rintro ⟨⟩)
  | setDone => exact h.withWorkers fun _ _ _ => Iff.rfl
  | invalidate _ => exact h.withWorkers (.notifyAll _)
  | @pop w j rest hw _ hitems =>
      have hj : j ∈ s.items := by
        rw [hitems]
        exact List.mem_cons_self
      have hidle : ∀ (w' : ℕ) (e : E), s.workers[w']? ≠ some (.busy j e) := by
        intro w' e hw'
        obtain ⟨ls, hls, -⟩ := h.busy w' j e hw'
        have heq := (h.queued j hj).symm.trans hls
        simp [started] at heq
      have hrest : j ∉ rest := by
        have hnodup := h.nodup
        rw [h.fifo, hitems] at hnodup
        exact (List.nodup_cons.mp (List.Nodup.of_append_right hnodup)).1
      refine h.advance (h.mem_pushes_of_items hj) hw (by rintro _ _ ⟨⟩)
        (fun w' e hw' => absurd hw' (hidle w' e)) ?_ hitems hrest ?_ (Or.inl ⟨_, rfl⟩)
      · intro ev hev
        rw [List.mem_singleton.mp hev]
        exact ⟨rfl, rfl⟩
      · rintro j' e ⟨⟩
        refine ⟨rfl, [], ?_, .refl⟩
        rw [h.queued j hj]
        rfl
  | @exec w j e e' l hw hexec =>
      obtain ⟨ls, hls, hexecs⟩ := h.busy w j e hw
      refine h.advance (h.mem_pushes_of_busy hw) hw (by rintro _ _ ⟨⟩; rfl)
        (fun w' e hw' => h.worker_unique hw hw') ?_ ?_ ?_ ?_ (Or.inl ⟨_, rfl⟩)
      · intro ev hev
        obtain ⟨l', -, rfl⟩ := List.mem_map.mp hev
        exact ⟨rfl, rfl⟩
      · cases l <;> rfl
      · intro hmem
        have heq := (h.queued j hmem).symm.trans hls
        simp [started] at heq
      · rintro j' e ⟨⟩
        refine ⟨rfl, ls ++ l.toList, ?_, hexecs.tail hexec⟩
        rw [hls, started, started, List.map_append]
        rfl
  | @finish w j e hw hfinal =>
      obtain ⟨ls, hls, hexecs⟩ := h.busy w j e hw
      refine h.advance (h.mem_pushes_of_busy hw) hw (by rintro _ _ ⟨⟩; rfl)
        (fun w' e hw' => h.worker_unique hw hw') ?_ rfl ?_ (by rintro _ _ ⟨⟩)
        (Or.inr ⟨ls, e, by rw [hls], hexecs, hfinal⟩)
      · intro ev hev
        rw [List.mem_singleton.mp hev]
        exact ⟨rfl, rfl⟩
      · intro hmem
        have heq := (h.queued j hmem).symm.trans hls
        simp [started] at heq

/-! ### What follows -/

/-- Jobs leave the queue in the order in which they have entered it. -/
theorem Inv.pops_prefix (h : s.Inv X) : s.pops <+: s.pushes := ⟨s.items, h.fifo.symm⟩

/-- No job leaves it twice. -/
theorem Inv.pops_nodup (h : s.Inv X) : s.pops.Nodup := h.nodup.sublist h.pops_prefix.sublist

/-- A job that is done has the whole history. -/
theorem Inv.history_of_ended (h : s.Inv X) {w : ℕ} {j : J} (hend : .ended w j ∈ s.log) :
    ∃ ls e, s.history j = started w j ls ++ [.ended w j] ∧ X.Execs j (X.start j) ls e ∧
      X.final e := by
  have hmem : .ended w j ∈ s.history j := List.mem_filter.mpr ⟨hend, by simp [JobEvent.job]⟩
  have hnot : ∀ w' ls, JobEvent.ended w j ∉ (started w' j ls : List (JobEvent J L)) := by
    intro w' ls
    simp [started]
  have hj : j ∈ s.pushes := h.known _ hend
  rw [h.fifo] at hj
  obtain hj | hj := List.mem_append.mp hj
  · obtain ⟨w', e, hw'⟩ | ⟨w', ls, e, hls, hrest⟩ := h.placed j hj
    · obtain ⟨ls, hls, -⟩ := h.busy w' j e hw'
      rw [hls] at hmem
      exact absurd hmem (hnot w' ls)
    · rw [hls] at hmem
      obtain hmem | hmem := List.mem_append.mp hmem
      · exact absurd hmem (hnot w' ls)
      · cases List.mem_singleton.mp hmem
        exact ⟨ls, e, hls, hrest⟩
  · rw [h.queued j hj] at hmem
    cases List.mem_singleton.mp hmem

/-- A job that has been pushed is at exactly one place. -/
theorem Inv.existsUnique_place (h : s.Inv X) {j : J} (hj : j ∈ s.pushes) :
    ∃! p, s.At j p := by
  -- the histories of the three places are different
  have hqb : s.At j .queued → ¬ s.At j .executing := by
    rintro hq ⟨w, e, hw⟩
    obtain ⟨ls, hls, -⟩ := h.busy w j e hw
    have heq := (h.queued j hq).symm.trans hls
    simp [started] at heq
  have hqe : s.At j .queued → ¬ s.At j .executed := by
    rintro hq ⟨w, hend⟩
    obtain ⟨ls, e, hls, -⟩ := h.history_of_ended hend
    have heq := (h.queued j hq).symm.trans hls
    simp [started] at heq
  have hbe : s.At j .executing → ¬ s.At j .executed := by
    rintro ⟨w, e, hw⟩ ⟨w', hend⟩
    obtain ⟨ls, hls, -⟩ := h.busy w j e hw
    have hmem : .ended w' j ∈ s.history j := List.mem_filter.mpr ⟨hend, by simp [JobEvent.job]⟩
    rw [hls] at hmem
    simp [started] at hmem
  have hsome : s.At j .queued ∨ s.At j .executing ∨ s.At j .executed := by
    rw [h.fifo] at hj
    obtain hj | hj := List.mem_append.mp hj
    · obtain hbusy | ⟨w, ls, e, hls, -⟩ := h.placed j hj
      · exact Or.inr (Or.inl hbusy)
      · refine Or.inr (Or.inr ⟨w, ?_⟩)
        have hmem : .ended w j ∈ s.history j := by
          rw [hls]
          exact List.mem_append_right _ (List.mem_singleton_self _)
        exact (List.mem_filter.mp hmem).1
    · exact Or.inl hj
  obtain hat | hat | hat := hsome
  · refine ⟨.queued, hat, fun p hp => ?_⟩
    cases p with
    | queued => rfl
    | executing => exact absurd hp (hqb hat)
    | executed => exact absurd hp (hqe hat)
  · refine ⟨.executing, hat, fun p hp => ?_⟩
    cases p with
    | queued => exact absurd hat (hqb hp)
    | executing => rfl
    | executed => exact absurd hp (hbe hat)
  · refine ⟨.executed, hat, fun p hp => ?_⟩
    cases p with
    | queued => exact absurd hat (hqe hp)
    | executing => exact absurd hat (hbe hp)
    | executed => rfl

end ThreadPool

end Norns.Lib
