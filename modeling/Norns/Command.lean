import Norns.Urd

/-! # Commands

`urd::command_handler` serves PING, PAUSE_LISTEN, RESUME_LISTEN and SHUTDOWN.  A shutdown pauses
the daemon while it looks for active tasks and non-empty namespaces, and if it finds any it
resumes the daemon, whether or not it had been paused before.

`refused_shutdown_iff` is about sequences of commands with any other activity of the daemon in
between: refused shutdowns leave no trace exactly if the daemon is never paused when a shutdown
finds it busy. -/

namespace Norns

open Lib

/-- `urd::pause_listening`. -/
def Urd.pauseListening (u : Urd) : Urd := { u with isPaused := true }

/-- `urd::resume_listening`. -/
def Urd.resumeListening (u : Urd) : Urd := { u with isPaused := false }

/-- `urd::command_handler`: the daemon afterwards and the error code of the response.  The
`shutdown()` that follows an accepted SHUTDOWN stops the event loops and changes none of the
members here. -/
def Urd.commandHandler (u : Urd) (isEmpty : Backend → Bool) (cmd : CommandType) :
    Urd × UrdError :=
  match cmd with
  | .ping => (u, .success)
  | .pauseListen => (u.pauseListening, .success)
  | .resumeListen => (u.resumeListening, .success)
  | .shutdown =>
      let u := u.pauseListening
      let rv := checkShutdown u.taskMgr u.namespaceMgr isEmpty
      if rv ≠ .success then (u.resumeListening, rv) else (u, rv)
  | .unknown => (u, .badArgs)

/-- A SHUTDOWN asks a backend whose `is_empty` throws: without an active task, it asks every
tracked one. -/
def Urd.shutdownThrows (u : Urd) (throws : Backend → Bool) (cmd : CommandType) : Bool :=
  decide (cmd = .shutdown) && decide (u.taskMgr.countIf (fun ti => ti.status.active) = 0) &&
    decide (0 < u.namespaceMgr.countIf fun b => b.isTracked && throws b)

/-- What happens to the daemon: a command, or anything else, which can change every member but
the flag. -/
inductive DaemonEvent where
  | command (isEmpty : Backend → Bool) (cmd : CommandType)
  | other (namespaceMgr : NamespaceManager) (taskMgr : TaskManager) (runners : List GenericTask)

/-- The daemon after an event. -/
def Urd.serve (u : Urd) : DaemonEvent → Urd
  | .command isEmpty cmd => (u.commandHandler isEmpty cmd).1
  | .other namespaceMgr taskMgr runners => ⟨u.isPaused, namespaceMgr, taskMgr, runners⟩

/-- The daemon after a sequence of events. -/
def Urd.serveAll (u : Urd) (evs : List DaemonEvent) : Urd := evs.foldl Urd.serve u

/-- The event is a SHUTDOWN that the daemon answers with an error. -/
def Urd.Refuses (u : Urd) (ev : DaemonEvent) : Prop :=
  ∃ isEmpty, ev = .command isEmpty .shutdown ∧ (u.commandHandler isEmpty .shutdown).2 ≠ .success

/-- There is an active task, or a tracked namespace that is not empty. -/
def Urd.Busy (u : Urd) (isEmpty : Backend → Bool) : Prop :=
  0 < u.taskMgr.countIf (fun ti => ti.status.active) ∨
    0 < u.namespaceMgr.countIf (fun b => b.isTracked && !isEmpty b)

/-- Whether the last command with an effect was a pause, `last` being the answer before the
event.  An accepted shutdown pauses the daemon for good. -/
def Urd.effect (u : Urd) (last : Bool) : DaemonEvent → Bool
  | .command _ .pauseListen => true
  | .command _ .resumeListen => false
  | .command isEmpty .shutdown =>
      if (u.commandHandler isEmpty .shutdown).2 = .success then true else last
  | _ => last

/-- Whether the last command with an effect in a sequence was a pause.  Before the first one the
flag of the daemon counts. -/
def Urd.lastPause (u : Urd) (evs : List DaemonEvent) : Bool :=
  (evs.foldl (fun (s : Urd × Bool) ev => (s.1.serve ev, s.1.effect s.2 ev)) (u, u.isPaused)).2

/-- New tasks are turned away, whatever is submitted. -/
def Urd.RejectsTasks (u : Urd) : Prop :=
  ∀ creds type src dst size,
    u.iotaskCreateHandler creds type src dst size = .ok (u, .acceptPaused, 0)

/-- The flag and the two tables are the same. -/
def Urd.SameState (u v : Urd) : Prop :=
  u.isPaused = v.isPaused ∧ u.taskMgr = v.taskMgr ∧ u.namespaceMgr = v.namespaceMgr

theorem Urd.rejectsTasks_iff (u : Urd) : u.RejectsTasks ↔ u.isPaused = true := by
  constructor
  · intro h
    by_contra hpaused
    -- without credentials the answer would be another error
    have hsnafu := h none .noop none none 0
    unfold Urd.iotaskCreateHandler at hsnafu
    rw [if_neg hpaused] at hsnafu
    cases hsnafu
  · intro hpaused creds type src dst size
    unfold Urd.iotaskCreateHandler
    rw [if_pos hpaused]

section sequences

variable (u : Urd) (evs : List DaemonEvent) (ev : DaemonEvent)

@[simp] theorem Urd.serveAll_append_singleton :
    u.serveAll (evs ++ [ev]) = (u.serveAll evs).serve ev := by
  rw [Urd.serveAll, List.foldl_append]
  rfl

/-- The fold that computes `lastPause` runs the daemon along. -/
theorem Urd.lastPause_fold :
    (evs.foldl (fun (s : Urd × Bool) ev => (s.1.serve ev, s.1.effect s.2 ev)) (u, u.isPaused)) =
      (u.serveAll evs, u.lastPause evs) := by
  induction evs using List.reverseRecOn with
  | nil => rfl
  | append_singleton evs ev ih =>
    rw [Urd.lastPause, List.foldl_append, ih, Urd.serveAll_append_singleton]
    rfl

theorem Urd.lastPause_append_singleton :
    u.lastPause (evs ++ [ev]) = (u.serveAll evs).effect (u.lastPause evs) ev := by
  rw [Urd.lastPause, List.foldl_append, Urd.lastPause_fold]
  rfl

end sequences

theorem checkShutdown_ne_success (tm : TaskManager) (namespaces : NamespaceManager)
    (isEmpty : Backend → Bool) : checkShutdown tm namespaces isEmpty ≠ .success ↔
      0 < tm.countIf (fun ti => ti.status.active) ∨
        0 < namespaces.countIf (fun b => b.isTracked && !isEmpty b) := by
  unfold checkShutdown
  split_ifs with htasks hnamespaces
  · exact iff_of_true (by decide) (.inl (Nat.pos_of_ne_zero htasks))
  · exact iff_of_true (by decide) (.inr (Nat.pos_of_ne_zero hnamespaces))
  · exact iff_of_false (by simp) (by omega)

/-- A shutdown is refused exactly if it finds the daemon busy. -/
theorem Urd.refuses_shutdown_iff (u : Urd) (isEmpty : Backend → Bool) :
    u.Refuses (.command isEmpty .shutdown) ↔ u.Busy isEmpty := by
  have hcode : (u.commandHandler isEmpty .shutdown).2 =
      checkShutdown u.taskMgr u.namespaceMgr isEmpty := by
    simp only [Urd.commandHandler]
    split_ifs <;> rfl
  rw [Urd.Busy, ← checkShutdown_ne_success, ← hcode]
  constructor
  · rintro ⟨isEmpty', heq, herr⟩
    cases heq
    exact herr
  · exact fun herr => ⟨isEmpty, rfl, herr⟩

/-- A refused shutdown leaves the daemon running and touches nothing else. -/
theorem Urd.serve_of_refuses {u : Urd} {ev : DaemonEvent} (h : u.Refuses ev) :
    u.serve ev = u.resumeListening := by
  obtain ⟨isEmpty, rfl, herr⟩ := h
  simp only [Urd.commandHandler] at herr
  split_ifs at herr with hrv
  · simp only [Urd.serve, Urd.commandHandler, if_pos hrv]
    rfl
  · exact absurd (not_not.mp hrv) herr

/-- Every other event leaves the flag as the last effective command has set it. -/
theorem Urd.isPaused_serve {u : Urd} {ev : DaemonEvent} (h : ¬ u.Refuses ev) :
    (u.serve ev).isPaused = u.effect u.isPaused ev := by
  cases ev with
  | other namespaceMgr taskMgr runners => rfl
  | command isEmpty cmd =>
    cases cmd with
    | ping => rfl
    | pauseListen => rfl
    | resumeListen => rfl
    | unknown => rfl
    | shutdown =>
      have hrv : (u.commandHandler isEmpty .shutdown).2 = .success := by
        by_contra hne
        exact h ⟨isEmpty, rfl, hne⟩
      rw [Urd.effect, if_pos hrv]
      simp only [Urd.commandHandler] at hrv
      simp only [Urd.serve, Urd.commandHandler]
      split_ifs at hrv ⊢ with hsucc
      · exact absurd hrv hsucc
      · rfl

/-- A refused shutdown is not a command with an effect. -/
theorem Urd.effect_of_refuses {u : Urd} {ev : DaemonEvent} (h : u.Refuses ev) (last : Bool) :
    u.effect last ev = last := by
  obtain ⟨isEmpty, rfl, herr⟩ := h
  rw [Urd.effect, if_neg herr]

/-- While no shutdown is refused during a pause, the flag is what the last effective command has
made it. -/
theorem Urd.isPaused_serveAll {u : Urd} {evs : List DaemonEvent}
    (h : ∀ pre ev, pre ++ [ev] <+: evs → (u.serveAll pre).Refuses ev →
      (u.serveAll pre).isPaused = false) :
    ∀ pre, pre <+: evs → (u.serveAll pre).isPaused = u.lastPause pre := by
  intro pre
  induction pre using List.reverseRecOn with
  | nil => exact fun _ => rfl
  | append_singleton pre ev ih =>
    intro hpre
    have hprev := ih ((List.prefix_append pre [ev]).trans hpre)
    rw [Urd.serveAll_append_singleton, Urd.lastPause_append_singleton]
    by_cases href : (u.serveAll pre).Refuses ev
    · rw [Urd.serve_of_refuses href, Urd.effect_of_refuses href, ← hprev, h pre ev hpre href]
      rfl
    · rw [Urd.isPaused_serve href, hprev]

/-- **Refused shutdowns.**  In a sequence of events, every refused shutdown leaves flag and tables
as they were, and after every event the daemon rejects tasks if and only if the last effective
command was a pause, exactly if the daemon is not paused when a shutdown finds it busy. -/
theorem refused_shutdown_iff (u : Urd) (evs : List DaemonEvent) :
    (∀ pre ev, pre ++ [ev] <+: evs →
      ((u.serveAll pre).Refuses ev →
        (u.serveAll (pre ++ [ev])).SameState (u.serveAll pre)) ∧
      ((u.serveAll (pre ++ [ev])).RejectsTasks ↔ u.lastPause (pre ++ [ev]) = true)) ↔
    ∀ pre isEmpty, pre ++ [.command isEmpty .shutdown] <+: evs →
      (u.serveAll pre).Busy isEmpty → (u.serveAll pre).isPaused = false := by
  constructor
  · intro h pre isEmpty hpre hbusy
    have href := (Urd.refuses_shutdown_iff _ _).mpr hbusy
    have hsame := ((h pre _ hpre).1 href).1
    rw [Urd.serveAll_append_singleton, Urd.serve_of_refuses href] at hsame
    exact hsame.symm
  · intro h pre ev hpre
    have hrefused : ∀ pre ev, pre ++ [ev] <+: evs → (u.serveAll pre).Refuses ev →
        (u.serveAll pre).isPaused = false := by
      rintro pre _ hpre ⟨isEmpty, rfl, herr⟩
      exact h pre isEmpty hpre ((Urd.refuses_shutdown_iff _ _).mp ⟨isEmpty, rfl, herr⟩)
    refine ⟨fun href => ?_, ?_⟩
    · rw [Urd.serveAll_append_singleton, Urd.serve_of_refuses href]
      exact ⟨(hrefused pre ev hpre href).symm, rfl, rfl⟩
    · rw [Urd.rejectsTasks_iff, Urd.isPaused_serveAll hrefused _ hpre]

/-- A task has been submitted, the daemon is paused, and a shutdown is refused: the daemon accepts
tasks again, although nobody has asked it to resume. -/
theorem refused_shutdown_resumes :
    ∃ (u : Urd) (pre : List DaemonEvent) (ev : DaemonEvent),
      Urd.withNamespace.iotaskCreateHandler (some ⟨1, 0, 0⟩) .remove
        (some (.localPath "tmp0" "a")) none 0 = .ok (u, .success, 1) ∧
      pre = [.command (fun _ => true) .pauseListen] ∧ (u.serveAll pre).Refuses ev ∧
      ¬ (u.serveAll (pre ++ [ev])).SameState (u.serveAll pre) ∧
      u.lastPause (pre ++ [ev]) = true ∧ ¬ (u.serveAll (pre ++ [ev])).RejectsTasks := by
  refine ⟨_, _, .command (fun _ => true) .shutdown, rfl, rfl, ⟨fun _ => true, rfl, by decide⟩,
    fun hsame => ?_, by decide, fun hrej => ?_⟩
  · exact absurd hsame.1 (by decide)
  · exact absurd ((Urd.rejectsTasks_iff _).mp hrej) (by decide)

end Norns
