import Norns.Pool

/-! # Stopping the pool

When the daemon ends, `task_manager::stop_all_tasks` sets the flag of the pool, invalidates the
queue and joins every worker (`pool::destroy`, `queue::invalidate`).  Other threads may still be
submitting tasks.

`stopped_pool_joins`: once the queue is invalid, no interleaving makes a `join` wait for a worker
that sleeps, and if the calls of the tasks are answered the workers alone come to their end.  What
has been begun is completed then; what is in the queue stays there, pending, whatever else happens.
A transfer that never ends keeps its worker, and the `join`. -/

namespace Norns

open Lib

/-- A step of a worker, or of the thread that stops the pool. -/
inductive RunnerStep : PoolSystem → PoolSystem → Prop
  | exec {s : PoolSystem} {pool : ThreadPool PoolTask Execution ExecLabel} {t : PoolTask}
      {e e' : Execution} (h : ThreadPool.Step poolJobs s.pool (.exec t e e') pool) :
      RunnerStep s { s with sys := s.sys.setRecord t.info e'.record, pool := pool }
  | silent {s : PoolSystem} {pool : ThreadPool PoolTask Execution ExecLabel}
      (h : ThreadPool.Step poolJobs s.pool .silent pool) : RunnerStep s { s with pool := pool }

theorem RunnerStep.poolStep {s s' : PoolSystem} (h : RunnerStep s s') : PoolStep s s' := by
  cases h with
  | exec h => exact .exec h
  | silent h => exact .silent h

/-- The thread is over, or its task has stopped the process. -/
def WorkerOver (x : Worker PoolTask Execution) : Prop :=
  x = .exited ∨ ∃ t f ti, x = .busy t (.func (.ret (.error f)) ti)

/-- The worker `w` has gone on, alone. -/
structure GoesOn (w : ℕ) (s s' : PoolSystem) : Prop where
  run : Run RunnerStep s s'
  others : ∀ w', w ≠ w' → s'.pool.workers[w']? = s.pool.workers[w']?
  length : s'.pool.workers.length = s.pool.workers.length
  valid : s'.pool.valid = s.pool.valid
  done : s'.pool.done = s.pool.done

namespace GoesOn

variable {w : ℕ} {s s' s'' : PoolSystem}

theorem refl (w : ℕ) (s : PoolSystem) : GoesOn w s s := ⟨.refl, fun _ _ => rfl, rfl, rfl, rfl⟩

theorem trans (h : GoesOn w s s') (h' : GoesOn w s' s'') : GoesOn w s s'' where
  run := h.run.trans h'.run
  others w' hw' := (h'.others w' hw').trans (h.others w' hw')
  length := h'.length.trans h.length
  valid := h'.valid.trans h.valid
  done := h'.done.trans h.done

/-- It has made one step. -/
theorem single (hstep : RunnerStep s s') {x : Worker PoolTask Execution}
    (hworkers : s'.pool.workers = s.pool.workers.set w x) (hvalid : s'.pool.valid = s.pool.valid)
    (hdone : s'.pool.done = s.pool.done) : GoesOn w s s' where
  run := .single hstep
  others w' hw' := by rw [hworkers, List.getElem?_set_ne hw']
  length := by rw [hworkers, List.length_set]
  valid := hvalid
  done := hdone

end GoesOn

/-- A call of a task can always be answered. -/
instance (op : TaskOp) : Inhabited op.Result := by
  cases op <;> exact inferInstanceAs (Inhabited _)

section worker

variable {s : PoolSystem} {w : ℕ} {t : PoolTask}

/-- A worker makes a step of its task. -/
theorem goesOn_exec {e e' : Execution} {l : Option ExecLabel}
    (hw : s.pool.workers[w]? = some (.busy t e)) (hexec : t.Exec e l e') :
    ∃ s', GoesOn w s s' ∧ s'.pool.workers[w]? = some (.busy t e') := by
  have hlt := (List.getElem?_eq_some_iff.mp hw).1
  have hstep : ThreadPool.Step poolJobs s.pool (.exec t e e') _ := .exec w hw hexec
  exact ⟨_, .single (.exec hstep) rfl rfl rfl, List.getElem?_set_self hlt⟩

/-- The body of its task returns, whatever it calls. -/
theorem goesOn_body (p : TaskProgram) {ti : TaskInfo}
    (hw : s.pool.workers[w]? = some (.busy t (.func p ti))) :
    ∃ s' r ti', GoesOn w s s' ∧ s'.pool.workers[w]? = some (.busy t (.func (.ret r) ti')) := by
  induction p generalizing s ti with
  | ret r => exact ⟨s, r, ti, .refl w s, hw⟩
  | call op next ih =>
      obtain ⟨s₁, hgo, hw₁⟩ := goesOn_exec hw (.func (.answer (r := default) rfl))
      obtain ⟨s₂, r, ti', hgo', hw₂⟩ := ih default hw₁
      exact ⟨s₂, r, ti', hgo.trans hgo', hw₂⟩

/-- In a pool that has been stopped a worker that is about to look at the flag ends. -/
theorem goesOn_loop (hdone : s.pool.done = true) (hw : s.pool.workers[w]? = some .loop) :
    ∃ s', GoesOn w s s' ∧ s'.pool.workers[w]? = some .exited := by
  have hlt := (List.getElem?_eq_some_iff.mp hw).1
  have hstep : ThreadPool.Step poolJobs s.pool .silent _ := .test w hw
  refine ⟨_, .single (.silent hstep) rfl rfl rfl, ?_⟩
  rw [List.getElem?_set_self hlt, if_pos hdone]

/-- In a pool that has been stopped every worker can come to its end by itself. -/
theorem goesOn_over (hvalid : s.pool.valid = false) (hdone : s.pool.done = true)
    {x : Worker PoolTask Execution} (hw : s.pool.workers[w]? = some x) (hx : x ≠ .asleep) :
    ∃ s' y, GoesOn w s s' ∧ s'.pool.workers[w]? = some y ∧ WorkerOver y := by
  have hlt := (List.getElem?_eq_some_iff.mp hw).1
  cases x with
  | asleep => exact absurd rfl hx
  | exited => exact ⟨s, .exited, .refl w s, hw, .inl rfl⟩
  | loop =>
      obtain ⟨s', hgo, hw'⟩ := goesOn_loop hdone hw
      exact ⟨s', .exited, hgo, hw', .inl rfl⟩
  | entering =>
      have hstep : ThreadPool.Step poolJobs s.pool .silent _ := .refuse w hw hvalid
      have hgo : GoesOn w s { s with pool := _ } := .single (.silent hstep) rfl rfl rfl
      obtain ⟨s', hgo', hw'⟩ := goesOn_loop (hgo.done.trans hdone) (List.getElem?_set_self hlt)
      exact ⟨s', .exited, hgo.trans hgo', hw', .inl rfl⟩
  | busy t e =>
      -- the task is over, and what is left is to look at the flag
      have hend : ∀ {s₁ : PoolSystem} {ti : TaskInfo}, GoesOn w s s₁ →
          s₁.pool.workers[w]? = some (.busy t (.ended ti)) →
          ∃ s' y, GoesOn w s s' ∧ s'.pool.workers[w]? = some y ∧ WorkerOver y := by
        intro s₁ ti hgo hw₁
        have hstep : ThreadPool.Step poolJobs s₁.pool .silent _ := .finish w hw₁ ⟨ti, rfl⟩
        have hgo₁ : GoesOn w s₁ { s₁ with pool := _ } := .single (.silent hstep) rfl rfl rfl
        obtain ⟨s', hgo', hw'⟩ := goesOn_loop (hgo₁.done.trans (hgo.done.trans hdone))
          (List.getElem?_set_self (List.getElem?_eq_some_iff.mp hw₁).1)
        exact ⟨s', .exited, hgo.trans (hgo₁.trans hgo'), hw', .inl rfl⟩
      have hepilog : ∀ {s₁ : PoolSystem} {ti : TaskInfo}, GoesOn w s s₁ →
          s₁.pool.workers[w]? = some (.busy t (.epilog ti)) →
          ∃ s' y, GoesOn w s s' ∧ s'.pool.workers[w]? = some y ∧ WorkerOver y := by
        intro s₁ ti hgo hw₁
        cases hep : t.hasEpilog with
        | true =>
            obtain ⟨s₂, hgo', hw₂⟩ := goesOn_exec hw₁ (.epilog hep)
            exact hend (hgo.trans hgo') hw₂
        | false =>
            obtain ⟨s₂, hgo', hw₂⟩ := goesOn_exec hw₁ (.noopEpilog hep)
            exact hend (hgo.trans hgo') hw₂
      cases e with
      | ended ti => exact hend (.refl w s) hw
      | epilog ti => exact hepilog (.refl w s) hw
      | func p ti =>
          obtain ⟨s₁, r, ti', hgo, hw₁⟩ := goesOn_body p hw
          cases r with
          | error f => exact ⟨s₁, _, hgo, hw₁, .inr ⟨t, f, ti', rfl⟩⟩
          | ok _ =>
              obtain ⟨s₂, hgo', hw₂⟩ := goesOn_exec hw₁ .ret
              exact hepilog (hgo.trans hgo') hw₂

end worker

/-- One worker after the other comes to its end. -/
theorem workers_over {s : PoolSystem} (hvalid : s.pool.valid = false) (hdone : s.pool.done = true)
    (hawake : Worker.asleep ∉ s.pool.workers) (k : ℕ) :
    ∃ s', Run RunnerStep s s' ∧ s'.pool.valid = false ∧ s'.pool.done = true ∧
      s'.pool.workers.length = s.pool.workers.length ∧
      (∀ w x, w < k → s'.pool.workers[w]? = some x → WorkerOver x) ∧
      ∀ w, k ≤ w → s'.pool.workers[w]? = s.pool.workers[w]? := by
  induction k with
  | zero => exact ⟨s, .refl, hvalid, hdone, rfl, fun w x hw => absurd hw (by omega), fun _ _ => rfl⟩
  | succ k ih =>
      obtain ⟨s₁, hrun, hvalid₁, hdone₁, hlen, hover, hrest⟩ := ih
      cases hk : s₁.pool.workers[k]? with
      | none =>
          refine ⟨s₁, hrun, hvalid₁, hdone₁, hlen, fun w x hw hx => ?_, fun w hw =>
            hrest w (by omega)⟩
          obtain rfl | hlt : w = k ∨ w < k := by omega
          · rw [hk] at hx
            cases hx
          · exact hover w x hlt hx
      | some x =>
          have hx : x ≠ .asleep := by
            rintro rfl
            rw [hrest k le_rfl] at hk
            exact hawake (List.mem_of_getElem? hk)
          obtain ⟨s₂, y, hgo, hy, hyover⟩ := goesOn_over hvalid₁ hdone₁ hk hx
          refine ⟨s₂, hrun.trans hgo.run, hgo.valid.trans hvalid₁, hgo.done.trans hdone₁,
            hgo.length.trans hlen, fun w z hw hz => ?_, fun w hw => ?_⟩
          · obtain rfl | hlt : w = k ∨ w < k := by omega
            · obtain rfl := Option.some.inj (hy.symm.trans hz)
              exact hyover
            · rw [hgo.others w (by omega)] at hz
              exact hover w z hlt hz
          · rw [hgo.others w (by omega)]
            exact hrest w (by omega)

theorem PoolStep.unblocked (s s' : PoolSystem) (hs : s.pool.Unblocked) (h : PoolStep s s') :
    s'.pool.Unblocked := by
  obtain heq | ⟨a, hstep⟩ := h.pool
  · rwa [heq]
  · exact hs.step hstep

/-- What has been pushed stays so. -/
theorem PoolSystem.pushes_of_run {s s' : PoolSystem} (h : Run PoolStep s s') :
    s.pool.pushes <+: s'.pool.pushes := by
  induction h with
  | refl => exact List.prefix_rfl
  | tail _ hstep ih =>
      refine ih.trans ?_
      obtain heq | ⟨a, hpool⟩ := hstep.pool
      · rw [heq]
      · cases a with
        | push t => exact hpool.push_spec.1 ▸ List.prefix_append _ _
        | exec t e e' => exact hpool.exec_spec.1 ▸ List.prefix_rfl
        | silent => exact hpool.silent_spec.1 ▸ List.prefix_rfl

/-- A task that has left the queue is being executed, or it has been. -/
theorem PoolSystem.Inv.popped {s : PoolSystem} (h : s.Inv) {t : PoolTask} (ht : t ∈ s.pool.pops) :
    (∃ (w : ℕ) (e : Execution), s.pool.workers[w]? = some (.busy t e)) ∨
      ∃ w st, st.terminal = true ∧ s.pool.history t = t.wholeHistory w st := by
  obtain hbusy | ⟨w, ls, e, hls, -, -⟩ := h.pool.placed t ht
  · exact .inl hbusy
  · have hend : .ended w t ∈ s.pool.history t := by
      rw [hls]
      exact List.mem_append_right _ List.mem_cons_self
    exact .inr ⟨w, h.executed (List.mem_filter.mp hend).1⟩

/-- **The pool can be joined.**  Once the queue is invalid, and whatever has happened since, no
worker sleeps, and there is a run of the workers alone, with answers to the calls of their tasks, in
which all of them come to their end; then the tasks that had left the queue have been executed.  The
others stay in it with the record that they had when they were accepted. -/
theorem stopped_pool_joins {dryRun : Bool} {namespaces : NamespaceManager} {n : ℕ}
    {s s' : PoolSystem} (hrun : Run PoolStep (.init dryRun namespaces n) s)
    (hstop : s.pool.valid = false) (hrun' : Run PoolStep s s') :
    Worker.asleep ∉ s'.pool.workers ∧
    (∃ s'', Run RunnerStep s' s'' ∧ (∀ x ∈ s''.pool.workers, WorkerOver x) ∧
      ∀ t ∈ s.pool.pops, (∃ (w : ℕ) (f : Fault) (ti : TaskInfo),
          s''.pool.workers[w]? = some (.busy t (.func (.ret (.error f)) ti))) ∨
        ∃ w st, st.terminal = true ∧ s''.pool.history t = t.wholeHistory w st) ∧
    ∀ t ∈ s.pool.items, t ∈ s'.pool.items ∧ s'.pool.history t = [.pushed t] ∧
      t.record.status = .pending ∧ s'.sys.core.heap[t.info]? = some t.record := by
  have hinv : s.Inv := Run.invariant PoolSystem.Inv.step hrun (.ofInit dryRun namespaces n)
  have hinv' : s'.Inv := Run.invariant PoolSystem.Inv.step hrun' hinv
  obtain ⟨hstop', hpops⟩ := PoolSystem.pops_of_invalid hrun' hstop
  have hunblocked : s'.pool.Unblocked :=
    Run.invariant (P := fun s => s.pool.Unblocked) PoolStep.unblocked (hrun.trans hrun') (.ofInit n)
  obtain ⟨hdone, hawake⟩ := hunblocked hstop'
  refine ⟨hawake, ?_, fun t ht => ?_⟩
  · obtain ⟨s'', hjoin, -, -, hlen, hover, -⟩ :=
      workers_over hstop' hdone hawake s'.pool.workers.length
    have hall : ∀ (w : ℕ) x, s''.pool.workers[w]? = some x → WorkerOver x := by
      intro w x hw
      refine hover w x ?_ hw
      have hlt := (List.getElem?_eq_some_iff.mp hw).1
      omega
    have hjoin' : Run PoolStep s' s'' :=
      Relation.ReflTransGen.mono (fun _ _ h => RunnerStep.poolStep h) _ _ hjoin
    have hinv'' : s''.Inv := Run.invariant PoolSystem.Inv.step hjoin' hinv'
    refine ⟨s'', hjoin, fun x hx => ?_, fun t ht => ?_⟩
    · obtain ⟨w, hw⟩ := List.mem_iff_getElem?.mp hx
      exact hall w x hw
    · rw [← hpops, ← (PoolSystem.pops_of_invalid hjoin' hstop').2] at ht
      obtain ⟨w, e, hw⟩ | hexecuted := hinv''.popped ht
      · obtain hexited | ⟨t', f, ti, hcrash⟩ := hall w _ hw
        · cases hexited
        · cases hcrash
          exact .inl ⟨w, f, ti, hw⟩
      · exact .inr hexecuted
  · have hitems : t ∈ s'.pool.items := by
      have hpushed := PoolSystem.pushes_of_run hrun'
      rw [hinv.pool.fifo, hinv'.pool.fifo, hpops, List.prefix_append_right_inj] at hpushed
      exact hpushed.subset ht
    have hpushed : t ∈ s'.pool.pushes := hinv'.pool.mem_pushes_of_items hitems
    exact ⟨hitems, hinv'.pool.queued t hitems, (hinv'.fresh_of_pushed hpushed).status,
      hinv'.idle t (List.mem_append_left _ hitems)⟩

/-- The request to remove a file of `tmp0`, in the hands of the handler. -/
def removeHandled : PoolSystem :=
  (PoolSystem.init false tmp0 2).create
    ⟨false, tmp0, (DaemonSystem.init false tmp0).taskMgr.enter (removeRecord .pending),
     [⟨.remove, 1, none⟩]⟩ .success 1

/-- A removal that is in the queue of two workers when the pool is stopped is never begun. -/
theorem removal_left_in_queue : ∃ s t, Run PoolStep (.init false tmp0 2) s ∧
    s.pool.valid = false ∧ s.pool.items = [t] ∧
    ∀ s', Run PoolStep s s' → t ∈ s'.pool.items ∧ s'.sys.core.heap[t.info]? = some t.record ∧
      t.record.status = .pending := by
  have hsubmit : PoolStep (.init false tmp0 2) removeHandled :=
    @PoolStep.submit (.init false tmp0 2) _ (some ⟨1, 0, 0⟩) .remove
      (some (.localPath "tmp0" "a")) none 0 _ _ rfl ⟨rfl, rfl⟩ rfl
  have henqueue : PoolStep removeHandled _ :=
    .enqueue rfl (.push _ (.none (by simp [removeHandled, PoolSystem.create, PoolSystem.init,
      ThreadPool.init])))
  have hrun := (((Relation.ReflTransGen.single hsubmit).tail henqueue).tail (.silent .setDone)).tail
    (.silent (.invalidate rfl))
  refine ⟨_, _, hrun, rfl, rfl, fun s' hrun' => ?_⟩
  obtain ⟨hitems, -, hstatus, hheap⟩ :=
    (stopped_pool_joins hrun rfl hrun').2.2 _ List.mem_cons_self
  exact ⟨hitems, hheap, hstatus⟩

end Norns
