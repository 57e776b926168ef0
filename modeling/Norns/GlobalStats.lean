import Norns.Daemon

/-! # The global statistics

`task_manager::global_stats` walks over the table of tasks while other threads go on.  It counts
the running and the pending tasks, and for a running task it reads the namespace ids of both
resources, to estimate when it will end.  A task that was submitted without a destination has no
second resource, so that the request stops the daemon if it comes while such a task is running.

* `globalStatsLoop` is the loop, with its counters of 32 bits; `TaskManager.globalStats` is what it
  computes as long as these do not wrap (`globalStatsLoop_eq`).
* `Described`: every record has a source.
* `global_stats_exact_iff`: the reachable tables for which the statistics are right. -/

namespace Norns

open Lib

/-! ### The loop -/

/-- The body of the loop of `global_stats`, for the counters of running and pending tasks. -/
def countTask (counters : UInt32 × UInt32) (ti : TaskInfo) : Except Fault (UInt32 × UInt32) :=
  match ti.stats.status with
  | .running =>
      match ti.srcRinfo, ti.dstRinfo with
      | some _, some _ => .ok (counters.1 + 1, counters.2)
      | _, _ => .error .nullDeref
  | .pending => .ok (counters.1, counters.2 + 1)
  | _ => .ok counters

/-- `task_manager::global_stats`, without the estimate. -/
def TaskManager.globalStatsLoop (tm : TaskManager) : Except Fault (UInt32 × UInt32) :=
  tm.taskInfo.entries.foldlM (fun counters e => countTask counters e.2) (0, 0)

/-- A running task without one of its two resources. -/
def TaskInfo.halfNull (ti : TaskInfo) : Bool :=
  ti.status = .running && (ti.srcRinfo.isNone || ti.dstRinfo.isNone)

theorem globalStats_eq (tm : TaskManager) :
    tm.globalStats =
      if tm.taskInfo.entries.any (fun e => e.2.halfNull) then .error .nullDeref
      else .ok ⟨tm.countIf (fun ti => ti.status = .running),
        tm.countIf (fun ti => ti.status = .pending)⟩ :=
  rfl

theorem countTask_of_halfNull {ti : TaskInfo} (h : ti.halfNull = true)
    (counters : UInt32 × UInt32) : countTask counters ti = .error .nullDeref := by
  obtain ⟨hrun, hnull⟩ : ti.status = .running ∧ (ti.srcRinfo = none ∨ ti.dstRinfo = none) := by
    simpa [TaskInfo.halfNull] using h
  simp only [countTask, TaskInfo.stats, hrun]
  obtain hnull | hnull := hnull
  · rw [hnull]
  · rw [hnull]
    cases ti.srcRinfo <;> rfl

theorem countTask_of_not_halfNull {ti : TaskInfo} (h : ti.halfNull = false) (r p : ℕ) :
    countTask (UInt32.ofNat r, UInt32.ofNat p) ti =
      .ok (UInt32.ofNat (r + if ti.status = .running then 1 else 0),
        UInt32.ofNat (p + if ti.status = .pending then 1 else 0)) := by
  have hadd : ∀ n : ℕ, UInt32.ofNat n + 1 = UInt32.ofNat (n + 1) := fun n =>
    (UInt32.ofNat_add n 1).symm
  cases hst : ti.status with
  | running =>
      obtain ⟨src, hsrc⟩ : ∃ src, ti.srcRinfo = some src := by
        cases hsrc : ti.srcRinfo with
        | none => simp [TaskInfo.halfNull, hst, hsrc] at h
        | some src => exact ⟨src, rfl⟩
      obtain ⟨dst, hdst⟩ : ∃ dst, ti.dstRinfo = some dst := by
        cases hdst : ti.dstRinfo with
        | none => simp [TaskInfo.halfNull, hst, hdst] at h
        | some dst => exact ⟨dst, rfl⟩
      simp only [countTask, TaskInfo.stats, hst, hsrc, hdst, hadd]
      rfl
  | pending =>
      simp only [countTask, TaskInfo.stats, hst, hadd]
      rfl
  | _ =>
      simp only [countTask, TaskInfo.stats, hst]
      rfl

/-- The loop over a list of records, from any counters. -/
theorem foldlM_countTask (l : List (Sigma fun _ : IotaskId => TaskInfo)) (r p : ℕ) :
    l.foldlM (fun counters e => countTask counters e.2) (UInt32.ofNat r, UInt32.ofNat p) =
      if l.any (fun e => e.2.halfNull) then .error .nullDeref
      else .ok (UInt32.ofNat (r + l.countP fun e => decide (e.2.status = .running)),
        UInt32.ofNat (p + l.countP fun e => decide (e.2.status = .pending))) := by
  induction l generalizing r p with
  | nil => rfl
  | cons e l ih =>
      rw [List.foldlM_cons, List.any_cons]
      cases hnull : e.2.halfNull with
      | true =>
          rw [countTask_of_halfNull hnull]
          rfl
      | false =>
          rw [countTask_of_not_halfNull hnull]
          show l.foldlM _ _ = _
          rw [ih, Bool.false_or, List.countP_cons, List.countP_cons]
          simp only [decide_eq_true_eq]
          ring_nf

theorem globalStatsLoop_cases (tm : TaskManager) :
    tm.globalStatsLoop =
      if tm.taskInfo.entries.any (fun e => e.2.halfNull) then .error .nullDeref
      else .ok (UInt32.ofNat (tm.countIf fun ti => ti.status = .running),
        UInt32.ofNat (tm.countIf fun ti => ti.status = .pending)) := by
  have h := foldlM_countTask tm.taskInfo.entries 0 0
  rw [Nat.zero_add, Nat.zero_add] at h
  exact h

/-- The loop computes the counts of `globalStats`, modulo the size of its counters. -/
theorem globalStatsLoop_eq (tm : TaskManager) :
    tm.globalStatsLoop = tm.globalStats.map fun st =>
      (UInt32.ofNat st.runningTasks, UInt32.ofNat st.pendingTasks) := by
  rw [globalStatsLoop_cases, globalStats_eq]
  cases tm.taskInfo.entries.any (fun e => e.2.halfNull) <;> rfl

/-- The statistics are right: `global_stats` returns, and its counters are the numbers of running
and of pending tasks in the table. -/
def TaskManager.StatsExact (tm : TaskManager) : Prop :=
  ∃ st, tm.globalStatsLoop = .ok st ∧
    st.1.toNat = tm.countIf (fun ti => ti.status = .running) ∧
    st.2.toNat = tm.countIf (fun ti => ti.status = .pending)

theorem toNat_ofNat_eq_iff (n : ℕ) : (UInt32.ofNat n).toNat = n ↔ n < 2 ^ 32 := by
  rw [UInt32.toNat_ofNat']
  exact Nat.mod_eq_iff_lt (by decide)

/-- The statistics of any table. -/
theorem statsExact_iff (tm : TaskManager) :
    tm.StatsExact ↔ (∀ e ∈ tm.taskInfo.entries, e.2.halfNull = false) ∧
      tm.countIf (fun ti => ti.status = .running) < 2 ^ 32 ∧
      tm.countIf (fun ti => ti.status = .pending) < 2 ^ 32 := by
  unfold TaskManager.StatsExact
  rw [globalStatsLoop_cases]
  cases hany : tm.taskInfo.entries.any (fun e => e.2.halfNull) with
  | true =>
      obtain ⟨e, he, hnull⟩ := List.any_eq_true.mp hany
      constructor
      · rintro ⟨st, hst, -⟩
        cases hst
      · rintro ⟨hall, -⟩
        rw [hall e he] at hnull
        cases hnull
  | false =>
      rw [List.any_eq_false] at hany
      have hall : ∀ e ∈ tm.taskInfo.entries, e.2.halfNull = false := fun e he =>
        Bool.eq_false_iff.mpr (hany e he)
      rw [← toNat_ofNat_eq_iff, ← toNat_ofNat_eq_iff]
      constructor
      · rintro ⟨st, hst, hr, hp⟩
        obtain rfl := Except.ok.inj hst
        exact ⟨hall, hr, hp⟩
      · rintro ⟨-, hr, hp⟩
        exact ⟨_, rfl, hr, hp⟩

/-! ### Reachable tables -/

/-- Every record has a source. -/
def StatusSystem.Described (s : StatusSystem) : Prop :=
  ∀ (p : ℕ) (ti : TaskInfo), s.heap[p]? = some ti → ti.srcRinfo ≠ none

theorem WorkerUpdate.resources {ti ti' : TaskInfo} (h : WorkerUpdate ti ti') :
    ti'.srcRinfo = ti.srcRinfo ∧ ti'.dstRinfo = ti.dstRinfo := by
  cases h <;> exact ⟨rfl, rfl⟩

/-- A creation for a peer reads both descriptions. -/
theorem createRemote_described {tm tm' : TaskManager} {type : IotaskType} {auth : Credentials}
    {srcBackend dstBackend : Backend} {srcRinfo dstRinfo : Option ResourceInfo} {size : UInt64}
    {e : UrdError} {t : Option GenericTask} (hfree : tm.nextId ∉ tm.taskInfo)
    (h : tm.createRemoteInitiatedTask type auth srcBackend srcRinfo dstBackend dstRinfo size =
      .ok (tm', e, t)) : srcRinfo ≠ none ∧ dstRinfo ≠ none := by
  rw [TaskManager.createRemoteInitiatedTask, if_neg hfree] at h
  dsimp only at h
  split at h
  · exact ⟨by simp, by simp⟩
  · cases h

namespace StatusSystem.Described

variable {s s' : StatusSystem}

theorem create (h : s.Described) {ti : TaskInfo} (hti : ti.srcRinfo ≠ none) :
    (s.create ti).Described := by
  intro p ti' hp
  obtain hp' | ⟨-, rfl⟩ := StatusSystem.Inv.heap_create_cases hp
  · exact h p ti' hp'
  · exact hti

/-- Steps other than creations keep the resources of the records. -/
theorem update (h : s.Described) {p : ℕ} {ti ti' : TaskInfo} (hget : s.heap[p]? = some ti)
    (hupd : WorkerUpdate ti ti') : StatusSystem.Described { s with heap := s.heap.set p ti' } := by
  intro q tq hq
  obtain ⟨rfl, rfl⟩ | hq' := StatusSystem.Inv.heap_set_cases hget hq
  · rw [hupd.resources.1]
    exact h q ti hget
  · exact h q tq hq'

end StatusSystem.Described

/-- A creation enters a record with a source. -/
theorem DaemonSystem.described_enter {s : DaemonSystem} (hs : s.core.Sound)
    (h : s.core.Described) {tm : TaskManager}
    (htm : s.nextId ∈ s.taskMgr.taskInfo ∨ ∃ ti, ti.srcRinfo ≠ none ∧ tm = s.taskMgr.enter ti) :
    (s.enter tm).core.Described := by
  by_cases htaken : s.nextId ∈ s.taskMgr.taskInfo
  · rw [DaemonSystem.enter_of_taken ((DaemonSystem.mem_taskMgr hs _).mp htaken)]
    exact h
  · obtain ⟨ti, hti, rfl⟩ := htm.resolve_left htaken
    rw [DaemonSystem.enter_enter hs htaken]
    exact h.create hti

theorem DaemonStep.described {s s' : DaemonSystem} (hs : s.core.Sound) (h : s.core.Described)
    (hstep : DaemonStep s s') : s'.core.Described := by
  cases hstep with
  | worker hstep =>
      cases hstep with
      | work p _ hget hupd => exact h.update hget hupd
  | api hstep =>
      cases hstep with
      | submit _ _ hcreate =>
          apply DaemonSystem.described_enter hs h
          by_cases htaken : s.nextId ∈ s.taskMgr.taskInfo
          · exact Or.inl htaken
          · obtain ⟨src, dst, htm, -, -⟩ := createLocal_record htaken hcreate
            exact Or.inr ⟨_, by simp [TaskInfo.new], htm⟩
      | status tid _ =>
          intro p ti hp
          rw [request_heap] at hp
          exact h p ti hp
      | ipc _ hnext =>
          intro p ti hp
          rw [ipcNext_heap hnext] at hp
          exact h p ti hp
      | namespaces _ _ => exact h
      | pauseListening _ => exact h
      | resumeListening _ => exact h
      | shutdown _ => exact h
      | command _ hnext =>
          rw [commandNext_core hnext]
          exact h
  | network hstep =>
      cases hstep with
      | arrive _ => exact h
      | test _ _ _ _ => exact h
      | handler _ _ _ _ _ _ => exact h
      | completion _ _ _ => exact h
      | task _ _ _ hti hupd => exact h.update hti hupd.workerUpdate
      | @create i c env st b tm e t hget hpc hsees _ hcreate _ _ =>
          show (s.enter tm).core.Described
          apply DaemonSystem.described_enter hs h
          by_cases htaken : s.nextId ∈ s.taskMgr.taskInfo
          · exact Or.inl htaken
          · have hview : env.taskMgr = s.taskMgr := hsees.2.2
            have hfree : env.taskMgr.nextId ∉ env.taskMgr.taskInfo := by
              rw [hview]
              exact htaken
            obtain ⟨src, f, -, -, hr⟩ | ⟨size, hr⟩ := createForPeer_cases c.req b hfree
            · rw [hr] at hcreate
              cases hcreate
            · rw [hr, hview] at hcreate
              obtain ⟨htm, -, -⟩ := createRemote_record htaken hcreate
              exact Or.inr ⟨_, (createRemote_described htaken hcreate).1, htm⟩

/-- **The global statistics** are right in a reachable state exactly if no running task of the table
is one without a destination, and the running and the pending tasks fit into 32 bits. -/
theorem global_stats_exact_iff {dryRun : Bool} {namespaces : NamespaceManager} {s : DaemonSystem}
    (hrun : Run DaemonStep (.init dryRun namespaces) s) :
    s.taskMgr.StatsExact ↔
      (∀ tid ti, s.taskMgr.find tid = some ti → ti.status = .running → ti.dstRinfo ≠ none) ∧
      s.taskMgr.countIf (fun ti => ti.status = .running) < 2 ^ 32 ∧
      s.taskMgr.countIf (fun ti => ti.status = .pending) < 2 ^ 32 := by
  have hinv : s.core.Sound ∧ s.core.Described :=
    Run.invariant (P := fun s => s.core.Sound ∧ s.core.Described)
      (fun s s' h hstep => ⟨hstep.sound h.1, hstep.described h.1 h.2⟩) hrun
      ⟨StatusSystem.Sound.ofInit, fun p ti hp => by cases hp⟩
  have hsource : ∀ tid ti, s.taskMgr.find tid = some ti → ti.srcRinfo ≠ none := by
    intro tid ti hfind
    rw [TaskManager.find, DaemonSystem.taskMgr, Table.lookup_filterMap] at hfind
    obtain ⟨p, -, hp⟩ := Option.bind_eq_some_iff.mp hfind
    exact hinv.2 p ti hp
  rw [statsExact_iff]
  refine and_congr_left fun _ => ?_
  constructor
  · intro hall tid ti hfind hst hdst
    have hnull := hall ⟨tid, ti⟩ (AList.mem_lookup_iff.mp hfind)
    simp [TaskInfo.halfNull, hst, hdst] at hnull
  · rintro hdst ⟨tid, ti⟩ he
    have hfind : s.taskMgr.find tid = some ti := AList.mem_lookup_iff.mpr he
    rw [Bool.eq_false_iff]
    intro hnull
    obtain ⟨hst, hnone⟩ : ti.status = .running ∧ (ti.srcRinfo = none ∨ ti.dstRinfo = none) := by
      simpa [TaskInfo.halfNull] using hnull
    obtain hnone | hnone := hnone
    · exact hsource tid ti hfind hnone
    · exact hdst tid ti hfind hst hnone

/-- The daemon with a removal that a client has requested and a worker has started. -/
theorem withRemove_run (status : TaskStatus) (h : status = .pending ∨ status = .running) :
    Run DaemonStep (.init false tmp0) (withRemove status) := by
  have hsubmit : DaemonStep (.init false tmp0) (withRemove .pending) :=
    .api (@ApiStep.submit (.init false tmp0) _ .remove ⟨1, 0, 0⟩ [tmp0Backend]
      [.localPath "tmp0" "a"] 0 _ _ ⟨rfl, rfl⟩ rfl rfl)
  obtain rfl | rfl := h
  · exact .single hsubmit
  · exact (Relation.ReflTransGen.single hsubmit).tail
      (.worker (@WorkerStep.work (withRemove .pending) 0 _ _ List.mem_cons_self rfl (.start rfl)))

/-- As long as the removal waits, the statistics are right. -/
theorem pending_remove_counted : (withRemove .pending).taskMgr.StatsExact := by
  apply (global_stats_exact_iff (withRemove_run .pending (Or.inl rfl))).mpr
  refine ⟨fun tid ti hfind hst => ?_, by decide, by decide⟩
  have hti : ti = removeRecord .pending := by
    have hmem : (⟨tid, ti⟩ : Sigma fun _ : IotaskId => TaskInfo) ∈
        (withRemove .pending).taskMgr.taskInfo.entries := AList.mem_lookup_iff.mp hfind
    have hentry := List.mem_singleton.mp hmem
    cases hentry
    rfl
  rw [hti] at hst
  cases hst

/-- While the removal is running, the request stops the daemon. -/
theorem running_remove_stops :
    Run DaemonStep (.init false tmp0) (withRemove .running) ∧
    (withRemove .running).taskMgr.globalStatsLoop = .error .nullDeref ∧
    ¬ (withRemove .running).taskMgr.StatsExact := by
  have hstop : (withRemove .running).taskMgr.globalStatsLoop = .error .nullDeref := by decide
  refine ⟨withRemove_run .running (Or.inr rfl), hstop, ?_⟩
  rintro ⟨st, hst, -⟩
  rw [hstop] at hst
  cases hst

end Norns
