import Norns.TaskManager
import Norns.Lib.Run

/-! # Task identifiers

The ids that `io::task_manager` gives to tasks over whole runs of creations and erasures.  A
creation takes the successor of a 32-bit counter and gives it back if that id is taken, so

* an id is never given to two tasks of the table, but the counter wraps and the id 0, which means
  "no task" to the clients, is given out like any other (`task_ids_fresh`);
* a creation is refused exactly if the *next* id is taken.  As long as its task stays, so does the
  counter, and every later creation is refused as well, however many ids are free
  (`tooMany_means_full_iff`). -/

namespace Norns

open Lib

/-- The arguments of a creation, for a client or for a peer. -/
inductive CreateRequest where
  | localInitiated (type : IotaskType) (auth : Credentials) (backendPtrs : List Backend)
      (rinfoPtrs : List ResourceInfo) (size : UInt64)
  | remoteInitiated (type : IotaskType) (auth : Credentials) (srcBackend : Backend)
      (srcRinfo : Option ResourceInfo) (dstBackend : Backend) (dstRinfo : Option ResourceInfo)
      (size : UInt64)

/-- Either creation function. -/
def TaskManager.create (tm : TaskManager) : CreateRequest → CreateResult
  | .localInitiated type auth backendPtrs rinfoPtrs size =>
      tm.createLocalInitiatedTask type auth backendPtrs rinfoPtrs size
  | .remoteInitiated type auth srcBackend srcRinfo dstBackend dstRinfo size =>
      tm.createRemoteInitiatedTask type auth srcBackend srcRinfo dstBackend dstRinfo size

/-- One call of the task manager that changes its table. -/
inductive ManagerStep : TaskManager → TaskManager → Prop
  | create {tm tm' : TaskManager} (req : CreateRequest) {e : UrdError} {t : Option GenericTask}
      (h : tm.create req = .ok (tm', e, t)) : ManagerStep tm tm'
  | erase {tm : TaskManager} (tid : IotaskId) : ManagerStep tm (tm.erase tid).1

/-- A manager that has just been constructed. -/
def TaskManager.Fresh (tm : TaskManager) : Prop := tm.idBase = 0 ∧ tm.taskInfo = ∅

/-! ### What a creation does to the table -/

/-- The outcome of a creation past the check of the id: a record for the next id, whatever is
returned. -/
def Entered (tm tm' : TaskManager) (e : UrdError) (t : Option GenericTask) : Prop :=
  tm.nextId ∉ tm.taskInfo ∧ e ≠ .tooManyTasks ∧ (∀ t', t = some t' → t'.info = tm.nextId) ∧
  ∃ info, info.id = tm.nextId ∧ tm' = tm.enter info

theorem makeTask_info {tm tm' : TaskManager} {type : IotaskType} {n : ℕ} {tx : Option Transferor}
    {e : UrdError} {t : Option GenericTask} (h : tm.makeTask type n tx = .ok (tm', e, t)) :
    tm' = tm ∧ e ≠ .tooManyTasks ∧ ∀ t', t = some t' → t'.info = tm.idBase := by
  unfold TaskManager.makeTask at h
  split at h
  · split_ifs at h
    simp only [Except.ok.injEq, Prod.mk.injEq] at h
    obtain ⟨rfl, rfl, rfl⟩ := h
    simp
  all_goals
    simp only [Except.ok.injEq, Prod.mk.injEq] at h
    obtain ⟨rfl, rfl, rfl⟩ := h
    simp

/-- A local creation that returns and found its id free has entered the record of its arguments. -/
theorem createLocal_record {tm tm' : TaskManager} {type : IotaskType} {auth : Credentials}
    {backendPtrs : List Backend} {rinfoPtrs : List ResourceInfo} {size : UInt64} {e : UrdError}
    {t : Option GenericTask} (hfree : tm.nextId ∉ tm.taskInfo)
    (h : tm.createLocalInitiatedTask type auth backendPtrs rinfoPtrs size = .ok (tm', e, t)) :
    ∃ src dst, tm' = tm.enter (.new tm.nextId type false auth backendPtrs[0]? (some src)
      backendPtrs[1]? dst size) ∧ e ≠ .tooManyTasks ∧ ∀ t', t = some t' → t'.info = tm.nextId := by
  unfold TaskManager.createLocalInitiatedTask at h
  rw [if_neg hfree] at h
  by_cases hlen : backendPtrs.length = 1 ∨ backendPtrs.length = 2
  · rw [if_neg (not_not.mpr hlen)] at h
    cases rinfoPtrs with
    | nil => cases h
    | cons src rest =>
        refine ⟨src, rest.head?, ?_⟩
        by_cases htx : type = .copy ∨ type = .move
        · simp only [if_pos htx] at h
          by_cases hlen2 : backendPtrs.length = 2
          · rw [if_neg (not_not.mpr hlen2)] at h
            cases rest with
            | nil => cases h
            | cons dst rest =>
                dsimp only at h
                cases hget : tm.transferorRegistry.get src.type dst.type with
                | none =>
                    simp only [hget, Except.ok.injEq, Prod.mk.injEq] at h
                    obtain ⟨rfl, rfl, rfl⟩ := h
                    exact ⟨rfl, by decide, by simp⟩
                | some tx =>
                    simp only [hget] at h
                    cases hval : tx.validate src dst with
                    | false =>
                        simp only [hval, Bool.not_false, if_true, Except.ok.injEq,
                          Prod.mk.injEq] at h
                        obtain ⟨rfl, rfl, rfl⟩ := h
                        exact ⟨rfl, by decide, by simp⟩
                    | true =>
                        simp only [hval, Bool.not_true, Bool.false_eq_true, if_false] at h
                        exact makeTask_info h
          · rw [if_pos hlen2] at h
            cases h
        · simp only [if_neg htx] at h
          exact makeTask_info h
  · rw [if_pos hlen] at h
    cases h

/-- The same for a creation requested by a peer. -/
theorem createRemote_record {tm tm' : TaskManager} {type : IotaskType} {auth : Credentials}
    {srcBackend dstBackend : Backend} {srcRinfo dstRinfo : Option ResourceInfo} {size : UInt64}
    {e : UrdError} {t : Option GenericTask} (hfree : tm.nextId ∉ tm.taskInfo)
    (h : tm.createRemoteInitiatedTask type auth srcBackend srcRinfo dstBackend dstRinfo size =
      .ok (tm', e, t)) :
    tm' = tm.enter (.new tm.nextId type true auth (some srcBackend) srcRinfo (some dstBackend)
      dstRinfo size) ∧ e ≠ .tooManyTasks ∧ ∀ t', t = some t' → t'.info = tm.nextId := by
  rw [TaskManager.createRemoteInitiatedTask, if_neg hfree] at h
  dsimp only at h
  split at h
  · next dst src =>
      cases hget : tm.transferorRegistry.get dst.type src.type with
      | none =>
          simp only [hget, Except.ok.injEq, Prod.mk.injEq] at h
          obtain ⟨rfl, rfl, rfl⟩ := h
          exact ⟨rfl, by decide, by simp⟩
      | some tx =>
          simp only [hget] at h
          cases hval : tx.validate src dst with
          | false =>
              simp only [hval, Bool.not_false, if_true, Except.ok.injEq, Prod.mk.injEq] at h
              obtain ⟨rfl, rfl, rfl⟩ := h
              exact ⟨rfl, by decide, by simp⟩
          | true =>
              simp only [hval, Bool.not_true, Bool.false_eq_true, if_false, Except.ok.injEq,
                Prod.mk.injEq] at h
              obtain ⟨rfl, rfl, rfl⟩ := h
              refine ⟨rfl, by decide, fun t' ht => ?_⟩
              rw [← Option.some.inj ht]
  · cases h

theorem createLocal_cases {tm tm' : TaskManager} {type : IotaskType} {auth : Credentials}
    {backendPtrs : List Backend} {rinfoPtrs : List ResourceInfo} {size : UInt64} {e : UrdError}
    {t : Option GenericTask}
    (h : tm.createLocalInitiatedTask type auth backendPtrs rinfoPtrs size = .ok (tm', e, t)) :
    (tm.nextId ∈ tm.taskInfo ∧ tm' = tm ∧ e = .tooManyTasks) ∨ Entered tm tm' e t := by
  by_cases htaken : tm.nextId ∈ tm.taskInfo
  · unfold TaskManager.createLocalInitiatedTask at h
    rw [if_pos htaken] at h
    simp only [Except.ok.injEq, Prod.mk.injEq] at h
    exact Or.inl ⟨htaken, h.1.symm, h.2.1.symm⟩
  · obtain ⟨src, dst, htm, he, ht⟩ := createLocal_record htaken h
    exact Or.inr ⟨htaken, he, ht, _, rfl, htm⟩

theorem createRemote_cases {tm tm' : TaskManager} {type : IotaskType} {auth : Credentials}
    {srcBackend dstBackend : Backend} {srcRinfo dstRinfo : Option ResourceInfo} {size : UInt64}
    {e : UrdError} {t : Option GenericTask}
    (h : tm.createRemoteInitiatedTask type auth srcBackend srcRinfo dstBackend dstRinfo size =
      .ok (tm', e, t)) :
    (tm.nextId ∈ tm.taskInfo ∧ tm' = tm ∧ e = .tooManyTasks) ∨ Entered tm tm' e t := by
  by_cases htaken : tm.nextId ∈ tm.taskInfo
  · rw [TaskManager.createRemoteInitiatedTask, if_pos htaken] at h
    simp only [Except.ok.injEq, Prod.mk.injEq] at h
    exact Or.inl ⟨htaken, h.1.symm, h.2.1.symm⟩
  · obtain ⟨htm, he, ht⟩ := createRemote_record htaken h
    exact Or.inr ⟨htaken, he, ht, _, rfl, htm⟩

/-- A creation that returns either is refused for the id and changes nothing, or enters a record
for the next id. -/
theorem create_cases {tm tm' : TaskManager} {req : CreateRequest} {e : UrdError}
    {t : Option GenericTask} (h : tm.create req = .ok (tm', e, t)) :
    (tm.nextId ∈ tm.taskInfo ∧ tm' = tm ∧ e = .tooManyTasks) ∨ Entered tm tm' e t := by
  cases req with
  | localInitiated => exact createLocal_cases h
  | remoteInitiated => exact createRemote_cases h

theorem create_of_taken {tm : TaskManager} (htaken : tm.nextId ∈ tm.taskInfo)
    (req : CreateRequest) : tm.create req = .ok (tm, .tooManyTasks, none) := by
  cases req with
  | localInitiated => exact if_pos htaken
  | remoteInitiated => exact if_pos htaken

/-! ### Fresh ids -/

/-- The task has an id of its own that a client can use: it is not 0, no other task of the table
has it, and the table leads to the new record. -/
def FreshId (tm tm' : TaskManager) (t : GenericTask) : Prop :=
  t.info ≠ 0 ∧ (∀ k info, tm.taskInfo.lookup k = some info → info.id ≠ t.info) ∧
  ∃ info, tm'.taskInfo.lookup t.info = some info ∧ info.id = t.info

/-- The counter is not about to wrap when a task is created. -/
def NoWrap (tm tm' : TaskManager) : Prop := tm'.idBase ≠ tm.idBase → tm.nextId ≠ 0

/-- Every record is under its own id. -/
def TaskManager.KeysOk (tm : TaskManager) : Prop :=
  ∀ k info, tm.taskInfo.lookup k = some info → info.id = k

theorem lookup_enter {tm : TaskManager} (hfree : tm.nextId ∉ tm.taskInfo) (info : TaskInfo)
    (k : IotaskId) : (tm.enter info).taskInfo.lookup k =
      if k = tm.nextId then some info else tm.taskInfo.lookup k :=
  Table.lookup_emplace_of_notMem hfree

theorem keysOk_fresh {tm : TaskManager} (h : tm.Fresh) : tm.KeysOk := by
  intro k info hl
  rw [h.2] at hl
  cases hl

theorem keysOk_erase {tm : TaskManager} (h : tm.KeysOk) (tid : IotaskId) :
    (tm.erase tid).1.KeysOk := by
  unfold TaskManager.erase
  split_ifs
  · intro k info hl
    rw [Table.lookup_erase'] at hl
    split_ifs at hl
    exact h k info hl
  · exact h

theorem keysOk_step (tm tm' : TaskManager) (h : tm.KeysOk) (hstep : ManagerStep tm tm') :
    tm'.KeysOk := by
  cases hstep with
  | erase tid => exact keysOk_erase h tid
  | create req hcreate =>
      obtain ⟨-, rfl, -⟩ | ⟨hfree, -, -, info, hid, rfl⟩ := create_cases hcreate
      · exact h
      · intro k info' hl
        rw [lookup_enter hfree] at hl
        split_ifs at hl with hk
        · rw [← Option.some.inj hl, hid, hk]
        · exact h k info' hl

/-- No task of the table has the id 0, as long as the counter does not wrap. -/
theorem zero_notMem_step (tm tm' : TaskManager) (h : 0 ∉ tm.taskInfo)
    (hstep : Guarded ManagerStep NoWrap tm tm') : 0 ∉ tm'.taskInfo := by
  obtain ⟨hstep, hwrap⟩ := hstep
  cases hstep with
  | erase tid =>
      unfold TaskManager.erase
      split_ifs
      · exact fun hm => h (AList.mem_erase.mp hm).2
      · exact h
  | create req hcreate =>
      obtain ⟨-, rfl, -⟩ | ⟨hfree, -, -, info, hid, rfl⟩ := create_cases hcreate
      · exact h
      · have hne : tm.nextId ≠ 0 := hwrap (by simp [TaskManager.enter, TaskManager.nextId])
        rw [← AList.lookup_eq_none, lookup_enter hfree, if_neg (Ne.symm hne)]
        exact AList.lookup_eq_none.mpr h

theorem nextId_ne_zero_iff {tm : TaskManager} : tm.nextId ≠ 0 ↔ tm.idBase ≠ 0xFFFFFFFF := by
  have h : (0xFFFFFFFF : UInt32) + 1 = 0 := by decide
  unfold TaskManager.nextId
  rw [← h, Ne, Ne, UInt32.add_left_inj]

/-- **Task identifiers.**  In every run a new task has an id of its own, and one that is not 0
exactly if the counter does not wrap with it; so in the runs in which it never does, no task has
the id 0. -/
theorem task_ids_fresh (tm₀ : TaskManager) (hinit : tm₀.Fresh) :
    (∀ tm, Run ManagerStep tm₀ tm → ∀ req tm' t, tm.create req = .ok (tm', .success, some t) →
      (FreshId tm tm' t ↔ tm.idBase ≠ 0xFFFFFFFF)) ∧
    (∀ tm, Run (Guarded ManagerStep NoWrap) tm₀ tm → tm.KeysOk ∧ 0 ∉ tm.taskInfo ∧
      ∀ req tm' t, tm.create req = .ok (tm', .success, some t) → NoWrap tm tm' →
        FreshId tm tm' t) := by
  have hfresh : ∀ tm, Run ManagerStep tm₀ tm → ∀ req tm' t,
      tm.create req = .ok (tm', .success, some t) →
      (FreshId tm tm' t ↔ tm.idBase ≠ 0xFFFFFFFF) ∧ tm'.idBase = tm.nextId := by
    intro tm hrun req tm' t hcreate
    have hkeys : tm.KeysOk := hrun.invariant keysOk_step (keysOk_fresh hinit)
    obtain ⟨-, -, he⟩ | ⟨hfree, -, hinfo, info, hid, rfl⟩ := create_cases hcreate
    · cases he
    · refine ⟨?_, rfl⟩
      rw [← nextId_ne_zero_iff, FreshId, hinfo t rfl]
      refine ⟨fun h => h.1, fun hne => ⟨hne, fun k info' hl heq => ?_, info, ?_, hid⟩⟩
      · have hk := hkeys k info' hl
        rw [heq] at hk
        rw [← hk, AList.lookup_eq_none.mpr hfree] at hl
        cases hl
      · rw [lookup_enter hfree, if_pos rfl]
  refine ⟨fun tm hrun req tm' t hcreate => (hfresh tm hrun req tm' t hcreate).1, ?_⟩
  intro tm hrun
  refine ⟨hrun.of_guarded.invariant keysOk_step (keysOk_fresh hinit), ?_, ?_⟩
  · apply hrun.invariant zero_notMem_step
    rw [hinit.2]
    exact AList.notMem_empty 0
  · intro req tm' t hcreate hwrap
    obtain ⟨hiff, hbase⟩ := hfresh tm hrun.of_guarded req tm' t hcreate
    refine hiff.mpr (nextId_ne_zero_iff.mp (hwrap ?_))
    rw [hbase]
    simp [TaskManager.nextId]

/-- The removal of a file, by a client. -/
def removeRequest : CreateRequest :=
  .localInitiated .remove ⟨1, 0, 0⟩ [⟨.posixFilesystem, "tmp0", false, "/mnt".toList, 0⟩]
    [.localPath "tmp0" "a"] 0

theorem create_removeRequest (tm : TaskManager) (hdry : tm.dryRun = false)
    (hfree : tm.nextId ∉ tm.taskInfo) :
    ∃ info, tm.create removeRequest =
      .ok (tm.enter info, .success, some ⟨.remove, tm.nextId, none⟩) := by
  simp only [TaskManager.create, removeRequest, TaskManager.createLocalInitiatedTask,
    if_neg hfree, hdry]
  exact ⟨_, rfl⟩

/-- A creation followed by the erasure of its record moves the counter by one. -/
theorem run_recycle (tm : TaskManager) (hdry : tm.dryRun = false)
    (hfree : tm.nextId ∉ tm.taskInfo) : Run ManagerStep tm { tm with idBase := tm.nextId } := by
  obtain ⟨info, hcreate⟩ := create_removeRequest tm hdry hfree
  refine (Relation.ReflTransGen.single (ManagerStep.create _ hcreate)).tail ?_
  have hmem : tm.nextId ∈ (tm.enter info).taskInfo := by
    rw [← AList.lookup_isSome, lookup_enter hfree, if_pos rfl]
    rfl
  have herase : ((tm.enter info).erase tm.nextId).1 = { tm with idBase := tm.nextId } := by
    rw [TaskManager.erase, if_pos hmem]
    simp only [TaskManager.enter, Table.erase_emplace_of_notMem hfree]
  exact herase ▸ ManagerStep.erase tm.nextId

/-- The counter can be moved past any stretch of free ids. -/
theorem run_counter (tm : TaskManager) (hdry : tm.dryRun = false) (n : ℕ)
    (hfree : ∀ i < n, tm.idBase + UInt32.ofNat i + 1 ∉ tm.taskInfo) :
    Run ManagerStep tm { tm with idBase := tm.idBase + UInt32.ofNat n } := by
  induction n with
  | zero => simpa using Relation.ReflTransGen.refl
  | succ n ih =>
      refine (ih fun i hi => hfree i (by omega)).trans ?_
      have hnext := run_recycle { tm with idBase := tm.idBase + UInt32.ofNat n } hdry
        (hfree n (by omega))
      rw [UInt32.ofNat_add, ← UInt32.add_assoc]
      exact hnext

/-- After 2^32 - 1 tasks the next one gets the id 0. -/
theorem wrapped_counter_gives_zero :
    ∃ tm tm' t, Run ManagerStep .init tm ∧ tm.create removeRequest = .ok (tm', .success, some t) ∧
      t.info = 0 ∧ ¬ FreshId tm tm' t := by
  have hrun := run_counter .init rfl 0xFFFFFFFF fun _ _ => AList.notMem_empty _
  obtain ⟨info, hcreate⟩ := create_removeRequest { TaskManager.init with
    idBase := TaskManager.init.idBase + UInt32.ofNat 0xFFFFFFFF } rfl (AList.notMem_empty _)
  exact ⟨_, _, _, hrun, hcreate, by decide, fun h => h.1 (by decide)⟩

/-- The second task of a daemon, created while the record of the first is in the table. -/
theorem second_task_fresh :
    ∃ tm tm' t, Run ManagerStep .init tm ∧ 1 ∈ tm.taskInfo ∧
      tm.create removeRequest = .ok (tm', .success, some t) ∧ t.info = 2 ∧ FreshId tm tm' t := by
  obtain ⟨info, hfirst⟩ := create_removeRequest .init rfl (AList.notMem_empty _)
  have hrun : Run ManagerStep .init (TaskManager.init.enter info) :=
    Relation.ReflTransGen.single (ManagerStep.create _ hfirst)
  have hfree : (TaskManager.init.enter info).nextId ∉ (TaskManager.init.enter info).taskInfo := by
    rw [← AList.lookup_eq_none, lookup_enter (AList.notMem_empty _)]
    rfl
  have htaken : 1 ∈ (TaskManager.init.enter info).taskInfo := by
    rw [← AList.lookup_isSome, lookup_enter (AList.notMem_empty _)]
    rfl
  obtain ⟨info', hsecond⟩ := create_removeRequest (TaskManager.init.enter info) rfl hfree
  exact ⟨_, _, _, hrun, htaken, hsecond, rfl,
    ((task_ids_fresh .init ⟨rfl, rfl⟩).1 _ hrun _ _ _ hsecond).mpr
      (show (1 : UInt32) ≠ 0xFFFFFFFF by decide)⟩

/-! ### A full table -/

/-- No id that a client can use is free. -/
def TaskManager.Full (tm : TaskManager) : Prop := ∀ id : IotaskId, id ≠ 0 → id ∈ tm.taskInfo

/-- The result of the last of `n + 1` calls with the same arguments. -/
def TaskManager.retry (tm : TaskManager) (req : CreateRequest) : ℕ → CreateResult
  | 0 => tm.create req
  | n + 1 =>
      match tm.retry req n with
      | .ok (tm', _, _) => tm'.create req
      | .error f => .error f

/-- The call is refused for want of an id. -/
def TooMany (r : CreateResult) : Prop := ∃ tm t, r = .ok (tm, .tooManyTasks, t)

/-- What `too_many_tasks` should mean: no id is free, and if one is, repeating the call helps. -/
structure TooManyMeansFull (tm : TaskManager) : Prop where
  full : ∀ req, TooMany (tm.create req) → tm.Full
  retry : ¬ tm.Full → ∀ req, ∃ n, ¬ TooMany (tm.retry req n)

theorem tooMany_create_iff {tm : TaskManager} {req : CreateRequest} :
    TooMany (tm.create req) ↔ tm.nextId ∈ tm.taskInfo := by
  constructor
  · rintro ⟨tm', t, h⟩
    obtain ⟨htaken, -, -⟩ | ⟨-, he, -⟩ := create_cases h
    · exact htaken
    · exact absurd rfl he
  · intro htaken
    exact ⟨tm, none, create_of_taken htaken req⟩

/-- A refused call leaves the counter where it was, and so does the next one. -/
theorem retry_of_taken {tm : TaskManager} (htaken : tm.nextId ∈ tm.taskInfo) (req : CreateRequest)
    (n : ℕ) : tm.retry req n = .ok (tm, .tooManyTasks, none) := by
  induction n with
  | zero => exact create_of_taken htaken req
  | succ n ih =>
      rw [TaskManager.retry, ih]
      exact create_of_taken htaken req

/-- **`too_many_tasks` means that the table is full** exactly in the states in which the next id
is free or none is. -/
theorem tooMany_means_full_iff (tm : TaskManager) :
    TooManyMeansFull tm ↔ tm.nextId ∉ tm.taskInfo ∨ tm.Full := by
  constructor
  · intro h
    by_cases htaken : tm.nextId ∈ tm.taskInfo
    · exact Or.inr (h.full removeRequest (tooMany_create_iff.mpr htaken))
    · exact Or.inl htaken
  · rintro (hfree | hfull)
    · refine ⟨fun req h => absurd (tooMany_create_iff.mp h) hfree, fun _ req => ⟨0, ?_⟩⟩
      exact fun h => hfree (tooMany_create_iff.mp h)
    · exact ⟨fun _ _ => hfull, fun h => absurd hfull h⟩

/-- A task that keeps the id 1 blocks the daemon once the counter has come round, with every other
id free. -/
theorem long_lived_task_blocks :
    ∃ tm, Run ManagerStep .init tm ∧ (∀ id, id ≠ 1 → id ∉ tm.taskInfo) ∧
      (∀ req n, TooMany (tm.retry req n)) ∧ ¬ TooManyMeansFull tm := by
  obtain ⟨info, hcreate⟩ := create_removeRequest .init rfl (AList.notMem_empty _)
  have hother : ∀ id : IotaskId, id ≠ 1 → id ∉ (TaskManager.init.enter info).taskInfo := by
    intro id hid
    rw [← AList.lookup_eq_none, lookup_enter (AList.notMem_empty _)]
    exact if_neg hid
  -- the counter goes from 1 to 2^32 - 1 and on to 0
  have hrun := run_counter (TaskManager.init.enter info) rfl 0xFFFFFFFF fun i hi => by
    refine hother _ fun h => ?_
    have h0 : UInt32.ofNat i + 1 = 0 := by
      have h1 : (1 : UInt32) + (UInt32.ofNat i + 1) = 1 + 0 := by
        rw [← UInt32.add_assoc]
        exact h
      exact (UInt32.add_right_inj 1).mp h1
    have h2 := congrArg UInt32.toNat h0
    simp only [UInt32.toNat_add, UInt32.toNat_ofNat', UInt32.toNat_one, UInt32.toNat_zero] at h2
    omega
  have hnext : (TaskManager.init.enter info).idBase + UInt32.ofNat 0xFFFFFFFF + 1 = 1 := by
    show (1 : UInt32) + UInt32.ofNat 0xFFFFFFFF + 1 = 1
    decide
  obtain ⟨tm, hreach, hnext, htable⟩ : ∃ tm, Run ManagerStep .init tm ∧ tm.nextId = 1 ∧
      tm.taskInfo = (TaskManager.init.enter info).taskInfo :=
    ⟨_, (Relation.ReflTransGen.single (ManagerStep.create _ hcreate)).trans hrun, hnext, rfl⟩
  have htaken : tm.nextId ∈ tm.taskInfo := by
    rw [hnext, htable, ← AList.lookup_isSome, lookup_enter (AList.notMem_empty _)]
    rfl
  rw [← htable] at hother
  refine ⟨tm, hreach, hother, fun req n => ⟨_, _, retry_of_taken htaken req n⟩, fun h => ?_⟩
  exact hother 2 (by decide) (h.full removeRequest (tooMany_create_iff.mpr htaken) 2 (by decide))

end Norns
