import Norns.Resource

/-! # The task manager

`io::task_manager` keeps one record (`task_info`) per task under a 32-bit id.  Both creation
functions take the next id, refuse the request if it is taken, and *then enter the record* before
they look for a transferor and validate the request.  The errors found after that point leave the
record behind: it stays `pending`, because no worker ever sees the task.

* `createLocal_of_shape`, `createRemote_of_get` and their companions say what a creation does,
  branch by branch.
* `create_atomic_iff`: a creation is atomic on error exactly if the request is refused before the
  record is entered, or accepted.

Outside the model: bandwidths and the estimated time of arrival (floating point), and the size of
the source, which `get_size` reports. -/

namespace Norns

open Lib

/-- `auth::credentials`. -/
structure Credentials where
  pid : Int32
  uid : UInt32
  gid : UInt32
deriving DecidableEq, Repr

/-- `io::task_info`. -/
structure TaskInfo where
  id : IotaskId
  type : IotaskType
  isRemote : Bool
  auth : Credentials
  srcBackend : Option Backend
  srcRinfo : Option ResourceInfo
  dstBackend : Option Backend
  dstRinfo : Option ResourceInfo
  status : TaskStatus
  taskError : UrdError
  sysError : ErrorCode
  sentBytes : UInt64
  totalBytes : UInt64
deriving DecidableEq, Repr

/-- `generic_task`: the type, the record it belongs to and the transferor it runs. -/
structure GenericTask where
  type : IotaskType
  info : IotaskId
  transferor : Option Transferor

/-- `io::task_manager`. -/
structure TaskManager where
  idBase : IotaskId
  dryRun : Bool
  taskInfo : Table IotaskId TaskInfo
  transferorRegistry : TransferorRegistry

/-- The constructor of `task_info`; `size` is what `get_size` reports for the source. -/
def TaskInfo.new (tid : IotaskId) (type : IotaskType) (isRemote : Bool) (auth : Credentials)
    (srcBackend : Option Backend) (srcRinfo : Option ResourceInfo) (dstBackend : Option Backend)
    (dstRinfo : Option ResourceInfo) (size : UInt64) : TaskInfo :=
  { id := tid, type, isRemote, auth, srcBackend, srcRinfo, dstBackend, dstRinfo,
    status := .pending, taskError := .success, sysError := 0, sentBytes := 0,
    totalBytes := if srcRinfo.isNone then 0 else size }

/-- What a creation function returns. -/
abbrev CreateResult := Except Fault (TaskManager × UrdError × Option GenericTask)

namespace TaskManager

/-- The id that `++m_id_base` yields. -/
def nextId (tm : TaskManager) : IotaskId := tm.idBase + 1

/-- `++m_id_base` and `m_task_info.emplace`. -/
def enter (tm : TaskManager) (info : TaskInfo) : TaskManager :=
  { tm with idBase := tm.nextId, taskInfo := tm.taskInfo.emplace tm.nextId info }

/-- The `switch` at the end of `create_local_initiated_task`, after `m_dry_run` has been
looked at. -/
def makeTask (tm : TaskManager) (type : IotaskType) (nbackends : ℕ) (tx : Option Transferor) :
    CreateResult :=
  match type with
  | .remove =>
      if nbackends ≠ 1 then .error .assertion
      else .ok (tm, .success, some ⟨.remove, tm.idBase, none⟩)
  | .copy => .ok (tm, .success, some ⟨.copy, tm.idBase, tx⟩)
  | .move => .ok (tm, .success, some ⟨.move, tm.idBase, tx⟩)
  | .noop => .ok (tm, .success, some ⟨.noop, tm.idBase, none⟩)
  | _ => .ok (tm, .badArgs, none)

/-- `task_manager::create_local_initiated_task`. -/
def createLocalInitiatedTask (tm : TaskManager) (type : IotaskType) (auth : Credentials)
    (backendPtrs : List Backend) (rinfoPtrs : List ResourceInfo) (size : UInt64) : CreateResult :=
  if tm.nextId ∈ tm.taskInfo then .ok (tm, .tooManyTasks, none)
  else if ¬ (backendPtrs.length = 1 ∨ backendPtrs.length = 2) then .error .assertion
  else
    match rinfoPtrs with
    | [] => .error .outOfBounds
    | src :: rest =>
        let tm' := tm.enter (.new tm.nextId type false auth backendPtrs[0]? (some src)
          backendPtrs[1]? rest.head? size)
        if type = .copy ∨ type = .move then
          if backendPtrs.length ≠ 2 then .error .assertion
          else
            match rest with
            | [] => .error .outOfBounds
            | dst :: _ =>
                match tm.transferorRegistry.get src.type dst.type with
                | none => .ok (tm', .notSupported, none)
                | some tx =>
                    if !tx.validate src dst then .ok (tm', .badArgs, none)
                    else tm'.makeTask (if tm.dryRun then .noop else type) backendPtrs.length
                      (some tx)
        else tm'.makeTask (if tm.dryRun then .noop else type) backendPtrs.length none

/-- `task_manager::create_remote_initiated_task`; the order of the types is swapped for the
lookup, but not for the validation. -/
def createRemoteInitiatedTask (tm : TaskManager) (type : IotaskType) (auth : Credentials)
    (srcBackend : Backend) (srcRinfo : Option ResourceInfo) (dstBackend : Backend)
    (dstRinfo : Option ResourceInfo) (size : UInt64) : CreateResult :=
  if tm.nextId ∈ tm.taskInfo then .ok (tm, .tooManyTasks, none)
  else
    let tm' := tm.enter (.new tm.nextId type true auth (some srcBackend) srcRinfo
      (some dstBackend) dstRinfo size)
    match dstRinfo, srcRinfo with
    | some dst, some src =>
        match tm.transferorRegistry.get dst.type src.type with
        | none => .ok (tm', .notSupported, none)
        | some tx =>
            if !tx.validate src dst then .ok (tm', .badArgs, none)
            else .ok (tm', .success, some ⟨type, tm.nextId, some tx⟩)
    | _, _ => .error .nullDeref

/-- `task_manager::find`. -/
def find (tm : TaskManager) (tid : IotaskId) : Option TaskInfo := tm.taskInfo.lookup tid

/-- `task_manager::erase`; the flag is the returned `bool`. -/
def erase (tm : TaskManager) (tid : IotaskId) : TaskManager × Bool :=
  if tid ∈ tm.taskInfo then ({ tm with taskInfo := tm.taskInfo.erase tid }, true) else (tm, false)

/-- `task_manager::count_if`. -/
def countIf (tm : TaskManager) (p : TaskInfo → Bool) : ℕ := tm.taskInfo.countIf p

/-- The counters of `io::global_stats`. -/
structure GlobalStats where
  runningTasks : ℕ
  pendingTasks : ℕ
deriving DecidableEq, Repr

/-- `task_manager::global_stats`.  For a running task the namespace ids of both resources are
read. -/
def globalStats (tm : TaskManager) : Except Fault GlobalStats :=
  if tm.taskInfo.entries.any (fun e => e.2.status = .running &&
      (e.2.srcRinfo.isNone || e.2.dstRinfo.isNone)) then .error .nullDeref
  else .ok ⟨tm.countIf (fun ti => ti.status = .running),
    tm.countIf (fun ti => ti.status = .pending)⟩

end TaskManager

/-- `urd::check_shutdown`; `isEmpty` is what a backend answers for the state of its mount. -/
def checkShutdown (tm : TaskManager) (namespaces : NamespaceManager) (isEmpty : Backend → Bool) :
    UrdError :=
  if tm.countIf (fun ti => ti.status.active) ≠ 0 then .tasksPending
  else if namespaces.countIf (fun b => b.isTracked && !isEmpty b) ≠ 0 then .namespaceNotEmpty
  else .success

/-! ### Creation, branch by branch -/

/-- The vectors satisfy the assertions of `create_local_initiated_task` and are long enough for
its indices. -/
def LocalShape (type : IotaskType) (backendPtrs : List Backend) (rinfoPtrs : List ResourceInfo) :
    Prop :=
  (backendPtrs.length = 1 ∨ backendPtrs.length = 2) ∧ rinfoPtrs ≠ [] ∧
  (type = .copy ∨ type = .move → backendPtrs.length = 2 ∧ 2 ≤ rinfoPtrs.length)

/-- The request is one that `create_local_initiated_task` accepts: for a copy or a move a
transferor is registered for the types of the two resources and validates them, and the type is
one of those with a task (in a dry run every type is). -/
def LocalAccepted (tm : TaskManager) (type : IotaskType) (rinfoPtrs : List ResourceInfo) : Prop :=
  (type = .copy ∨ type = .move → ∃ src dst rest tx, rinfoPtrs = src :: dst :: rest ∧
    tm.transferorRegistry.get src.type dst.type = some tx ∧ tx.validate src dst = true) ∧
  (tm.dryRun = true ∨ type = .copy ∨ type = .move ∨ type = .remove ∨ type = .noop)

/-- The request is one that `create_remote_initiated_task` accepts. -/
def RemoteAccepted (tm : TaskManager) (src dst : ResourceInfo) : Prop :=
  ∃ tx, tm.transferorRegistry.get dst.type src.type = some tx ∧ tx.validate src dst = true

/-- The outcome of a creation that is accepted: a task for the newest record, or the assertion
that a removal has one backend. -/
def Created (tm : TaskManager) (type : IotaskType) (nbackends : ℕ) (r : CreateResult) : Prop :=
  (∃ t, t.info = tm.idBase ∧ r = .ok (tm, .success, some t)) ∨
  (type = .remove ∧ nbackends ≠ 1 ∧ ∃ f, r = .error f)

theorem Created.success {tm tm' : TaskManager} {type : IotaskType} {n : ℕ} {r : CreateResult}
    {e : UrdError} {t : Option GenericTask} (h : Created tm type n r)
    (hr : r = .ok (tm', e, t)) : e = .success := by
  obtain ⟨t', -, h⟩ | ⟨-, -, f, h⟩ := h
  · rw [h] at hr
    exact (Prod.mk.inj (Prod.mk.inj (Except.ok.inj hr)).2).1.symm
  · rw [h] at hr
    cases hr

/-- The last part of a local creation, for the type that a dry run makes of it. -/
theorem makeTask_cases (tm tm' : TaskManager) (type : IotaskType) (n : ℕ)
    (tx : Option Transferor) :
    let r := tm'.makeTask (if tm.dryRun then .noop else type) n tx
    let hasTask := tm.dryRun = true ∨ type = .copy ∨ type = .move ∨ type = .remove ∨ type = .noop
    (hasTask ∧ Created tm' type n r) ∨ (¬ hasTask ∧ r = .ok (tm', .badArgs, none)) := by
  intro r hasTask
  cases hdry : tm.dryRun with
  | true => exact Or.inl ⟨Or.inl hdry, Or.inl ⟨_, rfl, by simp only [r, hdry]; rfl⟩⟩
  | false =>
      have hr : r = tm'.makeTask type n tx := by simp [r, hdry]
      rw [hr]
      cases type with
      | copy => exact Or.inl ⟨by simp [hasTask], Or.inl ⟨_, rfl, rfl⟩⟩
      | move => exact Or.inl ⟨by simp [hasTask], Or.inl ⟨_, rfl, rfl⟩⟩
      | noop => exact Or.inl ⟨by simp [hasTask], Or.inl ⟨_, rfl, rfl⟩⟩
      | remoteTransfer => exact Or.inr ⟨by simp [hasTask, hdry], rfl⟩
      | unknown => exact Or.inr ⟨by simp [hasTask, hdry], rfl⟩
      | remove =>
          refine Or.inl ⟨by simp [hasTask], ?_⟩
          by_cases hn : n = 1
          · subst hn
            exact Or.inl ⟨_, rfl, rfl⟩
          · exact Or.inr ⟨rfl, hn, .assertion, if_pos hn⟩

/-- What a local creation does once a free id is found and the vectors are well formed: it leaves
the new record behind, whether it rejects the request or accepts it. -/
theorem createLocal_of_shape {tm : TaskManager} {type : IotaskType} {auth : Credentials}
    {backendPtrs : List Backend} {rinfoPtrs : List ResourceInfo} {size : UInt64}
    (hfree : tm.nextId ∉ tm.taskInfo) (hshape : LocalShape type backendPtrs rinfoPtrs) :
    let r := tm.createLocalInitiatedTask type auth backendPtrs rinfoPtrs size
    ∃ info,
      (¬ LocalAccepted tm type rinfoPtrs ∧ ∃ e, e ≠ .success ∧ r = .ok (tm.enter info, e, none)) ∨
      (LocalAccepted tm type rinfoPtrs ∧ Created (tm.enter info) type backendPtrs.length r) := by
  intro r
  obtain ⟨hlen, hne, htwo⟩ := hshape
  obtain ⟨src, rest, rfl⟩ := List.exists_cons_of_ne_nil hne
  refine ⟨.new tm.nextId type false auth backendPtrs[0]? (some src) backendPtrs[1]? rest.head?
    size, ?_⟩
  simp only [r, TaskManager.createLocalInitiatedTask, if_neg hfree, if_neg (not_not.mpr hlen)]
  generalize TaskInfo.new tm.nextId type false auth backendPtrs[0]? (some src) backendPtrs[1]?
    rest.head? size = info
  by_cases htx : type = .copy ∨ type = .move
  · obtain ⟨hlen2, hrest⟩ := htwo htx
    rw [if_pos htx, if_neg (not_not.mpr hlen2)]
    cases rest with
    | nil => exact absurd hrest (by simp)
    | cons dst rest =>
        have haccepted : LocalAccepted tm type (src :: dst :: rest) → ∃ tx,
            tm.transferorRegistry.get src.type dst.type = some tx ∧ tx.validate src dst = true := by
          rintro ⟨hacc, -⟩
          obtain ⟨src', dst', rest', tx, heq, hget, hval⟩ := hacc htx
          simp only [List.cons.injEq] at heq
          obtain ⟨rfl, rfl, rfl⟩ := heq
          exact ⟨tx, hget, hval⟩
        dsimp only
        cases hget : tm.transferorRegistry.get src.type dst.type with
        | none =>
            refine Or.inl ⟨fun h => ?_, _, by decide, rfl⟩
            obtain ⟨tx, htx', -⟩ := haccepted h
            cases hget.symm.trans htx'
        | some tx =>
            cases hval : tx.validate src dst with
            | false =>
                refine Or.inl ⟨fun h => ?_, .badArgs, by decide, by simp [hval]⟩
                obtain ⟨tx', htx', hval'⟩ := haccepted h
                obtain rfl := Option.some.inj (hget.symm.trans htx')
                cases hval.symm.trans hval'
            | true =>
                simp only [hval, Bool.not_true, Bool.false_eq_true, if_false]
                rcases makeTask_cases tm (tm.enter info) type backendPtrs.length (some tx)
                  with ⟨hok, hmade⟩ | ⟨hbad, hres⟩
                · exact Or.inr ⟨⟨fun _ => ⟨src, dst, rest, tx, rfl, hget, hval⟩, hok⟩, hmade⟩
                · exact Or.inl ⟨fun h => hbad h.2, _, by decide, hres⟩
  · rw [if_neg htx]
    rcases makeTask_cases tm (tm.enter info) type backendPtrs.length none
      with ⟨hok, hmade⟩ | ⟨hbad, hres⟩
    · exact Or.inr ⟨⟨fun h => absurd h htx, hok⟩, hmade⟩
    · exact Or.inl ⟨fun h => hbad h.2, _, by decide, hres⟩

/-- Malformed vectors stop a local creation. -/
theorem createLocal_of_not_shape {tm : TaskManager} {type : IotaskType} {auth : Credentials}
    {backendPtrs : List Backend} {rinfoPtrs : List ResourceInfo} {size : UInt64}
    (hfree : tm.nextId ∉ tm.taskInfo) (hshape : ¬ LocalShape type backendPtrs rinfoPtrs) :
    ∃ f, tm.createLocalInitiatedTask type auth backendPtrs rinfoPtrs size = .error f := by
  simp only [TaskManager.createLocalInitiatedTask, if_neg hfree]
  by_cases hlen : backendPtrs.length = 1 ∨ backendPtrs.length = 2
  · rw [if_neg (not_not.mpr hlen)]
    cases rinfoPtrs with
    | nil => exact ⟨_, rfl⟩
    | cons src rest =>
        have htx : type = .copy ∨ type = .move := by
          by_contra h
          exact hshape ⟨hlen, by simp, fun h' => absurd h' h⟩
        dsimp only
        rw [if_pos htx]
        by_cases hlen2 : backendPtrs.length = 2
        · rw [if_neg (not_not.mpr hlen2)]
          cases rest with
          | nil => exact ⟨_, rfl⟩
          | cons dst rest => exact absurd ⟨hlen, by simp, fun _ => ⟨hlen2, by simp⟩⟩ hshape
        · rw [if_pos hlen2]
          exact ⟨_, rfl⟩
  · rw [if_pos hlen]
    exact ⟨_, rfl⟩

/-- With vectors of the right length nothing stops a local creation, and a success comes with a
task. -/
theorem createLocal_total (tm : TaskManager) {type : IotaskType} (auth : Credentials)
    {backendPtrs : List Backend} {rinfoPtrs : List ResourceInfo} (size : UInt64)
    (hshape : LocalShape type backendPtrs rinfoPtrs)
    (hremove : type = .remove → backendPtrs.length = 1) :
    ∃ tm' e t, tm.createLocalInitiatedTask type auth backendPtrs rinfoPtrs size = .ok (tm', e, t) ∧
      (e = .success → ∃ t', t = some t') := by
  by_cases htaken : tm.nextId ∈ tm.taskInfo
  · exact ⟨tm, .tooManyTasks, none, if_pos htaken, by simp⟩
  · obtain ⟨info, ⟨-, e, he, hr⟩ | ⟨-, ⟨t, -, hr⟩ | ⟨hty, hlen, -⟩⟩⟩ :=
      createLocal_of_shape htaken hshape
    · exact ⟨_, e, none, hr, fun h => absurd h he⟩
    · exact ⟨_, _, _, hr, fun _ => ⟨t, rfl⟩⟩
    · exact absurd (hremove hty) hlen

section Remote

variable {tm : TaskManager} {src dst : ResourceInfo} (type : IotaskType) (auth : Credentials)
  (srcBackend dstBackend : Backend) (size : UInt64)

/-- A creation requested by a peer, with a transferor that validates it. -/
theorem createRemote_of_get {tx : Transferor} (hfree : tm.nextId ∉ tm.taskInfo)
    (hget : tm.transferorRegistry.get dst.type src.type = some tx)
    (hval : tx.validate src dst = true) :
    ∃ info,
      tm.createRemoteInitiatedTask type auth srcBackend (some src) dstBackend (some dst) size =
        .ok (tm.enter info, .success, some ⟨type, tm.nextId, some tx⟩) := by
  simp only [TaskManager.createRemoteInitiatedTask, if_neg hfree, hget, hval, Bool.not_true,
    Bool.false_eq_true, if_false]
  exact ⟨_, rfl⟩

/-- A creation requested by a peer that is rejected leaves its record behind. -/
theorem createRemote_of_not_accepted (hfree : tm.nextId ∉ tm.taskInfo)
    (hacc : ¬ RemoteAccepted tm src dst) :
    ∃ info e, e ≠ .success ∧
      tm.createRemoteInitiatedTask type auth srcBackend (some src) dstBackend (some dst) size =
        .ok (tm.enter info, e, none) := by
  simp only [TaskManager.createRemoteInitiatedTask, if_neg hfree]
  cases hget : tm.transferorRegistry.get dst.type src.type with
  | none => exact ⟨_, .notSupported, by decide, rfl⟩
  | some tx =>
      have hval : tx.validate src dst = false :=
        Bool.eq_false_iff.mpr fun hval => hacc ⟨tx, hget, hval⟩
      exact ⟨_, .badArgs, by decide, by simp only [hval]; rfl⟩

/-- A null pointer among the two descriptions stops the creation. -/
theorem createRemote_of_null {srcRinfo dstRinfo : Option ResourceInfo}
    (hfree : tm.nextId ∉ tm.taskInfo) (hnull : srcRinfo = none ∨ dstRinfo = none) :
    tm.createRemoteInitiatedTask type auth srcBackend srcRinfo dstBackend dstRinfo size =
      .error .nullDeref := by
  simp only [TaskManager.createRemoteInitiatedTask, if_neg hfree]
  obtain rfl | rfl := hnull
  · cases dstRinfo <;> rfl
  · rfl

end Remote

/-! ### Atomicity on error -/

/-- An error leaves the task table as it was, and with it the answers of `check_shutdown` and
`global_stats`. -/
def AtomicOnError (tm : TaskManager) (r : CreateResult) : Prop :=
  ∀ tm' e t, r = .ok (tm', e, t) → e ≠ .success →
    tm'.taskInfo = tm.taskInfo ∧ tm'.globalStats = tm.globalStats ∧
    ∀ namespaces isEmpty, checkShutdown tm' namespaces isEmpty = checkShutdown tm namespaces isEmpty

theorem atomicOnError_of_taken {tm : TaskManager} :
    AtomicOnError tm (.ok (tm, .tooManyTasks, none)) := by
  intro tm' e t h _
  obtain ⟨rfl, -⟩ := Prod.mk.inj (Except.ok.inj h)
  exact ⟨rfl, rfl, fun _ _ => rfl⟩

theorem atomicOnError_of_success {tm : TaskManager} {r : CreateResult}
    (h : ∀ tm' e t, r = .ok (tm', e, t) → e = .success) : AtomicOnError tm r :=
  fun tm' e t hr he => absurd (h tm' e t hr) he

theorem not_atomicOnError_enter {tm : TaskManager} {info : TaskInfo} {e : UrdError}
    {t : Option GenericTask} (hfree : tm.nextId ∉ tm.taskInfo) (he : e ≠ .success) :
    ¬ AtomicOnError tm (.ok (tm.enter info, e, t)) :=
  fun h => Table.emplace_ne_self hfree (h _ _ _ rfl he).1

/-- **Creation is atomic on error** exactly if the next id is taken, or the request is one that
the function stops on or accepts: every rejection after the lookup of the id leaves a record. -/
theorem create_atomic_iff (tm : TaskManager) :
    (∀ type auth backendPtrs rinfoPtrs size,
      AtomicOnError tm (tm.createLocalInitiatedTask type auth backendPtrs rinfoPtrs size) ↔
        tm.nextId ∈ tm.taskInfo ∨ ¬ LocalShape type backendPtrs rinfoPtrs ∨
          LocalAccepted tm type rinfoPtrs) ∧
    (∀ type auth srcBackend srcRinfo dstBackend dstRinfo size,
      AtomicOnError tm (tm.createRemoteInitiatedTask type auth srcBackend srcRinfo dstBackend
        dstRinfo size) ↔
        tm.nextId ∈ tm.taskInfo ∨
          ∀ src dst, srcRinfo = some src → dstRinfo = some dst → RemoteAccepted tm src dst) := by
  constructor
  · intro type auth backendPtrs rinfoPtrs size
    by_cases htaken : tm.nextId ∈ tm.taskInfo
    · unfold TaskManager.createLocalInitiatedTask
      rw [if_pos htaken]
      exact ⟨fun _ => Or.inl htaken, fun _ => atomicOnError_of_taken⟩
    · by_cases hshape : LocalShape type backendPtrs rinfoPtrs
      · obtain ⟨info, ⟨hacc, e, he, hr⟩ | ⟨hacc, hmade⟩⟩ := createLocal_of_shape htaken hshape
        · rw [hr]
          refine ⟨fun h => absurd h (not_atomicOnError_enter htaken he), ?_⟩
          rintro (h | h | h)
          · exact absurd h htaken
          · exact absurd hshape h
          · exact absurd h hacc
        · exact ⟨fun _ => Or.inr (Or.inr hacc), fun _ => atomicOnError_of_success
            fun tm' e t h => hmade.success h⟩
      · obtain ⟨f, hr⟩ := createLocal_of_not_shape htaken hshape
        rw [hr]
        exact ⟨fun _ => Or.inr (Or.inl hshape), fun _ => atomicOnError_of_success (by simp)⟩
  · intro type auth srcBackend srcRinfo dstBackend dstRinfo size
    by_cases htaken : tm.nextId ∈ tm.taskInfo
    · rw [TaskManager.createRemoteInitiatedTask, if_pos htaken]
      exact ⟨fun _ => Or.inl htaken, fun _ => atomicOnError_of_taken⟩
    · by_cases hnull : srcRinfo = none ∨ dstRinfo = none
      · rw [createRemote_of_null type auth srcBackend dstBackend size htaken hnull]
        refine ⟨fun _ => Or.inr ?_, fun _ => atomicOnError_of_success (by simp)⟩
        rintro src dst rfl rfl
        simp at hnull
      · obtain ⟨hs, hd⟩ := not_or.mp hnull
        obtain ⟨src, rfl⟩ := Option.ne_none_iff_exists'.mp hs
        obtain ⟨dst, rfl⟩ := Option.ne_none_iff_exists'.mp hd
        by_cases hacc : RemoteAccepted tm src dst
        · obtain ⟨tx, hget, hval⟩ := hacc
          obtain ⟨info, hr⟩ := createRemote_of_get type auth srcBackend dstBackend size htaken
            hget hval
          rw [hr]
          refine ⟨fun _ => Or.inr ?_, fun _ => atomicOnError_of_success ?_⟩
          · intro src' dst' h1 h2
            exact Option.some.inj h1 ▸ Option.some.inj h2 ▸ ⟨tx, hget, hval⟩
          · intro tm' e t h
            exact (Prod.mk.inj (Prod.mk.inj (Except.ok.inj h)).2).1.symm
        · obtain ⟨info, e, he, hr⟩ := createRemote_of_not_accepted type auth srcBackend dstBackend
            size htaken hacc
          rw [hr]
          refine ⟨fun h => absurd h (not_atomicOnError_enter htaken he), ?_⟩
          rintro (h | h)
          · exact absurd h htaken
          · exact absurd (h src dst rfl rfl) hacc

/-- The manager of a freshly started daemon. -/
def TaskManager.init : TaskManager := ⟨0, false, ∅, loadTransferPlugins⟩

/-- A copy between two shared paths is not supported; its record makes the daemon refuse to shut
down. -/
theorem rejected_copy_stays_pending :
    let r := TaskManager.init.createLocalInitiatedTask .copy ⟨1, 0, 0⟩
      [⟨.posixFilesystem, "tmp0", false, "/mnt".toList, 0⟩,
        ⟨.posixFilesystem, "tmp1", false, "/tmp".toList, 0⟩]
      [.sharedPath "tmp0" "a", .sharedPath "tmp1" "b"] 0
    ¬ AtomicOnError .init r ∧
    (∃ tm t, r = .ok (tm, .notSupported, t) ∧ checkShutdown tm ∅ (fun _ => true) = .tasksPending ∧
      tm.globalStats = .ok ⟨0, 1⟩) ∧
    checkShutdown .init ∅ (fun _ => true) = .success := by
  refine ⟨fun h => ?_, ⟨_, _, rfl, by decide, by decide⟩, by decide⟩
  exact absurd (h _ _ _ rfl (by decide)).2.1 (by decide)

end Norns
