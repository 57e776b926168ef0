import Norns.Request
import Norns.TaskManager

/-! # The daemon: submissions

The state of `urd` and the handler of `IOTASK_SUBMIT` (`urd::iotask_create_handler`).  The
handler collects the resources that are there into vectors, binds them to backends and hands the
vectors to the task manager, which assumes that the first entry is the source and that the length
fits the operation.  Nothing on the way checks this: `is_valid` accepts the null flag before it
looks at anything else, for the source as well as for the destination, whatever the operation.

`submit_safe_iff` gives the accepted messages for which the assumptions hold. -/

namespace Norns

open Lib

/-- The members of `urd` that the handlers use; `runners` are the tasks given to the pool. -/
structure Urd where
  isPaused : Bool
  namespaceMgr : NamespaceManager
  taskMgr : TaskManager
  runners : List GenericTask

/-- `task_manager::enqueue_task`. -/
def Urd.enqueueTask (u : Urd) (t : GenericTask) : Urd :=
  match t.type with
  | .remove | .noop | .copy | .move => { u with runners := u.runners ++ [t] }
  | _ => u

/-- `rinfo_ptrs`: the resources that are there. -/
def rinfoPtrs (src dst : Option ResourceInfo) : List ResourceInfo := [src, dst].filterMap id

/-- `nsids` and `remotes`. -/
def namespaceIds (rinfos : List ResourceInfo) : List (String × Bool) :=
  rinfos.map (fun r => (r.nsid, r.isRemote))

/-- `urd::iotask_create_handler`; the response carries an error code and a task id. -/
def Urd.iotaskCreateHandler (u : Urd) (credentials : Option Credentials) (type : IotaskType)
    (src dst : Option ResourceInfo) (size : UInt64) : Except Fault (Urd × UrdError × IotaskId) :=
  if u.isPaused then .ok (u, .acceptPaused, 0)
  else
    match credentials with
    | none => .ok (u, .snafu, 0)
    | some auth =>
        match NamespaceManager.findAll u.namespaceMgr (namespaceIds (rinfoPtrs src dst)) with
        | none => .ok (u, .noSuchNamespace, 0)
        | some backendPtrs =>
            match type with
            | .move | .copy | .remove | .noop =>
                match u.taskMgr.createLocalInitiatedTask type auth backendPtrs
                    (rinfoPtrs src dst) size with
                | .error f => .error f
                | .ok (tm, rv, t) =>
                    match rv, t with
                    | .success, some t =>
                        .ok (Urd.enqueueTask { u with taskMgr := tm } t, .success, t.info)
                    | .success, none => .error .nullDeref
                    | _, _ => .ok ({ u with taskMgr := tm }, rv, 0)
            | _ => .ok (u, .badArgs, 0)

/-- A submission gets to the `get_size` of a POSIX backend, which walks over the files of the
source. -/
def Urd.asksFiles (u : Urd) (credentials : Option Credentials) (type : IotaskType)
    (src dst : Option ResourceInfo) : Bool :=
  !u.isPaused && credentials.isSome &&
  decide (type = .move ∨ type = .copy ∨ type = .remove ∨ type = .noop) &&
  decide (u.taskMgr.nextId ∉ u.taskMgr.taskInfo) &&
  match NamespaceManager.findAll u.namespaceMgr (namespaceIds (rinfoPtrs src dst)),
      rinfoPtrs src dst with
  | some (b :: _), .localPath _ _ :: _ => decide (b.kind = .posixFilesystem)
  | _, _ => false

theorem Urd.enqueueTask_eq (u : Urd) (t : GenericTask) :
    ∃ runners, u.enqueueTask t = { u with runners := runners } := by
  unfold Urd.enqueueTask
  split <;> exact ⟨_, rfl⟩

/-- A submission changes neither the flag nor the namespaces. -/
theorem Urd.iotaskCreateHandler_frame {u u' : Urd} {creds : Option Credentials}
    {type : IotaskType} {src dst : Option ResourceInfo} {size : UInt64} {rv : UrdError}
    {tid : IotaskId} (h : u.iotaskCreateHandler creds type src dst size = .ok (u', rv, tid)) :
    u'.isPaused = u.isPaused ∧ u'.namespaceMgr = u.namespaceMgr := by
  unfold Urd.iotaskCreateHandler at h
  split at h
  · cases h
    exact ⟨rfl, rfl⟩
  · split at h
    · cases h
      exact ⟨rfl, rfl⟩
    · split at h
      · cases h
        exact ⟨rfl, rfl⟩
      · split at h
        all_goals
          try
            cases h
            exact ⟨rfl, rfl⟩
        all_goals
          split at h
          · cases h
          · split at h
            · cases h
              obtain ⟨runners, hq⟩ := Urd.enqueueTask_eq { u with taskMgr := _ } _
              rw [hq]
              exact ⟨rfl, rfl⟩
            · cases h
            · cases h
              exact ⟨rfl, rfl⟩

/-! ### Accepted submissions -/

/-- The message describes a resource: a memory region with its buffer, or a path with its place.
The flags are looked at in the order of `create_from`. -/
def ResourceMsg.Describes (res : ResourceMsg) : Prop :=
  (res.has NORNS_PROCESS_MEMORY = true ∧ res.buffer.isSome = true) ∨
  (res.has NORNS_PROCESS_MEMORY = false ∧ res.has NORNS_POSIX_PATH = true ∧
    res.path.isSome = true ∧
    (res.has R_LOCAL = true ∨ res.has R_SHARED = true ∨ res.has R_REMOTE = true))

/-- The message describes nothing. -/
def ResourceMsg.IsNull (res : ResourceMsg) : Prop :=
  res.has NORNS_PROCESS_MEMORY = false ∧ res.has NORNS_POSIX_PATH = false

/-- `create_from` yields a resource, from sub-messages that are there, exactly if the message
describes one. -/
theorem createFrom_some_iff {res : ResourceMsg} (h : res.isValid = true) :
    (∃ info, res.createFrom = .ok ⟨some info, false⟩) ↔ res.Describes := by
  have hspec := ResourceMsg.isValid_spec h
  unfold ResourceMsg.createFrom ResourceMsg.Describes
  simp only [h, Bool.not_true, Bool.false_eq_true, if_false]
  cases hmem : res.has NORNS_PROCESS_MEMORY with
  | true => cases res.buffer <;> simp
  | false =>
      cases hposix : res.has NORNS_POSIX_PATH with
      | false =>
          have hnull : res.has NORNS_NULL_RESOURCE = true := by simpa [hmem, hposix] using hspec
          simp [hnull]
      | true =>
          cases hl : res.has R_LOCAL <;> cases hs : res.has R_SHARED <;>
            cases hr : res.has R_REMOTE <;> cases res.path <;> simp

/-- `create_from` yields the null pointer exactly if the message describes nothing. -/
theorem createFrom_none_iff {res : ResourceMsg} (h : res.isValid = true) :
    res.createFrom = .ok ⟨none, false⟩ ↔ res.IsNull := by
  have hspec := ResourceMsg.isValid_spec h
  unfold ResourceMsg.createFrom ResourceMsg.IsNull
  simp only [h, Bool.not_true, Bool.false_eq_true, if_false]
  cases hmem : res.has NORNS_PROCESS_MEMORY with
  | true => simp
  | false =>
      cases hposix : res.has NORNS_POSIX_PATH with
      | false =>
          have hnull : res.has NORNS_NULL_RESOURCE = true := by simpa [hmem, hposix] using hspec
          simp [hnull]
      | true =>
          cases hl : res.has R_LOCAL <;> cases hs : res.has R_SHARED <;>
            cases hr : res.has R_REMOTE <;> simp

/-- What the handler and the task manager rely on: `create_from` meets its assertions and reads
only what is there, the first resource is the source, their number fits the operation, and the
handler runs to its end in every state in which the namespaces are found. -/
structure SubmitSafe (task : TaskMsg) (src : ResourceInfo) (dst : Option ResourceInfo) : Prop where
  source : task.source.createFrom = .ok ⟨some src, false⟩
  destination : task.destination.createFrom = .ok ⟨dst, false⟩
  first : (rinfoPtrs (some src) dst).head? = some src
  one : decodeIotaskType task.optype = .remove → (rinfoPtrs (some src) dst).length = 1
  two : decodeIotaskType task.optype = .copy ∨ decodeIotaskType task.optype = .move →
    (rinfoPtrs (some src) dst).length = 2
  runs : ∀ (u : Urd) creds size,
    NamespaceManager.findAll u.namespaceMgr (namespaceIds (rinfoPtrs (some src) dst)) ≠ none →
    ∃ r, u.iotaskCreateHandler creds (decodeIotaskType task.optype) (some src) dst size = .ok r

section Vectors

variable {src : ResourceInfo} {dst : Option ResourceInfo}

theorem length_rinfoPtrs_one : (rinfoPtrs (some src) dst).length = 1 ↔ dst = none := by
  cases dst <;> simp [rinfoPtrs]

theorem length_rinfoPtrs_two :
    (rinfoPtrs (some src) dst).length = 2 ↔ ∃ info, dst = some info := by
  cases dst <;> simp [rinfoPtrs]

/-- With a source, and a destination where one is needed, the vectors are well formed. -/
theorem localShape_rinfoPtrs {type : IotaskType} {bs : List Backend}
    (hlen : bs.length = (rinfoPtrs (some src) dst).length)
    (htwo : type = .copy ∨ type = .move → ∃ info, dst = some info) :
    LocalShape type bs (rinfoPtrs (some src) dst) := by
  refine ⟨?_, by simp [rinfoPtrs], fun h => ?_⟩
  · rw [hlen]
    cases dst <;> simp [rinfoPtrs]
  · have h2 : (rinfoPtrs (some src) dst).length = 2 := length_rinfoPtrs_two.mpr (htwo h)
    exact ⟨hlen.trans h2, h2.ge⟩

/-- Vectors of the right length let the handler run to its end. -/
theorem iotaskCreateHandler_total (u : Urd) (creds : Option Credentials) {type : IotaskType}
    (size : UInt64) (hone : type = .remove → dst = none)
    (htwo : type = .copy ∨ type = .move → ∃ info, dst = some info) :
    ∃ r, u.iotaskCreateHandler creds type (some src) dst size = .ok r := by
  unfold Urd.iotaskCreateHandler
  split_ifs
  · exact ⟨_, rfl⟩
  · cases creds with
    | none => exact ⟨_, rfl⟩
    | some auth =>
        dsimp only
        cases hfind : NamespaceManager.findAll u.namespaceMgr
            (namespaceIds (rinfoPtrs (some src) dst)) with
        | none => exact ⟨_, rfl⟩
        | some bs =>
            have hlen : bs.length = (rinfoPtrs (some src) dst).length :=
              (NamespaceManager.length_findAll hfind).trans (List.length_map _)
            obtain ⟨tm, e, t, hr, hsome⟩ := createLocal_total u.taskMgr auth size
              (localShape_rinfoPtrs hlen htwo)
              fun h => hlen.trans (length_rinfoPtrs_one.mpr (hone h))
            dsimp only
            split
            all_goals
              try exact ⟨_, rfl⟩
            all_goals
              rw [hr]
              dsimp only
              split
              · exact ⟨_, rfl⟩
              · obtain ⟨t', ht'⟩ := hsome rfl
                cases ht'
              · exact ⟨_, rfl⟩

end Vectors

theorem submitSafe_of_created {task : TaskMsg} {src : ResourceInfo} {dst : Option ResourceInfo}
    (hs : task.source.createFrom = .ok ⟨some src, false⟩)
    (hd : task.destination.createFrom = .ok ⟨dst, false⟩)
    (hone : decodeIotaskType task.optype = .remove → dst = none)
    (htwo : decodeIotaskType task.optype = .copy ∨ decodeIotaskType task.optype = .move →
      ∃ info, dst = some info) : SubmitSafe task src dst where
  source := hs
  destination := hd
  first := by cases dst <;> rfl
  one h := length_rinfoPtrs_one.mpr (hone h)
  two h := length_rinfoPtrs_two.mpr (htwo h)
  runs u creds size _ := iotaskCreateHandler_total u creds size hone htwo

/-- **Safety of accepted submissions**: a message that passes `is_valid` is safe to execute
exactly if its source describes a resource, and its destination describes one if the operation
has a destination and nothing if it has none. -/
theorem submit_safe_iff (task : TaskMsg) (hvalid : task.isValid = true) :
    (∃ src dst, SubmitSafe task src dst) ↔
      task.source.Describes ∧
      (decodeIotaskType task.optype = .remove → task.destination.IsNull) ∧
      (decodeIotaskType task.optype = .copy ∨ decodeIotaskType task.optype = .move →
        task.destination.Describes) := by
  obtain ⟨hop, hsrc, hdst⟩ := TaskMsg.isValid_spec hvalid
  constructor
  · rintro ⟨src, dst, hsafe⟩
    refine ⟨(createFrom_some_iff hsrc).mp ⟨src, hsafe.source⟩, fun hty => ?_, fun hty => ?_⟩
    · obtain rfl := length_rinfoPtrs_one.mp (hsafe.one hty)
      exact (createFrom_none_iff hdst).mp hsafe.destination
    · obtain ⟨info, rfl⟩ := length_rinfoPtrs_two.mp (hsafe.two hty)
      exact (createFrom_some_iff hdst).mp ⟨info, hsafe.destination⟩
  · rintro ⟨hdesc, hremove, htransfer⟩
    obtain ⟨src, hs⟩ := (createFrom_some_iff hsrc).mpr hdesc
    by_cases hty : decodeIotaskType task.optype = .remove
    · have hd := (createFrom_none_iff hdst).mpr (hremove hty)
      refine ⟨src, none, submitSafe_of_created hs hd (fun _ => rfl) fun h => ?_⟩
      rw [hty] at h
      simp at h
    · have htx : decodeIotaskType task.optype = .copy ∨ decodeIotaskType task.optype = .move := by
        tauto
      obtain ⟨dst, hd⟩ := (createFrom_some_iff hdst).mpr (htransfer htx)
      exact ⟨src, some dst,
        submitSafe_of_created hs hd (fun h => absurd h hty) fun _ => ⟨dst, rfl⟩⟩

/-- A local path in a namespace. -/
def localPathMsg (nsid datapath : String) : ResourceMsg :=
  ⟨NORNS_POSIX_PATH ||| R_LOCAL, none, some ⟨nsid, none, datapath, false⟩⟩

/-- The destination that `norns_iotask_init` writes when it is given none. -/
def nullMsg : ResourceMsg := ⟨NORNS_NULL_RESOURCE, none, none⟩

/-- A copy from one local path to another. -/
theorem copy_submit_safe :
    ∃ src dst, SubmitSafe ⟨0, NORNS_IOTASK_COPY, localPathMsg "tmp0" "a", localPathMsg "tmp0" "b"⟩
      src dst :=
  (submit_safe_iff _ (by decide)).mpr
    ⟨Or.inr (by decide), fun h => absurd h (by decide), fun _ => Or.inr (by decide)⟩

/-- A daemon with one POSIX namespace. -/
def Urd.withNamespace : Urd :=
  ⟨false, (∅ : NamespaceManager).insert "tmp0" ⟨.posixFilesystem, "tmp0", false, "/mnt".toList, 0⟩,
    .init, []⟩

/-- A copy without a destination is accepted and stops the daemon. -/
theorem copy_without_destination_stops :
    let task : TaskMsg := ⟨0, NORNS_IOTASK_COPY, localPathMsg "tmp0" "a", nullMsg⟩
    task.isValid = true ∧
    decodeSubmit task = .ok (.iotaskCreate .copy (some (.localPath "tmp0" "a")) none) ∧
    NamespaceManager.findAll Urd.withNamespace.namespaceMgr
      (namespaceIds (rinfoPtrs (some (.localPath "tmp0" "a")) none)) ≠ none ∧
    Urd.withNamespace.iotaskCreateHandler (some ⟨1, 0, 0⟩) .copy
      (some (.localPath "tmp0" "a")) none 0 = .error .assertion ∧
    ¬ ∃ src dst, SubmitSafe task src dst := by
  refine ⟨by decide, by decide, by decide, rfl, ?_⟩
  rintro ⟨src, dst, hsafe⟩
  have hd : (⟨none, false⟩ : CreatedInfo) = ⟨dst, false⟩ := by
    have hnull : nullMsg.createFrom = .ok ⟨none, false⟩ := by decide
    exact Except.ok.inj (hnull.symm.trans hsafe.destination)
  obtain rfl : none = dst := congrArg CreatedInfo.info hd
  exact absurd (hsafe.two (by decide)) (by simp [rinfoPtrs])

end Norns
