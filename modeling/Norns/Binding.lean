import Norns.Pool
import Norns.Session

/-! # Backends and the resources they are given

A submission names two things that have nothing to do with each other: the kinds of its resources,
which select the transferor, and the namespaces, which select the backends.  A backend casts the
`resource_info` that it is given to the class it expects, and a transferor casts the resources that
the backends make; `backend::accepts` says which classes a backend expects, but no submission is
checked with it.

Namespaces come and go by registration, and `[[internal::memory]]`, which the daemon registers for
itself, is a name like any other: it can be written in a path, unregistered and registered again.

* `TaskAgrees`: the backends of a task accept its resources, so that every cast is to the class of
  the object, and what they make is what the transferor casts it to.
* `backend_agreement_iff`: for every table of namespaces that can be reached and every submission
  that is accepted, the kinds of resources and of backends for which this is so.

The resources made by a backend keep a pointer to it, which their constructors cast as well; these
casts are not among those that are looked at. -/

namespace Norns

open Lib

/-! ### What backends expect and make -/

/-- `backend::accepts`. -/
def Backend.accepts (b : Backend) (res : ResourceInfo) : Bool :=
  match b.kind, res.type with
  | .posixFilesystem, .localPosixPath => true
  | .nvmlDax, .localPosixPath => true
  | .lustre, .localPosixPath => true
  | .lustre, .sharedPosixPath => true
  | .processMemory, .memoryRegion => true
  | .remoteBackend, .localPosixPath => true
  | _, _ => false

/-- `backend::remove`: the error code, `posixEc` being that of a POSIX backend.  The other backends
do not look at the resource. -/
def Backend.remove (b : Backend) (rinfo : ResourceInfo) (posixEc : ErrorCode) :
    Except Fault ErrorCode :=
  match b.kind, rinfo with
  | .posixFilesystem, .localPath _ _ => .ok posixEc
  | .posixFilesystem, _ => .error .badCast
  | _, _ => .ok 0

/-- The class of the resources that `get_resource` and `new_resource` make. -/
def BackendKind.resourceClass : BackendKind → Option ResourceType
  | posixFilesystem => some .localPosixPath
  | nvmlDax => some .localPosixPath
  | lustre => none
  | processMemory => some .memoryRegion
  | remoteBackend => some .remoteResource

/-- The class that `transfer` casts the source to. -/
def TransferorKind.srcClass : TransferorKind → Option ResourceType
  | memoryRegionToLocalPath => some .memoryRegion
  | memoryRegionToSharedPath => some .memoryRegion
  | memoryRegionToRemoteResource => some .memoryRegion
  | localPathToLocalPath => some .localPosixPath
  | localPathToSharedPath => none
  | localPathToRemoteResource => some .localPosixPath
  | remoteResourceToLocalPath => some .remoteResource

/-- The class that `transfer` casts the destination to. -/
def TransferorKind.dstClass : TransferorKind → Option ResourceType
  | memoryRegionToLocalPath => some .localPosixPath
  | memoryRegionToSharedPath => some .sharedPosixPath
  | memoryRegionToRemoteResource => some .remoteResource
  | localPathToLocalPath => some .localPosixPath
  | localPathToSharedPath => none
  | localPathToRemoteResource => some .remoteResource
  | remoteResourceToLocalPath => some .localPosixPath

/-! ### Namespaces come and go -/

/-- The class that `urd::load_backend_plugins` registers for a type. -/
def BackendType.kind : BackendType → Option BackendKind
  | nvml => some .nvmlDax
  | lustre => some .lustre
  | posixFilesystem => some .posixFilesystem
  | _ => none

/-- `backend_factory::create_from`; `canonical` is what `bfs::canonical` makes of the mount
point. -/
def createBackend (canonical : String → Option PathStr) (type : BackendType) (nsid : String)
    (track : Bool) (mount : String) (quota : UInt32) : Option Backend := do
  let canonicalMount ← canonical mount
  let kind ← type.kind
  return ⟨kind, nsid, track, canonicalMount, quota⟩

/-- The table that `urd::init_namespace_manager` makes. -/
def NamespaceManager.init : NamespaceManager :=
  Table.emplace "[[internal::memory]]" Backend.processMemory ∅

/-- The requests that change the table. -/
inductive NamespaceStep : Daemon → Daemon → Prop
  | register {d : Daemon} (canonical : String → Option PathStr) (env : SessionEnv)
      (henv : env.createFrom = createBackend canonical) (nsid : String) (type : BackendType)
      (track : Bool) (mount : String) (quota : Int32) :
      NamespaceStep d (d.namespaceRegisterHandler env nsid type track mount quota).1
  | unregister {d : Daemon} (nsid : String) : NamespaceStep d (d.namespaceRemoveHandler nsid).1

/-- A daemon that has been started: with the internal namespace and the transfer plugins. -/
structure Daemon.Started (d : Daemon) : Prop where
  namespaces : d.namespaceMgr = .init
  plugins : d.taskMgr.transferorRegistry = loadTransferPlugins

/-- The process memory is bound to its own name at most, and the other backends are those that the
factory makes. -/
structure NamespacesOk (d : Daemon) : Prop where
  bound : ∀ nsid b, d.namespaceMgr.lookup nsid = some b →
    b.nsid = nsid ∧ (b = .processMemory ∨
      b.kind = .posixFilesystem ∨ b.kind = .nvmlDax ∨ b.kind = .lustre)
  plugins : d.taskMgr.transferorRegistry = loadTransferPlugins

theorem createBackend_kind {canonical : String → Option PathStr} {type : BackendType}
    {nsid mount : String} {track : Bool} {quota : UInt32} {b : Backend}
    (h : createBackend canonical type nsid track mount quota = some b) :
    b.nsid = nsid ∧ (b.kind = .posixFilesystem ∨ b.kind = .nvmlDax ∨ b.kind = .lustre) := by
  unfold createBackend at h
  cases hmount : canonical mount with
  | none =>
      rw [hmount] at h
      cases h
  | some m =>
      rw [hmount] at h
      cases type <;> cases h <;> simp

theorem NamespacesOk.of_started {d : Daemon} (h : d.Started) : NamespacesOk d where
  bound nsid b hb := by
    rw [h.namespaces, NamespaceManager.init,
      Table.lookup_emplace_of_notMem (AList.notMem_empty _)] at hb
    split_ifs at hb with hid
    · obtain rfl := Option.some.inj hb
      exact ⟨hid.symm, Or.inl rfl⟩
    · cases hb
  plugins := h.plugins

theorem NamespacesOk.step (d d' : Daemon) (h : NamespacesOk d) (hstep : NamespaceStep d d') :
    NamespacesOk d' := by
  cases hstep with
  | register canonical env henv nsid type track mount quota =>
      unfold Daemon.namespaceRegisterHandler
      split_ifs with hmem
      · exact h
      · cases hb : env.createFrom type nsid track mount quota.toUInt32 with
        | none => exact h
        | some b =>
            refine ⟨fun k b' hb' => ?_, h.plugins⟩
            dsimp only at hb'
            rw [Table.lookup_emplace_of_notMem hmem] at hb'
            split_ifs at hb' with hk
            · obtain rfl := Option.some.inj hb'
              rw [henv] at hb
              obtain ⟨hnsid, hkind⟩ := createBackend_kind hb
              exact ⟨hnsid.trans hk.symm, Or.inr hkind⟩
            · exact h.bound k b' hb'
  | unregister nsid =>
      unfold Daemon.namespaceRemoveHandler
      split_ifs with hmem
      · refine ⟨fun k b' hb' => ?_, h.plugins⟩
        dsimp only at hb'
        rw [Table.lookup_erase'] at hb'
        split_ifs at hb'
        exact h.bound k b' hb'
      · exact h

/-- What is known of every table that can be reached. -/
theorem NamespacesOk.run {d₀ d : Daemon} (h : d₀.Started) (hrun : Run NamespaceStep d₀ d) :
    NamespacesOk d :=
  hrun.invariant NamespacesOk.step (.of_started h)

/-! ### Agreement -/

/-- The backend accepts the resource, and none of its functions casts it to another class. -/
structure BackendAgrees (b : Backend) (rinfo : ResourceInfo) : Prop where
  accepts : b.accepts rinfo = true
  getSize : ∀ posix : UInt64, ∃ size, b.getSize rinfo (some posix) = .ok size
  getResource : ∀ posixEc coll, ∃ r, b.getResource rinfo posixEc coll = .ok r
  newResource : ∀ posixEc coll, ∃ r, b.newResource rinfo posixEc coll = .ok r
  remove : ∀ posixEc, ∃ ec, b.remove rinfo posixEc = .ok ec

/-- A call that leaves the error code clear returns a resource, of the class it is cast to. -/
def Gives (call : ErrorCode → Bool → Except Fault (Option Bool × ErrorCode))
    (made cast : Option ResourceType) : Prop :=
  ∀ posixEc coll r, call posixEc coll = .ok r → r.2 = 0 →
    (∃ res, r.1 = some res) ∧ ∀ c, cast = some c → made = some c

/-- The backends of a task agree with its resources, and what they make agrees with the transferor
that has been selected. -/
structure TaskAgrees (info : TaskInfo) (t : GenericTask) : Prop where
  source : ∀ b rinfo, info.srcBackend = some b → info.srcRinfo = some rinfo → BackendAgrees b rinfo
  destination : ∀ b rinfo, info.dstBackend = some b → info.dstRinfo = some rinfo →
    BackendAgrees b rinfo
  getResource : ∀ b rinfo tx, info.srcBackend = some b → info.srcRinfo = some rinfo →
    t.transferor = some tx → Gives (b.getResource rinfo) b.kind.resourceClass tx.kind.srcClass
  newResource : ∀ b rinfo tx, info.dstBackend = some b → info.dstRinfo = some rinfo →
    t.transferor = some tx → Gives (b.newResource rinfo) b.kind.resourceClass tx.kind.dstClass

/-- The request is accepted, and `t` is the task that is enqueued for it. -/
def Urd.Accepts (u : Urd) (creds : Option Credentials) (type : IotaskType)
    (src dst : Option ResourceInfo) (size : UInt64) (u' : Urd) (t : GenericTask) : Prop :=
  u.iotaskCreateHandler creds type src dst size = .ok (u', .success, t.info) ∧
  u'.runners = u.runners ++ [t]

/-- The internal namespace is bound to the memory of the clients, as the daemon registered it. -/
def OwnMemory (m : NamespaceManager) : Prop :=
  m.lookup "[[internal::memory]]" = some .processMemory

/-- The namespace is bound to a Lustre backend. -/
def OnLustre (m : NamespaceManager) (nsid : String) : Prop :=
  ∃ b, m.lookup nsid = some b ∧ b.kind = .lustre

/-- A path in this namespace is not in the memory of the clients. -/
def OnStorage (m : NamespaceManager) (nsid : String) : Prop :=
  nsid = "[[internal::memory]]" → ¬ OwnMemory m

/-- The sources of a transfer that agree with their backend. -/
def SourceBound (m : NamespaceManager) : ResourceInfo → Prop
  | .memoryRegion _ _ => OwnMemory m
  | .localPath nsid _ => OnStorage m nsid ∧ ¬ OnLustre m nsid
  | _ => False

/-- The destinations of a transfer that do. -/
def DestinationBound (m : NamespaceManager) : ResourceInfo → Prop
  | .localPath nsid _ => OnStorage m nsid ∧ ¬ OnLustre m nsid
  | _ => False

/-- The resources of a removal that do. -/
def RemovalBound (m : NamespaceManager) : ResourceInfo → Prop
  | .memoryRegion _ _ => OwnMemory m
  | .localPath nsid _ => OnStorage m nsid
  | .sharedPath nsid _ => OnLustre m nsid
  | _ => False

/-- The condition on a request. -/
def RequestBound (m : NamespaceManager) (type : IotaskType) (rinfos : List ResourceInfo) : Prop :=
  match type, rinfos with
  | .remove, [src] => RemovalBound m src
  | .copy, [src, dst] => SourceBound m src ∧ DestinationBound m dst
  | .move, [src, dst] => SourceBound m src ∧ DestinationBound m dst
  | _, _ => False

/-! ### Kinds of backends and of resources -/

/-- The pairs that agree. -/
def agreeingKinds : List (BackendKind × ResourceType) :=
  [(.posixFilesystem, .localPosixPath), (.nvmlDax, .localPosixPath), (.lustre, .localPosixPath),
   (.lustre, .sharedPosixPath), (.processMemory, .memoryRegion)]

/-- A remote backend accepts what it cannot cast, and nothing else. -/
theorem backendAgrees_iff (b : Backend) (rinfo : ResourceInfo) :
    BackendAgrees b rinfo ↔ (b.kind, rinfo.type) ∈ agreeingKinds := by
  obtain ⟨kind, nsid, track, mount, quota⟩ := b
  constructor
  · intro h
    have haccepts := h.accepts
    obtain ⟨r, hr⟩ := h.getResource 0 false
    cases kind <;> cases rinfo <;>
      simp [Backend.accepts, agreeingKinds, ResourceInfo.type] at haccepts ⊢
    -- a remote backend and a local path
    cases hr
  · intro h
    cases kind <;> cases rinfo <;> simp [agreeingKinds, ResourceInfo.type] at h
    all_goals
      exact ⟨rfl, fun _ => ⟨_, rfl⟩, fun _ _ => ⟨_, rfl⟩, fun _ _ => ⟨_, rfl⟩, fun _ => ⟨_, rfl⟩⟩

/-- The transferors that can be found. -/
theorem mem_transferPlugins {t1 t2 : ResourceType} {tx : Transferor}
    (h : loadTransferPlugins.get t1 t2 = some tx) : (t1, t2, tx.kind) ∈ transferPlugins := by
  cases t1 <;> cases t2 <;> cases h <;> decide

/-- A transferor casts its resources to the classes it is registered for, or to none. -/
theorem class_of_plugin {t1 t2 c : ResourceType} {k : TransferorKind}
    (h : (t1, t2, k) ∈ transferPlugins) :
    (k.srcClass = some c → c = t1) ∧ (k.dstClass = some c → c = t2) := by
  cases k <;> simp [transferPlugins] at h <;> obtain ⟨rfl, rfl⟩ := h <;>
    exact ⟨fun hc => by cases hc <;> rfl, fun hc => by cases hc <;> rfl⟩

/-- A backend that agrees with a resource makes resources of its type, unless it is a Lustre one,
which makes none. -/
theorem resourceClass_of_agrees {kind : BackendKind} {t : ResourceType}
    (h : (kind, t) ∈ agreeingKinds) (hkind : kind ≠ .lustre) : kind.resourceClass = some t := by
  cases kind <;> cases t <;> simp [agreeingKinds] at h hkind ⊢ <;> rfl

section Gives

variable {b : Backend} {rinfo : ResourceInfo} {t : ResourceType} {k : TransferorKind}

theorem gives_getResource_iff (hagrees : (b.kind, rinfo.type) ∈ agreeingKinds)
    (htx : (rinfo.type, t, k) ∈ transferPlugins) :
    Gives (b.getResource rinfo) b.kind.resourceClass k.srcClass ↔ b.kind ≠ .lustre := by
  constructor
  · intro h hkind
    obtain ⟨⟨res, hres⟩, -⟩ := h 0 false (none, 0) (by simp [Backend.getResource, hkind]) rfl
    cases hres
  · intro hkind posixEc coll r hr hec
    refine ⟨?_, fun c hc => ?_⟩
    · obtain ⟨kind, nsid, track, mount, quota⟩ := b
      cases kind <;> cases rinfo <;> simp [agreeingKinds, ResourceInfo.type] at hagrees hkind
      all_goals
        obtain rfl := Except.ok.inj hr
        first | exact ⟨_, rfl⟩ | exact ⟨coll, if_neg (not_not.mpr hec)⟩
    · rw [resourceClass_of_agrees hagrees hkind, (class_of_plugin htx).1 hc]

/-- The memory of a process is never a destination. -/
theorem gives_newResource_iff (hagrees : (b.kind, rinfo.type) ∈ agreeingKinds)
    (htx : (t, rinfo.type, k) ∈ transferPlugins) :
    Gives (b.newResource rinfo) b.kind.resourceClass k.dstClass ↔ b.kind ≠ .lustre := by
  constructor
  · intro h hkind
    obtain ⟨⟨res, hres⟩, -⟩ := h 0 false (none, 0)
      (by simp [Backend.newResource, Backend.getResource, hkind]) rfl
    cases hres
  · intro hkind posixEc coll r hr hec
    refine ⟨?_, fun c hc => ?_⟩
    · obtain ⟨kind, nsid, track, mount, quota⟩ := b
      cases kind <;> cases rinfo <;>
        simp [agreeingKinds, transferPlugins, ResourceInfo.type] at hagrees hkind htx
      all_goals
        obtain rfl := Except.ok.inj hr
        first | exact ⟨_, rfl⟩ | exact ⟨coll, if_neg (not_not.mpr hec)⟩
    · rw [resourceClass_of_agrees hagrees hkind, (class_of_plugin htx).2 hc]

end Gives

/-! ### What has been accepted -/

/-- A submission that is accepted has found its backends and made its task. -/
theorem iotaskCreateHandler_accepted {u u' : Urd} {creds : Option Credentials} {type : IotaskType}
    {src dst : Option ResourceInfo} {size : UInt64} {t : GenericTask}
    (h : u.Accepts creds type src dst size u' t) :
    ∃ auth bs,
      NamespaceManager.findAll u.namespaceMgr (namespaceIds (rinfoPtrs src dst)) = some bs ∧
      u.taskMgr.createLocalInitiatedTask type auth bs (rinfoPtrs src dst) size =
        .ok (u'.taskMgr, .success, some t) := by
  obtain ⟨hcall, hrunners⟩ := h
  unfold Urd.iotaskCreateHandler at hcall
  split at hcall
  · cases hcall
  · split at hcall
    · cases hcall
    · next auth =>
        split at hcall
        · cases hcall
        · next bs hfind =>
            refine ⟨auth, bs, hfind, ?_⟩
            split at hcall
            all_goals try cases hcall
            all_goals
              split at hcall
              · cases hcall
              · next tm rv t' hcreate =>
                  split at hcall
                  · next t' =>
                      rw [Urd.enqueueTask_of_runnable (createLocal_runnable hcreate)] at hcall
                      simp only [Except.ok.injEq, Prod.mk.injEq] at hcall
                      obtain ⟨rfl, -, -⟩ := hcall
                      obtain rfl : t' = t := by simpa using hrunners
                      exact hcreate
                  · cases hcall
                  · next hsome hnone =>
                      simp only [Except.ok.injEq, Prod.mk.injEq] at hcall
                      obtain ⟨-, rfl, -⟩ := hcall
                      cases t' with
                      | none => exact absurd rfl (hnone rfl)
                      | some g => exact absurd rfl (hsome g rfl)

/-- The `switch` makes the task that is asked for, unless it is a dry run. -/
theorem makeTask_made {tm tm' : TaskManager} {dryRun : Bool} {type : IotaskType} {n : ℕ}
    {tx : Option Transferor} {t : GenericTask} (htype : t.type ≠ .noop)
    (h : tm.makeTask (if dryRun then .noop else type) n tx = .ok (tm', .success, some t)) :
    tm' = tm ∧ t.info = tm.idBase ∧
      ((type = .remove ∧ n = 1 ∧ t.transferor = none) ∨
       ((type = .copy ∨ type = .move) ∧ t.transferor = tx)) := by
  cases dryRun with
  | true =>
      cases h
      exact absurd rfl htype
  | false =>
      rw [if_neg Bool.false_ne_true] at h
      unfold TaskManager.makeTask at h
      split at h
      · split_ifs at h with hn
        cases h
        exact ⟨rfl, rfl, Or.inl ⟨rfl, not_not.mp hn, rfl⟩⟩
      · cases h
        exact ⟨rfl, rfl, Or.inr ⟨Or.inl rfl, rfl⟩⟩
      · cases h
        exact ⟨rfl, rfl, Or.inr ⟨Or.inr rfl, rfl⟩⟩
      · cases h
        exact absurd rfl htype
      · cases h

/-- A local creation that makes a removal or a transfer has entered a record with the backends and
resources that it has been given, and the task has the transferor of the registry. -/
theorem createLocal_made {tm tm' : TaskManager} {type : IotaskType} {auth : Credentials}
    {bs : List Backend} {rinfos : List ResourceInfo} {size : UInt64} {t : GenericTask}
    (htype : t.type ≠ .noop)
    (h : tm.createLocalInitiatedTask type auth bs rinfos size = .ok (tm', .success, some t)) :
    ∃ src rest, rinfos = src :: rest ∧
      tm'.find t.info = some (.new tm.nextId type false auth bs[0]? (some src) bs[1]? rest.head?
        size) ∧
      ((type = .remove ∧ bs.length = 1 ∧ t.transferor = none) ∨
       ((type = .copy ∨ type = .move) ∧ bs.length = 2 ∧ ∃ dst rest' tx, rest = dst :: rest' ∧
          tm.transferorRegistry.get src.type dst.type = some tx ∧ t.transferor = some tx)) := by
  by_cases htaken : tm.nextId ∈ tm.taskInfo
  · unfold TaskManager.createLocalInitiatedTask at h
    rw [if_pos htaken] at h
    cases h
  · have hfind : ∀ info, (tm.enter info).find tm.nextId = some info := by
      intro info
      rw [TaskManager.find, lookup_enter htaken, if_pos rfl]
    unfold TaskManager.createLocalInitiatedTask at h
    rw [if_neg htaken] at h
    split at h
    · cases h
    · split at h
      · cases h
      · next src rest =>
          refine ⟨src, rest, rfl, ?_⟩
          dsimp only at h
          split at h
          · next htx =>
              split at h
              · cases h
              · next hlen =>
                  split at h
                  · cases h
                  · next dst rest' =>
                      split at h
                      · cases h
                      · next tx hget =>
                          split at h
                          · cases h
                          · obtain ⟨rfl, hid, ⟨rfl, -⟩ | ⟨-, htr⟩⟩ := makeTask_made htype h
                            · simp at htx
                            · rw [hid]
                              exact ⟨hfind _, Or.inr ⟨htx, not_not.mp hlen, dst, rest', tx, rfl,
                                hget, htr⟩⟩
          · next htx =>
              obtain ⟨rfl, hid, hremove | ⟨htx', -⟩⟩ := makeTask_made htype h
              · rw [hid]
                exact ⟨hfind _, Or.inl hremove⟩
              · exact absurd htx' htx

/-! ### The condition -/

section Found

variable {d : Daemon} {rinfo : ResourceInfo} {b : Backend}

/-- Process memory is found under its own name only. -/
theorem processMemory_iff (hok : NamespacesOk d) {nsid : String}
    (hb : d.namespaceMgr.lookup nsid = some b) :
    b.kind = .processMemory ↔ nsid = "[[internal::memory]]" ∧ OwnMemory d.namespaceMgr := by
  obtain ⟨hnsid, hkind⟩ := hok.bound nsid b hb
  constructor
  · intro h
    obtain rfl : b = .processMemory := by
      obtain hpm | hposix | hnvml | hlustre := hkind
      · exact hpm
      all_goals simp_all
    obtain rfl : "[[internal::memory]]" = nsid := hnsid
    exact ⟨rfl, hb⟩
  · rintro ⟨rfl, hown⟩
    rw [Option.some.inj (hb.symm.trans hown)]
    rfl

theorem onLustre_iff (nsid : String) (hb : d.namespaceMgr.lookup nsid = some b) :
    OnLustre d.namespaceMgr nsid ↔ b.kind = .lustre := by
  constructor
  · rintro ⟨b', hb', hkind⟩
    rwa [Option.some.inj (hb.symm.trans hb')]
  · exact fun h => ⟨b, hb, h⟩

/-- What a local path needs to agree with the backend that is found for it. -/
theorem local_agrees_iff (hok : NamespacesOk d) {nsid : String}
    (hb : d.namespaceMgr.lookup nsid = some b) :
    (b.kind, ResourceType.localPosixPath) ∈ agreeingKinds ↔ OnStorage d.namespaceMgr nsid := by
  have hkind := (hok.bound nsid b hb).2
  have hpm : b.kind = .processMemory ↔ ¬ OnStorage d.namespaceMgr nsid := by
    rw [processMemory_iff hok hb, OnStorage]
    tauto
  rw [← not_iff_not, ← hpm]
  obtain rfl | hposix | hnvml | hlustre := hkind
  · simp [agreeingKinds, Backend.processMemory]
  all_goals simp_all [agreeingKinds]

theorem removalBound_iff (hok : NamespacesOk d)
    (hb : NamespaceManager.find d.namespaceMgr rinfo.nsid rinfo.isRemote = some b) :
    RemovalBound d.namespaceMgr rinfo ↔ (b.kind, rinfo.type) ∈ agreeingKinds := by
  cases rinfo with
  | memoryRegion address size =>
      show OwnMemory _ ↔ (b.kind, ResourceType.memoryRegion) ∈ _
      have hpm := processMemory_iff hok hb
      simp_all [agreeingKinds, ResourceInfo.nsid]
  | localPath nsid datapath => exact (local_agrees_iff hok hb).symm
  | sharedPath nsid datapath =>
      show OnLustre _ _ ↔ (b.kind, ResourceType.sharedPosixPath) ∈ _
      rw [onLustre_iff nsid hb]
      simp [agreeingKinds]
  | remotePath nsid hostname datapath =>
      obtain rfl := Option.some.inj hb
      simp [RemovalBound, agreeingKinds, Backend.remote]
  | remoteResource address nsid coll name buffers =>
      obtain rfl := Option.some.inj hb
      simp [RemovalBound, agreeingKinds, Backend.remote]

theorem sourceBound_iff (hok : NamespacesOk d)
    (hb : NamespaceManager.find d.namespaceMgr rinfo.nsid rinfo.isRemote = some b) :
    SourceBound d.namespaceMgr rinfo ↔
      (b.kind, rinfo.type) ∈ agreeingKinds ∧ b.kind ≠ .lustre := by
  rw [← removalBound_iff hok hb]
  cases rinfo with
  | memoryRegion address size =>
      have hpm := processMemory_iff hok hb
      refine ⟨fun h => ⟨h, fun hl => ?_⟩, fun h => h.1⟩
      cases hl.symm.trans (hpm.mpr ⟨rfl, h⟩)
  | localPath nsid datapath =>
      show _ ∧ ¬ OnLustre _ _ ↔ _
      rw [onLustre_iff nsid hb]
      rfl
  | sharedPath nsid datapath =>
      show False ↔ OnLustre _ _ ∧ _
      rw [onLustre_iff nsid hb]
      simp
  | remotePath nsid hostname datapath => exact ⟨False.elim, fun h => h.1⟩
  | remoteResource address nsid coll name buffers => exact ⟨False.elim, fun h => h.1⟩

/-- The memory of the clients is a source, but never a destination. -/
theorem destinationBound_iff (hok : NamespacesOk d) {t : ResourceType} {k : TransferorKind}
    (hb : NamespaceManager.find d.namespaceMgr rinfo.nsid rinfo.isRemote = some b)
    (htx : (t, rinfo.type, k) ∈ transferPlugins) :
    DestinationBound d.namespaceMgr rinfo ↔
      (b.kind, rinfo.type) ∈ agreeingKinds ∧ b.kind ≠ .lustre := by
  rw [← sourceBound_iff hok hb]
  cases rinfo with
  | memoryRegion address size => simp [transferPlugins, ResourceInfo.type] at htx
  | _ => rfl

end Found

theorem findAll_cons {m : NamespaceManager} {rinfo : ResourceInfo} {rest : List ResourceInfo}
    {bs : List Backend} (h : NamespaceManager.findAll m (namespaceIds (rinfo :: rest)) = some bs) :
    ∃ b bs', bs = b :: bs' ∧ m.find rinfo.nsid rinfo.isRemote = some b ∧
      NamespaceManager.findAll m (namespaceIds rest) = some bs' := by
  unfold namespaceIds at h
  rw [List.map_cons, NamespaceManager.findAll] at h
  split at h
  · next b bs' hb hbs =>
      exact ⟨b, bs', (Option.some.inj h).symm, hb, hbs⟩
  · cases h

theorem rinfos_of_findAll_nil {m : NamespaceManager} {rest : List ResourceInfo}
    (h : NamespaceManager.findAll m (namespaceIds rest) = some []) : rest = [] := by
  have hlen := NamespaceManager.length_findAll h
  rw [namespaceIds, List.length_map, List.length_nil] at hlen
  exact List.length_eq_zero_iff.mp hlen.symm

/-- A task without a transferor agrees if its one backend does. -/
theorem removal_agrees_iff {info : TaskInfo} {t : GenericTask} {b : Backend} {src : ResourceInfo}
    (hb : info.srcBackend = some b) (hsrc : info.srcRinfo = some src)
    (hdst : info.dstBackend = none) (htx : t.transferor = none) :
    TaskAgrees info t ↔ (b.kind, src.type) ∈ agreeingKinds := by
  rw [← backendAgrees_iff]
  refine ⟨fun h => h.source b src hb hsrc, fun h => ⟨?_, ?_, ?_, ?_⟩⟩
  · intro b' rinfo hb' hr
    rwa [Option.some.inj (hb'.symm.trans hb), Option.some.inj (hr.symm.trans hsrc)]
  · intro b' rinfo hb'
    cases hb'.symm.trans hdst
  all_goals
    intro b' rinfo tx _ _ htx'
    cases htx'.symm.trans htx

/-- A transfer agrees if both backends do and make something. -/
theorem transfer_agrees_iff {info : TaskInfo} {t : GenericTask} {b b' : Backend}
    {src dst : ResourceInfo} {tx : Transferor} (hb : info.srcBackend = some b)
    (hsrc : info.srcRinfo = some src) (hb' : info.dstBackend = some b')
    (hdst : info.dstRinfo = some dst) (htx : t.transferor = some tx)
    (hplugin : (src.type, dst.type, tx.kind) ∈ transferPlugins) :
    TaskAgrees info t ↔
      ((b.kind, src.type) ∈ agreeingKinds ∧ b.kind ≠ .lustre) ∧
      ((b'.kind, dst.type) ∈ agreeingKinds ∧ b'.kind ≠ .lustre) := by
  constructor
  · intro h
    have hs := (backendAgrees_iff b src).mp (h.source b src hb hsrc)
    have hd := (backendAgrees_iff b' dst).mp (h.destination b' dst hb' hdst)
    exact ⟨⟨hs, (gives_getResource_iff hs hplugin).mp (h.getResource b src tx hb hsrc htx)⟩,
      hd, (gives_newResource_iff hd hplugin).mp (h.newResource b' dst tx hb' hdst htx)⟩
  · rintro ⟨⟨hs, hsl⟩, hd, hdl⟩
    refine ⟨?_, ?_, ?_, ?_⟩
    · intro c rinfo hc hr
      rw [Option.some.inj (hc.symm.trans hb), Option.some.inj (hr.symm.trans hsrc)]
      exact (backendAgrees_iff b src).mpr hs
    · intro c rinfo hc hr
      rw [Option.some.inj (hc.symm.trans hb'), Option.some.inj (hr.symm.trans hdst)]
      exact (backendAgrees_iff b' dst).mpr hd
    · intro c rinfo tx' hc hr ht
      rw [Option.some.inj (hc.symm.trans hb), Option.some.inj (hr.symm.trans hsrc),
        Option.some.inj (ht.symm.trans htx)]
      exact (gives_getResource_iff hs hplugin).mpr hsl
    · intro c rinfo tx' hc hr ht
      rw [Option.some.inj (hc.symm.trans hb'), Option.some.inj (hr.symm.trans hdst),
        Option.some.inj (ht.symm.trans htx)]
      exact (gives_newResource_iff hd hplugin).mpr hdl

/-- **Agreement of backends and resources**: in every table of namespaces that can be reached, the
backends and the transferor of a task that has been accepted agree with its resources exactly if
no resource is remote, no path names the internal namespace while it is bound to memory, memory is
named only while it is, and the other paths of a transfer are local ones and not on Lustre (in a
removal a shared path is on Lustre). -/
theorem backend_agreement_iff {d₀ d : Daemon} (hinit : d₀.Started)
    (hrun : Run NamespaceStep d₀ d) (creds : Option Credentials) (type : IotaskType)
    (src dst : Option ResourceInfo) (size : UInt64) (u : Urd) (t : GenericTask)
    (haccepted : d.toUrd.Accepts creds type src dst size u t)
    (htype : t.type = .copy ∨ t.type = .move ∨ t.type = .remove) :
    (∃ info, u.taskMgr.find t.info = some info ∧ TaskAgrees info t) ↔
      RequestBound d.namespaceMgr type (rinfoPtrs src dst) := by
  have hok := NamespacesOk.run hinit hrun
  have hnoop : t.type ≠ .noop := by
    obtain h | h | h := htype <;> simp [h]
  obtain ⟨auth, bs, hfound, hcreated⟩ := iotaskCreateHandler_accepted haccepted
  obtain ⟨r, rest, hrinfos, hinfo, hmade⟩ := createLocal_made hnoop hcreated
  rw [hrinfos] at hfound ⊢
  obtain ⟨b, bs', rfl, hb, hfound⟩ := findAll_cons hfound
  have hrecord : (∃ info, u.taskMgr.find t.info = some info ∧ TaskAgrees info t) ↔
      TaskAgrees (.new d.taskMgr.nextId type false auth (some b) (some r) bs'[0]? rest.head?
        size) t := by
    rw [hinfo]
    simp
  rw [hrecord]
  obtain ⟨rfl, hlen, htx⟩ | ⟨htransfer, hlen, r', rest', tx, rfl, hget, htx⟩ := hmade
  · obtain rfl : bs' = [] := by simpa using hlen
    obtain rfl := rinfos_of_findAll_nil hfound
    rw [removal_agrees_iff rfl rfl rfl htx]
    exact (removalBound_iff hok hb).symm
  · obtain ⟨b', bs'', rfl, hb', hfound⟩ := findAll_cons hfound
    obtain rfl : bs'' = [] := by simpa using hlen
    obtain rfl := rinfos_of_findAll_nil hfound
    rw [hok.plugins] at hget
    have hplugin := mem_transferPlugins hget
    rw [transfer_agrees_iff rfl rfl rfl rfl htx hplugin, ← sourceBound_iff hok hb,
      ← destinationBound_iff hok hb' hplugin]
    obtain rfl | rfl := htransfer <;> rfl

/-- A daemon that has just been started. -/
def Daemon.init : Daemon := ⟨⟨false, .init, .init, []⟩, ∅⟩

theorem Daemon.init_started : Daemon.init.Started := ⟨rfl, rfl⟩

/-- The outside of a session in which every mount point is there. -/
def mountedEnv : SessionEnv where
  endian := .little
  parse _ := none
  credentials := none
  size := 0
  sizeThrows := false
  createFrom := createBackend fun mount => some mount.toList
  isEmpty _ := true
  isEmptyThrows _ := false
  eta := 0
  canHold _ := true

/-- The daemon after a registration of `tmp0`. -/
def Daemon.registered : Daemon :=
  (Daemon.init.namespaceRegisterHandler mountedEnv "tmp0" .posixFilesystem false "/mnt" 0).1

/-- A copy within `tmp0` is accepted and agrees. -/
theorem registered_copy_agrees :
    ∃ u t, Daemon.registered.toUrd.Accepts (some ⟨1, 0, 0⟩) .copy (some (.localPath "tmp0" "a"))
        (some (.localPath "tmp0" "b")) 0 u t ∧
      ((∃ info, u.taskMgr.find t.info = some info ∧ TaskAgrees info t) ↔
        RequestBound Daemon.registered.namespaceMgr .copy
          [.localPath "tmp0" "a", .localPath "tmp0" "b"]) ∧
      RequestBound Daemon.registered.namespaceMgr .copy
        [.localPath "tmp0" "a", .localPath "tmp0" "b"] := by
  have hrun : Run NamespaceStep Daemon.init Daemon.registered :=
    .single (.register (fun mount => some mount.toList) mountedEnv rfl "tmp0" .posixFilesystem
      false "/mnt" 0)
  have haccepted : Daemon.registered.toUrd.Accepts (some ⟨1, 0, 0⟩) .copy
      (some (.localPath "tmp0" "a")) (some (.localPath "tmp0" "b")) 0 _
      ⟨.copy, 1, some (TransferorKind.plugin .localPathToLocalPath)⟩ := ⟨rfl, rfl⟩
  have hbound : OnStorage Daemon.registered.namespaceMgr "tmp0" ∧
      ¬ OnLustre Daemon.registered.namespaceMgr "tmp0" := by
    refine ⟨fun h => absurd h (by decide), ?_⟩
    rintro ⟨b, hb, hkind⟩
    obtain rfl := Option.some.inj hb
    cases hkind
  exact ⟨_, _, haccepted, backend_agreement_iff Daemon.init_started hrun _ _ _ _ _ _ _ haccepted
    (Or.inl rfl), hbound, hbound⟩

/-- A copy between two paths that name the internal namespace is accepted by a daemon that has just
been started; the backend that is found for them takes the paths for regions of memory. -/
theorem path_in_memory_accepted :
    let task : TaskMsg := ⟨0, NORNS_IOTASK_COPY, localPathMsg "[[internal::memory]]" "a",
      localPathMsg "[[internal::memory]]" "b"⟩
    let src : ResourceInfo := .localPath "[[internal::memory]]" "a"
    let dst : ResourceInfo := .localPath "[[internal::memory]]" "b"
    task.isValid = true ∧ decodeSubmit task = .ok (.iotaskCreate .copy (some src) (some dst)) ∧
    ∃ u t, Daemon.init.toUrd.Accepts (some ⟨1, 0, 0⟩) .copy (some src) (some dst) 0 u t ∧
      t.type = .copy ∧ Backend.processMemory.accepts src = false ∧
      Backend.processMemory.getSize src (some 0) = .error .badCast ∧
      ¬ ∃ info, u.taskMgr.find t.info = some info ∧ TaskAgrees info t := by
  have haccepted : Daemon.init.toUrd.Accepts (some ⟨1, 0, 0⟩) .copy
      (some (.localPath "[[internal::memory]]" "a")) (some (.localPath "[[internal::memory]]" "b"))
      0 _ ⟨.copy, 1, some (TransferorKind.plugin .localPathToLocalPath)⟩ := ⟨rfl, rfl⟩
  refine ⟨by decide, by decide, _, _, haccepted, rfl, rfl, rfl, ?_⟩
  rintro ⟨info, hinfo, hagrees⟩
  obtain rfl := Option.some.inj hinfo
  exact absurd (hagrees.source _ _ rfl rfl).accepts (by decide)

end Norns
