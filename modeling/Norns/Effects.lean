import Norns.ByteCount
import Norns.FileTransfer

/-! # What a finished task has done

A body ends with `finished` if none of its calls reports an error.  Whether the task has then had
its effect depends on what the calls have done, so the calls are given a meaning here: a `World` is
the record of a task together with the file system of the daemon, that of the peer, and the bulk
operation that has been posted.  The backends and transferors are those of the other modules; no
other task interferes.

Four things go wrong.  The functions `remove` of all backends but one do nothing; the transfers to
shared paths do nothing; no task removes the source of a move; and `accept_transfer` returns when
the bulk operation has been posted.  Besides, a response of a peer that reports an error without a
number is taken for a success, and the NVML backend makes its own mount of every path.

* `Combination`: the kinds of tasks, of their backends and of their resources.
* `remove_ensures`, `transfer_ensures`: how a body comes to its end.
* `finished_done`: the combinations for which a finished task has had its effect, in every run. -/

namespace Norns

open Lib Lib.PathStr Lib.FileTree

/-! ### The calls of a backend -/

/-- A backend as its POSIX functions see it. -/
def Backend.fs (b : Backend) : PosixFilesystem := ⟨b.nsid, b.track, b.mount, b.quota⟩

/-- `backend::get_resource` on a file system.  Nothing comes back from an exception, nor from a
cast to the class of another resource. -/
def Backend.getFrom (b : Backend) (t : FileTree) (rinfo : ResourceInfo) :
    Option (Option Resource × ErrorCode) :=
  match b.kind, rinfo with
  | .posixFilesystem, .localPath nsid datapath =>
      match b.fs.getResource t ⟨nsid, datapath⟩ with
      | .ok res => some (some (.localPath b res.name res.isCollection), 0)
      | .error ec => some (none, ec)
      | .thrown _ => none
  | .posixFilesystem, _ => none
  | .nvmlDax, _ => some (some (.localPath b [] (isDirectory t (append b.mount []))), 0)
  | .lustre, _ => some (none, 0)
  | .processMemory, .memoryRegion address size => some (some (.memoryRegion address size), 0)
  | .processMemory, _ => none
  | .remoteBackend, .remoteResource address nsid coll name buffers =>
      some (some (.remoteResource address nsid coll name buffers), 0)
  | .remoteBackend, _ => none

/-- `backend::new_resource`. -/
def Backend.createIn (b : Backend) (d : Disk) (rinfo : ResourceInfo) (isCollection : Bool) :
    Option (Disk × Option Resource × ErrorCode) :=
  match b.kind, rinfo with
  | .posixFilesystem, .localPath nsid datapath =>
      match b.fs.newResource d ⟨nsid, datapath⟩ isCollection with
      | (d', .ok res) => some (d', some (.localPath b res.name res.isCollection), 0)
      | (d', .error ec) => some (d', none, ec)
      | (_, .thrown _) => none
  | .processMemory, _ => some (d, none, 0)
  | _, _ => (b.getFrom d.tree rinfo).map fun r => (d, r)

/-- `backend::remove`. -/
def Backend.removeFrom (b : Backend) (d : Disk) (rinfo : ResourceInfo) :
    Option (Disk × ErrorCode) :=
  match b.kind, rinfo with
  | .posixFilesystem, .localPath nsid datapath =>
      match b.fs.remove d.tree ⟨nsid, datapath⟩ with
      | (t, .ok ()) => some ({ d with tree := t }, 0)
      | (t, .error ec) => some ({ d with tree := t }, ec)
      | (_, .thrown _) => none
  | .posixFilesystem, _ => none
  | _, _ => some (d, 0)

/-- The object behind a local path. -/
def Backend.localPath (b : Backend) (name : PathStr) (isCollection : Bool) : LocalPathResource :=
  ⟨b.fs, name, append b.mount name, isCollection⟩

/-! ### The calls of a transferor -/

/-- The hosts of the two daemons, and the backend of the namespace that the peer is asked for. -/
structure Hosts where
  host : HostEnv
  peerHost : HostEnv
  peerFs : PosixFilesystem

/-- A bulk operation: the peer's data are pulled into a mapped file, or the daemon's data pushed;
and how it has ended. -/
inductive Bulk where
  | pulling (isCollection : Bool) (dst : LocalPathResource) (filename : PathStr) (l : Loc)
      (exposed : List UInt8)
  | pushing
  | done (r : Outcome Unit)

/-- What a task changes. -/
structure World where
  info : TaskInfo
  disk : Disk
  peer : Disk
  bulk : Option Bulk

/-- The data that a push maps. -/
inductive PushInput (h : Hosts) (t : FileTree) (name : PathStr) :
    TransferorKind → Resource → List UInt8 → Prop
  | path {b : Backend} {src : PathStr} {coll : Bool} {bytes : List UInt8}
      (hinput : inputBuffer h.host t (b.localPath src coll) name = .ok bytes) :
      PushInput h t name .localPathToRemoteResource (.localPath b src coll) bytes
  | region {address size : UInt64} {bytes : List UInt8} (hlen : bytes.length = size.toNat)
      (hne : bytes ≠ []) :
      PushInput h t name .memoryRegionToRemoteResource (.memoryRegion address size) bytes

/-- The name under which a push announces its source. -/
def Resource.name : Resource → String
  | memoryRegion _ _ => ""
  | localPath _ name _ => String.ofList name
  | remoteResource _ _ _ name _ => name

/-- What the peer answers to a push, and what it makes of its file system: it is refused by the
first checks of the handler, or served. -/
inductive PeerPush (h : Hosts) (src : Resource) (nsid name : String) (bytes : List UInt8)
    (peer : Disk) : Option TransferOutput → Disk → Prop
  | refused {env : InboundEnv} {args : PushArgs} {s : TransferState} {r : TransferOutput}
      (hnsid : args.outNsid = nsid) (hname : args.outResourceName = name)
      (hrefused : (Inbound.push args).Refused env)
      (hrun : Run (pushResourceHandler env args) .init s) (hr : r ∈ s.responses) :
      PeerPush h src nsid name bytes peer (some r) peer
  | served {peer' : Disk} {resp : Option TransferOutput}
      (hserve : servePush h.peerHost peer h.peerFs ⟨nsid, name⟩ src.name.toList src.isCollection
        bytes = (peer', resp)) : PeerPush h src nsid name bytes peer resp peer'

/-- `transferor::transfer`: the code that is returned, and the world after it.  The first rule is
for every error of the system or of the network, whatever it leaves behind. -/
inductive Transfers (h : Hosts) (w : World) :
    TransferorKind → Resource → Option Resource → ErrorCode → World → Prop
  | failed {k : TransferorKind} {src : Resource} {dst : Option Resource} {ec : ErrorCode}
      {w' : World} (husable : k.Usable src dst) (hec : ec ≠ 0) (hinfo : w'.info = w.info) :
      Transfers h w k src dst ec w'
  | region {address size : UInt64} {b : Backend} {name : PathStr} {coll fallocate : Bool}
      {data : List UInt8} {d : Disk} (hdir : isDirectory w.disk.tree (append b.mount name) = false)
      (hlen : data.length = size.toNat)
      (hwrite : w.disk.writeFile fallocate (append b.mount name) data = (d, 0)) :
      Transfers h w .memoryRegionToLocalPath (.memoryRegion address size)
        (some (.localPath b name coll)) 0 { w with disk := d }
  | path {b b' : Backend} {name name' : PathStr} {coll coll' fallocate : Bool}
      {entries : List PathStr} {d : Disk}
      (hcopy : transferLocal fallocate w.disk (append b.mount name) (append b'.mount name')
        entries = (d, .ok ())) :
      Transfers h w .localPathToLocalPath (.localPath b name coll)
        (some (.localPath b' name' coll')) 0 { w with disk := d }
  | shared {k : TransferorKind} {src : Resource} {dst : Option Resource}
      (hk : k = .memoryRegionToSharedPath ∨ k = .localPathToSharedPath) :
      Transfers h w k src dst 0 w
  | push {k : TransferorKind} {src : Resource} {address nsid name : String} {coll : Bool}
      {buffers : ExposedMemory} {bytes : List UInt8} {resp : Option TransferOutput} {peer : Disk}
      (hinput : PushInput h w.disk.tree name.toList k src bytes)
      (hpeer : PeerPush h src nsid name bytes w.peer resp peer) (hec : pushResult resp = 0) :
      Transfers h w k src (some (.remoteResource address nsid coll name buffers)) 0
        { w with peer := peer }
  | statRefused {address nsid name : String} {coll coll' : Bool} {buffers : ExposedMemory}
      {b : Backend} {name' : PathStr} {env : StatEnv} {args : StatArgs} {s : StatState}
      {r : StatOutput} (hnsid : args.nsid = nsid) (hname : args.resourceName = name)
      (hfind : env.namespaceMgr.find args.nsid false = none)
      (hrun : Run (statResourceHandler env args) .init s) (hr : r ∈ s.responses)
      (hec : errcOfWord r.sysErrnum = 0) :
      Transfers h w .remoteResourceToLocalPath (.remoteResource address nsid coll name buffers)
        (some (.localPath b name' coll')) 0 w
  | pull {address nsid name : String} {coll coll' : Bool} {buffers : ExposedMemory}
      {b : Backend} {name' : PathStr} {d : Disk}
      (hpull : pullTransfer h.peerHost h.host w.peer.tree h.peerFs ⟨nsid, name⟩ w.disk
        (b.localPath name' coll') = (d, .ok ())) :
      Transfers h w .remoteResourceToLocalPath (.remoteResource address nsid coll name buffers)
        (some (.localPath b name' coll')) 0 { w with disk := d }

/-- `transferor::accept_transfer`: it comes back when the bulk operation has been posted. -/
inductive Accepts (h : Hosts) (w : World) :
    TransferorKind → Resource → Option Resource → ErrorCode → World → Prop
  | failed {k : TransferorKind} {src : Resource} {dst : Option Resource} {ec : ErrorCode}
      {w' : World} (hec : ec ≠ 0) (hinfo : w'.info = w.info) : Accepts h w k src dst ec w'
  -- "This function should never be called for this transfer type"
  | ignored {k : TransferorKind} {src : Resource} {dst : Option Resource}
      (hk : k ≠ .localPathToRemoteResource) (hk' : k ≠ .remoteResourceToLocalPath) :
      Accepts h w k src dst 0 w
  | push {address nsid name : String} {coll coll' : Bool} {buffers : ExposedMemory} {b : Backend}
      {name' : PathStr} {bytes : List UInt8} {d : Disk} {filename : PathStr} {l : Loc}
      (hbuffers : buffers = [bytes.length])
      (hdir : ¬ (name = "" ∧ isDirectory w.disk.tree (append b.mount name') = true))
      (hout : outputBuffer h.host w.disk coll (b.localPath name' coll') bytes.length =
        (d, .ok (filename, l))) :
      Accepts h w .localPathToRemoteResource (.remoteResource address nsid coll name buffers)
        (some (.localPath b name' coll')) 0
        { w with
          disk := d
          bulk := some (.pulling coll (b.localPath name' coll') filename l bytes) }
  | pull {address nsid name : String} {coll coll' : Bool} {buffers : ExposedMemory} {b : Backend}
      {name' : PathStr} {bytes : List UInt8}
      (hinput : inputBuffer h.host w.disk.tree (b.localPath name' coll') name.toList = .ok bytes) :
      Accepts h w .remoteResourceToLocalPath (.localPath b name' coll')
        (some (.remoteResource address nsid coll name buffers)) 0
        { w with bulk := some .pushing }

/-- The bulk operation ends and its callback is run. -/
inductive Completes (h : Hosts) (w : World) : World → Prop
  | pulled {coll : Bool} {dst : LocalPathResource} {filename : PathStr} {l : Loc}
      {exposed : List UInt8} {d : Disk} {r : Outcome Unit}
      (hbulk : w.bulk = some (.pulling coll dst filename l exposed))
      (hend : completeTransfer h.host (w.disk.bulk l exposed) coll dst filename exposed = (d, r)) :
      Completes h w { w with disk := d, bulk := some (.done r) }
  | pushed (hbulk : w.bulk = some .pushing) :
      Completes h w { w with bulk := some (.done (.ok ())) }

/-- What the calls of a task do. -/
def effects (h : Hosts) : Program.Interp TaskOp TaskOp.Result World where
  answer op w r w' :=
    match op, r with
    | .updateStatus st, _ => w' = { w with info := w.info.updateStatus st }
    | .updateStatusError st ec sc, _ => w' = { w with info := w.info.updateStatusError st ec sc }
    | .getResource b rinfo, r => b.getFrom w.disk.tree rinfo = some r ∧ w' = w
    | .newResource b rinfo coll, r =>
        ∃ d, b.createIn w.disk rinfo coll = some (d, r) ∧ w' = { w with disk := d }
    | .transfer tx _ src dst, ec => Transfers h w tx.kind src dst ec w'
    | .acceptTransfer tx _ src dst, ec => Accepts h w tx.kind src dst ec w'
    | .remove b rinfo, ec =>
        ∃ d, b.removeFrom w.disk rinfo = some (d, ec) ∧ w' = { w with disk := d }
  within op w w' :=
    Completes h w w' ∨
    match op with
    | .transfer _ _ _ _ => ∃ bytes, w' = { w with info := w.info.recordTransfer bytes }
    | _ => False

/-! ### Combinations -/

/-- The class of a backend and the type of the resource it is bound to. -/
abbrev BoundKind := BackendKind × ResourceType

/-- The kinds of tasks, with what they are bound to; an inbound task is a `remote_transfer`. -/
inductive Combination where
  | noop
  | remove (src : BoundKind)
  | copy (src dst : BoundKind)
  | move (src dst : BoundKind)
  | inbound (src dst : BoundKind)
deriving DecidableEq, Repr

/-- The source of a record. -/
def TaskInfo.From (ti : TaskInfo) (b : Backend) (rinfo : ResourceInfo) : Prop :=
  ti.srcBackend = some b ∧ ti.srcRinfo = some rinfo

/-- The destination of a record. -/
def TaskInfo.To (ti : TaskInfo) (b : Backend) (rinfo : ResourceInfo) : Prop :=
  ti.dstBackend = some b ∧ ti.dstRinfo = some rinfo

/-- A backend with its resource is of a kind. -/
def BoundKind.Of (k : BoundKind) (b : Backend) (rinfo : ResourceInfo) : Prop :=
  b.kind = k.1 ∧ rinfo.type = k.2

/-- A record whose source and destination are of these kinds, with a transferor that has been found
for them (the order of the types is swapped for a peer) and has validated them. -/
structure Transferable (ti : TaskInfo) (tx : Transferor) (src dst : BoundKind) (swapped : Bool) :
    Prop where
  source : ∃ b rinfo, ti.From b rinfo ∧ src.Of b rinfo
  destination : ∃ b rinfo, ti.To b rinfo ∧ dst.Of b rinfo
  registered : (if swapped then loadTransferPlugins.get dst.2 src.2
    else loadTransferPlugins.get src.2 dst.2) = some tx
  validated : ∀ b b' rinfo rinfo', ti.From b rinfo → ti.To b' rinfo' →
    tx.validate rinfo rinfo' = true

/-- The tasks of a combination, as the task manager makes them. -/
def Combination.Describes (c : Combination) (t : Task) (ti : TaskInfo) : Prop :=
  match c with
  | noop => t = .noop
  | remove src => t = .remove ∧ ∃ b rinfo, ti.From b rinfo ∧ src.Of b rinfo
  | copy src dst => ∃ tx, t = .copy tx ∧ Transferable ti tx src dst false
  | move src dst => ∃ tx, t = .move tx ∧ Transferable ti tx src dst false
  | inbound src dst =>
      ∃ tx, t = .remoteTransfer tx ∧ ti.isRemote = true ∧ Transferable ti tx src dst true

/-! ### Effects -/

/-- The path of a resource; one without components names the mount itself. -/
def resourcePath (mount p : PathStr) : PathStr :=
  if normComps p = [] then mount else append mount (lexicalNormalize p false)

/-- The resource exists: in the memory of a process, in the file system of the daemon or in that of
the peer. -/
def World.Has (h : Hosts) (w : World) (m : Mode) (b : Backend) : ResourceInfo → Prop
  | .memoryRegion _ _ => True
  | .localPath _ p => ∃ l, w.disk.tree.resolve m (resourcePath b.mount p.toList) = .ok l
  | .sharedPath _ p => ∃ l, w.disk.tree.resolve m (resourcePath b.mount p.toList) = .ok l
  | .remotePath _ _ p => ∃ l, w.peer.tree.resolve m (resourcePath h.peerFs.mount p.toList) = .ok l
  | .remoteResource _ _ _ p _ =>
      ∃ l, w.peer.tree.resolve m (resourcePath h.peerFs.mount p.toList) = .ok l

/-- The source is gone, links not being followed. -/
def World.Gone (h : Hosts) (w : World) (ti : TaskInfo) : Prop :=
  ∀ b rinfo, ti.From b rinfo → ¬ w.Has h .lstat b rinfo

/-- The destination is there. -/
def World.There (h : Hosts) (w : World) (ti : TaskInfo) : Prop :=
  ∀ b rinfo, ti.To b rinfo → w.Has h .stat b rinfo

/-- The effect of a task has taken place. -/
def Task.Done (t : Task) (h : Hosts) (ti : TaskInfo) (w : World) : Prop :=
  match t with
  | noop => True
  | remove => w.Gone h ti
  | copy _ => w.There h ti
  | move _ => w.There h ti ∧ w.Gone h ti
  | remoteTransfer _ => w.bulk = some (.done (.ok ()))

/-- A mount that `backend_factory` has canonicalised. -/
def IsMount (t : FileTree) (mount : PathStr) : Prop :=
  ∃ root, mount = absPath root.reverse ∧ (t.node root).isSome ∧ t.isLink root = false

/-- The world in which a task starts. -/
structure World.Starts (h : Hosts) (ti : TaskInfo) (w : World) : Prop where
  info : w.info = ti
  fresh : ti.Fresh
  idle : w.bulk = none
  mounted : ∀ b, ti.srcBackend = some b ∨ ti.dstBackend = some b →
    b.kind = .posixFilesystem ∨ b.kind = .nvmlDax ∨ b.kind = .lustre → IsMount w.disk.tree b.mount
  peerMounted : IsMount w.peer.tree h.peerFs.mount

/-- Whatever the tasks of the combination name and in whatever world they run, one that is finished
has had its effect. -/
def Combination.Sound (c : Combination) : Prop :=
  ∀ (h : Hosts) (t : Task) (ti : TaskInfo) (w w' : World) (es : TaskTrace) (p : TaskProgram),
    c.Describes t ti → w.Starts h ti →
    Program.Trace (effects h) (t.call ti, w) es (p, w') → w'.info.status = .finished →
    t.Done h ti w'

/-! ### The combinations that can finish -/

/-- `get_resource` can hand out a resource. -/
def BoundKind.CanGet : BoundKind → Bool
  | (.posixFilesystem, .localPosixPath) => true
  | (.nvmlDax, _) => true
  | (.processMemory, .memoryRegion) => true
  | (.remoteBackend, .remoteResource) => true
  | _ => false

/-- `new_resource` can return without an error. -/
def BoundKind.CanCreate : BoundKind → Bool
  | (.posixFilesystem, .localPosixPath) => true
  | (.nvmlDax, _) => true
  | (.lustre, _) => true
  | (.processMemory, _) => true
  | (.remoteBackend, .remoteResource) => true
  | _ => false

/-- The class of what `new_resource` makes. -/
def BackendKind.newClass : BackendKind → Option ResourceType
  | processMemory => none
  | k => k.resourceClass

/-- The transferor can use what the backends make; those for shared paths do not look at it. -/
def TransferorKind.CanTransfer (k : TransferorKind) (src dst : BackendKind) : Bool :=
  k = .memoryRegionToSharedPath || k = .localPathToSharedPath ||
  (k.srcClass = src.resourceClass && k.dstClass = dst.newClass)

/-- The same for `accept_transfer`, which only two of them have. -/
def TransferorKind.CanAccept (k : TransferorKind) (src dst : BackendKind) : Bool :=
  (k ≠ .localPathToRemoteResource && k ≠ .remoteResourceToLocalPath) ||
  (k.srcClass = dst.newClass && k.dstClass = src.resourceClass)

/-- A copy or a move of these kinds can finish. -/
def CanMove (src dst : BoundKind) : Bool :=
  match loadTransferPlugins.get src.2 dst.2 with
  | none => false
  | some tx => src.CanGet && dst.CanCreate && tx.kind.CanTransfer src.1 dst.1

/-- The combinations for which a finished task has had its effect: removals from POSIX backends,
copies into POSIX backends from memory and from local paths, and whatever cannot finish. -/
def Combination.Reliable : Combination → Bool
  | noop => true
  | remove src => src.1 = .posixFilesystem || src.2 = .ignorable
  | copy src dst => !CanMove src dst ||
      (dst = (.posixFilesystem, .localPosixPath) && src.2 ≠ .remoteResource)
  | move src dst => !CanMove src dst
  | inbound src dst =>
      match loadTransferPlugins.get dst.2 src.2 with
      | none => true
      | some tx => !(src.CanGet && dst.CanCreate && tx.kind.CanAccept src.1 dst.1)

/-! ### Runs -/

section Runs

variable {h : Hosts} {w w' : World}

/-- The record changes as the calls say. -/
theorem Transfers.info {k : TransferorKind} {src : Resource} {dst : Option Resource}
    {ec : ErrorCode} (htransfer : Transfers h w k src dst ec w') : w'.info = w.info := by
  cases htransfer with
  | failed _ _ hinfo => exact hinfo
  | _ => rfl

theorem Accepts.info {k : TransferorKind} {src : Resource} {dst : Option Resource} {ec : ErrorCode}
    (haccept : Accepts h w k src dst ec w') : w'.info = w.info := by
  cases haccept with
  | failed _ hinfo => exact hinfo
  | _ => rfl

theorem effects_info {op : TaskOp} {r : op.Result} (ha : (effects h).answer op w r w') :
    w'.info = op.update w.info := by
  cases op with
  | updateStatus st => rw [show w' = _ from ha]; rfl
  | updateStatusError st ec sc => rw [show w' = _ from ha]; rfl
  | getResource b rinfo => rw [ha.2]; rfl
  | newResource b rinfo coll =>
      obtain ⟨d, -, rfl⟩ := ha
      rfl
  | transfer tx auth src dst => exact Transfers.info ha
  | acceptTransfer tx auth src dst => exact Accepts.info ha
  | remove b rinfo =>
      obtain ⟨d, -, rfl⟩ := ha
      rfl

theorem Completes.info (hc : Completes h w w') : w'.info = w.info := by
  cases hc <;> rfl

/-- A run with effects is a run of the state machine. -/
theorem trace_info {es : TaskTrace} {c c' : TaskProgram × World}
    (htrace : Program.Trace (effects h) c es c') :
    Program.Trace anyOutcome (c.1, c.2.info) es (c'.1, c'.2.info) := by
  induction htrace with
  | refl => exact .refl
  | answer _ ha ih => exact ih.answer (effects_info ha)
  | @within op next s s' es _ hw ih =>
      obtain hc | hbytes := hw
      · rwa [hc.info]
      · cases op with
        | transfer tx auth src dst =>
            obtain ⟨bytes, rfl⟩ := hbytes
            exact ih.within ⟨bytes, rfl⟩
        | _ => exact hbytes.elim

/-- A finished task has returned. -/
theorem returned_of_finished {t : Task} {ti : TaskInfo} {es : TaskTrace} {p : TaskProgram}
    (hstart : w.Starts h ti) (htrace : Program.Trace (effects h) (t.call ti, w) es (p, w'))
    (hst : w'.info.status = .finished) : p = .ret (.ok ()) := by
  have hinfo := trace_info htrace
  dsimp only at hinfo
  rw [hstart.info] at hinfo
  have hbehaves := (machine_of_trace t hstart.fresh hinfo).behaves
  exact hbehaves.returned.mpr (by rw [hst]; rfl)

/-- What a body has to ensure. -/
def Finishes (P : World → Prop) (r : Except Fault Unit) (w : World) : Prop :=
  r = .ok () → w.info.status = .finished → P w

theorem Combination.sound_of_ensures {c : Combination}
    (hc : ∀ (h : Hosts) (t : Task) (ti : TaskInfo) (w : World), c.Describes t ti →
      w.Starts h ti → Program.Ensures (effects h) (t.call ti) w (Finishes (t.Done h ti))) :
    c.Sound := by
  intro h t ti w w' es p hdesc hstart htrace hst
  obtain rfl := returned_of_finished hstart htrace hst
  exact hc h t ti w hdesc hstart es _ w' htrace rfl hst

/-- The file systems are these, and no bulk operation is under way. -/
structure World.Still (w : World) (disk peer : Disk) : Prop where
  disk : w.disk = disk
  peer : w.peer = peer
  idle : w.bulk = none

theorem World.Still.within {op : TaskOp} {disk peer : Disk} (hstill : w.Still disk peer)
    (hw : (effects h).within op w w') : w'.Still disk peer := by
  obtain hc | hbytes := hw
  · cases hc with
    | pulled hbulk _ => cases hstill.idle.symm.trans hbulk
    | pushed hbulk => cases hstill.idle.symm.trans hbulk
  · cases op with
    | transfer tx auth src dst =>
        obtain ⟨bytes, rfl⟩ := hbytes
        exact ⟨hstill.disk, hstill.peer, hstill.idle⟩
    | _ => exact hbytes.elim

variable {P : World → Prop}

theorem ensures_logError (ec : ErrorCode) :
    Program.Ensures (effects h) (Task.logError ec) w (Finishes P) := by
  refine Program.ensures_call (P := fun _ => True) trivial (fun _ _ _ _ => trivial) ?_
  rintro w₁ r w₂ - rfl
  apply Program.ensures_ret
  rintro - hst
  cases hst

theorem ensures_crash (f : Fault) :
    Program.Ensures (effects h) (Task.crash f) w (Finishes P) := by
  apply Program.ensures_ret
  rintro ⟨⟩

end Runs

/-! ### Bodies -/

section bodies

variable {h : Hosts} {w : World} {P : World → Prop} {ti : TaskInfo} {disk peer : Disk}

/-- A call of a body, with nothing else under way. -/
theorem ensures_still {op : TaskOp} {next : op.Result → TaskProgram}
    {Q : Except Fault Unit → World → Prop} (hstill : w.Still disk peer)
    (hanswer : ∀ w₁ r w₂, w₁.Still disk peer → (effects h).answer op w₁ r w₂ →
      Program.Ensures (effects h) (next r) w₂ Q) :
    Program.Ensures (effects h) (.call op next) w Q :=
  Program.ensures_call (P := fun w => w.Still disk peer) hstill
    (fun _ _ hs hw => hs.within hw) hanswer

theorem ensures_succeed (hstill : w.Still disk peer)
    (hP : ∀ w : World, w.Still disk peer → P w) :
    Program.Ensures (effects h) Task.succeed w (Finishes P) := by
  refine ensures_still hstill ?_
  rintro w₁ r w₂ hs rfl
  apply Program.ensures_ret
  exact fun _ _ => hP _ ⟨hs.disk, hs.peer, hs.idle⟩

/-- `running` is written at the start of a body. -/
theorem ensures_running {body : TaskProgram} (hstill : w.Still disk peer)
    (hbody : ∀ w' : World, w'.Still disk peer →
      Program.Ensures (effects h) body w' (Finishes P)) :
    Program.Ensures (effects h) (.call (.updateStatus .running) fun _ => body) w (Finishes P) := by
  refine ensures_still hstill ?_
  rintro w₁ r w₂ hs rfl
  exact hbody _ ⟨hs.disk, hs.peer, hs.idle⟩

/-- The code of a call is tested. -/
theorem ensures_guarded {ec : ErrorCode} {p : TaskProgram}
    (hp : ec = 0 → Program.Ensures (effects h) p w (Finishes P)) :
    Program.Ensures (effects h) (if ec ≠ 0 then Task.logError ec else p) w (Finishes P) := by
  split_ifs with hec
  · exact ensures_logError ec
  · exact hp (not_not.mp hec)

/-- The body of `task<remove>`. -/
theorem remove_ensures {b : Backend} {rinfo : ResourceInfo} (hfrom : ti.From b rinfo)
    (hstill : w.Still disk peer)
    (hdone : ∀ d, b.removeFrom disk rinfo = some (d, 0) →
      ∀ w' : World, w'.Still d peer → P w') :
    Program.Ensures (effects h) (Task.removeBody ti) w (Finishes P) := by
  unfold Task.removeBody
  rw [hfrom.1, hfrom.2]
  refine ensures_running hstill fun w₁ hs₁ => ensures_still hs₁ ?_
  rintro w₂ ec w₃ hs₂ ⟨d, hremove, rfl⟩
  rw [hs₂.disk] at hremove
  refine ensures_guarded fun hec => ?_
  rw [hec] at hremove
  exact ensures_succeed ⟨rfl, hs₂.peer, hs₂.idle⟩ (hdone d hremove)

/-- The body of a task with a transfer: what is left to show is what the transfer has done. -/
theorem transfer_ensures {tx : Transferor} {b b' : Backend} {rinfo rinfo' : ResourceInfo}
    {accept : Bool} (hfrom : ti.From b rinfo) (hto : ti.To b' rinfo') (hstill : w.Still disk peer)
    (hdone : ∀ src dst d w₁ w₂, b.getFrom disk.tree rinfo = some (some src, 0) →
      b'.createIn disk rinfo' src.isCollection = some (d, dst, 0) → w₁.Still d peer →
      (if accept then Accepts h w₁ tx.kind src dst 0 w₂ else Transfers h w₁ tx.kind src dst 0 w₂) →
      ∃ d' peer', w₂.Still d' peer' ∧ ∀ w' : World, w'.Still d' peer' → P w') :
    Program.Ensures (effects h) (Task.transferBody accept tx ti) w (Finishes P) := by
  unfold Task.transferBody
  rw [hfrom.1, hfrom.2, hto.1, hto.2]
  refine ensures_running hstill fun w₁ hs₁ => ensures_still hs₁ ?_
  rintro w₂ ⟨src, ec⟩ w₃ hs₂ ⟨hget, rfl⟩
  rw [hs₂.disk] at hget
  refine ensures_guarded fun hec => ?_
  subst hec
  cases src with
  | none => exact ensures_crash .nullDeref
  | some src =>
      refine ensures_still hs₂ ?_
      rintro w₄ ⟨dst, ec⟩ w₅ hs₃ ⟨d, hcreate, rfl⟩
      rw [hs₃.disk] at hcreate
      refine ensures_guarded fun hec => ?_
      subst hec
      have hs₄ : World.Still { w₄ with disk := d } d peer := ⟨rfl, hs₃.peer, hs₃.idle⟩
      cases accept with
      | true =>
          refine ensures_still hs₄ ?_
          rintro w₆ ec w₇ hs₅ haccept
          refine ensures_guarded fun hec => ?_
          subst hec
          obtain ⟨d', peer', hs₆, hP⟩ := hdone src dst d w₆ w₇ hget hcreate hs₅ haccept
          exact ensures_succeed hs₆ hP
      | false =>
          refine ensures_still hs₄ ?_
          rintro w₆ ec w₇ hs₅ htransfer
          refine ensures_guarded fun hec => ?_
          subst hec
          obtain ⟨d', peer', hs₆, hP⟩ := hdone src dst d w₆ w₇ hget hcreate hs₅ htransfer
          exact ensures_succeed hs₆ hP

end bodies

/-! ### The classes of resources -/

/-- What `get_resource` hands out is of the class of its backend. -/
theorem getFrom_class {b : Backend} {t : FileTree} {rinfo : ResourceInfo} {src : Resource}
    {ec : ErrorCode} (hget : b.getFrom t rinfo = some (some src, ec)) :
    BoundKind.CanGet (b.kind, rinfo.type) = true ∧ b.kind.resourceClass = some src.type := by
  unfold Backend.getFrom at hget
  split at hget
  · next nsid datapath hkind =>
      rw [hkind]
      split at hget
      · cases hget
        exact ⟨rfl, rfl⟩
      · cases hget
      · cases hget
  · cases hget
  · next hkind =>
      rw [hkind]
      cases hget
      exact ⟨rfl, rfl⟩
  · cases hget
  · next hkind =>
      rw [hkind]
      cases hget
      exact ⟨rfl, rfl⟩
  · cases hget
  · next hkind =>
      rw [hkind]
      cases hget
      exact ⟨rfl, rfl⟩
  · cases hget

/-- The same for `new_resource`, which may hand out nothing. -/
theorem createIn_class {b : Backend} {d d' : Disk} {rinfo : ResourceInfo} {coll : Bool}
    {dst : Option Resource} (hcreate : b.createIn d rinfo coll = some (d', dst, 0)) :
    BoundKind.CanCreate (b.kind, rinfo.type) = true ∧ b.kind.newClass = dst.map Resource.type := by
  unfold Backend.createIn at hcreate
  split at hcreate
  · next nsid datapath hkind =>
      rw [hkind]
      split at hcreate
      · cases hcreate
        exact ⟨rfl, rfl⟩
      · next hnew =>
          cases hcreate
          exact absurd rfl (newResource_error hnew)
      · cases hcreate
  · next hkind =>
      rw [hkind]
      cases hcreate
      exact ⟨rfl, rfl⟩
  · next hmemory hpath =>
      obtain ⟨r, hget, hr⟩ := Option.map_eq_some_iff.mp hcreate
      cases hr
      unfold Backend.getFrom at hget
      split at hget
      · next hkind => exact (hpath _ _ hkind rfl).elim
      · cases hget
      · next hkind =>
          rw [hkind]
          cases hget
          exact ⟨rfl, rfl⟩
      · next hkind =>
          rw [hkind]
          cases hget
          exact ⟨rfl, rfl⟩
      · next hkind => exact absurd hkind hmemory
      · cases hget
      · next hkind =>
          rw [hkind]
          cases hget
          exact ⟨rfl, rfl⟩
      · cases hget

/-- A transfer that succeeds has been given resources of its classes, or does not look at them. -/
theorem Transfers.classes {h : Hosts} {w w' : World} {k : TransferorKind} {src : Resource}
    {dst : Option Resource} (htransfer : Transfers h w k src dst 0 w') :
    k = .memoryRegionToSharedPath ∨ k = .localPathToSharedPath ∨
      (k.srcClass = some src.type ∧ k.dstClass = dst.map Resource.type) := by
  cases htransfer with
  | failed _ hec _ => exact absurd rfl hec
  | region => exact .inr (.inr ⟨rfl, rfl⟩)
  | path => exact .inr (.inr ⟨rfl, rfl⟩)
  | shared hk => exact hk.imp_right .inl
  | push hinput => cases hinput <;> exact .inr (.inr ⟨rfl, rfl⟩)
  | statRefused => exact .inr (.inr ⟨rfl, rfl⟩)
  | pull => exact .inr (.inr ⟨rfl, rfl⟩)

/-- The same for `accept_transfer`, whose source and destination are swapped. -/
theorem Accepts.classes {h : Hosts} {w w' : World} {k : TransferorKind} {src : Resource}
    {dst : Option Resource} (haccept : Accepts h w k src dst 0 w') :
    (k ≠ .localPathToRemoteResource ∧ k ≠ .remoteResourceToLocalPath) ∨
      (k.srcClass = dst.map Resource.type ∧ k.dstClass = some src.type) := by
  cases haccept with
  | failed hec _ => exact absurd rfl hec
  | ignored hk hk' => exact .inl ⟨hk, hk'⟩
  | push => exact .inr ⟨rfl, rfl⟩
  | pull => exact .inr ⟨rfl, rfl⟩

/-! ### Copies into POSIX backends -/

section paths

variable {t t' : FileTree} {mount : PathStr}

theorem IsMount.persists (hm : IsMount t mount) (ht : Persists t t') : IsMount t' mount := by
  obtain ⟨root, heq, hsome, hlink⟩ := hm
  exact ⟨root, heq, ht.isSome hsome, by rw [ht.isLink hsome, hlink]⟩

theorem IsMount.resolves (hm : IsMount t mount) (m : Mode) :
    ∃ root, t.resolve m mount = .ok root := by
  obtain ⟨root, rfl, hsome, hlink⟩ := hm
  exact ⟨root, resolve_absPath hsome hlink⟩

/-- The path of a resource is looked up from the mount. -/
theorem resourcePath_resolves (fs : Mounted t) {p : PathStr} {x : Loc} (hp : p ≠ [])
    (h : t.walk .stat maxLinks fs.root (normComps p) = .ok x) :
    ∃ l, t.resolve .stat (resourcePath fs.mount p) = .ok l := by
  unfold resourcePath
  split_ifs with hnil
  · exact ⟨fs.root, by rw [fs.mount_eq, resolve_absPath fs.root_isSome fs.root_not_link]⟩
  · rw [resolve_nsSubpath fs .stat hp, nsLookups, if_neg hnil]
    exact ⟨x, h⟩

end paths

/-- A local path that a backend hands out leads somewhere, and it is known whether to a
directory. -/
theorem getFrom_localPath {b b₀ : Backend} {t : FileTree} {rinfo : ResourceInfo} {name : PathStr}
    {coll : Bool} {ec : ErrorCode} (hmount : IsMount t b.mount)
    (hget : b.getFrom t rinfo = some (some (.localPath b₀ name coll), ec)) :
    b₀ = b ∧ ∃ l, t.resolve .stat (append b.mount name) = .ok l ∧ coll = t.isDir l := by
  unfold Backend.getFrom at hget
  split at hget
  · split at hget
    · next nsid datapath hkind res hres =>
        cases hget
        obtain ⟨root, heq, hsome, hlink⟩ := hmount
        let fs : Mounted t := ⟨b.fs, root, heq, hsome, hlink⟩
        obtain ⟨l, hl, -, hcoll⟩ := getResource_ok_spec fs hres
        rw [getResource_canonicalPath hres] at hl
        refine ⟨rfl, l, hl, Bool.eq_iff_iff.mpr ?_⟩
        rw [hcoll, isDir, decide_eq_true_iff]
    · cases hget
    · cases hget
  · cases hget
  · cases hget
    obtain ⟨root, hroot⟩ := hmount.resolves .stat
    have happ : append b.mount [] = b.mount := rfl
    exact ⟨rfl, root, by rw [happ, hroot], by simp only [isDirectory, happ, hroot]⟩
  · cases hget
  · cases hget
  · cases hget
  · cases hget
  · cases hget

/-- `new_resource` of a POSIX backend. -/
theorem createIn_posix {b : Backend} {d d' : Disk} {nsid datapath : String} {coll : Bool}
    {dst : Option Resource} (hkind : b.kind = .posixFilesystem)
    (hcreate : b.createIn d (.localPath nsid datapath) coll = some (d', dst, 0)) :
    ∃ res, b.fs.newResource d ⟨nsid, datapath⟩ coll = (d', .ok res) ∧
      dst = some (.localPath b res.name res.isCollection) := by
  unfold Backend.createIn at hcreate
  rw [hkind] at hcreate
  dsimp only at hcreate
  split at hcreate
  · next hnew =>
      cases hcreate
      exact ⟨_, hnew, rfl⟩
  · next hnew =>
      cases hcreate
      exact absurd rfl (newResource_error hnew)
  · cases hcreate

/-- A file that has been written where `new_resource` says. -/
theorem written_resolves {b : Backend} {d d' d'' : Disk} {nsid datapath : String}
    {res : LocalPathResource} {fallocate : Bool} {data : List UInt8}
    (hmount : IsMount d.tree b.mount)
    (hnew : b.fs.newResource d ⟨nsid, datapath⟩ false = (d', .ok res))
    (hwrite : d'.writeFile fallocate (append b.mount res.name) data = (d'', 0)) :
    ∃ l, d''.tree.resolve .stat (resourcePath b.mount datapath.toList) = .ok l := by
  obtain ⟨hp, hname⟩ := newResource_name hnew
  obtain ⟨l, hl⟩ := writeFile_resolves hwrite
  rw [hname] at hl
  unfold resourcePath
  split_ifs with hnil
  · have hnewp := newResource_persists d b.fs ⟨nsid, datapath⟩ false
    have hwritep := writeFile_persists fallocate d' (append b.mount res.name) data
    rw [hnew] at hnewp
    rw [hwrite] at hwritep
    exact ((hmount.persists hnewp).persists hwritep).resolves .stat
  · exact ⟨l, hl⟩

/-- The destination of a copy into a POSIX backend. -/
theorem copied_resolves {h : Hosts} {b b' : Backend} {rinfo : ResourceInfo} {nsid datapath : String}
    {disk d peer : Disk} {src : Resource} {dst : Option Resource} {k : TransferorKind}
    {w₁ w₂ : World}
    (hmount : b.kind = .posixFilesystem ∨ b.kind = .nvmlDax → IsMount disk.tree b.mount)
    (hkind : b'.kind = .posixFilesystem) (hmount' : IsMount disk.tree b'.mount)
    (hk : k = .memoryRegionToLocalPath ∨ k = .localPathToLocalPath)
    (hget : b.getFrom disk.tree rinfo = some (some src, 0))
    (hcreate : b'.createIn disk (.localPath nsid datapath) src.isCollection = some (d, dst, 0))
    (hstill : w₁.Still d peer) (htransfer : Transfers h w₁ k src dst 0 w₂) :
    ∃ d', w₂.Still d' peer ∧
      ∃ l, d'.tree.resolve .stat (resourcePath b'.mount datapath.toList) = .ok l := by
  obtain ⟨res, hnew, rfl⟩ := createIn_posix hkind hcreate
  cases htransfer with
  | failed _ hec _ => exact absurd rfl hec
  | shared hshared => rcases hk with rfl | rfl <;> rcases hshared with hk | hk <;> cases hk
  | region hdir hlen hwrite =>
      rw [hstill.disk] at hwrite
      exact ⟨_, ⟨rfl, hstill.peer, hstill.idle⟩, written_resolves hmount' hnew hwrite⟩
  | @path b₀ _ name _ coll _ fallocate entries d' hcopy =>
      rw [hstill.disk] at hcopy
      refine ⟨_, ⟨rfl, hstill.peer, hstill.idle⟩, ?_⟩
      -- the source is still what it was when `get_resource` looked at it
      have hm : IsMount disk.tree b.mount := by
        refine hmount ?_
        have hclass := (getFrom_class hget).2
        cases hb : b.kind <;> simp_all [BackendKind.resourceClass, Resource.type]
      obtain ⟨rfl, l, hl, hcoll⟩ := getFrom_localPath hm hget
      have hnewp := newResource_persists disk b'.fs ⟨nsid, datapath⟩ coll
      rw [show b'.fs.newResource disk ⟨nsid, datapath⟩ coll = _ from hnew] at hnewp
      have hsame : isDirectory d.tree (append b₀.mount name) = coll := by
        rw [isDirectory, resolve_persists hl rfl hnewp, hcoll]
        exact hnewp.isDir (resolve_isSome hl rfl)
      unfold transferLocal at hcopy
      rw [hsame] at hcopy
      cases coll with
      | true =>
          obtain ⟨root, heq, hsome, hlink⟩ := hmount'
          let fs : Mounted disk.tree := ⟨b'.fs, root, heq, hsome, hlink⟩
          obtain ⟨x, hx⟩ := newResource_resolves fs hnew
          have hcopyp := copyDirectory_persists fallocate (append b₀.mount name)
            (append b'.mount res.name) d entries
          rw [show copyDirectory fallocate _ _ d entries = _ from hcopy] at hcopyp
          have hp := hnewp.trans hcopyp
          let fs' : Mounted d'.tree :=
            ⟨b'.fs, root, heq, hp.isSome hsome, by rw [hp.isLink hsome, hlink]⟩
          exact resourcePath_resolves fs' (newResource_name hnew).1
            (walk_ok_iff.mpr ((walk_ok_iff.mp hx).persists rfl hcopyp))
      | false =>
          obtain ⟨data, hwrite⟩ := copyFile_ok hcopy
          exact written_resolves hmount' hnew hwrite
  | statRefused => rcases hk with hk | hk <;> cases hk
  | pull => rcases hk with hk | hk <;> cases hk

/-! ### Removals from POSIX backends -/

/-- What a POSIX backend has removed is not found any more. -/
theorem removed_gone {t t' : FileTree} {fs : Mounted t} {rinfo : LocalPathInfo}
    (hremove : fs.remove t rinfo = (t', .ok ())) (x : Loc) :
    t'.resolve .lstat (resourcePath fs.mount rinfo.datapath.toList) ≠ .ok x := by
  obtain ⟨hp, l, hl, hne, rfl⟩ := remove_ok_spec hremove
  unfold resourcePath
  split_ifs with hnil
  · -- the mount itself
    have hroot : t.resolve .lstat fs.mount = .ok fs.root := by
      rw [fs.mount_eq, resolve_absPath fs.root_isSome fs.root_not_link]
    rw [nsPath, resolve_nsSubpath fs .lstat hp, nsLookups, if_pos hnil] at hl
    obtain rfl := (walk_ok_iff.mp hl).of_dot
    exact removeTree_resolve hroot rfl hne x
  · exact removeTree_resolve hl rfl hne x

theorem removeFrom_gone {b : Backend} {d d' : Disk} {rinfo : ResourceInfo}
    (hkind : b.kind = .posixFilesystem) (hmount : IsMount d.tree b.mount)
    (hremove : b.removeFrom d rinfo = some (d', 0)) :
    ∃ nsid datapath, rinfo = .localPath nsid datapath ∧
      ∀ x, d'.tree.resolve .lstat (resourcePath b.mount datapath.toList) ≠ .ok x := by
  obtain ⟨root, heq, hsome, hlink⟩ := hmount
  let fs : Mounted d.tree := ⟨b.fs, root, heq, hsome, hlink⟩
  unfold Backend.removeFrom at hremove
  rw [hkind] at hremove
  cases rinfo with
  | localPath nsid datapath =>
      refine ⟨nsid, datapath, rfl, fun x => ?_⟩
      dsimp only at hremove
      split at hremove
      · next hok =>
          cases hremove
          have hok' : fs.remove d.tree ⟨nsid, datapath⟩ = (_, .ok ()) := hok
          exact removed_gone hok' x
      · next herr =>
          cases hremove
          have herr' : fs.remove d.tree ⟨nsid, datapath⟩ = (_, .error 0) := herr
          exact absurd rfl (remove_error herr')
      · cases hremove
  | _ => cases hremove

/-! ### The reliable combinations -/

theorem World.Starts.still {h : Hosts} {ti : TaskInfo} {w : World} (hstart : w.Starts h ti) :
    w.Still w.disk w.peer :=
  ⟨rfl, rfl, hstart.idle⟩

theorem noop_sound : Combination.noop.Sound := by
  rintro h t ti w w' es p rfl - - -
  trivial

theorem remove_sound {src : BoundKind} (hsrc : (Combination.remove src).Reliable = true) :
    (Combination.remove src).Sound := by
  refine Combination.sound_of_ensures ?_
  rintro h t ti w ⟨rfl, b, rinfo, hfrom, hkind, htype⟩ hstart
  refine remove_ensures hfrom hstart.still fun d hremove w' hstill => ?_
  have hposix : b.kind = .posixFilesystem := by
    have hor : src.1 = .posixFilesystem ∨ src.2 = .ignorable := by
      simpa [Combination.Reliable] using hsrc
    rcases hor with hposix | hign
    · rw [hkind, hposix]
    · rw [hign] at htype
      cases rinfo <;> cases htype
  obtain ⟨nsid, datapath, rfl, hgone⟩ :=
    removeFrom_gone hposix (hstart.mounted b (.inl hfrom.1) (.inl hposix)) hremove
  rintro b₁ rinfo₁ hfrom₁ hhas
  obtain rfl : b = b₁ := Option.some.inj (hfrom.1.symm.trans hfrom₁.1)
  obtain rfl : .localPath nsid datapath = rinfo₁ := Option.some.inj (hfrom.2.symm.trans hfrom₁.2)
  obtain ⟨x, hx⟩ := hhas
  rw [hstill.disk] at hx
  exact hgone x hx

/-- A transfer succeeds only for the combinations that can finish. -/
theorem canMove_of_transfers {h : Hosts} {src dst : BoundKind} {tx : Transferor} {b b' : Backend}
    {rinfo rinfo' : ResourceInfo} {disk d : Disk} {res : Resource} {res' : Option Resource}
    {w₁ w₂ : World} (hsrc : src.Of b rinfo) (hdst : dst.Of b' rinfo')
    (hreg : loadTransferPlugins.get src.2 dst.2 = some tx)
    (hget : b.getFrom disk.tree rinfo = some (some res, 0))
    (hcreate : b'.createIn disk rinfo' res.isCollection = some (d, res', 0))
    (htransfer : Transfers h w₁ tx.kind res res' 0 w₂) : CanMove src dst = true := by
  obtain ⟨hcanGet, hclass⟩ := getFrom_class hget
  obtain ⟨hcanCreate, hclass'⟩ := createIn_class hcreate
  rw [hsrc.1, hsrc.2] at hcanGet
  rw [hdst.1, hdst.2] at hcanCreate
  rw [hsrc.1] at hclass
  rw [hdst.1] at hclass'
  have hcan : tx.kind.CanTransfer src.1 dst.1 = true := by
    unfold TransferorKind.CanTransfer
    rw [hclass, hclass']
    rcases htransfer.classes with hk | hk | ⟨hk, hk'⟩ <;> simp [*]
  simp only [CanMove, hreg, hcan, Bool.and_true, Bool.and_eq_true]
  exact ⟨hcanGet, hcanCreate⟩

/-- A task that cannot finish has its effect whenever it is finished. -/
theorem transferable_sound {h : Hosts} {ti : TaskInfo} {w : World} {tx : Transferor}
    {src dst : BoundKind} {P : World → Prop} (ht : Transferable ti tx src dst false)
    (hstart : w.Starts h ti) (hcan : CanMove src dst = false) :
    Program.Ensures (effects h) (Task.transferBody false tx ti) w (Finishes P) := by
  obtain ⟨b, rinfo, hfrom, hsrc⟩ := ht.source
  obtain ⟨b', rinfo', hto, hdst⟩ := ht.destination
  refine transfer_ensures hfrom hto hstart.still ?_
  intro res res' d w₁ w₂ hget hcreate _ htransfer
  have hmove := canMove_of_transfers hsrc hdst ht.registered hget hcreate htransfer
  rw [hcan] at hmove
  cases hmove

theorem move_sound {src dst : BoundKind} (hc : (Combination.move src dst).Reliable = true) :
    (Combination.move src dst).Sound := by
  refine Combination.sound_of_ensures ?_
  rintro h t ti w ⟨tx, rfl, ht⟩ hstart
  exact transferable_sound ht hstart (by simpa [Combination.Reliable] using hc)

/-- The transferors for local paths on both sides. -/
theorem transferor_to_localPath {src : ResourceType} {tx : Transferor}
    (hreg : loadTransferPlugins.get src .localPosixPath = some tx) (hsrc : src ≠ .remoteResource) :
    tx.kind = .memoryRegionToLocalPath ∨ tx.kind = .localPathToLocalPath := by
  cases src with
  | memoryRegion => cases hreg; exact .inl rfl
  | localPosixPath => cases hreg; exact .inr rfl
  | remoteResource => exact absurd rfl hsrc
  | _ => cases hreg

theorem copy_sound {src dst : BoundKind} (hc : (Combination.copy src dst).Reliable = true) :
    (Combination.copy src dst).Sound := by
  refine Combination.sound_of_ensures ?_
  rintro h t ti w ⟨tx, rfl, ht⟩ hstart
  have hor : CanMove src dst = false ∨
      dst = (.posixFilesystem, .localPosixPath) ∧ src.2 ≠ .remoteResource := by
    simpa [Combination.Reliable] using hc
  rcases hor with hcan | ⟨rfl, hremote⟩
  · exact transferable_sound ht hstart hcan
  obtain ⟨b, rinfo, hfrom, hsrc⟩ := ht.source
  obtain ⟨b', rinfo', hto, hkind, htype⟩ := ht.destination
  obtain ⟨nsid, datapath, rfl⟩ : ∃ nsid datapath, rinfo' = .localPath nsid datapath := by
    cases rinfo' with
    | localPath nsid datapath => exact ⟨nsid, datapath, rfl⟩
    | _ => cases htype
  refine transfer_ensures hfrom hto hstart.still ?_
  intro res res' d w₁ w₂ hget hcreate hstill htransfer
  obtain ⟨d', hstill', l, hl⟩ := copied_resolves
    (fun hb => hstart.mounted b (.inl hfrom.1) (hb.imp_right .inl)) hkind
    (hstart.mounted b' (.inr hto.1) (.inl hkind)) (transferor_to_localPath ht.registered hremote)
    hget hcreate hstill htransfer
  refine ⟨d', w.peer, hstill', fun w' hs b₁ rinfo₁ hto₁ => ?_⟩
  obtain rfl : b' = b₁ := Option.some.inj (hto.1.symm.trans hto₁.1)
  obtain rfl : .localPath nsid datapath = rinfo₁ := Option.some.inj (hto.2.symm.trans hto₁.2)
  exact ⟨l, by rw [hs.disk]; exact hl⟩

theorem inbound_sound {src dst : BoundKind} (hc : (Combination.inbound src dst).Reliable = true) :
    (Combination.inbound src dst).Sound := by
  refine Combination.sound_of_ensures ?_
  rintro h t ti w ⟨tx, rfl, hremote, ht⟩ hstart
  obtain ⟨b, rinfo, hfrom, hsrc⟩ := ht.source
  obtain ⟨b', rinfo', hto, hdst⟩ := ht.destination
  show Program.Ensures (effects h) (Task.transferBody ti.isRemote tx ti) w _
  rw [hremote]
  refine transfer_ensures hfrom hto hstart.still ?_
  intro res res' d w₁ w₂ hget hcreate _ haccept
  obtain ⟨hcanGet, hclass⟩ := getFrom_class hget
  obtain ⟨hcanCreate, hclass'⟩ := createIn_class hcreate
  rw [hsrc.1, hsrc.2] at hcanGet
  rw [hdst.1, hdst.2] at hcanCreate
  rw [hsrc.1] at hclass
  rw [hdst.1] at hclass'
  have hcan : tx.kind.CanAccept src.1 dst.1 = true := by
    unfold TransferorKind.CanAccept
    rw [hclass, hclass']
    rcases Accepts.classes haccept with ⟨hk, hk'⟩ | ⟨hk, hk'⟩ <;> simp [*]
  have hreg : loadTransferPlugins.get dst.2 src.2 = some tx := ht.registered
  have hcanGet' : src.CanGet = true := hcanGet
  have hcanCreate' : dst.CanCreate = true := hcanCreate
  simp [Combination.Reliable, hreg, hcan, hcanGet', hcanCreate'] at hc

/-- For these combinations a finished task has had its effect, in every run. -/
theorem finished_done (c : Combination) (hc : c.Reliable = true) : c.Sound := by
  cases c with
  | noop => exact noop_sound
  | remove src => exact remove_sound hc
  | copy src dst => exact copy_sound hc
  | move src dst => exact move_sound hc
  | inbound src dst => exact inbound_sound hc

/-- A namespace that is mounted at `/mnt` of a file system with the file `/mnt/f`. -/
def posixBackend : Backend := ⟨.posixFilesystem, "tmp0", false, "/mnt".toList, 0⟩

def fileHosts : Hosts := ⟨sampleEnv, sampleEnv, posixBackend.fs⟩

def fileWorld (ti : TaskInfo) : World := ⟨ti, ⟨sourceTree [1], []⟩, ⟨mntTree, []⟩, none⟩

theorem fileWorld_starts {ti : TaskInfo} (hfresh : ti.Fresh)
    (hsrc : ∀ b, ti.srcBackend = some b ∨ ti.dstBackend = some b → b = posixBackend) :
    (fileWorld ti).Starts fileHosts ti := by
  refine ⟨rfl, hfresh, rfl, fun b hb _ => ?_, ["mnt".toList], rfl, rfl, rfl⟩
  rw [hsrc b hb]
  exact ⟨["mnt".toList], rfl, rfl, rfl⟩

/-- The removal of `/mnt/f`. -/
def removalInfo : TaskInfo :=
  .new 1 .remove false ⟨1, 0, 0⟩ (some posixBackend) (some (.localPath "tmp0" "f")) none none 0

/-- A removal that is finished: the file is gone. -/
theorem posix_removal_done :
    ∃ es p w, Program.Trace (effects fileHosts)
      (Task.remove.call removalInfo, fileWorld removalInfo) es (p, w) ∧
      w.info.status = .finished ∧ Task.remove.Done fileHosts removalInfo w := by
  have hstart : Program.Trace (effects fileHosts)
      (Task.remove.call removalInfo, fileWorld removalInfo) []
      (.call (.updateStatus .running) _, fileWorld removalInfo) := .refl
  have hrunning : Program.Trace (effects fileHosts)
      (Task.remove.call removalInfo, fileWorld removalInfo) _ (.call (.remove _ _) _, _) :=
    hstart.answer (r := ()) rfl
  have hremoved : Program.Trace (effects fileHosts)
      (Task.remove.call removalInfo, fileWorld removalInfo) _
      (.call (.updateStatusError .finished .success 0) _, _) :=
    hrunning.answer (r := (0 : ErrorCode)) ⟨_, rfl, rfl⟩
  have htrace := hremoved.answer (r := ()) rfl
  have hsource : removalInfo.From posixBackend (.localPath "tmp0" "f") := ⟨rfl, rfl⟩
  refine ⟨_, _, _, htrace, rfl, ?_⟩
  exact finished_done (.remove (.posixFilesystem, .localPosixPath)) rfl fileHosts .remove
    removalInfo (fileWorld removalInfo) _ _ _ ⟨rfl, posixBackend, _, hsource, rfl, rfl⟩
    (fileWorld_starts ⟨rfl, rfl, rfl⟩ (by simp [removalInfo, TaskInfo.new])) htrace rfl

/-- A move of `/mnt/f` to `/mnt/g`. -/
def moveInfo : TaskInfo :=
  .new 1 .move false ⟨1, 0, 0⟩ (some posixBackend) (some (.localPath "tmp0" "f"))
    (some posixBackend) (some (.localPath "tmp0" "g")) 0

def moveTask : Task := .move TransferorKind.localPathToLocalPath.plugin

/-- The file system once `/mnt/f` has been copied. -/
def movedDisk : Disk :=
  (transferLocal false ⟨sourceTree [1], []⟩ "/mnt/f".toList "/mnt/g".toList []).1

/-- A move that is finished, with its source still there. -/
theorem moved_source_stays :
    ¬ (Combination.move (.posixFilesystem, .localPosixPath)
      (.posixFilesystem, .localPosixPath)).Sound := by
  intro hsound
  have hstart : Program.Trace (effects fileHosts) (moveTask.call moveInfo, fileWorld moveInfo) []
      (.call (.updateStatus .running) _, fileWorld moveInfo) := .refl
  have hrunning : Program.Trace (effects fileHosts) (moveTask.call moveInfo, fileWorld moveInfo) _
      (.call (.getResource _ _) _, _) := hstart.answer (r := ()) rfl
  have hgot : Program.Trace (effects fileHosts) (moveTask.call moveInfo, fileWorld moveInfo) _
      (.call (.newResource _ _ _) _, _) :=
    hrunning.answer (r := (some (.localPath posixBackend "/f".toList false), (0 : ErrorCode)))
      ⟨by decide +kernel, rfl⟩
  have hcreated : Program.Trace (effects fileHosts) (moveTask.call moveInfo, fileWorld moveInfo) _
      (.call (.transfer _ _ _ _) _, _) :=
    hgot.answer (r := (some (.localPath posixBackend "/g".toList false), (0 : ErrorCode)))
      ⟨⟨sourceTree [1], []⟩, by rfl, rfl⟩
  have hcopy : transferLocal false ⟨sourceTree [1], []⟩ (append posixBackend.mount "/f".toList)
      (append posixBackend.mount "/g".toList) [] = (movedDisk, .ok ()) :=
    Prod.ext rfl (by decide +kernel)
  have htransfer (info : TaskInfo) : (effects fileHosts).answer
      (.transfer TransferorKind.localPathToLocalPath.plugin moveInfo.auth
        (.localPath posixBackend "/f".toList false)
        (some (.localPath posixBackend "/g".toList false)))
      ⟨info, ⟨sourceTree [1], []⟩, ⟨mntTree, []⟩, none⟩ (0 : ErrorCode)
      ⟨info, movedDisk, ⟨mntTree, []⟩, none⟩ := Transfers.path hcopy
  have hmoved : Program.Trace (effects fileHosts) (moveTask.call moveInfo, fileWorld moveInfo) _
      (.call (.updateStatusError .finished .success 0) _,
        ⟨_, movedDisk, ⟨mntTree, []⟩, none⟩) :=
    hcreated.answer (htransfer _)
  have htrace := hmoved.answer (r := ()) rfl
  have hsource : moveInfo.From posixBackend (.localPath "tmp0" "f") := ⟨rfl, rfl⟩
  have hdest : moveInfo.To posixBackend (.localPath "tmp0" "g") := ⟨rfl, rfl⟩
  have hdone := hsound fileHosts moveTask moveInfo (fileWorld moveInfo) _ _ _
    ⟨_, rfl, ⟨_, _, hsource, rfl, rfl⟩, ⟨_, _, hdest, rfl, rfl⟩, rfl, fun _ _ _ _ _ _ => rfl⟩
    (fileWorld_starts ⟨rfl, rfl, rfl⟩ (by simp [moveInfo, TaskInfo.new])) htrace rfl
  exact hdone.2 posixBackend _ hsource ⟨[['f'], "mnt".toList], by decide +kernel⟩

end Norns
