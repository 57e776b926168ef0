import Norns.Binding
import Norns.RemoteTransfer
import Norns.TarArchive

/-! # Bytes

A record has the bytes that there are to transfer, which `get_size` counts when it is made, and the
bytes that have been sent, to which the transferor adds; a client is told their difference.  The
two numbers have nothing to do with each other in the code: the first is the size of the files of
the source, the second of whatever the transferor has had in its hands (a file, an archive, a
mapped buffer, or nothing at all).

What is outside the daemon is an `Outside`: what is found at the source, the errors of the system
and the answers of the peer.  With it a transfer is a list of numbers that are added to the bytes
sent, one after the other, and the code that it returns (`transferBytes`).

* `TransferAt`: what a copy or a move has added to its record at every point of every run.
* `byte_accounting_iff`: the bytes sent never exceed the total, and are the total when the task
  ends without an error, exactly for these tasks: between local paths of POSIX namespaces, from
  memory to a peer, from a file to a peer, and those that send nothing and have nothing to send. -/

namespace Norns

open Lib

/-! ### What is found at the source -/

/-- The `st_size` of a file. -/
def FileStatus.size : FileStatus → ℕ
  | regular data => data.length
  | _ => 0

/-- What a path leads to; of the entries of a directory, what they lead to. -/
inductive Found where
  | missing
  | file (st : FileStatus)
  | directory (entries : List FileStatus)
deriving DecidableEq, Repr

namespace Found

/-- `bfs::is_directory`. -/
def isDirectory : Found → Bool
  | directory _ => true
  | _ => false

/-- The body of the loop of `posix_filesystem::get_size`. -/
def countEntry (bytes : UInt64) : FileStatus → UInt64
  | .regular data => bytes + UInt64.ofNat data.length
  | _ => bytes

/-- `posix_filesystem::get_size`. -/
def getSize : Found → Except ErrorCode UInt64
  | missing => .error ENOENT
  | directory entries => .ok (entries.foldl countEntry 0)
  | file (.regular data) => .ok (UInt64.ofNat data.length)
  | file _ => .error EPERM

/-- What the constructor of `task_info` makes of it: zero if there was an error. -/
def total (f : Found) : UInt64 :=
  match f.getSize with
  | .ok n => n
  | .error _ => 0

/-- The bytes in the files. -/
def bytes : Found → ℕ
  | missing => 0
  | file st => st.size
  | directory entries => (entries.map FileStatus.size).sum

/-- The bytes that a push maps: of the file, or of the archive. -/
def inputSize (f : Found) (isCollection : Bool) : ℕ :=
  match f, isCollection with
  | directory entries, true => 512 + (entries.map FileStatus.packedSize).sum + 1024
  | file st, false => st.size
  | _, _ => 0

/-- Nothing has changed but the order in which the entries are delivered. -/
inductive Same : Found → Found → Prop
  | missing : Same missing missing
  | file (st : FileStatus) : Same (file st) (file st)
  | directory {entries entries' : List FileStatus} (h : entries.Perm entries') :
      Same (directory entries) (directory entries')

theorem foldl_countEntry (n : UInt64) (entries : List FileStatus) :
    entries.foldl countEntry n = n + UInt64.ofNat (entries.map FileStatus.size).sum := by
  induction entries generalizing n with
  | nil => simp
  | cons st entries ih =>
      rw [List.foldl_cons, ih, List.map_cons, List.sum_cons, UInt64.ofNat_add, ← UInt64.add_assoc]
      congr 1
      cases st <;> simp [countEntry, FileStatus.size]

theorem total_eq (f : Found) : f.total = UInt64.ofNat f.bytes := by
  cases f with
  | missing => rfl
  | file st => cases st <;> rfl
  | directory entries =>
      show entries.foldl countEntry 0 = _
      rw [foldl_countEntry, UInt64.zero_add]
      rfl

theorem Same.isDirectory_eq {f g : Found} (h : Same f g) : f.isDirectory = g.isDirectory := by
  cases h <;> rfl

theorem Same.refl (f : Found) : Same f f := by
  cases f with
  | missing => exact .missing
  | file st => exact .file st
  | directory entries => exact .directory (.refl _)

theorem Same.bytes_eq {f g : Found} (h : Same f g) : f.bytes = g.bytes := by
  cases h with
  | missing => rfl
  | file st => rfl
  | directory h => exact (h.map _).sum_eq

end Found

/-! ### What a transfer adds -/

/-- What a task meets outside the daemon. -/
structure Outside where
  /-- what `get_resource` finds at the source, and then the transferor. -/
  got : Found
  found : Found
  /-- the errors of `copy_file`, of the iterator of `copy_directory`, of its entries, and of
  `copy_memory_region`. -/
  fileEc : ErrorCode
  iteratorEc : ErrorCode
  entryEc : ℕ → ErrorCode
  memoryEc : ErrorCode
  /-- the errors on the way to and from a peer, and its answers. -/
  packEc : ErrorCode
  tempfileEc : ErrorCode
  mapEc : ErrorCode
  copyEc : ErrorCode
  protectEc : ErrorCode
  unpackEc : ErrorCode
  push : Option TransferOutput
  stat : StatOutput
  pull : TransferOutput

/-- `copy_file`: the calls of `record_transfer` and the code. -/
def copyFileBytes (st : FileStatus) (ec : ErrorCode) : List UInt64 × ErrorCode :=
  if st = .notFound then ([], ENOENT)
  else if ec ≠ 0 then ([], ec)
  else ([UInt64.ofNat st.size], 0)

/-- The loop of `copy_directory`. -/
def copyDirectoryBytes (entryEc : ℕ → ErrorCode) : ℕ → List FileStatus → List UInt64 × ErrorCode
  | _, [] => ([], 0)
  | i, st :: entries =>
      let r := if st = .directory then ([], entryEc i) else copyFileBytes st (entryEc i)
      if r.2 ≠ 0 then r
      else
        let rest := copyDirectoryBytes entryEc (i + 1) entries
        (r.1 ++ rest.1, rest.2)

/-- The code of a `mapped_buffer`: nothing cannot be mapped. -/
def mapCode (n : ℕ) (ec : ErrorCode) : ErrorCode := if n = 0 ∧ ec = 0 then EINVAL else ec

/-- The request is posted. -/
def PushInitiator.Posts : PushInitiator → Prop
  | localPath isCollection packEc mapEc => mapEc = 0 ∧ (isCollection = true → packEc = 0)
  | memoryRegion tempfileEc mapEc copyEc protectEc =>
      tempfileEc = 0 ∧ mapEc = 0 ∧ copyEc = 0 ∧ protectEc = 0

instance : (i : PushInitiator) → Decidable i.Posts
  | .localPath isCollection packEc mapEc =>
      inferInstanceAs (Decidable (mapEc = 0 ∧ (isCollection = true → packEc = 0)))
  | .memoryRegion tempfileEc mapEc copyEc protectEc =>
      inferInstanceAs (Decidable (tempfileEc = 0 ∧ mapEc = 0 ∧ copyEc = 0 ∧ protectEc = 0))

/-- Both pushing `transfer` functions; `n` is the size of the buffer. -/
def pushBytes (i : PushInitiator) (resp : Option TransferOutput) (n : UInt64) :
    List UInt64 × ErrorCode :=
  match resp with
  | none => ([], i.transfer none)
  | some out =>
      (if i.Posts ∧ out.status ≠ TaskStatus.finishedWithError.toWord then [n] else [],
        i.transfer (some out))

/-- `remote_resource_to_local_path_transferor::transfer`. -/
def pullBytes (i : PullInitiator) (resp : StatOutput) (resp2 : TransferOutput) :
    List UInt64 × ErrorCode :=
  (if resp.taskError = UrdError.success.toWord ∧ i.tempfileEc = 0 ∧ i.mapEc = 0 ∧
      resp2.status ≠ TaskStatus.finishedWithError.toWord then [resp.packedSize] else [],
    i.transfer resp resp2)

/-- The size of a region. -/
def Resource.regionSize : Resource → UInt64
  | memoryRegion _ size => size
  | _ => 0

/-- `transferor::transfer`: the calls of `record_transfer` and the code. -/
def TransferorKind.transferBytes (k : TransferorKind) (o : Outside) (src : Resource) :
    List UInt64 × ErrorCode :=
  match k with
  | memoryRegionToLocalPath => ([], o.memoryEc)
  | memoryRegionToSharedPath => ([], 0)
  | localPathToSharedPath => ([], 0)
  | localPathToLocalPath =>
      match o.found with
      | .missing => ([], ENOENT)
      | .file st => copyFileBytes st o.fileEc
      | .directory entries =>
          if o.iteratorEc ≠ 0 then ([], o.iteratorEc) else copyDirectoryBytes o.entryEc 0 entries
  | localPathToRemoteResource =>
      let n := o.found.inputSize src.isCollection
      pushBytes (.localPath src.isCollection o.packEc (mapCode n o.mapEc)) o.push (UInt64.ofNat n)
  | memoryRegionToRemoteResource =>
      let n := src.regionSize
      pushBytes (.memoryRegion o.tempfileEc (mapCode n.toNat o.mapEc) o.copyEc o.protectEc) o.push n
  | remoteResourceToLocalPath =>
      pullBytes ⟨o.tempfileEc, mapCode o.stat.packedSize.toNat o.mapEc, o.unpackEc⟩ o.stat o.pull

/-! ### Tasks that count -/

/-- The object that a backend makes for a resource. -/
def Backend.made (b : Backend) (name : PathStr) (isCollection : Bool) (rinfo : ResourceInfo) :
    Resource :=
  match b.kind, rinfo with
  | .processMemory, .memoryRegion address size => .memoryRegion address size
  | .remoteBackend, .remoteResource address nsid coll name buffers =>
      .remoteResource address nsid coll name buffers
  | _, _ => .localPath b name isCollection

/-- What `get_resource` can return; a source that is not there is an error of a POSIX backend. -/
def HandsOut (o : Outside) (b : Backend) (rinfo : ResourceInfo)
    (r : Option Resource × ErrorCode) : Prop :=
  ∃ posixEc name p, (o.got = .missing → posixEc ≠ 0) ∧
    b.getResource rinfo posixEc o.got.isDirectory = .ok p ∧
    r = (p.1.map fun coll => b.made name coll rinfo, p.2)

/-- What `new_resource` can return. -/
def HandsNew (b : Backend) (rinfo : ResourceInfo) (isCollection : Bool)
    (r : Option Resource × ErrorCode) : Prop :=
  ∃ posixEc name p, b.newResource rinfo posixEc isCollection = .ok p ∧
    r = (p.1.map fun coll => b.made name coll rinfo, p.2)

/-- The transferor can use the resources: they are of the classes it casts them to.  The two that
write to a shared path use nothing. -/
def TransferorKind.Usable (k : TransferorKind) (src : Resource) (dst : Option Resource) : Prop :=
  k = .memoryRegionToSharedPath ∨ k = .localPathToSharedPath ∨
  (k.srcClass = some src.type ∧ ∃ d, dst = some d ∧ k.dstClass = some d.type)

/-- A record, and what is left of a transfer that has been called. -/
structure ByteState where
  info : TaskInfo
  left : Option (List UInt64 × ErrorCode)

/-- The calls of a task, as far as they concern its record. -/
def counting (o : Outside) : Program.Interp TaskOp TaskOp.Result ByteState where
  answer op s r s' :=
    match op, r with
    | .updateStatus st, _ => s' = { s with info := s.info.updateStatus st }
    | .updateStatusError st ec sc, _ => s' = { s with info := s.info.updateStatusError st ec sc }
    | .getResource b rinfo, r => HandsOut o b rinfo r ∧ s' = s
    | .newResource b rinfo coll, r => HandsNew b rinfo coll r ∧ s' = s
    | .transfer _ _ _ _, ec => s.left = some ([], ec) ∧ s' = s
    | .acceptTransfer _ _ _ _, _ => s' = s
    | .remove _ _, _ => s' = s
  within op s s' :=
    match op with
    | .transfer tx _ src dst =>
        (s.left = none ∧ tx.kind.Usable src dst ∧
          s' = { s with left := some (tx.kind.transferBytes o src) }) ∨
        ∃ n ns ec, s.left = some (n :: ns, ec) ∧
          s' = ⟨s.info.recordTransfer n, some (ns, ec)⟩
    | _ => False

/-- The parts of a transfer that follow its calls. -/
def afterTransfer (ec : ErrorCode) : TaskProgram :=
  if ec ≠ 0 then Task.logError ec else Task.succeed

@[inherit_doc afterTransfer]
def afterNew (tx : Transferor) (auth : Credentials) (src : Resource)
    (r : Option Resource × ErrorCode) : TaskProgram :=
  if r.2 ≠ 0 then Task.logError r.2 else .call (.transfer tx auth src r.1) afterTransfer

@[inherit_doc afterTransfer]
def afterGet (tx : Transferor) (auth : Credentials) (b : Backend) (rinfo : ResourceInfo)
    (r : Option Resource × ErrorCode) : TaskProgram :=
  if r.2 ≠ 0 then Task.logError r.2
  else
    match r.1 with
    | none => Task.crash .nullDeref
    | some src => .call (.newResource b rinfo src.isCollection) (afterNew tx auth src)

theorem transferBody_eq {tx : Transferor} {ti : TaskInfo} {b b' : Backend}
    {rinfo rinfo' : ResourceInfo} (hb : ti.srcBackend = some b) (hr : ti.srcRinfo = some rinfo)
    (hb' : ti.dstBackend = some b') (hr' : ti.dstRinfo = some rinfo') :
    Task.transferBody false tx ti = .call (.updateStatus .running) fun _ =>
      .call (.getResource b rinfo) (afterGet tx ti.auth b' rinfo') := by
  unfold Task.transferBody
  rw [hb, hr, hb', hr']
  rfl

section TransferAt

variable (o : Outside) (tx : Transferor) (auth : Credentials) (b b' : Backend)
  (rinfo rinfo' : ResourceInfo)

/-- The resources that a transfer is called with. -/
structure Moves (src : Resource) (dst : Option Resource) : Prop where
  source : HandsOut o b rinfo (some src, 0)
  destination : HandsNew b' rinfo' src.isCollection (dst, 0)
  usable : tx.kind.Usable src dst

/-- What is left of a body from which no transfer has been called. -/
inductive Before : TaskProgram → Prop
  | start : Before (.call (.updateStatus .running) fun _ =>
      .call (.getResource b rinfo) (afterGet tx auth b' rinfo'))
  | getting : Before (.call (.getResource b rinfo) (afterGet tx auth b' rinfo'))
  | creating {src : Resource} (hsrc : HandsOut o b rinfo (some src, 0)) :
      Before (.call (.newResource b' rinfo' src.isCollection) (afterNew tx auth src))
  | waiting {src : Resource} {dst : Option Resource} (hsrc : HandsOut o b rinfo (some src, 0))
      (hdst : HandsNew b' rinfo' src.isCollection (dst, 0)) :
      Before (.call (.transfer tx auth src dst) afterTransfer)
  | failing {ec : ErrorCode} : Before (Task.logError ec)
  | stopped {r : Except Fault Unit} : Before (.ret r)

/-- What a copy or a move has added to its record when `p` is left of its body. -/
inductive TransferAt : TaskProgram → ByteState → Prop
  | before {p : TaskProgram} {s : ByteState} (hp : Before o tx auth b b' rinfo rinfo' p)
      (hleft : s.left = none) (hsent : s.info.sentBytes = 0) (hst : s.info.status ≠ .finished) :
      TransferAt p s
  | during (src : Resource) {dst : Option Resource} {s : ByteState} (sent ns : List UInt64)
      {ec : ErrorCode} (hmoves : Moves o tx b b' rinfo rinfo' src dst)
      (hleft : s.left = some (ns, ec)) (hbytes : tx.kind.transferBytes o src = (sent ++ ns, ec))
      (hsent : s.info.sentBytes = sent.foldl (· + ·) 0) (hst : s.info.status ≠ .finished) :
      TransferAt (.call (.transfer tx auth src dst) afterTransfer) s
  | after {src : Resource} {dst : Option Resource} {s : ByteState}
      (hmoves : Moves o tx b b' rinfo rinfo' src dst)
      (hsent : s.info.sentBytes = (tx.kind.transferBytes o src).1.foldl (· + ·) 0)
      (hst : s.info.status ≠ .finished) :
      TransferAt (afterTransfer (tx.kind.transferBytes o src).2) s
  | ended {src : Resource} {dst : Option Resource} {s : ByteState}
      (hmoves : Moves o tx b b' rinfo rinfo' src dst)
      (hsent : s.info.sentBytes = (tx.kind.transferBytes o src).1.foldl (· + ·) 0)
      (hst : s.info.status = .finished → (tx.kind.transferBytes o src).2 = 0) :
      TransferAt (.ret (.ok ())) s

variable {o tx auth b b' rinfo rinfo'}

theorem TransferAt.answer {p : TaskProgram} {s s' : ByteState} {op : TaskOp}
    {next : op.Result → TaskProgram} {r : op.Result}
    (h : TransferAt o tx auth b b' rinfo rinfo' p s) (hp : p = .call op next)
    (hanswer : (counting o).answer op s r s') :
    TransferAt o tx auth b b' rinfo rinfo' (next r) s' := by
  cases h with
  | before hbefore hleft hsent hst =>
      cases hbefore with
      | start =>
          cases hp
          obtain rfl := hanswer
          exact .before .getting hleft hsent (by simp [TaskInfo.updateStatus])
      | getting =>
          cases hp
          obtain ⟨hsrc, rfl⟩ := hanswer
          obtain ⟨src, ec⟩ := r
          unfold afterGet
          split_ifs with hec
          · exact .before .failing hleft hsent hst
          · obtain rfl : ec = 0 := not_not.mp hec
            cases src with
            | none => exact .before .stopped hleft hsent hst
            | some src => exact .before (.creating hsrc) hleft hsent hst
      | creating hsrc =>
          cases hp
          obtain ⟨hdst, rfl⟩ := hanswer
          obtain ⟨dst, ec⟩ := r
          unfold afterNew
          split_ifs with hec
          · exact .before .failing hleft hsent hst
          · obtain rfl : ec = 0 := not_not.mp hec
            exact .before (.waiting hsrc hdst) hleft hsent hst
      | waiting hsrc hdst =>
          cases hp
          cases hleft.symm.trans hanswer.1
      | failing =>
          cases hp
          obtain rfl := hanswer
          exact .before .stopped hleft hsent (by simp [TaskInfo.updateStatusError])
      | stopped => cases hp
  | during src sent ns hmoves hleft hbytes hsent hst =>
      cases hp
      obtain ⟨hleft', rfl⟩ := hanswer
      obtain ⟨rfl, rfl⟩ := Prod.mk.inj (Option.some.inj (hleft.symm.trans hleft'))
      have hall : s'.info.sentBytes = (tx.kind.transferBytes o src).1.foldl (· + ·) 0 := by
        rw [hbytes, List.append_nil, hsent]
      have hafter : TransferAt o tx auth b b' rinfo rinfo' _ s' := .after hmoves hall hst
      rwa [hbytes] at hafter
  | after hmoves hsent hst =>
      unfold afterTransfer at hp
      split_ifs at hp with hec
      · cases hp
        obtain rfl := hanswer
        exact .ended hmoves hsent (fun h => by cases h)
      · cases hp
        obtain rfl := hanswer
        exact .ended hmoves hsent fun _ => not_not.mp hec
  | ended hmoves hsent hst => cases hp

theorem TransferAt.within {p : TaskProgram} {s s' : ByteState} {op : TaskOp}
    {next : op.Result → TaskProgram} (h : TransferAt o tx auth b b' rinfo rinfo' p s)
    (hp : p = .call op next) (hwithin : (counting o).within op s s') :
    TransferAt o tx auth b b' rinfo rinfo' p s' := by
  cases h with
  | before hbefore hleft hsent hst =>
      cases hbefore with
      | waiting hsrc hdst =>
          cases hp
          obtain ⟨-, husable, rfl⟩ | ⟨n, ns, ec, hleft', -⟩ := hwithin
          · exact .during _ [] _ ⟨hsrc, hdst, husable⟩ rfl rfl hsent hst
          · cases hleft.symm.trans hleft'
      | stopped => cases hp
      | _ =>
          cases hp
          exact hwithin.elim
  | during src sent ns hmoves hleft hbytes hsent hst =>
      cases hp
      obtain ⟨hleft', -⟩ | ⟨n, rest, ec, hleft', rfl⟩ := hwithin
      · cases hleft.symm.trans hleft'
      · obtain ⟨rfl, rfl⟩ := Prod.mk.inj (Option.some.inj (hleft.symm.trans hleft'))
        refine .during _ (sent ++ [n]) _ hmoves rfl ?_ ?_ hst
        · rw [hbytes, List.append_assoc]
          rfl
        · rw [List.foldl_concat, ← hsent]
          rfl
  | after hmoves hsent hst =>
      unfold afterTransfer at hp
      split_ifs at hp with hec <;> cases hp <;> exact hwithin.elim
  | ended hmoves hsent hst => cases hp

/-- What a copy or a move has added in every state of every run. -/
theorem TransferAt.run {ti : TaskInfo} (hb : ti.srcBackend = some b)
    (hr : ti.srcRinfo = some rinfo) (hb' : ti.dstBackend = some b')
    (hr' : ti.dstRinfo = some rinfo') (hfresh : ti.Fresh) (hsent : ti.sentBytes = 0)
    {c : TaskProgram × ByteState}
    (hrun : Run (Program.Step (counting o)) (Task.transferBody false tx ti, ⟨ti, none⟩) c) :
    TransferAt o tx ti.auth b b' rinfo rinfo' c.1 c.2 := by
  have hinv : ∀ c c' : TaskProgram × ByteState, TransferAt o tx ti.auth b b' rinfo rinfo' c.1 c.2 →
      Program.Step (counting o) c c' → TransferAt o tx ti.auth b b' rinfo rinfo' c'.1 c'.2 := by
    intro c c' h hstep
    cases hstep with
    | answer hanswer => exact h.answer rfl hanswer
    | within hwithin => exact h.within rfl hwithin
  refine hrun.invariant hinv ?_
  rw [transferBody_eq hb hr hb' hr']
  refine .before .start rfl hsent ?_
  rw [hfresh.status]
  decide

end TransferAt

/-- The bytes are added one after the other. -/
theorem run_record (o : Outside) (tx : Transferor) (auth : Credentials) (src : Resource)
    (dst : Option Resource) (next : ErrorCode → TaskProgram) (ec : ErrorCode) (ns : List UInt64)
    (ti : TaskInfo) :
    Run (Program.Step (counting o))
      (.call (.transfer tx auth src dst) next, ⟨ti, some (ns, ec)⟩)
      (.call (.transfer tx auth src dst) next,
        ⟨{ ti with sentBytes := ns.foldl (· + ·) ti.sentBytes }, some ([], ec)⟩) := by
  induction ns generalizing ti with
  | nil => exact .refl
  | cons n ns ih =>
      refine .head (.within (Or.inr ⟨n, ns, ec, rfl, rfl⟩)) ?_
      exact ih (ti.recordTransfer n)

theorem step_answer {o : Outside} (op : TaskOp) (next : op.Result → TaskProgram)
    {s s' : ByteState} (r : op.Result) (h : (counting o).answer op s r s') :
    Program.Step (counting o) (.call op next, s) (next r, s') := .answer h

/-- A transfer that returns no error is the end of a task that is finished. -/
theorem exists_finished {o : Outside} {tx : Transferor} {ti : TaskInfo} {b b' : Backend}
    {rinfo rinfo' : ResourceInfo} {src : Resource} {dst : Option Resource}
    (hb : ti.srcBackend = some b) (hr : ti.srcRinfo = some rinfo) (hb' : ti.dstBackend = some b')
    (hr' : ti.dstRinfo = some rinfo') (hmoves : Moves o tx b b' rinfo rinfo' src dst)
    (hcode : (tx.kind.transferBytes o src).2 = 0) :
    ∃ s, Run (Program.Step (counting o)) (Task.transferBody false tx ti, ⟨ti, none⟩)
        (.ret (.ok ()), s) ∧
      s.info.status = .finished ∧ s.info.totalBytes = ti.totalBytes ∧
      s.info.sentBytes = (tx.kind.transferBytes o src).1.foldl (· + ·) ti.sentBytes := by
  rw [transferBody_eq hb hr hb' hr']
  generalize hbytes : tx.kind.transferBytes o src = bytes at hcode ⊢
  obtain ⟨ns, ec⟩ := bytes
  obtain rfl : ec = 0 := hcode
  have hstart := step_answer (o := o) (.updateStatus .running) (fun _ =>
    .call (.getResource b rinfo) (afterGet tx ti.auth b' rinfo')) (s := ⟨ti, none⟩) () rfl
  have hget := step_answer (o := o) (.getResource b rinfo) (afterGet tx ti.auth b' rinfo')
    (s := ⟨ti.updateStatus .running, none⟩) (some src, 0) ⟨hmoves.source, rfl⟩
  rw [show afterGet tx ti.auth b' rinfo' (some src, 0) =
    .call (.newResource b' rinfo' src.isCollection) (afterNew tx ti.auth src) from
      if_neg (not_not.mpr rfl)] at hget
  have hnew := step_answer (o := o) (.newResource b' rinfo' src.isCollection)
    (afterNew tx ti.auth src) (s := ⟨ti.updateStatus .running, none⟩) (dst, 0)
    ⟨hmoves.destination, rfl⟩
  rw [show afterNew tx ti.auth src (dst, 0) = .call (.transfer tx ti.auth src dst) afterTransfer
    from if_neg (not_not.mpr rfl)] at hnew
  have hcall : Program.Step (counting o)
      (.call (.transfer tx ti.auth src dst) afterTransfer, ⟨ti.updateStatus .running, none⟩)
      (.call (.transfer tx ti.auth src dst) afterTransfer,
        ⟨ti.updateStatus .running, some (ns, 0)⟩) :=
    .within (Or.inl ⟨rfl, hmoves.usable, by rw [hbytes]⟩)
  have hrecord := run_record o tx ti.auth src dst afterTransfer 0 ns (ti.updateStatus .running)
  have hreturn := step_answer (o := o) (.transfer tx ti.auth src dst) afterTransfer
    (s := ⟨{ ti.updateStatus .running with
      sentBytes := ns.foldl (· + ·) ti.sentBytes }, some ([], 0)⟩) 0 ⟨rfl, rfl⟩
  rw [show afterTransfer 0 = Task.succeed from if_neg (not_not.mpr rfl)] at hreturn
  have hend := step_answer (o := o) (.updateStatusError .finished .success 0)
    (fun _ => .ret (.ok ())) (s := ⟨{ ti.updateStatus .running with
      sentBytes := ns.foldl (· + ·) ti.sentBytes }, some ([], 0)⟩) () rfl
  refine ⟨_, ((((Relation.ReflTransGen.single hstart).tail hget).tail hnew).tail hcall).trans
    ((hrecord.tail hreturn).tail hend), rfl, rfl, rfl⟩

/-! ### Tasks that add nothing -/

/-- No transfer is called. -/
inductive NoTransfer : TaskProgram → Prop
  | ret (r : Except Fault Unit) : NoTransfer (.ret r)
  | call {op : TaskOp} {next : op.Result → TaskProgram}
      (hop : ∀ tx auth src dst, op ≠ .transfer tx auth src dst)
      (hnext : ∀ r, NoTransfer (next r)) : NoTransfer (.call op next)

theorem NoTransfer.logError (ec : ErrorCode) : NoTransfer (Task.logError ec) :=
  .call (by simp) fun _ => .ret _

theorem NoTransfer.succeed : NoTransfer Task.succeed := .call (by simp) fun _ => .ret _

theorem NoTransfer.guarded {ec : ErrorCode} {p : TaskProgram} (hp : NoTransfer p) :
    NoTransfer (if ec ≠ 0 then Task.logError ec else p) := by
  split_ifs
  · exact .logError ec
  · exact hp

theorem NoTransfer.removeBody (ti : TaskInfo) : NoTransfer (Task.removeBody ti) := by
  unfold Task.removeBody
  split
  · exact .call (by simp) fun _ => .call (by simp) fun _ => .guarded .succeed
  · exact .ret _

theorem NoTransfer.acceptBody (tx : Transferor) (ti : TaskInfo) :
    NoTransfer (Task.transferBody true tx ti) := by
  unfold Task.transferBody
  split
  · refine .call (by simp) fun _ => .call (by simp) ?_
    rintro ⟨src, ec⟩
    refine .guarded ?_
    cases src with
    | none => exact .ret _
    | some src =>
        refine .call (by simp) ?_
        rintro ⟨dst, ec'⟩
        exact .guarded (.call (by simp) fun _ => .guarded .succeed)
  · exact .ret _

/-- An answer adds nothing. -/
theorem counting_answer {o : Outside} {op : TaskOp} {r : op.Result} {s s' : ByteState}
    (h : (counting o).answer op s r s') :
    s'.info.totalBytes = s.info.totalBytes ∧ s'.info.sentBytes = s.info.sentBytes := by
  cases op with
  | updateStatus st =>
      obtain rfl := h
      exact ⟨rfl, rfl⟩
  | updateStatusError st ec sc =>
      obtain rfl := h
      exact ⟨rfl, rfl⟩
  | acceptTransfer tx auth src dst =>
      obtain rfl : s' = s := h
      exact ⟨rfl, rfl⟩
  | remove b rinfo =>
      obtain rfl : s' = s := h
      exact ⟨rfl, rfl⟩
  | _ =>
      obtain ⟨-, rfl⟩ := h
      exact ⟨rfl, rfl⟩

theorem totalBytes_run {o : Outside} {c c' : TaskProgram × ByteState}
    (h : Run (Program.Step (counting o)) c c') :
    c'.2.info.totalBytes = c.2.info.totalBytes := by
  refine h.invariant (P := fun x => x.2.info.totalBytes = c.2.info.totalBytes) ?_ rfl
  rintro x x' htotal hstep
  cases hstep with
  | answer hanswer => exact (counting_answer hanswer).1.trans htotal
  | @within op next s s' hwithin =>
      cases op with
      | transfer tx auth src dst =>
          obtain ⟨-, -, rfl⟩ | ⟨n, ns, ec, -, rfl⟩ := hwithin <;> exact htotal
      | _ => exact hwithin.elim

/-- Without a transfer nothing is added. -/
theorem NoTransfer.run {o : Outside} {c c' : TaskProgram × ByteState}
    (h : Run (Program.Step (counting o)) c c') (hp : NoTransfer c.1) :
    c'.2.info.sentBytes = c.2.info.sentBytes := by
  refine (h.invariant (P := fun x => NoTransfer x.1 ∧ x.2.info.sentBytes = c.2.info.sentBytes)
    ?_ ⟨hp, rfl⟩).2
  rintro x x' ⟨hx, hsent⟩ hstep
  cases hstep with
  | @answer op next s s' r hanswer =>
      cases hx with
      | call _ hnext => exact ⟨hnext r, (counting_answer hanswer).2.trans hsent⟩
  | @within op next s s' hwithin =>
      cases hx with
      | call hop _ =>
          cases op with
          | transfer tx auth src dst => exact absurd rfl (hop tx auth src dst)
          | _ => exact hwithin.elim

/-! ### Accounts -/

/-- What a client can be told about a record. -/
structure TaskInfo.Accounted (ti : TaskInfo) (transfer : Bool) : Prop where
  sent : ti.sentBytes ≤ ti.totalBytes
  pending : ti.stats.pendingBytes ≤ ti.totalBytes
  finished : transfer = true → ti.status = .finished → ti.stats.pendingBytes = 0

theorem TaskInfo.accounted_of {ti : TaskInfo} {transfer : Bool}
    (hsent : ti.sentBytes ≤ ti.totalBytes)
    (hfinished : transfer = true → ti.status = .finished → ti.sentBytes = ti.totalBytes) :
    ti.Accounted transfer where
  sent := hsent
  pending := by
    show ti.totalBytes - ti.sentBytes ≤ ti.totalBytes
    rw [UInt64.le_iff_toNat_le, UInt64.toNat_sub_of_le _ _ hsent]
    exact Nat.sub_le _ _
  finished htransfer hst := by
    show ti.totalBytes - ti.sentBytes = 0
    rw [hfinished htransfer hst, UInt64.sub_self]

/-- The bytes that a transfer adds never exceed the total, and make it up if there is no error. -/
structure Adds (r : List UInt64 × ErrorCode) (total : UInt64) : Prop where
  below : ∀ sent, sent <+: r.1 → sent.foldl (· + ·) 0 ≤ total
  whole : r.2 = 0 → r.1.foldl (· + ·) 0 = total

section Accounts

variable {o : Outside} {tx : Transferor} {ti : TaskInfo} {b b' : Backend}
  {rinfo rinfo' : ResourceInfo}

theorem accounted_of_adds (hb : ti.srcBackend = some b) (hr : ti.srcRinfo = some rinfo)
    (hb' : ti.dstBackend = some b') (hr' : ti.dstRinfo = some rinfo') (hfresh : ti.Fresh)
    (hsent : ti.sentBytes = 0)
    (hadds : ∀ src dst, Moves o tx b b' rinfo rinfo' src dst →
      Adds (tx.kind.transferBytes o src) ti.totalBytes)
    {p : TaskProgram} {s : ByteState}
    (hrun : Run (Program.Step (counting o)) (Task.transferBody false tx ti, ⟨ti, none⟩) (p, s)) :
    s.info.Accounted true := by
  have htotal : s.info.totalBytes = ti.totalBytes := totalBytes_run hrun
  apply TaskInfo.accounted_of
  · rw [htotal]
    cases TransferAt.run hb hr hb' hr' hfresh hsent hrun with
    | before hp hleft hzero hst =>
        rw [hzero]
        exact UInt64.zero_le
    | during src sent ns hmoves hleft hbytes hsum hst =>
        rw [hsum]
        refine (hadds src _ hmoves).below _ ?_
        rw [hbytes]
        exact List.prefix_append _ _
    | after hmoves hsum hst =>
        rw [hsum]
        exact (hadds _ _ hmoves).below _ (List.prefix_refl _)
    | ended hmoves hsum hst =>
        rw [hsum]
        exact (hadds _ _ hmoves).below _ (List.prefix_refl _)
  · intro _ hfinished
    rw [htotal]
    cases TransferAt.run hb hr hb' hr' hfresh hsent hrun with
    | before hp hleft hzero hst => exact absurd hfinished hst
    | during src sent ns hmoves hleft hbytes hsum hst => exact absurd hfinished hst
    | after hmoves hsum hst => exact absurd hfinished hst
    | ended hmoves hsum hst =>
        rw [hsum]
        exact (hadds _ _ hmoves).whole (hst hfinished)

end Accounts

/-! ### The transferors -/

theorem foldl_add_ofNat (n : ℕ) (sizes : List ℕ) :
    (sizes.map UInt64.ofNat).foldl (· + ·) (UInt64.ofNat n) = UInt64.ofNat (n + sizes.sum) := by
  induction sizes generalizing n with
  | nil => simp
  | cons m sizes ih =>
      rw [List.map_cons, List.foldl_cons, ← UInt64.ofNat_add, ih, List.sum_cons, Nat.add_assoc]

/-- Sizes that can be counted. -/
theorem adds_of_sizes {r : List UInt64 × ErrorCode} {n : ℕ} {sizes : List ℕ}
    (hr : r.1 = sizes.map UInt64.ofNat) (hle : sizes.sum ≤ n) (hn : n < 2 ^ 64)
    (hwhole : r.2 = 0 → sizes.sum = n) : Adds r (UInt64.ofNat n) := by
  have hsum : ∀ l : List ℕ, (l.map UInt64.ofNat).foldl (· + ·) 0 = UInt64.ofNat l.sum := by
    intro l
    have h := foldl_add_ofNat 0 l
    rwa [Nat.zero_add] at h
  constructor
  · intro sent hsent
    rw [hr] at hsent
    obtain ⟨pre, hpre, rfl⟩ : ∃ pre, pre <+: sizes ∧ sent = pre.map UInt64.ofNat := by
      rw [List.prefix_iff_eq_take] at hsent
      exact ⟨sizes.take sent.length, List.take_prefix _ _, by rw [List.map_take, ← hsent]⟩
    have hpresum : pre.sum ≤ n := (hpre.sublist.sum_le_sum (by simp)).trans hle
    rw [hsum, UInt64.le_iff_toNat_le, UInt64.toNat_ofNat', UInt64.toNat_ofNat',
      Nat.mod_eq_of_lt (by omega), Nat.mod_eq_of_lt hn]
    exact hpresum
  · intro hcode
    rw [hr, hsum, hwhole hcode]

/-- What `copy_file` adds. -/
theorem copyFileBytes_spec (st : FileStatus) (ec : ErrorCode) :
    ∃ sizes : List ℕ, (copyFileBytes st ec).1 = sizes.map UInt64.ofNat ∧ sizes.sum ≤ st.size ∧
      ((copyFileBytes st ec).2 = 0 → sizes.sum = st.size) := by
  unfold copyFileBytes
  split_ifs with hst hec
  · exact ⟨[], rfl, by simp, fun h => absurd h (by decide)⟩
  · exact ⟨[], rfl, by simp, fun h => absurd h hec⟩
  · exact ⟨[st.size], rfl, by simp, fun _ => by simp⟩

/-- What the loop of `copy_directory` adds. -/
theorem copyDirectoryBytes_spec (entryEc : ℕ → ErrorCode) (i : ℕ) (entries : List FileStatus) :
    ∃ sizes : List ℕ, (copyDirectoryBytes entryEc i entries).1 = sizes.map UInt64.ofNat ∧
      sizes.sum ≤ (entries.map FileStatus.size).sum ∧
      ((copyDirectoryBytes entryEc i entries).2 = 0 →
        sizes.sum = (entries.map FileStatus.size).sum) := by
  induction entries generalizing i with
  | nil => exact ⟨[], rfl, le_rfl, fun _ => rfl⟩
  | cons st entries ih =>
      -- the entry itself: a directory adds nothing, and has no size
      obtain ⟨first, hfirst, hle, hwhole⟩ : ∃ sizes : List ℕ,
          (if st = .directory then ([], entryEc i) else copyFileBytes st (entryEc i)).1 =
            sizes.map UInt64.ofNat ∧ sizes.sum ≤ st.size ∧
          ((if st = .directory then ([], entryEc i) else copyFileBytes st (entryEc i)).2 = 0 →
            sizes.sum = st.size) := by
        split_ifs with hdir
        · subst hdir
          exact ⟨[], rfl, by simp, fun _ => rfl⟩
        · exact copyFileBytes_spec st (entryEc i)
      obtain ⟨rest, hrest, hle', hwhole'⟩ := ih (i + 1)
      rw [copyDirectoryBytes, List.map_cons, List.sum_cons]
      generalize (if st = .directory then ([], entryEc i) else copyFileBytes st (entryEc i)) = r
        at hfirst hwhole ⊢
      dsimp only
      split_ifs with hec
      · exact ⟨first, hfirst, by omega, fun h => absurd h hec⟩
      · refine ⟨first ++ rest, by rw [hfirst, hrest, List.map_append], ?_, fun h => ?_⟩
        · rw [List.sum_append]
          omega
        · rw [List.sum_append, hwhole (not_not.mp hec), hwhole' h]

theorem adds_none {ec : ErrorCode} {n : UInt64} (h : ec = 0 → n = 0) : Adds ([], ec) n := by
  refine ⟨fun sent hsent => ?_, fun hcode => (h hcode).symm⟩
  obtain rfl := List.prefix_nil.mp hsent
  exact UInt64.zero_le

theorem adds_one {ec : ErrorCode} {n : UInt64} : Adds ([n], ec) n := by
  have hn : (0 : UInt64) + n = n := UInt64.zero_add n
  refine ⟨fun sent hsent => ?_, fun _ => hn⟩
  obtain rfl | ⟨rest, rfl, hrest⟩ := List.prefix_cons_iff.mp hsent
  · exact UInt64.zero_le
  · obtain rfl := List.prefix_nil.mp hrest
    show 0 + n ≤ n
    rw [hn]
    exact UInt64.le_refl n

theorem PushInitiator.transfer_ne_zero_of_not_posts (i : PushInitiator) (h : ¬ i.Posts)
    (resp : Option TransferOutput) : i.transfer resp ≠ 0 := by
  cases i with
  | localPath coll packEc mapEc =>
      simp only [PushInitiator.Posts, PushInitiator.transfer] at h ⊢
      by_cases hmap : mapEc = 0
      · cases coll <;> simp_all
      · simp [hmap]
  | memoryRegion tempfileEc mapEc copyEc protectEc =>
      simp only [PushInitiator.Posts, PushInitiator.transfer] at h ⊢
      split_ifs with htemp hmap hcopy hprotect
      · exact htemp
      · exact hmap
      · exact hcopy
      · exact hprotect
      · exact absurd ⟨not_not.mp htemp, not_not.mp hmap, not_not.mp hcopy, not_not.mp hprotect⟩ h

/-- What a push adds, if the peer answers an error with its number. -/
theorem adds_pushBytes (i : PushInitiator) {resp : Option TransferOutput} (n : UInt64)
    (h : ∀ out, resp = some out → out.Honest) : Adds (pushBytes i resp n) n := by
  cases resp with
  | none =>
      refine adds_none fun hcode => absurd hcode (i.transfer_ne_zero ?_)
      simp [pushResult, NETWORK_EXCEPTION]
  | some out =>
      unfold pushBytes
      dsimp only
      split_ifs with hposted
      · exact adds_one
      · refine adds_none fun hcode => absurd hcode ?_
        obtain hnot | hst := not_and_or.mp hposted
        · exact i.transfer_ne_zero_of_not_posts hnot _
        · exact i.transfer_ne_zero (pushResult_ne_zero (h out rfl) (not_not.mp hst))

/-! ### Which tasks keep their accounts -/

/-- A record as its constructor makes it, for what is found at the source; what there is can be
counted in a `size_t`. -/
structure TaskInfo.MadeFor (ti : TaskInfo) (found : Found) : Prop where
  fresh : ti.Fresh
  sent : ti.sentBytes = 0
  total : ∀ b rinfo, ti.srcBackend = some b → ti.srcRinfo = some rinfo →
    b.getSize rinfo (some found.total) = .ok ti.totalBytes
  fits : found.inputSize found.isDirectory < 2 ^ 64

theorem TaskInfo.madeFor_new {found : Found} {b : Backend} {rinfo : ResourceInfo} {size : UInt64}
    (hsize : b.getSize rinfo (some found.total) = .ok size)
    (hfits : found.inputSize found.isDirectory < 2 ^ 64) (tid : IotaskId) (type : IotaskType)
    (isRemote : Bool) (auth : Credentials) (dstBackend : Option Backend)
    (dstRinfo : Option ResourceInfo) :
    (TaskInfo.new tid type isRemote auth (some b) (some rinfo) dstBackend dstRinfo size).MadeFor
      found where
  fresh := TaskInfo.fresh_new ..
  sent := rfl
  total b' rinfo' hb hr := by
    obtain rfl := Option.some.inj hb
    obtain rfl := Option.some.inj hr
    exact hsize
  fits := hfits

/-- While the task is there nothing changes at a source whose size has been counted, and no peer
reports an error without its number. -/
structure Kept (found : Found) (b : Backend) (o : Outside) : Prop where
  got : b.kind = .posixFilesystem → Found.Same found o.got
  found : b.kind = .posixFilesystem → Found.Same found o.found
  push : ∀ out, o.push = some out → out.Honest
  pull : o.pull.Honest

/-- Whether a task is a copy or a move. -/
def Task.isTransfer : Task → Bool
  | copy _ => true
  | move _ => true
  | _ => false

/-- The account of a task is right in every state of every run. -/
def BytesAccounted (t : Task) (ti : TaskInfo) (found : Found) : Prop :=
  ∀ o, (∀ b, ti.srcBackend = some b → Kept found b o) →
    ∀ p s, Run (Program.Step (counting o)) (t.call ti, ⟨ti, none⟩) (p, s) →
      s.info.Accounted t.isTransfer

/-- The transfers whose account is right. -/
def TransferAccountable (k : TransferorKind) (b : Backend) (found : Found) (total : UInt64) :
    Prop :=
  match k with
  | .localPathToLocalPath => b.kind = .posixFilesystem
  | .localPathToRemoteResource => b.kind = .posixFilesystem ∧ found.isDirectory = false
  | .memoryRegionToRemoteResource => True
  | .remoteResourceToLocalPath => False
  | .memoryRegionToLocalPath | .memoryRegionToSharedPath | .localPathToSharedPath => total = 0

/-- A transfer that can be called at all is one of them. -/
def Accountable (t : Task) (ti : TaskInfo) (found : Found) : Prop :=
  match t with
  | .copy tx | .move tx => ∀ b b' rinfo rinfo', ti.srcBackend = some b → ti.srcRinfo = some rinfo →
      ti.dstBackend = some b' → ti.dstRinfo = some rinfo' →
      (∃ o src dst, Kept found b o ∧ Moves o tx b b' rinfo rinfo' src dst) →
      TransferAccountable tx.kind b found ti.totalBytes
  | _ => True

/-- What `get_resource` hands out, kind by kind. -/
theorem HandsOut.cases {o : Outside} {b : Backend} {rinfo : ResourceInfo} {src : Resource}
    (h : HandsOut o b rinfo (some src, 0)) :
    (b.kind = .posixFilesystem ∧ o.got ≠ .missing ∧ (∃ nsid path, rinfo = .localPath nsid path) ∧
      ∃ name, src = .localPath b name o.got.isDirectory) ∨
    (b.kind = .nvmlDax ∧ ∃ name, src = .localPath b name o.got.isDirectory) ∨
    (b.kind = .processMemory ∧ ∃ address size, rinfo = .memoryRegion address size ∧
      src = .memoryRegion address size) ∨
    (b.kind = .remoteBackend ∧ src.type = .remoteResource) := by
  obtain ⟨posixEc, name, p, hmissing, hp, hr⟩ := h
  obtain ⟨kind, nsid, track, mount, quota⟩ := b
  cases kind with
  | posixFilesystem =>
      cases rinfo with
      | localPath nsid' path =>
          obtain rfl := Except.ok.inj hp
          obtain ⟨hsrc, hec⟩ := Prod.mk.inj hr
          obtain rfl : (0 : ErrorCode) = posixEc := hec
          refine Or.inl ⟨rfl, fun hgot => hmissing hgot rfl, ⟨_, _, rfl⟩, name, ?_⟩
          simpa [Backend.made] using hsrc
      | _ => cases hp
  | nvmlDax =>
      obtain rfl := Except.ok.inj hp
      refine Or.inr (Or.inl ⟨rfl, name, ?_⟩)
      cases rinfo <;> simpa [Backend.made] using (Prod.mk.inj hr).1
  | lustre =>
      obtain rfl := Except.ok.inj hp
      cases (Prod.mk.inj hr).1
  | processMemory =>
      cases rinfo with
      | memoryRegion address size =>
          obtain rfl := Except.ok.inj hp
          refine Or.inr (Or.inr (Or.inl ⟨rfl, address, size, rfl, ?_⟩))
          simpa [Backend.made] using (Prod.mk.inj hr).1
      | _ => cases hp
  | remoteBackend =>
      cases rinfo with
      | remoteResource address nsid' coll name' buffers =>
          obtain rfl := Except.ok.inj hp
          refine Or.inr (Or.inr (Or.inr ⟨rfl, ?_⟩))
          have hsrc := Option.some.inj (Prod.mk.inj hr).1
          rw [hsrc]
          rfl
      | _ => cases hp

theorem HandsOut.posix {o : Outside} {b : Backend} {rinfo : ResourceInfo} {src : Resource}
    (h : HandsOut o b rinfo (some src, 0)) (hkind : b.kind = .posixFilesystem) :
    o.got ≠ .missing ∧ (∃ nsid path, rinfo = .localPath nsid path) ∧
      ∃ name, src = .localPath b name o.got.isDirectory := by
  obtain ⟨-, h⟩ | ⟨hkind', -⟩ | ⟨hkind', -⟩ | ⟨hkind', -⟩ := h.cases
  · exact h
  all_goals cases hkind.symm.trans hkind'

/-- Only a POSIX backend counts the bytes of a local path. -/
theorem HandsOut.total_eq_zero {o : Outside} {b : Backend} {rinfo : ResourceInfo} {src : Resource}
    {posix total : UInt64} (h : HandsOut o b rinfo (some src, 0))
    (hkind : b.kind ≠ .posixFilesystem) (hclass : src.type = .localPosixPath)
    (htotal : b.getSize rinfo (some posix) = .ok total) : total = 0 := by
  obtain ⟨hposix, -⟩ | ⟨hnvml, -⟩ | ⟨-, address, size, -, rfl⟩ | ⟨-, htype⟩ := h.cases
  · exact absurd hposix hkind
  · simpa [Backend.getSize, hnvml] using htotal.symm
  · cases hclass
  · cases hclass.symm.trans htype

theorem TaskInfo.Accounted.sent_eq {ti : TaskInfo} (h : ti.Accounted true)
    (hst : ti.status = .finished) : ti.sentBytes = ti.totalBytes := by
  have hzero : ti.totalBytes - ti.sentBytes = 0 := h.finished rfl hst
  have hsub := UInt64.toNat_sub_of_le _ _ h.sent
  rw [hzero] at hsub
  have hle := UInt64.le_iff_toNat_le.mp h.sent
  have hzero' : (0 : UInt64).toNat = 0 := rfl
  exact UInt64.toNat_inj.mp (by omega)

namespace Found

theorem size_le_packedSize (st : FileStatus) : st.size ≤ st.packedSize := by
  cases st with
  | regular data =>
      show data.length ≤ 512 + (data.length + 511) / 512 * 512
      omega
  | _ => exact Nat.zero_le _

/-- An archive is larger than the files in it. -/
theorem bytes_lt_inputSize (entries : List FileStatus) :
    (directory entries).bytes < (directory entries).inputSize true := by
  show (entries.map FileStatus.size).sum < 512 + (entries.map FileStatus.packedSize).sum + 1024
  have hle := List.sum_le_sum (l := entries) fun st _ => size_le_packedSize st
  omega

theorem bytes_lt {f : Found} (h : f.inputSize f.isDirectory < 2 ^ 64) : f.bytes < 2 ^ 64 := by
  cases f with
  | missing => decide
  | file st => exact h
  | directory entries => exact (bytes_lt_inputSize entries).trans h

end Found

section Main

variable {found : Found} {tx : Transferor} {ti : TaskInfo} {b b' : Backend}
  {rinfo rinfo' : ResourceInfo} {src : Resource} {dst : Option Resource} {o : Outside}

/-- For the transfers of the list the bytes add up. -/
theorem adds_of_accountable (hmade : ti.MadeFor found) (hb : ti.srcBackend = some b)
    (hr : ti.srcRinfo = some rinfo) (hkept : Kept found b o)
    (hmoves : Moves o tx b b' rinfo rinfo' src dst)
    (h : TransferAccountable tx.kind b found ti.totalBytes) :
    Adds (tx.kind.transferBytes o src) ti.totalBytes := by
  have htotal := hmade.total b rinfo hb hr
  have husable := hmoves.usable
  have hposix : b.kind = .posixFilesystem → (∃ nsid path, rinfo = .localPath nsid path) →
      ti.totalBytes = UInt64.ofNat found.bytes := by
    rintro hkind ⟨nsid, path, rfl⟩
    rw [← found.total_eq]
    simpa [Backend.getSize, hkind] using htotal.symm
  generalize tx.kind = k at h husable ⊢
  cases k with
  | memoryRegionToLocalPath => exact adds_none fun _ => h
  | memoryRegionToSharedPath => exact adds_none fun _ => h
  | localPathToSharedPath => exact adds_none fun _ => h
  | remoteResourceToLocalPath => exact h.elim
  | memoryRegionToRemoteResource =>
      obtain ⟨hclass, -⟩ := (husable.resolve_left (by simp)).resolve_left (by simp)
      obtain ⟨-, -, -, name, rfl⟩ | ⟨-, name, rfl⟩ | ⟨hkind, address, size, rfl, rfl⟩ |
        ⟨-, htype⟩ := hmoves.source.cases
      · cases hclass
      · cases hclass
      · obtain rfl : size = ti.totalBytes := by
          simpa [Backend.getSize, hkind] using htotal
        exact adds_pushBytes _ _ hkept.push
      · rw [htype] at hclass
        cases hclass
  | localPathToLocalPath =>
      obtain ⟨-, hrinfo, name, rfl⟩ := hmoves.source.posix h
      rw [hposix h hrinfo, (hkept.found h).bytes_eq]
      have hlt : o.found.bytes < 2 ^ 64 := (hkept.found h).bytes_eq ▸ Found.bytes_lt hmade.fits
      unfold TransferorKind.transferBytes
      dsimp only
      cases hfound : o.found with
      | missing => exact adds_none fun hcode => absurd hcode (by decide)
      | file st =>
          obtain ⟨sizes, hsizes, hle, hwhole⟩ := copyFileBytes_spec st o.fileEc
          exact adds_of_sizes hsizes hle (by rwa [hfound] at hlt) hwhole
      | directory entries =>
          dsimp only
          split_ifs with hec
          · exact adds_none fun hcode => absurd hcode hec
          · obtain ⟨sizes, hsizes, hle, hwhole⟩ := copyDirectoryBytes_spec o.entryEc 0 entries
            exact adds_of_sizes hsizes hle (by rwa [hfound] at hlt) hwhole
  | localPathToRemoteResource =>
      obtain ⟨hkind, hfile⟩ := h
      obtain ⟨-, hrinfo, name, rfl⟩ := hmoves.source.posix hkind
      have hcoll : o.got.isDirectory = false := (hkept.got hkind).isDirectory_eq ▸ hfile
      rw [hposix hkind hrinfo, (hkept.found hkind).bytes_eq]
      have hsize : o.found.inputSize o.got.isDirectory = o.found.bytes := by
        rw [hcoll]
        have hfile' : o.found.isDirectory = false := (hkept.found hkind).isDirectory_eq ▸ hfile
        cases hfound : o.found with
        | missing => rfl
        | file st => rfl
        | directory entries => simp [hfound, Found.isDirectory] at hfile'
      unfold TransferorKind.transferBytes
      dsimp only [Resource.isCollection]
      rw [hsize]
      exact adds_pushBytes _ _ hkept.push

/-- Nothing outside goes wrong: no error is reported, and the peer has what it is asked for. -/
def Outside.smooth (o : Outside) (found : Found) : Outside where
  got := o.got
  found := found
  fileEc := 0
  iteratorEc := 0
  entryEc _ := 0
  memoryEc := 0
  packEc := 0
  tempfileEc := 0
  mapEc := 0
  copyEc := 0
  protectEc := 0
  unpackEc := 0
  push := some ⟨TaskStatus.finished.toWord, UrdError.success.toWord, 0, 0⟩
  stat := ⟨UrdError.success.toWord, 0, false, 1⟩
  pull := ⟨TaskStatus.finished.toWord, UrdError.success.toWord, 0, 0⟩

theorem Moves.smooth (h : Moves o tx b b' rinfo rinfo' src dst) (f : Found) :
    Moves (o.smooth f) tx b b' rinfo rinfo' src dst := ⟨h.source, h.destination, h.usable⟩

theorem Kept.smooth (h : Kept found b o) {f : Found}
    (hf : b.kind = .posixFilesystem → Found.Same found f) : Kept found b (o.smooth f) where
  got := h.got
  found := hf
  push out hout := by
    obtain rfl := Option.some.inj hout
    exact Or.inr rfl
  pull := Or.inr rfl

/-- If the account is right, then what a transfer without an error adds is the total. -/
theorem whole_of_accounted {t : Task} (ht : t.call ti = Task.transferBody false tx ti)
    (htransfer : t.isTransfer = true) (h : BytesAccounted t ti found) (hmade : ti.MadeFor found)
    (hb : ti.srcBackend = some b) (hr : ti.srcRinfo = some rinfo) (hb' : ti.dstBackend = some b')
    (hr' : ti.dstRinfo = some rinfo') (hkept : Kept found b o)
    (hmoves : Moves o tx b b' rinfo rinfo' src dst)
    (hcode : (tx.kind.transferBytes o src).2 = 0) :
    (tx.kind.transferBytes o src).1.foldl (· + ·) 0 = ti.totalBytes := by
  obtain ⟨s, hrun, hst, htotal, hsent⟩ := exists_finished hb hr hb' hr' hmoves hcode
  rw [← ht] at hrun
  have hkept' : ∀ c, ti.srcBackend = some c → Kept found c o := by
    intro c hc
    rwa [Option.some.inj (hc.symm.trans hb)]
  have hacc := h o hkept' _ s hrun
  rw [htransfer] at hacc
  rw [← htotal, ← hacc.sent_eq hst, hsent, hmade.sent]

/-- Only for the transfers of the list do they add up whenever nothing goes wrong. -/
theorem accountable_of_whole (hmade : ti.MadeFor found) (hb : ti.srcBackend = some b)
    (hr : ti.srcRinfo = some rinfo) (hkept : Kept found b o)
    (hmoves : Moves o tx b b' rinfo rinfo' src dst)
    (h : ∀ f, (b.kind = .posixFilesystem → Found.Same found f) →
      (tx.kind.transferBytes (o.smooth f) src).2 = 0 →
      (tx.kind.transferBytes (o.smooth f) src).1.foldl (· + ·) 0 = ti.totalBytes) :
    TransferAccountable tx.kind b found ti.totalBytes := by
  have htotal := hmade.total b rinfo hb hr
  have husable := hmoves.usable
  generalize tx.kind = k at h husable ⊢
  cases k with
  | memoryRegionToLocalPath => exact (h found (fun _ => .refl _) rfl).symm
  | memoryRegionToSharedPath => exact (h found (fun _ => .refl _) rfl).symm
  | localPathToSharedPath => exact (h found (fun _ => .refl _) rfl).symm
  | memoryRegionToRemoteResource => trivial
  | remoteResourceToLocalPath =>
      -- the size of a remote source is not known, and one byte arrives
      obtain ⟨hclass, -⟩ := (husable.resolve_left (by simp)).resolve_left (by simp)
      have hzero : ti.totalBytes = 0 := by
        obtain ⟨-, -, -, name, rfl⟩ | ⟨-, name, rfl⟩ | ⟨-, address, size, rfl, rfl⟩ | ⟨hkind, -⟩ :=
          hmoves.source.cases
        · cases hclass
        · cases hclass
        · cases hclass
        · simpa [Backend.getSize, hkind] using htotal.symm
      have hbytes : TransferorKind.remoteResourceToLocalPath.transferBytes (o.smooth found) src =
          ([1], 0) := rfl
      have hone := h found (fun _ => .refl _) (by rw [hbytes])
      rw [hbytes, hzero] at hone
      exact absurd hone (by decide)
  | localPathToLocalPath =>
      -- a file with one byte, which has not been counted
      by_contra hkind
      obtain ⟨hclass, -⟩ := (husable.resolve_left (by simp)).resolve_left (by simp)
      have hzero := hmoves.source.total_eq_zero hkind (Option.some.inj hclass).symm htotal
      have hbytes : TransferorKind.localPathToLocalPath.transferBytes
          (o.smooth (.file (.regular [0]))) src = ([1], 0) := rfl
      have hone := h _ (fun hposix => absurd hposix hkind) (by rw [hbytes])
      rw [hbytes, hzero] at hone
      exact absurd hone (by decide)
  | localPathToRemoteResource =>
      obtain ⟨hclass, -⟩ := (husable.resolve_left (by simp)).resolve_left (by simp)
      -- what is sent, if there is anything to map
      have hbytes : ∀ f : Found, f.inputSize src.isCollection ≠ 0 →
          TransferorKind.localPathToRemoteResource.transferBytes (o.smooth f) src =
            ([UInt64.ofNat (f.inputSize src.isCollection)], 0) := by
        intro f hf
        show pushBytes (.localPath src.isCollection 0 (mapCode (f.inputSize src.isCollection) 0))
          (some ⟨TaskStatus.finished.toWord, UrdError.success.toWord, 0, 0⟩)
          (UInt64.ofNat (f.inputSize src.isCollection)) = _
        rw [mapCode, if_neg (fun hzero => hf hzero.1)]
        cases src.isCollection <;> rfl
      by_cases hkind : b.kind = .posixFilesystem
      · refine ⟨hkind, ?_⟩
        cases hdir : found with
        | missing => rfl
        | file st => rfl
        | directory entries =>
            subst hdir
            obtain ⟨-, ⟨nsid, path, rfl⟩, name, rfl⟩ := hmoves.source.posix hkind
            have hcoll : o.got.isDirectory = true := (hkept.got hkind).isDirectory_eq.symm
            have hsize := Found.bytes_lt_inputSize entries
            have hfits : (Found.directory entries).inputSize true < 2 ^ 64 := hmade.fits
            have hcount : ti.totalBytes = UInt64.ofNat (Found.directory entries).bytes := by
              rw [← Found.total_eq]
              simpa [Backend.getSize, hkind] using htotal.symm
            have hadd := hbytes (.directory entries)
            rw [show (Resource.localPath b name o.got.isDirectory).isCollection = true from hcoll]
              at hadd
            have hone := h (.directory entries) (fun _ => .refl _) (by rw [hadd (by omega)])
            rw [hadd (by omega), hcount] at hone
            have hnat := congrArg UInt64.toNat hone
            rw [show [UInt64.ofNat ((Found.directory entries).inputSize true)].foldl (· + ·) 0 =
              UInt64.ofNat ((Found.directory entries).inputSize true) from UInt64.zero_add _,
              UInt64.toNat_ofNat', UInt64.toNat_ofNat', Nat.mod_eq_of_lt hfits,
              Nat.mod_eq_of_lt (hsize.trans hfits)] at hnat
            omega
      · have hzero := hmoves.source.total_eq_zero hkind (Option.some.inj hclass).symm htotal
        obtain ⟨f, n, hf, hn⟩ : ∃ (f : Found) (n : ℕ), f.inputSize src.isCollection = n + 1 ∧
            UInt64.ofNat (n + 1) ≠ 0 := by
          cases src.isCollection with
          | true => exact ⟨.directory [], 1535, rfl, by decide⟩
          | false => exact ⟨.file (.regular [0]), 0, rfl, by decide⟩
        have hadd := hbytes f (by omega)
        have hone := h f (fun hposix => absurd hposix hkind) (by rw [hadd])
        rw [hadd, hzero, hf] at hone
        exact absurd ((UInt64.zero_add _).symm.trans hone) hn

/-- The two kinds of transfers. -/
theorem transfer_accounted_iff {t : Task} (ht : t.call ti = Task.transferBody false tx ti)
    (htransfer : t.isTransfer = true) (hmade : ti.MadeFor found) :
    BytesAccounted t ti found ↔ ∀ b b' rinfo rinfo', ti.srcBackend = some b →
      ti.srcRinfo = some rinfo → ti.dstBackend = some b' → ti.dstRinfo = some rinfo' →
      (∃ o src dst, Kept found b o ∧ Moves o tx b b' rinfo rinfo' src dst) →
      TransferAccountable tx.kind b found ti.totalBytes := by
  constructor
  · rintro h b b' rinfo rinfo' hb hr hb' hr' ⟨o, src, dst, hkept, hmoves⟩
    refine accountable_of_whole hmade hb hr hkept hmoves fun f hf hcode => ?_
    exact whole_of_accounted ht htransfer h hmade hb hr hb' hr' (hkept.smooth hf)
      (hmoves.smooth f) hcode
  · intro h o hkept p s hrun
    rw [ht] at hrun
    rw [htransfer]
    by_cases hsome : (∃ b, ti.srcBackend = some b) ∧ (∃ r, ti.srcRinfo = some r) ∧
        (∃ b', ti.dstBackend = some b') ∧ ∃ r', ti.dstRinfo = some r'
    · obtain ⟨⟨b, hb⟩, ⟨rinfo, hr⟩, ⟨b', hb'⟩, rinfo', hr'⟩ := hsome
      refine accounted_of_adds hb hr hb' hr' hmade.fresh hmade.sent ?_ hrun
      intro src dst hmoves
      exact adds_of_accountable hmade hb hr (hkept b hb) hmoves
        (h b b' rinfo rinfo' hb hr hb' hr' ⟨o, src, dst, hkept b hb, hmoves⟩)
    · -- a pointer is null, and the task stops before it has begun
      have hstop : Task.transferBody false tx ti = Task.crash .nullDeref := by
        unfold Task.transferBody
        split
        · next hb hr hb' hr' => exact absurd ⟨⟨_, hb⟩, ⟨_, hr⟩, ⟨_, hb'⟩, _, hr'⟩ hsome
        · rfl
      rw [hstop] at hrun
      obtain heq | ⟨c, hstep, -⟩ := hrun.cases_head
      · obtain ⟨-, rfl⟩ := Prod.mk.inj heq
        apply TaskInfo.accounted_of
        · rw [hmade.sent]
          exact UInt64.zero_le
        · intro _ hst
          rw [hmade.fresh.status] at hst
          cases hst
      · cases hstep

end Main

/-- **Byte accounting**: while nothing changes at the source and peers report errors with their
numbers, the bytes sent stay within the total in every state of every run, and make it up when a
copy or a move is finished, exactly for the tasks that are not transfers, the transfers that cannot
be called, and those of `TransferAccountable`. -/
theorem byte_accounting_iff (t : Task) (ti : TaskInfo) (found : Found) (hmade : ti.MadeFor found)
    (hremote : ∀ tx, t = .remoteTransfer tx → ti.isRemote = true) :
    BytesAccounted t ti found ↔ Accountable t ti found := by
  have hnone : NoTransfer (t.call ti) → t.isTransfer = false → BytesAccounted t ti found := by
    intro hp htransfer o hkept p s hrun
    have hsent : s.info.sentBytes = ti.sentBytes := NoTransfer.run hrun hp
    apply TaskInfo.accounted_of
    · rw [hsent, hmade.sent]
      exact UInt64.zero_le
    · rw [htransfer]
      simp
  cases t with
  | copy tx => exact transfer_accounted_iff rfl rfl hmade
  | move tx => exact transfer_accounted_iff rfl rfl hmade
  | remove => exact iff_of_true (hnone (.removeBody ti) rfl) trivial
  | noop =>
      exact iff_of_true (hnone (.call (by simp) fun _ => .call (by simp) fun _ => .ret _) rfl)
        trivial
  | remoteTransfer tx =>
      refine iff_of_true (hnone ?_ rfl) trivial
      show NoTransfer (Task.transferBody ti.isRemote tx ti)
      rw [hremote tx rfl]
      exact .acceptBody tx ti

/-- The record of a copy, with a destination in `tmp0`. -/
def copyRecord (b : Backend) (rinfo : ResourceInfo) (size : UInt64) : TaskInfo :=
  .new 1 .copy false ⟨1, 0, 0⟩ (some b) (some rinfo) (some tmp0Backend)
    (some (.localPath "tmp0" "b")) size

/-- A copy of a file with three bytes. -/
theorem local_copy_accounted :
    BytesAccounted (.copy (TransferorKind.plugin .localPathToLocalPath))
      (copyRecord tmp0Backend (.localPath "tmp0" "a") 3) (.file (.regular [1, 2, 3])) := by
  refine (byte_accounting_iff _ _ _ (TaskInfo.madeFor_new rfl (by decide) ..)
    (fun tx h => by cases h)).mpr ?_
  rintro b b' rinfo rinfo' hb - - - -
  obtain rfl := Option.some.inj hb
  rfl

/-- No error is reported, and a peer has a file of one byte. -/
def sampleOutside : Outside where
  got := .missing
  found := .missing
  fileEc := 0
  iteratorEc := 0
  entryEc _ := 0
  memoryEc := 0
  packEc := 0
  tempfileEc := 0
  mapEc := 0
  copyEc := 0
  protectEc := 0
  unpackEc := 0
  push := none
  stat := ⟨UrdError.success.toWord, 0, false, 1⟩
  pull := ⟨TaskStatus.finished.toWord, UrdError.success.toWord, 0, 0⟩

theorem sampleOutside_kept {b : Backend} (h : b.kind ≠ .posixFilesystem) :
    Kept .missing b sampleOutside :=
  ⟨fun hb => absurd hb h, fun hb => absurd hb h, fun _ hout => (nomatch hout), Or.inr rfl⟩

/-- Three bytes of memory are copied, and stay pending for ever; one byte is pulled from a peer,
and the bytes pending wrap around. -/
theorem finished_copies_not_accounted :
    let memory := copyRecord .processMemory (.memoryRegion 0x1000 3) 3
    let remote := copyRecord (.remote "tmp1") (.remoteResource "node" "tmp1" false "a" []) 0
    memory.MadeFor .missing ∧ remote.MadeFor .missing ∧
    Kept .missing .processMemory sampleOutside ∧ Kept .missing (.remote "tmp1") sampleOutside ∧
    (∃ s, Run (Program.Step (counting sampleOutside))
        (Task.call (.copy (TransferorKind.plugin .memoryRegionToLocalPath)) memory, ⟨memory, none⟩)
        (.ret (.ok ()), s) ∧
      s.info.status = .finished ∧ s.info.stats.pendingBytes = 3) ∧
    (∃ s, Run (Program.Step (counting sampleOutside))
        (Task.call (.copy (TransferorKind.plugin .remoteResourceToLocalPath)) remote,
          ⟨remote, none⟩) (.ret (.ok ()), s) ∧
      s.info.status = .finished ∧ ¬ s.info.sentBytes ≤ s.info.totalBytes ∧
      s.info.stats.pendingBytes = 0xFFFFFFFFFFFFFFFF) := by
  intro memory remote
  have hnew : HandsNew tmp0Backend (.localPath "tmp0" "b") false
      (some (.localPath tmp0Backend "b".toList false), 0) :=
    ⟨0, "b".toList, (some false, 0), rfl, rfl⟩
  refine ⟨TaskInfo.madeFor_new rfl (by decide) .., TaskInfo.madeFor_new rfl (by decide) ..,
    sampleOutside_kept (by decide), sampleOutside_kept (by decide), ?_, ?_⟩
  · have hmoves : Moves sampleOutside (TransferorKind.plugin .memoryRegionToLocalPath)
        .processMemory tmp0Backend (.memoryRegion 0x1000 3) (.localPath "tmp0" "b")
        (.memoryRegion 0x1000 3) (some (.localPath tmp0Backend "b".toList false)) :=
      ⟨⟨ENOENT, [], (some false, 0), fun _ => by decide, rfl, rfl⟩, hnew,
        Or.inr (Or.inr ⟨rfl, _, rfl, rfl⟩)⟩
    obtain ⟨s, hrun, hst, htotal, hsent⟩ :=
      exists_finished (show memory.srcBackend = some _ from rfl) rfl rfl rfl hmoves rfl
    have hthree : s.info.totalBytes = 3 := htotal
    have hzero : s.info.sentBytes = 0 := hsent
    refine ⟨s, hrun, hst, ?_⟩
    show s.info.totalBytes - s.info.sentBytes = 3
    rw [hthree, hzero]
    decide
  · have hmoves : Moves sampleOutside (TransferorKind.plugin .remoteResourceToLocalPath)
        (.remote "tmp1") tmp0Backend (.remoteResource "node" "tmp1" false "a" [])
        (.localPath "tmp0" "b") (.remoteResource "node" "tmp1" false "a" [])
        (some (.localPath tmp0Backend "b".toList false)) :=
      ⟨⟨ENOENT, [], (some false, 0), fun _ => by decide, rfl, rfl⟩, hnew,
        Or.inr (Or.inr ⟨rfl, _, rfl, rfl⟩)⟩
    obtain ⟨s, hrun, hst, htotal, hsent⟩ :=
      exists_finished (show remote.srcBackend = some _ from rfl) rfl rfl rfl hmoves rfl
    have hone : s.info.sentBytes = 1 := hsent
    have hzero : s.info.totalBytes = 0 := htotal
    refine ⟨s, hrun, hst, ?_, ?_⟩
    · rw [hone, hzero]
      decide
    · show s.info.totalBytes - s.info.sentBytes = 0xFFFFFFFFFFFFFFFF
      rw [hone, hzero]
      decide

end Norns
