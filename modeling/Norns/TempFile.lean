import Norns.CopyFile
import Norns.FileTransfer

/-! # Temporary files

A transfer between daemons writes its output into a `temporary_file`, and what a collection is
packed into is handed to one: the object removes the file when it dies, unless it has been released
before.  Here are the transfers again, now with every call that can fail and with the life of this
object, on the side that receives and on the side that sends.

* `remote_file_clean`: a failed transfer of a file leaves the file system as it was, and one that
  succeeds has added one file.
* `staging_clean_iff`: an archive stays in the staging directory exactly if adding to it failed, or
  finding it again: until then no object knows of it.

What the calls return is an input.  A removal does what it is asked to do. -/

namespace Norns

open Lib Lib.PathStr Lib.FileTree

/-! ### The object -/

/-- `utils::temporary_file`; without a file the name is empty. -/
structure TemporaryFile where
  filename : PathStr

/-- The calls of the constructor; a reservation that fails may have set bytes aside. -/
structure TempCalls where
  uniquePath : Option Errno
  parentStatus : Option Errno
  create : Option Errno
  reserve : Option Errno
  reserved : ℕ

namespace TemporaryFile

/-- The default constructor. -/
def empty : TemporaryFile := ⟨[]⟩

/-- The constructor that creates a file.  The name is kept even if the reservation fails. -/
def new (calls : TempCalls) (digit : ℕ → Fin 16) (d : Disk) (pattern parentDir : PathStr)
    (reserveSize : ℕ) : Disk × TemporaryFile × ErrorCode :=
  let filename := append parentDir (uniquePath digit pattern)
  match calls.uniquePath with
  | some e => (d, empty, e)
  | none =>
      match calls.parentStatus, d.tree.resolve .stat parentDir with
      | none, .ok _ =>
          match d.tree.resolve .mkdir filename with
          | .error e => (d, empty, errnoOf e)
          | .ok l =>
              if d.tree.node l ≠ none then (d, empty, EEXIST)
              else
                match calls.create with
                | some e => (d, empty, e)
                | none =>
                    if reserveSize = 0 then (d.create l (.file []), ⟨filename⟩, 0)
                    else
                      match calls.reserve with
                      | some e =>
                          (d.create l (.file (List.replicate calls.reserved 0)), ⟨filename⟩, e)
                      | none =>
                          (d.create l (.file (List.replicate reserveSize 0)), ⟨filename⟩, 0)
      | _, _ => (d, empty, ENOENT)

/-- The destructor. -/
def destroy (f : TemporaryFile) (d : Disk) : Disk :=
  if f.filename = [] then d else removeTemporary d f.filename

/-- `temporary_file::release`; nobody uses the name. -/
def release (_f : TemporaryFile) : TemporaryFile := empty

/-- `temporary_file::manage`. -/
def manage (f : TemporaryFile) (call : Option Errno) (t : FileTree) (filename : PathStr) :
    TemporaryFile × ErrorCode :=
  match call with
  | some e => (f, e)
  | none =>
      match plainCanonical t filename with
      | .error ec => (f, ec)
      | .ok existing => (⟨existing⟩, 0)

end TemporaryFile

/-- `hermes::mapped_buffer`, which may fail although the file is there. -/
def mappedBufferCall (call : Option Errno) (t : FileTree) (p : PathStr) :
    Except ErrorCode (Loc × List UInt8) :=
  match call with
  | some e => .error e
  | none => mappedBuffer t p

/-! ### The side that receives -/

/-- What `unpack_archive` meets.  `extract` is what `tar::extract` makes of the file system; it
removes nothing, so that paths lead where they led. -/
structure UnpackCalls where
  openArchive : Option Errno
  extract : Disk → Disk × Outcome Unit
  remove : Option Errno
  keeps : ∀ d p q, d.tree.resolve .lstat p = .ok q →
    (extract d).1.tree.resolve .lstat p = .ok q

/-- `::unpack_archive`. -/
def unpackArchiveCalls (calls : UnpackCalls) (d : Disk) (archivePath : PathStr) :
    Disk × Outcome Unit :=
  match calls.openArchive with
  | some e => (d, .error e)
  | none =>
      match calls.extract d with
      | (d, .thrown ec) => (d, .thrown ec)
      | (d, .error ec) => (d, .error ec)
      | (d, .ok ()) =>
          match calls.remove with
          | some e => (d, .error e)
          | none => (removeTemporary d archivePath, .ok ())

/-- What a pulling `transfer` meets: its calls, the two responses, of which there is none if the
network throws, and what the peer writes into the output. -/
structure PullCalls where
  stat : Option StatOutput
  temp : TempCalls
  map : Option Errno
  written : List UInt8
  resp : Option TransferOutput
  unpack : UnpackCalls

/-- `remote_resource_to_local_path_transferor::transfer`; there is no result after an exception. -/
def pullTransferCalls (calls : PullCalls) (stagingDirectory : PathStr) (digit : ℕ → Fin 16)
    (d : Disk) (dst : LocalPathResource) : Disk × Option ErrorCode :=
  match calls.stat with
  | none => (d, none)
  | some resp =>
      if resp.taskError ≠ UrdError.success.toWord then (d, some (errcOfWord resp.sysErrnum))
      else
        let (d, tempfile, ec) := TemporaryFile.new calls.temp digit d
          (if resp.isCollection then archivePattern else dst.name)
          (if resp.isCollection then stagingDirectory else dst.parent.mount)
          resp.packedSize.toNat
        if ec ≠ 0 then (tempfile.destroy d, some ec)
        else
          match mappedBufferCall calls.map d.tree tempfile.filename with
          | .error ec => (tempfile.destroy d, some ec)
          | .ok (l, _) =>
              let d := d.bulk l calls.written
              match calls.resp with
              | none => (tempfile.destroy d, none)
              | some resp2 =>
                  if resp2.status = TaskStatus.finishedWithError.toWord then
                    (tempfile.destroy d, some (errcOfWord resp2.sysErrnum))
                  else if resp.isCollection then
                    match unpackArchiveCalls calls.unpack d tempfile.filename with
                    | (d, .thrown _) => (tempfile.destroy d, none)
                    | (d, .error ec) => (tempfile.destroy d, some ec)
                    | (d, .ok ()) => (tempfile.destroy d, some 0)
                  else (tempfile.release.destroy d, some 0)

/-- What a push meets on the responder. -/
structure AcceptPushCalls where
  srcName : PathStr
  isCollection : Bool
  bufferSize : ℕ
  temp : TempCalls
  map : Option Errno
  written : List UInt8
  usecs : UInt32
  unpack : UnpackCalls

/-- `local_path_to_remote_resource_transferor::accept_transfer`: an error, or the file that the
posted operation and its callback share, and where it is mapped. -/
def acceptPushCalls (calls : AcceptPushCalls) (stagingDirectory : PathStr) (digit : ℕ → Fin 16)
    (d : Disk) (dst : LocalPathResource) : Disk × Except ErrorCode (TemporaryFile × Loc) :=
  if calls.srcName = [] ∧ isDirectory d.tree dst.canonicalPath then (d, .error EISDIR)
  else
    let (d, tempfile, ec) := TemporaryFile.new calls.temp digit d
      (if calls.isCollection then archivePattern else dst.name)
      (if calls.isCollection then stagingDirectory else dst.parent.mount) calls.bufferSize
    if ec ≠ 0 then (tempfile.destroy d, .error ec)
    else
      match mappedBufferCall calls.map d.tree tempfile.filename with
      | .error ec => (tempfile.destroy d, .error ec)
      | .ok (l, _) => (d, .ok (tempfile, l))

/-- The `completion_callback` of a push, after the data has arrived; the file dies with it.  There
is no response after an exception. -/
def pushCompletion (calls : AcceptPushCalls) (d : Disk) (tempfile : TemporaryFile) (l : Loc) :
    Disk × Option TransferOutput :=
  let d := d.bulk l calls.written
  let out : TransferOutput :=
    ⟨TaskStatus.finished.toWord, UrdError.success.toWord, 0, calls.usecs⟩
  if calls.isCollection then
    match unpackArchiveCalls calls.unpack d tempfile.filename with
    | (d, .thrown _) => (tempfile.destroy d, none)
    | (d, .error ec) => (tempfile.destroy d, some (errorOutput .systemError ec))
    | (d, .ok ()) => (tempfile.destroy d, some out)
  else (tempfile.release.destroy d, some out)

/-! ### The side that sends a collection -/

/-- What the packing meets: how `add_directory` ends and the bytes that are in the archive then, and
whether the archive is found again. -/
structure PackCalls where
  openArchive : Option Errno
  addDirectory : Outcome Unit
  bytes : List UInt8
  canonical : Option Errno

/-- The name of the archive. -/
def archivePath (stagingDirectory : PathStr) (digit : ℕ → Fin 16) : PathStr :=
  append stagingDirectory (uniquePath digit archivePattern)

/-- `::pack_archive`: the path, which is empty after an error.  The archive is closed as it is,
whatever happens. -/
def packArchive (calls : PackCalls) (stagingDirectory : PathStr) (digit : ℕ → Fin 16) (d : Disk) :
    Disk × Outcome PathStr :=
  match calls.openArchive with
  | some e => (d, .error e)
  | none =>
      match d.writeFile false (archivePath stagingDirectory digit) calls.bytes with
      | (d, ec) =>
          if ec ≠ 0 then (d, .error ec)
          else
            match calls.addDirectory with
            | .thrown ec => (d, .thrown ec)
            | .error ec => (d, .error ec)
            | .ok () => (d, .ok (archivePath stagingDirectory digit))

/-- The input of a transfer of a collection: the archive, managed by the temporary file.  After an
error the path is empty. -/
def packInput (calls : PackCalls) (stagingDirectory : PathStr) (digit : ℕ → Fin 16) (d : Disk) :
    Disk × Outcome (TemporaryFile × PathStr) :=
  match packArchive calls stagingDirectory digit d with
  | (d, .thrown ec) => (d, .thrown ec)
  | (d, .error _) => (d, .ok (.empty, []))
  | (d, .ok arPath) =>
      match TemporaryFile.empty.manage calls.canonical d.tree arPath with
      | (tempfile, ec) =>
          if ec ≠ 0 then (d, .ok (tempfile, [])) else (d, .ok (tempfile, tempfile.filename))

/-- What a pushing `transfer` meets; `lookup` may throw, and there is no response if the network
does later. -/
structure PushCalls where
  pack : PackCalls
  lookup : Bool
  map : Option Errno
  resp : Option TransferOutput

/-- `local_path_to_remote_resource_transferor::transfer` of a collection; there is no result after
an exception. -/
def pushCollectionCalls (calls : PushCalls) (stagingDirectory : PathStr) (digit : ℕ → Fin 16)
    (d : Disk) : Disk × Option ErrorCode :=
  match packInput calls.pack stagingDirectory digit d with
  | (d, .thrown _) => (d, none)
  | (d, .error ec) => (d, some ec)
  | (d, .ok (tempfile, inputPath)) =>
      if !calls.lookup then (tempfile.destroy d, none)
      else
        match mappedBufferCall calls.map d.tree inputPath with
        | .error ec => (tempfile.destroy d, some ec)
        | .ok _ => (tempfile.destroy d, some (pushResult calls.resp))

/-- `remote_resource_to_local_path_transferor::accept_transfer` of a collection, and its callback,
which the file dies with; there is no result after an exception. -/
def acceptPullCollectionCalls (pack : PackCalls) (map : Option Errno) (stagingDirectory : PathStr)
    (digit : ℕ → Fin 16) (d : Disk) : Disk × Option ErrorCode :=
  match packInput pack stagingDirectory digit d with
  | (d, .thrown _) => (d, none)
  | (d, .error ec) => (d, some ec)
  | (d, .ok (tempfile, inputPath)) =>
      match mappedBufferCall map d.tree inputPath with
      | .error ec => (tempfile.destroy d, some ec)
      | .ok _ => (tempfile.destroy d, some 0)

/-! ### Creating and removing -/

/-- The file systems are the same. -/
def SameNodes (d d' : Disk) : Prop := ∀ x, d'.tree.node x = d.tree.node x

/-- A file that has been created and is removed again leaves nothing behind. -/
theorem NewFile.removed {d d' : Disk} {p : PathStr} {data : List UInt8} {q : Loc}
    (h : NewFile d d' p data q) : SameNodes d (removeTemporary d' p) := by
  have hroot : q ≠ [] := by
    rintro rfl
    have hfree := h.free
    rw [d.tree.root_dir] at hfree
    cases hfree
  intro x
  unfold removeTemporary
  rw [h.lstat]
  show (if x ≠ [] ∧ inside q x then none else d'.tree.node x) = d.tree.node x
  split_ifs with hin
  · -- nothing was below a place where nothing was
    by_contra hne
    obtain rfl | hx := eq_or_ne x q
    · exact hne h.free.symm
    · have hdir := dir_of_inside hin.2 hx (Option.isSome_iff_ne_none.mpr (Ne.symm hne))
      rw [h.free] at hdir
      cases hdir
  · rw [h.node, if_neg]
    rintro rfl
    exact hin ⟨hroot, inside_refl x⟩

/-- The constructor fails without a file, or there is a new one that the object knows of. -/
theorem TemporaryFile.new_cases (calls : TempCalls) (digit : ℕ → Fin 16) (d : Disk)
    (pattern parentDir : PathStr) (size : ℕ) :
    (∃ ec, ec ≠ 0 ∧ new calls digit d pattern parentDir size = (d, empty, ec)) ∨
    ∃ d' data q ec, new calls digit d pattern parentDir size =
        (d', ⟨append parentDir (uniquePath digit pattern)⟩, ec) ∧
      NewFile d d' (append parentDir (uniquePath digit pattern)) data q := by
  unfold TemporaryFile.new
  cases calls.uniquePath with
  | some e => exact Or.inl ⟨e, e.2, rfl⟩
  | none =>
    cases calls.parentStatus with
    | some e => exact Or.inl ⟨ENOENT, by decide, rfl⟩
    | none =>
      cases d.tree.resolve .stat parentDir with
      | error e => exact Or.inl ⟨ENOENT, by decide, rfl⟩
      | ok m =>
        dsimp only
        cases hr : d.tree.resolve .mkdir (append parentDir (uniquePath digit pattern)) with
        | error e => exact Or.inl ⟨errnoOf e, errnoOf_ne_zero e, rfl⟩
        | ok l =>
          dsimp only
          by_cases hfree : d.tree.node l = none
          · rw [if_neg (not_not.mpr hfree)]
            obtain ⟨n, q, rfl, hq, hn⟩ := resolve_free_spec hr hfree
            have hnew : ∀ data, NewFile d (d.create (n :: q) (.file data))
                (append parentDir (uniquePath digit pattern)) data (n :: q) := fun data =>
              ⟨hr, hfree, (Disk.create_eq _ hq hn hfree).2⟩
            cases calls.create with
            | some e => exact Or.inl ⟨e, e.2, rfl⟩
            | none =>
              right
              dsimp only
              split_ifs with hsize
              · exact ⟨_, [], n :: q, 0, rfl, hnew _⟩
              · cases calls.reserve with
                | some e => exact ⟨_, _, n :: q, e, rfl, hnew _⟩
                | none => exact ⟨_, _, n :: q, 0, rfl, hnew _⟩
          · rw [if_pos hfree]
            exact Or.inl ⟨EEXIST, by decide, rfl⟩

/-- All calls of the constructor succeed: the directory is there, and the place is free. -/
structure TempCalls.Succeed (calls : TempCalls) (digit : ℕ → Fin 16) (d : Disk)
    (pattern parentDir : PathStr) (size : ℕ) (q : Loc) : Prop where
  uniquePath : calls.uniquePath = none
  parentStatus : calls.parentStatus = none
  parent : ∃ m, d.tree.resolve .stat parentDir = .ok m
  place : d.tree.resolve .mkdir (append parentDir (Norns.uniquePath digit pattern)) = .ok q
  free : d.tree.node q = none
  create : calls.create = none
  reserve : size ≠ 0 → calls.reserve = none

/-- Then there is a new file of the size. -/
theorem TemporaryFile.new_of_succeed {calls : TempCalls} {digit : ℕ → Fin 16} {d : Disk}
    {pattern parentDir : PathStr} {size : ℕ} {q : Loc}
    (h : calls.Succeed digit d pattern parentDir size q) :
    ∃ d', new calls digit d pattern parentDir size =
        (d', ⟨append parentDir (Norns.uniquePath digit pattern)⟩, 0) ∧
      NewFile d d' (append parentDir (Norns.uniquePath digit pattern)) (List.replicate size 0)
        q := by
  obtain ⟨m, hm⟩ := h.parent
  obtain ⟨n, l, rfl, hl, hn⟩ := resolve_free_spec h.place h.free
  have hnew : ∀ data, NewFile d (d.create (n :: l) (.file data))
      (append parentDir (Norns.uniquePath digit pattern)) data (n :: l) := fun data =>
    ⟨h.place, h.free, (Disk.create_eq _ hl hn h.free).2⟩
  unfold TemporaryFile.new
  rw [h.uniquePath, h.parentStatus, hm]
  dsimp only
  rw [h.place]
  dsimp only
  rw [if_neg (not_not.mpr h.free), h.create]
  dsimp only
  by_cases hsize : size = 0
  · rw [if_pos hsize, hsize]
    exact ⟨_, rfl, hnew []⟩
  · rw [if_neg hsize, h.reserve hsize]
    exact ⟨_, rfl, hnew _⟩

theorem NewFile.path_ne_nil {d d' : Disk} {p : PathStr} {data : List UInt8} {q : Loc}
    (h : NewFile d d' p data q) : p ≠ [] := by
  rintro rfl
  have hplace := h.place
  unfold resolve at hplace
  rw [if_pos rfl] at hplace
  cases hplace

/-- An object that dies takes its new file with it. -/
theorem TemporaryFile.destroy_new {d d' : Disk} {p : PathStr} {data : List UInt8} {q : Loc}
    (h : NewFile d d' p data q) : SameNodes d (destroy ⟨p⟩ d') := by
  unfold TemporaryFile.destroy
  rw [if_neg h.path_ne_nil]
  exact h.removed

/-- Mapping a new file maps it where it is. -/
theorem mappedBufferCall_new {d d' : Disk} {p : PathStr} {data : List UInt8} {q : Loc}
    (h : NewFile d d' p data q) (call : Option Errno) :
    (∃ ec, ec ≠ 0 ∧ mappedBufferCall call d'.tree p = .error ec) ∨
      mappedBufferCall call d'.tree p = .ok (q, data) := by
  cases call with
  | some e => exact Or.inl ⟨e, e.2, rfl⟩
  | none =>
      rw [mappedBufferCall, mappedBuffer_new h]
      split_ifs
      · exact Or.inl ⟨EINVAL, by decide, rfl⟩
      · exact Or.inr rfl

/-- If no call fails by itself, the constructor is the one of `outputBuffer`. -/
theorem TemporaryFile.new_eq {env : HostEnv} {d d' : Disk} {pattern parentDir : PathStr} {size : ℕ}
    {f : TemporaryFile} {ec : ErrorCode}
    (h : new ⟨none, none, none, none, 0⟩ env.digit d pattern parentDir size = (d', f, ec)) :
    temporaryFile env d pattern parentDir size =
      (d', if ec = 0 then .ok f.filename else .error ec) := by
  unfold TemporaryFile.new at h
  unfold temporaryFile
  cases hm : d.tree.resolve .stat parentDir with
  | error e =>
      rw [hm] at h
      cases h
      rfl
  | ok m =>
      rw [hm] at h
      dsimp only at h ⊢
      cases hr : d.tree.resolve .mkdir (append parentDir (uniquePath env.digit pattern)) with
      | error e =>
          rw [hr] at h
          cases h
          rw [if_neg (errnoOf_ne_zero e)]
      | ok l =>
          rw [hr] at h
          dsimp only at h ⊢
          by_cases hfree : d.tree.node l = none
          · rw [if_neg (not_not.mpr hfree)] at h
            rw [if_pos hfree]
            split_ifs at h with hsize
            · cases h
              rw [hsize, if_pos rfl]
              rfl
            · cases h
              rw [if_pos rfl]
          · rw [if_pos hfree] at h
            cases h
            rw [if_neg hfree]
            rfl

/-! ### Files -/

/-- The peer has a regular file: the answer to the request for its status does not speak of a
collection. -/
def PullCalls.OfFile (calls : PullCalls) : Prop := ∀ resp, calls.stat = some resp →
  resp.isCollection = false

/-- A file of `size` bytes, with what has been written into it. -/
def fileContent (size : ℕ) (written : List UInt8) : List UInt8 :=
  written.take size ++ List.replicate (size - written.length) 0

/-- A transfer that returns an error has changed nothing, and one that has been finished has added
one file. -/
structure CleanExit (d : Disk) (r : Disk × Option ErrorCode) (finished : Prop) : Prop where
  unchanged : ∀ ec, r.2 = some ec → ec ≠ 0 → SameNodes d r.1
  added : r.2 = some 0 → finished → ∃ q data, d.tree.node q = none ∧
    ∀ x, r.1.tree.node x = if x = q then some (.file data) else d.tree.node x

/-- Besides, if every step succeeds, the result is no error, and the file that has been added is `q`
with the content `data`. -/
structure FileClean (d : Disk) (r : Disk × Option ErrorCode) (finished : Prop)
    (succeeds : Loc → List UInt8 → Prop) : Prop extends CleanExit d r finished where
  success : ∀ q data, succeeds q data → r.2 = some 0 ∧ d.tree.node q = none ∧
    ∀ x, r.1.tree.node x = if x = q then some (.file data) else d.tree.node x

/-- The peer has answered both requests, and the second answer says that the transfer has been
finished. -/
def PullCalls.Finished (calls : PullCalls) : Prop :=
  ∃ resp resp2, calls.stat = some resp ∧ resp.taskError = UrdError.success.toWord ∧
    calls.resp = some resp2 ∧ resp2.status = TaskStatus.finished.toWord

/-- Every step of a pull succeeds, and the final response is `finished`.  An empty file cannot be
mapped. -/
structure PullCalls.Succeed (calls : PullCalls) (digit : ℕ → Fin 16) (d : Disk)
    (dst : LocalPathResource) (resp : StatOutput) (q : Loc) : Prop where
  stat : calls.stat = some resp
  found : resp.taskError = UrdError.success.toWord
  temp : calls.temp.Succeed digit d dst.name dst.parent.mount resp.packedSize.toNat q
  mapped : calls.map = none ∧ resp.packedSize.toNat ≠ 0
  finished : ∃ resp2, calls.resp = some resp2 ∧ resp2.status = TaskStatus.finished.toWord

/-- Every step of a push succeeds. -/
structure AcceptPushCalls.Succeed (calls : AcceptPushCalls) (digit : ℕ → Fin 16) (d : Disk)
    (dst : LocalPathResource) (q : Loc) : Prop where
  named : ¬ (calls.srcName = [] ∧ isDirectory d.tree dst.canonicalPath)
  temp : calls.temp.Succeed digit d dst.name dst.parent.mount calls.bufferSize q
  mapped : calls.map = none ∧ calls.bufferSize ≠ 0

/-- A push as a whole: the posted operation, and its callback. -/
def acceptedPush (calls : AcceptPushCalls) (stagingDirectory : PathStr) (digit : ℕ → Fin 16)
    (d : Disk) (dst : LocalPathResource) : Disk × Option ErrorCode × Option TransferOutput :=
  match acceptPushCalls calls stagingDirectory digit d dst with
  | (d, .error ec) => (d, some ec, none)
  | (d, .ok (tempfile, l)) =>
      match pushCompletion calls d tempfile l with
      | (d, out) => (d, some 0, out)

theorem CleanExit.of_same {d d' : Disk} {code : Option ErrorCode} {finished : Prop}
    (h : SameNodes d d') (hfin : code = some 0 → ¬ finished) : CleanExit d (d', code) finished :=
  ⟨fun _ _ _ => h, fun hcode hf => absurd hf (hfin hcode)⟩

theorem CleanExit.of_new {d d' : Disk} {p : PathStr} {data : List UInt8} {q : Loc}
    {finished : Prop} (h : NewFile d d' p data q) : CleanExit d (d', some 0) finished :=
  ⟨fun _ hcode hne => absurd (Option.some.inj hcode).symm hne, fun _ _ => ⟨q, data, h.free, h.node⟩⟩

/-- A file that has just been reserved can be mapped, and is filled by the bulk operation. -/
theorem mapped_and_filled {d d' : Disk} {p : PathStr} {size : ℕ} {q : Loc} (hsize : size ≠ 0)
    (h : NewFile d d' p (List.replicate size 0) q) (written : List UInt8) :
    mappedBufferCall none d'.tree p = .ok (q, List.replicate size 0) ∧
      NewFile d (d'.bulk q written) p (fileContent size written) q := by
  have hne : List.replicate size (0 : UInt8) ≠ [] := by simpa using hsize
  have hbulk := h.bulk written
  rw [List.length_replicate, List.drop_replicate] at hbulk
  exact ⟨by rw [mappedBufferCall, mappedBuffer_new h, if_neg hne], hbulk⟩

/-- A pull of a file, at each of its exits. -/
theorem pullTransferCalls_file {calls : PullCalls} (hfile : calls.OfFile)
    (stagingDirectory : PathStr) (digit : ℕ → Fin 16) (d : Disk) (dst : LocalPathResource) :
    CleanExit d (pullTransferCalls calls stagingDirectory digit d dst) calls.Finished := by
  have hsame : SameNodes d d := fun _ => rfl
  unfold pullTransferCalls
  cases hstat : calls.stat with
  | none => exact .of_same hsame fun hcode => by cases hcode
  | some resp =>
    dsimp only
    rw [hfile resp hstat]
    by_cases htask : resp.taskError = UrdError.success.toWord
    · simp only [if_neg (not_not.mpr htask), Bool.false_eq_true, if_false]
      obtain ⟨ec, hec, hnew⟩ | ⟨d', data, q, ec, hnew, hd'⟩ :=
        TemporaryFile.new_cases calls.temp digit d dst.name dst.parent.mount resp.packedSize.toNat
      · rw [hnew]
        dsimp only
        rw [if_pos hec]
        exact .of_same hsame fun hcode => absurd (Option.some.inj hcode) hec
      · rw [hnew]
        dsimp only
        split_ifs with hec
        · exact .of_same (TemporaryFile.destroy_new hd') fun hcode =>
            absurd (Option.some.inj hcode) hec
        · obtain ⟨ec, hec, hmap⟩ | hmap := mappedBufferCall_new hd' calls.map
          · rw [hmap]
            exact .of_same (TemporaryFile.destroy_new hd') fun hcode =>
              absurd (Option.some.inj hcode) hec
          · have hwritten := hd'.bulk calls.written
            rw [hmap]
            dsimp only
            cases hresp : calls.resp with
            | none =>
                exact .of_same (TemporaryFile.destroy_new hwritten) fun hcode => by cases hcode
            | some resp2 =>
                dsimp only
                split_ifs with hstatus
                · refine .of_same (TemporaryFile.destroy_new hwritten) fun _ => ?_
                  rintro ⟨_, resp2', -, -, hresp2, hfin⟩
                  rw [hresp] at hresp2
                  obtain rfl := Option.some.inj hresp2
                  exact finished_ne_finishedWithError (hfin.symm.trans hstatus)
                · exact .of_new hwritten
    · rw [if_pos htask]
      refine .of_same hsame fun _ => ?_
      rintro ⟨resp', -, hresp', hok, -⟩
      rw [hstat] at hresp'
      obtain rfl := Option.some.inj hresp'
      exact htask hok

/-- A push of a file, at each of its exits. -/
theorem acceptedPush_file {calls : AcceptPushCalls} (hfile : calls.isCollection = false)
    (stagingDirectory : PathStr) (digit : ℕ → Fin 16) (d : Disk) (dst : LocalPathResource) :
    CleanExit d ((acceptedPush calls stagingDirectory digit d dst).1,
      (acceptedPush calls stagingDirectory digit d dst).2.1) True := by
  have hsame : SameNodes d d := fun _ => rfl
  unfold acceptedPush acceptPushCalls pushCompletion
  simp only [hfile, Bool.false_eq_true, if_false]
  by_cases hdir : calls.srcName = [] ∧ isDirectory d.tree dst.canonicalPath
  · rw [if_pos hdir]
    exact .of_same hsame fun hcode => absurd (Option.some.inj hcode) (by decide)
  · rw [if_neg hdir]
    obtain ⟨ec, hec, hnew⟩ | ⟨d', data, q, ec, hnew, hd'⟩ :=
      TemporaryFile.new_cases calls.temp digit d dst.name dst.parent.mount calls.bufferSize
    · rw [hnew]
      dsimp only
      rw [if_pos hec]
      exact .of_same hsame fun hcode => absurd (Option.some.inj hcode) hec
    · rw [hnew]
      dsimp only
      by_cases hec : ec = 0
      · rw [if_neg (not_not.mpr hec)]
        obtain ⟨ec, hec, hmap⟩ | hmap := mappedBufferCall_new hd' calls.map
        · rw [hmap]
          exact .of_same (TemporaryFile.destroy_new hd') fun hcode =>
            absurd (Option.some.inj hcode) hec
        · have hwritten := hd'.bulk calls.written
          rw [hmap]
          exact .of_new hwritten
      · rw [if_pos hec]
        exact .of_same (TemporaryFile.destroy_new hd') fun hcode =>
          absurd (Option.some.inj hcode) hec

/-- A pull of a file when nothing fails. -/
theorem pullTransferCalls_succeed {calls : PullCalls} (hfile : calls.OfFile)
    (stagingDirectory : PathStr) {digit : ℕ → Fin 16} {d : Disk} {dst : LocalPathResource}
    {resp : StatOutput} {q : Loc} (h : calls.Succeed digit d dst resp q) :
    ∃ d', pullTransferCalls calls stagingDirectory digit d dst = (d', some 0) ∧
      NewFile d d' (append dst.parent.mount (uniquePath digit dst.name))
        (fileContent resp.packedSize.toNat calls.written) q := by
  obtain ⟨d', hnew, hd'⟩ := TemporaryFile.new_of_succeed h.temp
  obtain ⟨hmap, hwritten⟩ := mapped_and_filled h.mapped.2 hd' calls.written
  obtain ⟨resp2, hresp, hfin⟩ := h.finished
  have hok : ¬ resp2.status = TaskStatus.finishedWithError.toWord := fun hstatus =>
    finished_ne_finishedWithError (hfin.symm.trans hstatus)
  refine ⟨_, ?_, hwritten⟩
  unfold pullTransferCalls
  rw [h.stat]
  dsimp only
  rw [hfile resp h.stat, if_neg (not_not.mpr h.found)]
  simp only [Bool.false_eq_true, if_false]
  rw [hnew]
  dsimp only
  rw [if_neg (not_not.mpr rfl), h.mapped.1, hmap]
  dsimp only
  rw [hresp]
  dsimp only
  rw [if_neg hok]
  rfl

/-- A push of a file when nothing fails. -/
theorem acceptedPush_succeed {calls : AcceptPushCalls} (hfile : calls.isCollection = false)
    (stagingDirectory : PathStr) {digit : ℕ → Fin 16} {d : Disk} {dst : LocalPathResource}
    {q : Loc} (h : calls.Succeed digit d dst q) :
    ∃ d', acceptedPush calls stagingDirectory digit d dst =
        (d', some 0, some ⟨TaskStatus.finished.toWord, UrdError.success.toWord, 0, calls.usecs⟩) ∧
      NewFile d d' (append dst.parent.mount (uniquePath digit dst.name))
        (fileContent calls.bufferSize calls.written) q := by
  obtain ⟨d', hnew, hd'⟩ := TemporaryFile.new_of_succeed h.temp
  obtain ⟨hmap, hwritten⟩ := mapped_and_filled h.mapped.2 hd' calls.written
  refine ⟨_, ?_, hwritten⟩
  unfold acceptedPush acceptPushCalls pushCompletion
  rw [if_neg h.named]
  simp only [hfile, Bool.false_eq_true, if_false]
  rw [hnew]
  dsimp only
  rw [if_neg (not_not.mpr rfl), h.mapped.1, hmap]
  rfl

/-- **Transfers of files are clean**: whatever is in the file system and wherever a transfer fails,
an error leaves every file as it was; a transfer that is finished has added one file, which stays;
and if every step succeeds, there is no error, the file that stays has the content that was
transferred, and a push is answered with `finished`. -/
theorem remote_file_clean (pull : PullCalls) (push : AcceptPushCalls) (hpull : pull.OfFile)
    (hpush : push.isCollection = false) (stagingDirectory : PathStr) (digit : ℕ → Fin 16) (d : Disk)
    (dst : LocalPathResource) :
    FileClean d (pullTransferCalls pull stagingDirectory digit d dst) pull.Finished
      (fun q data => ∃ resp, pull.Succeed digit d dst resp q ∧
        data = fileContent resp.packedSize.toNat pull.written) ∧
    FileClean d ((acceptedPush push stagingDirectory digit d dst).1,
      (acceptedPush push stagingDirectory digit d dst).2.1) True
      (fun q data => push.Succeed digit d dst q ∧
        data = fileContent push.bufferSize push.written) ∧
    ∀ q, push.Succeed digit d dst q → (acceptedPush push stagingDirectory digit d dst).2.2 =
      some ⟨TaskStatus.finished.toWord, UrdError.success.toWord, 0, push.usecs⟩ := by
  have hpullExit := pullTransferCalls_file hpull stagingDirectory digit d dst
  have hpushExit := acceptedPush_file hpush stagingDirectory digit d dst
  refine ⟨⟨hpullExit, ?_⟩, ⟨hpushExit, ?_⟩, fun q h => ?_⟩
  · rintro q data ⟨resp, h, rfl⟩
    obtain ⟨d', hresult, hnew⟩ := pullTransferCalls_succeed hpull stagingDirectory h
    rw [hresult]
    exact ⟨rfl, hnew.free, hnew.node⟩
  · rintro q data ⟨h, rfl⟩
    obtain ⟨d', hresult, hnew⟩ := acceptedPush_succeed hpush stagingDirectory h
    rw [hresult]
    exact ⟨rfl, hnew.free, hnew.node⟩
  · obtain ⟨d', hresult, -⟩ := acceptedPush_succeed hpush stagingDirectory h
    rw [hresult]

/-- No call fails, and nothing is extracted. -/
def tempSucceeds : TempCalls := ⟨none, none, none, none, 0⟩

@[inherit_doc tempSucceeds]
def unpackSucceeds : UnpackCalls := ⟨none, fun d => (d, .ok ()), none, fun _ _ _ h => h⟩

/-- A pull of one byte. -/
def pullByte : PullCalls :=
  ⟨some ⟨UrdError.success.toWord, 0, false, 1⟩, tempSucceeds, none, [7],
    some ⟨TaskStatus.finished.toWord, UrdError.success.toWord, 0, 0⟩, unpackSucceeds⟩

/-- A push of two bytes. -/
def pushTwoBytes : AcceptPushCalls :=
  ⟨['f'], false, 2, tempSucceeds, none, [7, 8], 0, unpackSucceeds⟩

/-- The same, but there is no space for the file. -/
def pushNoSpace : AcceptPushCalls :=
  { pushTwoBytes with temp := { tempSucceeds with reserve := some ⟨ENOSPC, by decide⟩ } }

/-- The file `f` of the namespace mounted at `/mnt`. -/
def newDst : LocalPathResource :=
  localPathResource mntTree (mntMount mntTree mntTree_dir).toPosixFilesystem ['/', 'f']

theorem temp_succeeds {size : ℕ} : tempSucceeds.Succeed (fun _ => 0) ⟨mntTree, []⟩ newDst.name
    newDst.parent.mount size [['f'], "mnt".toList] :=
  ⟨rfl, rfl, ⟨["mnt".toList], rfl⟩, rfl, rfl, rfl, fun _ => rfl⟩

/-- The pull and the push add the file, and the push without space, whose file had been created,
leaves none. -/
theorem pull_and_push_clean :
    ((pullTransferCalls pullByte [] (fun _ => 0) ⟨mntTree, []⟩ newDst).2 = some 0 ∧
      (pullTransferCalls pullByte [] (fun _ => 0) ⟨mntTree, []⟩ newDst).1.tree.node
        [['f'], "mnt".toList] = some (.file [7])) ∧
    ((acceptedPush pushTwoBytes [] (fun _ => 0) ⟨mntTree, []⟩ newDst).2.1 = some 0 ∧
      (acceptedPush pushTwoBytes [] (fun _ => 0) ⟨mntTree, []⟩ newDst).1.tree.node
        [['f'], "mnt".toList] = some (.file [7, 8]) ∧
      (acceptedPush pushTwoBytes [] (fun _ => 0) ⟨mntTree, []⟩ newDst).2.2 =
        some ⟨TaskStatus.finished.toWord, UrdError.success.toWord, 0, 0⟩) ∧
    (acceptedPush pushNoSpace [] (fun _ => 0) ⟨mntTree, []⟩ newDst).2.1 = some ENOSPC ∧
      SameNodes ⟨mntTree, []⟩
        (acceptedPush pushNoSpace [] (fun _ => 0) ⟨mntTree, []⟩ newDst).1 := by
  have hfile : pullByte.OfFile := fun resp hresp => by cases hresp; rfl
  obtain ⟨hpull, hpush, hanswer⟩ :=
    remote_file_clean pullByte pushTwoBytes hfile rfl [] (fun _ => 0) ⟨mntTree, []⟩ newDst
  have hfails :=
    (remote_file_clean pullByte pushNoSpace hfile rfl [] (fun _ => 0) ⟨mntTree, []⟩ newDst).2.1
  have hpullSucceeds : pullByte.Succeed (fun _ => 0) ⟨mntTree, []⟩ newDst
      ⟨UrdError.success.toWord, 0, false, 1⟩ [['f'], "mnt".toList] :=
    ⟨rfl, rfl, temp_succeeds, ⟨rfl, by decide⟩, _, rfl, rfl⟩
  have hpushSucceeds : pushTwoBytes.Succeed (fun _ => 0) ⟨mntTree, []⟩ newDst
      [['f'], "mnt".toList] := ⟨by decide, temp_succeeds, rfl, by decide⟩
  obtain ⟨hpulled, -, hpullNode⟩ := hpull.success _ _ ⟨_, hpullSucceeds, rfl⟩
  obtain ⟨hpushed, -, hpushNode⟩ := hpush.success _ _ ⟨hpushSucceeds, rfl⟩
  have hcode : (acceptedPush pushNoSpace [] (fun _ => 0) ⟨mntTree, []⟩ newDst).2.1 =
      some ENOSPC := by decide
  exact ⟨⟨hpulled, by rw [hpullNode, if_pos rfl]; rfl⟩,
    ⟨hpushed, by rw [hpushNode, if_pos rfl]; rfl, hanswer _ hpushSucceeds⟩, hcode,
    hfails.unchanged _ hcode (by decide)⟩

/-! ### Archives -/

/-- What the archive was created for has gone: the place that its path led to is as free as it
was. -/
def ArchiveGone (p : PathStr) (d d' : Disk) : Prop :=
  ∀ q, d.tree.resolve .create p = .ok q → d.tree.node q = none → d'.tree.node q = none

/-- Nothing remains once the function has returned. -/
def StagingClean (p : PathStr) (d : Disk) (r : Disk × Option ErrorCode) : Prop :=
  r.2 ≠ none → ArchiveGone p d r.1

/-- The archive has been created, and then adding to it failed, or finding it again. -/
structure PackCalls.Leaves (calls : PackCalls) (p : PathStr) (d : Disk) : Prop where
  opened : calls.openArchive = none
  free : ∃ q, d.tree.resolve .create p = .ok q ∧ d.tree.node q = none
  fails : (∃ ec, calls.addDirectory = .error ec) ∨
    (calls.addDirectory = .ok () ∧ calls.canonical ≠ none)

theorem SameNodes.archiveGone {d d' : Disk} (h : SameNodes d d') (p : PathStr) :
    ArchiveGone p d d' := fun q _ hfree => by rw [h q, hfree]

/-- A removal puts nothing anywhere. -/
theorem removeTemporary_node_none {d : Disk} {q : Loc} (h : d.tree.node q = none) (p : PathStr) :
    (removeTemporary d p).tree.node q = none := by
  unfold removeTemporary
  cases d.tree.resolve .lstat p with
  | error e => exact h
  | ok l =>
      show (if q ≠ [] ∧ inside l q then none else d.tree.node q) = none
      split_ifs
      · rfl
      · exact h

theorem removeTemporary_gone {d : Disk} {p : PathStr} {q : Loc}
    (h : d.tree.resolve .lstat p = .ok q) (hq : q ≠ []) :
    (removeTemporary d p).tree.node q = none := by
  unfold removeTemporary
  rw [h]
  exact if_pos ⟨hq, inside_refl q⟩

theorem ne_nil_of_free {t : FileTree} {q : Loc} (h : t.node q = none) : q ≠ [] := by
  rintro rfl
  rw [t.root_dir] at h
  cases h

/-- Opening the archive for writing, where nothing is. -/
theorem writeFile_free {d : Disk} {p : PathStr} {q : Loc} (hq : d.tree.resolve .create p = .ok q)
    (hfree : d.tree.node q = none) (bytes : List UInt8) :
    ∃ d', d.writeFile false p bytes = (d', 0) ∧
      (∀ x, d'.tree.node x = if x = q then some (.file bytes) else d.tree.node x) ∧
      d'.tree.resolve .stat p = .ok q := by
  obtain ⟨-, -, hdir⟩ | ⟨x, hx, hwrites, hec⟩ := writeFile_cases false d p bytes
  · have htaken := hdir q hq
    rw [hfree] at htaken
    cases htaken
  obtain rfl : x = q := Except.ok.inj (hx.symm.trans hq)
  have hnode := hwrites.node
  rw [hfree] at hnode
  refine ⟨_, Prod.ext rfl hec, hnode, ?_⟩
  exact resolve_created hq hfree hnode fun _ _ h => by cases h

/-- The object that manages an archive removes it. -/
theorem destroy_managed {d d' : Disk} {q : Loc} {bytes : List UInt8} (hfree : d.tree.node q = none)
    (hnode : ∀ x, d'.tree.node x = if x = q then some (.file bytes) else d.tree.node x) :
    (TemporaryFile.destroy ⟨absPath q.reverse⟩ d').tree.node q = none := by
  have hself : d'.tree.node q = some (.file bytes) := by rw [hnode, if_pos rfl]
  unfold TemporaryFile.destroy
  rw [if_neg (absPath_ne_nil _)]
  exact removeTemporary_gone (resolve_absPath (by rw [hself]; rfl) (by simp [isLink, hself]))
    (ne_nil_of_free hfree)

/-- The packing, for an archive that can be created: either the object manages it, or it stays and
nobody knows of it. -/
theorem packInput_free {calls : PackCalls} {stagingDirectory : PathStr} {digit : ℕ → Fin 16}
    {d : Disk} {q : Loc} (hopen : calls.openArchive = none)
    (hq : d.tree.resolve .create (archivePath stagingDirectory digit) = .ok q)
    (hfree : d.tree.node q = none) :
    ∃ d', (∀ x, d'.tree.node x = if x = q then some (.file calls.bytes) else d.tree.node x) ∧
      packInput calls stagingDirectory digit d =
        match calls.addDirectory with
        | .thrown ec => (d', .thrown ec)
        | .error _ => (d', .ok (.empty, []))
        | .ok () =>
            match calls.canonical with
            | some _ => (d', .ok (.empty, []))
            | none => (d', .ok (⟨absPath q.reverse⟩, absPath q.reverse)) := by
  obtain ⟨d', hwrite, hnode, hstat⟩ := writeFile_free hq hfree calls.bytes
  refine ⟨d', hnode, ?_⟩
  unfold packInput packArchive
  rw [hopen]
  dsimp only
  rw [hwrite]
  dsimp only
  rw [if_neg (by decide)]
  cases calls.addDirectory with
  | thrown ec => rfl
  | error ec => rfl
  | ok _ =>
      dsimp only
      cases calls.canonical with
      | some e =>
          show (if e.1 ≠ 0 then _ else _) = _
          rw [if_pos e.2]
          rfl
      | none =>
          have hcanonical : plainCanonical d'.tree (archivePath stagingDirectory digit) =
              .ok (absPath q.reverse) := by
            rw [plainCanonical, hstat]
          simp only [TemporaryFile.manage, hcanonical]
          rfl

/-- If the archive cannot be created, nothing is. -/
theorem packInput_closed {calls : PackCalls} {e : Errno} (hopen : calls.openArchive = some e)
    (stagingDirectory : PathStr) (digit : ℕ → Fin 16) (d : Disk) :
    packInput calls stagingDirectory digit d = (d, .ok (.empty, [])) := by
  unfold packInput packArchive
  rw [hopen]

/-- Nothing can be mapped at an empty path. -/
theorem mappedBufferCall_nil (call : Option Errno) (t : FileTree) :
    ∃ ec, mappedBufferCall call t [] = .error ec := by
  cases call with
  | some e => exact ⟨e, rfl⟩
  | none => exact ⟨ENOENT, rfl⟩

/-- What both senders do with the input: they return or not, and the object dies. -/
def afterPacking (packed : Disk × Outcome (TemporaryFile × PathStr))
    (code : Disk → PathStr → Option ErrorCode) : Disk × Option ErrorCode :=
  match packed with
  | (d, .thrown _) => (d, none)
  | (d, .error ec) => (d, some ec)
  | (d, .ok (tempfile, inputPath)) => (tempfile.destroy d, code d inputPath)

theorem pushCollectionCalls_eq (calls : PushCalls) (stagingDirectory : PathStr)
    (digit : ℕ → Fin 16) (d : Disk) :
    pushCollectionCalls calls stagingDirectory digit d =
      afterPacking (packInput calls.pack stagingDirectory digit d) fun d p =>
        if !calls.lookup then none
        else
          match mappedBufferCall calls.map d.tree p with
          | .error ec => some ec
          | .ok _ => some (pushResult calls.resp) := by
  unfold pushCollectionCalls afterPacking
  obtain ⟨d', ⟨f, p⟩ | ec | ec⟩ := packInput calls.pack stagingDirectory digit d
  · dsimp only
    split_ifs
    · rfl
    · cases mappedBufferCall calls.map d'.tree p <;> rfl
  · rfl
  · rfl

theorem acceptPullCollectionCalls_eq (pack : PackCalls) (map : Option Errno)
    (stagingDirectory : PathStr) (digit : ℕ → Fin 16) (d : Disk) :
    acceptPullCollectionCalls pack map stagingDirectory digit d =
      afterPacking (packInput pack stagingDirectory digit d) fun d p =>
        match mappedBufferCall map d.tree p with
        | .error ec => some ec
        | .ok _ => some 0 := by
  unfold acceptPullCollectionCalls afterPacking
  obtain ⟨d', ⟨f, p⟩ | ec | ec⟩ := packInput pack stagingDirectory digit d
  · dsimp only
    cases mappedBufferCall map d'.tree p <;> rfl
  · rfl
  · rfl

/-- A sender leaves the archive exactly if it returns and the packing does. -/
theorem afterPacking_clean_iff (calls : PackCalls) (stagingDirectory : PathStr)
    (digit : ℕ → Fin 16) (d : Disk) {code : Disk → PathStr → Option ErrorCode} {returns : Prop}
    (hcode : ∀ d, code d [] ≠ none ↔ returns) :
    StagingClean (archivePath stagingDirectory digit) d
        (afterPacking (packInput calls stagingDirectory digit d) code) ↔
      ¬ (returns ∧ calls.Leaves (archivePath stagingDirectory digit) d) := by
  cases hopen : calls.openArchive with
  | some e =>
      rw [packInput_closed hopen]
      refine ⟨fun _ h => ?_, fun _ _ => SameNodes.archiveGone (fun _ => rfl) _⟩
      have hopened := h.2.opened
      rw [hopen] at hopened
      cases hopened
  | none =>
      by_cases hex : ∃ q, d.tree.resolve .create (archivePath stagingDirectory digit) = .ok q ∧
          d.tree.node q = none
      · obtain ⟨q, hq, hfree⟩ := hex
        obtain ⟨d', hnode, hpack⟩ := packInput_free hopen hq hfree
        have hself : d'.tree.node q = some (.file calls.bytes) := by rw [hnode, if_pos rfl]
        -- if nobody manages the archive, it is still there
        have hstays : packInput calls stagingDirectory digit d = (d', .ok (.empty, [])) →
            (StagingClean (archivePath stagingDirectory digit) d
              (afterPacking (packInput calls stagingDirectory digit d) code) ↔ ¬ returns) := by
          intro h
          rw [h, ← hcode d']
          refine ⟨fun hclean hret => ?_, fun hret hret' => absurd hret' hret⟩
          have hgone := hclean hret q hq hfree
          rw [show d'.tree.node q = none from hgone] at hself
          cases hself
        cases hadd : calls.addDirectory with
        | thrown ec =>
            rw [hadd] at hpack
            rw [hpack]
            refine ⟨fun _ h => ?_, fun _ h => absurd rfl h⟩
            obtain ⟨ec', hfails⟩ | ⟨hfails, -⟩ := h.2.fails
            · rw [hadd] at hfails
              cases hfails
            · rw [hadd] at hfails
              cases hfails
        | error ec =>
            rw [hadd] at hpack
            rw [hstays hpack]
            exact not_congr ⟨fun h => ⟨h, hopen, ⟨q, hq, hfree⟩, Or.inl ⟨ec, hadd⟩⟩, fun h => h.1⟩
        | ok _ =>
            rw [hadd] at hpack
            cases hcan : calls.canonical with
            | some e =>
                rw [hcan] at hpack
                rw [hstays hpack]
                refine not_congr ⟨fun h => ⟨h, hopen, ⟨q, hq, hfree⟩, Or.inr ⟨hadd, ?_⟩⟩,
                  fun h => h.1⟩
                rw [hcan]
                exact Option.some_ne_none e
            | none =>
                rw [hcan] at hpack
                rw [hpack]
                refine ⟨fun _ h => ?_, fun _ _ q' hq' _ => ?_⟩
                · obtain ⟨ec', hfails⟩ | ⟨-, hfails⟩ := h.2.fails
                  · rw [hadd] at hfails
                    cases hfails
                  · exact hfails hcan
                · obtain rfl : q' = q := Except.ok.inj (hq'.symm.trans hq)
                  exact destroy_managed hfree hnode
      · refine ⟨fun _ h => hex h.2.free, fun _ _ q hq hfree => absurd ⟨q, hq, hfree⟩ hex⟩

/-- What an unpacked archive's object removes. -/
theorem destroy_unpacked {d d' : Disk} {p : PathStr} {data : List UInt8} {q : Loc}
    (h : NewFile d d' p data q) (calls : UnpackCalls) :
    (TemporaryFile.destroy ⟨p⟩ (unpackArchiveCalls calls d' p).1).tree.node q = none := by
  have hq := ne_nil_of_free h.free
  have hpath : ∀ d₁ : Disk, d₁.tree.resolve .lstat p = .ok q →
      (TemporaryFile.destroy ⟨p⟩ d₁).tree.node q = none := by
    intro d₁ hd₁
    unfold TemporaryFile.destroy
    rw [if_neg h.path_ne_nil]
    exact removeTemporary_gone hd₁ hq
  have hkeeps := calls.keeps d' p q h.lstat
  unfold unpackArchiveCalls
  cases calls.openArchive with
  | some e => exact hpath d' h.lstat
  | none =>
      dsimp only
      cases hextract : calls.extract d' with
      | mk d₁ r =>
        rw [hextract] at hkeeps
        cases r with
        | thrown ec => exact hpath d₁ hkeeps
        | error ec => exact hpath d₁ hkeeps
        | ok _ =>
            cases calls.remove with
            | some e => exact hpath d₁ hkeeps
            | none =>
                show (TemporaryFile.destroy ⟨p⟩ (removeTemporary d₁ p)).tree.node q = none
                unfold TemporaryFile.destroy
                rw [if_neg h.path_ne_nil]
                exact removeTemporary_node_none (removeTemporary_gone hkeeps hq) p

/-- The place of a new file is the one its path led to. -/
theorem NewFile.archiveGone {d d' d₁ : Disk} {p : PathStr} {data : List UInt8} {q : Loc}
    (h : NewFile d d' p data q) (hgone : d₁.tree.node q = none) : ArchiveGone p d d₁ := by
  intro q' hq' _
  have hq : d.tree.resolve .create p = .ok q :=
    resolve_follow_of_not_link h.place (by simp [isLink, h.free])
  obtain rfl : q = q' := Except.ok.inj (hq.symm.trans hq')
  exact hgone

/-- The peer has a collection. -/
def PullCalls.OfCollection (calls : PullCalls) : Prop := ∀ resp, calls.stat = some resp →
  resp.isCollection = true

/-- A pull of a collection, at each of its exits. -/
theorem pullTransferCalls_archive {calls : PullCalls} (hcoll : calls.OfCollection)
    (stagingDirectory : PathStr) (digit : ℕ → Fin 16) (d : Disk) (dst : LocalPathResource) :
    ArchiveGone (archivePath stagingDirectory digit) d
      (pullTransferCalls calls stagingDirectory digit d dst).1 := by
  have hsame : ArchiveGone (archivePath stagingDirectory digit) d d :=
    SameNodes.archiveGone (fun _ => rfl) _
  unfold pullTransferCalls
  unfold archivePath at hsame ⊢
  generalize archivePattern = pattern at hsame ⊢
  cases hstat : calls.stat with
  | none => exact hsame
  | some resp =>
    dsimp only
    by_cases htask : resp.taskError = UrdError.success.toWord
    · simp only [if_neg (not_not.mpr htask), hcoll resp hstat, if_true]
      obtain ⟨ec, hec, hnew⟩ | ⟨d', data, q, ec, hnew, hd'⟩ :=
        TemporaryFile.new_cases calls.temp digit d pattern stagingDirectory resp.packedSize.toNat
      · rw [hnew]
        dsimp only
        rw [if_pos hec]
        exact hsame
      · rw [hnew]
        dsimp only
        split_ifs with hec
        · exact (TemporaryFile.destroy_new hd').archiveGone _
        · obtain ⟨ec, hec, hmap⟩ | hmap := mappedBufferCall_new hd' calls.map
          · rw [hmap]
            exact (TemporaryFile.destroy_new hd').archiveGone _
          · have hwritten := hd'.bulk calls.written
            rw [hmap]
            dsimp only
            cases calls.resp with
            | none => exact (TemporaryFile.destroy_new hwritten).archiveGone _
            | some resp2 =>
                dsimp only
                split_ifs
                · exact (TemporaryFile.destroy_new hwritten).archiveGone _
                · have hgone := hwritten.archiveGone (destroy_unpacked hwritten calls.unpack)
                  cases hunpack : unpackArchiveCalls calls.unpack (d'.bulk q calls.written)
                      (append stagingDirectory (uniquePath digit pattern)) with
                  | mk d₁ r =>
                    rw [hunpack] at hgone
                    cases r <;> exact hgone
    · rw [if_pos htask]
      exact hsame

/-- A push of a collection, at each of its exits. -/
theorem acceptedPush_archive {calls : AcceptPushCalls} (hcoll : calls.isCollection = true)
    (stagingDirectory : PathStr) (digit : ℕ → Fin 16) (d : Disk) (dst : LocalPathResource) :
    ArchiveGone (archivePath stagingDirectory digit) d
      (acceptedPush calls stagingDirectory digit d dst).1 := by
  have hsame : ArchiveGone (archivePath stagingDirectory digit) d d :=
    SameNodes.archiveGone (fun _ => rfl) _
  unfold acceptedPush acceptPushCalls pushCompletion
  unfold archivePath at hsame ⊢
  generalize archivePattern = pattern at hsame ⊢
  simp only [hcoll, if_true]
  by_cases hdir : calls.srcName = [] ∧ isDirectory d.tree dst.canonicalPath
  · rw [if_pos hdir]
    exact hsame
  · rw [if_neg hdir]
    obtain ⟨ec, hec, hnew⟩ | ⟨d', data, q, ec, hnew, hd'⟩ :=
      TemporaryFile.new_cases calls.temp digit d pattern stagingDirectory calls.bufferSize
    · rw [hnew]
      dsimp only
      rw [if_pos hec]
      exact hsame
    · rw [hnew]
      dsimp only
      by_cases hec : ec = 0
      · rw [if_neg (not_not.mpr hec)]
        obtain ⟨ec, hec, hmap⟩ | hmap := mappedBufferCall_new hd' calls.map
        · rw [hmap]
          exact (TemporaryFile.destroy_new hd').archiveGone _
        · have hwritten := hd'.bulk calls.written
          rw [hmap]
          dsimp only
          have hgone := hwritten.archiveGone (destroy_unpacked hwritten calls.unpack)
          cases hunpack : unpackArchiveCalls calls.unpack (d'.bulk q calls.written)
              (append stagingDirectory (uniquePath digit pattern)) with
          | mk d₁ r =>
            rw [hunpack] at hgone
            cases r <;> exact hgone
      · rw [if_pos hec]
        exact (TemporaryFile.destroy_new hd').archiveGone _

/-- **The staging directory** is left clean by the receivers of collections.  The senders leave
their archive exactly if they return after it has been created and adding to it has failed, or
finding it again. -/
theorem staging_clean_iff (push : PushCalls) (accept : AcceptPushCalls) (pull : PullCalls)
    (pack : PackCalls) (map : Option Errno) (stagingDirectory : PathStr) (digit : ℕ → Fin 16)
    (d : Disk) (dst : LocalPathResource) :
    (StagingClean (archivePath stagingDirectory digit) d
        (pushCollectionCalls push stagingDirectory digit d) ↔
      ¬ (push.lookup = true ∧ push.pack.Leaves (archivePath stagingDirectory digit) d)) ∧
    (StagingClean (archivePath stagingDirectory digit) d
        (acceptPullCollectionCalls pack map stagingDirectory digit d) ↔
      ¬ pack.Leaves (archivePath stagingDirectory digit) d) ∧
    (accept.isCollection = true → ArchiveGone (archivePath stagingDirectory digit) d
      (acceptedPush accept stagingDirectory digit d dst).1) ∧
    (pull.OfCollection → ArchiveGone (archivePath stagingDirectory digit) d
      (pullTransferCalls pull stagingDirectory digit d dst).1) := by
  refine ⟨?_, ?_, fun h => acceptedPush_archive h stagingDirectory digit d dst,
    fun h => pullTransferCalls_archive h stagingDirectory digit d dst⟩
  · rw [pushCollectionCalls_eq]
    apply afterPacking_clean_iff
    intro d'
    obtain ⟨ec, hmap⟩ := mappedBufferCall_nil push.map d'.tree
    rw [hmap]
    cases push.lookup <;> simp
  · rw [acceptPullCollectionCalls_eq, ← true_and (pack.Leaves _ _)]
    apply afterPacking_clean_iff
    intro d'
    obtain ⟨ec, hmap⟩ := mappedBufferCall_nil map d'.tree
    rw [hmap]
    simp

/-- A directory of which an entry cannot be read. -/
def packFails : PackCalls := ⟨none, .error EACCES, [7], none⟩

/-- A push of such a directory ends with an error, and the archive stays. -/
theorem failed_packing_leaves_archive :
    let p := archivePath ['/'] fun _ => 0
    let push := pushCollectionCalls ⟨packFails, true, none, none⟩ ['/'] (fun _ => 0) ⟨.empty, []⟩
    p = "/norns-archive-0000-0000-0000.tar".toList ∧ push.2 = some ENOENT ∧
    push.1.tree.node [p.tail] = some (.file [7]) ∧ ¬ StagingClean p ⟨.empty, []⟩ push ∧
    ¬ StagingClean p ⟨.empty, []⟩
      (acceptPullCollectionCalls packFails none ['/'] (fun _ => 0) ⟨.empty, []⟩) := by
  refine ⟨by decide, by decide, by decide, fun h => ?_, fun h => ?_⟩
  · exact absurd (h (by decide) ["norns-archive-0000-0000-0000.tar".toList]
      (by decide) (by decide)) (by decide)
  · exact absurd (h (by decide) ["norns-archive-0000-0000-0000.tar".toList]
      (by decide) (by decide)) (by decide)

end Norns
