import Norns.LocalCopy
import Norns.RemoteTransfer
import Norns.TarExtract

/-! # The data of a transfer between daemons

What a push and a pull do to the file system of the destination.  Both directions end the same way
(`temporary_file`, `mapped_buffer`, then the bulk operation), on the responder for a push and on the
initiator for a pull.  The output file is a `temporary_file` whose *pattern* is the name of the
destination, so that `unique_path` replaces every `'%'` in it; and an empty file cannot be mapped,
neither as the source of a push nor as the output of a pull.

`remote_file_copied_iff`: a push and a pull of a regular file produce the destination exactly for a
file that is not empty and a name without `'%'`.

Of hermes the model has what the code relies on: a buffer maps a whole file, and a bulk operation
copies the exposed bytes.  Lengths are natural numbers; those of files fit the fields that carry
them. -/

namespace Norns

open Lib Lib.PathStr Lib.FileTree

/-! ### The host of a transfer -/

/-- What a transfer meets on a host: the staging directory, the random digits, the clock, the order
in which a directory is read, and libarchive. -/
structure HostEnv where
  stagingDirectory : PathStr
  digit : ℕ → Fin 16
  usecs : UInt32
  special : Loc → Bool
  entries : List (List PathStr)
  header : TarEntry → ErrorCode
  encode : List TarEntry → List UInt8
  decode : List UInt8 → List TarEntry
  extractor : Extractor

/-- `"0123456789abcdef"`. -/
def hexDigit (i : Fin 16) : Char := ("0123456789abcdef".toList).getD i.val '0'

/-- `bfs::unique_path(model)`: every `'%'` becomes a random digit. -/
def uniquePath (digit : ℕ → Fin 16) (model : PathStr) : PathStr :=
  model.mapIdx fun i c => if c = '%' then hexDigit (digit i) else c

/-- The constructor of `utils::temporary_file`: a file of `reserveSize` bytes that did not exist. -/
def temporaryFile (env : HostEnv) (d : Disk) (pattern parentDir : PathStr) (reserveSize : ℕ) :
    Disk × Except ErrorCode PathStr :=
  let filename := append parentDir (uniquePath env.digit pattern)
  match d.tree.resolve .stat parentDir with
  | .error _ => (d, .error ENOENT)
  | .ok _ =>
      match d.tree.resolve .mkdir filename with
      | .error e => (d, .error (errnoOf e))
      | .ok l =>
          if d.tree.node l = none then
            (d.create l (.file (List.replicate reserveSize 0)), .ok filename)
          else (d, .error EEXIST)

/-- The destructor of `temporary_file`: `bfs::remove(m_filename, bec)`. -/
def removeTemporary (d : Disk) (filename : PathStr) : Disk :=
  match d.tree.resolve .lstat filename with
  | .error _ => d
  | .ok l => { d with tree := d.tree.removeTree l }

/-- `hermes::mapped_buffer`: the file and its bytes. -/
def mappedBuffer (t : FileTree) (p : PathStr) : Except ErrorCode (Loc × List UInt8) :=
  match t.resolve .stat p with
  | .error e => .error (errnoOf e)
  | .ok l =>
      match t.node l with
      | some (.file data) => if data = [] then .error EINVAL else .ok (l, data)
      | _ => .error EISDIR

/-- `async_pull` and `async_push` into the mapped file `l`. -/
def Disk.bulk (d : Disk) (l : Loc) (exposed : List UInt8) : Disk :=
  match h : d.tree.node l with
  | some (.file old) =>
      ⟨d.tree.overwrite l old (exposed.take old.length ++ old.drop exposed.length) h,
        d.touched ++ [l]⟩
  | _ => d

/-- The pattern of temporary archives. -/
def archivePattern : PathStr := "norns-archive-%%%%-%%%%-%%%%.tar".toList

/-- `::unpack_archive`: an exception, or an error code. -/
def unpackArchive (env : HostEnv) (d : Disk) (bytes : List UInt8) (parentPath : PathStr) :
    Disk × Outcome Unit :=
  let r := extract env.extractor d.tree (env.decode bytes) parentPath
  ({ d with tree := r.1 }, r.2)

/-- The input of a transfer: a file is mapped; a directory is packed into an archive, and the
archive mapped.  A failed packing leaves no path to map. -/
def inputBuffer (env : HostEnv) (t : FileTree) (src : LocalPathResource) (dstName : PathStr) :
    Outcome (List UInt8) :=
  if src.isCollection then
    match addDirectory env.header ⟨t, env.special⟩ src.canonicalPath dstName env.entries with
    | .thrown ec => .thrown ec
    | .error _ => .error ENOENT
    | .ok arc => if env.encode arc = [] then .error EINVAL else .ok (env.encode arc)
  else
    match mappedBuffer t src.canonicalPath with
    | .error ec => .error ec
    | .ok (_, data) => .ok data

/-- `local_path_resource::packed_size`. -/
def packedSizeOf (env : HostEnv) (t : FileTree) (src : LocalPathResource) : Outcome ℕ :=
  let host : HostTree := ⟨t, env.special⟩
  if src.isCollection then
    match estimateSizeOncePacked host src.canonicalPath env.entries with
    | .thrown ec => .thrown ec
    | .error _ => .ok 0
    | .ok sz => .ok sz.toNat
  else
    match host.status src.canonicalPath with
    | .ok (.regular data) => .ok data.length
    | _ => .ok 0

/-! ### The output of a transfer -/

/-- The common part of the two directions: a new file of `size` bytes, mapped. -/
def outputBuffer (env : HostEnv) (d : Disk) (isCollection : Bool) (dst : LocalPathResource)
    (size : ℕ) : Disk × Except ErrorCode (PathStr × Loc) :=
  match temporaryFile env d (if isCollection then archivePattern else dst.name)
    (if isCollection then env.stagingDirectory else dst.parent.mount) size with
  | (d, .error ec) => (d, .error ec)
  | (d, .ok filename) =>
      match mappedBuffer d.tree filename with
      | .error ec => (removeTemporary d filename, .error ec)
      | .ok (l, _) => (d, .ok (filename, l))

/-- The end of both directions, after the bulk operation: an archive is unpacked and removed, a
file is kept. -/
def completeTransfer (env : HostEnv) (d : Disk) (isCollection : Bool) (dst : LocalPathResource)
    (filename : PathStr) (bytes : List UInt8) : Disk × Outcome Unit :=
  if isCollection then
    let r := unpackArchive env d bytes dst.parent.mount
    (removeTemporary r.1 filename, r.2)
  else (d, .ok ())

/-! ### Push -/

/-- `local_path_to_remote_resource_transferor::accept_transfer` and its completion callback; no
response is sent after an exception. -/
def acceptPushData (env : HostEnv) (d : Disk) (srcName : PathStr) (isCollection : Bool)
    (remoteBuffers : List UInt8) (dst : LocalPathResource) :
    Disk × Except ErrorCode (Option TransferOutput) :=
  if srcName = [] ∧ isDirectory d.tree dst.canonicalPath then (d, .error EISDIR)
  else
    match outputBuffer env d isCollection dst remoteBuffers.length with
    | (d, .error ec) => (d, .error ec)
    | (d, .ok (filename, l)) =>
        match completeTransfer env (d.bulk l remoteBuffers) isCollection dst filename
          remoteBuffers with
        | (d, .thrown _) => (d, .ok none)
        | (d, .error ec) => (d, .ok (some (errorOutput .systemError ec)))
        | (d, .ok ()) =>
            (d, .ok (some ⟨TaskStatus.finished.toWord, UrdError.success.toWord, 0, env.usecs⟩))

/-- `task<remote_transfer>` for a push that the responder has accepted. -/
def servePush (env : HostEnv) (d : Disk) (fs : PosixFilesystem) (dstInfo : LocalPathInfo)
    (srcName : PathStr) (isCollection : Bool) (remoteBuffers : List UInt8) :
    Disk × Option TransferOutput :=
  match fs.newResource d dstInfo isCollection with
  | (d, .thrown _) => (d, none)
  | (d, .error ec) => (d, some (errorOutput .systemError ec))
  | (d, .ok dst) =>
      match acceptPushData env d srcName isCollection remoteBuffers dst with
      | (d, .error ec) => (d, some (errorOutput .systemError ec))
      | (d, .ok out) => (d, out)

/-- A copy task that pushes: `get_resource`, and the transfer with the peer. -/
def pushTask (srcEnv dstEnv : HostEnv) (t : FileTree) (srcFs : PosixFilesystem)
    (srcInfo : LocalPathInfo) (d : Disk) (dstFs : PosixFilesystem) (dstInfo : LocalPathInfo) :
    Disk × Outcome TaskOutcome :=
  match srcFs.getResource t srcInfo with
  | .thrown ec => (d, .thrown ec)
  | .error ec => (d, .ok (taskCopy ec 0 0))
  | .ok src =>
      match inputBuffer srcEnv t src dstInfo.datapath.toList with
      | .thrown ec => (d, .thrown ec)
      | .error ec => (d, .ok (taskCopy 0 0 ec))
      | .ok bytes =>
          let r := servePush dstEnv d dstFs dstInfo src.name src.isCollection bytes
          (r.1, .ok (taskCopy 0 0 (pushResult r.2)))

/-! ### Pull -/

/-- `stat_resource` and, later, `pull_resource` on the responder: what is there, and its bytes. -/
def serveStat (env : HostEnv) (t : FileTree) (fs : PosixFilesystem) (srcInfo : LocalPathInfo) :
    Outcome (Bool × ℕ) :=
  match fs.getResource t srcInfo with
  | .thrown ec => .thrown ec
  | .error ec => .error ec
  | .ok src =>
      match packedSizeOf env t src with
      | .thrown ec => .thrown ec
      | .error ec => .error ec
      | .ok size => .ok (src.isCollection, size)

@[inherit_doc serveStat]
def servePull (env : HostEnv) (t : FileTree) (fs : PosixFilesystem) (srcInfo : LocalPathInfo)
    (dstName : PathStr) : Outcome (List UInt8) :=
  match fs.getResource t srcInfo with
  | .thrown ec => .thrown ec
  | .error ec => .error ec
  | .ok src => inputBuffer env t src dstName

/-- `remote_resource_to_local_path_transferor::transfer`. -/
def pullTransfer (srcEnv dstEnv : HostEnv) (t : FileTree) (srcFs : PosixFilesystem)
    (srcInfo : LocalPathInfo) (d : Disk) (dst : LocalPathResource) : Disk × Outcome Unit :=
  match serveStat srcEnv t srcFs srcInfo with
  | .thrown ec => (d, .thrown ec)
  | .error ec => (d, .error ec)
  | .ok (isCollection, size) =>
      match outputBuffer dstEnv d isCollection dst size with
      | (d, .error ec) => (d, .error ec)
      | (d, .ok (filename, l)) =>
          match servePull srcEnv t srcFs srcInfo dst.name with
          | .thrown ec => (removeTemporary d filename, .thrown ec)
          | .error ec => (removeTemporary d filename, .error ec)
          | .ok bytes =>
              completeTransfer dstEnv (d.bulk l bytes) isCollection dst filename bytes

/-- A copy task that pulls; the remote source is not known to be a collection. -/
def pullTask (srcEnv dstEnv : HostEnv) (t : FileTree) (srcFs : PosixFilesystem)
    (srcInfo : LocalPathInfo) (d : Disk) (dstFs : PosixFilesystem) (dstInfo : LocalPathInfo) :
    Disk × Outcome TaskOutcome :=
  match dstFs.newResource d dstInfo false with
  | (d, .thrown ec) => (d, .thrown ec)
  | (d, .error ec) => (d, .ok (taskCopy 0 ec 0))
  | (d, .ok dst) =>
      match pullTransfer srcEnv dstEnv t srcFs srcInfo d dst with
      | (d, .thrown ec) => (d, .thrown ec)
      | (d, .error ec) => (d, .ok (taskCopy 0 0 ec))
      | (d, .ok ()) => (d, .ok (taskCopy 0 0 0))

/-! ### New files -/

/-- The second disk is the first one with a new file at the place that `p` names. -/
structure NewFile (d d' : Disk) (p : PathStr) (data : List UInt8) (q : Loc) : Prop where
  place : d.tree.resolve .mkdir p = .ok q
  free : d.tree.node q = none
  node : ∀ x, d'.tree.node x = if x = q then some (.file data) else d.tree.node x

namespace NewFile

variable {d d' : Disk} {p : PathStr} {data : List UInt8} {q : Loc}

theorem node_self (h : NewFile d d' p data q) : d'.tree.node q = some (.file data) := by
  rw [h.node, if_pos rfl]

theorem lstat (h : NewFile d d' p data q) : d'.tree.resolve .lstat p = .ok q :=
  resolve_created h.place h.free h.node (fun hfollow => by cases hfollow)

theorem stat (h : NewFile d d' p data q) : d'.tree.resolve .stat p = .ok q :=
  resolve_follow_of_not_link h.lstat (by simp [isLink, h.node_self])

/-- The bulk operation overwrites the file from its beginning. -/
theorem bulk (h : NewFile d d' p data q) (bytes : List UInt8) :
    NewFile d (d'.bulk q bytes) p (bytes.take data.length ++ data.drop bytes.length) q := by
  refine ⟨h.place, h.free, fun x => ?_⟩
  unfold Disk.bulk
  split
  · next old hold =>
      rw [h.node_self] at hold
      obtain rfl : data = old := by simpa using hold
      simp only [overwrite]
      split_ifs with hx
      · rfl
      · rw [h.node, if_neg hx]
  · next hno => exact absurd h.node_self (hno data)

/-- With as many bytes it fills the file. -/
theorem fill (h : NewFile d d' p data q) (bytes : List UInt8) (hlen : bytes.length = data.length) :
    NewFile d (d'.bulk q bytes) p bytes q := by
  have hfull := h.bulk bytes
  rwa [← hlen, List.take_length, hlen, List.drop_length, List.append_nil] at hfull

end NewFile

theorem errnoOf_ne_zero (e : WalkError) : errnoOf e ≠ 0 := by cases e <;> decide

section Output

variable (env : HostEnv) (d : Disk)

/-- A temporary file is a new file at a free place, or an error. -/
theorem temporaryFile_cases (pattern parentDir : PathStr) (size : ℕ) :
    (∃ d' q, temporaryFile env d pattern parentDir size =
        (d', .ok (append parentDir (uniquePath env.digit pattern))) ∧
      NewFile d d' (append parentDir (uniquePath env.digit pattern)) (List.replicate size 0) q) ∨
    (∃ ec, ec ≠ 0 ∧ temporaryFile env d pattern parentDir size = (d, .error ec)) := by
  unfold temporaryFile
  dsimp only
  cases hp : d.tree.resolve .stat parentDir with
  | error e => exact Or.inr ⟨ENOENT, by decide, rfl⟩
  | ok m =>
      cases hr : d.tree.resolve .mkdir (append parentDir (uniquePath env.digit pattern)) with
      | error e => exact Or.inr ⟨errnoOf e, errnoOf_ne_zero e, rfl⟩
      | ok q =>
          by_cases hfree : d.tree.node q = none
          · obtain ⟨n, l, rfl, hl, hn⟩ := resolve_free_spec hr hfree
            refine Or.inl ⟨d.create (n :: l) (.file (List.replicate size 0)), n :: l, ?_, hr, hfree,
              (Disk.create_eq _ hl hn hfree).2⟩
            simp only [if_pos hfree]
          · refine Or.inr ⟨EEXIST, by decide, ?_⟩
            simp only [if_neg hfree]

/-- At a free place there is no error. -/
theorem temporaryFile_free {pattern parentDir : PathStr} {m q : Loc} (size : ℕ)
    (hm : d.tree.resolve .stat parentDir = .ok m)
    (hq : d.tree.resolve .mkdir (append parentDir (uniquePath env.digit pattern)) = .ok q)
    (hfree : d.tree.node q = none) : ∃ d', temporaryFile env d pattern parentDir size =
      (d', .ok (append parentDir (uniquePath env.digit pattern))) := by
  unfold temporaryFile
  simp only [hm, hq, if_pos hfree]
  exact ⟨_, rfl⟩

theorem mappedBuffer_new {d d' : Disk} {p : PathStr} {data : List UInt8} {q : Loc}
    (h : NewFile d d' p data q) :
    mappedBuffer d'.tree p = if data = [] then .error EINVAL else .ok (q, data) := by
  simp only [mappedBuffer, h.stat, h.node_self]

/-- Where the output of a file transfer goes. -/
def outputPath (dst : LocalPathResource) : PathStr :=
  append dst.parent.mount (uniquePath env.digit dst.name)

variable (dst : LocalPathResource)

/-- The output of a file transfer: a new file at a free place, if it is to hold something. -/
theorem outputBuffer_cases (size : ℕ) :
    (∃ d' q, size ≠ 0 ∧ outputBuffer env d false dst size = (d', .ok (outputPath env dst, q)) ∧
      NewFile d d' (outputPath env dst) (List.replicate size 0) q) ∨
    (∃ d' ec, ec ≠ 0 ∧ outputBuffer env d false dst size = (d', .error ec)) := by
  unfold outputBuffer
  obtain ⟨d', q, htmp, hnew⟩ | ⟨ec, hec, htmp⟩ := temporaryFile_cases env d
    dst.name dst.parent.mount size
  · simp only [Bool.false_eq_true, if_false, htmp, mappedBuffer_new hnew]
    by_cases hsize : size = 0
    · exact Or.inr ⟨removeTemporary d' (outputPath env dst), EINVAL, by decide,
        by simp [hsize, outputPath]⟩
    · exact Or.inl ⟨d', q, hsize, by simp [hsize, outputPath], hnew⟩
  · simp only [Bool.false_eq_true, if_false, htmp]
    exact Or.inr ⟨d, ec, hec, rfl⟩

theorem outputBuffer_free {m q : Loc} {size : ℕ} (hsize : size ≠ 0)
    (hm : d.tree.resolve .stat dst.parent.mount = .ok m)
    (hq : d.tree.resolve .mkdir (outputPath env dst) = .ok q) (hfree : d.tree.node q = none) :
    ∃ d', outputBuffer env d false dst size = (d', .ok (outputPath env dst, q)) ∧
      NewFile d d' (outputPath env dst) (List.replicate size 0) q := by
  obtain ⟨d', q', htmp, hnew⟩ | ⟨ec, -, htmp⟩ := temporaryFile_cases env d
    dst.name dst.parent.mount size
  · obtain rfl : q' = q := Except.ok.inj (hnew.place.symm.trans hq)
    refine ⟨d', ?_, hnew⟩
    simp [outputBuffer, htmp, mappedBuffer_new hnew, hsize, outputPath]
  · obtain ⟨d₁, htmp'⟩ := temporaryFile_free env d size hm hq hfree
    rw [htmp] at htmp'
    simp at htmp'

end Output

/-! ### The resources -/

theorem getResource_eq {t : FileTree} {fs : PosixFilesystem} {rinfo : LocalPathInfo}
    {r : LocalPathResource} (h : fs.getResource t rinfo = .ok r) :
    ∃ name, name ≠ [] ∧ r = localPathResource t fs name := by
  unfold PosixFilesystem.getResource at h
  dsimp only at h
  split at h
  · cases h
  · split at h
    · cases h
    · split at h
      · cases h
      · split_ifs at h <;>
          exact ⟨_, append_ne_nil (append_ne_nil (by simp) _) _, (Outcome.ok.inj h).symm⟩

/-- What cannot be found although its directory exists is missing there. -/
theorem missing_of_lstat {t : FileTree} {root l : Loc} {init : List PathStr} {n : PathStr}
    (hw : Walks t .stat maxLinks root init l)
    (hmiss : ∀ q, t.walk .lstat maxLinks root (init ++ [n]) ≠ .ok q) : t.node (n :: l) = none := by
  by_contra hne
  obtain ⟨k, -, hk⟩ := hw.walk_append
  refine hmiss (n :: l) ?_
  rw [hk .lstat [n] (by simp)]
  exact walk_lstat_entry (r := [n]) (Option.isSome_iff_ne_none.mpr hne)

/-- A path below a directory that leads nowhere ends in a proper name. -/
theorem proper_of_missing {t : FileTree} (fs : Mounted t) {p : PathStr} (hp : p ≠ [])
    (hmount : t.node fs.root = some .dir)
    (hmiss : ∀ q, t.resolve .lstat (append fs.mount (lexicalNormalize p false)) ≠ .ok q) :
    ∃ init n, normComps p = init ++ [n] ∧ Proper n := by
  obtain ⟨jump, hj⟩ := walk_eq (t := t) (m := .lstat) maxLinks
  have hmiss' : ∀ q, walkAux t .lstat jump fs.root (nsLookups p) ≠ .ok q := by
    intro q
    rw [← hj, ← resolve_nsSubpath fs .lstat hp]
    exact hmiss q
  obtain hnil | ⟨init, n, hcs⟩ := List.eq_nil_or_concat' (normComps p)
  · refine absurd ?_ (hmiss' fs.root)
    rw [nsLookups, if_pos hnil, walkAux_dot hmount, walkAux_nil]
  · refine ⟨init, n, hcs, ?_⟩
    by_contra hn
    obtain rfl : init = [] :=
      eq_nil_of_not_proper (hcs ▸ fun c hc => proper_of_mem_tail_normComps hc) hn
    have hlook : nsLookups p = [n] := by
      rw [nsLookups, if_neg (by simp [hcs]), hcs]
      rfl
    rw [hlook] at hmiss'
    obtain rfl | rfl := dots_of_not_proper (isName_of_mem_normComps (p := p) (by simp [hcs])) hn
    · exact hmiss' fs.root (by rw [walkAux_dot hmount, walkAux_nil])
    · exact hmiss' fs.root.tail (by rw [walkAux_dotDot hmount, walkAux_nil])

/-- Once the parents exist, a path that named nothing names a free place. -/
theorem newResource_free {t : FileTree} (fs : Mounted t) (rinfo : LocalPathInfo) {d : Disk}
    {dst : LocalPathResource} (hmount : t.node fs.root = some .dir)
    (hmiss : ∀ q, t.resolve .lstat
      (append fs.mount (lexicalNormalize rinfo.datapath.toList false)) ≠ .ok q)
    (h : fs.newResource ⟨t, []⟩ rinfo false = (d, .ok dst)) :
    dst = localPathResource d.tree fs.toPosixFilesystem
        (lexicalNormalize rinfo.datapath.toList false) ∧
    (∃ ls, NewDirs t d.tree ls) ∧
    ∃ q, d.tree.resolve .mkdir
        (append fs.mount (lexicalNormalize rinfo.datapath.toList false)) = .ok q ∧
      d.tree.node q = none := by
  have hp : rinfo.datapath.toList ≠ [] := by
    intro hnil
    simp [PosixFilesystem.newResource, hnil, lexicalNormalize] at h
  obtain ⟨init, n, hcs, hn⟩ := proper_of_missing fs hp hmount hmiss
  have hlook : nsLookups rinfo.datapath.toList = init ++ [n] := by
    rw [nsLookups, if_neg (by simp [hcs]), hcs]
  have hpc : parentComps rinfo.datapath.toList false = init := by
    simp [parentComps, hcs]
  have hmiss' : ∀ q, t.walk .lstat maxLinks fs.root (init ++ [n]) ≠ .ok q := by
    intro q
    rw [← hlook, ← resolve_nsSubpath fs .lstat hp]
    exact hmiss q
  have hnone : NewDirs t t [] := ⟨fun x => by simp, fun x hx => by cases hx⟩
  -- the parents are there afterwards, and the last name is free
  have hkey : dst = localPathResource d.tree fs.toPosixFilesystem
        (lexicalNormalize rinfo.datapath.toList false) ∧
      (∃ ls, NewDirs t d.tree ls) ∧
      ∃ l, Walks d.tree .stat maxLinks fs.root init l ∧ d.tree.node l = some .dir ∧
        d.tree.node (n :: l) = none := by
    obtain ⟨hnil, hres⟩ | ⟨r, hcreate, hres⟩ := newResource_spec fs [] rinfo false hp
    · rw [h] at hres
      obtain ⟨rfl, hdst⟩ := Prod.mk.inj hres
      obtain rfl : init = [] := hpc.symm.trans hnil
      exact ⟨Outcome.ok.inj hdst, ⟨[], hnone⟩, fs.root, .nil _ _, hmount,
        missing_of_lstat (.nil _ _) hmiss'⟩
    · rw [h] at hres
      obtain ⟨rfl, hdst⟩ := Prod.mk.inj hres
      split_ifs at hdst with hec
      rw [not_not] at hec
      rw [hpc] at hcreate
      refine ⟨Outcome.ok.inj hdst, ?_⟩
      obtain ⟨-, hsame, hdir⟩ | ⟨l, post, -, -, hfill⟩ := hcreate
      · obtain ⟨l, hw, hl⟩ := hdir hec
        rw [hsame]
        exact ⟨⟨[], hnone⟩, l, walk_ok_iff.mp hw, hl,
          missing_of_lstat (walk_ok_iff.mp hw) hmiss'⟩
      · obtain ⟨ls, -, -, -, hnew⟩ := hfill.created
        exact ⟨⟨ls, hnew⟩, _, hfill.reaches, hfill.isDir, hfill.empty n⟩
  obtain ⟨hdst, ⟨ls, hnew⟩, l, hw, hl, hfree⟩ := hkey
  refine ⟨hdst, ⟨ls, hnew⟩, n :: l, ?_, hfree⟩
  have hroot := hnew.keeps fs.root fs.root_isSome
  have hpath := resolve_nsSubpath (t := d.tree) ⟨fs.toPosixFilesystem, fs.root, fs.mount_eq,
    by rw [hroot]; exact fs.root_isSome, by simp [isLink, hroot, hmount]⟩ .mkdir hp
  rw [hpath, hlook]
  exact hw.mkdir_concat hl hn.2.1 hn.2.2

/-! ### Files between daemons -/

/-- A regular file on one host, and a destination on another that does not exist yet but whose
parents can be created. -/
structure RemoteFile (data : List UInt8) (datapath : String) where
  srcEnv : HostEnv
  dstEnv : HostEnv
  srcTree : FileTree
  srcFs : Mounted srcTree
  srcInfo : LocalPathInfo
  src : LocalPathResource
  srcLoc : Loc
  src_eq : srcFs.getResource srcTree srcInfo = .ok src
  src_resolves : srcTree.resolve .stat src.canonicalPath = .ok srcLoc
  src_node : srcTree.node srcLoc = some (.file data)
  src_regular : srcEnv.special srcLoc = false
  dstTree : FileTree
  dstFs : Mounted dstTree
  dstNsid : String
  mount_dir : dstTree.node dstFs.root = some .dir
  target_missing : ∀ q, dstTree.resolve .lstat
    (append dstFs.mount (lexicalNormalize datapath.toList false)) ≠ .ok q
  parents : ∃ d dst, dstFs.newResource ⟨dstTree, []⟩ ⟨dstNsid, datapath⟩ false = (d, .ok dst)

namespace RemoteFile

variable {data : List UInt8} {datapath : String} (w : RemoteFile data datapath)

/-- The file that should be there afterwards. -/
def target : PathStr := append w.dstFs.mount (lexicalNormalize datapath.toList false)

/-- The push of the file by the daemon that has it. -/
def push : Disk × Outcome TaskOutcome :=
  pushTask w.srcEnv w.dstEnv w.srcTree w.srcFs.toPosixFilesystem w.srcInfo ⟨w.dstTree, []⟩
    w.dstFs.toPosixFilesystem ⟨w.dstNsid, datapath⟩

/-- The pull of the file by the daemon that wants it. -/
def pull : Disk × Outcome TaskOutcome :=
  pullTask w.srcEnv w.dstEnv w.srcTree w.srcFs.toPosixFilesystem w.srcInfo ⟨w.dstTree, []⟩
    w.dstFs.toPosixFilesystem ⟨w.dstNsid, datapath⟩

/-- The task has finished, and the target has the contents of the source. -/
def Copied (r : Disk × Outcome TaskOutcome) : Prop :=
  ∃ d out, r = (d, .ok out) ∧ out.status = .finished ∧
    ∃ q, d.tree.resolve .lstat w.target = .ok q ∧ d.tree.node q = some (.file data)

theorem src_spec : w.src.isCollection = false ∧ w.src.name ≠ [] := by
  obtain ⟨name, hname, hsrc⟩ := getResource_eq w.src_eq
  have hres := w.src_resolves
  rw [hsrc] at hres ⊢
  refine ⟨?_, hname⟩
  show isDirectory w.srcTree (append _ name) = false
  rw [isDirectory, show w.srcTree.resolve .stat (append _ name) = .ok w.srcLoc from hres]
  simp [isDir, w.src_node]

theorem inputBuffer_src (dstName : PathStr) : inputBuffer w.srcEnv w.srcTree w.src dstName =
    if data = [] then .error EINVAL else .ok data := by
  simp only [inputBuffer, w.src_spec.1, Bool.false_eq_true, if_false, mappedBuffer, w.src_resolves,
    w.src_node]
  split_ifs <;> rfl

theorem serveStat_src : serveStat w.srcEnv w.srcTree w.srcFs.toPosixFilesystem w.srcInfo =
    .ok (false, data.length) := by
  have hst : (HostTree.mk w.srcTree w.srcEnv.special).status w.src.canonicalPath =
      .ok (.regular data) := by
    simp [HostTree.status, w.src_resolves, HostTree.statusAt, w.src_node, w.src_regular]
  simp only [serveStat, w.src_eq, packedSizeOf, w.src_spec.1, Bool.false_eq_true, if_false, hst]

/-- The destination once `new_resource` has been called. -/
theorem dst_spec : ∃ (d : Disk) (dst : LocalPathResource) (q : Loc),
    w.dstFs.newResource ⟨w.dstTree, []⟩ ⟨w.dstNsid, datapath⟩ false = (d, .ok dst) ∧
    dst.parent = w.dstFs.toPosixFilesystem ∧ dst.name = lexicalNormalize datapath.toList false ∧
    (∃ ls, NewDirs w.dstTree d.tree ls) ∧
    d.tree.resolve .stat w.dstFs.mount = .ok w.dstFs.root ∧
    d.tree.resolve .mkdir w.target = .ok q ∧ d.tree.node q = none := by
  obtain ⟨d, dst, hres⟩ := w.parents
  obtain ⟨hdst, ⟨ls, hnew⟩, q, hq, hfree⟩ :=
    newResource_free w.dstFs ⟨w.dstNsid, datapath⟩ w.mount_dir w.target_missing hres
  have hroot := hnew.keeps _ w.dstFs.root_isSome
  refine ⟨d, dst, q, hres, by rw [hdst]; rfl, by rw [hdst]; rfl, ⟨ls, hnew⟩, ?_, hq, hfree⟩
  rw [w.dstFs.mount_eq]
  exact resolve_absPath (by rw [hroot]; exact w.dstFs.root_isSome)
    (by simp [isLink, hroot, w.mount_dir])

theorem taskCopy_not_finished {ec : ErrorCode} (h : ec ≠ 0) :
    (taskCopy 0 0 ec).status ≠ .finished := by
  rw [taskCopy, transferTask_of_ne_zero 0 0 h]
  decide

section Both

variable {w} {d : Disk} {dst : LocalPathResource}
  (hnew : w.dstFs.newResource ⟨w.dstTree, []⟩ ⟨w.dstNsid, datapath⟩ false = (d, .ok dst))

include hnew

/-- A push of something: what is mapped for the output is filled with the file. -/
theorem push_eq (hdata : data ≠ []) :
    (∀ d' q, outputBuffer w.dstEnv d false dst data.length = (d', .ok (outputPath w.dstEnv dst, q)) →
      w.push = (d'.bulk q data, .ok TaskOutcome.finished)) ∧
    ∀ d' ec, outputBuffer w.dstEnv d false dst data.length = (d', .error ec) →
      w.push = (d', .ok (taskCopy 0 0 ec)) := by
  have hin := w.inputBuffer_src datapath.toList
  rw [if_neg hdata] at hin
  constructor
  · intro d' q hout
    simp only [push, pushTask, w.src_eq, hin, servePush, w.src_spec.1, hnew, acceptPushData,
      w.src_spec.2, false_and, if_false, hout, completeTransfer, Bool.false_eq_true]
    rfl
  · intro d' ec hout
    simp only [push, pushTask, w.src_eq, hin, servePush, w.src_spec.1, hnew, acceptPushData,
      w.src_spec.2, false_and, if_false, hout]
    rfl

theorem pull_eq :
    (∀ d' q, outputBuffer w.dstEnv d false dst data.length = (d', .ok (outputPath w.dstEnv dst, q)) →
      data ≠ [] → w.pull = (d'.bulk q data, .ok TaskOutcome.finished)) ∧
    ∀ d' ec, outputBuffer w.dstEnv d false dst data.length = (d', .error ec) →
      w.pull = (d', .ok (taskCopy 0 0 ec)) := by
  constructor
  · intro d' q hout hdata
    have hin := w.inputBuffer_src dst.name
    rw [if_neg hdata] at hin
    simp only [pull, pullTask, hnew, pullTransfer, w.serveStat_src, hout, servePull, w.src_eq, hin,
      completeTransfer, Bool.false_eq_true, if_false]
    rfl
  · intro d' ec hout
    simp only [pull, pullTask, hnew, pullTransfer, w.serveStat_src, hout]

omit hnew in
/-- A transfer that follows its output: with a free place the file is copied, and a finished one
has put it where the output path leads. -/
theorem copied_of_free {r : Disk × Outcome TaskOutcome} {q : Loc}
    (hr : ∀ d' q, outputBuffer w.dstEnv d false dst data.length =
      (d', .ok (outputPath w.dstEnv dst, q)) → r = (d'.bulk q data, .ok TaskOutcome.finished))
    (hdata : data ≠ []) (hm : d.tree.resolve .stat dst.parent.mount = .ok w.dstFs.root)
    (hpath : outputPath w.dstEnv dst = w.target)
    (hq : d.tree.resolve .mkdir w.target = .ok q) (hfree : d.tree.node q = none) : w.Copied r := by
  have hlen : data.length ≠ 0 := by simpa using hdata
  obtain ⟨d', hout, hfile⟩ := outputBuffer_free w.dstEnv d dst hlen hm
    (by rw [hpath]; exact hq) hfree
  have hfull := hfile.fill data (by simp)
  rw [hpath] at hfull
  exact ⟨_, _, hr d' q hout, rfl, q, hfull.lstat, hfull.node_self⟩

omit hnew in
theorem new_of_copied {r : Disk × Outcome TaskOutcome}
    (hr : ∀ d' q, outputBuffer w.dstEnv d false dst data.length =
      (d', .ok (outputPath w.dstEnv dst, q)) → r = (d'.bulk q data, .ok TaskOutcome.finished))
    (hr' : ∀ d' ec, outputBuffer w.dstEnv d false dst data.length = (d', .error ec) →
      r = (d', .ok (taskCopy 0 0 ec))) (h : w.Copied r) :
    ∃ d' q q', NewFile d d' (outputPath w.dstEnv dst) data q ∧
      d'.tree.resolve .lstat w.target = .ok q' ∧ d'.tree.node q' = some (.file data) := by
  obtain ⟨d₁, out, heq, hfin, q', hq', hnode⟩ := h
  obtain ⟨d', q, -, hout, hfile⟩ | ⟨d', ec, hec, hout⟩ :=
    outputBuffer_cases w.dstEnv d dst data.length
  · rw [hr d' q hout] at heq
    obtain ⟨rfl, -⟩ := Prod.mk.inj heq
    exact ⟨_, q, q', hfile.fill data (by simp), hq', hnode⟩
  · rw [hr' d' ec hout] at heq
    obtain ⟨-, hout'⟩ := Prod.mk.inj heq
    rw [← Outcome.ok.inj hout'] at hfin
    exact absurd hfin (taskCopy_not_finished hec)

end Both

/-- Nothing is pushed or pulled of an empty file. -/
theorem not_copied_of_empty (hdata : data = []) : ¬ w.Copied w.push ∧ ¬ w.Copied w.pull := by
  obtain ⟨d, dst, -, hnew, -⟩ := w.dst_spec
  constructor
  · rintro ⟨d', out, heq, hfin, -⟩
    have hin := w.inputBuffer_src datapath.toList
    rw [if_pos hdata] at hin
    simp only [push, pushTask, w.src_eq, hin] at heq
    obtain ⟨-, hout⟩ := Prod.mk.inj heq
    rw [← Outcome.ok.inj hout] at hfin
    exact taskCopy_not_finished (by decide) hfin
  · rintro ⟨d', out, heq, hfin, -⟩
    obtain ⟨d₁, q, hsize, -⟩ | ⟨d₁, ec, hec, hout⟩ :=
      outputBuffer_cases w.dstEnv d dst data.length
    · exact hsize (by rw [hdata]; rfl)
    · rw [(pull_eq hnew).2 d₁ ec hout] at heq
      obtain ⟨-, hout'⟩ := Prod.mk.inj heq
      rw [← Outcome.ok.inj hout'] at hfin
      exact taskCopy_not_finished hec hfin

theorem uniquePath_of_notMem {digit : ℕ → Fin 16} {s : PathStr} (h : '%' ∉ s) :
    uniquePath digit s = s := by
  unfold uniquePath
  apply List.ext_getElem
  · simp
  · intro i hi hi'
    rw [List.getElem_mapIdx, if_neg]
    intro heq
    exact h (heq ▸ List.getElem_mem hi')

/-- A file that is not empty gets to a name without `'%'`. -/
theorem copied_of_no_percent (hdata : data ≠ [])
    (hpct : '%' ∉ lexicalNormalize datapath.toList false) :
    w.Copied w.push ∧ w.Copied w.pull := by
  obtain ⟨d, dst, q, hnew, hparent, hname, -, hm, hq, hfree⟩ := w.dst_spec
  have hpath : outputPath w.dstEnv dst = w.target := by
    rw [outputPath, hparent, hname, uniquePath_of_notMem hpct]
    rfl
  rw [← hparent] at hm
  exact ⟨copied_of_free (push_eq hnew hdata).1 hdata hm hpath hq hfree,
    copied_of_free (fun d' q h => (pull_eq hnew).1 d' q h hdata) hdata hm hpath hq hfree⟩

end RemoteFile

/-! ### Names with a `'%'` -/

/-- What the digit `0` makes of a character. -/
def zeroPercent (c : Char) : Char := if c = '%' then '0' else c

theorem uniquePath_zero (s : PathStr) : uniquePath (fun _ => 0) s = s.map zeroPercent := by
  unfold uniquePath
  apply List.ext_getElem
  · simp
  · intro i hi hi'
    rw [List.getElem_mapIdx, List.getElem_map]
    rfl

theorem zeroPercent_eq_iff {c x : Char} (hx : x ≠ '0') (hx' : x ≠ '%') :
    zeroPercent c = x ↔ c = x := by
  unfold zeroPercent
  split_ifs with h
  · subst h
    exact ⟨fun h => absurd h.symm hx, fun h => absurd h.symm hx'⟩
  · rfl

theorem map_zeroPercent_eq_iff {n m : PathStr} (hm : ∀ x ∈ m, x ≠ '0' ∧ x ≠ '%') :
    n.map zeroPercent = m ↔ n = m := by
  induction n generalizing m with
  | nil => simp
  | cons c n ih =>
      cases m with
      | nil => simp
      | cons x m =>
          rw [List.map_cons, List.cons.injEq, List.cons.injEq,
            zeroPercent_eq_iff (hm x (by simp)).1 (hm x (by simp)).2,
            ih (fun y hy => hm y (by simp [hy]))]

theorem isName_zeroPercent {n : PathStr} (h : IsName n) : IsName (n.map zeroPercent) := by
  refine ⟨by simpa using h.1, fun hmem => ?_⟩
  obtain ⟨c, hc, heq⟩ := List.mem_map.mp hmem
  have hsep : c = '/' := (zeroPercent_eq_iff (by decide) (by decide)).mp heq
  rw [hsep] at hc
  exact h.2 hc

theorem proper_zeroPercent {n : PathStr} (h : Proper n) : Proper (n.map zeroPercent) := by
  have hdot : ∀ x ∈ dot, x ≠ '0' ∧ x ≠ '%' := by simp [dot]
  have hdotDot : ∀ x ∈ dotDot, x ≠ '0' ∧ x ≠ '%' := by simp [dotDot]
  refine ⟨isName_zeroPercent h.1, fun heq => h.2.1 ?_, fun heq => h.2.2 ?_⟩
  · exact (map_zeroPercent_eq_iff hdot).mp heq
  · exact (map_zeroPercent_eq_iff hdotDot).mp heq

theorem joinAbs_zeroPercent (cs : List PathStr) :
    (joinAbs cs).map zeroPercent = joinAbs (cs.map (List.map zeroPercent)) := by
  induction cs with
  | nil => rfl
  | cons c cs ih =>
      have hsep : zeroPercent '/' = '/' := by decide
      simp only [joinAbs, List.flatMap_cons, List.map_append, List.map_cons, hsep] at ih ⊢
      rw [ih]

/-- The place of a path without links, seen from the root. -/
theorem foldl_descend_cons {c : PathStr} {cs : List PathStr} (h : ∀ d ∈ cs, Proper d) :
    (c :: cs).foldl descend [] = cs.reverse ++ descend [] c := by
  have hfold : ∀ cur, cs.foldl descend cur = cs.reverse ++ cur := by
    induction cs with
    | nil => simp
    | cons d cs ih =>
        intro cur
        have hd := h d (by simp)
        rw [List.foldl_cons, ih (fun e he => h e (by simp [he])), descend, if_neg hd.2.1,
          if_neg hd.2.2]
        simp
  rw [List.foldl_cons, hfold]

/-- The digits lead somewhere else. -/
theorem foldl_descend_zeroPercent {cs : List PathStr} (hnames : ∀ c ∈ cs, IsName c)
    (htail : ∀ c ∈ cs.tail, Proper c)
    (h : (cs.map (List.map zeroPercent)).foldl descend [] = cs.foldl descend []) :
    ∀ c ∈ cs, c.map zeroPercent = c := by
  cases cs with
  | nil => exact List.forall_mem_nil _
  | cons c cs =>
      rw [List.tail_cons] at htail
      have hproper : ∀ d ∈ cs.map (List.map zeroPercent), Proper d := by
        intro d hd
        obtain ⟨e, he, rfl⟩ := List.mem_map.mp hd
        exact proper_zeroPercent (htail e he)
      rw [List.map_cons, foldl_descend_cons hproper, foldl_descend_cons htail] at h
      obtain ⟨hrest, hc⟩ := List.append_inj h (by simp)
      rw [List.reverse_inj] at hrest
      refine List.forall_mem_cons.mpr ⟨?_, fun d hd => ?_⟩
      · by_cases hprop : Proper c
        · have hprop' := proper_zeroPercent hprop
          simpa [descend, hprop.2.1, hprop.2.2, hprop'.2.1, hprop'.2.2] using hc
        · obtain rfl | rfl := dots_of_not_proper (hnames c (by simp)) hprop <;> rfl
      · obtain ⟨i, hi, rfl⟩ := List.getElem_of_mem hd
        have hi' := congrArg (fun l => l[i]?) hrest
        simpa [hi] using hi'

/-- A host whose random digits are all `0`. -/
def sampleEnv : HostEnv where
  stagingDirectory := "/tmp".toList
  digit _ := 0
  usecs := 0
  special _ := false
  entries := []
  header _ := 0
  encode _ := []
  decode _ := []
  extractor := plainExtractor

theorem empty_isLink (x : Loc) : FileTree.empty.isLink x = false := by
  unfold isLink FileTree.empty
  dsimp only
  split_ifs <;> rfl

/-- Nothing but the root is found in the empty tree. -/
theorem empty_missing {m : Mode} (hm : m.mayMiss = false) {cs : List PathStr} {n : PathStr}
    (hn : Proper n) (q : Loc) : FileTree.empty.walk m maxLinks [] (cs ++ [n]) ≠ .ok q := by
  intro h
  have hw := walk_ok_iff.mp h
  have hs := hw.isSome hm (by rw [FileTree.empty.root_dir]; rfl)
  have hq := hw.linkless empty_isLink
  rw [List.foldl_concat, descend, if_neg hn.2.1, if_neg hn.2.2] at hq
  rw [hq] at hs
  simp [FileTree.empty] at hs

/-- In the empty tree all parents can be created. -/
theorem empty_createDirectories (cs : List PathStr) (hnames : ∀ c ∈ cs, IsName c)
    (htail : ∀ c ∈ cs.tail, Proper c) :
    (createDirectories ⟨FileTree.empty, []⟩ (cs.reverse ++ [])).2 = 0 := by
  have hroot := FileTree.empty.root_dir
  obtain ⟨jump, hj⟩ := walk_eq (t := FileTree.empty) (m := .stat) maxLinks
  have hspec : CreatesMissing ⟨FileTree.empty, []⟩ [] cs
      (createDirectories ⟨FileTree.empty, []⟩ (cs.reverse ++ [])) :=
    createDirectories_spec (by rw [hroot]; rfl) (empty_isLink []) cs hnames htail
  -- the first proper name is missing
  have hgap : ∀ pre n post, cs = pre ++ n :: post → Proper n →
      FileTree.empty.walk .stat maxLinks [] pre = .ok [] →
      (createDirectories ⟨FileTree.empty, []⟩ (cs.reverse ++ [])).2 = 0 := by
    intro pre n post hcs hn hw
    obtain ⟨hno, -⟩ | ⟨l, post', -, hec, -⟩ := hspec
    · exact absurd ⟨pre, n, [], hcs, hw, hroot, hn, by simp [FileTree.empty], rfl⟩ (hno [n] post)
    · exact hec
  cases cs with
  | nil => rfl
  | cons x rest =>
      by_cases hx : Proper x
      · exact hgap [] x rest rfl hx (by rw [hj, walkAux_nil])
      · have hdots := dots_of_not_proper (hnames x (by simp)) hx
        cases rest with
        | nil =>
            rw [show [x].reverse ++ [] = [x] from rfl, createDirectories, if_pos hdots]
            rfl
        | cons y rest =>
            refine hgap [x] y rest rfl (htail y (by simp)) ?_
            rw [hj]
            obtain rfl | rfl := hdots
            · rw [walkAux_dot hroot, walkAux_nil]
            · rw [walkAux_dotDot hroot, walkAux_nil]
              rfl

theorem empty_newResource {rinfo : LocalPathInfo} (hp : rinfo.datapath.toList ≠ []) :
    ∃ d dst, (rootMount FileTree.empty).newResource ⟨FileTree.empty, []⟩ rinfo false =
      (d, .ok dst) := by
  have hns : lexicalNormalize rinfo.datapath.toList false ≠ [] := lexicalNormalize_eq_nil.not.mpr hp
  unfold PosixFilesystem.newResource
  dsimp only
  rw [if_neg hns]
  obtain ⟨-, hpar⟩ | ⟨hpc, hpar⟩ := parentPath_lexicalNormalize hp false
  · rw [if_neg (by obtain hpar | hpar := hpar <;> rw [hpar] <;> decide)]
    exact ⟨_, _, rfl⟩
  · split_ifs with hgo hec
    · rw [hpar, relElements_append_mount (rootMount FileTree.empty)
        (fun c hc => isName_of_mem_parentComps hc) hpc] at hec
      refine absurd ?_ hec
      have hok := empty_createDirectories (parentComps rinfo.datapath.toList false)
        (fun c hc => isName_of_mem_parentComps hc) (fun c hc => proper_of_mem_tail_parentComps hc)
      simpa [rootMount] using hok
    · exact ⟨_, _, rfl⟩
    · exact ⟨_, _, rfl⟩

/-- A tree with the file `/mnt/f`. -/
def sourceTree (data : List UInt8) : FileTree :=
  mntTree.add ['f'] ["mnt".toList] (.file data) (by decide) (by decide) (by decide)

/-- The namespace mounted at `/mnt`. -/
def sourceMount (data : List UInt8) : Mounted (sourceTree data) := mntMount (sourceTree data) rfl

/-- The file `/mnt/f` in its namespace. -/
def sourceInfo : LocalPathInfo := ⟨"tmp0", "f"⟩

theorem sourceTree_resolve (data : List UInt8) :
    (sourceTree data).resolve .stat (nsPath (sourceMount data) sourceInfo.datapath.toList) =
      .ok [['f'], "mnt".toList] := rfl

/-- The file `/mnt/f` on one host, and an empty file system on the other, where `new_resource` asks
for no canonical form. -/
theorem sample_exists (data : List UInt8) (datapath : String)
    (h : ∃ init n, normComps datapath.toList = init ++ [n] ∧ Proper n) :
    ∃ w : RemoteFile data datapath, w.dstTree = FileTree.empty ∧ w.dstFs.root = [] ∧
      w.dstEnv = sampleEnv := by
  obtain ⟨init, n, hcs, hn⟩ := h
  have hp : datapath.toList ≠ [] := by
    intro hnil
    rw [hnil] at hcs
    exact absurd hcs (by simp [normComps, elements])
  have hlook : nsLookups datapath.toList = init ++ [n] := by
    rw [nsLookups, if_neg (by simp [hcs]), hcs]
  have hname : sourceInfo.datapath.toList ≠ [] := by decide
  obtain ⟨src, hsrc, hres, -⟩ := getResource_of_inside (sourceMount data) hname
    (sourceTree_resolve data) rfl ⟨[['f']], rfl⟩
  refine ⟨⟨sampleEnv, sampleEnv, sourceTree data, sourceMount data, sourceInfo, src,
    [['f'], "mnt".toList], hsrc, hres, rfl, rfl, FileTree.empty, rootMount FileTree.empty, "tmp0",
    FileTree.empty.root_dir, fun q => ?_, empty_newResource hp⟩, rfl, rfl, rfl⟩
  rw [resolve_nsSubpath (rootMount FileTree.empty) .lstat hp, hlook]
  exact empty_missing rfl hn q

/-- A path below a mount at the root, in any tree. -/
theorem resolve_below_root {t t' : FileTree} {m : Mode} (fs : Mounted t) (hroot : fs.root = [])
    {cs : List PathStr} (hcs : ∀ c ∈ cs, IsName c) (hne : cs ≠ []) :
    t'.resolve m (append fs.mount (absPath cs)) = t'.walk m maxLinks [] cs := by
  have hrel := relElements_append_mount fs hcs hne
  rw [hroot, List.reverse_nil, List.nil_append] at hrel
  rw [resolve, if_neg, hrel]
  rw [fs.mount_eq]
  exact append_ne_nil (absPath_ne_nil _) _

/-- In the empty tree, the digit `0` leads a file away from a name with a `'%'`. -/
theorem newFile_not_percent {data : List UInt8} {datapath : String} {w : RemoteFile data datapath}
    (htree : w.dstTree = FileTree.empty) (hroot : w.dstFs.root = []) (henv : w.dstEnv = sampleEnv)
    (hpct : '%' ∈ lexicalNormalize datapath.toList false) {d d' : Disk} {dst : LocalPathResource}
    {ls : List Loc} {q q' : Loc} (hparent : dst.parent = w.dstFs.toPosixFilesystem)
    (hname : dst.name = lexicalNormalize datapath.toList false)
    (hdirs : NewDirs w.dstTree d.tree ls) (hfile : NewFile d d' (outputPath w.dstEnv dst) data q)
    (hq' : d'.tree.resolve .lstat w.target = .ok q') : d'.tree.node q' ≠ some (.file data) := by
  intro hnode
  have hp : datapath.toList ≠ [] := by
    intro hnil
    rw [hnil] at hpct
    exact absurd hpct (by decide)
  have hnet : datapath.toList ≠ ['/', '/'] := by
    intro hnil
    rw [hnil] at hpct
    exact absurd hpct (by decide)
  have hnames : ∀ c ∈ normComps datapath.toList, IsName c := fun c hc => isName_of_mem_normComps hc
  have hnorm := lexicalNormalize_eq hp hnet
  have hcs : normComps datapath.toList ≠ [] := by
    intro hnil
    rw [hnorm, hnil] at hpct
    exact absurd hpct (by decide)
  -- before the file there are only directories
  have hdir : ∀ x, d.tree.node x = none ∨ d.tree.node x = some .dir := by
    intro x
    rw [hdirs.node, htree]
    unfold FileTree.empty
    dsimp only
    split_ifs <;> simp
  have hlink : ∀ x, d.tree.isLink x = false := by
    intro x
    unfold isLink
    obtain hx | hx := hdir x <;> rw [hx]
  have hlink' : ∀ x, d'.tree.isLink x = false := by
    intro x
    unfold isLink
    rw [hfile.node]
    split_ifs
    · rfl
    · obtain hx | hx := hdir x <;> rw [hx]
  have heq : q' = q := by
    by_contra hne
    rw [hfile.node, if_neg hne] at hnode
    obtain hx | hx := hdir q' <;> rw [hx] at hnode <;> cases hnode
  have htarget : q' = (normComps datapath.toList).foldl descend [] := by
    rw [RemoteFile.target, hnorm, resolve_below_root w.dstFs hroot hnames hcs] at hq'
    exact (walk_ok_iff.mp hq').linkless hlink'
  have houtput : q = ((normComps datapath.toList).map (List.map zeroPercent)).foldl descend [] := by
    have hplace := hfile.place
    rw [outputPath, hparent, hname, henv, show sampleEnv.digit = fun _ => 0 from rfl,
      uniquePath_zero, hnorm, absPath, if_neg hcs, joinAbs_zeroPercent] at hplace
    have habs : ∀ cs : List PathStr, cs ≠ [] → joinAbs cs = absPath cs := fun cs h =>
      (if_neg h).symm
    rw [habs _ (by simpa using hcs), resolve_below_root w.dstFs hroot (by
      intro c hc
      obtain ⟨e, he, rfl⟩ := List.mem_map.mp hc
      exact isName_zeroPercent (hnames e he)) (by simpa using hcs)] at hplace
    exact (walk_ok_iff.mp hplace).linkless hlink
  have hsame := foldl_descend_zeroPercent hnames (fun c hc => proper_of_mem_tail_normComps hc)
    (houtput.symm.trans (heq.symm.trans htarget))
  rw [hnorm, absPath, if_neg hcs, joinAbs, List.mem_flatMap] at hpct
  obtain ⟨c, hc, hmem⟩ := hpct
  obtain h | hmem := List.mem_cons.mp hmem
  · exact absurd h (by decide)
  · rw [← hsame c hc] at hmem
    obtain ⟨x, -, hx⟩ := List.mem_map.mp hmem
    unfold zeroPercent at hx
    split_ifs at hx with hx'
    · exact absurd hx (by decide)
    · exact hx' hx

/-- With the digit `0` a file does not get to a name with a `'%'` in the empty tree. -/
theorem RemoteFile.not_copied_of_percent {data : List UInt8} {datapath : String}
    {w : RemoteFile data datapath} (htree : w.dstTree = FileTree.empty) (hroot : w.dstFs.root = [])
    (henv : w.dstEnv = sampleEnv) (hpct : '%' ∈ lexicalNormalize datapath.toList false) :
    ¬ w.Copied w.push ∧ ¬ w.Copied w.pull := by
  by_cases hdata : data = []
  · exact w.not_copied_of_empty hdata
  · obtain ⟨d, dst, -, hnew, hparent, hname, ⟨ls, hdirs⟩, -⟩ := w.dst_spec
    constructor
    · intro hcopied
      obtain ⟨d', q, q', hfile, hq', hnode⟩ :=
        RemoteFile.new_of_copied (RemoteFile.push_eq hnew hdata).1 (RemoteFile.push_eq hnew hdata).2
          hcopied
      exact newFile_not_percent htree hroot henv hpct hparent hname hdirs hfile hq' hnode
    · intro hcopied
      obtain ⟨d', q, q', hfile, hq', hnode⟩ :=
        RemoteFile.new_of_copied (fun d' q h => (RemoteFile.pull_eq hnew).1 d' q h hdata)
          (RemoteFile.pull_eq hnew).2 hcopied
      exact newFile_not_percent htree hroot henv hpct hparent hname hdirs hfile hq' hnode

/-- **Files are copied between daemons** exactly if they are not empty and the name has no `'%'`.
The destination `datapath` is one that can be missing: its last component is a proper name. -/
theorem remote_file_copied_iff (data : List UInt8) (datapath : String)
    (h : ∃ init n, normComps datapath.toList = init ++ [n] ∧ Proper n) :
    ((∀ w : RemoteFile data datapath, w.Copied w.push) ↔
      data ≠ [] ∧ '%' ∉ lexicalNormalize datapath.toList false) ∧
    ((∀ w : RemoteFile data datapath, w.Copied w.pull) ↔
      data ≠ [] ∧ '%' ∉ lexicalNormalize datapath.toList false) := by
  obtain ⟨w, htree, hroot, henv⟩ := sample_exists data datapath h
  have hfail : ¬ (data ≠ [] ∧ '%' ∉ lexicalNormalize datapath.toList false) →
      ¬ w.Copied w.push ∧ ¬ w.Copied w.pull := by
    intro hcond
    by_cases hdata : data = []
    · exact w.not_copied_of_empty hdata
    · have hpct : '%' ∈ lexicalNormalize datapath.toList false := by
        by_contra hpct
        exact hcond ⟨hdata, hpct⟩
      exact RemoteFile.not_copied_of_percent htree hroot henv hpct
  constructor
  · refine ⟨fun hall => ?_, fun hcond w' => (w'.copied_of_no_percent hcond.1 hcond.2).1⟩
    by_contra hcond
    exact (hfail hcond).1 (hall w)
  · refine ⟨fun hall => ?_, fun hcond w' => (w'.copied_of_no_percent hcond.1 hcond.2).2⟩
    by_contra hcond
    exact (hfail hcond).2 (hall w)

/-- Three bytes for a new directory. -/
theorem small_file_copied :
    ∃ w : RemoteFile [1, 2, 3] "out/f", w.Copied w.push ∧ w.Copied w.pull := by
  have h : ∃ init n, normComps ("out/f" : String).toList = init ++ [n] ∧ Proper n :=
    ⟨["out".toList], ['f'], by decide, by decide⟩
  obtain ⟨w, -⟩ := sample_exists [1, 2, 3] "out/f" h
  have hiff := remote_file_copied_iff [1, 2, 3] "out/f" h
  exact ⟨w, hiff.1.mpr ⟨by decide, by decide⟩ w, hiff.2.mpr ⟨by decide, by decide⟩ w⟩

/-- An empty file, and a file for the name `a%`. -/
theorem empty_and_percent_fail :
    (∃ w : RemoteFile [] "f", ¬ w.Copied w.push ∧ ¬ w.Copied w.pull) ∧
    ∃ w : RemoteFile [1] "a%", ¬ w.Copied w.push ∧ ¬ w.Copied w.pull := by
  constructor
  · obtain ⟨w, -⟩ := sample_exists [] "f" ⟨[], ['f'], by decide, by decide⟩
    exact ⟨w, w.not_copied_of_empty rfl⟩
  · obtain ⟨w, htree, hroot, henv⟩ :=
      sample_exists [1] "a%" ⟨[], ['a', '%'], by decide, by decide⟩
    exact ⟨w, RemoteFile.not_copied_of_percent htree hroot henv (by decide)⟩

end Norns
