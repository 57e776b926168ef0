import Norns.PosixFs

/-! # Archives

`utils::tar` packs a file or a directory into an archive, for a peer that unpacks it below a
directory of its own.  The entries of a directory are those that a `recursive_directory_iterator`
delivers, given here by their paths; libarchive appears as an archive that is the list of its
entries, and as the code that `archive_write_header` reports for each of them.

* `transform` makes the name of an entry in the archive, `extract` the path at which it is created.
* `estimateSizeOncePacked` walks over the same entries without packing them, with other questions
  in another order.  `estimate_exact_iff`: it is right unless a symbolic link leads to something
  that is neither a file nor a directory. -/

namespace Norns

open Lib Lib.PathStr Lib.FileTree

/-! ### The file system -/

/-- A tree in which some files are devices, sockets or pipes. -/
structure HostTree extends FileTree where
  special : Loc → Bool

/-- `bfs::file_type`, with the contents of a regular file. -/
inductive FileStatus where
  | notFound
  | regular (data : List UInt8)
  | directory
  | other
deriving DecidableEq, Repr

namespace HostTree

variable (t : HostTree)

/-- What `stat` reports of a location. -/
def statusAt (l : Loc) : FileStatus :=
  match t.node l with
  | some .dir => .directory
  | some (.file data) => if t.special l then .other else .regular data
  | _ => .other

/-- `bfs::status(p)`; throws unless the status is known or the file is missing. -/
def status (p : PathStr) : Except ErrorCode FileStatus :=
  match t.resolve .stat p with
  | .ok l => .ok (t.statusAt l)
  | .error .loop => .error ELOOP
  | .error _ => .ok .notFound

/-- `bfs::file_size(p, ec)`. -/
def fileSize (p : PathStr) : Except ErrorCode UInt64 :=
  match t.status p with
  | .error ec => .error ec
  | .ok .notFound => .error ENOENT
  | .ok (.regular data) => .ok (UInt64.ofNat data.length)
  | .ok _ => .error EPERM

theorem dir_of_statusAt {t : HostTree} {l : Loc} (h : t.statusAt l = .directory) :
    t.node l = some .dir := by
  unfold statusAt at h
  split at h
  · assumption
  · split_ifs at h
  · cases h

end HostTree

/-! ### Iterating over a directory -/

/-- The path of the entry `r` below the directory `base`. -/
def entryPath (base : PathStr) (r : List PathStr) : PathStr := r.foldl append base

/-- The entries that a `recursive_directory_iterator` over the directory at `l` delivers, relative
to it: each of them once, links not being followed. -/
structure Delivers (t : FileTree) (l : Loc) (rs : List (List PathStr)) : Prop where
  nodup : rs.Nodup
  mem_iff : ∀ r, r ∈ rs ↔ r ≠ [] ∧ (t.node (r.reverse ++ l)).isSome

theorem isName_of_entry {t : FileTree} {l : Loc} {r : List PathStr}
    (hs : (t.node (r.reverse ++ l)).isSome) : ∀ c ∈ r, IsName c := by
  intro c hc
  exact (proper_of_mem hs (List.mem_append_left l (List.mem_reverse.mpr hc))).1

theorem names_entryPath (base : PathStr) {r : List PathStr} (hr : ∀ c ∈ r, IsName c) :
    names (entryPath base r) = names base ++ r := by
  unfold entryPath
  induction r generalizing base with
  | nil => simp
  | cons c r ih =>
      rw [List.foldl_cons, ih _ (fun d hd => hr d (by simp [hd])), names_append,
        names_of_isName (hr c (by simp))]
      simp

theorem relElements_entryPath (base : PathStr) {r : List PathStr} (hne : r ≠ [])
    (hr : ∀ c ∈ r, IsName c) : relElements (entryPath base r) = names base ++ r := by
  have hnames := names_entryPath base hr
  obtain ⟨r, n, rfl⟩ := (List.eq_nil_or_concat' r).resolve_left hne
  have hsep : endsInSep (entryPath base (r ++ [n])) = false := by
    rw [entryPath, List.foldl_concat]
    exact endsInSep_append (hr n (by simp))
  simp [relElements, hnames, hsep]

theorem entryPath_ne_nil {base : PathStr} {r : List PathStr} (hne : r ≠ [])
    (hr : ∀ c ∈ r, IsName c) : entryPath base r ≠ [] := by
  intro hnil
  have h := relElements_entryPath base hne hr
  rw [hnil] at h
  exact hne (List.append_eq_nil_iff.mp h.symm).2

/-- The entries of a directory are looked up from the place its path leads to. -/
theorem resolve_entryPath {t : FileTree} {base : PathStr} {l : Loc}
    (h : t.resolve .stat base = .ok l) : ∃ k ≤ maxLinks, ∀ (m : Mode) (r : List PathStr), r ≠ [] →
      (∀ c ∈ r, IsName c) → t.resolve m (entryPath base r) = t.walk m k l r := by
  obtain ⟨k, hk, hwalk⟩ := (walks_names h).walk_append
  refine ⟨k, hk, fun m r hne hr => ?_⟩
  rw [resolve, if_neg (entryPath_ne_nil hne hr), relElements_entryPath base hne hr, hwalk m r hne]

/-- The path of an entry is also made from the path relative to the directory. -/
theorem append_entryPath {base : PathStr} {r : List PathStr} (hne : r ≠ [])
    (hr : ∀ c ∈ r, IsName c) : append base (entryPath [] r) = entryPath base r := by
  unfold entryPath
  induction r using List.reverseRecOn with
  | nil => exact absurd rfl hne
  | append_singleton r n ih =>
      have hn : IsName n := hr n (by simp)
      have hr' : ∀ c ∈ r, IsName c := fun c hc => hr c (List.mem_append_left _ hc)
      rw [List.foldl_concat, List.foldl_concat]
      by_cases hnil : r = []
      · rw [hnil, List.foldl_nil, List.foldl_nil, nil_append hn]
      · have hpath : r.foldl append [] ≠ [] := entryPath_ne_nil hnil hr'
        rw [append_append_name base hpath hn, ih hnil hr']

theorem entryPath_absPath {cs r : List PathStr} (hcs : ∀ c ∈ cs, IsName c)
    (hr : ∀ c ∈ r, IsName c) : entryPath (absPath cs) r = absPath (cs ++ r) := by
  unfold entryPath
  induction r generalizing cs with
  | nil => simp
  | cons c r ih =>
      have hc : IsName c := hr c (by simp)
      have hcs' : ∀ d ∈ cs ++ [c], IsName d := by
        intro d hd
        obtain hd | hd := List.mem_append.mp hd
        · exact hcs d hd
        · rw [List.mem_singleton] at hd
          exact hd ▸ hc
      rw [List.foldl_cons, append_joinAbs_name hcs hc, ih hcs' (fun d hd => hr d (by simp [hd]))]
      simp

/-! ### Packing -/

/-- `TAR_BLOCK_SIZE`. -/
def TAR_BLOCK_SIZE : UInt64 := 512

/-- What an entry of an archive holds. -/
inductive TarContent where
  | directory
  | regular (data : List UInt8)
deriving DecidableEq, Repr

/-- An entry of an archive. -/
structure TarEntry where
  pathname : PathStr
  content : TarContent
deriving DecidableEq, Repr

/-- The bytes of an entry: a block for its header, and its data in whole blocks. -/
def TarEntry.size (e : TarEntry) : ℕ :=
  match e.content with
  | .directory => 512
  | .regular data => 512 + (data.length + 511) / 512 * 512

/-- The bytes of an archive: its entries and two blocks at its end. -/
def tarSize (arc : List TarEntry) : ℕ := (arc.map TarEntry.size).sum + 1024

/-- `transform`; `bfs::relative` throws. -/
def transform (t : FileTree) (source realParent archiveParent : PathStr) :
    Except ErrorCode PathStr := do
  let normSource := lexicalNormalize source false
  let normRealParent := lexicalNormalize realParent false
  let normArchiveParent := lexicalNormalize archiveParent false
  let rel ← plainRelative t normSource normRealParent
  return append (if normArchiveParent = [] then ['/'] else normArchiveParent) rel

section Packing

-- what `archive_write_header` reports for an entry
variable (header : TarEntry → ErrorCode)

/-- `append_file` and `append_directory_header`, for an object that does not change. -/
def appendEntry (arc : List TarEntry) (e : TarEntry) : Outcome (List TarEntry) :=
  if header e ≠ 0 then .error (header e) else .ok (arc ++ [e])

variable (t : HostTree)

/-- `tar::add_file`. -/
def addFile (sourceFile archiveFile : PathStr) : Outcome (List TarEntry) :=
  if sourceFile = [] then .error EINVAL
  else
    match plainCanonical t.toFileTree sourceFile with
    | .error ec => .error ec
    | .ok sourcePath =>
        match t.status sourcePath with
        | .error ec => .thrown ec
        | .ok (.regular data) => appendEntry header [] ⟨archiveFile, .regular data⟩
        | .ok _ => .error EINVAL

/-- The body of the loop of `add_directory`. -/
def addEntry (sourcePath archiveDir : PathStr) (arc : List TarEntry) (it : PathStr) :
    Outcome (List TarEntry) :=
  match transform t.toFileTree it sourcePath archiveDir with
  | .error ec => .thrown ec
  | .ok transformedPath =>
      match t.status it with
      | .error ec => .thrown ec
      | .ok (.regular data) => appendEntry header arc ⟨transformedPath, .regular data⟩
      | .ok .directory => appendEntry header arc ⟨transformedPath, .directory⟩
      | .ok _ => .ok arc

/-- The loop of `add_directory`. -/
def addEntries (sourcePath archiveDir : PathStr) :
    List TarEntry → List (List PathStr) → Outcome (List TarEntry)
  | arc, [] => .ok arc
  | arc, r :: rs =>
      match addEntry header t sourcePath archiveDir arc (entryPath sourcePath r) with
      | .ok arc' => addEntries sourcePath archiveDir arc' rs
      | e => e

/-- `tar::add_directory`; `rs` is what the iterator delivers. -/
def addDirectory (sourceDir archiveDir : PathStr) (rs : List (List PathStr)) :
    Outcome (List TarEntry) :=
  if sourceDir = [] then .error EINVAL
  else
    match plainCanonical t.toFileTree sourceDir with
    | .error ec => .error ec
    | .ok sourcePath =>
        match t.status sourcePath with
        | .error ec => .thrown ec
        | .ok .directory =>
            match transform t.toFileTree sourcePath sourcePath archiveDir with
            | .error ec => .thrown ec
            | .ok transformedPath =>
                match appendEntry header [] ⟨transformedPath, .directory⟩ with
                | .ok arc => addEntries header t sourcePath archiveDir arc rs
                | e => e
        | .ok _ => .error EINVAL

/-- A new archive with a directory or a file. -/
def pack (source archiveName : PathStr) (rs : List (List PathStr)) : Outcome (List TarEntry) :=
  match t.status source with
  | .ok .directory => addDirectory header t source archiveName rs
  | _ => addFile header t source archiveName

end Packing

/-! ### The estimate -/

/-- `align`. -/
def align (n blockSize : UInt64) : UInt64 := n &&& ~~~(blockSize - 1)

/-- `xalign`. -/
def xalign (n blockSize : UInt64) : UInt64 :=
  if n - align n blockSize ≠ 0 then align n blockSize + blockSize else n

/-- The body of the loop of `estimate_size_once_packed`. -/
def estimateEntry (t : HostTree) (sz : UInt64) (it : PathStr) : Outcome UInt64 :=
  match t.status it with
  | .error ec => .thrown ec
  | .ok .directory => .ok (sz + TAR_BLOCK_SIZE)
  | .ok (.regular data) =>
      .ok (sz + (TAR_BLOCK_SIZE + xalign (UInt64.ofNat data.length) TAR_BLOCK_SIZE))
  | .ok _ =>
      match isSymlink t.toFileTree it with
      | .error ec => .thrown ec
      | .ok false => .ok sz
      | .ok true =>
          match t.fileSize it with
          | .error ec => .error ec
          | .ok n => .ok (sz + (TAR_BLOCK_SIZE + xalign n TAR_BLOCK_SIZE))

/-- The loop of `estimate_size_once_packed`. -/
def estimateEntries (t : HostTree) (sourcePath : PathStr) :
    UInt64 → List (List PathStr) → Outcome UInt64
  | sz, [] => .ok sz
  | sz, r :: rs =>
      match estimateEntry t sz (entryPath sourcePath r) with
      | .ok sz' => estimateEntries t sourcePath sz' rs
      | e => e

/-- `tar::estimate_size_once_packed`. -/
def estimateSizeOncePacked (t : HostTree) (sourcePath : PathStr) (rs : List (List PathStr)) :
    Outcome UInt64 :=
  match t.status sourcePath with
  | .error ec => .thrown ec
  | .ok .directory =>
      match estimateEntries t sourcePath 0 rs with
      | .ok sz => .ok (sz + TAR_BLOCK_SIZE + 2 * TAR_BLOCK_SIZE)
      | e => e
  | .ok _ =>
      match t.fileSize sourcePath with
      | .error ec => .thrown ec
      | .ok n => .ok (TAR_BLOCK_SIZE + xalign n TAR_BLOCK_SIZE + 2 * TAR_BLOCK_SIZE)

/-! ### The estimate is the size of the archive -/

/-- Clearing the bits of a mask takes away what they hold. -/
theorem and_not_eq_sub {w : ℕ} (x m : BitVec w) : x &&& ~~~m = x - (x &&& m) := by
  have hdisj : (x &&& ~~~m) &&& (x &&& m) = 0#w := by
    ext i
    cases hx : x[i] <;> simp [hx]
  have hor : (x &&& ~~~m) ||| (x &&& m) = x := by
    ext i
    cases hx : x[i] <;> simp [hx]
  have hsum := BitVec.add_eq_or_of_and_eq_zero _ _ hdisj
  rw [hor] at hsum
  rw [BitVec.eq_sub_iff_add_eq, hsum]

theorem align_eq (n : UInt64) : align n TAR_BLOCK_SIZE = n - n % TAR_BLOCK_SIZE := by
  have hmod : n.toBitVec &&& 511#64 = n.toBitVec % 512#64 := by
    apply BitVec.eq_of_toNat_eq
    simp only [BitVec.toNat_and, BitVec.toNat_umod]
    exact Nat.and_two_pow_sub_one_eq_mod n.toBitVec.toNat 9
  apply UInt64.toBitVec_inj.mp
  show n.toBitVec &&& ~~~511#64 = n.toBitVec - n.toBitVec % 512#64
  rw [and_not_eq_sub, hmod]

/-- `xalign` rounds up to whole blocks. -/
theorem xalign_ofNat (n : ℕ) :
    xalign (UInt64.ofNat n) TAR_BLOCK_SIZE = UInt64.ofNat ((n + 511) / 512 * 512) := by
  have hrest : (UInt64.ofNat n % TAR_BLOCK_SIZE).toNat = n % 2 ^ 64 % 512 := by
    rw [UInt64.toNat_mod, UInt64.toNat_ofNat']
    rfl
  have hle : UInt64.ofNat n % TAR_BLOCK_SIZE ≤ UInt64.ofNat n := by
    rw [UInt64.le_iff_toNat_le, hrest, UInt64.toNat_ofNat']
    exact Nat.mod_le _ _
  have halign : (align (UInt64.ofNat n) TAR_BLOCK_SIZE).toNat = n % 2 ^ 64 - n % 2 ^ 64 % 512 := by
    rw [align_eq, UInt64.toNat_sub_of_le _ _ hle, hrest, UInt64.toNat_ofNat']
  have hdiff : UInt64.ofNat n - align (UInt64.ofNat n) TAR_BLOCK_SIZE =
      UInt64.ofNat n % TAR_BLOCK_SIZE := by
    rw [align_eq]
    grind
  apply UInt64.toNat_inj.mp
  unfold xalign
  rw [hdiff, UInt64.toNat_ofNat']
  split_ifs with h
  · have h0 : n % 2 ^ 64 % 512 ≠ 0 := fun h0 => h (UInt64.toNat_inj.mp (by rw [hrest, h0]; rfl))
    rw [UInt64.toNat_add, halign, show TAR_BLOCK_SIZE.toNat = 512 from rfl]
    omega
  · rw [not_not] at h
    have h0 : n % 2 ^ 64 % 512 = 0 := by rw [← hrest, h]; rfl
    rw [UInt64.toNat_ofNat']
    omega

/-- The statuses that make an entry of an archive. -/
def FileStatus.isPacked : FileStatus → Bool
  | .regular _ => true
  | .directory => true
  | _ => false

/-- The bytes of the entry that a status makes. -/
def FileStatus.packedSize : FileStatus → ℕ
  | .regular data => 512 + (data.length + 511) / 512 * 512
  | .directory => 512
  | _ => 0

/-- The bytes that packing spends on a path. -/
def HostTree.packedSize (t : HostTree) (p : PathStr) : ℕ :=
  match t.status p with
  | .ok st => st.packedSize
  | .error _ => 0

theorem HostTree.packedSize_of_status {t : HostTree} {p : PathStr} {st : FileStatus}
    (h : t.status p = .ok st) : t.packedSize p = st.packedSize := by
  rw [HostTree.packedSize, h]

/-- The bytes of the entries of an archive. -/
def entriesSize (arc : List TarEntry) : ℕ := (arc.map TarEntry.size).sum

theorem appendEntry_size {header : TarEntry → ErrorCode} {arc arc' : List TarEntry} {e : TarEntry}
    (h : appendEntry header arc e = .ok arc') : entriesSize arc' = entriesSize arc + e.size := by
  unfold appendEntry at h
  split_ifs at h
  obtain rfl := Outcome.ok.inj h
  simp [entriesSize]

theorem addEntry_size {header : TarEntry → ErrorCode} {t : HostTree} {sp d it : PathStr}
    {arc arc' : List TarEntry} (h : addEntry header t sp d arc it = .ok arc') :
    entriesSize arc' = entriesSize arc + t.packedSize it := by
  unfold addEntry at h
  cases htr : transform t.toFileTree it sp d with
  | error ec => simp [htr] at h
  | ok path =>
      cases hst : t.status it with
      | error ec => simp [htr, hst] at h
      | ok st =>
          simp only [htr, hst] at h
          rw [t.packedSize_of_status hst]
          cases st with
          | regular data => exact appendEntry_size h
          | directory => exact appendEntry_size h
          | notFound =>
              obtain rfl := Outcome.ok.inj h
              rfl
          | other =>
              obtain rfl := Outcome.ok.inj h
              rfl

theorem addEntries_size {header : TarEntry → ErrorCode} {t : HostTree} {sp d : PathStr}
    {rs : List (List PathStr)} {arc arc' : List TarEntry}
    (h : addEntries header t sp d arc rs = .ok arc') :
    entriesSize arc' = entriesSize arc + (rs.map fun r => t.packedSize (entryPath sp r)).sum := by
  induction rs generalizing arc with
  | nil =>
      obtain rfl := Outcome.ok.inj h
      simp
  | cons r rs ih =>
      rw [addEntries] at h
      cases hr : addEntry header t sp d arc (entryPath sp r) with
      | ok arc₁ =>
          simp only [hr] at h
          rw [ih h, addEntry_size hr, List.map_cons, List.sum_cons]
          omega
      | error ec => simp [hr] at h
      | thrown ec => simp [hr] at h

/-- The estimate of one entry: a link has to lead to something that is packed. -/
theorem estimateEntry_ok_iff {t : HostTree} {it : PathStr} {link : Bool} (sz sz' : UInt64)
    (hlink : isSymlink t.toFileTree it = .ok link)
    (hst : link = false → ∃ st, t.status it = .ok st) :
    estimateEntry t sz it = .ok sz' ↔
      (link = true → ∃ st, t.status it = .ok st ∧ st.isPacked = true) ∧
      sz + UInt64.ofNat (t.packedSize it) = sz' := by
  unfold estimateEntry
  cases hs : t.status it with
  | error ec =>
      cases link with
      | false =>
          obtain ⟨st, hst⟩ := hst rfl
          rw [hs] at hst
          cases hst
      | true => simp
  | ok st =>
      rw [t.packedSize_of_status hs]
      cases st with
      | directory =>
          rw [show UInt64.ofNat FileStatus.directory.packedSize = TAR_BLOCK_SIZE from rfl]
          simp [FileStatus.isPacked]
      | regular data =>
          have hsize : UInt64.ofNat (FileStatus.regular data).packedSize = TAR_BLOCK_SIZE +
              xalign (UInt64.ofNat data.length) TAR_BLOCK_SIZE := by
            rw [xalign_ofNat]
            exact UInt64.ofNat_add _ _
          rw [hsize]
          simp [FileStatus.isPacked]
      | notFound =>
          rw [show UInt64.ofNat FileStatus.notFound.packedSize = 0 from rfl]
          cases link <;> simp [hlink, HostTree.fileSize, hs, FileStatus.isPacked]
      | other =>
          rw [show UInt64.ofNat FileStatus.other.packedSize = 0 from rfl]
          cases link <;> simp [hlink, HostTree.fileSize, hs, FileStatus.isPacked]

/-! ### The entries of a directory -/

section Entries

variable {t : HostTree} {base : PathStr} {l : Loc} {r : List PathStr}

/-- An entry of the directory is seen as what stands at its location. -/
theorem isSymlink_entry (hbase : t.resolve .stat base = .ok l) (hne : r ≠ [])
    (hs : (t.node (r.reverse ++ l)).isSome) :
    isSymlink t.toFileTree (entryPath base r) = .ok (t.isLink (r.reverse ++ l)) := by
  obtain ⟨k, -, hk⟩ := resolve_entryPath hbase
  rw [isSymlink, hk .lstat r hne (isName_of_entry hs), walk_lstat_entry hs]

theorem status_entry (hbase : t.resolve .stat base = .ok l) (hne : r ≠ [])
    (hs : (t.node (r.reverse ++ l)).isSome) (hlink : t.isLink (r.reverse ++ l) = false) :
    t.status (entryPath base r) = .ok (t.statusAt (r.reverse ++ l)) := by
  obtain ⟨k, -, hk⟩ := resolve_entryPath hbase
  have hw := (walk_ok_iff.mp (walk_lstat_entry (k := k) hs)).stat_of_lstat hlink
  rw [HostTree.status, hk .stat r hne (isName_of_entry hs), walk_ok_iff.mpr hw]

/-- The canonical path of the directory leaves at least as many links to follow. -/
theorem status_entry_canonical {st : FileStatus} (hbase : t.resolve .stat base = .ok l)
    (hne : r ≠ []) (hs : (t.node (r.reverse ++ l)).isSome)
    (h : t.status (entryPath base r) = .ok st) (hst : st ≠ .notFound) :
    t.status (entryPath (absPath l.reverse) r) = .ok st := by
  have hnames := isName_of_entry hs
  obtain ⟨hl, hl'⟩ := resolve_stat_spec hbase
  obtain ⟨k, hk, hres⟩ := resolve_entryPath hbase
  have hcanon : t.resolve .stat (entryPath (absPath l.reverse) r) = t.walk .stat maxLinks l r := by
    rw [entryPath_absPath (fun c hc => isName_of_mem_reverse hl hc) hnames,
      resolve_absPath_append hl hl' hnames]
  unfold HostTree.status at h ⊢
  rw [hres .stat r hne hnames] at h
  rw [hcanon]
  cases hw : t.walk .stat k l r with
  | ok x =>
      rw [hw] at h
      rw [walk_ok_iff.mpr ((walk_ok_iff.mp hw).more_links hk)]
      exact h
  | error e =>
      rw [hw] at h
      cases e <;> cases h <;> exact absurd rfl hst

/-- The links among the entries lead to files and directories. -/
def LinksLead (t : HostTree) (base : PathStr) (l : Loc) (rs : List (List PathStr)) : Prop :=
  ∀ r ∈ rs, t.isLink (r.reverse ++ l) = true →
    ∃ st, t.status (entryPath base r) = .ok st ∧ st.isPacked = true

theorem estimateEntries_ok_iff {rs : List (List PathStr)} (sz sz' : UInt64)
    (hbase : t.resolve .stat base = .ok l)
    (hrs : ∀ r ∈ rs, r ≠ [] ∧ (t.node (r.reverse ++ l)).isSome) :
    estimateEntries t base sz rs = .ok sz' ↔ LinksLead t base l rs ∧
      sz + UInt64.ofNat (rs.map fun r => t.packedSize (entryPath base r)).sum = sz' := by
  induction rs generalizing sz with
  | nil => simp [estimateEntries, LinksLead]
  | cons r rs ih =>
      obtain ⟨hne, hs⟩ := hrs r (by simp)
      have hentry := fun sz₁ => estimateEntry_ok_iff sz sz₁
        (isSymlink_entry hbase hne hs) (fun hlink => ⟨_, status_entry hbase hne hs hlink⟩)
      have hlead : LinksLead t base l (r :: rs) ↔ (t.isLink (r.reverse ++ l) = true →
          ∃ st, t.status (entryPath base r) = .ok st ∧ st.isPacked = true) ∧
          LinksLead t base l rs := List.forall_mem_cons
      rw [estimateEntries, hlead]
      cases he : estimateEntry t sz (entryPath base r) with
      | ok sz₁ =>
          obtain ⟨hr, rfl⟩ := (hentry sz₁).mp he
          simp only
          rw [ih _ (fun r' h' => hrs r' (by simp [h'])), and_iff_right hr, List.map_cons,
            List.sum_cons, UInt64.ofNat_add, UInt64.add_assoc]
      | error ec =>
          have hno := (hentry (sz + UInt64.ofNat (t.packedSize (entryPath base r)))).not.mp
            (by rw [he]; simp)
          simp only [reduceCtorEq, false_iff]
          exact fun hall => hno ⟨hall.1.1, rfl⟩
      | thrown ec =>
          have hno := (hentry (sz + UInt64.ofNat (t.packedSize (entryPath base r)))).not.mp
            (by rw [he]; simp)
          simp only [reduceCtorEq, false_iff]
          exact fun hall => hno ⟨hall.1.1, rfl⟩

/-- Where the links lead, both traversals count the same bytes. -/
theorem packedSize_canonical (hbase : t.resolve .stat base = .ok l) (hne : r ≠ [])
    (hs : (t.node (r.reverse ++ l)).isSome)
    (hlead : t.isLink (r.reverse ++ l) = true →
      ∃ st, t.status (entryPath base r) = .ok st ∧ st.isPacked = true) :
    t.packedSize (entryPath (absPath l.reverse) r) = t.packedSize (entryPath base r) := by
  cases hlink : t.isLink (r.reverse ++ l) with
  | false =>
      obtain ⟨hl, hl'⟩ := resolve_stat_spec hbase
      have hcanon : t.resolve .stat (absPath l.reverse) = .ok l := resolve_absPath hl hl'
      rw [t.packedSize_of_status (status_entry hbase hne hs hlink),
        t.packedSize_of_status (status_entry hcanon hne hs hlink)]
  | true =>
      obtain ⟨st, hst, hpacked⟩ := hlead hlink
      have hst' : st ≠ .notFound := by
        rintro rfl
        cases hpacked
      rw [t.packedSize_of_status hst,
        t.packedSize_of_status (status_entry_canonical hbase hne hs hst hst')]

end Entries

/-- What is packed of an existing source. -/
theorem pack_ok_size {header : TarEntry → ErrorCode} {t : HostTree} {source archiveName : PathStr}
    {l : Loc} {rs : List (List PathStr)} {arc : List TarEntry}
    (hl : t.resolve .stat source = .ok l) (h : pack header t source archiveName rs = .ok arc) :
    (t.statusAt l = .directory ∧ tarSize arc = 512 +
      (rs.map fun r => t.packedSize (entryPath (absPath l.reverse) r)).sum + 1024) ∨
    ∃ data, t.statusAt l = .regular data ∧
      tarSize arc = 512 + (data.length + 511) / 512 * 512 + 1024 := by
  obtain ⟨hs, hlink⟩ := resolve_stat_spec hl
  have hsource : source ≠ [] := by
    rintro rfl
    cases hl
  have hcanon : plainCanonical t.toFileTree source = .ok (absPath l.reverse) := by
    rw [plainCanonical, hl]
  have hst : t.status source = .ok (t.statusAt l) := by rw [HostTree.status, hl]
  have hst' : t.status (absPath l.reverse) = .ok (t.statusAt l) := by
    rw [HostTree.status, resolve_absPath hs hlink]
  unfold pack at h
  cases hk : t.statusAt l with
  | directory =>
      left
      refine ⟨rfl, ?_⟩
      simp only [hst, hk, addDirectory, hsource, if_false, hcanon, hst'] at h
      cases htr : transform t.toFileTree (absPath l.reverse) (absPath l.reverse) archiveName with
      | error ec => simp [htr] at h
      | ok path =>
          simp only [htr] at h
          cases happ : appendEntry header [] ⟨path, .directory⟩ with
          | ok arc₀ =>
              simp only [happ] at h
              have hroot := appendEntry_size happ
              have hall := addEntries_size h
              show entriesSize arc + 1024 = _
              rw [hall, hroot]
              rfl
          | error ec => simp [happ] at h
          | thrown ec => simp [happ] at h
  | regular data =>
      right
      refine ⟨data, rfl, ?_⟩
      simp only [hst, hk, addFile, hsource, if_false, hcanon, hst'] at h
      show entriesSize arc + 1024 = _
      rw [appendEntry_size h]
      simp [entriesSize, TarEntry.size]
  | notFound => simp [hst, hk, addFile, hsource, hcanon, hst'] at h
  | other => simp [hst, hk, addFile, hsource, hcanon, hst'] at h

theorem Delivers.nil_of_file {t : FileTree} {l : Loc} {rs : List (List PathStr)}
    (h : Delivers t l rs) (hl : t.node l ≠ some .dir) : rs = [] := by
  apply List.eq_nil_iff_forall_not_mem.mpr
  intro r hr
  obtain ⟨hne, hs⟩ := (h.mem_iff r).mp hr
  refine hl (dir_of_inside (List.suffix_append _ _) (fun heq => hne ?_) hs)
  simpa using heq

/-- **The estimate is the size of the archive** exactly if every symbolic link below the source
leads to a file or a directory: the other links are left out of the archive, but the estimate
fails on them. -/
theorem estimate_exact_iff (header : TarEntry → ErrorCode) (t : HostTree)
    (source archiveName : PathStr) (l : Loc) (rs : List (List PathStr)) (arc : List TarEntry)
    (hl : t.resolve .stat source = .ok l) (hrs : Delivers t.toFileTree l rs)
    (hpack : pack header t source archiveName rs = .ok arc) (hsize : tarSize arc < 2 ^ 64) :
    (∃ sz, estimateSizeOncePacked t source rs = .ok sz ∧ sz.toNat = tarSize arc) ↔
      LinksLead t source l rs := by
  have hst : t.status source = .ok (t.statusAt l) := by rw [HostTree.status, hl]
  have hentry : ∀ r ∈ rs, r ≠ [] ∧ (t.node (r.reverse ++ l)).isSome := fun r hr =>
    (hrs.mem_iff r).mp hr
  obtain ⟨hdir, hsz⟩ | ⟨data, hfile, hsz⟩ := pack_ok_size hl hpack
  · have hest := fun sz => estimateEntries_ok_iff 0 sz hl hentry
    simp only [estimateSizeOncePacked, hst, hdir]
    constructor
    · rintro ⟨sz, hsz', -⟩
      cases he : estimateEntries t source 0 rs with
      | ok sz₁ => exact ((hest sz₁).mp he).1
      | error ec => simp [he] at hsz'
      | thrown ec => simp [he] at hsz'
    · intro hlead
      have hsum : (rs.map fun r => t.packedSize (entryPath (absPath l.reverse) r)).sum =
          (rs.map fun r => t.packedSize (entryPath source r)).sum := by
        congr 1
        apply List.map_congr_left
        intro r hr
        exact packedSize_canonical hl (hentry r hr).1 (hentry r hr).2 (hlead r hr)
      rw [(hest _).mpr ⟨hlead, rfl⟩]
      refine ⟨_, rfl, ?_⟩
      rw [hsz, hsum] at hsize ⊢
      rw [UInt64.zero_add, UInt64.toNat_add, UInt64.toNat_add, UInt64.toNat_ofNat',
        show (TAR_BLOCK_SIZE).toNat = 512 from rfl, show (2 * TAR_BLOCK_SIZE).toNat = 1024 from rfl]
      omega
  · have hnil : rs = [] := by
      apply hrs.nil_of_file
      intro hd
      simp [HostTree.statusAt, hd] at hfile
    subst hnil
    refine iff_of_true ?_ (List.forall_mem_nil _)
    simp only [estimateSizeOncePacked, hst, hfile, HostTree.fileSize]
    refine ⟨_, rfl, ?_⟩
    rw [hsz] at hsize ⊢
    rw [xalign_ofNat, UInt64.toNat_add, UInt64.toNat_add, UInt64.toNat_ofNat',
      show (TAR_BLOCK_SIZE).toNat = 512 from rfl, show (2 * TAR_BLOCK_SIZE).toNat = 1024 from rfl]
    omega

/-- A directory `/d` with one entry `/d/x`. -/
def oneEntryTree (nd : Node) : HostTree where
  toFileTree := ((empty.add ['d'] [] .dir empty.root_dir (by decide) (by decide)).add
    ['x'] [['d']] nd (by decide) (by decide) (by decide))
  special _ := false

theorem oneEntryTree_delivers (nd : Node) :
    Delivers (oneEntryTree nd).toFileTree [['d']] [[['x']]] := by
  refine ⟨by simp, fun r => ?_⟩
  obtain rfl | ⟨r, n, rfl⟩ := List.eq_nil_or_concat' r
  · simp
  · obtain rfl | ⟨r, n', rfl⟩ := List.eq_nil_or_concat' r
    · simp [oneEntryTree, FileTree.add, FileTree.empty]
    · have hlen : r ++ [n', n] ≠ [['x']] := fun h => by simpa using congrArg List.length h
      simp [oneEntryTree, FileTree.add, FileTree.empty, hlen]

/-- A directory with a file of 600 bytes takes five blocks and an end of two. -/
theorem small_directory_estimate :
    ∃ sz, estimateSizeOncePacked (oneEntryTree (.file (List.replicate 600 0))) "/d".toList
      [[['x']]] = .ok sz ∧ sz.toNat = 3072 := by
  have hpack : ∃ arc, pack (fun _ => 0) (oneEntryTree (.file (List.replicate 600 0)))
      "/d".toList "/out".toList [[['x']]] = .ok arc ∧ tarSize arc = 3072 :=
    ⟨[⟨"/out/.".toList, .directory⟩, ⟨"/out/x".toList, .regular (List.replicate 600 0)⟩],
      by decide +kernel, by decide +kernel⟩
  obtain ⟨arc, hpack, hsize⟩ := hpack
  rw [← hsize]
  apply (estimate_exact_iff _ _ _ _ [['d']] _ _ (by decide +kernel) (oneEntryTree_delivers _)
    hpack (by rw [hsize]; decide)).mpr
  intro r hr hlink
  obtain rfl := List.mem_singleton.mp hr
  exact absurd hlink (by decide)

/-- A directory with a link to nothing is packed, but has no estimate. -/
theorem dangling_link_not_estimated :
    (oneEntryTree (.link "gone".toList)).resolve .stat "/d".toList = .ok [['d']] ∧
    Delivers (oneEntryTree (.link "gone".toList)).toFileTree [['d']] [[['x']]] ∧
    pack (fun _ => 0) (oneEntryTree (.link "gone".toList)) "/d".toList "/out".toList [[['x']]] =
      .ok [⟨"/out/.".toList, .directory⟩] ∧
    estimateSizeOncePacked (oneEntryTree (.link "gone".toList)) "/d".toList [[['x']]] =
      .error ENOENT :=
  ⟨by decide +kernel, oneEntryTree_delivers _, by decide +kernel, by decide +kernel⟩

end Norns
