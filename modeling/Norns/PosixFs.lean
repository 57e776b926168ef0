import Norns.Types
import Norns.PathNormalize

/-! # The POSIX backend: reading and removing

`storage::posix_filesystem` (`backends/posix-fs.cpp`) and the resource it hands out
(`local-path-impl.cpp`), over a file-system tree.  A backend is built by `backend_factory` from
the *canonical* form of the mount path, so a `Mounted` backend knows the location its mount
stands for.

* `getResource` canonicalises `mount / lexical_normalize(datapath)`, writes the result relative
  to the mount and refuses it if that takes a `".."`.  `getResource_confined_iff` says when it
  succeeds exactly for the targets inside the mount.
* `remove` has no such check.  `remove_confined_iff` says exactly which requests leave
  everything outside the mount, and the mount itself, in place, and `remove_named_iff` which ones
  remove the entry that the data path names and nothing else.

Of Boost.Filesystem the model has `canonical`, `weakly_canonical`, `relative` and `remove_all`.
The canonical form of an existing file is the absolute path of its location, but for a path with a
root name: at the mount `/` a subpath `/x` makes `//x`, and `"//x"` stays what it is.  How a link is
read that stands on such a path, or whose text has a root name, is left to the system here, and the
results do not depend on it (`LinkFree`, `PlainWay`).  The working directory is the root, where
`daemonize` goes. -/

namespace Norns

open Lib Lib.PathStr Lib.FileTree

/-- The result of an operation that reports through an `std::error_code&`; `thrown` is a
`filesystem_error` of one of the throwing overloads. -/
inductive Outcome (α : Type) where
  | ok (a : α)
  | error (ec : ErrorCode)
  | thrown (ec : ErrorCode)
deriving DecidableEq, Repr

/-- `errno` of a failed name resolution. -/
def errnoOf : WalkError → ErrorCode
  | .notFound => ENOENT
  | .notDir => ENOTDIR
  | .loop => ELOOP

/-! ### The operations of Boost.Filesystem -/

/-- `bfs::canonical(p, ec)` of an absolute path without a root name; a missing component and a
component below a file are both reported as `ENOENT`. -/
def plainCanonical (t : FileTree) (p : PathStr) : Except ErrorCode PathStr :=
  match t.resolve .stat p with
  | .ok l => .ok (absPath l.reverse)
  | .error .loop => .error ELOOP
  | .error _ => .error ENOENT

/-- `bfs::canonical(p, ec)`; a root name stays. -/
def canonical (t : FileTree) (p : PathStr) : Except ErrorCode PathStr :=
  let source := absolute p
  match t.resolve .stat source with
  | .ok l =>
      .ok (if hasRootName source && (t.linksOf source).isEmpty then undotted source
        else absPath l.reverse)
  | .error .loop => .error ELOOP
  | .error _ => .error ENOENT

/-- `bfs::is_directory(p)`. -/
def isDirectory (t : FileTree) (p : PathStr) : Bool :=
  match t.resolve .stat p with
  | .ok l => t.isDir l
  | .error _ => false

/-- `bfs::is_symlink(p)`; throws unless the status is known or the file is missing. -/
def isSymlink (t : FileTree) (p : PathStr) : Except ErrorCode Bool :=
  match t.resolve .lstat p with
  | .ok l => .ok (t.isLink l)
  | .error .loop => .error ELOOP
  | .error _ => .ok false

/-- The loop of `bfs::weakly_canonical`: the longest existing head is canonicalised, the rest
(`tail`) is kept. -/
def weaklyCanonicalAux (t : FileTree) : List PathStr → List PathStr → Except ErrorCode PathStr
  | [], tail => .ok (absPath tail)
  | c :: rhead, tail =>
      match t.walk .stat maxLinks [] (c :: rhead).reverse with
      | .ok l => .ok (absPath (l.reverse ++ tail))
      | .error .loop => .error ELOOP
      | .error _ => weaklyCanonicalAux t rhead (c :: tail)

/-- `bfs::weakly_canonical(p)` of an absolute path without a root name. -/
def plainWeaklyCanonical (t : FileTree) (p : PathStr) : Except ErrorCode PathStr :=
  weaklyCanonicalAux t (relElements p).reverse []

/-- `bfs::weakly_canonical(p)`; of what exists it is the canonical form. -/
def weaklyCanonical (t : FileTree) (p : PathStr) : Except ErrorCode PathStr :=
  match t.resolve .stat p with
  | .ok _ => canonical t p
  | .error _ => plainWeaklyCanonical t p

/-- `bfs::relative(p, base)` of absolute paths without a root name. -/
def plainRelative (t : FileTree) (p base : PathStr) : Except ErrorCode PathStr := do
  let p' ← plainWeaklyCanonical t p
  let base' ← plainWeaklyCanonical t base
  return lexicallyRelative p' base'

/-- `bfs::relative(p, base)`; nothing is relative to a path with another root. -/
def relative (t : FileTree) (p base : PathStr) : Except ErrorCode PathStr := do
  let p' ← weaklyCanonical t p
  let base' ← weaklyCanonical t base
  return lexicallyRelative p' base'

/-- `bfs::remove_all(p, ec)`: links are removed, not followed.  The root directory cannot be
removed, but what is below it can. -/
def removeAll (t : FileTree) (p : PathStr) : FileTree × Outcome Unit :=
  match t.resolve .lstat p with
  | .ok l => (t.removeTree l, if l = [] then .error EBUSY else .ok ())
  | .error .loop => (t, .error ELOOP)
  | .error _ => (t, .ok ())

/-! ### The backend -/

/-- `data::local_path_info`. -/
structure LocalPathInfo where
  nsid : String
  datapath : String
deriving DecidableEq, Repr

/-- `storage::posix_filesystem`. -/
structure PosixFilesystem where
  nsid : String
  track : Bool
  mount : PathStr
  quota : UInt32
deriving DecidableEq, Repr

/-- A backend whose mount is the canonical path of a location of the tree. -/
structure Mounted (t : FileTree) extends PosixFilesystem where
  root : Loc
  mount_eq : mount = absPath root.reverse
  root_isSome : (t.node root).isSome
  root_not_link : t.isLink root = false

/-- The namespace mounted at the root. -/
def rootMount (t : FileTree) : Mounted t :=
  ⟨⟨"tmp0", false, ['/'], 0⟩, [], rfl, by rw [t.root_dir]; rfl, by simp [isLink, t.root_dir]⟩

/-- A tree with the directory `/mnt`. -/
def mntTree : FileTree := empty.add "mnt".toList [] .dir empty.root_dir (by decide) (by decide)

theorem mntTree_dir : mntTree.node ["mnt".toList] = some .dir := rfl

/-- The namespace mounted at `/mnt`. -/
def mntMount (t : FileTree) (h : t.node ["mnt".toList] = some .dir) : Mounted t :=
  ⟨⟨"tmp0", false, "/mnt".toList, 0⟩, ["mnt".toList], by decide, by rw [h]; rfl,
    by rw [isLink, h]⟩

/-- `data::local_path_resource`. -/
structure LocalPathResource where
  parent : PosixFilesystem
  name : PathStr
  canonicalPath : PathStr
  isCollection : Bool
deriving DecidableEq, Repr

theorem walk_stat_spec {t : FileTree} {k : ℕ} {cur l : Loc} {cs : List PathStr}
    (h : t.walk .stat k cur cs = .ok l) (hcur : (t.node cur).isSome)
    (hlink : t.isLink cur = false) : (t.node l).isSome ∧ t.isLink l = false :=
  ⟨(walk_ok_iff.mp h).isSome rfl hcur, (walk_ok_iff.mp h).not_link rfl hlink⟩

theorem resolve_stat_spec {t : FileTree} {p : PathStr} {l : Loc}
    (h : t.resolve .stat p = .ok l) : (t.node l).isSome ∧ t.isLink l = false := by
  unfold resolve at h
  split_ifs at h
  exact walk_stat_spec h (by rw [t.root_dir]; rfl) (by simp [isLink, t.root_dir])

/-- `backend_factory::create` for a POSIX backend; `none` is the `invalid_argument` thrown for a
mount point that cannot be canonicalised. -/
def backendFactoryCreate (t : FileTree) (nsid : String) (track : Bool) (mount : PathStr)
    (quota : UInt32) : Option (Mounted t) :=
  match h : t.resolve .stat mount with
  | .ok l => some ⟨⟨nsid, track, absPath l.reverse, quota⟩, l, rfl, (resolve_stat_spec h).1,
      (resolve_stat_spec h).2⟩
  | .error _ => none

/-- The constructor of `local_path_resource`. -/
def localPathResource (t : FileTree) (parent : PosixFilesystem) (name : PathStr) :
    LocalPathResource :=
  { parent, name, canonicalPath := append parent.mount name,
    isCollection := isDirectory t (append parent.mount name) }

/-- `::contains`. -/
def contains (p1 p2 : PathStr) : Bool := (elements p1).any (fun c => equiv c p2)

namespace PosixFilesystem

/-- `posix_filesystem::get_resource`. -/
def getResource (t : FileTree) (fs : PosixFilesystem) (rinfo : LocalPathInfo) :
    Outcome LocalPathResource :=
  let nsSubpath := lexicalNormalize rinfo.datapath.toList false
  if nsSubpath = [] then .error ENOENT
  else
    match canonical t (append fs.mount nsSubpath) with
    | .error ec => .error ec
    | .ok canonicalPath =>
        match relative t canonicalPath fs.mount with
        | .error ec => .thrown ec
        | .ok rel =>
            let nsAbsSubpath := append (append ['/'] rel)
              (if isDirectory t canonicalPath then ['/'] else [])
            if contains nsAbsSubpath dotDot then .error ENOENT
            else .ok (localPathResource t fs nsAbsSubpath)

/-- `posix_filesystem::remove`. -/
def remove (t : FileTree) (fs : PosixFilesystem) (rinfo : LocalPathInfo) :
    FileTree × Outcome Unit :=
  let nsSubpath := lexicalNormalize rinfo.datapath.toList false
  if nsSubpath = [] then (t, .error ENOENT)
  else
    let p := append fs.mount nsSubpath
    match isSymlink t p with
    | .error ec => (t, .thrown ec)
    | .ok false =>
        match canonical t p with
        | .error ec => (t, .error ec)
        | .ok canonicalPath => removeAll t canonicalPath
    | .ok true =>
        match t.resolve .stat p with
        | .error e => (t, .error (errnoOf e))
        | .ok _ => removeAll t p

end PosixFilesystem

/-! ### Paths below the mount -/

theorem lookups_absPath {cs : List PathStr} (h : ∀ c ∈ cs, IsName c) :
    lookups (absPath cs) = if cs = [] then [dot] else cs := by
  split_ifs with hcs
  · subst hcs
    decide
  · rw [absPath, if_neg hcs, lookups, names_joinAbs h, endsInSep_joinAbs h]
    simp

/-- The components looked up below the mount. -/
def nsLookups (p : PathStr) : List PathStr := if normComps p = [] then [dot] else normComps p

/-- A normalised data path is looked up from the mount, component by component. -/
theorem resolve_nsSubpath {t : FileTree} (fs : Mounted t) (m : Mode) {p : PathStr} (hp : p ≠ []) :
    t.resolve m (append fs.mount (lexicalNormalize p false)) =
      t.walk m maxLinks fs.root (nsLookups p) := by
  have hshape : ∃ s, lexicalNormalize p false = '/' :: s ∧ lookups ('/' :: s) = nsLookups p := by
    by_cases hnet : p = ['/', '/']
    · subst hnet
      exact ⟨['/', '/'], by decide, by decide⟩
    · have hnames : ∀ c ∈ normComps p, IsName c := fun c hc => isName_of_mem_normComps hc
      have hslash : ∃ s, absPath (normComps p) = '/' :: s := by
        unfold absPath
        split_ifs with hnil
        · exact ⟨[], rfl⟩
        · obtain ⟨c, cs, hc⟩ := List.exists_cons_of_ne_nil hnil
          exact ⟨c ++ joinAbs cs, by rw [hc]; rfl⟩
      obtain ⟨s, hs⟩ := hslash
      exact ⟨s, by rw [lexicalNormalize_eq hp hnet, hs], by rw [← hs, lookups_absPath hnames]; rfl⟩
  obtain ⟨s, hs, hl⟩ := hshape
  rw [hs, fs.mount_eq, resolve_append fs.root_isSome fs.root_not_link, hl]

/-- The path that `get_resource` and `remove` look up. -/
def nsPath {t : FileTree} (fs : Mounted t) (datapath : PathStr) : PathStr :=
  append fs.mount (lexicalNormalize datapath false)

/-- No link is followed on the way that a path leads. -/
def LinkFree (t : FileTree) (p : PathStr) : Prop := t.linksOf p = []

/-- Neither a path nor the text of a link that is followed on its way has a root name. -/
def PlainWay (t : FileTree) (p : PathStr) : Prop :=
  hasRootName p = false ∧ ∀ text ∈ t.linksOf p, hasRootName text = false

/-- The path starts at the root, and has a root name only if the root is the mount. -/
theorem nsPath_cases {t : FileTree} (fs : Mounted t) {p : PathStr} (hp : p ≠ []) :
    (∃ s, nsPath fs p = '/' :: s ∧ hasRootName ('/' :: s) = false) ∨
    fs.root = [] ∧ (nsPath fs p = ['/', '/'] ∨ ∃ n cs, normComps p = n :: cs ∧
      nsPath fs p = '/' :: '/' :: (n ++ joinAbs cs)) := by
  have hslash : ∃ s, lexicalNormalize p false = '/' :: s := by
    by_cases hnet : p = ['/', '/']
    · subst hnet
      exact ⟨['/', '/'], by decide⟩
    · rw [lexicalNormalize_eq hp hnet, absPath]
      split_ifs with hnil
      · exact ⟨[], rfl⟩
      · obtain ⟨c, cs, hc⟩ := List.exists_cons_of_ne_nil hnil
        exact ⟨c ++ joinAbs cs, by rw [hc]; rfl⟩
  obtain ⟨s, hs⟩ := hslash
  have happ : nsPath fs p = fs.mount ++ '/' :: s := by
    rw [nsPath, hs]
    rfl
  by_cases hroot : fs.root = []
  · have hmount : fs.mount = ['/'] := by
      rw [fs.mount_eq, hroot]
      rfl
    by_cases hnet : p = ['/', '/']
    · subst hnet
      refine .inl ⟨"///".toList, ?_, by decide⟩
      rw [nsPath, hmount]
      decide
    · refine .inr ⟨hroot, ?_⟩
      rw [happ, hmount, ← hs, lexicalNormalize_eq hp hnet]
      cases hcomps : normComps p with
      | nil => exact .inl rfl
      | cons n cs => exact .inr ⟨n, cs, rfl, rfl⟩
  · obtain ⟨n, cs, hn⟩ := List.exists_cons_of_ne_nil (List.reverse_ne_nil_iff.mpr hroot)
    have hname : IsName n := isName_of_mem_reverse fs.root_isSome (by rw [hn]; simp)
    have hmount : fs.mount = joinAbs (n :: cs) := by
      rw [fs.mount_eq, hn]
      rfl
    rw [happ, hmount]
    exact .inl ⟨_, rfl, hasRootName_joinAbs hname _⟩

theorem nsLookups_ne_nil (p : PathStr) : nsLookups p ≠ [] := by
  unfold nsLookups
  split_ifs with h
  · simp
  · exact h

/-! ### Canonical forms -/

/-- The canonical form of a path that leads somewhere. -/
theorem plainWeaklyCanonical_of_resolve {t : FileTree} {p : PathStr} {l : Loc}
    (h : t.resolve .stat p = .ok l) : plainWeaklyCanonical t p = .ok (absPath l.reverse) := by
  unfold resolve at h
  split_ifs at h
  unfold plainWeaklyCanonical
  cases hrev : (relElements p).reverse with
  | nil =>
      obtain ⟨jump, hj⟩ := walk_eq (t := t) (m := .stat) maxLinks
      rw [List.reverse_eq_nil_iff.mp hrev, hj, walkAux_nil] at h
      obtain rfl := Except.ok.inj h
      rfl
  | cons c rhead =>
      rw [weaklyCanonicalAux, ← hrev, List.reverse_reverse, h]
      simp

/-- The canonical form of a path without a root name that leads somewhere. -/
theorem canonical_of_plain {t : FileTree} {s : PathStr} {l : Loc}
    (hplain : hasRootName ('/' :: s) = false) (h : t.resolve .stat ('/' :: s) = .ok l) :
    canonical t ('/' :: s) = .ok (absPath l.reverse) := by
  simp only [canonical, absolute_of_isAbsolute (isAbsolute_of_plain hplain), h, hplain,
    Bool.false_and, Bool.false_eq_true, if_false]

theorem weaklyCanonical_of_resolve {t : FileTree} {p : PathStr} {l : Loc}
    (h : t.resolve .stat p = .ok l) : weaklyCanonical t p = canonical t p := by
  rw [weaklyCanonical, h]

/-- The path of a location is its canonical form. -/
theorem weaklyCanonical_absPath {t : FileTree} {l : Loc} (hs : (t.node l).isSome)
    (hl : t.isLink l = false) :
    weaklyCanonical t (absPath l.reverse) = .ok (absPath l.reverse) := by
  have hres := resolve_absPath (m := .stat) hs hl
  rw [weaklyCanonical_of_resolve hres]
  cases hrev : l.reverse with
  | nil =>
      rw [hrev] at hres
      obtain rfl : [] = l := Except.ok.inj hres
      rfl
  | cons n cs =>
      have hn : IsName n := isName_of_mem_reverse hs (by rw [hrev]; simp)
      have hplain : hasRootName ('/' :: (n ++ joinAbs cs)) = false := by
        have h : hasRootName (joinAbs (n :: cs) ++ []) = false := hasRootName_joinAbs hn []
        rwa [List.append_nil] at h
      rw [hrev] at hres
      have hcanon := canonical_of_plain hplain hres
      rwa [hrev] at hcanon

/-- The relative path of two locations that exist. -/
theorem lexicallyRelative_of_isSome {t : FileTree} {l r : Loc} (hl : (t.node l).isSome)
    (hr : (t.node r).isSome) : lexicallyRelative (absPath l.reverse) (absPath r.reverse) =
      (relativeComps (stripCommon l.reverse r.reverse)).foldl append [] :=
  lexicallyRelative_absPath (fun _ hc => isName_of_mem_reverse hl hc)
    (fun _ hc => isName_of_mem_reverse hr hc)

/-- `relative()` is computed from the locations that the two paths lead to. -/
theorem plainRelative_of_resolve {t : FileTree} {p base : PathStr} {l r : Loc}
    (hp : t.resolve .stat p = .ok l) (hbase : t.resolve .stat base = .ok r) :
    plainRelative t p base =
      .ok ((relativeComps (stripCommon l.reverse r.reverse)).foldl append []) := by
  have hl : (t.node l).isSome := (walks_names hp).isSome rfl (by rw [t.root_dir]; rfl)
  have hr : (t.node r).isSome := (walks_names hbase).isSome rfl (by rw [t.root_dir]; rfl)
  unfold plainRelative
  rw [plainWeaklyCanonical_of_resolve hp, plainWeaklyCanonical_of_resolve hbase]
  simp only [bind, Except.bind, pure, Except.pure]
  rw [lexicallyRelative_of_isSome hl hr]

/-! ### Canonical forms below the mount -/

section rootNames

variable {t : FileTree} {l : Loc}

/-- A path with a network root, as `canonical` reads it. -/
theorem absolute_network_cases {n : PathStr} {cs : List PathStr} (hn : IsName n)
    (hcs : ∀ c ∈ cs, Proper c) {p : PathStr} (hp : p = '/' :: '/' :: (n ++ joinAbs cs)) :
    hasRootName (absolute p) = true ∧ isAbsolute (absolute p) = true ∧
    undotted (absolute p) = absolute p ∧ relElements p = n :: cs ∧
    relElements (absolute p) = n :: cs ++ if isAbsolute p then [] else [dot] := by
  have hnames : ∀ c ∈ n :: cs, IsName c :=
    List.forall_mem_cons.mpr ⟨hn, fun c hc => (hcs c hc).1⟩
  have hjoin : p = '/' :: joinAbs (n :: cs) := hp
  have hrel : relElements p = n :: cs := by
    rw [hjoin, relElements_sep (by simp [joinAbs]), relElements_joinAbs hnames]
  by_cases habs : isAbsolute p = true
  · rw [absolute_of_isAbsolute habs, if_pos habs, List.append_nil]
    subst hp
    exact ⟨hasRootName_network hn _, habs, undotted_network hn hcs, hrel, hrel⟩
  · -- the network root is all there is
    cases cs with
    | cons c cs =>
        rw [hp] at habs
        exact absurd (isAbsolute_network_cons hn c cs) habs
    | nil =>
        have hsource : absolute p = '/' :: '/' :: (n ++ ['/']) := by
          have h : absolute ('/' :: '/' :: (n ++ joinAbs [])) = _ := absolute_network hn
          rw [← hp, if_neg habs] at h
          simpa [hp, joinAbs] using h
        have hslash : isAbsolute ('/' :: '/' :: (n ++ ['/'])) = true := by
          obtain ⟨a, n', rfl, ha⟩ := exists_cons_of_isName hn
          cases n' <;> simp [isAbsolute]
        have hsep : relElements ('/' :: '/' :: (n ++ ['/'])) = [n] ++ [dot] := by
          have h : relElements (joinAbs [n] ++ ['/']) = [n] ++ lookups ['/'] :=
            relElements_joinAbs_append [] (by simpa using hn) (by simp)
          rw [← relElements_sep (by simp [joinAbs]), show lookups ['/'] = [dot] from rfl] at h
          simpa [joinAbs] using h
        rw [hsource, if_neg habs]
        exact ⟨hasRootName_network hn _, hslash, undotted_network_sep hn, hrel, hsep⟩

/-- What `canonical` makes of a path with a root name that needs no links: it leads to the same
place, and nothing is relative to it. -/
structure KeepsRootName (t : FileTree) (c : PathStr) (l : Loc) : Prop where
  stat : t.resolve .stat c = .ok l
  lstat : t.resolve .lstat c = .ok l
  relative : relative t c ['/'] = .ok []

/-- What cannot be found has no canonical form. -/
theorem canonical_nsPath_of_error (fs : Mounted t) {p : PathStr} (hp : p ≠ []) {e : WalkError}
    (h : t.resolve .stat (nsPath fs p) = .error e) :
    canonical t (nsPath fs p) = .error (if e = .loop then ELOOP else ENOENT) := by
  have hsource : t.resolve .stat (absolute (nsPath fs p)) = .error e := by
    obtain ⟨s, hs, hplain⟩ | ⟨-, hnet | ⟨n, cs, hcomps, hnet⟩⟩ := nsPath_cases fs hp
    · rwa [hs, absolute_of_isAbsolute (isAbsolute_of_plain hplain), ← hs]
    · rw [hnet] at h
      cases h
    · have hn : IsName n := isName_of_mem_normComps (p := p) (by simp [hcomps])
      have hcs : ∀ c ∈ cs, Proper c := fun c hc =>
        proper_of_mem_tail_normComps (p := p) (by simpa [hcomps] using hc)
      obtain ⟨-, -, -, hrel, hrel'⟩ := absolute_network_cases hn hcs hnet
      rw [resolve_of_relElements hrel (by simp)] at h
      rw [resolve_of_relElements hrel' (by simp)]
      exact walk_append_error h _
  rw [canonical, hsource]
  cases e <;> rfl

theorem keepsRootName {source : PathStr} (hname : hasRootName source = true)
    (habs : isAbsolute source = true) (hundot : undotted source = source)
    (h : t.resolve .stat source = .ok l) (hlinks : t.linksOf source = []) :
    KeepsRootName t source l := by
  have hcanon : canonical t source = .ok source := by
    simp [canonical, absolute_of_isAbsolute habs, h, hname, hlinks, hundot]
  refine ⟨h, ?_, ?_⟩
  · rw [← h]
    unfold resolve
    split_ifs
    · rfl
    · have hwalk : t.walk .lstat maxLinks [] (relElements source) =
          t.walk .stat maxLinks [] (relElements source) :=
        walk_of_followed_nil (show Mode.lstat.mayMiss = Mode.stat.mayMiss from rfl) hlinks
      exact hwalk
  · have hroot : weaklyCanonical t ['/'] = .ok ['/'] := rfl
    rw [relative, weaklyCanonical_of_resolve h, hcanon, hroot]
    exact congrArg Except.ok (lexicallyRelative_root_of_hasRootName hname)

/-- What can be found: its canonical form is the path of its location, or keeps the root name, or
there is none, since a separator has come after the name of a file. -/
theorem canonical_nsPath_of_ok (fs : Mounted t) {p : PathStr} (hp : p ≠ [])
    (h : t.resolve .stat (nsPath fs p) = .ok l) :
    (canonical t (nsPath fs p) = .ok (absPath l.reverse) ∧
      (isAbsolute (nsPath fs p) = true ∨ t.isDir l = true) ∧
      (hasRootName (nsPath fs p) = true → LinkFree t (nsPath fs p) → l = [])) ∨
    fs.root = [] ∧ hasRootName (nsPath fs p) = true ∧
      ((∃ c, canonical t (nsPath fs p) = .ok c ∧ KeepsRootName t c l ∧
          (isAbsolute (nsPath fs p) = true ∨ t.isDir l = true)) ∨
        canonical t (nsPath fs p) = .error ENOENT ∧ isAbsolute (nsPath fs p) = false ∧
          t.isDir l = false) := by
  obtain ⟨s, hs, hplain⟩ | ⟨hroot, hnet | ⟨n, cs, hcomps, hnet⟩⟩ := nsPath_cases fs hp
  · rw [hs] at h ⊢
    refine .inl ⟨canonical_of_plain hplain h, .inl (isAbsolute_of_plain hplain), fun hname => ?_⟩
    rw [hplain] at hname
    cases hname
  · -- only the root
    rw [hnet] at h ⊢
    obtain rfl : [] = l := Except.ok.inj h
    have hcanon : canonical t ['/', '/'] = .ok ['/'] := rfl
    exact .inl ⟨hcanon, .inr (by simp [isDir, t.root_dir]), fun _ _ => rfl⟩
  have hn : IsName n := isName_of_mem_normComps (p := p) (by simp [hcomps])
  have hcs : ∀ c ∈ cs, Proper c := fun c hc =>
    proper_of_mem_tail_normComps (p := p) (by simpa [hcomps] using hc)
  obtain ⟨hname, habs', hundot, hrel, hrel'⟩ := absolute_network_cases hn hcs hnet
  have hname' : hasRootName (nsPath fs p) = true := by
    rw [hnet]
    exact hasRootName_network hn _
  have hwalk : t.walk .stat maxLinks [] (n :: cs) = .ok l := by
    rw [← h, resolve_of_relElements hrel (by simp)]
  have hfree : t.linksOf (absolute (nsPath fs p)) = [] ↔ LinkFree t (nsPath fs p) := by
    rw [LinkFree, linksOf, linksOf, hrel, hrel']
    split_ifs
    · rw [List.append_nil]
    · exact followed_concat_dot
  by_cases hdone : isAbsolute (nsPath fs p) = true ∨ t.isDir l = true
  · have hsource : t.resolve .stat (absolute (nsPath fs p)) = .ok l := by
      rw [resolve_of_relElements hrel' (by simp)]
      split_ifs with habs
      · rwa [List.append_nil]
      · rw [walk_concat_dot hwalk, if_pos (hdone.resolve_left habs)]
    by_cases hlinks : LinkFree t (nsPath fs p)
    · have hcanon : canonical t (nsPath fs p) = .ok (absolute (nsPath fs p)) := by
        simp [canonical, hsource, hname, hfree.mpr hlinks, hundot]
      exact .inr ⟨hroot, hname', .inl ⟨_, hcanon, keepsRootName hname habs' hundot hsource
        (hfree.mpr hlinks), hdone⟩⟩
    · refine .inl ⟨?_, hdone, fun _ hlinks' => absurd hlinks' hlinks⟩
      simp [canonical, hsource, hfree, hlinks]
  · obtain ⟨hslash, hfile⟩ := not_or.mp hdone
    have hsource : t.resolve .stat (absolute (nsPath fs p)) = .error .notDir := by
      rw [resolve_of_relElements hrel' (by simp), if_neg hslash, walk_concat_dot hwalk,
        if_neg hfile]
    exact .inr ⟨hroot, hname', .inr ⟨by rw [canonical, hsource], by simpa using hslash,
      by simpa using hfile⟩⟩

end rootNames

/-! ### Inputs are confined -/

/-- The name `get_resource` gives to a target: its components relative to the mount, with a
trailing separator for a directory. -/
def nsAbsSubpath (comps : List PathStr) (dir : Bool) : PathStr :=
  joinAbs comps ++ if dir then ['/'] else []

theorem append_nsAbsSubpath {comps : List PathStr} (h : ∀ c ∈ comps, IsName c) (hne : comps ≠ [])
    (dir : Bool) : append (append ['/'] (comps.foldl append [])) (if dir then ['/'] else []) =
      nsAbsSubpath comps dir := by
  rw [append_root_foldl h hne]
  cases dir <;> simp [append, nsAbsSubpath]

theorem lookups_nsAbsSubpath {comps : List PathStr} (h : ∀ c ∈ comps, IsName c) (dir : Bool) :
    lookups (nsAbsSubpath comps dir) = comps ++ if dir then [dot] else [] := by
  cases dir with
  | false => simp [nsAbsSubpath, lookups, names_joinAbs h, endsInSep_joinAbs h]
  | true =>
      have hn := names_joinAbs_append [] h
      rw [names_nil, List.append_nil] at hn
      simp [nsAbsSubpath, lookups, hn, endsInSep]

theorem contains_nsAbsSubpath {comps : List PathStr} (h : ∀ c ∈ comps, IsName c)
    (hne : comps ≠ []) (dir : Bool) :
    contains (nsAbsSubpath comps dir) dotDot = true ↔ dotDot ∈ comps := by
  obtain ⟨n, cs, rfl⟩ := List.exists_cons_of_ne_nil hne
  have hel : elements (nsAbsSubpath (n :: cs) dir) =
      ['/'] :: ((n :: cs) ++ if dir then [dot] else []) := by
    rw [nsAbsSubpath, elements_joinAbs_append _ _ (h n (by simp))]
    cases dir with
    | false => simp [relElements_joinAbs h]
    | true =>
        rw [if_pos rfl, relElements_joinAbs_append [] h (by simp)]
        rfl
  have heq : ∀ c ∈ (n :: cs), (equiv c dotDot = true ↔ c = dotDot) := by
    intro c hc
    have hdotDot : elements dotDot = [dotDot] := by decide
    rw [equiv, elements_of_isName (h c hc), decide_eq_true_eq, hdotDot, List.cons.injEq]
    simp
  have hdot : equiv dot dotDot = false := by decide
  have hroot : equiv ['/'] dotDot = false := by decide
  rw [contains, hel, List.any_cons, hroot, Bool.false_or, List.any_append, Bool.or_eq_true,
    List.any_eq_true]
  constructor
  · rintro (⟨c, hc, hcd⟩ | hd)
    · exact (heq c hc).mp hcd ▸ hc
    · cases dir <;> simp [hdot] at hd
  · intro hmem
    exact Or.inl ⟨dotDot, hmem, (heq _ hmem).mpr rfl⟩

/-- `get_resource` when the canonical form is the path of a location. -/
theorem getResource_of_canonical {t : FileTree} (fs : Mounted t) {rinfo : LocalPathInfo} {l : Loc}
    (hp : rinfo.datapath.toList ≠ []) (hs : (t.node l).isSome) (hl : t.isLink l = false)
    (hcan : canonical t (nsPath fs rinfo.datapath.toList) = .ok (absPath l.reverse)) :
    fs.getResource t rinfo =
      let comps := relativeComps (stripCommon l.reverse fs.root.reverse)
      if dotDot ∈ comps then .error ENOENT
      else .ok (localPathResource t fs.toPosixFilesystem (nsAbsSubpath comps (t.isDir l))) := by
  have hnames : ∀ c ∈ relativeComps (stripCommon l.reverse fs.root.reverse), IsName c :=
    fun c hc => isName_of_mem_relativeComps (fun d hd => isName_of_mem_reverse hs hd) hc
  have hne := relativeComps_ne_nil (stripCommon l.reverse fs.root.reverse)
  have hrel : relative t (absPath l.reverse) fs.mount =
      .ok ((relativeComps (stripCommon l.reverse fs.root.reverse)).foldl append []) := by
    rw [relative, fs.mount_eq, weaklyCanonical_absPath hs hl,
      weaklyCanonical_absPath fs.root_isSome fs.root_not_link]
    exact congrArg Except.ok (lexicallyRelative_of_isSome hs fs.root_isSome)
  have hdir : isDirectory t (absPath l.reverse) = t.isDir l := by
    rw [isDirectory, resolve_absPath hs hl]
  unfold nsPath at hcan
  unfold PosixFilesystem.getResource
  simp only [lexicalNormalize_eq_nil, hp, if_false, hcan, hrel, hdir,
    append_nsAbsSubpath hnames hne, contains_nsAbsSubpath hnames hne]

/-- `get_resource` when the canonical form keeps a root name: whatever the target, the resource is
the root directory. -/
theorem getResource_of_keepsRootName {t : FileTree} {fs : Mounted t} {rinfo : LocalPathInfo}
    {l : Loc} {c : PathStr} (hp : rinfo.datapath.toList ≠ []) (hroot : fs.root = [])
    (hcan : canonical t (nsPath fs rinfo.datapath.toList) = .ok c) (h : KeepsRootName t c l) :
    ∃ r, fs.getResource t rinfo = .ok r ∧ t.resolve .stat r.canonicalPath = .ok [] ∧
      dotDot ∉ names r.name ∧ r.isCollection = true := by
  have hmount : fs.mount = ['/'] := by
    rw [fs.mount_eq, hroot]
    rfl
  have hrel : relative t c fs.mount = .ok [] := by
    rw [hmount]
    exact h.relative
  refine ⟨localPathResource t fs.toPosixFilesystem (append ['/'] (if t.isDir l then ['/'] else [])),
    ?_, ?_⟩
  · have hdir : isDirectory t c = t.isDir l := by
      rw [isDirectory, h.stat]
    have hdots : ∀ b : Bool, contains (append ['/'] (if b then ['/'] else [])) dotDot = false := by
      decide
    unfold nsPath at hcan
    unfold PosixFilesystem.getResource
    simp only [lexicalNormalize_eq_nil, hp, if_false, hcan, hrel, hdir,
      show append ['/'] [] = ['/'] from rfl, hdots, Bool.false_eq_true]
  · have hdir : t.isDir [] = true := by simp [isDir, t.root_dir]
    simp only [localPathResource, hmount]
    cases t.isDir l with
    | true =>
        have hres : t.resolve .stat "///".toList = .ok [] := rfl
        exact ⟨hres, by decide, by
          rw [isDirectory, show append ['/'] (append ['/'] (if true then ['/'] else [])) =
            "///".toList from rfl, hres]
          exact hdir⟩
    | false =>
        have hres : t.resolve .stat "//".toList = .ok [] := rfl
        exact ⟨hres, by decide, by
          rw [isDirectory, show append ['/'] (append ['/'] (if false then ['/'] else [])) =
            "//".toList from rfl, hres]
          exact hdir⟩

/-- The resource of a target inside the mount resolves to the target. -/
theorem localPathResource_resolve {t : FileTree} (fs : Mounted t) {l : Loc} {a : List PathStr}
    (hs : (t.node l).isSome) (hl : t.isLink l = false) (hdir : t.node fs.root = some .dir)
    (ha : l.reverse = fs.root.reverse ++ a) :
    t.resolve .stat (append fs.mount (nsAbsSubpath (if a = [] then [dot] else a) (t.isDir l))) =
      .ok l := by
  obtain ⟨jump, hj⟩ := walk_eq (t := t) (m := .stat) maxLinks
  have hloc : l = a.reverse ++ fs.root := by
    rw [← List.reverse_reverse l, ha, List.reverse_append, List.reverse_reverse]
  have hnames : ∀ c ∈ (if a = [] then [dot] else a), IsName c := by
    split_ifs with hnil
    · simp only [List.mem_singleton, forall_eq]
      decide
    · exact fun c hc => isName_of_mem_reverse hs (by rw [ha]; exact List.mem_append_right _ hc)
  -- walking down to the target, then `"."` if it is a directory
  have hlast : t.walk .stat maxLinks l (if t.isDir l then [dot] else []) = .ok l := by
    split_ifs with hd
    · rw [hj, walkAux_dot (by simpa [isDir] using hd), walkAux_nil]
    · rw [hj, walkAux_nil]
  have hdown : t.walk .stat maxLinks fs.root
      ((if a = [] then [dot] else a) ++ if t.isDir l then [dot] else []) = .ok l := by
    by_cases hnil : a = []
    · rw [if_pos hnil, hj, List.singleton_append, walkAux_dot hdir, ← hj]
      rw [hnil] at hloc
      simpa [hloc] using hlast
    · rw [if_neg hnil, walk_descend (by rw [← hloc]; exact hs) (by rw [← hloc]; exact hl), ← hloc,
        hlast]
  have hslash : ∃ s, nsAbsSubpath (if a = [] then [dot] else a) (t.isDir l) = '/' :: s := by
    obtain ⟨c, cs, hc⟩ := List.exists_cons_of_ne_nil
      (show (if a = [] then [dot] else a) ≠ [] by split_ifs with hnil <;> simp [hnil])
    rw [hc]
    exact ⟨_, rfl⟩
  obtain ⟨s, hs'⟩ := hslash
  rw [fs.mount_eq, hs', resolve_append fs.root_isSome fs.root_not_link, ← hs',
    lookups_nsAbsSubpath hnames, hdown]

theorem reverse_prefix_of_inside {m l : Loc} (h : inside m l) :
    ∃ a, l.reverse = m.reverse ++ a := by
  obtain ⟨b, rfl⟩ := h
  exact ⟨b.reverse, List.reverse_append⟩

theorem dotDot_notMem_of_isSome {t : FileTree} {l : Loc} {a : List PathStr}
    (hs : (t.node l).isSome) (ha : ∀ c ∈ a, c ∈ l) :
    dotDot ∉ if a = [] then [dot] else a := by
  split_ifs
  · decide
  · exact fun hmem => (proper_of_mem hs (ha _ hmem)).2.2 rfl

/-- `get_resource` for a target inside the mount. -/
theorem getResource_of_inside {t : FileTree} (fs : Mounted t) {rinfo : LocalPathInfo} {l : Loc}
    (hp : rinfo.datapath.toList ≠ [])
    (h : t.resolve .stat (nsPath fs rinfo.datapath.toList) = .ok l)
    (hcan : canonical t (nsPath fs rinfo.datapath.toList) = .ok (absPath l.reverse))
    (hin : inside fs.root l) :
    ∃ r, fs.getResource t rinfo = .ok r ∧ t.resolve .stat r.canonicalPath = .ok l ∧
      dotDot ∉ names r.name ∧ (r.isCollection = true ↔ t.node l = some .dir) := by
  obtain ⟨hs, hl⟩ := resolve_stat_spec h
  obtain ⟨a, ha⟩ := reverse_prefix_of_inside hin
  have hmem : ∀ c ∈ a, c ∈ l := fun c hc =>
    List.mem_reverse.mp (by rw [ha]; exact List.mem_append_right _ hc)
  have hcomps : relativeComps (stripCommon l.reverse fs.root.reverse) =
      if a = [] then [dot] else a := by
    rw [ha, relativeComps_append]
  have hnot := dotDot_notMem_of_isSome hs hmem
  have hdir : t.node fs.root = some .dir := by
    rw [nsPath, resolve_nsSubpath fs .stat hp] at h
    exact (walk_ok_iff.mp h).dir_start (nsLookups_ne_nil _)
  have hres := localPathResource_resolve fs hs hl hdir ha
  have hnames : ∀ c ∈ (if a = [] then [dot] else a), IsName c := by
    rw [← hcomps]
    exact fun c hc => isName_of_mem_relativeComps (fun d hd => isName_of_mem_reverse hs hd) hc
  refine ⟨localPathResource t fs.toPosixFilesystem
    (nsAbsSubpath (if a = [] then [dot] else a) (t.isDir l)),
    by simp only [getResource_of_canonical fs hp hs hl hcan, hcomps, if_neg hnot], hres, ?_, ?_⟩
  · -- the names of the resource are among the looked-up components
    intro hdd
    have hlook := lookups_nsAbsSubpath hnames (t.isDir l)
    have hdd' : dotDot ∈ lookups (nsAbsSubpath (if a = [] then [dot] else a) (t.isDir l)) :=
      List.mem_append_left _ hdd
    rw [hlook] at hdd'
    obtain hdd' | hdd' := List.mem_append.mp hdd'
    · exact hnot hdd'
    · split_ifs at hdd'
      · exact absurd hdd' (by decide)
      · cases hdd'
  · simp only [localPathResource, isDirectory, hres]
    simp [isDir]

/-- `get_resource` for a target outside the mount. -/
theorem getResource_of_not_inside {t : FileTree} (fs : Mounted t) {rinfo : LocalPathInfo} {l : Loc}
    (hp : rinfo.datapath.toList ≠ [])
    (h : t.resolve .stat (nsPath fs rinfo.datapath.toList) = .ok l)
    (hin : ¬ inside fs.root l) : fs.getResource t rinfo = .error ENOENT := by
  have hpre : ¬ fs.root.reverse <+: l.reverse := fun hpre => hin (List.reverse_prefix.mp hpre)
  obtain ⟨hs, hl⟩ := resolve_stat_spec h
  obtain ⟨hcan, -⟩ | ⟨hroot, -⟩ := canonical_nsPath_of_ok fs hp h
  · simp only [getResource_of_canonical fs hp hs hl hcan, if_pos (dotDot_mem_relativeComps hpre)]
  · rw [hroot] at hin
    exact absurd List.nil_suffix hin

/-- `get_resource` for a target that does not exist. -/
theorem getResource_of_error {t : FileTree} (fs : Mounted t) {rinfo : LocalPathInfo}
    {e : WalkError} (hp : rinfo.datapath.toList ≠ [])
    (h : t.resolve .stat (nsPath fs rinfo.datapath.toList) = .error e) :
    fs.getResource t rinfo = .error (if e = .loop then ELOOP else ENOENT) := by
  have hcan := canonical_nsPath_of_error fs hp h
  unfold nsPath at hcan
  simp [PosixFilesystem.getResource, hcan, lexicalNormalize_eq_nil, hp]

/-- A success forces a non-empty data path and an existing target. -/
theorem getResource_succeeds {t : FileTree} (fs : Mounted t) {rinfo : LocalPathInfo}
    {r : LocalPathResource} (hr : fs.getResource t rinfo = .ok r) :
    rinfo.datapath.toList ≠ [] ∧ ∃ l,
      t.resolve .stat (nsPath fs rinfo.datapath.toList) = .ok l ∧ inside fs.root l := by
  have hp : rinfo.datapath.toList ≠ [] := by
    intro hnil
    simp [PosixFilesystem.getResource, hnil, lexicalNormalize] at hr
  refine ⟨hp, ?_⟩
  cases ht : t.resolve .stat (nsPath fs rinfo.datapath.toList) with
  | error e =>
      rw [getResource_of_error fs hp ht] at hr
      cases hr
  | ok l =>
      refine ⟨l, rfl, ?_⟩
      by_contra hin
      rw [getResource_of_not_inside fs hp ht hin] at hr
      cases hr

/-- What is handed out leads somewhere, and it is known whether to a directory. -/
theorem getResource_ok_spec {t : FileTree} (fs : Mounted t) {rinfo : LocalPathInfo}
    {r : LocalPathResource} (hr : fs.getResource t rinfo = .ok r) :
    ∃ l, t.resolve .stat r.canonicalPath = .ok l ∧ dotDot ∉ names r.name ∧
      (r.isCollection = true ↔ t.node l = some .dir) := by
  obtain ⟨hp, l, hl, hin⟩ := getResource_succeeds fs hr
  have hsame : ∀ {r' : LocalPathResource}, fs.getResource t rinfo = .ok r' → r' = r :=
    fun hr' => Outcome.ok.inj (hr'.symm.trans hr)
  obtain ⟨hcan, -⟩ | ⟨hroot, -, ⟨c, hcan, hkeeps, -⟩ | ⟨hcan, -⟩⟩ :=
    canonical_nsPath_of_ok fs hp hl
  · obtain ⟨r', hr', hspec⟩ := getResource_of_inside fs hp hl hcan hin
    obtain rfl := hsame hr'
    exact ⟨l, hspec⟩
  · obtain ⟨r', hr', hres, hnames, hcoll⟩ := getResource_of_keepsRootName hp hroot hcan hkeeps
    obtain rfl := hsame hr'
    exact ⟨[], hres, hnames, iff_of_true hcoll t.root_dir⟩
  · unfold nsPath at hcan
    simp [PosixFilesystem.getResource, hcan, lexicalNormalize_eq_nil, hp] at hr

/-- A resource is looked up where its backend is mounted. -/
theorem getResource_canonicalPath {t : FileTree} {fs : PosixFilesystem} {rinfo : LocalPathInfo}
    {r : LocalPathResource} (hr : fs.getResource t rinfo = .ok r) :
    r.canonicalPath = append fs.mount r.name := by
  unfold PosixFilesystem.getResource at hr
  dsimp only at hr
  split_ifs at hr
  split at hr
  · cases hr
  · split at hr
    · cases hr
    · split_ifs at hr
      all_goals
        rw [← Outcome.ok.inj hr]
        rfl

/-- `get_resource` succeeds exactly for the existing targets inside the mount; the resource then
names the same file without a `".."` and knows whether it is a directory.  A target outside the
mount is reported like a missing one. -/
structure InputConfined (t : FileTree) (fs : Mounted t) (rinfo : LocalPathInfo) : Prop where
  succeeds : (∃ r, fs.getResource t rinfo = .ok r) ↔
    lexicalNormalize rinfo.datapath.toList false ≠ [] ∧
    ∃ l, t.resolve .stat (nsPath fs rinfo.datapath.toList) = .ok l ∧ inside fs.root l
  resource : ∀ r, fs.getResource t rinfo = .ok r → ∃ l,
    t.resolve .stat (nsPath fs rinfo.datapath.toList) = .ok l ∧
    t.resolve .stat r.canonicalPath = .ok l ∧ dotDot ∉ names r.name ∧
    (r.isCollection = true ↔ t.node l = some .dir)
  outside : lexicalNormalize rinfo.datapath.toList false ≠ [] → ∀ l,
    t.resolve .stat (nsPath fs rinfo.datapath.toList) = .ok l → ¬ inside fs.root l →
      fs.getResource t rinfo = .error ENOENT
  missing : lexicalNormalize rinfo.datapath.toList false ≠ [] →
    t.resolve .stat (nsPath fs rinfo.datapath.toList) = .error .notFound →
      fs.getResource t rinfo = .error ENOENT

/-- The condition for that: the data path is empty, or leads nowhere, or no root name is met on its
way, or it leads to the root directory without a link. -/
def Confinable (t : FileTree) (fs : Mounted t) (datapath : PathStr) : Prop :=
  datapath = [] ∨ (∃ e, t.resolve .stat (nsPath fs datapath) = .error e) ∨
  PlainWay t (nsPath fs datapath) ∨
  (LinkFree t (nsPath fs datapath) ∧ t.resolve .stat (nsPath fs datapath) = .ok [])

section inputs

variable {t : FileTree} {fs : Mounted t} {rinfo : LocalPathInfo}

theorem inputConfined_of_error (h : rinfo.datapath.toList = [] ∨
    ∃ e, t.resolve .stat (nsPath fs rinfo.datapath.toList) = .error e) :
    InputConfined t fs rinfo := by
  have hfails : ∀ r, fs.getResource t rinfo ≠ .ok r := by
    intro r hr
    obtain ⟨hp, l, hl, -⟩ := getResource_succeeds fs hr
    obtain hnil | ⟨e, he⟩ := h
    · exact hp hnil
    · rw [hl] at he
      cases he
  have hmissing : lexicalNormalize rinfo.datapath.toList false ≠ [] →
      ∃ e, t.resolve .stat (nsPath fs rinfo.datapath.toList) = .error e := fun hne =>
    h.resolve_left (lexicalNormalize_eq_nil.not.mp hne)
  constructor
  · refine iff_of_false (fun ⟨r, hr⟩ => hfails r hr) ?_
    rintro ⟨hne, l, hl, -⟩
    obtain ⟨e, he⟩ := hmissing hne
    rw [hl] at he
    cases he
  · exact fun r hr => absurd hr (hfails r)
  · intro hne l hl
    obtain ⟨e, he⟩ := hmissing hne
    rw [hl] at he
    cases he
  · intro hne he
    simpa using getResource_of_error fs (lexicalNormalize_eq_nil.not.mp hne) he

/-- A target inside the mount whose resource is that of the target. -/
theorem inputConfined_of_ok {l : Loc} (hp : rinfo.datapath.toList ≠ [])
    (hl : t.resolve .stat (nsPath fs rinfo.datapath.toList) = .ok l) (hin : inside fs.root l)
    (hres : ∃ r, fs.getResource t rinfo = .ok r ∧ t.resolve .stat r.canonicalPath = .ok l ∧
      dotDot ∉ names r.name ∧ (r.isCollection = true ↔ t.node l = some .dir)) :
    InputConfined t fs rinfo := by
  obtain ⟨r, hr, hspec⟩ := hres
  have htarget : ∀ l', t.resolve .stat (nsPath fs rinfo.datapath.toList) = .ok l' → l' = l :=
    fun l' hl' => Except.ok.inj (hl'.symm.trans hl)
  constructor
  · exact iff_of_true ⟨r, hr⟩ ⟨lexicalNormalize_eq_nil.not.mpr hp, l, hl, hin⟩
  · intro r' hr'
    obtain rfl := Outcome.ok.inj (hr.symm.trans hr')
    exact ⟨l, hl, hspec⟩
  · intro _ l' hl' hout
    rw [htarget l' hl'] at hout
    exact absurd hin hout
  · intro _ he
    rw [hl] at he
    cases he

/-- A target outside the mount. -/
theorem inputConfined_of_outside {l : Loc} (hp : rinfo.datapath.toList ≠ [])
    (hl : t.resolve .stat (nsPath fs rinfo.datapath.toList) = .ok l) (hout : ¬ inside fs.root l) :
    InputConfined t fs rinfo := by
  have hfails := getResource_of_not_inside fs hp hl hout
  constructor
  · refine iff_of_false ?_ ?_
    · rintro ⟨r, hr⟩
      rw [hfails] at hr
      cases hr
    · rintro ⟨-, l', hl', hin⟩
      obtain rfl := Except.ok.inj (hl'.symm.trans hl)
      exact hout hin
  · intro r hr
    rw [hfails] at hr
    cases hr
  · exact fun _ _ _ _ => hfails
  · intro _ he
    rw [hl] at he
    cases he

theorem inputConfined_of_confinable (h : Confinable t fs rinfo.datapath.toList) :
    InputConfined t fs rinfo := by
  obtain hnil | he | hway := h
  · exact inputConfined_of_error (.inl hnil)
  · exact inputConfined_of_error (.inr he)
  by_cases hp : rinfo.datapath.toList = []
  · exact inputConfined_of_error (.inl hp)
  cases hl : t.resolve .stat (nsPath fs rinfo.datapath.toList) with
  | error e => exact inputConfined_of_error (.inr ⟨e, hl⟩)
  | ok l =>
      by_cases hin : inside fs.root l
      swap
      · exact inputConfined_of_outside hp hl hin
      obtain ⟨hcan, -⟩ | ⟨hroot, hname, hkeeps⟩ := canonical_nsPath_of_ok fs hp hl
      · exact inputConfined_of_ok hp hl hin (getResource_of_inside fs hp hl hcan hin)
      -- with a root name, only the root directory is left
      obtain ⟨hplain, -⟩ | ⟨-, hl'⟩ := hway
      · rw [hname] at hplain
        cases hplain
      obtain rfl := Except.ok.inj (hl.symm.trans hl')
      obtain ⟨c, hcan, hkeeps, -⟩ | ⟨-, -, hfile⟩ := hkeeps
      · obtain ⟨r, hr, hres, hnames, hcoll⟩ :=
          getResource_of_keepsRootName hp hroot hcan hkeeps
        exact inputConfined_of_ok hp hl hin ⟨r, hr, hres, hnames, iff_of_true hcoll t.root_dir⟩
      · simp [isDir, t.root_dir] at hfile

theorem confinable_of_inputConfined (hlinks : LinkFree t (nsPath fs rinfo.datapath.toList))
    (h : InputConfined t fs rinfo) : Confinable t fs rinfo.datapath.toList := by
  by_cases hp : rinfo.datapath.toList = []
  · exact .inl hp
  cases hl : t.resolve .stat (nsPath fs rinfo.datapath.toList) with
  | error e => exact .inr (.inl ⟨e, hl⟩)
  | ok l =>
      refine .inr (.inr ?_)
      by_cases hname : hasRootName (nsPath fs rinfo.datapath.toList) = true
      swap
      · refine .inl ⟨by simpa using hname, fun text htext => ?_⟩
        rw [LinkFree] at hlinks
        rw [hlinks] at htext
        cases htext
      refine .inr ⟨hlinks, ?_⟩
      obtain ⟨-, -, hnil⟩ | ⟨hroot, -, ⟨c, hcan, hkeeps, -⟩ | ⟨hcan, -⟩⟩ :=
        canonical_nsPath_of_ok fs hp hl
      · rw [hl, hnil hname hlinks]
      · obtain ⟨r, hr, hres, -⟩ := getResource_of_keepsRootName hp hroot hcan hkeeps
        obtain ⟨l', hl', hres', -⟩ := h.resource r hr
        obtain rfl := Except.ok.inj (hres.symm.trans hres')
        exact hl'
      · -- the root name is taken for a directory, which the target is not
        obtain ⟨r, hr⟩ := h.succeeds.mpr
          ⟨lexicalNormalize_eq_nil.not.mpr hp, l, hl, by rw [hroot]; exact List.nil_suffix⟩
        unfold nsPath at hcan
        simp [PosixFilesystem.getResource, hcan, lexicalNormalize_eq_nil, hp] at hr

end inputs

/-- A tree with two files at the top. -/
def topTree : FileTree :=
  (empty.add "f".toList [] (.file [1]) (by decide) (by decide) (by decide)).add
    "ab".toList [] (.file [2]) (by decide) (by decide) (by decide)

/-- Everything that disappears between two trees was strictly below `m`. -/
def DeletesOnlyBelow (m : Loc) (t t' : FileTree) : Prop :=
  ∀ l, (t.node l).isSome → t'.node l = none → strictlyBelow m l

theorem deletesOnlyBelow_refl (m : Loc) (t : FileTree) : DeletesOnlyBelow m t t := by
  intro l hs hn
  rw [hn] at hs
  cases hs

/-- Removing a location is confined to `m` exactly if the location is below `m`, or `m` is the
root of the whole tree. -/
theorem deletesOnlyBelow_removeTree {t : FileTree} {m l : Loc} (hm : (t.node m).isSome)
    (hl : (t.node l).isSome) :
    DeletesOnlyBelow m t (t.removeTree l) ↔ m = [] ∨ strictlyBelow m l := by
  constructor
  · intro h
    by_contra hcon
    obtain ⟨hm0, hnb⟩ := not_or.mp hcon
    by_cases hl0 : l = []
    · subst hl0
      exact (h m hm (if_pos ⟨hm0, List.nil_suffix⟩)).2 rfl
    · exact hnb (h l hl (if_pos ⟨hl0, inside_refl l⟩))
  · intro h l' hs hn
    simp only [removeTree] at hn
    split_ifs at hn with hin
    · obtain rfl | h := h
      · exact ⟨List.nil_suffix, hin.1⟩
      · refine ⟨h.1.trans hin.2, ?_⟩
        rintro rfl
        exact h.2 (hin.2.eq_of_length_le h.1.length_le)
    · rw [hn] at hs
      cases hs

section removals

variable {t : FileTree} {fs : Mounted t} {rinfo : LocalPathInfo} {l : Loc}

/-- `remove` of a path that `lstat` does not find. -/
theorem remove_of_error {e : WalkError} (hp : rinfo.datapath.toList ≠ [])
    (h : t.resolve .lstat (nsPath fs rinfo.datapath.toList) = .error e) :
    t.resolve .stat (nsPath fs rinfo.datapath.toList) = .error e ∧
      fs.remove t rinfo = (t, if e = .loop then .thrown ELOOP else .error ENOENT) := by
  have hns : lexicalNormalize rinfo.datapath.toList false ≠ [] := lexicalNormalize_eq_nil.not.mpr hp
  have hstat : t.resolve .stat (nsPath fs rinfo.datapath.toList) = .error e := by
    rw [nsPath, resolve_nsSubpath fs .stat hp]
    rw [nsPath, resolve_nsSubpath fs .lstat hp] at h
    exact walk_stat_of_lstat_error h
  refine ⟨hstat, ?_⟩
  have hcan := canonical_nsPath_of_error fs hp hstat
  unfold nsPath at h hcan
  cases e <;>
    simp only [PosixFilesystem.remove, hns, if_false, isSymlink, hcan, h, reduceCtorEq, if_true]

/-- `remove` of a path that ends in something else than a link.  The name of a file at the top of
the mount `/` can be taken for a network root. -/
theorem remove_of_not_link (hp : rinfo.datapath.toList ≠ [])
    (h : t.resolve .lstat (nsPath fs rinfo.datapath.toList) = .ok l) (hlink : t.isLink l = false) :
    t.resolve .stat (nsPath fs rinfo.datapath.toList) = .ok l ∧ (t.node l).isSome ∧
      fs.remove t rinfo =
        if isAbsolute (nsPath fs rinfo.datapath.toList) = true ∨ t.isDir l = true then
          (t.removeTree l, if l = [] then .error EBUSY else .ok ())
        else (t, .error ENOENT) := by
  have hns : lexicalNormalize rinfo.datapath.toList false ≠ [] := lexicalNormalize_eq_nil.not.mpr hp
  have hstat : t.resolve .stat (nsPath fs rinfo.datapath.toList) = .ok l :=
    resolve_follow_of_not_link h hlink
  have hsome := (resolve_stat_spec hstat).1
  refine ⟨hstat, hsome, ?_⟩
  have hremove : fs.remove t rinfo =
      match canonical t (nsPath fs rinfo.datapath.toList) with
      | .error ec => (t, .error ec)
      | .ok canonicalPath => removeAll t canonicalPath := by
    unfold nsPath at h ⊢
    simp only [PosixFilesystem.remove, hns, if_false, isSymlink, h, hlink]
  obtain ⟨hcan, hdone, -⟩ | ⟨-, -, ⟨c, hcan, hkeeps, hdone⟩ | ⟨hcan, hslash, hfile⟩⟩ :=
    canonical_nsPath_of_ok fs hp hstat
  · rw [hremove, hcan, if_pos hdone]
    simp only [removeAll, resolve_absPath hsome hlink]
  · rw [hremove, hcan, if_pos hdone]
    simp only [removeAll, hkeeps.lstat]
  · rw [hremove, hcan, if_neg (by simp [hslash, hfile])]

/-- A path that is taken for a network root has no component but the name. -/
theorem root_of_not_isAbsolute (hp : rinfo.datapath.toList ≠ [])
    (h : isAbsolute (nsPath fs rinfo.datapath.toList) = false) : fs.root = [] ∧
      (nsPath fs rinfo.datapath.toList = ['/', '/'] ∨
        ∃ n, normComps rinfo.datapath.toList = [n]) := by
  obtain ⟨s, hs, hplain⟩ | ⟨hroot, hnet | ⟨n, cs, hcomps, hnet⟩⟩ := nsPath_cases fs hp
  · rw [hs, isAbsolute_of_plain hplain] at h
    cases h
  · exact ⟨hroot, .inl hnet⟩
  · cases cs with
    | nil => exact ⟨hroot, .inr ⟨n, hcomps⟩⟩
    | cons c cs =>
        have hn : IsName n :=
          isName_of_mem_normComps (p := rinfo.datapath.toList) (by simp [hcomps])
        rw [hnet, isAbsolute_network_cons hn] at h
        cases h

/-- `remove` of a path that ends in a link: the target is looked up, and the link is removed. -/
theorem remove_of_link (hp : rinfo.datapath.toList ≠ [])
    (h : t.resolve .lstat (nsPath fs rinfo.datapath.toList) = .ok l) (hlink : t.isLink l = true) :
    fs.remove t rinfo =
      match t.resolve .stat (nsPath fs rinfo.datapath.toList) with
      | .error e => (t, .error (errnoOf e))
      | .ok _ => (t.removeTree l, if l = [] then .error EBUSY else .ok ()) := by
  have hns : lexicalNormalize rinfo.datapath.toList false ≠ [] := lexicalNormalize_eq_nil.not.mpr hp
  unfold nsPath at h ⊢
  simp only [PosixFilesystem.remove, hns, if_false, isSymlink, h, hlink, removeAll]

/-- A removal that fails says why. -/
theorem remove_error {t' : FileTree} {ec : ErrorCode}
    (hremove : fs.remove t rinfo = (t', .error ec)) : ec ≠ 0 := by
  have hcode := congrArg Prod.snd hremove
  by_cases hp : rinfo.datapath.toList = []
  · simp only [PosixFilesystem.remove, hp, lexicalNormalize, if_true] at hcode
    rw [← Outcome.error.inj hcode]
    decide
  have hbusy : ∀ {l : Loc}, (if l = [] then Outcome.error EBUSY else .ok ()) =
      (Outcome.error ec : Outcome Unit) → ec ≠ 0 := by
    intro l hl
    split_ifs at hl
    rw [← Outcome.error.inj hl]
    decide
  cases hl : t.resolve .lstat (nsPath fs rinfo.datapath.toList) with
  | error e =>
      rw [(remove_of_error hp hl).2] at hcode
      dsimp only at hcode
      split_ifs at hcode
      rw [← Outcome.error.inj hcode]
      decide
  | ok l =>
      cases hlink : t.isLink l with
      | false =>
          rw [(remove_of_not_link hp hl hlink).2.2] at hcode
          by_cases hdone : isAbsolute (nsPath fs rinfo.datapath.toList) = true ∨ t.isDir l = true
          · rw [if_pos hdone] at hcode
            exact hbusy hcode
          · rw [if_neg hdone] at hcode
            rw [← Outcome.error.inj hcode]
            decide
      | true =>
          rw [remove_of_link hp hl hlink] at hcode
          cases hs : t.resolve .stat (nsPath fs rinfo.datapath.toList) with
          | error e =>
              rw [hs] at hcode
              rw [← Outcome.error.inj hcode]
              cases e <;> decide
          | ok s =>
              rw [hs] at hcode
              exact hbusy hcode

/-- A removal that succeeds has removed what the path names. -/
theorem remove_ok_spec {t' : FileTree} (h : fs.remove t rinfo = (t', .ok ())) :
    rinfo.datapath.toList ≠ [] ∧ ∃ l, t.resolve .lstat (nsPath fs rinfo.datapath.toList) = .ok l ∧
      l ≠ [] ∧ t' = t.removeTree l := by
  have hp : rinfo.datapath.toList ≠ [] := by
    intro hnil
    simp [PosixFilesystem.remove, hnil, lexicalNormalize] at h
  have hremoved : ∀ {l : Loc}, fs.remove t rinfo =
      (t.removeTree l, if l = [] then .error EBUSY else .ok ()) → l ≠ [] ∧ t' = t.removeTree l := by
    intro l hl
    have heq := h.symm.trans hl
    refine ⟨fun hnil => ?_, congrArg Prod.fst heq⟩
    have hcode := congrArg Prod.snd heq
    dsimp only at hcode
    rw [if_pos hnil] at hcode
    cases hcode
  refine ⟨hp, ?_⟩
  cases hl : t.resolve .lstat (nsPath fs rinfo.datapath.toList) with
  | error e =>
      rw [(remove_of_error hp hl).2] at h
      have hcode := congrArg Prod.snd h
      dsimp only at hcode
      split_ifs at hcode
  | ok l =>
      refine ⟨l, rfl, ?_⟩
      cases hlink : t.isLink l with
      | false =>
          have hremove := (remove_of_not_link hp hl hlink).2.2
          by_cases hdone : isAbsolute (nsPath fs rinfo.datapath.toList) = true ∨ t.isDir l = true
          · rw [if_pos hdone] at hremove
            exact hremoved hremove
          · rw [if_neg hdone] at hremove
            cases h.symm.trans hremove
      | true =>
          have hremove := remove_of_link hp hl hlink
          cases hs : t.resolve .stat (nsPath fs rinfo.datapath.toList) with
          | error e =>
              rw [hs] at hremove
              cases h.symm.trans hremove
          | ok s =>
              rw [hs] at hremove
              exact hremoved hremove

end removals

/-- What `remove` does to the tree: nothing if the target does not exist, or if it cannot be found
at the top of the mount `/`; otherwise the object that the path names, a link not being followed,
goes with everything below it. -/
theorem remove_tree {t : FileTree} (fs : Mounted t) {rinfo : LocalPathInfo}
    (hp : rinfo.datapath.toList ≠ []) :
    let p := append fs.mount (lexicalNormalize rinfo.datapath.toList false)
    (((∃ e, t.resolve .stat p = .error e) ∨ fs.root = []) ∧ (fs.remove t rinfo).1 = t) ∨
    ∃ l s, t.resolve .stat p = .ok s ∧ t.resolve .lstat p = .ok l ∧ (t.node l).isSome ∧
      (fs.remove t rinfo).1 = t.removeTree l := by
  intro p
  cases hl : t.resolve .lstat p with
  | error e =>
      obtain ⟨hs, hremove⟩ := remove_of_error hp hl
      exact .inl ⟨.inl ⟨e, hs⟩, by rw [hremove]⟩
  | ok l =>
      cases hlink : t.isLink l with
      | false =>
          obtain ⟨hs, hsome, hremove⟩ := remove_of_not_link hp hl hlink
          by_cases hdone : isAbsolute (nsPath fs rinfo.datapath.toList) = true ∨ t.isDir l = true
          · exact .inr ⟨l, l, hs, rfl, hsome, by rw [hremove, if_pos hdone]⟩
          · have hslash : isAbsolute (nsPath fs rinfo.datapath.toList) = false := by
              simpa using (not_or.mp hdone).1
            exact .inl ⟨.inr (root_of_not_isAbsolute hp hslash).1, by rw [hremove, if_neg hdone]⟩
      | true =>
          obtain ⟨target, hn⟩ := isLink_iff.mp hlink
          have hremove := remove_of_link hp hl hlink
          cases hs : t.resolve .stat p with
          | error e =>
              refine .inl ⟨.inl ⟨e, rfl⟩, ?_⟩
              rw [hremove, show t.resolve .stat (nsPath fs _) = _ from hs]
          | ok s =>
              refine .inr ⟨l, s, rfl, rfl, by rw [hn]; rfl, ?_⟩
              rw [hremove, show t.resolve .stat (nsPath fs _) = _ from hs]

/-- The requests that `remove` keeps inside the mount: the data path is empty, the target does
not exist, the mount is the root of the file system, or the path ends in a proper name that is
looked up in a directory inside the mount (links on the way being followed). -/
def RemoveConfined (t : FileTree) (fs : Mounted t) (datapath : PathStr) : Prop :=
  datapath = [] ∨
  (∃ e, t.resolve .stat (append fs.mount (lexicalNormalize datapath false)) = .error e) ∨
  fs.root = [] ∨
  ∃ init n d, normComps datapath = init ++ [n] ∧ Proper n ∧
    t.walk .stat maxLinks fs.root init = .ok d ∧ inside fs.root d

/-- The object that the path names is below the mount exactly if the last component is a proper
name looked up inside the mount. -/
theorem strictlyBelow_lstat_iff {t : FileTree} (fs : Mounted t) {p : PathStr} {l : Loc}
    (h : Walks t .lstat maxLinks fs.root (nsLookups p) l) :
    strictlyBelow fs.root l ↔ ∃ init n d, normComps p = init ++ [n] ∧ Proper n ∧
      t.walk .stat maxLinks fs.root init = .ok d ∧ inside fs.root d := by
  have hnb : ¬ strictlyBelow fs.root fs.root := fun h => h.2 rfl
  have hnb' : ¬ strictlyBelow fs.root fs.root.tail := by
    intro h
    have hlen := h.1.length_le
    rw [List.length_tail] at hlen
    have hnil : fs.root = [] := List.length_eq_zero_iff.mp (by omega)
    exact h.2 (by rw [hnil]; rfl)
  obtain hnil | ⟨init, n, hc⟩ := List.eq_nil_or_concat' (normComps p)
  · -- the mount itself
    rw [nsLookups, if_pos hnil] at h
    obtain rfl := h.of_dot
    refine ⟨fun h => absurd h hnb, ?_⟩
    rintro ⟨init, n, d, hc, -⟩
    rw [hnil] at hc
    simp at hc
  · rw [nsLookups, if_neg (by simp [hc]), hc] at h
    have hname : IsName n := isName_of_mem_normComps (p := p) (by simp [hc])
    by_cases hprop : Proper n
    · obtain ⟨d, hw, rfl, -⟩ := h.lstat_concat hprop.2.1 hprop.2.2
      rw [strictlyBelow_cons_iff]
      refine ⟨fun hin => ⟨init, n, d, hc, hprop, walk_ok_iff.mpr hw, hin⟩, ?_⟩
      rintro ⟨init', n', d', hc', -, hw', hin⟩
      obtain ⟨rfl, -⟩ := List.append_inj' (hc.symm.trans hc') rfl
      rw [walk_ok_iff.mpr hw] at hw'
      exact Except.ok.inj hw' ▸ hin
    · -- a surviving `"."` or `".."` is the only component
      obtain rfl : init = [] :=
        eq_nil_of_not_proper (hc ▸ fun c hcm => proper_of_mem_tail_normComps hcm) hprop
      constructor
      · obtain rfl | rfl := dots_of_not_proper hname hprop
        · obtain rfl := h.of_dot
          exact fun h => absurd h hnb
        · obtain rfl := h.of_dotDot
          exact fun h => absurd h hnb'
      · rintro ⟨init', n', d', hc', hprop', -⟩
        obtain ⟨-, hn⟩ := List.append_inj' (hc.symm.trans hc') rfl
        exact absurd (List.cons.inj hn).1 (fun h => hprop (h ▸ hprop'))

/-- A mount `/mnt` with a link `/mnt/out` to the directory `/etc`, which holds a file. -/
def linkTree : FileTree :=
  (((empty.add "mnt".toList [] .dir (by decide) (by decide) (by decide)).add
    "etc".toList [] .dir (by decide) (by decide) (by decide)).add
    "passwd".toList ["etc".toList] (.file [1]) (by decide) (by decide) (by decide)).add
    "out".toList ["mnt".toList] (.link "/etc".toList) (by decide) (by decide) (by decide)

/-- The namespace mounted at `/mnt`. -/
def linkMount : Mounted linkTree :=
  ⟨⟨"tmp0", false, "/mnt".toList, 0⟩, ["mnt".toList], by decide, by decide, by decide⟩

/-- The data path names the entry `e` below the mount.  The locations on the way to an entry are
directories. -/
structure NamesEntry (t : FileTree) (fs : Mounted t) (datapath : PathStr) (e : Loc) : Prop where
  nonempty : normComps datapath ≠ []
  eq : e = (normComps datapath).reverse ++ fs.root
  isSome : (t.node e).isSome

/-- The entry `e` is gone with everything below it, and nothing else has changed. -/
structure RemovesExactly (t t' : FileTree) (e : Loc) : Prop where
  gone : ∀ l, inside e l → t'.node l = none
  others : ∀ l, ¬ inside e l → t'.node l = t.node l

/-- `remove` removes exactly the named entry, and fails with `ENOENT` if there is none. -/
structure RemovesNamed (t : FileTree) (fs : Mounted t) (rinfo : LocalPathInfo) : Prop where
  entry : ∀ e, NamesEntry t fs rinfo.datapath.toList e →
    (fs.remove t rinfo).2 = .ok () ∧ RemovesExactly t (fs.remove t rinfo).1 e
  missing : (¬ ∃ e, NamesEntry t fs rinfo.datapath.toList e) →
    fs.remove t rinfo = (t, .error ENOENT)

/-- The condition for that: an entry that is a link has a target; any other is a directory or its
path is not taken for a network root, as that of a file at the top of the mount `/` is whose name
has more than one character; and where there is no entry, the path, links being followed, does not
lead anywhere and to no loop of links, and a link that it ends in does not point below a file. -/
structure NamedRemovable (t : FileTree) (fs : Mounted t) (datapath : PathStr) : Prop where
  link : ∀ e, NamesEntry t fs datapath e → t.isLink e = true →
    ∃ s, t.resolve .stat (nsPath fs datapath) = .ok s
  other : ∀ e, NamesEntry t fs datapath e → t.isLink e = false →
    isAbsolute (nsPath fs datapath) = true ∨ t.isDir e = true
  missing : (¬ ∃ e, NamesEntry t fs datapath e) → datapath = [] ∨
    t.resolve .stat (nsPath fs datapath) = .error .notFound ∨
    (t.resolve .stat (nsPath fs datapath) = .error .notDir ∧
      ∀ l, t.resolve .lstat (nsPath fs datapath) = .ok l → t.isLink l = false)

theorem removesExactly_removeTree {t : FileTree} {e : Loc} (he : e ≠ []) :
    RemovesExactly t (t.removeTree e) e := by
  constructor
  · intro l hl
    refine if_pos ⟨?_, hl⟩
    rintro rfl
    exact he (List.suffix_nil.mp hl)
  · intro l hl
    exact if_neg fun h => hl h.2

/-- A named entry is what `lstat` finds. -/
theorem NamesEntry.lstat {t : FileTree} {fs : Mounted t} {datapath : PathStr} {e : Loc}
    (h : NamesEntry t fs datapath e) (hp : datapath ≠ []) :
    t.resolve .lstat (nsPath fs datapath) = .ok e := by
  have hs := h.isSome
  rw [h.eq] at hs
  rw [nsPath, resolve_nsSubpath fs .lstat hp, nsLookups, if_neg h.nonempty, walk_lstat_entry hs,
    h.eq]

theorem NamesEntry.ne_nil {t : FileTree} {fs : Mounted t} {datapath : PathStr} {e : Loc}
    (h : NamesEntry t fs datapath e) : e ≠ [] := by
  rw [h.eq]
  intro hnil
  exact h.nonempty (by simpa using (List.append_eq_nil_iff.mp hnil).1)

section named

variable {t : FileTree} {fs : Mounted t} {rinfo : LocalPathInfo}

/-- `remove` of the entry that the path names. -/
theorem remove_entry_iff {e : Loc} (hp : rinfo.datapath.toList ≠ [])
    (he : NamesEntry t fs rinfo.datapath.toList e) :
    ((fs.remove t rinfo).2 = .ok () ∧ RemovesExactly t (fs.remove t rinfo).1 e) ↔
      (t.isLink e = true → ∃ s, t.resolve .stat (nsPath fs rinfo.datapath.toList) = .ok s) ∧
      (t.isLink e = false →
        isAbsolute (nsPath fs rinfo.datapath.toList) = true ∨ t.isDir e = true) := by
  have hlstat := he.lstat hp
  have hexactly : RemovesExactly t (t.removeTree e) e := removesExactly_removeTree he.ne_nil
  cases hlink : t.isLink e with
  | false =>
      obtain ⟨-, -, hremove⟩ := remove_of_not_link hp hlstat hlink
      rw [hremove]
      by_cases hdone : isAbsolute (nsPath fs rinfo.datapath.toList) = true ∨ t.isDir e = true
      · rw [if_pos hdone, if_neg he.ne_nil]
        exact iff_of_true ⟨rfl, hexactly⟩ ⟨nofun, fun _ => hdone⟩
      · rw [if_neg hdone]
        exact iff_of_false (fun h => nomatch h.1) fun h => hdone (h.2 rfl)
  | true =>
      rw [remove_of_link hp hlstat hlink]
      cases hstat : t.resolve .stat (nsPath fs rinfo.datapath.toList) with
      | ok s =>
          dsimp only
          rw [if_neg he.ne_nil]
          exact iff_of_true ⟨rfl, hexactly⟩ ⟨fun _ => ⟨s, rfl⟩, nofun⟩
      | error e => exact iff_of_false (fun h => nomatch h.1) (fun h => nomatch h.1 rfl)

/-- A file that is taken for a network root is a named entry. -/
theorem exists_namesEntry {l : Loc} (hp : rinfo.datapath.toList ≠ [])
    (hlstat : t.resolve .lstat (nsPath fs rinfo.datapath.toList) = .ok l)
    (hslash : isAbsolute (nsPath fs rinfo.datapath.toList) = false) (hfile : t.isDir l = false)
    (hsome : (t.node l).isSome) : ∃ e, NamesEntry t fs rinfo.datapath.toList e := by
  have hnil : l ≠ [] := by
    rintro rfl
    simp [isDir, t.root_dir] at hfile
  obtain ⟨hroot, hnet | ⟨n, hcomps⟩⟩ := root_of_not_isAbsolute hp hslash
  · rw [hnet] at hlstat
    exact absurd (Except.ok.inj hlstat).symm hnil
  · rw [nsPath, resolve_nsSubpath fs .lstat hp, nsLookups, if_neg (by simp [hcomps]), hcomps,
      hroot] at hlstat
    have hwalk : Walks t .lstat _ [] ([] ++ [n]) l := walk_ok_iff.mp hlstat
    have hn : IsName n := isName_of_mem_normComps (p := rinfo.datapath.toList) (by simp [hcomps])
    by_cases hprop : Proper n
    · obtain ⟨d, hw, rfl, -⟩ := hwalk.lstat_concat hprop.2.1 hprop.2.2
      cases hw
      exact ⟨[n], by simp [hcomps], by simp [hcomps, hroot], hsome⟩
    · obtain rfl | rfl := dots_of_not_proper hn hprop
      · exact absurd hwalk.of_dot hnil
      · exact absurd hwalk.of_dotDot hnil

/-- `remove` of a path that names no entry fails with `ENOENT` exactly in these cases. -/
theorem remove_missing_iff (hp : rinfo.datapath.toList ≠ [])
    (hnone : ¬ ∃ e, NamesEntry t fs rinfo.datapath.toList e) :
    fs.remove t rinfo = (t, .error ENOENT) ↔
      t.resolve .stat (nsPath fs rinfo.datapath.toList) = .error .notFound ∨
      (t.resolve .stat (nsPath fs rinfo.datapath.toList) = .error .notDir ∧
        ∀ l, t.resolve .lstat (nsPath fs rinfo.datapath.toList) = .ok l → t.isLink l = false) := by
  have hremoved (l : Loc) :
      (t.removeTree l, if l = [] then Outcome.error EBUSY else .ok ()) ≠ (t, .error ENOENT) := by
    intro h
    have hcode := congrArg Prod.snd h
    dsimp only at hcode
    split_ifs at hcode
    exact absurd (Outcome.error.inj hcode) (by decide)
  cases hlstat : t.resolve .lstat (nsPath fs rinfo.datapath.toList) with
  | error e =>
      obtain ⟨hstat, hremove⟩ := remove_of_error hp hlstat
      rw [hstat, hremove]
      cases e <;> simp
  | ok l =>
      cases hlink : t.isLink l with
      | false =>
          obtain ⟨hstat, hsome, hremove⟩ := remove_of_not_link hp hlstat hlink
          rw [hstat, hremove, if_pos]
          · exact iff_of_false (hremoved l) (by simp)
          · by_contra hdone
            obtain ⟨hslash, hfile⟩ := not_or.mp hdone
            exact hnone (exists_namesEntry hp hlstat (by simpa using hslash) (by simpa using hfile)
              hsome)
      | true =>
          rw [remove_of_link hp hlstat hlink]
          cases hstat : t.resolve .stat (nsPath fs rinfo.datapath.toList) with
          | ok s => exact iff_of_false (hremoved l) (by simp)
          | error e => cases e <;> simp [errnoOf, ENOENT, ENOTDIR, ELOOP, hlink]

end named

/-- A mount `/mnt` with a link `/mnt/old` to a file that does not exist. -/
def danglingTree : FileTree :=
  (empty.add "mnt".toList [] .dir (by decide) (by decide) (by decide)).add
    "old".toList ["mnt".toList] (.link "/gone".toList) (by decide) (by decide) (by decide)

/-- The namespace mounted at `/mnt`. -/
def danglingMount : Mounted danglingTree :=
  ⟨⟨"tmp0", false, "/mnt".toList, 0⟩, ["mnt".toList], by decide, by decide, by decide⟩

end Norns
