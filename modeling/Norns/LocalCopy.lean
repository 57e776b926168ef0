import Norns.PosixFs

/-! # The POSIX backend: writing

The part of a local copy that creates and writes: `posix_filesystem::new_resource` with
`create_directories`, and `copy_file` / `copy_directory` of the transferor
`local_path_to_local_path`.  A `Disk` is a file-system tree together with the locations created
or written so far, so that the effects of a run can be talked about.

* `createDirectories` makes the missing directories from the first *gap* of the path downwards:
  the first name that is missing in the directory the path has led to (`createDirectories_spec`).
* `copyDirectory` handles the entries that a `recursive_directory_iterator` delivers; which ones
  and in which order is left open.
* `copyOutputs_confined_iff`: everything that a copy creates or writes lies inside the mount
  exactly if the gap, and after it every destination path in turn, resolves inside the mount.
  Nothing in the code checks this. -/

namespace Norns

open Lib Lib.PathStr Lib.FileTree

/-- A file system and the locations created or written so far. -/
structure Disk where
  tree : FileTree
  touched : List Loc

namespace Disk

/-- A new entry at a free location of an existing directory. -/
def create (d : Disk) (l : Loc) (nd : Node) : Disk :=
  match l with
  | [] => d
  | n :: p =>
      if h : d.tree.node p = some .dir ∧ Proper n ∧ d.tree.node (n :: p) = none then
        ⟨d.tree.add n p nd h.1 h.2.1 h.2.2, d.touched ++ [n :: p]⟩
      else d

/-- `open(p, O_CREAT | O_WRONLY)` followed by the writes of `do_sendfile`.  With `fallocate` an
existing file is only extended, so what it holds beyond `data` stays, and a length of zero is
refused. -/
def writeFile (fallocate : Bool) (d : Disk) (p : PathStr) (data : List UInt8) : Disk × ErrorCode :=
  match d.tree.resolve .create p with
  | .error e => (d, errnoOf e)
  | .ok l =>
      let ec := if fallocate ∧ data = [] then EINVAL else 0
      match h : d.tree.node l with
      | none => (d.create l (.file data), ec)
      | some (.file old) =>
          (⟨d.tree.overwrite l old (if fallocate then data ++ old.drop data.length else data) h,
            d.touched ++ [l]⟩, ec)
      | some .dir => (d, EISDIR)
      | some (.link _) => (d, ELOOP)

/-- `bfs::create_directory(p, ec)`. -/
def createDirectory (d : Disk) (p : PathStr) : Disk × ErrorCode :=
  match d.tree.resolve .mkdir p with
  | .error e => (d, errnoOf e)
  | .ok l =>
      if d.tree.node l = none then (d.create l .dir, 0)
      else if isDirectory d.tree p then (d, 0)
      else (d, EEXIST)

end Disk

/-- `bfs::status(p)` is `file_not_found`. -/
def fileNotFound (t : FileTree) (p : PathStr) : Bool :=
  match t.resolve .stat p with
  | .error .notFound => true
  | .error .notDir => true
  | _ => false

/-- `bfs::create_directories(p, ec)` of an absolute path, given by its components, the last one
first; the parent path drops the first element of the list. -/
def createDirectories (d : Disk) : List PathStr → Disk × ErrorCode
  | [] => (d, 0)
  | n :: rest =>
      if n = dot ∨ n = dotDot then createDirectories d rest
      else if isDirectory d.tree (absPath (n :: rest).reverse) then (d, 0)
      else if fileNotFound d.tree (absPath rest.reverse) then
        let r := createDirectories d rest
        if r.2 ≠ 0 then r else r.1.createDirectory (absPath (n :: rest).reverse)
      else d.createDirectory (absPath (n :: rest).reverse)

/-- `posix_filesystem::new_resource`. -/
def PosixFilesystem.newResource (d : Disk) (fs : PosixFilesystem) (rinfo : LocalPathInfo)
    (isCollection : Bool) : Disk × Outcome LocalPathResource :=
  let nsSubpath := lexicalNormalize rinfo.datapath.toList isCollection
  if nsSubpath = [] then (d, .error ENOENT)
  else
    let parents := parentPath nsSubpath
    if parents ≠ [] ∧ ¬ equiv parents ['/'] then
      let r := createDirectories d (relElements (append fs.mount parents)).reverse
      if r.2 ≠ 0 then (r.1, .error r.2)
      else (r.1, .ok (localPathResource r.1.tree fs nsSubpath))
    else (d, .ok (localPathResource d.tree fs nsSubpath))

/-! ### The copy -/

/-- `copy_file`; the source is not a directory. -/
def copyFile (fallocate : Bool) (d : Disk) (src dst : PathStr) : Disk × ErrorCode :=
  match d.tree.resolve .stat src with
  | .error e => (d, errnoOf e)
  | .ok s =>
      match d.tree.node s with
      | some (.file data) => d.writeFile fallocate dst data
      | _ => (d, EISDIR)

def outcomeOf (ec : ErrorCode) : Outcome Unit := if ec = 0 then .ok () else .error ec

/-- The body of the loop of `copy_directory` for the entry `it`. -/
def copyEntry (fallocate : Bool) (src dst : PathStr) (d : Disk) (it : PathStr) :
    Disk × Outcome Unit :=
  match plainRelative d.tree it src with
  | .error ec => (d, .thrown ec)
  | .ok rel =>
      let dstPath := append dst rel
      if isDirectory d.tree it then
        match d.tree.resolve .stat dstPath with
        | .ok _ => (d, .ok ())
        | .error .loop => (d, .thrown ELOOP)
        | .error _ =>
            let r := d.createDirectory dstPath
            (r.1, outcomeOf r.2)
      else
        let r := copyFile fallocate d it dstPath
        (r.1, outcomeOf r.2)

/-- `copy_directory` over the entries that the iterator delivers. -/
def copyDirectory (fallocate : Bool) (src dst : PathStr) :
    Disk → List PathStr → Disk × Outcome Unit
  | d, [] => (d, .ok ())
  | d, it :: entries =>
      match copyEntry fallocate src dst d it with
      | (d', .ok ()) => copyDirectory fallocate src dst d' entries
      | r => r

/-- `local_path_to_local_path_transferor::transfer`. -/
def transferLocal (fallocate : Bool) (d : Disk) (src dst : PathStr) (entries : List PathStr) :
    Disk × Outcome Unit :=
  if isDirectory d.tree src then copyDirectory fallocate src dst d entries
  else
    let r := copyFile fallocate d src dst
    (r.1, outcomeOf r.2)

/-- What a copy task does with its destination: `new_resource`, then the transfer to the
resource's `canonical_path()`. -/
def copyOutputs (fallocate : Bool) (d : Disk) (fs : PosixFilesystem) (rinfo : LocalPathInfo)
    (isCollection : Bool) (src : PathStr) (entries : List PathStr) : Disk × Outcome Unit :=
  match fs.newResource d rinfo isCollection with
  | (d', .ok r) => transferLocal fallocate d' src r.canonicalPath entries
  | (d', .error ec) => (d', .error ec)
  | (d', .thrown ec) => (d', .thrown ec)

/-! ### Single calls -/

theorem Disk.create_eq {d : Disk} {n : PathStr} {p : Loc} (nd : Node)
    (hp : d.tree.node p = some .dir) (hn : Proper n) (hfree : d.tree.node (n :: p) = none) :
    (d.create (n :: p) nd).touched = d.touched ++ [n :: p] ∧
      ∀ x, (d.create (n :: p) nd).tree.node x =
        if x = n :: p then some nd else d.tree.node x := by
  rw [Disk.create, dif_pos ⟨hp, hn, hfree⟩]
  exact ⟨rfl, fun x => rfl⟩

/-- `create_directory` where nothing stands. -/
theorem createDirectory_free {d : Disk} {p : PathStr} {l : Loc}
    (h : d.tree.resolve .mkdir p = .ok l) (hl : d.tree.node l = none) :
    (d.createDirectory p).2 = 0 ∧ (d.createDirectory p).1.touched = d.touched ++ [l] ∧
      ∀ x, (d.createDirectory p).1.tree.node x = if x = l then some .dir else d.tree.node x := by
  obtain ⟨n, q, rfl, hq, hn⟩ := resolve_free_spec h hl
  have he : d.createDirectory p = (d.create (n :: q) .dir, 0) := by
    simp only [Disk.createDirectory, h, hl, if_true]
  rw [he]
  exact ⟨rfl, Disk.create_eq .dir hq hn hl⟩

/-- `create_directory` where something stands already, or the path leads nowhere. -/
theorem createDirectory_taken {d : Disk} {p : PathStr}
    (h : ∀ l, d.tree.resolve .mkdir p = .ok l → d.tree.node l ≠ none) :
    (d.createDirectory p).1 = d ∧ (isDirectory d.tree p = false → (d.createDirectory p).2 ≠ 0) := by
  unfold Disk.createDirectory
  cases hr : d.tree.resolve .mkdir p with
  | error e =>
      have he : errnoOf e ≠ 0 := by cases e <;> decide
      exact ⟨rfl, fun _ => he⟩
  | ok l =>
      simp only [h l hr, if_false]
      split_ifs with hdir
      · refine ⟨rfl, fun hf => ?_⟩
        rw [hf] at hdir
        cases hdir
      · exact ⟨rfl, fun _ => show EEXIST ≠ 0 by decide⟩

theorem resolve_create_not_link {t : FileTree} {p : PathStr} {l : Loc}
    (h : t.resolve .create p = .ok l) : t.isLink l = false := by
  unfold resolve at h
  split_ifs at h
  exact (walk_ok_iff.mp h).not_link rfl (by simp [isLink, t.root_dir])

/-- What a written file holds, given what was there. -/
def writtenData (fallocate : Bool) (data : List UInt8) : Option Node → List UInt8
  | some (.file old) => if fallocate then data ++ old.drop data.length else data
  | _ => data

/-- The bytes are in a file at `x`, which is new or was a file. -/
structure Writes (fallocate : Bool) (d d' : Disk) (x : Loc) (data : List UInt8) : Prop where
  place : d.tree.node x = none ∨ ∃ old, d.tree.node x = some (.file old)
  touched : d'.touched = d.touched ++ [x]
  node : ∀ y, d'.tree.node y =
    if y = x then some (.file (writtenData fallocate data (d.tree.node x))) else d.tree.node y

/-- All that a write can do. -/
theorem writeFile_cases (fallocate : Bool) (d : Disk) (p : PathStr) (data : List UInt8) :
    ((d.writeFile fallocate p data).1 = d ∧ (d.writeFile fallocate p data).2 ≠ 0 ∧
      ∀ x, d.tree.resolve .create p = .ok x → d.tree.node x = some .dir) ∨
    ∃ x, d.tree.resolve .create p = .ok x ∧
      Writes fallocate d (d.writeFile fallocate p data).1 x data ∧
      (d.writeFile fallocate p data).2 = if fallocate ∧ data = [] then EINVAL else 0 := by
  unfold Disk.writeFile
  cases hr : d.tree.resolve .create p with
  | error e =>
      have he : errnoOf e ≠ 0 := by cases e <;> decide
      exact .inl ⟨rfl, he, nofun⟩
  | ok x =>
      dsimp only
      split
      · next hn =>
          obtain ⟨n, q, rfl, hq, hprop⟩ := resolve_free_spec hr hn
          obtain ⟨htouched, hnode⟩ := Disk.create_eq (.file data) hq hprop hn
          exact .inr ⟨n :: q, rfl, ⟨.inl hn, htouched, by rw [hn]; exact hnode⟩, rfl⟩
      · next old hn =>
          have hdata : writtenData fallocate data (d.tree.node x) =
              if fallocate then data ++ old.drop data.length else data := by rw [hn]; rfl
          exact .inr ⟨x, rfl, ⟨.inr ⟨old, hn⟩, rfl, fun y => by rw [hdata]; rfl⟩, rfl⟩
      · next hn =>
          refine .inl ⟨rfl, show EISDIR ≠ 0 by decide, fun x' hx => ?_⟩
          rw [← Except.ok.inj hx, hn]
      · next target hn =>
          have hlink := resolve_create_not_link hr
          simp [isLink, hn] at hlink

/-! ### Nothing but the touched locations changes -/

/-- `d'` differs from `d` only at locations that it records as touched. -/
structure Frame (d d' : Disk) : Prop where
  keeps : ∀ l, l ∉ d'.touched → d'.tree.node l = d.tree.node l
  grows : d.touched ⊆ d'.touched

theorem Frame.refl (d : Disk) : Frame d d := ⟨fun _ _ => rfl, fun _ h => h⟩

theorem Frame.trans {d d' d'' : Disk} (h : Frame d d') (h' : Frame d' d'') : Frame d d'' :=
  ⟨fun l hl => by rw [h'.keeps l hl, h.keeps l (fun hm => hl (h'.grows hm))],
    fun _ hm => h'.grows (h.grows hm)⟩

theorem Frame.of_node {d d' : Disk} {l : Loc} {nd : Node} (ht : d'.touched = d.touched ++ [l])
    (hn : ∀ x, d'.tree.node x = if x = l then some nd else d.tree.node x) : Frame d d' := by
  refine ⟨fun x hx => ?_, fun x hx => by rw [ht]; exact List.mem_append_left _ hx⟩
  rw [hn, if_neg]
  rintro rfl
  exact hx (by simp [ht])

theorem frame_createDirectory (d : Disk) (p : PathStr) : Frame d (d.createDirectory p).1 := by
  by_cases hfree : ∃ l, d.tree.resolve .mkdir p = .ok l ∧ d.tree.node l = none
  · obtain ⟨l, hr, hl⟩ := hfree
    exact Frame.of_node (createDirectory_free hr hl).2.1 (createDirectory_free hr hl).2.2
  · rw [(createDirectory_taken (d := d) (p := p) (fun l hr hl => hfree ⟨l, hr, hl⟩)).1]
    exact Frame.refl d

theorem frame_createDirectories (d : Disk) (rcs : List PathStr) :
    Frame d (createDirectories d rcs).1 := by
  induction rcs with
  | nil => exact Frame.refl d
  | cons n rest ih =>
      rw [createDirectories]
      dsimp only
      split_ifs
      · exact ih
      · exact Frame.refl d
      · exact ih
      · exact ih.trans (frame_createDirectory _ _)
      · exact frame_createDirectory _ _

theorem frame_writeFile (fallocate : Bool) (d : Disk) (p : PathStr) (data : List UInt8) :
    Frame d (d.writeFile fallocate p data).1 := by
  obtain ⟨hd, -⟩ | ⟨x, -, hw, -⟩ := writeFile_cases fallocate d p data
  · rw [hd]
    exact Frame.refl d
  · exact Frame.of_node hw.touched hw.node

theorem frame_copyFile (fallocate : Bool) (d : Disk) (src dst : PathStr) :
    Frame d (copyFile fallocate d src dst).1 := by
  unfold copyFile
  split
  · exact Frame.refl d
  · split
    · exact frame_writeFile _ _ _ _
    · exact Frame.refl d

theorem frame_copyEntry (fallocate : Bool) (src dst : PathStr) (d : Disk) (it : PathStr) :
    Frame d (copyEntry fallocate src dst d it).1 := by
  unfold copyEntry
  split
  · exact Frame.refl d
  · dsimp only
    split_ifs
    · split
      · exact Frame.refl d
      · exact Frame.refl d
      · exact frame_createDirectory _ _
    · exact frame_copyFile _ _ _ _

theorem frame_copyDirectory (fallocate : Bool) (src dst : PathStr) (d : Disk)
    (entries : List PathStr) : Frame d (copyDirectory fallocate src dst d entries).1 := by
  induction entries generalizing d with
  | nil => exact Frame.refl d
  | cons it entries ih =>
      have hstep := frame_copyEntry fallocate src dst d it
      rw [copyDirectory]
      generalize copyEntry fallocate src dst d it = r at hstep
      obtain ⟨d', o⟩ := r
      cases o with
      | ok u => exact hstep.trans (ih d')
      | error ec => exact hstep
      | thrown ec => exact hstep

theorem frame_newResource (d : Disk) (fs : PosixFilesystem) (rinfo : LocalPathInfo)
    (isCollection : Bool) : Frame d (fs.newResource d rinfo isCollection).1 := by
  unfold PosixFilesystem.newResource
  dsimp only
  split_ifs
  · exact Frame.refl d
  · exact frame_createDirectories _ _
  · exact frame_createDirectories _ _
  · exact Frame.refl d

/-- A copy changes nothing but what it records as created or written. -/
theorem frame_copyOutputs (fallocate : Bool) (d : Disk) (fs : PosixFilesystem)
    (rinfo : LocalPathInfo) (isCollection : Bool) (src : PathStr) (entries : List PathStr) :
    Frame d (copyOutputs fallocate d fs rinfo isCollection src entries).1 := by
  have hnew := frame_newResource d fs rinfo isCollection
  unfold copyOutputs
  generalize fs.newResource d rinfo isCollection = r at hnew
  obtain ⟨d', o⟩ := r
  cases o with
  | ok res =>
      apply hnew.trans
      dsimp only
      unfold transferLocal
      split_ifs
      · exact frame_copyDirectory _ _ _ _ _
      · exact frame_copyFile _ _ _ _
  | error ec => exact hnew
  | thrown ec => exact hnew

/-! ### Creating the parents -/

/-- The path `cs` below `root` has a gap at `l`: a proper name that is missing in the directory
the path has led to; `post` is the rest of the path. -/
def Gap (t : FileTree) (root : Loc) (cs : List PathStr) (l : Loc) (post : List PathStr) : Prop :=
  ∃ pre n d, cs = pre ++ n :: post ∧ t.walk .stat maxLinks root pre = .ok d ∧
    t.node d = some .dir ∧ Proper n ∧ t.node (n :: d) = none ∧ l = n :: d

theorem Gap.walk_error {t : FileTree} {root l : Loc} {cs post : List PathStr}
    (h : Gap t root cs l post) : t.walk .stat maxLinks root cs = .error .notFound := by
  obtain ⟨pre, n, d, rfl, hw, hd, hn, hfree, rfl⟩ := h
  obtain ⟨k', -, hk⟩ := (walk_ok_iff.mp hw).walk_append
  obtain ⟨jump, hj⟩ := walk_eq (t := t) (m := .stat) k'
  rw [hk .stat (n :: post) (by simp), hj, walkAux_proper hd hn.2.1 hn.2.2, hfree]
  rfl

theorem gap_concat {t : FileTree} {root l : Loc} {cs post : List PathStr} {n : PathStr} :
    Gap t root (cs ++ [n]) l post ↔
      (∃ post', post = post' ++ [n] ∧ Gap t root cs l post') ∨
      (post = [] ∧ ∃ d, t.walk .stat maxLinks root cs = .ok d ∧ t.node d = some .dir ∧
        Proper n ∧ t.node (n :: d) = none ∧ l = n :: d) := by
  constructor
  · rintro ⟨pre, n', d, hcs, hspec⟩
    obtain rfl | ⟨post', c, rfl⟩ := List.eq_nil_or_concat' post
    · obtain ⟨rfl, hn⟩ := List.append_inj' hcs rfl
      obtain ⟨rfl, -⟩ := List.cons.inj hn
      exact Or.inr ⟨rfl, d, hspec⟩
    · rw [← List.cons_append, ← List.append_assoc] at hcs
      obtain ⟨rfl, hn⟩ := List.append_inj' hcs rfl
      obtain ⟨rfl, -⟩ := List.cons.inj hn
      exact Or.inl ⟨post', rfl, pre, n', d, rfl, hspec⟩
  · rintro (⟨post', rfl, pre, n', d, rfl, hspec⟩ | ⟨rfl, d, hspec⟩)
    · exact ⟨pre, n', d, by simp, hspec⟩
    · exact ⟨cs, n, d, rfl, hspec⟩

/-- The second tree is the first one with new, empty directories at `ls`. -/
structure NewDirs (t t' : FileTree) (ls : List Loc) : Prop where
  node : ∀ x, t'.node x = if x ∈ ls then some .dir else t.node x
  free : ∀ x ∈ ls, t.node x = none

theorem NewDirs.keeps {t t' : FileTree} {ls : List Loc} (h : NewDirs t t' ls) (x : Loc)
    (hx : (t.node x).isSome) : t'.node x = t.node x := by
  rw [h.node, if_neg]
  intro hmem
  rw [h.free x hmem] at hx
  cases hx

theorem NewDirs.concat {t t' t'' : FileTree} {ls : List Loc} {l : Loc} (h : NewDirs t t' ls)
    (hl : t'.node l = none) (h' : ∀ x, t''.node x = if x = l then some .dir else t'.node x) :
    NewDirs t t'' (ls ++ [l]) := by
  have hfree : l ∉ ls ∧ t.node l = none := by
    rw [h.node] at hl
    split_ifs at hl with hmem
    exact ⟨hmem, hl⟩
  refine ⟨fun x => ?_, fun x hx => ?_⟩
  · rw [h' x, h.node x]
    by_cases hxl : x = l <;> simp [hxl]
  · obtain hx | hx := List.mem_append.mp hx
    · exact h.free x hx
    · rw [List.mem_singleton] at hx
      exact hx ▸ hfree.2

theorem NewDirs.single {t t' : FileTree} {l : Loc} (hl : t.node l = none)
    (h' : ∀ x, t'.node x = if x = l then some .dir else t.node x) : NewDirs t t' [l] := by
  have hnone : NewDirs t t [] := ⟨fun x => by simp, fun x hx => by cases hx⟩
  exact hnone.concat hl h'

theorem node_cons_eq_none {t : FileTree} {l : Loc} (h : t.node l = none) (n : PathStr) :
    t.node (n :: l) = none := by
  by_contra hne
  have hd := t.parent_dir n l (Option.isSome_iff_ne_none.mpr hne)
  rw [h] at hd
  cases hd

/-- What `create_directories` leaves behind when the path has a gap at `l`: the missing
directories, all at or below `l`; the last one is empty. -/
structure Filled (d d' : Disk) (root : Loc) (cs : List PathStr) (l : Loc) (post : List PathStr) :
    Prop where
  created : ∃ ls, d'.touched = d.touched ++ ls ∧ l ∈ ls ∧ (∀ x ∈ ls, inside l x) ∧
    NewDirs d.tree d'.tree ls
  reaches : Walks d'.tree .stat maxLinks root cs (post.reverse ++ l)
  isDir : d'.tree.node (post.reverse ++ l) = some .dir
  empty : ∀ n, d'.tree.node (n :: (post.reverse ++ l)) = none

/-- One more missing directory below a filled gap. -/
theorem Filled.concat {d d' : Disk} {root l : Loc} {cs post : List PathStr} {n p : PathStr}
    (h : Filled d d' root cs l post) (hn : Proper n)
    (hp : d'.tree.resolve .mkdir p = d'.tree.walk .mkdir maxLinks root (cs ++ [n])) :
    (d'.createDirectory p).2 = 0 ∧
      Filled d (d'.createDirectory p).1 root (cs ++ [n]) l (post ++ [n]) := by
  have hloc : (post ++ [n]).reverse ++ l = n :: (post.reverse ++ l) := by simp
  have hres : d'.tree.resolve .mkdir p = .ok (n :: (post.reverse ++ l)) := by
    rw [hp, h.reaches.mkdir_concat h.isDir hn.2.1 hn.2.2]
  obtain ⟨hec, htouched, hnode⟩ := createDirectory_free hres (h.empty n)
  obtain ⟨ls, ht, hmem, hin, hnew⟩ := h.created
  have hnew' := hnew.concat (h.empty n) hnode
  have hkeep : ∀ x, (d'.tree.node x).isSome →
      (d'.createDirectory p).1.tree.node x = d'.tree.node x :=
    (NewDirs.single (h.empty n) hnode).keeps
  have hdir : (d'.createDirectory p).1.tree.node (n :: (post.reverse ++ l)) = some .dir := by
    rw [hnode, if_pos rfl]
  refine ⟨hec, ⟨ls ++ [n :: (post.reverse ++ l)], ?_, ?_, ?_, hnew'⟩, ?_, ?_, ?_⟩
  · rw [htouched, ht, List.append_assoc]
  · exact List.mem_append_left _ hmem
  · intro x hx
    obtain hx | hx := List.mem_append.mp hx
    · exact hin x hx
    · rw [List.mem_singleton] at hx
      rw [hx]
      exact inside_cons n (List.suffix_append _ _)
  · rw [hloc]
    exact (h.reaches.mono rfl hkeep).stat_concat hn (by rw [hdir]; rfl) (by simp [isLink, hdir])
  · rw [hloc, hdir]
  · intro c
    rw [hloc, hnode, if_neg (by simp), node_cons_eq_none (h.empty n)]

/-- The first missing directory. -/
theorem filled_single {d : Disk} {root q : Loc} {cs : List PathStr} {n p : PathStr}
    (hw : d.tree.walk .stat maxLinks root cs = .ok q) (hq : d.tree.node q = some .dir)
    (hn : Proper n) (hfree : d.tree.node (n :: q) = none)
    (hp : d.tree.resolve .mkdir p = d.tree.walk .mkdir maxLinks root (cs ++ [n])) :
    (d.createDirectory p).2 = 0 ∧
      Filled d (d.createDirectory p).1 root (cs ++ [n]) (n :: q) [] := by
  have hres : d.tree.resolve .mkdir p = .ok (n :: q) := by
    rw [hp, (walk_ok_iff.mp hw).mkdir_concat hq hn.2.1 hn.2.2]
  obtain ⟨hec, htouched, hnode⟩ := createDirectory_free hres hfree
  have hnew := NewDirs.single hfree hnode
  have hdir : (d.createDirectory p).1.tree.node (n :: q) = some .dir := by
    rw [hnode, if_pos rfl]
  refine ⟨hec, ⟨[n :: q], htouched, by simp, by simp [inside_refl], hnew⟩, ?_, hdir, ?_⟩
  · exact ((walk_ok_iff.mp hw).mono rfl hnew.keeps).stat_concat hn (by rw [hdir]; rfl)
      (by simp [isLink, hdir])
  · intro c
    rw [List.reverse_nil, List.nil_append, hnode, if_neg (by simp), node_cons_eq_none hfree]

/-- `create_directories` of the mount itself does nothing. -/
theorem createDirectories_root {d : Disk} {root : Loc} (hs : (d.tree.node root).isSome)
    (hl : d.tree.isLink root = false) :
    (createDirectories d root).1 = d ∧
      ((createDirectories d root).2 = 0 → d.tree.node root = some .dir) := by
  cases root with
  | nil => exact ⟨rfl, fun _ => d.tree.root_dir⟩
  | cons n rest =>
      have hn : Proper n := d.tree.proper n rest hs
      have hparent := d.tree.parent_dir n rest hs
      have hdir : isDirectory d.tree (absPath (n :: rest).reverse) = d.tree.isDir (n :: rest) := by
        rw [isDirectory, resolve_absPath hs hl]
      have hfound : fileNotFound d.tree (absPath rest.reverse) = false := by
        rw [fileNotFound, resolve_absPath (by rw [hparent]; rfl) (by simp [isLink, hparent])]
      have htaken := createDirectory_taken (d := d) (p := absPath (n :: rest).reverse) (by
        intro l hr
        rw [resolve_absPath hs hl] at hr
        rw [← Except.ok.inj hr]
        exact Option.isSome_iff_ne_none.mp hs)
      rw [createDirectories, if_neg (by simp [hn.2.1, hn.2.2]), hfound]
      by_cases hd : isDirectory d.tree (absPath (n :: rest).reverse) = true
      · rw [if_pos hd]
        rw [hdir] at hd
        exact ⟨rfl, fun _ => by simpa [isDir] using hd⟩
      · rw [if_neg hd, if_neg (by simp)]
        exact ⟨htaken.1, fun h0 => absurd h0 (htaken.2 (by simpa using hd))⟩

theorem not_gap_concat {t : FileTree} {root : Loc} {cs : List PathStr} {n : PathStr}
    (h : ∀ l post, ¬ Gap t root cs l post)
    (hn : ∀ q, t.walk .stat maxLinks root cs = .ok q → t.node q = some .dir → Proper n →
      t.node (n :: q) ≠ none) : ∀ l post, ¬ Gap t root (cs ++ [n]) l post := by
  intro l post hgap
  obtain ⟨post', -, hgap'⟩ | ⟨-, q, hw, hd, hprop, hfree, -⟩ := gap_concat.mp hgap
  · exact h _ _ hgap'
  · exact hn q hw hd hprop hfree

/-- `create_directory` finds something in its way, or no directory to work in. -/
theorem createDirectory_blocked {d : Disk} {root : Loc} {cs : List PathStr} {n p : PathStr}
    (hp : d.tree.resolve .mkdir p = d.tree.walk .mkdir maxLinks root (cs ++ [n])) (hn : Proper n)
    (hblock : ∀ q, d.tree.walk .stat maxLinks root cs = .ok q → d.tree.node q = some .dir →
      d.tree.node (n :: q) ≠ none)
    (hdir : isDirectory d.tree p = false) :
    (d.createDirectory p).1 = d ∧ (d.createDirectory p).2 ≠ 0 := by
  have htaken := createDirectory_taken (d := d) (p := p) (by
    intro l hr
    rw [hp] at hr
    obtain ⟨q, hq⟩ := (walk_ok_iff.mp hr).split (by simp)
    obtain ⟨k', -, hk⟩ := hq.walk_append
    have hd : d.tree.node q = some .dir :=
      (walk_ok_iff.mp (by rw [← hk .mkdir [n] (by simp), hr])).dir_start (by simp)
    rw [hq.mkdir_concat hd hn.2.1 hn.2.2] at hr
    rw [← Except.ok.inj hr]
    exact hblock q (walk_ok_iff.mpr hq) hd)
  exact ⟨htaken.1, htaken.2 hdir⟩

/-- The two ways `create_directories` can go.  Without a gap nothing is created, and success
means that the path is a directory; with a gap the missing directories are created. -/
def CreatesMissing (d : Disk) (root : Loc) (cs : List PathStr) (r : Disk × ErrorCode) : Prop :=
  ((∀ l post, ¬ Gap d.tree root cs l post) ∧ r.1 = d ∧
    (r.2 = 0 → ∃ l, d.tree.walk .stat maxLinks root cs = .ok l ∧ d.tree.node l = some .dir)) ∨
  (∃ l post, Gap d.tree root cs l post ∧ r.2 = 0 ∧ Filled d r.1 root cs l post)

/-- The last component when the parent exists or cannot be looked at. -/
theorem createsMissing_createDirectory {d : Disk} {root : Loc} {cs : List PathStr}
    {n p : PathStr} (hp : d.tree.resolve .mkdir p = d.tree.walk .mkdir maxLinks root (cs ++ [n]))
    (hn : Proper n) (hdir : isDirectory d.tree p = false)
    (hgap : ∀ l post, ¬ Gap d.tree root cs l post) :
    CreatesMissing d root (cs ++ [n]) (d.createDirectory p) := by
  by_cases hfree : ∃ q, d.tree.walk .stat maxLinks root cs = .ok q ∧ d.tree.node q = some .dir ∧
      d.tree.node (n :: q) = none
  · obtain ⟨q, hw, hd, hf⟩ := hfree
    obtain ⟨hec, hfill⟩ := filled_single hw hd hn hf hp
    exact Or.inr ⟨n :: q, [], gap_concat.mpr (Or.inr ⟨rfl, q, hw, hd, hn, hf, rfl⟩), hec, hfill⟩
  · have hblock : ∀ q, d.tree.walk .stat maxLinks root cs = .ok q → d.tree.node q = some .dir →
        d.tree.node (n :: q) ≠ none := fun q hw hd hf => hfree ⟨q, hw, hd, hf⟩
    obtain ⟨hsame, hec⟩ := createDirectory_blocked hp hn hblock hdir
    exact Or.inl ⟨not_gap_concat hgap (fun q hw hd _ => hblock q hw hd), hsame,
      fun h0 => absurd h0 hec⟩

/-- Nothing is created where the directory exists. -/
theorem createsMissing_of_isDirectory {d : Disk} {root : Loc} {cs : List PathStr} {p : PathStr}
    (hp : d.tree.resolve .stat p = d.tree.walk .stat maxLinks root cs)
    (hdir : isDirectory d.tree p = true) : CreatesMissing d root cs (d, 0) := by
  rw [isDirectory, hp] at hdir
  cases hw : d.tree.walk .stat maxLinks root cs with
  | error e => simp [hw] at hdir
  | ok l =>
      refine Or.inl ⟨fun l' post hgap => ?_, rfl, fun _ => ⟨l, hw, ?_⟩⟩
      · rw [hgap.walk_error] at hw
        cases hw
      · simpa [hw, isDir] using hdir

/-- The last component when the parent is missing and is created first. -/
theorem createsMissing_concat {d : Disk} {root : Loc} {cs : List PathStr} {n p : PathStr}
    {r : Disk × ErrorCode} (hs : (d.tree.node root).isSome) (hl : d.tree.isLink root = false)
    (hp : ∀ t : FileTree, (t.node root).isSome → t.isLink root = false →
      t.resolve .mkdir p = t.walk .mkdir maxLinks root (cs ++ [n]))
    (hn : Proper n) (hmissing : ∀ q, d.tree.walk .stat maxLinks root cs ≠ .ok q)
    (hr : CreatesMissing d root cs r) :
    CreatesMissing d root (cs ++ [n]) (if r.2 ≠ 0 then r else r.1.createDirectory p) := by
  obtain ⟨hg, hd, hok⟩ | ⟨l, post, hgap, hec, hfill⟩ := hr
  · have hne : r.2 ≠ 0 := by
      intro h0
      obtain ⟨q, hq, -⟩ := hok h0
      exact hmissing q hq
    rw [if_pos hne]
    exact Or.inl ⟨not_gap_concat hg (fun q hq => absurd hq (hmissing q)), hd,
      fun h0 => absurd h0 hne⟩
  · obtain ⟨ls, -, -, -, hnew⟩ := hfill.created
    have hkeep := hnew.keeps root hs
    have hp' := hp r.1.tree (by rw [hkeep]; exact hs) (by simp only [isLink, hkeep]; exact hl)
    obtain ⟨hec', hfill'⟩ := hfill.concat hn hp'
    rw [if_neg (by simp [hec])]
    exact Or.inr ⟨l, post ++ [n], gap_concat.mpr (Or.inl ⟨post, rfl, hgap⟩), hec', hfill'⟩

/-- No component, or a surviving `"."` or `".."`: the mount is looked at. -/
theorem createsMissing_root {d : Disk} {root : Loc} (hs : (d.tree.node root).isSome)
    (hl : d.tree.isLink root = false) {cs : List PathStr}
    (hcs : cs = [] ∨ cs = [dot] ∨ cs = [dotDot]) :
    CreatesMissing d root cs (createDirectories d root) := by
  have hroot := createDirectories_root hs hl
  have hnogap : ∀ l post, ¬ Gap d.tree root [] l post := by
    rintro l post ⟨pre, n, q, hpre, -⟩
    simp at hpre
  obtain ⟨jump, hj⟩ := walk_eq (t := d.tree) (m := .stat) maxLinks
  obtain rfl | rfl | rfl := hcs
  · exact Or.inl ⟨hnogap, hroot.1, fun h0 => ⟨root, by rw [hj, walkAux_nil], hroot.2 h0⟩⟩
  · refine Or.inl ⟨not_gap_concat hnogap (fun _ _ _ hn => absurd rfl hn.2.1), hroot.1,
      fun h0 => ⟨root, ?_, hroot.2 h0⟩⟩
    rw [hj, walkAux_dot (hroot.2 h0), walkAux_nil]
  · refine Or.inl ⟨not_gap_concat hnogap (fun _ _ _ hn => absurd rfl hn.2.2), hroot.1,
      fun h0 => ⟨root.tail, ?_, dir_tail (hroot.2 h0)⟩⟩
    rw [hj, walkAux_dotDot (hroot.2 h0), walkAux_nil]

/-- **`create_directories`** below the mount creates what is missing. -/
theorem createDirectories_spec {d : Disk} {root : Loc} (hs : (d.tree.node root).isSome)
    (hl : d.tree.isLink root = false) (cs : List PathStr) (hnames : ∀ c ∈ cs, IsName c)
    (htail : ∀ c ∈ cs.tail, Proper c) :
    CreatesMissing d root cs (createDirectories d (cs.reverse ++ root)) := by
  -- the recursion drops the last component
  induction cs using List.reverseRecOn with
  | nil => exact createsMissing_root hs hl (Or.inl rfl)
  | append_singleton cs n ih =>
      have hnames' : ∀ c ∈ cs, IsName c := fun c hc => hnames c (by simp [hc])
      have htail' : ∀ c ∈ cs.tail, Proper c := fun c hc => htail c (by
        cases cs with
        | nil => cases hc
        | cons a cs => exact List.mem_append_left _ hc)
      -- the paths of the recursion, seen from the mount
      have hpath : ∀ (t : FileTree) (m : Mode), (t.node root).isSome → t.isLink root = false →
          t.resolve m (absPath (n :: (cs.reverse ++ root)).reverse) =
            t.walk m maxLinks root (cs ++ [n]) := by
        intro t m hs' hl'
        rw [← resolve_absPath_append hs' hl' hnames]
        simp
      have hparent : d.tree.resolve .stat (absPath (cs.reverse ++ root).reverse) =
          d.tree.walk .stat maxLinks root cs := by
        rw [← resolve_absPath_append hs hl hnames']
        simp
      have hlist : (cs ++ [n]).reverse ++ root = n :: (cs.reverse ++ root) := by simp
      rw [hlist, createDirectories]
      by_cases hprop : Proper n
      · rw [if_neg (by simp [hprop.2.1, hprop.2.2])]
        by_cases hdir : isDirectory d.tree (absPath (n :: (cs.reverse ++ root)).reverse) = true
        · rw [if_pos hdir]
          exact createsMissing_of_isDirectory (hpath d.tree .stat hs hl) hdir
        · rw [if_neg hdir]
          by_cases hnf : fileNotFound d.tree (absPath (cs.reverse ++ root).reverse) = true
          · rw [if_pos hnf]
            refine createsMissing_concat hs hl (fun t => hpath t .mkdir) hprop (fun q hq => ?_)
              (ih hnames' htail')
            rw [fileNotFound, hparent, hq] at hnf
            cases hnf
          · rw [if_neg hnf]
            refine createsMissing_createDirectory (hpath d.tree .mkdir hs hl) hprop
              (by simpa using hdir) (fun l post hgap => ?_)
            rw [fileNotFound, hparent, hgap.walk_error] at hnf
            exact hnf rfl
      · obtain rfl : cs = [] := eq_nil_of_not_proper htail hprop
        have hdots := dots_of_not_proper (hnames n (by simp)) hprop
        rw [if_pos hdots]
        refine createsMissing_root hs hl (Or.inr ?_)
        obtain rfl | rfl := hdots
        · exact Or.inl rfl
        · exact Or.inr rfl

/-! ### `new_resource` -/

/-- The components of the directories that `new_resource` creates if they are missing: those of
the data path, without the last one unless the resource is a collection. -/
def parentComps (datapath : PathStr) (isCollection : Bool) : List PathStr :=
  if isCollection then normComps datapath else (normComps datapath).dropLast

theorem isName_of_mem_parentComps {p c : PathStr} {isCollection : Bool}
    (hc : c ∈ parentComps p isCollection) : IsName c := by
  unfold parentComps at hc
  split_ifs at hc
  · exact isName_of_mem_normComps hc
  · exact isName_of_mem_normComps (List.dropLast_subset _ hc)

theorem proper_of_mem_tail_parentComps {p c : PathStr} {isCollection : Bool}
    (hc : c ∈ (parentComps p isCollection).tail) : Proper c := by
  unfold parentComps at hc
  split_ifs at hc
  · exact proper_of_mem_tail_normComps hc
  · rw [List.tail_dropLast] at hc
    exact proper_of_mem_tail_normComps (List.dropLast_subset _ hc)

/-- `parents` is empty or the root, or the path of `parentComps`. -/
theorem parentPath_lexicalNormalize {p : PathStr} (hp : p ≠ []) (isCollection : Bool) :
    let parents := parentPath (lexicalNormalize p isCollection)
    (parentComps p isCollection = [] ∧ (parents = [] ∨ parents = ['/'])) ∨
    (parentComps p isCollection ≠ [] ∧ parents = absPath (parentComps p isCollection)) := by
  intro parents
  have hnames : ∀ c ∈ normComps p, IsName c := fun c hc => isName_of_mem_normComps hc
  by_cases hnet : p = ['/', '/']
  · subst hnet
    refine Or.inl ⟨by cases isCollection <;> simp [parentComps], Or.inl ?_⟩
    simp only [parents, lexicalNormalize_networkRoot]
    decide
  · cases isCollection with
    | true =>
        by_cases hnil : normComps p = []
        · refine Or.inl ⟨by simp [parentComps, hnil], Or.inl ?_⟩
          simp only [parents, lexicalNormalize_asDirectory hp hnet, hnil]
          decide
        · refine Or.inr ⟨by simpa [parentComps] using hnil, ?_⟩
          simp only [parents, lexicalNormalize_asDirectory hp hnet, if_neg hnil, parentComps,
            if_true]
          rw [absPath, if_neg hnil, parentPath_joinAbs_sep hnames]
    | false =>
        have hpar : parents = parentPath (absPath (normComps p)) := by
          simp only [parents, lexicalNormalize_eq hp hnet]
        have hpc : parentComps p false = (normComps p).dropLast := by simp [parentComps]
        obtain hnil | ⟨init, c, hc⟩ := List.eq_nil_or_concat' (normComps p)
        · refine Or.inl ⟨by rw [hpc, hnil]; rfl, Or.inl ?_⟩
          rw [hpar, hnil]
          decide
        · have hinit : ∀ x ∈ init, IsName x := fun x hx => hnames x (by simp [hc, hx])
          have hpar' : parents = absPath init := by
            rw [hpar, hc, parentPath_absPath_concat hinit (hnames c (by simp [hc]))]
          rw [hpc, hc, List.dropLast_concat, hpar']
          by_cases hnil : init = []
          · subst hnil
            exact Or.inl ⟨rfl, Or.inr rfl⟩
          · exact Or.inr ⟨hnil, rfl⟩

theorem relElements_append_mount {t : FileTree} (fs : Mounted t) {cs : List PathStr}
    (hcs : ∀ c ∈ cs, IsName c) (hne : cs ≠ []) :
    relElements (append fs.mount (absPath cs)) = fs.root.reverse ++ cs := by
  have happ : append fs.mount (absPath cs) = fs.mount ++ joinAbs cs := by
    rw [absPath, if_neg hne]
    obtain ⟨c, cs', rfl⟩ := List.exists_cons_of_ne_nil hne
    simp [joinAbs, append]
  rw [happ, fs.mount_eq]
  by_cases hroot : fs.root = []
  · rw [hroot]
    rw [show absPath (List.reverse []) = ['/'] from rfl, List.singleton_append,
      relElements_sep (joinAbs_eq_nil.not.mpr hne), relElements_joinAbs hcs]
    rfl
  · rw [absPath, if_neg (by simpa using hroot), ← joinAbs_append, relElements_joinAbs]
    intro c hc
    obtain hc | hc := List.mem_append.mp hc
    · exact isName_of_mem_reverse fs.root_isSome hc
    · exact hcs c hc

/-- **`new_resource`** creates the missing parents and hands out the resource. -/
theorem newResource_spec {t : FileTree} (fs : Mounted t) (ls : List Loc) (rinfo : LocalPathInfo)
    (isCollection : Bool) (hp : rinfo.datapath.toList ≠ []) :
    let d : Disk := ⟨t, ls⟩
    let res := fs.newResource d rinfo isCollection
    let pc := parentComps rinfo.datapath.toList isCollection
    let ns := lexicalNormalize rinfo.datapath.toList isCollection
    (pc = [] ∧ res = (d, .ok (localPathResource t fs.toPosixFilesystem ns))) ∨
    (∃ r, CreatesMissing d fs.root pc r ∧
      res = (r.1, if r.2 ≠ 0 then .error r.2
        else .ok (localPathResource r.1.tree fs.toPosixFilesystem ns))) := by
  intro d res pc ns
  have hns : ns ≠ [] := lexicalNormalize_eq_nil.not.mpr hp
  obtain ⟨hpc, hpar⟩ | ⟨hpc, hpar⟩ := parentPath_lexicalNormalize hp isCollection
  · refine Or.inl ⟨hpc, ?_⟩
    have hskip : ¬ (parentPath ns ≠ [] ∧ ¬ equiv (parentPath ns) ['/']) := by
      obtain hpar | hpar := hpar <;> rw [hpar] <;> decide
    simp only [res, PosixFilesystem.newResource]
    rw [if_neg hns, if_neg hskip]
  · have hnames : ∀ c ∈ pc, IsName c := fun c hc => isName_of_mem_parentComps hc
    have hgo : parentPath ns ≠ [] ∧ ¬ equiv (parentPath ns) ['/'] := by
      rw [hpar]
      refine ⟨absPath_ne_nil _, ?_⟩
      rw [equiv, elements_absPath hnames]
      simpa [elements, relElements, endsInSep] using hpc
    refine Or.inr ⟨createDirectories d (pc.reverse ++ fs.root), createDirectories_spec
      fs.root_isSome fs.root_not_link pc hnames (fun c hc => proper_of_mem_tail_parentComps hc), ?_⟩
    have hlist : (relElements (append fs.mount (parentPath ns))).reverse =
        pc.reverse ++ fs.root := by
      rw [hpar, relElements_append_mount fs hnames hpc]
      simp [pc]
    simp only [res, PosixFilesystem.newResource]
    rw [if_neg hns, if_pos hgo, hlist]
    split_ifs <;> rfl

/-- An error of `new_resource` has a number. -/
theorem newResource_error {d d' : Disk} {fs : PosixFilesystem} {rinfo : LocalPathInfo} {coll : Bool}
    {ec : ErrorCode} (hnew : fs.newResource d rinfo coll = (d', .error ec)) : ec ≠ 0 := by
  have hres := congrArg Prod.snd hnew
  unfold PosixFilesystem.newResource at hres
  dsimp only at hres
  split_ifs at hres with hns hparents hec
  · rw [← Outcome.error.inj hres]
    decide
  · rw [← Outcome.error.inj hres]
    exact hec

/-- The name of a new resource. -/
theorem newResource_name {d d' : Disk} {fs : PosixFilesystem} {rinfo : LocalPathInfo} {coll : Bool}
    {res : LocalPathResource} (hnew : fs.newResource d rinfo coll = (d', .ok res)) :
    rinfo.datapath.toList ≠ [] ∧ res.name = lexicalNormalize rinfo.datapath.toList coll := by
  have hres := congrArg Prod.snd hnew
  unfold PosixFilesystem.newResource at hres
  dsimp only at hres
  split_ifs at hres with hns hparents hec
  all_goals
    rw [← Outcome.ok.inj hres]
    exact ⟨fun hnil => hns (lexicalNormalize_eq_nil.mpr hnil), rfl⟩

/-- A copy of a file that succeeds has written it. -/
theorem copyFile_ok {fallocate : Bool} {d d' : Disk} {src dst : PathStr}
    (hcopy : ((copyFile fallocate d src dst).1, outcomeOf (copyFile fallocate d src dst).2) =
      (d', .ok ())) : ∃ data, d.writeFile fallocate dst data = (d', 0) := by
  have hdir : EISDIR ≠ 0 := by decide
  cases hs : d.tree.resolve .stat src with
  | error e =>
      have he : errnoOf e ≠ 0 := by cases e <;> decide
      simp [copyFile, hs, outcomeOf, he] at hcopy
  | ok s =>
      cases hn : d.tree.node s with
      | none => simp [copyFile, hs, hn, outcomeOf, hdir] at hcopy
      | some nd =>
          cases nd with
          | dir => simp [copyFile, hs, hn, outcomeOf, hdir] at hcopy
          | link target => simp [copyFile, hs, hn, outcomeOf, hdir] at hcopy
          | file data =>
              refine ⟨data, Prod.ext ?_ ?_⟩
              · simpa only [copyFile, hs, hn] using congrArg Prod.fst hcopy
              · have hok := congrArg Prod.snd hcopy
                simp only [copyFile, hs, hn, outcomeOf] at hok
                split_ifs at hok with hec
                exact hec

/-! ### Things stay what they are -/

theorem createDirectory_persists (d : Disk) (p : PathStr) :
    Persists d.tree (d.createDirectory p).1.tree := by
  by_cases hfree : ∃ x, d.tree.resolve .mkdir p = .ok x ∧ d.tree.node x = none
  · obtain ⟨x, hr, hx⟩ := hfree
    exact persists_of_keeps (NewDirs.single hx (createDirectory_free hr hx).2.2).keeps
  · rw [(createDirectory_taken fun x hr hx => hfree ⟨x, hr, hx⟩).1]
    exact .refl _

theorem writeFile_persists (fallocate : Bool) (d : Disk) (p : PathStr) (data : List UInt8) :
    Persists d.tree (d.writeFile fallocate p data).1.tree := by
  obtain ⟨hd, -⟩ | ⟨x, -, hwrites, -⟩ := writeFile_cases fallocate d p data
  · rw [hd]
    exact .refl _
  -- only what was no directory and no link is written
  have hkeep : ∀ y, (∀ old, d.tree.node y ≠ some (.file old)) → (d.tree.node y).isSome →
      (d.writeFile fallocate p data).1.tree.node y = d.tree.node y := by
    intro y hfile hs
    rw [hwrites.node, if_neg]
    rintro rfl
    obtain hx | ⟨old, hx⟩ := hwrites.place
    · rw [hx] at hs
      cases hs
    · exact hfile old hx
  refine ⟨fun y hy => ?_, fun y target hy => ?_, fun y old hy => ?_⟩
  · rw [hkeep y (by simp [hy]) (by rw [hy]; rfl), hy]
  · rw [hkeep y (by simp [hy]) (by rw [hy]; rfl), hy]
  · rw [hwrites.node]
    split_ifs
    · exact ⟨_, rfl⟩
    · exact ⟨old, hy⟩

theorem createDirectories_persists (d : Disk) (rcs : List PathStr) :
    Persists d.tree (createDirectories d rcs).1.tree := by
  induction rcs with
  | nil => exact .refl _
  | cons n rest ih =>
      rw [createDirectories]
      dsimp only
      split_ifs
      · exact ih
      · exact .refl _
      · exact ih
      · exact ih.trans (createDirectory_persists _ _)
      · exact createDirectory_persists _ _

theorem newResource_persists (d : Disk) (fs : PosixFilesystem) (rinfo : LocalPathInfo)
    (isCollection : Bool) : Persists d.tree (fs.newResource d rinfo isCollection).1.tree := by
  unfold PosixFilesystem.newResource
  dsimp only
  split_ifs
  · exact .refl _
  · exact createDirectories_persists _ _
  · exact createDirectories_persists _ _
  · exact .refl _

theorem copyFile_persists (fallocate : Bool) (d : Disk) (src dst : PathStr) :
    Persists d.tree (copyFile fallocate d src dst).1.tree := by
  unfold copyFile
  split
  · exact .refl _
  · split
    · exact writeFile_persists _ _ _ _
    · exact .refl _

/-- Things stay what they are during a pass. -/
theorem copyEntry_persists (fallocate : Bool) (src dst : PathStr) (d : Disk) (it : PathStr) :
    Persists d.tree (copyEntry fallocate src dst d it).1.tree := by
  unfold copyEntry
  split
  · exact .refl _
  · dsimp only
    split_ifs
    · split
      · exact .refl _
      · exact .refl _
      · exact createDirectory_persists _ _
    · exact copyFile_persists _ _ _ _

theorem copyDirectory_persists (fallocate : Bool) (src dst : PathStr) (d : Disk)
    (entries : List PathStr) :
    Persists d.tree (copyDirectory fallocate src dst d entries).1.tree := by
  induction entries generalizing d with
  | nil => exact .refl _
  | cons it entries ih =>
      have hstep := copyEntry_persists fallocate src dst d it
      rw [copyDirectory]
      generalize copyEntry fallocate src dst d it = r at hstep
      obtain ⟨d', o⟩ := r
      cases o with
      | ok u => exact hstep.trans (ih d')
      | error ec => exact hstep
      | thrown ec => exact hstep

/-- A path that has been written leads to a file. -/
theorem writeFile_resolves {fallocate : Bool} {d d' : Disk} {p : PathStr} {data : List UInt8}
    (h : d.writeFile fallocate p data = (d', 0)) : ∃ x, d'.tree.resolve .stat p = .ok x := by
  have hpersists := writeFile_persists fallocate d p data
  obtain ⟨-, hec, -⟩ | ⟨x, hx, hwrites, -⟩ := writeFile_cases fallocate d p data
  · exact absurd (by rw [h]) hec
  rw [h] at hpersists hwrites
  refine ⟨x, ?_⟩
  obtain hfree | ⟨old, hold⟩ := hwrites.place
  · exact resolve_created hx hfree hwrites.node fun _ target hlink => by cases hlink
  · exact resolve_persists (resolve_found hx (by rw [hold]; rfl)) rfl hpersists

/-- `new_resource` of a collection leaves a directory. -/
theorem newResource_resolves {t : FileTree} (fs : Mounted t) {ls : List Loc} {rinfo : LocalPathInfo}
    {d : Disk} {res : LocalPathResource}
    (h : fs.newResource ⟨t, ls⟩ rinfo true = (d, .ok res)) :
    ∃ x, d.tree.walk .stat maxLinks fs.root (normComps rinfo.datapath.toList) = .ok x := by
  have hp : rinfo.datapath.toList ≠ [] := by
    intro hnil
    simp [PosixFilesystem.newResource, hnil, lexicalNormalize] at h
  obtain ⟨hpc, -⟩ | ⟨r, hr, hres⟩ := newResource_spec fs ls rinfo true hp
  · obtain ⟨jump, hj⟩ := walk_eq (t := d.tree) (m := .stat) maxLinks
    rw [show parentComps rinfo.datapath.toList true = normComps rinfo.datapath.toList from rfl]
      at hpc
    exact ⟨fs.root, by rw [hpc, hj, walkAux_nil]⟩
  have heq := h.symm.trans hres
  obtain rfl : d = r.1 := congrArg Prod.fst heq
  obtain ⟨-, hd, hdir⟩ | ⟨l, post, -, -, hfill⟩ := hr
  · have hec : r.2 = 0 := by
      by_contra hne
      have hok := congrArg Prod.snd heq
      dsimp only at hok
      rw [if_pos hne] at hok
      cases hok
    obtain ⟨x, hx, -⟩ := hdir hec
    rw [hd]
    exact ⟨x, hx⟩
  · exact ⟨_, walk_ok_iff.mpr hfill.reaches⟩

/-! ### Outputs and the mount -/

/-- Everything created or written so far lies inside the mount. -/
def WrittenInside (root : Loc) (d : Disk) : Prop := ∀ l ∈ d.touched, inside root l

theorem writtenInside_concat {root l : Loc} {d d' : Disk} (h : d'.touched = d.touched ++ [l]) :
    WrittenInside root d' ↔ WrittenInside root d ∧ inside root l := by
  unfold WrittenInside
  rw [h]
  simp [or_imp, forall_and]

theorem Gap.unique {t : FileTree} {root l l' : Loc} {cs post post' : List PathStr}
    (h : Gap t root cs l post) (h' : Gap t root cs l' post') : l = l' := by
  induction cs using List.reverseRecOn generalizing post post' with
  | nil =>
      obtain ⟨pre, n, q, hcs, -⟩ := h
      simp at hcs
  | append_singleton cs n ih =>
      obtain ⟨_, -, hg⟩ | ⟨-, q, hw, -, -, -, rfl⟩ := gap_concat.mp h <;>
        obtain ⟨_, -, hg'⟩ | ⟨-, q', hw', -, -, -, rfl⟩ := gap_concat.mp h'
      · exact ih hg hg'
      · rw [hg.walk_error] at hw'
        cases hw'
      · rw [hg'.walk_error] at hw
        cases hw
      · rw [hw] at hw'
        rw [Except.ok.inj hw']

/-- If the parents have a gap, the directory it is in lies inside the mount. -/
def GapConfined (t : FileTree) (root : Loc) (cs : List PathStr) : Prop :=
  ∀ n q post, Gap t root cs (n :: q) post → inside root q

/-- What `create_directories` makes lies inside the mount exactly if the gap does. -/
theorem writtenInside_createsMissing {d : Disk} {root : Loc} {cs : List PathStr}
    {r : Disk × ErrorCode} (hs : (d.tree.node root).isSome) (h : CreatesMissing d root cs r) :
    WrittenInside root r.1 ↔ WrittenInside root d ∧ GapConfined d.tree root cs := by
  obtain ⟨hgap, hsame, -⟩ | ⟨l, post, hgap, -, hfill⟩ := h
  · rw [hsame]
    exact ⟨fun h => ⟨h, fun n q post hg => absurd hg (hgap _ _)⟩, fun h => h.1⟩
  · obtain ⟨ls, ht, hmem, hin, -⟩ := hfill.created
    unfold WrittenInside
    rw [ht]
    constructor
    · intro h
      refine ⟨fun x hx => h x (List.mem_append_left _ hx), ?_⟩
      intro n q post' hg
      obtain rfl := hgap.unique hg
      obtain rfl | hq := List.suffix_cons_iff.mp (h _ (List.mem_append_right _ hmem))
      · -- the mount exists, the gap does not
        obtain ⟨_, _, _, -, -, -, -, hfree, heq⟩ := hgap
        rw [heq, hfree] at hs
        cases hs
      · exact hq
    · rintro ⟨h, hg⟩ x hx
      obtain hx | hx := List.mem_append.mp hx
      · exact h x hx
      · obtain ⟨pre, n, q, hcs, hw, hd, hn, hfree, rfl⟩ := hgap
        have hpost := hg n q post ⟨pre, n, q, hcs, hw, hd, hn, hfree, rfl⟩
        exact (inside_cons n hpost).trans (hin x hx)

/-- A new directory at `p` would stand inside the mount. -/
def MkdirConfined (root : Loc) (t : FileTree) (p : PathStr) : Prop :=
  ∀ l, t.resolve .mkdir p = .ok l → t.node l = none → inside root l

/-- The file that copying `src` to `dst` creates or overwrites, links being followed, stands
inside the mount. -/
def FileConfined (root : Loc) (t : FileTree) (src dst : PathStr) : Prop :=
  ∀ s data l, t.resolve .stat src = .ok s → t.node s = some (.file data) →
    t.resolve .create dst = .ok l → t.node l ≠ some .dir → inside root l

/-- The entry `it` of the source directory is copied to a place inside the mount. -/
def EntryConfined (root : Loc) (t : FileTree) (src dst it : PathStr) : Prop :=
  ∀ rel, plainRelative t it src = .ok rel →
    if isDirectory t it then fileNotFound t (append dst rel) → MkdirConfined root t (append dst rel)
    else FileConfined root t it (append dst rel)

theorem writtenInside_createDirectory {root : Loc} {d : Disk} {p : PathStr} :
    WrittenInside root (d.createDirectory p).1 ↔
      WrittenInside root d ∧ MkdirConfined root d.tree p := by
  by_cases hfree : ∃ l, d.tree.resolve .mkdir p = .ok l ∧ d.tree.node l = none
  · obtain ⟨l, hr, hl⟩ := hfree
    rw [writtenInside_concat (createDirectory_free hr hl).2.1]
    refine and_congr_right fun _ => ⟨fun h l' hr' _ => ?_, fun h => h l hr hl⟩
    rw [hr] at hr'
    exact Except.ok.inj hr' ▸ h
  · have htaken := createDirectory_taken (d := d) (p := p) (fun l hr hl => hfree ⟨l, hr, hl⟩)
    rw [htaken.1]
    exact ⟨fun h => ⟨h, fun l hr hl => absurd ⟨l, hr, hl⟩ hfree⟩, fun h => h.1⟩

theorem writtenInside_writeFile {root : Loc} {fallocate : Bool} {d : Disk} {p : PathStr}
    {data : List UInt8} :
    WrittenInside root (d.writeFile fallocate p data).1 ↔
      WrittenInside root d ∧ ∀ l, d.tree.resolve .create p = .ok l →
        d.tree.node l ≠ some .dir → inside root l := by
  obtain ⟨hd, -, hdir⟩ | ⟨x, hr, hw, -⟩ := writeFile_cases fallocate d p data
  · rw [hd]
    exact ⟨fun h => ⟨h, fun x hr hx => absurd (hdir x hr) hx⟩, fun h => h.1⟩
  · have hx : d.tree.node x ≠ some .dir := by
      obtain hx | ⟨old, hx⟩ := hw.place <;> simp [hx]
    rw [writtenInside_concat hw.touched, hr]
    refine and_congr_right fun _ => ⟨fun hin l hl _ => ?_, fun h => h x rfl hx⟩
    exact Except.ok.inj hl ▸ hin

theorem writtenInside_copyFile {root : Loc} {fallocate : Bool} {d : Disk} {src dst : PathStr} :
    WrittenInside root (copyFile fallocate d src dst).1 ↔
      WrittenInside root d ∧ FileConfined root d.tree src dst := by
  unfold copyFile FileConfined
  cases hr : d.tree.resolve .stat src with
  | error e => simp
  | ok s =>
      by_cases hfile : ∃ data, d.tree.node s = some (.file data)
      · obtain ⟨data, hn⟩ := hfile
        simp only [hn]
        rw [writtenInside_writeFile]
        refine and_congr_right fun _ => ⟨fun h s' data' l _ _ => h l, fun h l => ?_⟩
        exact h s data l rfl hn
      · have hsame : (match d.tree.node s with
            | some (.file data) => d.writeFile fallocate dst data
            | _ => (d, EISDIR)).1 = d := by
          split
          · next data hn => exact absurd ⟨data, hn⟩ hfile
          · rfl
        rw [hsame]
        refine ⟨fun h => ⟨h, fun s' data l hs hn => ?_⟩, fun h => h.1⟩
        obtain rfl := Except.ok.inj hs
        exact absurd ⟨data, hn⟩ hfile

theorem writtenInside_copyEntry (root : Loc) (fallocate : Bool) (src dst : PathStr) (d : Disk)
    (it : PathStr) :
    WrittenInside root (copyEntry fallocate src dst d it).1 ↔
      WrittenInside root d ∧ EntryConfined root d.tree src dst it := by
  unfold copyEntry EntryConfined
  cases hrel : plainRelative d.tree it src with
  | error ec => simp
  | ok rel =>
      have hone : ∀ P : PathStr → Prop,
          (∀ rel', Except.ok (ε := ErrorCode) rel = .ok rel' → P rel') ↔ P rel := by
        intro P
        exact ⟨fun h => h rel rfl, fun h rel' he => Except.ok.inj he ▸ h⟩
      rw [hone]
      by_cases hdir : isDirectory d.tree it = true
      · simp only [hdir, if_true]
        cases hs : d.tree.resolve .stat (append dst rel) with
        | ok l => simp [fileNotFound, hs]
        | error e => cases e <;> simp [fileNotFound, hs, writtenInside_createDirectory]
      · simp only [hdir]
        exact writtenInside_copyFile

/-- Along the loop of `copy_directory` every entry is copied to a place inside the mount, in the
tree that the entries before it have left. -/
def EntriesConfined (root : Loc) (fallocate : Bool) (src dst : PathStr) :
    Disk → List PathStr → Prop
  | _, [] => True
  | d, it :: entries =>
      EntryConfined root d.tree src dst it ∧
        ((copyEntry fallocate src dst d it).2 = .ok () →
          EntriesConfined root fallocate src dst (copyEntry fallocate src dst d it).1 entries)

/-- The loop of `copy_directory`, entry by entry. -/
theorem writtenInside_copyDirectory {root : Loc} {fallocate : Bool} {src dst : PathStr} {d : Disk}
    {entries : List PathStr} :
    WrittenInside root (copyDirectory fallocate src dst d entries).1 ↔
      WrittenInside root d ∧ EntriesConfined root fallocate src dst d entries := by
  induction entries generalizing d with
  | nil => simp [copyDirectory, EntriesConfined]
  | cons it entries ih =>
      have hstep := writtenInside_copyEntry root fallocate src dst d it
      rw [copyDirectory, EntriesConfined]
      generalize hr : copyEntry fallocate src dst d it = r at hstep
      obtain ⟨d', o⟩ := r
      cases o with
      | ok u =>
          rw [ih, hstep, and_assoc]
          simp
      | error ec => simp [hstep]
      | thrown ec => simp [hstep]

/-- What the transfer writes goes inside the mount. -/
def TransferConfined (root : Loc) (fallocate : Bool) (d : Disk) (src dst : PathStr)
    (entries : List PathStr) : Prop :=
  if isDirectory d.tree src then EntriesConfined root fallocate src dst d entries
  else FileConfined root d.tree src dst

theorem writtenInside_transferLocal {root : Loc} {fallocate : Bool} {d : Disk}
    {src dst : PathStr} {entries : List PathStr} :
    WrittenInside root (transferLocal fallocate d src dst entries).1 ↔
      WrittenInside root d ∧ TransferConfined root fallocate d src dst entries := by
  unfold transferLocal TransferConfined
  split_ifs
  · exact writtenInside_copyDirectory
  · exact writtenInside_copyFile

/-- The copies whose outputs stay inside the mount: the gap that `new_resource` fills is inside
it, and so is, step by step, the place to which each destination path of the transfer
resolves. -/
def OutputsConfined (fallocate : Bool) (t : FileTree) (fs : Mounted t) (rinfo : LocalPathInfo)
    (isCollection : Bool) (src : PathStr) (entries : List PathStr) : Prop :=
  GapConfined t fs.root (parentComps rinfo.datapath.toList isCollection) ∧
  ∀ res, (fs.newResource ⟨t, []⟩ rinfo isCollection).2 = .ok res →
    TransferConfined fs.root fallocate (fs.newResource ⟨t, []⟩ rinfo isCollection).1 src
      res.canonicalPath entries

/-- What `new_resource` creates lies inside the mount exactly if the gap does. -/
theorem writtenInside_newResource {t : FileTree} (fs : Mounted t) (rinfo : LocalPathInfo)
    (isCollection : Bool) :
    WrittenInside fs.root (fs.newResource ⟨t, []⟩ rinfo isCollection).1 ↔
      GapConfined t fs.root (parentComps rinfo.datapath.toList isCollection) := by
  have hempty : WrittenInside fs.root ⟨t, []⟩ := fun l hl => by cases hl
  have hnogap : parentComps rinfo.datapath.toList isCollection = [] →
      GapConfined t fs.root (parentComps rinfo.datapath.toList isCollection) := by
    rintro hnil n q post ⟨pre, n', q', hcs, -⟩
    rw [hnil] at hcs
    simp at hcs
  by_cases hp : rinfo.datapath.toList = []
  · have hsame : (fs.newResource ⟨t, []⟩ rinfo isCollection).1 = ⟨t, []⟩ := by
      simp [PosixFilesystem.newResource, hp, lexicalNormalize]
    rw [hsame]
    refine ⟨fun _ => hnogap ?_, fun _ => hempty⟩
    rw [hp]
    cases isCollection <;> decide
  · obtain ⟨hnil, hres⟩ | ⟨r, hr, hres⟩ := newResource_spec fs [] rinfo isCollection hp
    · rw [hres]
      exact ⟨fun _ => hnogap hnil, fun _ => hempty⟩
    · rw [hres, writtenInside_createsMissing fs.root_isSome hr]
      exact ⟨fun h => h.2, fun h => ⟨hempty, h⟩⟩

end Norns
