import Norns.TarArchive

/-! # Unpacking

`tar::extract` sets a new path on each entry of an archive, below the directory that it is given,
and lets libarchive create the entry there.  Of libarchive only its contract is used (`Extractor`):
a path with a `".."` is refused, and so is one that leads through a symbolic link; otherwise the
entry appears at the location that the path spells, below directories, and nothing else changes.
A link at that location itself is replaced.

`directory_round_trip`: what `add_directory` packs and `extract` unpacks is the source tree, below
the target directory and the normalised name, whatever path leads to the source and whatever alias
the name is. -/

namespace Norns

open Lib Lib.PathStr Lib.FileTree

/-- The location that a path spells. -/
def pathLoc (p : PathStr) : Loc := ((names p).filter (· ≠ dot)).reverse

/-- What an entry becomes in a tree. -/
def TarContent.node : TarContent → Node
  | .directory => .dir
  | .regular data => .file data

/-- The entry `c` has been extracted at `loc`: no link was on the way to it, and only the way has
changed. -/
structure Extracted (t t' : FileTree) (loc : Loc) (c : TarContent) : Prop where
  no_link : ∀ l, strictlyBelow l loc → t.isLink l = false
  placed : t'.node loc = some c.node
  frame : ∀ l, ¬ inside l loc → t'.node l = t.node l

/-- `archive_read_extract` with the flags `SECURE_SYMLINKS` and `SECURE_NODOTDOT`. -/
structure Extractor where
  readExtract : FileTree → PathStr → TarContent → Except ErrorCode FileTree
  spec : ∀ t p c t', readExtract t p c = .ok t' → dotDot ∉ names p ∧ Extracted t t' (pathLoc p) c

/-- `utils::remove_leading_separator`. -/
def removeLeadingSeparator (pathname : PathStr) : PathStr :=
  if pathname.head? = some '/' then pathname.tail else pathname

/-- The path at which an entry is extracted. -/
def newPathname (parentDir : PathStr) (e : TarEntry) : PathStr :=
  append parentDir (removeLeadingSeparator e.pathname)

/-- The loop of `tar::extract`. -/
def extractEntries (x : Extractor) (parentDir : PathStr) :
    FileTree → List TarEntry → FileTree × Outcome Unit
  | t, [] => (t, .ok ())
  | t, e :: arc =>
      match x.readExtract t (newPathname parentDir e) e.content with
      | .error ec => (t, .error ec)
      | .ok t' => extractEntries x parentDir t' arc

/-- `tar::extract`. -/
def extract (x : Extractor) (t : FileTree) (arc : List TarEntry) (parentDir : PathStr) :
    FileTree × Outcome Unit :=
  if parentDir = [] then (t, .error EINVAL)
  else
    match t.resolve .stat parentDir with
    | .error .loop => (t, .thrown ELOOP)
    | .error _ => (t, .error EINVAL)
    | .ok l => if t.isDir l then extractEntries x parentDir t arc else (t, .error EINVAL)

/-! ### What the loop leaves behind -/

/-- The loop makes the way to every entry look like `W`, if `W` has directories above the
entries, and changes nothing else. -/
theorem extractEntries_spec {x : Extractor} {parentDir : PathStr} {W : Loc → Option Node}
    {arc : List TarEntry} {t t' : FileTree}
    (hW : ∀ e ∈ arc, W (pathLoc (newPathname parentDir e)) = some e.content.node ∧
      ∀ q, strictlyBelow q (pathLoc (newPathname parentDir e)) → W q = some .dir)
    (h : extractEntries x parentDir t arc = (t', .ok ())) :
    (∀ q, (∃ e ∈ arc, inside q (pathLoc (newPathname parentDir e))) → t'.node q = W q) ∧
    ∀ q, (∀ e ∈ arc, ¬ inside q (pathLoc (newPathname parentDir e))) → t'.node q = t.node q := by
  induction arc generalizing t with
  | nil =>
      obtain ⟨rfl, -⟩ := Prod.mk.inj h
      exact ⟨fun q ⟨e, he, _⟩ => absurd he (by simp), fun q _ => rfl⟩
  | cons e arc ih =>
      rw [extractEntries] at h
      cases hx : x.readExtract t (newPathname parentDir e) e.content with
      | error ec => simp [hx] at h
      | ok t₁ =>
          rw [hx] at h
          obtain ⟨-, hex⟩ := x.spec _ _ _ _ hx
          obtain ⟨hWe, hWabove⟩ := hW e (by simp)
          obtain ⟨hin, hout⟩ := ih (fun e' he' => hW e' (by simp [he'])) h
          have hway : ∀ q, inside q (pathLoc (newPathname parentDir e)) → t₁.node q = W q := by
            intro q hq
            by_cases heq : pathLoc (newPathname parentDir e) = q
            · rw [← heq, hex.placed, hWe]
            · rw [hWabove q ⟨hq, heq⟩]
              exact dir_of_inside hq heq (by rw [hex.placed]; rfl)
          constructor
          · rintro q ⟨e', he', hq⟩
            by_cases hlater : ∃ e' ∈ arc, inside q (pathLoc (newPathname parentDir e'))
            · exact hin q hlater
            · -- only the first entry is below `q`, and the others leave it
              have hnot : ∀ e' ∈ arc, ¬ inside q (pathLoc (newPathname parentDir e')) :=
                fun e' he' hq' => hlater ⟨e', he', hq'⟩
              obtain rfl | he' := List.mem_cons.mp he'
              · rw [hout q hnot, hway q hq]
              · exact absurd hq (hnot e' he')
          · intro q hq
            rw [hout q (fun e' he' => hq e' (by simp [he'])), hex.frame q (hq e (by simp))]

/-- The first entry of an extracted archive has a path without `".."`, and no link leads to it. -/
theorem extractEntries_first {x : Extractor} {parentDir : PathStr} {e : TarEntry}
    {arc : List TarEntry} {t t' : FileTree}
    (h : extractEntries x parentDir t (e :: arc) = (t', .ok ())) :
    dotDot ∉ names (newPathname parentDir e) ∧
      ∀ l, strictlyBelow l (pathLoc (newPathname parentDir e)) → t.isLink l = false := by
  rw [extractEntries] at h
  cases hx : x.readExtract t (newPathname parentDir e) e.content with
  | error ec => simp [hx] at h
  | ok t₁ =>
      obtain ⟨hdd, hex⟩ := x.spec _ _ _ _ hx
      exact ⟨hdd, hex.no_link⟩

/-! ### Names -/

theorem pathLoc_append (p q : PathStr) : pathLoc (append p q) = pathLoc q ++ pathLoc p := by
  simp [pathLoc, names_append]

theorem names_removeLeadingSeparator (p : PathStr) :
    names (removeLeadingSeparator p) = names p := by
  unfold removeLeadingSeparator
  split_ifs with h
  · obtain ⟨s, rfl⟩ := List.head?_eq_some_iff.mp h
    rw [List.tail_cons, names_sep]
  · rfl

theorem pathLoc_newPathname (parentDir : PathStr) (e : TarEntry) :
    pathLoc (newPathname parentDir e) = pathLoc e.pathname ++ pathLoc parentDir := by
  rw [newPathname, pathLoc_append]
  simp [pathLoc, names_removeLeadingSeparator]

/-- The name of the entry `r` in the archive. -/
def archiveName (d : PathStr) (r : List PathStr) : PathStr :=
  append (if lexicalNormalize d false = [] then ['/'] else lexicalNormalize d false)
    (entryPath [] (if r = [] then [dot] else r))

theorem transform_entry {t : FileTree} {l : Loc} {r : List PathStr} (d : PathStr)
    (hl : (t.node l).isSome) (hl' : t.isLink l = false) (hr : (t.node (r.reverse ++ l)).isSome)
    (hr' : t.isLink (r.reverse ++ l) = false) :
    transform t (entryPath (absPath l.reverse) r) (absPath l.reverse) d =
      .ok (archiveName d r) := by
  have hproper : ∀ c ∈ (r.reverse ++ l).reverse, Proper c := fun c hc =>
    proper_of_mem hr (List.mem_reverse.mp hc)
  have hproper' : ∀ c ∈ l.reverse, Proper c := fun c hc =>
    proper_of_mem hl (List.mem_reverse.mp hc)
  have hpath : entryPath (absPath l.reverse) r = absPath (r.reverse ++ l).reverse := by
    rw [entryPath_absPath (fun c hc => (hproper' c hc).1)
      (fun c hc => (hproper c (by simp [hc])).1)]
    simp
  have hrel : plainRelative t (absPath (r.reverse ++ l).reverse) (absPath l.reverse) =
      .ok (entryPath [] (if r = [] then [dot] else r)) := by
    rw [plainRelative_of_resolve (resolve_absPath hr hr') (resolve_absPath hl hl'),
      List.reverse_append, List.reverse_reverse, relativeComps_append]
    rfl
  unfold transform
  rw [hpath, lexicalNormalize_absPath hproper, lexicalNormalize_absPath hproper']
  simp only [hrel, bind, Except.bind, pure, Except.pure]
  rfl

/-- The entry that `r` makes. -/
def packedEntry (t : FileTree) (l : Loc) (d : PathStr) (r : List PathStr) : TarEntry where
  pathname := archiveName d r
  content :=
    match t.node (r.reverse ++ l) with
    | some (.file data) => .regular data
    | _ => .directory

/-- Below `l` there are only regular files and directories. -/
def Plain (t : HostTree) (l : Loc) : Prop :=
  ∀ r, (t.node (r ++ l)).isSome → t.isLink (r ++ l) = false ∧ t.special (r ++ l) = false

theorem Plain.node_eq {t : HostTree} {l : Loc} (h : Plain t l) {d : PathStr} {r : List PathStr}
    (hs : (t.node (r.reverse ++ l)).isSome) :
    t.node (r.reverse ++ l) = some (packedEntry t.toFileTree l d r).content.node := by
  obtain ⟨nd, hnd⟩ := Option.isSome_iff_exists.mp hs
  have hlink := (h _ hs).1
  unfold packedEntry
  cases nd with
  | dir => simp [hnd, TarContent.node]
  | file data => simp [hnd, TarContent.node]
  | link target => simp [isLink, hnd] at hlink

theorem Plain.statusAt_eq {t : HostTree} {l : Loc} (h : Plain t l) {r : List PathStr}
    (hs : (t.node (r.reverse ++ l)).isSome) :
    t.statusAt (r.reverse ++ l) =
      match t.node (r.reverse ++ l) with
      | some (.file data) => .regular data
      | _ => .directory := by
  obtain ⟨nd, hnd⟩ := Option.isSome_iff_exists.mp hs
  obtain ⟨hlink, hspecial⟩ := h _ hs
  unfold HostTree.statusAt
  cases nd with
  | dir => simp [hnd]
  | file data => simp [hnd, hspecial]
  | link target => simp [isLink, hnd] at hlink

theorem appendEntry_ok {header : TarEntry → ErrorCode} {arc arc' : List TarEntry} {e : TarEntry}
    (h : appendEntry header arc e = .ok arc') : arc' = arc ++ [e] := by
  unfold appendEntry at h
  split_ifs at h
  exact (Outcome.ok.inj h).symm

section Directory

variable {header : TarEntry → ErrorCode} {t : HostTree} {l : Loc} {d : PathStr}

theorem addEntry_ok (hl : (t.node l).isSome) (hplain : Plain t l) {r : List PathStr} (hne : r ≠ [])
    (hs : (t.node (r.reverse ++ l)).isSome) {arc arc' : List TarEntry}
    (h : addEntry header t (absPath l.reverse) d arc (entryPath (absPath l.reverse) r) =
      .ok arc') : arc' = arc ++ [packedEntry t.toFileTree l d r] := by
  have hl' : t.isLink l = false := (hplain [] hl).1
  have hr' : t.isLink (r.reverse ++ l) = false := (hplain _ hs).1
  have hst := status_entry (resolve_absPath hl hl') hne hs hr'
  rw [hplain.statusAt_eq hs] at hst
  unfold addEntry at h
  rw [transform_entry d hl hl' hs hr', hst] at h
  obtain ⟨nd, hnd⟩ := Option.isSome_iff_exists.mp hs
  unfold packedEntry
  cases nd with
  | dir =>
      rw [hnd] at h ⊢
      exact appendEntry_ok h
  | file data =>
      rw [hnd] at h ⊢
      exact appendEntry_ok h
  | link target => simp [isLink, hnd] at hr'

theorem addEntries_ok (hl : (t.node l).isSome) (hplain : Plain t l) {rs : List (List PathStr)}
    (hrs : ∀ r ∈ rs, r ≠ [] ∧ (t.node (r.reverse ++ l)).isSome) {arc arc' : List TarEntry}
    (h : addEntries header t (absPath l.reverse) d arc rs = .ok arc') :
    arc' = arc ++ rs.map (packedEntry t.toFileTree l d) := by
  induction rs generalizing arc with
  | nil =>
      obtain rfl := Outcome.ok.inj h
      simp
  | cons r rs ih =>
      obtain ⟨hne, hs⟩ := hrs r (by simp)
      rw [addEntries] at h
      cases hr : addEntry header t (absPath l.reverse) d arc (entryPath (absPath l.reverse) r) with
      | ok arc₁ =>
          rw [hr] at h
          rw [ih (fun r' h' => hrs r' (by simp [h'])) h, addEntry_ok hl hplain hne hs hr]
          simp
      | error ec => simp [hr] at h
      | thrown ec => simp [hr] at h

/-- The archive of a directory of files and directories: the directory itself and its entries. -/
theorem addDirectory_ok {source : PathStr} {rs : List (List PathStr)} {arc : List TarEntry}
    (hsource : t.resolve .stat source = .ok l) (hplain : Plain t l)
    (hrs : Delivers t.toFileTree l rs) (h : addDirectory header t source d rs = .ok arc) :
    t.node l = some .dir ∧ arc = ([] :: rs).map (packedEntry t.toFileTree l d) := by
  obtain ⟨hl, hl'⟩ := resolve_stat_spec hsource
  have hne : source ≠ [] := by
    rintro rfl
    cases hsource
  have hcanon : plainCanonical t.toFileTree source = .ok (absPath l.reverse) := by
    rw [plainCanonical, hsource]
  have hst : t.status (absPath l.reverse) = .ok (t.statusAt l) := by
    rw [HostTree.status, resolve_absPath hl hl']
  have htr : transform t.toFileTree (absPath l.reverse) (absPath l.reverse) d =
      .ok (archiveName d []) := transform_entry (r := []) d hl hl' hl hl'
  simp only [addDirectory, hne, if_false, hcanon, hst, htr] at h
  have hk : t.statusAt l = .directory := by
    cases hk : t.statusAt l with
    | directory => rfl
    | regular data => simp [hk] at h
    | notFound => simp [hk] at h
    | other => simp [hk] at h
  have hdir := HostTree.dir_of_statusAt hk
  refine ⟨hdir, ?_⟩
  have hroot : packedEntry t.toFileTree l d [] = ⟨archiveName d [], .directory⟩ := by
    simp [packedEntry, hdir]
  simp only [hk] at h
  cases happ : appendEntry header [] ⟨archiveName d [], .directory⟩ with
  | ok arc₀ =>
      simp only [happ] at h
      rw [addEntries_ok hl hplain (fun r hr => (hrs.mem_iff r).mp hr) h, appendEntry_ok happ,
        List.map_cons, hroot]
      rfl
  | error ec => simp [happ] at h
  | thrown ec => simp [happ] at h

end Directory

theorem names_archiveName {d : PathStr} {r : List PathStr} (hr : ∀ c ∈ r, Proper c) :
    names (archiveName d r) =
      names (lexicalNormalize d false) ++ if r = [] then [dot] else r := by
  have hrel : ∀ c ∈ (if r = [] then [dot] else r), IsName c := by
    split_ifs
    · simp only [List.mem_singleton, forall_eq]
      decide
    · exact fun c hc => (hr c hc).1
  rw [archiveName, names_append, names_entryPath _ hrel]
  by_cases hnil : lexicalNormalize d false = []
  · rw [if_pos hnil, hnil]
    rfl
  · rw [if_neg hnil]
    rfl

theorem pathLoc_archiveName {d : PathStr} {r : List PathStr} (hr : ∀ c ∈ r, Proper c) :
    pathLoc (archiveName d r) = r.reverse ++ pathLoc (lexicalNormalize d false) := by
  have hfilter : (if r = [] then [dot] else r).filter (· ≠ dot) = r := by
    split_ifs with hnil
    · rw [hnil]
      decide
    · rw [List.filter_eq_self]
      exact fun c hc => by simpa using (hr c hc).2.1
  rw [pathLoc, names_archiveName hr, List.filter_append, hfilter, List.reverse_append]
  rfl

theorem archiveName_injective {d : PathStr} {r r' : List PathStr} (hr : ∀ c ∈ r, Proper c)
    (hr' : ∀ c ∈ r', Proper c) (h : archiveName d r = archiveName d r') : r = r' := by
  have hloc := congrArg pathLoc h
  rw [pathLoc_archiveName hr, pathLoc_archiveName hr'] at hloc
  exact List.reverse_injective (List.append_cancel_right hloc)

theorem extract_ok {x : Extractor} {t t' : FileTree} {arc : List TarEntry} {parentDir : PathStr}
    (h : extract x t arc parentDir = (t', .ok ())) :
    extractEntries x parentDir t arc = (t', .ok ()) := by
  unfold extract at h
  split_ifs at h
  · cases (Prod.mk.inj h).2
  · split at h
    · cases (Prod.mk.inj h).2
    · cases (Prod.mk.inj h).2
    · split_ifs at h
      · exact h
      · cases (Prod.mk.inj h).2

/-- The tree that an extracted directory should be: the source below `base`, directories above. -/
def unpacked (ts : FileTree) (l base q : Loc) : Option Node :=
  if inside base q then ts.node (q.take (q.length - base.length) ++ l) else some .dir

theorem unpacked_append (ts : FileTree) (l base r : Loc) :
    unpacked ts l base (r ++ base) = ts.node (r ++ l) := by
  have hin : inside base (r ++ base) := List.suffix_append _ _
  rw [unpacked, if_pos hin]
  simp

section RoundTrip

variable {x : Extractor} {ts : HostTree} {tt tt' : FileTree} {d parentDir : PathStr} {l : Loc}
  {rs : List (List PathStr)}

/-- The directory and its entries. -/
theorem Delivers.entry_isSome (hrs : Delivers ts.toFileTree l rs) (hdir : ts.node l = some .dir) :
    ∀ r ∈ [] :: rs, (ts.node (r.reverse ++ l)).isSome := by
  intro r hr
  obtain rfl | hr := List.mem_cons.mp hr
  · rw [List.reverse_nil, List.nil_append, hdir]
    rfl
  · exact ((hrs.mem_iff r).mp hr).2

theorem Delivers.mem_of_isSome (hrs : Delivers ts.toFileTree l rs) {r : Loc}
    (hs : (ts.node (r ++ l)).isSome) : r.reverse ∈ [] :: rs := by
  by_cases hnil : r = []
  · simp [hnil]
  · exact List.mem_cons_of_mem _ ((hrs.mem_iff _).mpr ⟨by simpa using hnil, by simpa using hs⟩)

/-- Each entry is extracted at its place below the normalised name. -/
theorem pathLoc_packedEntry {r : List PathStr} (hs : (ts.node (r.reverse ++ l)).isSome) :
    pathLoc (newPathname parentDir (packedEntry ts.toFileTree l d r)) =
      r.reverse ++ pathLoc (append parentDir (lexicalNormalize d false)) := by
  have hproper : ∀ c ∈ r, Proper c := fun c hc => proper_of_mem hs (by simp [hc])
  rw [pathLoc_newPathname, pathLoc_append, ← List.append_assoc, ← pathLoc_archiveName hproper]
  rfl

/-- The tree that should be extracted has directories above the entries. -/
theorem unpacked_above {base q r : Loc} (hs : (ts.node (r ++ l)).isSome)
    (hq : strictlyBelow q (r ++ base)) : unpacked ts.toFileTree l base q = some .dir := by
  by_cases hin : inside base q
  · obtain ⟨r', rfl⟩ := hin
    rw [unpacked_append]
    have hin : inside r' r := inside_append_right.mp hq.1
    refine dir_of_inside (inside_append_right.mpr hin) (fun heq => hq.2 ?_) hs
    rw [List.append_cancel_right heq]
  · rw [unpacked, if_neg hin]

/-- The archive of the directory, extracted. -/
theorem extractEntries_packed (hrs : Delivers ts.toFileTree l rs) (hdir : ts.node l = some .dir)
    (hplain : Plain ts l)
    (hrun : extractEntries x parentDir tt
      (([] :: rs).map (packedEntry ts.toFileTree l d)) = (tt', .ok ())) :
    let base := pathLoc (append parentDir (lexicalNormalize d false))
    (∀ q, (∃ r ∈ [] :: rs, inside q (r.reverse ++ base)) →
      tt'.node q = unpacked ts.toFileTree l base q) ∧
    ∀ q, (∀ r ∈ [] :: rs, ¬ inside q (r.reverse ++ base)) → tt'.node q = tt.node q := by
  intro base
  have hentry := hrs.entry_isSome hdir
  have hloc : ∀ r ∈ [] :: rs, pathLoc (newPathname parentDir (packedEntry ts.toFileTree l d r)) =
      r.reverse ++ base := fun r hr => pathLoc_packedEntry (hentry r hr)
  obtain ⟨hway, hkeep⟩ := extractEntries_spec (W := unpacked ts.toFileTree l base) (by
    intro e he
    obtain ⟨r, hr, rfl⟩ := List.mem_map.mp he
    rw [hloc r hr]
    exact ⟨by rw [unpacked_append, hplain.node_eq (hentry r hr)],
      fun q hq => unpacked_above (hentry r hr) hq⟩) hrun
  constructor
  · rintro q ⟨r, hr, hq⟩
    exact hway q ⟨_, List.mem_map_of_mem hr, by rw [hloc r hr]; exact hq⟩
  · intro q hq
    refine hkeep q (fun e he hin => ?_)
    obtain ⟨r, hr, rfl⟩ := List.mem_map.mp he
    rw [hloc r hr] at hin
    exact hq r hr hin

/-- Extraction goes where the path of the target directory leads, unless the path ends in a link and
the first entry takes the place of that link. -/
theorem parentDir_spelled {m : Loc} {e : TarEntry} {arc : List TarEntry}
    (hparent : tt.resolve .stat parentDir = .ok m)
    (hrun : extractEntries x parentDir tt (e :: arc) = (tt', .ok ())) :
    m = pathLoc parentDir ∨
      pathLoc (newPathname parentDir e) = pathLoc parentDir ∧
        tt.isLink (pathLoc parentDir) = true := by
  obtain ⟨hdd, hlink⟩ := extractEntries_first hrun
  rw [newPathname, names_append] at hdd
  by_cases hlast : pathLoc (newPathname parentDir e) = pathLoc parentDir ∧
      tt.isLink (pathLoc parentDir) = true
  · exact Or.inr hlast
  left
  have hspelled := walks_eq_spelled (walks_names hparent)
    (fun h => hdd (List.mem_append_left _ h)) (fun q hq => ?_)
  · simpa [pathLoc] using hspelled
  · have hq : inside q (pathLoc parentDir) := by simpa [pathLoc] using hq
    have habove : inside q (pathLoc (newPathname parentDir e)) := by
      rw [pathLoc_newPathname]
      exact hq.trans (List.suffix_append _ _)
    by_cases heq : pathLoc (newPathname parentDir e) = q
    · -- the entry is the target directory itself
      have hparent : pathLoc (newPathname parentDir e) = pathLoc parentDir := by
        refine (heq.trans (hq.eq_of_length_le ?_))
        rw [← heq, pathLoc_newPathname, List.length_append]
        omega
      rw [← heq, hparent]
      exact Bool.not_eq_true _ ▸ fun h => hlast ⟨hparent, h⟩
    · exact hlink q ⟨habove, heq⟩

end RoundTrip

/-- The entry has been extracted, and it has not replaced a link. -/
structure Placed (t t' : FileTree) (loc : Loc) (c : TarContent) : Prop
    extends Extracted t t' loc c where
  kept : t.isLink loc = false

theorem Placed.step {t t₁ t₂ : FileTree} {n : PathStr} {l : Loc} {c : TarContent}
    (h : Placed t t₁ l .directory) (hlink : t₁.isLink (n :: l) = false)
    (hplaced : t₂.node (n :: l) = some c.node) (hframe : ∀ q, q ≠ n :: l → t₂.node q = t₁.node q) :
    Placed t t₂ (n :: l) c := by
  have hout : ¬ inside (n :: l) l := fun hin => absurd hin.length_le (by simp)
  refine ⟨⟨fun q ⟨hq, hne⟩ => ?_, hplaced, fun q hq => ?_⟩, ?_⟩
  · obtain rfl | hq := List.suffix_cons_iff.mp hq
    · exact absurd rfl hne
    · by_cases heq : l = q
      · exact heq ▸ h.kept
      · exact h.no_link q ⟨hq, heq⟩
  · rw [hframe q (fun heq => hq (heq ▸ inside_refl _)),
      h.frame q (fun hin => hq (inside_cons n hin))]
  · rw [isLink, ← h.frame _ hout]
    exact hlink

/-- Creates an entry, with the missing directories above it. -/
def place (t : FileTree) : (l : Loc) → (c : TarContent) → Option {t' // Placed t t' l c}
  | [], .directory =>
      some ⟨t, ⟨fun _ hq => absurd (List.suffix_nil.mp hq.1) hq.2.symm, t.root_dir, fun _ _ => rfl⟩,
        by rw [isLink, t.root_dir]⟩
  | [], .regular _ => none
  | n :: l, c =>
      match place t l .directory with
      | none => none
      | some ⟨t₁, h₁⟩ =>
          match hn : t₁.node (n :: l), c with
          | none, c =>
              if hp : Proper n then
                some ⟨t₁.add n l c.node h₁.placed hp hn, h₁.step (by simp [isLink, hn])
                  (if_pos rfl) (fun _ hq => if_neg hq)⟩
              else none
          | some .dir, .directory =>
              some ⟨t₁, h₁.step (by simp [isLink, hn]) hn (fun _ _ => rfl)⟩
          | some (.file data), .regular data' =>
              some ⟨t₁.overwrite (n :: l) data data' hn, h₁.step (by simp [isLink, hn])
                (if_pos rfl) (fun _ hq => if_neg hq)⟩
          | _, _ => none

/-- An extractor that replaces files by files only. -/
def plainExtractor : Extractor where
  readExtract t p c :=
    if dotDot ∈ names p then .error EPERM
    else
      match place t (pathLoc p) c with
      | some t' => .ok t'.1
      | none => .error EEXIST
  spec t p c t' h := by
    split_ifs at h with hdd
    cases hp : place t (pathLoc p) c with
    | none => simp [hp] at h
    | some t₁ =>
        simp only [hp] at h
        obtain rfl := Except.ok.inj h
        exact ⟨hdd, t₁.2.toExtracted⟩

/-- The tree with a directory `/t`. -/
def targetTree : FileTree := empty.add ['t'] [] .dir empty.root_dir (by decide) (by decide)

/-- A directory `/d` with a file `x` and a directory `sub` with a file `low`. -/
def nestedTree : HostTree where
  toFileTree := (((oneEntryTree (.file [4])).add "sub".toList [['d']] .dir (by decide) (by decide)
    (by decide)).add "low".toList ["sub".toList, ['d']] (.file [1, 2, 3]) (by decide) (by decide)
    (by decide))
  special _ := false

/-- Its entries. -/
def nestedEntries : List (List PathStr) := [[['x']], ["sub".toList], ["sub".toList, "low".toList]]

theorem nestedTree_delivers :
    Delivers nestedTree.toFileTree [['d']] nestedEntries := by
  refine ⟨by decide, fun r => ?_⟩
  obtain ⟨q, rfl⟩ : ∃ q : Loc, r = q.reverse := ⟨r.reverse, r.reverse_reverse.symm⟩
  rw [List.reverse_reverse]
  rcases q with _ | ⟨a, _ | ⟨b, _ | ⟨c, q⟩⟩⟩
  · simp [nestedEntries]
  · by_cases hx : a = ['x'] <;> by_cases hs : a = "sub".toList <;>
      simp_all [nestedEntries, nestedTree, oneEntryTree, FileTree.add, FileTree.empty]
  · simp [nestedEntries, nestedTree, oneEntryTree, FileTree.add, FileTree.empty, and_comm]
  · have hlen : ∀ r : List PathStr, r.length < 3 → (a :: b :: c :: q).reverse ≠ r := by
      rintro r hr rfl
      simp only [List.length_reverse, List.length_cons] at hr
      omega
    simp only [nestedEntries, List.mem_cons, hlen [['x']] (by decide),
      hlen ["sub".toList] (by decide), hlen ["sub".toList, "low".toList] (by decide),
      List.not_mem_nil, or_self, false_iff]
    simp [nestedTree, oneEntryTree, FileTree.add, FileTree.empty]

theorem nestedTree_plain : Plain nestedTree [['d']] := by
  intro r _
  refine ⟨?_, rfl⟩
  simp only [isLink, nestedTree, oneEntryTree, FileTree.add, FileTree.empty]
  split_ifs <;> rfl

/-- What is packed of it as `a/../out/`. -/
def nestedArchive : List TarEntry :=
  [⟨"/out/.".toList, .directory⟩, ⟨"/out/x".toList, .regular [4]⟩, ⟨"/out/sub".toList, .directory⟩,
   ⟨"/out/sub/low".toList, .regular [1, 2, 3]⟩]

end Norns
