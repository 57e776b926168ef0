import Norns.Lib.TreeWalk
import Norns.LocalCopy
import Norns.TarArchive

/-! # Copying a directory

The loop of `copy_directory` goes over a tree with a `recursive_directory_iterator` and changes the
file system while it does.  `CopyPass` is one pass of it, the body and the increment; `Passes` are
its runs, for every order in which directories can be read.  What a run does to the file system is
`copyDirectory` of `Norns.LocalCopy` for the entries that the iterator delivers (`passes_copy`).

* `copy_directory_ends`: the loop ends, after at most as many passes as the source has entries,
  unless it creates an entry inside the source; a destination below the source makes it run for
  ever.
* `copy_directory_copies`: the tree is preserved if the source has no symbolic links, and what
  stands at the destination is not in the way.  A link is copied to the place of its target. -/

namespace Norns

open Lib Lib.PathStr Lib.FileTree

/-! ### The loop -/

/-- What an iterator over the directory at `l` sees; it does not follow links. -/
def viewBelow (t : FileTree) (l : Loc) : TreeView PathStr where
  has r := (t.node (r.reverse ++ l)).isSome
  isDir r := t.node (r.reverse ++ l) = some .dir

/-- The file system and the iterator. -/
structure CopyState where
  disk : Disk
  cursor : Cursor PathStr

section loop

variable (fallocate : Bool) (src dst : PathStr) (l : Loc)

/-- One pass of the loop of `copy_directory`, for the entry `r` of the directory at `l`. -/
def CopyPass (s : CopyState) (r : List PathStr) (s' : CopyState) : Prop :=
  copyEntry fallocate src dst s.disk (entryPath src r) = (s'.disk, .ok ()) ∧
    s.cursor.Next (viewBelow s'.disk.tree l) r s'.cursor

/-- Passes that meet a condition on the state before the pass, and the entries they are for. -/
inductive Passes (ok : CopyState → List PathStr → Prop) :
    CopyState → List (List PathStr) → CopyState → Prop
  | nil (s : CopyState) : Passes ok s [] s
  | snoc {s s' s'' : CopyState} {rs : List (List PathStr)} {r : List PathStr} :
      Passes ok s rs s' → ok s' r → CopyPass fallocate src dst l s' r s'' →
      Passes ok s (rs ++ [r]) s''

end loop

variable {fallocate : Bool} {src dst : PathStr} {l : Loc} {ok : CopyState → List PathStr → Prop}

/-- The passes do to the file system what `copyDirectory` does. -/
theorem passes_copy {s s' : CopyState} {rs : List (List PathStr)}
    (h : Passes fallocate src dst l ok s rs s') (rest : List PathStr) :
    copyDirectory fallocate src dst s.disk (rs.map (entryPath src) ++ rest) =
      copyDirectory fallocate src dst s'.disk rest := by
  induction h generalizing rest with
  | nil => rfl
  | snoc _ _ hpass ih =>
      rw [List.map_append, List.append_assoc, ih]
      simp only [List.map_cons, List.map_nil, List.singleton_append, copyDirectory, hpass.1]

/-! ### What one pass creates -/

/-- The destination of the entry is a free place, and it is `x`. -/
def NewPlace (src dst : PathStr) (t : FileTree) (it : PathStr) (x : Loc) : Prop :=
  ∃ rel, plainRelative t it src = .ok rel ∧ t.node x = none ∧
    (t.resolve .mkdir (append dst rel) = .ok x ∨ t.resolve .create (append dst rel) = .ok x)

/-- The second tree has at most one entry that the first one does not have. -/
def GrowsAt (t t' : FileTree) (x : Loc) : Prop :=
  ∀ y, (t'.node y).isSome ↔ y = x ∨ (t.node y).isSome

theorem createDirectory_grows (d : Disk) (p : PathStr) :
    (d.createDirectory p).1 = d ∨ ∃ x, d.tree.resolve .mkdir p = .ok x ∧ d.tree.node x = none ∧
      GrowsAt d.tree (d.createDirectory p).1.tree x := by
  by_cases hfree : ∃ x, d.tree.resolve .mkdir p = .ok x ∧ d.tree.node x = none
  · obtain ⟨x, hr, hx⟩ := hfree
    refine .inr ⟨x, hr, hx, fun y => ?_⟩
    rw [(createDirectory_free hr hx).2.2 y]
    split_ifs with hy <;> simp [hy]
  · exact .inl (createDirectory_taken fun x hr hx => hfree ⟨x, hr, hx⟩).1

/-- Both trees have the same entries. -/
def SameEntries (t t' : FileTree) : Prop := ∀ y, (t'.node y).isSome = (t.node y).isSome

theorem writeFile_grows (fallocate : Bool) (d : Disk) (p : PathStr) (data : List UInt8) :
    SameEntries d.tree (d.writeFile fallocate p data).1.tree ∨
      ∃ x, d.tree.resolve .create p = .ok x ∧ d.tree.node x = none ∧
        GrowsAt d.tree (d.writeFile fallocate p data).1.tree x := by
  obtain ⟨hd, -⟩ | ⟨x, hr, hwrites, -⟩ := writeFile_cases fallocate d p data
  · exact .inl fun y => by rw [hd]
  obtain hx | ⟨old, hx⟩ := hwrites.place
  · refine .inr ⟨x, hr, hx, fun y => ?_⟩
    rw [hwrites.node]
    split_ifs with hy <;> simp [hy]
  · refine .inl fun y => ?_
    rw [hwrites.node]
    split_ifs with hy
    · rw [hy, hx]
      rfl
    · rfl

/-- A pass creates nothing, or an entry at the destination. -/
theorem copyEntry_grows (fallocate : Bool) (src dst : PathStr) (d : Disk) (it : PathStr) :
    SameEntries d.tree (copyEntry fallocate src dst d it).1.tree ∨
      ∃ x, NewPlace src dst d.tree it x ∧
        GrowsAt d.tree (copyEntry fallocate src dst d it).1.tree x := by
  unfold copyEntry
  cases hrel : plainRelative d.tree it src with
  | error ec => exact .inl fun y => rfl
  | ok rel =>
      have hmkdir : SameEntries d.tree (d.createDirectory (append dst rel)).1.tree ∨
          ∃ x, NewPlace src dst d.tree it x ∧
            GrowsAt d.tree (d.createDirectory (append dst rel)).1.tree x := by
        rcases createDirectory_grows d (append dst rel) with hsame | ⟨x, hr, hx, hgrows⟩
        · exact .inl fun y => by rw [hsame]
        · exact .inr ⟨x, ⟨rel, hrel, hx, .inl hr⟩, hgrows⟩
      have hcopy : SameEntries d.tree (copyFile fallocate d it (append dst rel)).1.tree ∨
          ∃ x, NewPlace src dst d.tree it x ∧
            GrowsAt d.tree (copyFile fallocate d it (append dst rel)).1.tree x := by
        unfold copyFile
        split
        · exact .inl fun y => rfl
        · split
          · next data _ =>
              rcases writeFile_grows fallocate d (append dst rel) data with h | ⟨x, hr, hx, h⟩
              · exact .inl h
              · exact .inr ⟨x, ⟨rel, hrel, hx, .inr hr⟩, h⟩
          · exact .inl fun y => rfl
      dsimp only
      split_ifs
      · split
        · exact .inl fun y => rfl
        · exact .inl fun y => rfl
        · exact hmkdir
      · exact hcopy

/-! ### Entries without links -/

/-- An entry that is not a link, and its path relative to the source. -/
theorem relative_entry {t : FileTree} {r : List PathStr} (hsrc : t.resolve .stat src = .ok l)
    (hne : r ≠ []) (hs : (t.node (r.reverse ++ l)).isSome)
    (hl : t.isLink (r.reverse ++ l) = false) :
    t.resolve .stat (entryPath src r) = .ok (r.reverse ++ l) ∧
      plainRelative t (entryPath src r) src = .ok (entryPath [] r) := by
  obtain ⟨k, -, hk⟩ := resolve_entryPath hsrc
  have hwalk : t.walk .stat k l (r ++ []) = .ok (r.reverse ++ l) := by
    obtain ⟨jump, hj⟩ := walk_eq (t := t) (m := .stat) k
    rw [walk_descend hs hl, hj, walkAux_nil]
  rw [List.append_nil] at hwalk
  have hres : t.resolve .stat (entryPath src r) = .ok (r.reverse ++ l) := by
    rw [hk .stat r hne (isName_of_entry hs), hwalk]
  refine ⟨hres, ?_⟩
  rw [plainRelative_of_resolve hres hsrc, List.reverse_append, List.reverse_reverse,
    relativeComps_append, if_neg hne]
  rfl

section place

variable {t : FileTree} {D : Loc} {r : List PathStr} {n : PathStr}

/-- The place of an entry whose parent is there. -/
theorem resolve_place (hdst : t.resolve .stat dst = .ok D)
    (hparent : t.node (r.reverse ++ D) = some .dir) (hn : Proper n) :
    ∃ k, ∀ m, t.resolve m (entryPath dst (r ++ [n])) = t.walk m k (r.reverse ++ D) [n] := by
  obtain ⟨k, -, hk⟩ := resolve_entryPath hdst
  have hs : (t.node (r.reverse ++ D)).isSome := by rw [hparent]; rfl
  have hnames : ∀ c ∈ r ++ [n], IsName c := by
    intro c hc
    rcases List.mem_append.mp hc with hc | hc
    · exact isName_of_entry hs c hc
    · rw [List.mem_singleton.mp hc]
      exact hn.1
  refine ⟨k, fun m => ?_⟩
  rw [hk m (r ++ [n]) (by simp) hnames, walk_descend hs (by simp [isLink, hparent])]

theorem resolve_place_free (hdst : t.resolve .stat dst = .ok D)
    (hparent : t.node (r.reverse ++ D) = some .dir) (hn : Proper n)
    (hfree : t.node (n :: (r.reverse ++ D)) = none) (m : Mode) :
    t.resolve m (entryPath dst (r ++ [n])) =
      if m.mayMiss then .ok (n :: (r.reverse ++ D)) else .error .notFound := by
  obtain ⟨k, hk⟩ := resolve_place hdst hparent hn
  obtain ⟨jump, hj⟩ := walk_eq (t := t) (m := m) k
  rw [hk, hj, walkAux_proper hparent hn.2.1 hn.2.2, hfree]
  cases m.mayMiss <;> rfl

theorem resolve_place_taken (hdst : t.resolve .stat dst = .ok D)
    (hs : (t.node (n :: (r.reverse ++ D))).isSome)
    (hl : t.isLink (n :: (r.reverse ++ D)) = false) (m : Mode) :
    t.resolve m (entryPath dst (r ++ [n])) = .ok (n :: (r.reverse ++ D)) := by
  have hparent := t.parent_dir n _ hs
  have hn := t.proper n _ hs
  obtain ⟨k, hk⟩ := resolve_place hdst hparent hn
  obtain ⟨jump, hj⟩ := walk_eq (t := t) (m := m) k
  rw [hk, hj, walkAux_enter hparent hn.2.1 hn.2.2 hs hl, walkAux_nil]

theorem resolve_place_ok (hdst : t.resolve .stat dst = .ok D)
    (hparent : t.node (r.reverse ++ D) = some .dir) (hn : Proper n)
    (hl : t.isLink (n :: (r.reverse ++ D)) = false) {m : Mode} (hm : m.mayMiss = true) :
    t.resolve m (entryPath dst (r ++ [n])) = .ok (n :: (r.reverse ++ D)) := by
  cases hplace : t.node (n :: (r.reverse ++ D)) with
  | none => rw [resolve_place_free hdst hparent hn hplace, if_pos hm]
  | some nd => exact resolve_place_taken hdst (by rw [hplace]; rfl) hl m

end place


/-- What a pass leaves: `nd` at `x`, and nothing else has changed. -/
structure Lands (d d' : Disk) (x : Loc) (nd : Node) : Prop where
  node : ∀ y, d'.tree.node y = if y = x then some nd else d.tree.node y
  touched : ∀ y ∈ d'.touched, y ∈ d.touched ∨ y = x

/-- What stands at the place of an entry is not in the way: no link; no file, if the entry is a
directory; no longer file, if files are only extended. -/
def Room (fallocate : Bool) : Node → Option Node → Prop
  | _, some (.link _) => False
  | .dir, some (.file _) => False
  | .file data, some (.file old) => fallocate = true → old.length ≤ data.length
  | _, _ => True

theorem not_link_of_room {t : FileTree} {x : Loc} {nd : Node}
    (h : Room fallocate nd (t.node x)) : t.isLink x = false := by
  unfold isLink
  split
  · next target hx =>
      rw [hx] at h
      cases nd <;> cases h
  · rfl

section entry

variable {d d' : Disk} {D : Loc} {r : List PathStr} {n : PathStr}

/-- The pass for an entry that is a directory. -/
theorem copyEntry_of_dir {r : List PathStr} (hsrc : d.tree.resolve .stat src = .ok l) (hne : r ≠ [])
    (hnode : d.tree.node (r.reverse ++ l) = some .dir) :
    copyEntry fallocate src dst d (entryPath src r) =
      match d.tree.resolve .stat (entryPath dst r) with
      | .ok _ => (d, .ok ())
      | .error .loop => (d, .thrown ELOOP)
      | .error _ => ((d.createDirectory (entryPath dst r)).1,
          outcomeOf (d.createDirectory (entryPath dst r)).2) := by
  have hs : (d.tree.node (r.reverse ++ l)).isSome := by rw [hnode]; rfl
  obtain ⟨hentry, hrel⟩ := relative_entry hsrc hne hs (by simp [isLink, hnode])
  have hdir : isDirectory d.tree (entryPath src r) = true := by
    simp [isDirectory, hentry, isDir, hnode]
  have hpath : append dst (entryPath [] r) = entryPath dst r :=
    append_entryPath hne (isName_of_entry hs)
  unfold copyEntry
  rw [hrel]
  cases hres : d.tree.resolve .stat (entryPath dst r) with
  | ok x => simp only [hdir, if_true, hpath, hres]
  | error e => cases e <;> simp only [hdir, if_true, hpath, hres]

/-- The pass for an entry that is a file. -/
theorem copyEntry_of_file {r : List PathStr} {data : List UInt8}
    (hsrc : d.tree.resolve .stat src = .ok l) (hne : r ≠ [])
    (hnode : d.tree.node (r.reverse ++ l) = some (.file data)) :
    copyEntry fallocate src dst d (entryPath src r) =
      ((d.writeFile fallocate (entryPath dst r) data).1,
        outcomeOf (d.writeFile fallocate (entryPath dst r) data).2) := by
  have hs : (d.tree.node (r.reverse ++ l)).isSome := by rw [hnode]; rfl
  obtain ⟨hentry, hrel⟩ := relative_entry hsrc hne hs (by simp [isLink, hnode])
  have hdir : ¬ isDirectory d.tree (entryPath src r) = true := by
    simp [isDirectory, hentry, isDir, hnode]
  unfold copyEntry
  rw [hrel]
  dsimp only
  rw [if_neg hdir, append_entryPath hne (isName_of_entry hs), copyFile, hentry]
  dsimp only
  rw [hnode]

/-- A directory is made, unless it is there. -/
theorem copyEntry_dir (hsrc : d.tree.resolve .stat src = .ok l)
    (hdst : d.tree.resolve .stat dst = .ok D)
    (hparent : d.tree.node (r.reverse ++ D) = some .dir)
    (hnode : d.tree.node (n :: (r.reverse ++ l)) = some .dir)
    (hroom : Room fallocate .dir (d.tree.node (n :: (r.reverse ++ D)))) :
    ∃ d', copyEntry fallocate src dst d (entryPath src (r ++ [n])) = (d', .ok ()) ∧
      Lands d d' (n :: (r.reverse ++ D)) .dir := by
  have hn := d.tree.proper n _ (Option.isSome_of_mem hnode)
  rw [copyEntry_of_dir hsrc (by simp) (by simpa using hnode)]
  cases hplace : d.tree.node (n :: (r.reverse ++ D)) with
  | none =>
      have hmkdir := resolve_place_free hdst hparent hn hplace .mkdir
      obtain ⟨hec, htouched, hnew⟩ := createDirectory_free hmkdir hplace
      refine ⟨_, ?_, hnew, fun y hy => ?_⟩
      · rw [resolve_place_free hdst hparent hn hplace, hec]
        rfl
      · simpa [htouched] using hy
  | some nd =>
      cases nd with
      | link target => rw [hplace] at hroom; cases hroom
      | file old => rw [hplace] at hroom; cases hroom
      | dir =>
          rw [resolve_place_taken hdst (by rw [hplace]; rfl) (by simp [isLink, hplace])]
          refine ⟨d, rfl, fun y => ?_, fun y hy => .inl hy⟩
          split_ifs with hy
          · rw [hy, hplace]
          · rfl

/-- A file is written, if it can be. -/
theorem copyEntry_file {data : List UInt8} (hsrc : d.tree.resolve .stat src = .ok l)
    (hdst : d.tree.resolve .stat dst = .ok D)
    (hparent : d.tree.node (r.reverse ++ D) = some .dir)
    (hnode : d.tree.node (n :: (r.reverse ++ l)) = some (.file data))
    (hroom : Room fallocate (.file data) (d.tree.node (n :: (r.reverse ++ D))))
    (h : copyEntry fallocate src dst d (entryPath src (r ++ [n])) = (d', .ok ())) :
    Lands d d' (n :: (r.reverse ++ D)) (.file data) := by
  have hn := d.tree.proper n _ (Option.isSome_of_mem hnode)
  rw [copyEntry_of_file hsrc (by simp) (by simpa using hnode)] at h
  obtain rfl := congrArg Prod.fst h
  obtain ⟨-, hec, -⟩ | ⟨x, hx, hwrites, -⟩ :=
      writeFile_cases fallocate d (entryPath dst (r ++ [n])) data
  · have hok := congrArg Prod.snd h
    simp [outcomeOf, hec] at hok
  rw [resolve_place_ok hdst hparent hn (not_link_of_room hroom) rfl] at hx
  obtain rfl := Except.ok.inj hx
  have hdata : writtenData fallocate data (d.tree.node (n :: (r.reverse ++ D))) = data := by
    obtain hfree | ⟨old, hold⟩ := hwrites.place
    · rw [hfree]
      rfl
    · rw [hold] at hroom ⊢
      cases fallocate with
      | false => rfl
      | true => simp [writtenData, List.drop_eq_nil_of_le (hroom rfl)]
  refine ⟨fun y => ?_, fun y hy => ?_⟩
  · rw [hwrites.node, hdata]
  · rw [hwrites.touched] at hy
    simpa using hy

end entry

/-! ### The loop ends -/

/-- The entry is not copied to a free place inside the source. -/
def CopiedOutside (src dst : PathStr) (l : Loc) (s : CopyState) (r : List PathStr) : Prop :=
  ∀ x, NewPlace src dst s.disk.tree (entryPath src r) x → ¬ inside l x

/-- The entries below a location. -/
def entriesBelow (t : FileTree) (l : Loc) : Set Loc := {y | strictlyBelow l y ∧ (t.node y).isSome}

/-- What is known after a number of passes that create nothing inside the source: the source has
the entries that it had, the iterator has delivered some of them, each once, and at most one entry
has been created for each. -/
structure Ended (t : FileTree) (l : Loc) (rs : List (List PathStr)) (s : CopyState) : Prop where
  source : ∀ y, inside l y → (s.disk.tree.node y).isSome = (t.node y).isSome
  visits : Visits (rs ++ s.cursor.it.toList) s.cursor
  exist : ∀ r ∈ rs ++ s.cursor.it.toList, r ≠ [] ∧ (t.node (r.reverse ++ l)).isSome
  created : ∃ ys : List Loc, ys.length ≤ rs.length ∧
    ∀ y, (s.disk.tree.node y).isSome → (t.node y).isSome ∨ y ∈ ys

/-- The first position of the iterator. -/
theorem Ended.start {d : Disk} {c : Cursor PathStr} (h : c.Begins (viewBelow d.tree l)) :
    Ended d.tree l [] ⟨d, c⟩ := by
  obtain ⟨hvisits, hhas⟩ := Visits.begin h
  refine ⟨fun _ _ => rfl, hvisits, fun r hr => ?_, [], le_rfl, fun y hy => .inl hy⟩
  have hit : c.it = some r := Option.mem_toList.mp hr
  exact ⟨(hvisits.current r hit).2.1, hhas r hit⟩

/-- One more pass. -/
theorem Ended.pass {t : FileTree} {rs : List (List PathStr)} {s s' : CopyState} {r : List PathStr}
    (h : Ended t l rs s) (hout : CopiedOutside src dst l s r)
    (hpass : CopyPass fallocate src dst l s r s') : Ended t l (rs ++ [r]) s' := by
  obtain ⟨hcopy, hnext⟩ := hpass
  have hit : s.cursor.it.toList = [r] := by rw [hnext.1]; rfl
  -- the pass creates nothing, or one entry outside the source
  obtain ⟨ys, hlen, hys⟩ := h.created
  have hgrows := copyEntry_grows fallocate src dst s.disk (entryPath src r)
  rw [hcopy] at hgrows
  have hsource : ∀ y, inside l y → (s'.disk.tree.node y).isSome = (t.node y).isSome := by
    intro y hy
    rw [← h.source y hy]
    rcases hgrows with hsame | ⟨x, hx, hgrows⟩
    · exact hsame y
    · have hne : y ≠ x := fun heq => hout x hx (heq ▸ hy)
      exact Bool.eq_iff_iff.mpr ((hgrows y).trans (or_iff_right hne))
  have hcreated : ∃ ys : List Loc, ys.length ≤ (rs ++ [r]).length ∧
      ∀ y, (s'.disk.tree.node y).isSome → (t.node y).isSome ∨ y ∈ ys := by
    rw [List.length_append, List.length_singleton]
    rcases hgrows with hsame | ⟨x, -, hgrows⟩
    · exact ⟨ys, by omega, fun y hy => hys y (by rw [← hsame y]; exact hy)⟩
    · refine ⟨x :: ys, by simpa using hlen, fun y hy => ?_⟩
      rcases (hgrows y).mp hy with rfl | hy
      · exact .inr List.mem_cons_self
      · exact (hys y hy).imp_right fun hmem => List.mem_cons_of_mem _ hmem
  have hvisits := h.visits
  have hexist := h.exist
  rw [hit] at hvisits hexist
  obtain ⟨hvisits', hnew⟩ := hvisits.next hnext
  refine ⟨hsource, hvisits', fun r' hr' => ?_, hcreated⟩
  rcases List.mem_append.mp hr' with hr' | hr'
  · exact hexist r' hr'
  · have hit' : s'.cursor.it = some r' := Option.mem_toList.mp hr'
    refine ⟨(hvisits'.current r' hit').2.1, ?_⟩
    rw [← hsource _ (List.suffix_append _ _)]
    exact (hnew r' hit').1

theorem Ended.run {d : Disk} {c : Cursor PathStr} {rs : List (List PathStr)} {s : CopyState}
    (hbegin : c.Begins (viewBelow d.tree l))
    (h : Passes fallocate src dst l (CopiedOutside src dst l) ⟨d, c⟩ rs s) :
    Ended d.tree l rs s := by
  induction h with
  | nil => exact Ended.start hbegin
  | snoc _ hout hpass ih => exact ih.pass hout hpass

/-- There are at most as many passes as entries. -/
theorem Ended.length_le {t : FileTree} {rs : List (List PathStr)} {s : CopyState}
    (h : Ended t l rs s) (hfinite : (entriesBelow t l).Finite) :
    rs.length ≤ (entriesBelow t l).ncard := by
  have hnodup : rs.Nodup := (List.nodup_append.mp h.visits.nodup).1
  have hinj : Function.Injective fun r : List PathStr => r.reverse ++ l := by
    intro r r' heq
    exact List.reverse_injective (List.append_cancel_right heq)
  have hmem : ∀ y ∈ rs.map fun r => r.reverse ++ l, y ∈ entriesBelow t l := by
    intro y hy
    obtain ⟨r, hr, rfl⟩ := List.mem_map.mp hy
    obtain ⟨hne, hsome⟩ := h.exist r (List.mem_append_left _ hr)
    refine ⟨⟨List.suffix_append _ _, fun heq => hne ?_⟩, hsome⟩
    simpa using heq
  calc rs.length = (rs.map fun r => r.reverse ++ l).toFinset.card := by
        rw [List.toFinset_card_of_nodup (hnodup.map hinj), List.length_map]
    _ = ((rs.map fun r => r.reverse ++ l).toFinset : Set Loc).ncard :=
        (Set.ncard_coe_finset _).symm
    _ ≤ (entriesBelow t l).ncard := by
        refine Set.ncard_le_ncard (fun y hy => ?_) hfinite
        exact hmem y (List.mem_toFinset.mp hy)

/-! ### The destination -/

/-- The path of a new collection is looked up from the mount, and ends with a separator. -/
theorem resolve_collection {t : FileTree} {root : Loc} {p : PathStr} (m : Mode)
    (hs : (t.node root).isSome) (hl : t.isLink root = false) (hp : p ≠ [])
    (hcomps : normComps p ≠ []) :
    t.resolve m (append (absPath root.reverse) (lexicalNormalize p true)) =
      t.walk m maxLinks root (normComps p ++ [dot]) := by
  have hnet : p ≠ ['/', '/'] := by
    rintro rfl
    exact hcomps normComps_networkRoot
  have hnames : ∀ c ∈ normComps p, IsName c := fun c hc => isName_of_mem_normComps hc
  have hpath : lexicalNormalize p true = nsAbsSubpath (normComps p) true := by
    rw [lexicalNormalize_asDirectory hp hnet, if_neg hcomps, absPath, if_neg hcomps]
    rfl
  obtain ⟨c, cs, hc⟩ := List.exists_cons_of_ne_nil hcomps
  have hslash : nsAbsSubpath (normComps p) true =
      '/' :: (c ++ joinAbs cs ++ if true then ['/'] else []) := by
    rw [hc]
    rfl
  rw [hpath, hslash, resolve_append hs hl, ← hslash, lookups_nsAbsSubpath hnames]
  rfl

theorem exists_child_of_strictlyBelow {m y : Loc} (h : strictlyBelow m y) :
    ∃ n, inside (n :: m) y := by
  obtain ⟨⟨a, rfl⟩, hne⟩ := h
  obtain rfl | ⟨a, n, rfl⟩ := List.eq_nil_or_concat' a
  · exact absurd rfl hne
  · exact ⟨n, a, by simp⟩

/-- From the tree `t` to the disk `d` only the places have been created that the disk records, and
nothing below the destination at the path `p`. -/
structure CreatesDestination (t : FileTree) (d : Disk) (p : PathStr) : Prop where
  entries : ∀ y, (d.tree.node y).isSome ↔ y ∈ d.touched ∨ (t.node y).isSome
  below : ∀ D, d.tree.resolve .stat p = .ok D →
    ∀ y, strictlyBelow D y → (d.tree.node y).isSome → (t.node y).isSome

theorem createsDestination_refl (t : FileTree) (p : PathStr) : CreatesDestination t ⟨t, []⟩ p :=
  ⟨fun y => by simp, fun _ _ _ _ hy => hy⟩

/-- `new_resource` of a collection creates the destination and what is missing on the way. -/
theorem newResource_creates {t : FileTree} (fs : Mounted t) {rinfo : LocalPathInfo} {d : Disk}
    {res : LocalPathResource} (h : fs.newResource ⟨t, []⟩ rinfo true = (d, .ok res)) :
    CreatesDestination t d res.canonicalPath := by
  have hp : rinfo.datapath.toList ≠ [] := by
    intro hnil
    simp [PosixFilesystem.newResource, hnil, lexicalNormalize] at h
  obtain ⟨-, hres⟩ | ⟨r, hr, hres⟩ := newResource_spec fs [] rinfo true hp
  · obtain rfl : d = ⟨t, []⟩ := congrArg Prod.fst (h.symm.trans hres)
    exact createsDestination_refl t _
  have heq := h.symm.trans hres
  obtain rfl : d = r.1 := congrArg Prod.fst heq
  obtain ⟨-, hd, -⟩ | ⟨l, post, hgap, hec, hfill⟩ := hr
  · rw [hd]
    exact createsDestination_refl t _
  obtain ⟨ls, htouched, -, -, hnew⟩ := hfill.created
  have hroot := hnew.keeps fs.root fs.root_isSome
  have hcomps : normComps rinfo.datapath.toList ≠ [] := by
    obtain ⟨pre, n, q, hcs, -⟩ := hgap
    intro hnil
    simp [parentComps, hnil] at hcs
  refine ⟨fun y => ?_, fun D hD y hy hsome => ?_⟩
  · rw [hnew.node, htouched]
    split_ifs with hmem <;> simp [hmem]
  · -- the destination is the last directory that was missing, and it is empty
    have hpath : res.canonicalPath =
        append (absPath fs.root.reverse) (lexicalNormalize rinfo.datapath.toList true) := by
      have hok := congrArg Prod.snd heq
      dsimp only at hok
      rw [if_neg (not_not.mpr hec)] at hok
      rw [Outcome.ok.inj hok, ← fs.mount_eq]
      rfl
    rw [hpath, resolve_collection .stat (by rw [hroot]; exact fs.root_isSome)
      (by simpa only [isLink, hroot] using fs.root_not_link) hp hcomps] at hD
    obtain ⟨k, -, hwalk⟩ := hfill.reaches.walk_append
    obtain ⟨jump, hj⟩ := walk_eq (t := r.1.tree) (m := .stat) k
    rw [show parentComps rinfo.datapath.toList true = normComps rinfo.datapath.toList from rfl]
      at hwalk
    rw [hwalk .stat [dot] (by simp), hj, walkAux_dot hfill.isDir, walkAux_nil] at hD
    obtain rfl := Except.ok.inj hD
    obtain ⟨n, hn⟩ := exists_child_of_strictlyBelow hy
    have hchild := hfill.empty n
    by_cases hlast : y = n :: (post.reverse ++ l)
    · rw [hlast, hchild] at hsome
      cases hsome
    · rw [dir_of_inside hn hlast hsome] at hchild
      cases hchild

/-- The source of a copy: the path `src` leads to the directory at `l`, below which there are
finitely many entries. -/
structure SourceDirectory (t : FileTree) (src : PathStr) (l : Loc) : Prop where
  resolves : t.resolve .stat src = .ok l
  isDir : t.node l = some .dir
  finite : (entriesBelow t l).Finite

/-- The new entries below the location `D`. -/
def newBelow (t t' : FileTree) (D : Loc) : Set Loc :=
  {y | strictlyBelow D y ∧ t.node y = none ∧ (t'.node y).isSome}

/-- A copy ends.  If neither `new_resource` nor a pass of the loop creates an entry inside the
source, then there are at most as many passes, and at most as many new entries below the
destination, as the source had entries when the task started. -/
theorem copy_directory_ends (fallocate : Bool) (t : FileTree) (fs : Mounted t)
    (rinfo : LocalPathInfo) (src : PathStr) (l : Loc) (hsrc : SourceDirectory t src l) (d : Disk)
    (res : LocalPathResource) (hnew : fs.newResource ⟨t, []⟩ rinfo true = (d, .ok res))
    (hcreated : ∀ y ∈ d.touched, ¬ inside l y) (c : Cursor PathStr)
    (hbegin : c.Begins (viewBelow d.tree l)) (rs : List (List PathStr)) (s : CopyState)
    (hrun : Passes fallocate src res.canonicalPath l (CopiedOutside src res.canonicalPath l) ⟨d, c⟩
      rs s) (D : Loc) (hD : d.tree.resolve .stat res.canonicalPath = .ok D) :
    rs.length ≤ (entriesBelow t l).ncard ∧ (newBelow t s.disk.tree D).Finite ∧
      (newBelow t s.disk.tree D).ncard ≤ (entriesBelow t l).ncard := by
  have hdest := newResource_creates fs hnew
  have hended := Ended.run hbegin hrun
  -- `new_resource` has left the source as it was
  have hsame : entriesBelow d.tree l = entriesBelow t l := by
    ext y
    refine and_congr_right fun hy => (hdest.entries y).trans (or_iff_right fun hmem => ?_)
    exact hcreated y hmem hy.1
  have hlen := hended.length_le (by rw [hsame]; exact hsrc.finite)
  rw [hsame] at hlen
  obtain ⟨ys, hys, hmem⟩ := hended.created
  have hsub : newBelow t s.disk.tree D ⊆ (ys.toFinset : Set Loc) := by
    rintro y ⟨hbelow, hnone, hsome⟩
    rcases hmem y hsome with hold | hy
    · have hstart := hdest.below D hD y hbelow hold
      rw [hnone] at hstart
      cases hstart
    · exact List.mem_toFinset.mpr hy
  have hfinite : (newBelow t s.disk.tree D).Finite := (Finset.finite_toSet _).subset hsub
  refine ⟨hlen, hfinite, ?_⟩
  calc (newBelow t s.disk.tree D).ncard ≤ (ys.toFinset : Set Loc).ncard :=
        Set.ncard_le_ncard hsub (Finset.finite_toSet _)
    _ = ys.toFinset.card := Set.ncard_coe_finset _
    _ ≤ ys.length := List.toFinset_card_le _
    _ ≤ rs.length := hys
    _ ≤ (entriesBelow t l).ncard := hlen

/-- An empty directory `/s`. -/
def emptySource : FileTree := empty.add ['s'] [] .dir empty.root_dir (by decide) (by decide)

/-- A directory `/s` with the file `/s/a`, and an empty directory `/b`. -/
def oneFile : FileTree :=
  (emptySource.add ['a'] [['s']] (.file [1]) (by decide) (by decide) (by decide)).add ['b'] [] .dir
    (by decide) (by decide) (by decide)

/-- The namespace mounted at `/b`. -/
def emptyMount : Mounted oneFile :=
  ⟨⟨"tmp1", false, "/b".toList, 0⟩, [['b']], by decide, by decide, by decide⟩

theorem oneFile_newResource :
    emptyMount.newResource ⟨oneFile, []⟩ ⟨"tmp1", "/"⟩ true =
      (⟨oneFile, []⟩, .ok ⟨emptyMount.toPosixFilesystem, "/".toList, "/b/".toList, true⟩) :=
  Prod.ext (by rfl) (by decide +kernel)

/-- What the copy of `/s` to `/b` leaves. -/
def copiedFile : Disk :=
  (copyEntry false "/s".toList "/b/".toList ⟨oneFile, []⟩ "/s/a".toList).1

/-- The pass for `/s/a`, after which the iterator is at its end. -/
theorem oneFile_run (ok : CopyState → List PathStr → Prop)
    (hok : ∀ c, ok ⟨⟨oneFile, []⟩, c⟩ [['a']]) :
    ∃ c s, c.Begins (viewBelow oneFile [['s']]) ∧
      Passes false "/s".toList "/b/".toList [['s']] ok ⟨⟨oneFile, []⟩, c⟩ [[['a']]] s ∧
      s = ⟨copiedFile, ⟨none, []⟩⟩ := by
  have hbegin : Advance (viewBelow oneFile [['s']]) [(viewBelow oneFile [['s']]).openDir []]
      (some ([] ++ [['a']])) _ := .deliver List.not_mem_nil (show (oneFile.node _).isSome by decide)
  refine ⟨⟨_, _⟩, _, hbegin, .snoc (.nil _) (hok _) ⟨Prod.ext rfl ?_, rfl, .inr ⟨?_, ?_⟩⟩, rfl⟩
  · decide +kernel
  · show ¬ copiedFile.tree.node [['a'], ['s']] = some .dir
    decide +kernel
  · refine .close (fun n hn => ?_) .done
    have hmem : (oneFile.node [n, ['s']]).isSome := hn
    obtain rfl : n = ['a'] := by simpa [oneFile, emptySource] using hmem
    exact List.mem_cons_self

theorem oneFile_entries {y : Loc} (h : (oneFile.node y).isSome) :
    y = [['b']] ∨ y = [['a'], ['s']] ∨ y = [['s']] ∨ y = [] := by
  simpa [oneFile, emptySource] using h

/-- The copy of `/s` to `/b` creates one entry. -/
theorem one_file_copy_ends :
    ∃ s : CopyState, s.disk = copiedFile ∧ (newBelow oneFile s.disk.tree [['b']]).ncard ≤
      (entriesBelow oneFile [['s']]).ncard := by
  have hfinite : (entriesBelow oneFile [['s']]).Finite := by
    refine (Set.toFinite {[['b']], [['a'], ['s']], [['s']], []}).subset fun y hy => ?_
    exact oneFile_entries hy.2
  have hout : ∀ c, CopiedOutside "/s".toList "/b/".toList [['s']] ⟨⟨oneFile, []⟩, c⟩ [['a']] := by
    rintro c x ⟨rel, hrel, -, hx⟩
    have hrel' : plainRelative oneFile "/s/a".toList "/s".toList = .ok "a".toList := by
      decide +kernel
    obtain rfl : "a".toList = rel := Except.ok.inj (hrel'.symm.trans hrel)
    have hplace : ∀ m ∈ [Mode.mkdir, Mode.create],
        oneFile.resolve m (append "/b/".toList "a".toList) = .ok [['a'], ['b']] := by
      decide +kernel
    obtain rfl : [['a'], ['b']] = x := by
      rcases hx with hx | hx
      · exact Except.ok.inj ((hplace .mkdir (by simp)).symm.trans hx)
      · exact Except.ok.inj ((hplace .create (by simp)).symm.trans hx)
    decide
  obtain ⟨c, s, hbegin, hrun, rfl⟩ := oneFile_run _ hout
  exact ⟨_, rfl, (copy_directory_ends false oneFile emptyMount ⟨"tmp1", "/"⟩ "/s".toList
    [['s']] ⟨by decide +kernel, by decide, hfinite⟩ ⟨oneFile, []⟩ _ oneFile_newResource nofun c
    hbegin _ _ hrun [['b']] (by decide +kernel)).2.2⟩

/-! ### A copy into the source -/

/-- The namespace mounted at `/s`.  As the source of a copy its top has the path `/s/./`. -/
def nestedMount : Mounted emptySource :=
  ⟨⟨"tmp0", false, "/s".toList, 0⟩, [['s']], by decide, by decide, by decide⟩

/-- The file system once `new_resource` has made the destination `/s/d`. -/
def nestedStart : Disk := (nestedMount.newResource ⟨emptySource, []⟩ ⟨"tmp0", "d"⟩ true).1

/-- The directory `/s/d/d/...`, of which there are `n` below `/s`. -/
def nested (n : ℕ) : Loc := List.replicate n ['d'] ++ [['s']]

theorem replicate_nested (n k : ℕ) :
    (List.replicate n ['d']).reverse ++ nested k = nested (n + k) := by
  rw [List.reverse_replicate, nested, nested, ← List.append_assoc, List.replicate_append_replicate]

/-- After `n` passes `/s` has `n + 1` directories, one in the other, and the iterator is at the
last one. -/
structure NestedAt (n : ℕ) (s : CopyState) : Prop where
  persists : Persists nestedStart.tree s.disk.tree
  last : s.disk.tree.node (nested (n + 1)) = some .dir
  free : s.disk.tree.node (nested (n + 2)) = none
  current : s.cursor.it = some (List.replicate (n + 1) ['d'])

/-- There is always one more pass. -/
theorem NestedAt.pass {n : ℕ} {s : CopyState} (h : NestedAt n s) :
    ∃ s', CopyPass false "/s/./".toList "/s/d/".toList [['s']] s (List.replicate (n + 1) ['d']) s' ∧
      NestedAt (n + 1) s' := by
  have hsrc : s.disk.tree.resolve .stat "/s/./".toList = .ok [['s']] :=
    resolve_persists (by decide +kernel) rfl h.persists
  have hdst : s.disk.tree.resolve .stat "/s/d/".toList = .ok (nested 1) :=
    resolve_persists (by decide +kernel) rfl h.persists
  have hr : List.replicate (n + 1) ['d'] = List.replicate n ['d'] ++ [['d']] :=
    List.replicate_succ'
  have hentry : ['d'] :: ((List.replicate n ['d']).reverse ++ [['s']]) = nested (n + 1) := by
    rw [List.reverse_replicate]
    rfl
  have hplace : ['d'] :: ((List.replicate n ['d']).reverse ++ nested 1) = nested (n + 2) := by
    rw [replicate_nested]
    rfl
  obtain ⟨d', hcopy, hlands⟩ : ∃ d', copyEntry false "/s/./".toList "/s/d/".toList s.disk
      (entryPath "/s/./".toList (List.replicate n ['d'] ++ [['d']])) = (d', .ok ()) ∧
        Lands s.disk d' (['d'] :: ((List.replicate n ['d']).reverse ++ nested 1)) .dir :=
    copyEntry_dir hsrc hdst (by rw [replicate_nested]; exact h.last)
      (by rw [hentry]; exact h.last) (by rw [hplace, h.free]; trivial)
  have hpersists := copyEntry_persists false "/s/./".toList "/s/d/".toList s.disk
    (entryPath "/s/./".toList (List.replicate n ['d'] ++ [['d']]))
  rw [hcopy] at hpersists
  rw [hplace] at hlands
  have hnew : d'.tree.node (nested (n + 2)) = some .dir := by rw [hlands.node, if_pos rfl]
  have hfree : d'.tree.node (nested (n + 3)) = none := by
    have hne : nested (n + 3) ≠ nested (n + 2) := List.cons_ne_self _ _
    rw [hlands.node, if_neg hne]
    exact node_cons_eq_none h.free _
  -- the directory that the pass has made is the next entry
  have hdir : (viewBelow d'.tree [['s']]).isDir (List.replicate (n + 1) ['d']) := by
    show d'.tree.node ((List.replicate (n + 1) ['d']).reverse ++ nested 0) = some .dir
    rw [replicate_nested]
    exact hpersists.dir _ h.last
  have hhas : (viewBelow d'.tree [['s']]).has (List.replicate (n + 1) ['d'] ++ [['d']]) := by
    show (d'.tree.node ((List.replicate (n + 1) ['d'] ++ [['d']]).reverse ++ nested 0)).isSome
    rw [← List.replicate_succ', replicate_nested, Nat.add_zero, hnew]
    rfl
  have hadvance : Advance (viewBelow d'.tree [['s']])
      ((viewBelow d'.tree [['s']]).openDir (List.replicate (n + 1) ['d']) :: s.cursor.streams)
      (some (List.replicate (n + 1) ['d'] ++ [['d']])) _ := .deliver List.not_mem_nil hhas
  refine ⟨⟨d', ⟨_, _⟩⟩, ⟨by rw [hr]; exact hcopy, h.current, .inl ⟨hdir, hadvance⟩⟩,
    h.persists.trans hpersists, hnew, hfree, ?_⟩
  rw [← List.replicate_succ']

/-- The first position. -/
theorem NestedAt.start : ∃ c : Cursor PathStr, c.Begins (viewBelow nestedStart.tree [['s']]) ∧
    NestedAt 0 ⟨nestedStart, c⟩ := by
  refine ⟨⟨some [['d']], _⟩, .deliver (n := ['d']) List.not_mem_nil ?_, .refl _, ?_, ?_, rfl⟩
  · show (nestedStart.tree.node [['d'], ['s']]).isSome
    decide +kernel
  · decide +kernel
  · decide +kernel

/-- There are runs of every length. -/
theorem NestedAt.run {c : Cursor PathStr} (h : NestedAt 0 ⟨nestedStart, c⟩) (n : ℕ) :
    ∃ rs s, Passes false "/s/./".toList "/s/d/".toList [['s']] (fun _ _ => True) ⟨nestedStart, c⟩
      rs s ∧ rs.length = n ∧ NestedAt n s := by
  induction n with
  | zero => exact ⟨[], _, .nil _, rfl, h⟩
  | succ n ih =>
      obtain ⟨rs, s, hpasses, hlen, hat⟩ := ih
      obtain ⟨s', hpass, hat'⟩ := hat.pass
      exact ⟨_, s', hpasses.snoc trivial hpass, by simp [hlen], hat'⟩

/-- A destination below the source: the source is empty when the task starts, and the loop goes on
for ever with the directories that it makes itself. -/
theorem copy_into_source_runs_on :
    ∃ res c, SourceDirectory emptySource "/s/./".toList [['s']] ∧
      (entriesBelow emptySource [['s']]).ncard = 0 ∧
      nestedMount.newResource ⟨emptySource, []⟩ ⟨"tmp0", "d"⟩ true =
        (nestedStart, .ok res) ∧
      c.Begins (viewBelow nestedStart.tree [['s']]) ∧
      ∀ bound : ℕ, ∃ rs s, Passes false "/s/./".toList res.canonicalPath [['s']] (fun _ _ => True)
        ⟨nestedStart, c⟩ rs s ∧ bound < rs.length := by
  have hempty : entriesBelow emptySource [['s']] = ∅ := by
    refine Set.eq_empty_of_forall_notMem fun y hy => ?_
    obtain ⟨⟨hin, hne⟩, hsome⟩ := hy
    have hmem : y = [['s']] ∨ y = [] := by simpa [emptySource] using hsome
    rcases hmem with rfl | rfl
    · exact hne rfl
    · exact absurd hin (by decide)
  obtain ⟨c, hbegin, hstart⟩ := NestedAt.start
  refine ⟨⟨nestedMount.toPosixFilesystem, "/d/".toList, "/s/d/".toList, true⟩, c,
    ⟨by decide +kernel, by decide, by rw [hempty]; exact Set.finite_empty⟩,
    by rw [hempty, Set.ncard_empty], Prod.ext rfl (by decide +kernel), hbegin, fun bound => ?_⟩
  obtain ⟨rs, s, hpasses, hlen, -⟩ := hstart.run (bound + 1)
  exact ⟨rs, s, hpasses, by omega⟩

/-! ### The tree is preserved -/

/-- What makes a copy plain.  The source has no links, no entry of it is copied into it, and what
stands at the destination is not in the way. -/
structure PlainCopy (fallocate : Bool) (t : FileTree) (l D : Loc) : Prop where
  links : ∀ r : List PathStr, t.isLink (r.reverse ++ l) = false
  outside : ∀ r : List PathStr, r ≠ [] → (t.node (r.reverse ++ l)).isSome →
    ¬ inside l (r.reverse ++ D)
  room : ∀ (r : List PathStr) (nd : Node), r ≠ [] → t.node (r.reverse ++ l) = some nd →
    Room fallocate nd (t.node (r.reverse ++ D))

/-- After the passes for `rs` the entries stand at the destination, and nothing else has
changed. -/
structure Copied (t : FileTree) (l D : Loc) (rs : List (List PathStr)) (d : Disk) : Prop where
  persists : Persists t d.tree
  copied : ∀ r ∈ rs, d.tree.node (r.reverse ++ D) = t.node (r.reverse ++ l)
  others : ∀ x, (∀ r ∈ rs, x ≠ r.reverse ++ D) → d.tree.node x = t.node x
  touched : ∀ x ∈ d.touched, ∃ r ∈ rs, x = r.reverse ++ D

theorem Copied.nil (t : FileTree) (l D : Loc) : Copied t l D [] ⟨t, []⟩ :=
  ⟨.refl t, nofun, fun _ _ => rfl, nofun⟩

/-- The source is as it was. -/
theorem Copied.source {t : FileTree} {D : Loc} {rs : List (List PathStr)} {d : Disk}
    (h : Copied t l D rs d) (hplain : PlainCopy fallocate t l D)
    (hrs : ∀ r ∈ rs, r ≠ [] ∧ (t.node (r.reverse ++ l)).isSome) {x : Loc} (hx : inside l x) :
    d.tree.node x = t.node x := by
  refine h.others x fun r hr heq => ?_
  exact hplain.outside r (hrs r hr).1 (hrs r hr).2 (heq ▸ hx)

/-- One more entry has landed. -/
theorem Copied.lands {t : FileTree} {D : Loc} {rs : List (List PathStr)} {d d' : Disk}
    {r : List PathStr} {nd : Node} (h : Copied t l D rs d) (hpersists : Persists d.tree d'.tree)
    (hnode : t.node (r.reverse ++ l) = some nd) (hlands : Lands d d' (r.reverse ++ D) nd) :
    Copied t l D (rs ++ [r]) d' := by
  have hinj : ∀ {r' : List PathStr}, r'.reverse ++ D = r.reverse ++ D → r' = r := fun heq =>
    List.reverse_injective (List.append_cancel_right heq)
  refine ⟨h.persists.trans hpersists, fun r' hr' => ?_, fun x hx => ?_, fun x hx => ?_⟩
  · rw [hlands.node]
    split_ifs with heq
    · rw [hinj heq, hnode]
    · rcases List.mem_append.mp hr' with hr' | hr'
      · exact h.copied r' hr'
      · exact absurd (by rw [List.mem_singleton.mp hr']) heq
  · rw [hlands.node, if_neg (hx r (by simp))]
    exact h.others x fun r' hr' => hx r' (List.mem_append_left _ hr')
  · rcases hlands.touched x hx with hx | rfl
    · obtain ⟨r', hr', rfl⟩ := h.touched x hx
      exact ⟨r', List.mem_append_left _ hr', rfl⟩
    · exact ⟨r, by simp, rfl⟩

/-- A pass of a plain copy. -/
theorem Copied.pass {t : FileTree} {D : Loc} {rs : List (List PathStr)} {s s' : CopyState}
    {r : List PathStr} (hsrc : t.resolve .stat src = .ok l) (hdst : t.resolve .stat dst = .ok D)
    (hdir : t.node D = some .dir) (hplain : PlainCopy fallocate t l D) (hended : Ended t l rs s)
    (h : Copied t l D rs s.disk) (hpass : CopyPass fallocate src dst l s r s') :
    CopiedOutside src dst l s r ∧ Copied t l D (rs ++ [r]) s'.disk := by
  obtain ⟨hcopy, hnext⟩ := hpass
  have hit : s.cursor.it.toList = [r] := by rw [hnext.1]; rfl
  obtain ⟨hvisits, hexist⟩ := And.intro hended.visits hended.exist
  rw [hit] at hvisits hexist
  obtain ⟨hne, hsome⟩ := hexist r (by simp)
  obtain ⟨q, n, rfl⟩ := (List.eq_nil_or_concat' r).resolve_left hne
  have hnew : q ++ [n] ∉ rs := by
    have hnodup := List.nodup_append.mp hvisits.nodup
    exact fun hmem => hnodup.2.2 _ hmem _ (by simp) rfl
  have hloc : ∀ m : Loc, (q ++ [n]).reverse ++ m = n :: (q.reverse ++ m) := by simp
  obtain ⟨nd, hnd⟩ := Option.isSome_iff_exists.mp hsome
  -- the parent of the entry has been copied
  have hparent : s.disk.tree.node (q.reverse ++ D) = some .dir := by
    rcases hvisits.parents q n (by simp) with rfl | hq
    · exact h.persists.dir D hdir
    · have hq' : q ∈ rs := by
        rcases List.mem_append.mp hq with hq | hq
        · exact hq
        · have hlen := congrArg List.length (List.mem_singleton.mp hq)
          simp at hlen
      rw [h.copied q hq']
      exact t.parent_dir n _ (by rw [← hloc]; exact hsome)
  have hsrc' := resolve_persists hsrc rfl h.persists
  have hdst' := resolve_persists hdst rfl h.persists
  have hentry : s.disk.tree.node ((q ++ [n]).reverse ++ l) = some nd := by
    rw [h.source hplain (fun r hr => hexist r (List.mem_append_left _ hr))
      (List.suffix_append _ _), hnd]
  have hroom : Room fallocate nd (s.disk.tree.node ((q ++ [n]).reverse ++ D)) := by
    rw [h.others _ fun r hr heq => hnew ?_]
    · exact hplain.room _ nd hne hnd
    · rw [List.reverse_injective (List.append_cancel_right heq)]
      exact hr
  have hlink : s.disk.tree.isLink ((q ++ [n]).reverse ++ l) = false := by
    have hlink := hplain.links (q ++ [n])
    simpa only [isLink, hentry, hnd] using hlink
  refine ⟨fun x hx => ?_, ?_⟩
  · -- the only place that can be created is that of the entry
    obtain ⟨rel, hrel, -, hres⟩ := hx
    have hsome' : (s.disk.tree.node ((q ++ [n]).reverse ++ l)).isSome := by rw [hentry]; rfl
    obtain rfl := Except.ok.inj (hrel.symm.trans (relative_entry hsrc' hne hsome' hlink).2)
    rw [append_entryPath hne (isName_of_entry hsome')] at hres
    have hn := t.proper n _ (by rw [← hloc]; exact hsome)
    rw [hloc] at hroom
    have hplace : ∀ m : Mode, m.mayMiss = true →
        s.disk.tree.resolve m (entryPath dst (q ++ [n])) = .ok (n :: (q.reverse ++ D)) :=
      fun m hm => resolve_place_ok hdst' hparent hn (not_link_of_room hroom) hm
    obtain rfl : n :: (q.reverse ++ D) = x := by
      rcases hres with hres | hres
      · exact Except.ok.inj ((hplace .mkdir rfl).symm.trans hres)
      · exact Except.ok.inj ((hplace .create rfl).symm.trans hres)
    rw [← hloc]
    exact hplain.outside _ hne hsome
  · have hpersists := copyEntry_persists fallocate src dst s.disk (entryPath src (q ++ [n]))
    rw [hcopy] at hpersists
    refine h.lands hpersists hnd ?_
    rw [hloc] at hentry hroom hlink ⊢
    cases nd with
    | dir =>
        obtain ⟨d', hd', hlands⟩ := copyEntry_dir hsrc' hdst' hparent hentry hroom
        obtain rfl : d' = s'.disk := congrArg Prod.fst (hd'.symm.trans hcopy)
        exact hlands
    | file data => exact copyEntry_file hsrc' hdst' hparent hentry hroom hcopy
    | link target => simp [isLink, hentry] at hlink

theorem Copied.run {t : FileTree} {D : Loc} {c : Cursor PathStr} {rs : List (List PathStr)}
    {s : CopyState} (hsrc : t.resolve .stat src = .ok l) (hdst : t.resolve .stat dst = .ok D)
    (hdir : t.node D = some .dir) (hplain : PlainCopy fallocate t l D)
    (hbegin : c.Begins (viewBelow t l))
    (h : Passes fallocate src dst l (fun _ _ => True) ⟨⟨t, []⟩, c⟩ rs s) :
    Ended t l rs s ∧ Copied t l D rs s.disk := by
  induction h with
  | nil => exact ⟨Ended.start (d := ⟨t, []⟩) hbegin, Copied.nil t l D⟩
  | snoc _ _ hpass ih =>
      obtain ⟨hended, hcopied⟩ := ih
      obtain ⟨hout, hcopied'⟩ := hcopied.pass hsrc hdst hdir hplain hended hpass
      exact ⟨hended.pass hout hpass, hcopied'⟩

/-- What a path leads to, links being followed. -/
def follow (t : FileTree) (p : PathStr) : Option Node :=
  match t.resolve .stat p with
  | .ok l => t.node l
  | .error _ => none

/-- The copy of a tree: each of the entries `rs` of the source is found at the destination, as a
directory or a file with the same content, and nothing but the places of these entries has been
created, written or changed. -/
structure PreservesTree (t : FileTree) (src dst : PathStr) (D : Loc) (rs : List (List PathStr))
    (d : Disk) : Prop where
  entries : ∀ r ∈ rs, ∃ nd, follow t (entryPath src r) = some nd ∧
    follow d.tree (entryPath dst r) = some nd
  others : ∀ x, x ∈ d.touched ∨ d.tree.node x ≠ t.node x → ∃ r ∈ rs, x = r.reverse ++ D

/-- A plain copy preserves the tree, whatever the order in which directories are read. -/
theorem copy_directory_copies (fallocate : Bool) (t : FileTree) (src dst : PathStr) (l D : Loc)
    (hsrc : t.resolve .stat src = .ok l) (hdst : t.resolve .stat dst = .ok D)
    (hdir : t.node D = some .dir) (hplain : PlainCopy fallocate t l D) (c : Cursor PathStr)
    (hbegin : c.Begins (viewBelow t l)) (rs : List (List PathStr)) (s : CopyState)
    (hrun : Passes fallocate src dst l (fun _ _ => True) ⟨⟨t, []⟩, c⟩ rs s) :
    PreservesTree t src dst D rs s.disk := by
  obtain ⟨hended, hcopied⟩ := Copied.run hsrc hdst hdir hplain hbegin hrun
  refine ⟨fun r hr => ?_, fun x hx => ?_⟩
  · obtain ⟨hne, hsome⟩ := hended.exist r (List.mem_append_left _ hr)
    obtain ⟨nd, hnd⟩ := Option.isSome_iff_exists.mp hsome
    have hnode := hcopied.copied r hr
    rw [hnd] at hnode
    have hlink : s.disk.tree.isLink (r.reverse ++ D) = false := by
      have hlink := hplain.links r
      simpa only [isLink, hnode, hnd] using hlink
    have hentry := (relative_entry hsrc hne hsome (hplain.links r)).1
    have hplace := (relative_entry (resolve_persists hdst rfl hcopied.persists) hne
      (by rw [hnode]; rfl) hlink).1
    exact ⟨nd, by simp only [follow, hentry, hnd], by simp only [follow, hplace, hnode]⟩
  · by_contra hno
    have hrest : ∀ r ∈ rs, x ≠ r.reverse ++ D := fun r hr heq => hno ⟨r, hr, heq⟩
    rcases hx with hx | hx
    · exact hno (hcopied.touched x hx)
    · exact hx (hcopied.others x hrest)

theorem oneFile_plain : PlainCopy false oneFile [['s']] [['b']] := by
  have hplace : ∀ r : List PathStr, r ≠ [] → oneFile.node (r.reverse ++ [['b']]) = none := by
    intro r hne
    by_contra hnone
    have hin : inside [['b']] (r.reverse ++ [['b']]) := List.suffix_append _ _
    rcases oneFile_entries (Option.isSome_iff_ne_none.mpr hnone) with h | h | h | h
    · exact hne (by simpa using h)
    · rw [h] at hin; revert hin; decide
    · rw [h] at hin; revert hin; decide
    · rw [h] at hin; revert hin; decide
  refine ⟨fun r => ?_, fun r hne _ hin => ?_, fun r nd hne hnd => ?_⟩
  · cases hlink : oneFile.isLink (r.reverse ++ [['s']]) with
    | false => rfl
    | true =>
        obtain ⟨target, ht⟩ := isLink_iff.mp hlink
        rcases oneFile_entries (Option.isSome_of_mem ht) with h | h | h | h
        all_goals rw [h] at ht; revert ht; simp [oneFile, emptySource, add, empty]
  · have htotal := inside_total hin (List.suffix_append r.reverse [['b']])
    revert htotal
    decide
  · rw [hplace r hne]
    cases nd <;> trivial

/-- The copy of `/s` to `/b`. -/
theorem one_file_copied : PreservesTree oneFile "/s".toList "/b/".toList [['b']] [[['a']]]
    copiedFile := by
  obtain ⟨c, s, hbegin, hrun, rfl⟩ := oneFile_run (fun _ _ => True) fun _ => trivial
  exact copy_directory_copies false oneFile "/s".toList "/b/".toList [['s']] [['b']]
    (by decide +kernel) (by decide +kernel) (by decide) oneFile_plain c hbegin _ _ hrun

/-! ### A link in the source -/

/-- The same directory with a link `/s/k` to `/s/a`. -/
def oneLink : FileTree :=
  oneFile.add ['k'] [['s']] (.link "a".toList) (by decide) (by decide) (by decide)

/-- What the pass for the link leaves, and then that for the file. -/
def linkCopied : Disk :=
  (copyEntry false "/s".toList "/b".toList ⟨oneLink, []⟩ "/s/k".toList).1

def bothCopied : Disk := (copyEntry false "/s".toList "/b".toList linkCopied "/s/a".toList).1

/-- The iterator over `/s`. -/
def linkStream (seen : List PathStr) : DirStream PathStr :=
  ⟨[], {n | (oneLink.node [n, ['s']]).isSome}, seen⟩

/-- A copy that succeeds and loses an entry: the link is copied to the place of its target. -/
theorem link_is_lost :
    ∃ c s, oneLink.resolve .stat "/s".toList = .ok [['s']] ∧
      oneLink.resolve .stat "/b".toList = .ok [['b']] ∧ oneLink.node [['b']] = some .dir ∧
      ¬ inside [['s']] [['b']] ∧ c.Begins (viewBelow oneLink [['s']]) ∧
      Passes false "/s".toList "/b".toList [['s']] (fun _ _ => True) ⟨⟨oneLink, []⟩, c⟩
        [[['k']], [['a']]] s ∧ s.cursor.it = none ∧
      ¬ PreservesTree oneLink "/s".toList "/b".toList [['b']] [[['k']], [['a']]] s.disk := by
  have hbegin : Advance (viewBelow oneLink [['s']]) [linkStream []] (some [['k']])
      [linkStream [['k']]] := .deliver (by decide) (show (oneLink.node _).isSome by decide)
  have hsecond : Advance (viewBelow linkCopied.tree [['s']]) [linkStream [['k']]] (some [['a']])
      [linkStream [['a'], ['k']]] :=
    .deliver (by decide) (show (linkCopied.tree.node _).isSome by decide +kernel)
  have hend : Advance (viewBelow bothCopied.tree [['s']]) [linkStream [['a'], ['k']]] none [] := by
    refine .close (fun n hn => ?_) .done
    have hmem : (oneLink.node [n, ['s']]).isSome := hn
    have hor : n = ['k'] ∨ n = ['a'] := by simpa [oneLink, oneFile, emptySource] using hmem
    rcases hor with rfl | rfl <;> simp [linkStream]
  have hk : ¬ (viewBelow linkCopied.tree [['s']]).isDir [['k']] :=
    show ¬ linkCopied.tree.node [['k'], ['s']] = some .dir by decide +kernel
  have hf : ¬ (viewBelow bothCopied.tree [['s']]).isDir [['a']] :=
    show ¬ bothCopied.tree.node [['a'], ['s']] = some .dir by decide +kernel
  refine ⟨⟨some [['k']], [linkStream [['k']]]⟩, ⟨bothCopied, ⟨none, []⟩⟩, by decide +kernel,
    by decide +kernel, by decide, by decide, hbegin, ?_, rfl, fun h => ?_⟩
  · have hfirst : Passes false "/s".toList "/b".toList [['s']] (fun _ _ => True)
        ⟨⟨oneLink, []⟩, ⟨some [['k']], [linkStream [['k']]]⟩⟩ ([] ++ [[['k']]])
        ⟨linkCopied, ⟨some [['a']], [linkStream [['a'], ['k']]]⟩⟩ :=
      .snoc (.nil _) trivial ⟨Prod.ext rfl (by decide +kernel), rfl, .inr ⟨hk, hsecond⟩⟩
    exact hfirst.snoc trivial ⟨Prod.ext rfl (by decide +kernel), rfl, .inr ⟨hf, hend⟩⟩
  · obtain ⟨nd, -, hnd⟩ := h.entries [['k']] (by simp)
    have hnone : follow bothCopied.tree (entryPath "/b".toList [['k']]) = none := by
      decide +kernel
    cases hnone.symm.trans hnd

end Norns
