import Norns.Lib.BoostPath

/-! # File-system trees with symbolic links

A tree assigns a node to the locations that exist.  A location is the list of the names that
lead to it from the root, the *last* name first, so that `n :: l` is the entry `n` of the
directory `l` and the root is `[]`.

`walk` is the name resolution of the operating system: components are looked up one after the
other, `"."` stays, `".."` goes to the parent, a symbolic link is replaced by its target, and
the number of links followed is bounded.  Whether a link in the last component is followed and
whether the last component may be missing depends on the system call (`Mode`):

* `stat` (and everything that opens an existing object): follow, must exist;
* `lstat`, `unlink`: do not follow, must exist;
* `create` (`open` with `O_CREAT`): follow, may be missing;
* `mkdir`: do not follow, may be missing.

`inside m l` says that the location `l` is `m` or below it. -/

namespace Norns.Lib

open PathStr

/-- A location: the names from the location back to the root. -/
abbrev Loc := List PathStr

/-- What a location can hold. -/
inductive Node where
  | dir
  | file (data : List UInt8)
  | link (target : PathStr)
deriving DecidableEq, Repr

/-- A file-system tree: the root is a directory, entries have proper names and stand in
directories. -/
structure FileTree where
  node : Loc → Option Node
  root_dir : node [] = some .dir
  parent_dir : ∀ n l, (node (n :: l)).isSome → node l = some .dir
  proper : ∀ n l, (node (n :: l)).isSome → Proper n

/-- The ways a name resolution can fail. -/
inductive WalkError where
  | notFound
  | notDir
  | loop
deriving DecidableEq, Repr

/-- How the last component of a path is treated. -/
structure Mode where
  follow : Bool
  mayMiss : Bool

namespace Mode
def stat : Mode := ⟨true, false⟩
def lstat : Mode := ⟨false, false⟩
def create : Mode := ⟨true, true⟩
def mkdir : Mode := ⟨false, true⟩
end Mode

/-- `l` is `m` or below it. -/
def inside (m l : Loc) : Prop := m <:+ l

/-- `l` is below `m` and not `m` itself. -/
def strictlyBelow (m l : Loc) : Prop := m <:+ l ∧ l ≠ m

instance (m l : Loc) : Decidable (inside m l) := inferInstanceAs (Decidable (_ <:+ _))
instance (m l : Loc) : Decidable (strictlyBelow m l) := inferInstanceAs (Decidable (_ ∧ _))

theorem inside_refl (m : Loc) : inside m m := List.suffix_refl m

theorem inside_cons {m l : Loc} (n : PathStr) (h : inside m l) : inside m (n :: l) :=
  h.trans (List.suffix_cons n l)

theorem strictlyBelow_cons_iff {m l : Loc} {n : PathStr} :
    strictlyBelow m (n :: l) ↔ inside m l := by
  constructor
  · rintro ⟨hs, hne⟩
    obtain rfl | h := List.suffix_cons_iff.mp hs
    · exact absurd rfl hne
    · exact h
  · intro h
    refine ⟨inside_cons n h, ?_⟩
    rintro rfl
    exact absurd h.length_le (by simp)

theorem inside_append_right {a b c : Loc} : inside (a ++ c) (b ++ c) ↔ inside a b := by
  constructor
  · rintro ⟨x, hx⟩
    rw [← List.append_assoc] at hx
    exact ⟨x, List.append_cancel_right hx⟩
  · rintro ⟨x, rfl⟩
    exact ⟨x, by simp⟩

/-- Two ways up from one location. -/
theorem inside_total {a b q : Loc} (ha : inside a q) (hb : inside b q) :
    inside a b ∨ inside b a :=
  List.suffix_or_suffix_of_suffix ha hb

namespace FileTree

variable (t : FileTree)

/-- Where the target of a link that stands in the directory `cur` is looked up. -/
def linkStart (cur : Loc) (target : PathStr) : Loc := if target.head? = some '/' then [] else cur

/-- One pass over the components; `jump` continues after a symbolic link. -/
def walkAux (m : Mode) (jump : Loc → List PathStr → Except WalkError Loc) :
    Loc → List PathStr → Except WalkError Loc
  | cur, [] => .ok cur
  | cur, c :: cs =>
      if t.node cur ≠ some .dir then .error .notDir
      else if c = dot then walkAux m jump cur cs
      else if c = dotDot then walkAux m jump cur.tail cs
      else
        match t.node (c :: cur) with
        | none => if m.mayMiss && cs.isEmpty then .ok (c :: cur) else .error .notFound
        | some (.link target) =>
            if cs.isEmpty && !m.follow then .ok (c :: cur)
            else if target = [] then .error .notFound
            else jump (linkStart cur target) (relElements target ++ cs)
        | some _ => walkAux m jump (c :: cur) cs

/-- Name resolution from `cur`, following at most `k` links. -/
def walk (m : Mode) : ℕ → Loc → List PathStr → Except WalkError Loc
  | 0 => walkAux t m (fun _ _ => .error .loop)
  | k + 1 => walkAux t m (walk m k)

/-- The number of links the operating system follows in one resolution. -/
def maxLinks : ℕ := 40

/-- Name resolution of a path string; the working directory is the root. -/
def resolve (m : Mode) (p : PathStr) : Except WalkError Loc :=
  if p = [] then .error .notFound else t.walk m maxLinks [] (relElements p)

/-- The texts of the links that one pass over the components follows, all of them if the last
component is followed too; `jump` goes on after a link. -/
def followedAux (jump : Loc → List PathStr → List PathStr) : Loc → List PathStr → List PathStr
  | _, [] => []
  | cur, c :: cs =>
      if t.node cur ≠ some .dir then []
      else if c = dot then followedAux jump cur cs
      else if c = dotDot then followedAux jump cur.tail cs
      else
        match t.node (c :: cur) with
        | none => []
        | some (.link target) => target :: jump (linkStart cur target) (relElements target ++ cs)
        | some _ => followedAux jump (c :: cur) cs

/-- The texts of the links that a name resolution from `cur` follows, `k` of them at most. -/
def followed : ℕ → Loc → List PathStr → List PathStr
  | 0 => followedAux t (fun _ _ => [])
  | k + 1 => followedAux t (followed k)

/-- The texts of the links that the resolution of a path follows. -/
def linksOf (p : PathStr) : List PathStr := t.followed maxLinks [] (relElements p)

/-- The location is a directory. -/
def isDir (l : Loc) : Bool := t.node l = some .dir

/-- The location is a symbolic link. -/
def isLink (l : Loc) : Bool :=
  match t.node l with
  | some (.link _) => true
  | _ => false

/-! ### One step of a walk -/

variable {t} {m : Mode} {jump : Loc → List PathStr → Except WalkError Loc}

theorem resolve_of_relElements {p : PathStr} {cs : List PathStr}
    (h : relElements p = cs) (hne : cs ≠ []) : t.resolve m p = t.walk m maxLinks [] cs := by
  have hp : p ≠ [] := by
    rintro rfl
    exact hne h.symm
  rw [resolve, if_neg hp, h]

theorem walkAux_nil (cur : Loc) : walkAux t m jump cur [] = .ok cur := by rw [walkAux]

theorem walkAux_notDir {cur : Loc} {c : PathStr} {cs : List PathStr} (h : t.node cur ≠ some .dir) :
    walkAux t m jump cur (c :: cs) = .error .notDir := by
  rw [walkAux, if_pos h]

theorem walkAux_dot {cur : Loc} {cs : List PathStr} (h : t.node cur = some .dir) :
    walkAux t m jump cur (dot :: cs) = walkAux t m jump cur cs := by
  rw [walkAux, if_neg (not_not.mpr h), if_pos rfl]

theorem walkAux_dotDot {cur : Loc} {cs : List PathStr} (h : t.node cur = some .dir) :
    walkAux t m jump cur (dotDot :: cs) = walkAux t m jump cur.tail cs := by
  rw [walkAux, if_neg (not_not.mpr h), if_neg (by decide), if_pos rfl]

/-- A proper name is looked up in the current directory. -/
theorem walkAux_proper {cur : Loc} {c : PathStr} {cs : List PathStr} (h : t.node cur = some .dir)
    (hc : c ≠ dot) (hc' : c ≠ dotDot) :
    walkAux t m jump cur (c :: cs) =
      match t.node (c :: cur) with
      | none => if m.mayMiss && cs.isEmpty then .ok (c :: cur) else .error .notFound
      | some (.link target) =>
          if cs.isEmpty && !m.follow then .ok (c :: cur)
          else if target = [] then .error .notFound
          else jump (linkStart cur target) (relElements target ++ cs)
      | some _ => walkAux t m jump (c :: cur) cs := by
  rw [walkAux, if_neg (not_not.mpr h), if_neg hc, if_neg hc']

/-- An existing entry that is not a link is entered. -/
theorem walkAux_enter {cur : Loc} {c : PathStr} {cs : List PathStr} (h : t.node cur = some .dir)
    (hc : c ≠ dot) (hc' : c ≠ dotDot) (hs : (t.node (c :: cur)).isSome)
    (hl : t.isLink (c :: cur) = false) :
    walkAux t m jump cur (c :: cs) = walkAux t m jump (c :: cur) cs := by
  rw [walkAux_proper h hc hc']
  cases hn : t.node (c :: cur) with
  | none => simp [hn] at hs
  | some nd =>
      cases nd with
      | link target => simp [isLink, hn] at hl
      | dir => rfl
      | file data => rfl

/-- Parents of directories are directories. -/
theorem dir_tail {l : Loc} (h : t.node l = some .dir) : t.node l.tail = some .dir := by
  cases l with
  | nil => exact h
  | cons n l => exact t.parent_dir n l (by rw [h]; rfl)

/-! ### Successful walks as a relation

`Walks t m k cur cs l` has one rule for each way a component can be passed, so that facts about
successful resolutions are proved by rule induction. -/

inductive Walks (t : FileTree) (m : Mode) : ℕ → Loc → List PathStr → Loc → Prop
  | nil (k : ℕ) (cur : Loc) : Walks t m k cur [] cur
  | dot {k : ℕ} {cur l : Loc} {cs : List PathStr} : t.node cur = some .dir →
      Walks t m k cur cs l → Walks t m k cur (PathStr.dot :: cs) l
  | dotDot {k : ℕ} {cur l : Loc} {cs : List PathStr} : t.node cur = some .dir →
      Walks t m k cur.tail cs l → Walks t m k cur (PathStr.dotDot :: cs) l
  | enter {k : ℕ} {cur l : Loc} {c : PathStr} {cs : List PathStr} : t.node cur = some .dir →
      c ≠ PathStr.dot → c ≠ PathStr.dotDot → (t.node (c :: cur)).isSome →
      t.isLink (c :: cur) = false → Walks t m k (c :: cur) cs l → Walks t m k cur (c :: cs) l
  | missing {k : ℕ} {cur : Loc} {c : PathStr} : t.node cur = some .dir →
      c ≠ PathStr.dot → c ≠ PathStr.dotDot → t.node (c :: cur) = none → m.mayMiss = true →
      Walks t m k cur [c] (c :: cur)
  | stop {k : ℕ} {cur : Loc} {c : PathStr} : t.node cur = some .dir →
      c ≠ PathStr.dot → c ≠ PathStr.dotDot → t.isLink (c :: cur) = true → m.follow = false →
      Walks t m k cur [c] (c :: cur)
  | jump {k : ℕ} {cur l : Loc} {c target : PathStr} {cs : List PathStr} : t.node cur = some .dir →
      c ≠ PathStr.dot → c ≠ PathStr.dotDot → t.node (c :: cur) = some (.link target) →
      (cs ≠ [] ∨ m.follow = true) → target ≠ [] →
      Walks t m k (linkStart cur target) (relElements target ++ cs) l →
      Walks t m (k + 1) cur (c :: cs) l

theorem isLink_iff {l : Loc} : t.isLink l = true ↔ ∃ target, t.node l = some (.link target) := by
  unfold isLink
  split <;> simp_all

theorem Walks.of_walkAux {k : ℕ} {jump : Loc → List PathStr → Except WalkError Loc}
    (hjump : ∀ cur cs l, jump cur cs = .ok l → ∃ k', k = k' + 1 ∧ Walks t m k' cur cs l)
    {cur : Loc} {cs : List PathStr} {l : Loc} (h : walkAux t m jump cur cs = .ok l) :
    Walks t m k cur cs l := by
  induction cs generalizing cur with
  | nil =>
      rw [walkAux_nil] at h
      obtain rfl := Except.ok.inj h
      exact .nil k _
  | cons c cs ih =>
      by_cases hd : t.node cur = some .dir
      · by_cases hc : c = PathStr.dot
        · subst hc
          rw [walkAux_dot hd] at h
          exact .dot hd (ih h)
        · by_cases hc' : c = PathStr.dotDot
          · subst hc'
            rw [walkAux_dotDot hd] at h
            exact .dotDot hd (ih h)
          · rw [walkAux_proper hd hc hc'] at h
            cases hn : t.node (c :: cur) with
            | none =>
                rw [hn] at h
                simp only [Bool.and_eq_true, List.isEmpty_iff] at h
                split_ifs at h with hm
                obtain rfl := Except.ok.inj h
                rw [hm.2]
                exact .missing hd hc hc' hn hm.1
            | some nd =>
                rw [hn] at h
                cases nd with
                | link target =>
                    simp only [Bool.and_eq_true, List.isEmpty_iff, Bool.not_eq_true'] at h
                    split_ifs at h with hs ht
                    · obtain rfl := Except.ok.inj h
                      rw [hs.1]
                      exact .stop hd hc hc' (isLink_iff.mpr ⟨target, hn⟩) hs.2
                    · obtain ⟨k', rfl, hw⟩ := hjump _ _ _ h
                      refine .jump hd hc hc' hn ?_ ht hw
                      by_cases hnil : cs = []
                      · exact Or.inr (by simpa [hnil] using hs)
                      · exact Or.inl hnil
                | dir => exact .enter hd hc hc' (by simp [hn]) (by simp [isLink, hn]) (ih h)
                | file data => exact .enter hd hc hc' (by simp [hn]) (by simp [isLink, hn]) (ih h)
      · rw [walkAux_notDir hd] at h
        cases h

theorem Walks.of_walk {k : ℕ} {cur : Loc} {cs : List PathStr} {l : Loc}
    (h : t.walk m k cur cs = .ok l) : Walks t m k cur cs l := by
  induction k generalizing cur cs l with
  | zero => exact Walks.of_walkAux (fun _ _ _ h => by cases h) h
  | succ k ih => exact Walks.of_walkAux (fun _ _ _ h => ⟨k, rfl, ih h⟩) h

/-- One step of `walk` is one step of `walkAux`, whatever the number of links left. -/
theorem walk_eq (k : ℕ) : ∃ jump, ∀ cur cs, t.walk m k cur cs = walkAux t m jump cur cs := by
  cases k with
  | zero => exact ⟨_, fun _ _ => rfl⟩
  | succ k => exact ⟨_, fun _ _ => rfl⟩

theorem Walks.walk {k : ℕ} {cur : Loc} {cs : List PathStr} {l : Loc} (h : Walks t m k cur cs l) :
    t.walk m k cur cs = .ok l := by
  induction h with
  | nil k cur =>
      obtain ⟨jump, hj⟩ := walk_eq (t := t) (m := m) k
      rw [hj, walkAux_nil]
  | @dot k cur l cs hd _ ih =>
      obtain ⟨jump, hj⟩ := walk_eq (t := t) (m := m) k
      rw [hj, walkAux_dot hd, ← hj, ih]
  | @dotDot k cur l cs hd _ ih =>
      obtain ⟨jump, hj⟩ := walk_eq (t := t) (m := m) k
      rw [hj, walkAux_dotDot hd, ← hj, ih]
  | @enter k cur l c cs hd hc hc' hs hl _ ih =>
      obtain ⟨jump, hj⟩ := walk_eq (t := t) (m := m) k
      rw [hj, walkAux_enter hd hc hc' hs hl, ← hj, ih]
  | @missing k cur c hd hc hc' hn hm =>
      obtain ⟨jump, hj⟩ := walk_eq (t := t) (m := m) k
      rw [hj, walkAux_proper hd hc hc', hn]
      simp [hm]
  | @stop k cur c hd hc hc' hl hf =>
      obtain ⟨jump, hj⟩ := walk_eq (t := t) (m := m) k
      obtain ⟨target, hn⟩ := isLink_iff.mp hl
      rw [hj, walkAux_proper hd hc hc', hn]
      simp [hf]
  | @jump k cur l c target cs hd hc hc' hn hf ht _ ih =>
      show walkAux t m (t.walk m k) cur (c :: cs) = _
      rw [walkAux_proper hd hc hc', hn]
      have hs : (cs.isEmpty && !m.follow) = false := by
        obtain hf | hf := hf
        · simp [hf]
        · simp [hf]
      simp only [hs, Bool.false_eq_true, if_false, ht, ih]

theorem walk_ok_iff {k : ℕ} {cur : Loc} {cs : List PathStr} {l : Loc} :
    t.walk m k cur cs = .ok l ↔ Walks t m k cur cs l := ⟨Walks.of_walk, Walks.walk⟩

/-! ### What a successful walk says about the location it ends at -/

theorem isSome_linkStart {cur : Loc} {target : PathStr} (h : (t.node cur).isSome) :
    (t.node (linkStart cur target)).isSome := by
  unfold linkStart
  split_ifs
  · rw [t.root_dir]; rfl
  · exact h

/-- A walk with something to look up starts in a directory. -/
theorem Walks.dir_start {k : ℕ} {cur l : Loc} {cs : List PathStr}
    (h : Walks t m k cur cs l) (hcs : cs ≠ []) : t.node cur = some .dir := by
  cases h with
  | nil => exact absurd rfl hcs
  | dot hd _ => exact hd
  | dotDot hd _ => exact hd
  | enter hd _ _ _ _ _ => exact hd
  | missing hd _ _ _ _ => exact hd
  | stop hd _ _ _ _ => exact hd
  | jump hd _ _ _ _ _ _ => exact hd

/-- A walk that must not miss ends at something that exists. -/
theorem Walks.isSome {k : ℕ} {cur l : Loc} {cs : List PathStr} (h : Walks t m k cur cs l)
    (hm : m.mayMiss = false) (hcur : (t.node cur).isSome) : (t.node l).isSome := by
  induction h with
  | nil => exact hcur
  | dot _ _ ih => exact ih hcur
  | dotDot hd _ ih => exact ih (by rw [dir_tail hd]; rfl)
  | enter _ _ _ hs _ _ ih => exact ih hs
  | missing _ _ _ _ hmiss => rw [hm] at hmiss; cases hmiss
  | stop _ _ _ hl _ =>
      obtain ⟨target, hn⟩ := isLink_iff.mp hl
      rw [hn]; rfl
  | jump _ _ _ _ _ _ _ ih => exact ih (isSome_linkStart hcur)

theorem Walks.of_dot {k : ℕ} {cur l : Loc} (h : Walks t m k cur [PathStr.dot] l) : l = cur := by
  cases h with
  | dot _ hw =>
      cases hw
      rfl
  | enter _ hd _ _ _ _ => exact absurd rfl hd
  | missing _ hd _ _ _ => exact absurd rfl hd
  | stop _ hd _ _ _ => exact absurd rfl hd
  | jump _ hd _ _ _ _ _ => exact absurd rfl hd

theorem Walks.of_dotDot {k : ℕ} {cur l : Loc} (h : Walks t m k cur [PathStr.dotDot] l) :
    l = cur.tail := by
  cases h with
  | dotDot _ hw =>
      cases hw
      rfl
  | enter _ _ hd _ _ _ => exact absurd rfl hd
  | missing _ _ hd _ _ => exact absurd rfl hd
  | stop _ _ hd _ _ => exact absurd rfl hd
  | jump _ _ hd _ _ _ _ => exact absurd rfl hd

/-- A walk that follows the last link does not end at one. -/
theorem Walks.not_link {k : ℕ} {cur l : Loc} {cs : List PathStr} (h : Walks t m k cur cs l)
    (hf : m.follow = true) (hcur : t.isLink cur = false) : t.isLink l = false := by
  induction h with
  | nil => exact hcur
  | dot _ _ ih => exact ih hcur
  | dotDot hd _ ih => exact ih (by simp [isLink, dir_tail hd])
  | enter _ _ _ _ hl _ ih => exact ih hl
  | missing _ _ _ hn _ => simp [isLink, hn]
  | stop _ _ _ _ hfalse => rw [hf] at hfalse; cases hfalse
  | jump _ _ _ _ _ _ _ ih =>
      apply ih
      unfold linkStart
      split_ifs
      · simp [isLink, t.root_dir]
      · exact hcur

/-- If the last component is not followed and is not a link, following changes nothing. -/
theorem Walks.follow_of_not_link {mayMiss : Bool} {k : ℕ} {cur l : Loc} {cs : List PathStr}
    (h : Walks t ⟨false, mayMiss⟩ k cur cs l) (hl : t.isLink l = false) :
    Walks t ⟨true, mayMiss⟩ k cur cs l := by
  induction h with
  | nil => exact .nil _ _
  | dot hd _ ih => exact .dot hd (ih hl)
  | dotDot hd _ ih => exact .dotDot hd (ih hl)
  | enter hd hc hc' hs hn _ ih => exact .enter hd hc hc' hs hn (ih hl)
  | missing hd hc hc' hn hmiss => exact .missing hd hc hc' hn hmiss
  | stop _ _ _ hlink _ => rw [hl] at hlink; cases hlink
  | jump hd hc hc' hn _ ht _ ih => exact .jump hd hc hc' hn (Or.inr rfl) ht (ih hl)

theorem Walks.stat_of_lstat {k : ℕ} {cur l : Loc} {cs : List PathStr}
    (h : Walks t .lstat k cur cs l) (hl : t.isLink l = false) : Walks t .stat k cur cs l :=
  h.follow_of_not_link hl

/-- An error of `lstat` is an error of `stat`. -/
theorem walkAux_stat_of_lstat_error
    {jump jump' : Loc → List PathStr → Except WalkError Loc}
    (hjump : ∀ cur cs e, jump cur cs = .error e → jump' cur cs = .error e) {cur : Loc}
    {cs : List PathStr} {e : WalkError} (h : walkAux t .lstat jump cur cs = .error e) :
    walkAux t .stat jump' cur cs = .error e := by
  induction cs generalizing cur with
  | nil =>
      rw [walkAux_nil] at h
      cases h
  | cons c cs ih =>
      by_cases hd : t.node cur = some .dir
      · by_cases hc : c = PathStr.dot
        · subst hc
          rw [walkAux_dot hd] at h ⊢
          exact ih h
        · by_cases hc' : c = PathStr.dotDot
          · subst hc'
            rw [walkAux_dotDot hd] at h ⊢
            exact ih h
          · rw [walkAux_proper hd hc hc'] at h ⊢
            cases hn : t.node (c :: cur) with
            | none =>
                rw [hn] at h
                exact h
            | some nd =>
                rw [hn] at h
                cases nd with
                | dir => exact ih h
                | file data => exact ih h
                | link target =>
                    simp only [Mode.lstat, Mode.stat, Bool.not_true, Bool.and_false,
                      Bool.not_false, Bool.and_true, Bool.false_eq_true, if_false] at h ⊢
                    split_ifs at h ⊢
                    · exact h
                    · exact hjump _ _ _ h
      · rw [walkAux_notDir hd] at h ⊢
        exact h

theorem walk_stat_of_lstat_error {k : ℕ} {cur : Loc} {cs : List PathStr}
    {e : WalkError} (h : t.walk .lstat k cur cs = .error e) : t.walk .stat k cur cs = .error e := by
  induction k generalizing cur cs e with
  | zero => exact walkAux_stat_of_lstat_error (fun _ _ _ h => h) h
  | succ k ih => exact walkAux_stat_of_lstat_error (fun _ _ _ h => ih h) h

/-- Whatever a path is walked for, all components but the last are followed. -/
theorem Walks.split {k : ℕ} {cur l : Loc} {pre rest : List PathStr}
    (h : Walks t m k cur (pre ++ rest) l) (hrest : rest ≠ []) : ∃ d, Walks t .stat k cur pre d := by
  -- the induction is on the walk; the split of its components is generalised
  generalize hcs : pre ++ rest = cs at h
  induction h generalizing pre with
  | nil => exact absurd (List.append_eq_nil_iff.mp hcs).2 hrest
  | @dot k cur l cs hd _ ih =>
      cases pre with
      | nil => exact ⟨cur, .nil _ _⟩
      | cons c pre =>
          obtain ⟨rfl, rfl⟩ := List.cons.inj hcs
          obtain ⟨d, hw⟩ := ih rfl
          exact ⟨d, .dot hd hw⟩
  | @dotDot k cur l cs hd _ ih =>
      cases pre with
      | nil => exact ⟨cur, .nil _ _⟩
      | cons c pre =>
          obtain ⟨rfl, rfl⟩ := List.cons.inj hcs
          obtain ⟨d, hw⟩ := ih rfl
          exact ⟨d, .dotDot hd hw⟩
  | @enter k cur l c cs hd hc hc' hs hlink _ ih =>
      cases pre with
      | nil => exact ⟨cur, .nil _ _⟩
      | cons c pre =>
          obtain ⟨rfl, rfl⟩ := List.cons.inj hcs
          obtain ⟨d, hw⟩ := ih rfl
          exact ⟨d, .enter hd hc hc' hs hlink hw⟩
  | @missing k cur c hd _ _ _ _ =>
      cases pre with
      | nil => exact ⟨cur, .nil _ _⟩
      | cons c pre => exact absurd (List.append_eq_nil_iff.mp (List.cons.inj hcs).2).2 hrest
  | @stop k cur c hd _ _ _ _ =>
      cases pre with
      | nil => exact ⟨cur, .nil _ _⟩
      | cons c pre => exact absurd (List.append_eq_nil_iff.mp (List.cons.inj hcs).2).2 hrest
  | @jump k cur l c target cs hd hc hc' hlink _ ht _ ih =>
      cases pre with
      | nil => exact ⟨cur, .nil _ _⟩
      | cons c pre =>
          obtain ⟨rfl, rfl⟩ := List.cons.inj hcs
          obtain ⟨d, hw⟩ := ih (List.append_assoc _ _ _)
          exact ⟨d, .jump hd hc hc' hlink (Or.inr rfl) ht hw⟩

/-- A path is walked like its tail from the place its head leads to, with the links that are
left. -/
theorem Walks.walk_append {k : ℕ} {cur d : Loc} {pre : List PathStr}
    (h : Walks t .stat k cur pre d) :
    ∃ k' ≤ k, ∀ (m : Mode) (rest : List PathStr), rest ≠ [] →
      t.walk m k cur (pre ++ rest) = t.walk m k' d rest := by
  induction h with
  | nil k cur => exact ⟨k, le_refl k, fun _ _ _ => rfl⟩
  | @dot k cur l cs hd _ ih =>
      obtain ⟨k', hle, hk⟩ := ih
      refine ⟨k', hle, fun m rest hr => ?_⟩
      obtain ⟨jump, hj⟩ := walk_eq (t := t) (m := m) k
      rw [List.cons_append, hj, walkAux_dot hd, ← hj, hk m rest hr]
  | @dotDot k cur l cs hd _ ih =>
      obtain ⟨k', hle, hk⟩ := ih
      refine ⟨k', hle, fun m rest hr => ?_⟩
      obtain ⟨jump, hj⟩ := walk_eq (t := t) (m := m) k
      rw [List.cons_append, hj, walkAux_dotDot hd, ← hj, hk m rest hr]
  | @enter k cur l c cs hd hc hc' hs hl _ ih =>
      obtain ⟨k', hle, hk⟩ := ih
      refine ⟨k', hle, fun m rest hr => ?_⟩
      obtain ⟨jump, hj⟩ := walk_eq (t := t) (m := m) k
      rw [List.cons_append, hj, walkAux_enter hd hc hc' hs hl, ← hj, hk m rest hr]
  | missing _ _ _ _ hmiss => cases hmiss
  | stop _ _ _ _ hfalse => cases hfalse
  | @jump k cur l c target cs hd hc hc' hn _ ht _ ih =>
      obtain ⟨k', hle, hk⟩ := ih
      refine ⟨k', hle.trans (Nat.le_succ k), fun m rest hr => ?_⟩
      show walkAux t m (t.walk m k) cur (c :: (cs ++ rest)) = _
      rw [walkAux_proper hd hc hc', hn, ← hk m rest hr, List.append_assoc]
      simp [hr, ht]

/-- A trailing `"."` asks for a directory. -/
theorem walk_concat_dot {k : ℕ} {cur l : Loc} {cs : List PathStr}
    (h : t.walk .stat k cur cs = .ok l) : t.walk .stat k cur (cs ++ [PathStr.dot]) =
      if t.isDir l then .ok l else .error .notDir := by
  obtain ⟨k', -, hk⟩ := (walk_ok_iff.mp h).walk_append
  obtain ⟨jump, hj⟩ := walk_eq (t := t) (m := .stat) k'
  rw [hk .stat [PathStr.dot] (by simp), hj]
  by_cases hd : t.node l = some .dir
  · rw [walkAux_dot hd, walkAux_nil, if_pos (show t.isDir l = true from decide_eq_true hd)]
  · rw [walkAux_notDir hd, if_neg (show ¬ t.isDir l = true by simpa [isDir] using hd)]

/-- `lstat` of a path that ends in a proper name finds that name in the directory to which the
rest of the path leads. -/
theorem Walks.lstat_concat {k : ℕ} {cur l : Loc} {cs : List PathStr} {n : PathStr}
    (h : Walks t .lstat k cur (cs ++ [n]) l) (hn : n ≠ PathStr.dot) (hn' : n ≠ PathStr.dotDot) :
    ∃ d, Walks t .stat k cur cs d ∧ l = n :: d ∧ t.node d = some .dir := by
  obtain ⟨d, hd⟩ := h.split (by simp)
  obtain ⟨k', -, hk⟩ := hd.walk_append
  have hlast : Walks t .lstat k' d [n] l :=
    walk_ok_iff.mp (by rw [← hk .lstat [n] (by simp), walk_ok_iff.mpr h])
  refine ⟨d, hd, ?_, hlast.dir_start (by simp)⟩
  cases hlast with
  | dot _ _ => exact absurd rfl hn
  | dotDot _ _ => exact absurd rfl hn'
  | enter _ _ _ _ _ hw => cases hw; rfl
  | missing _ _ _ _ hmiss => cases hmiss
  | stop _ _ _ _ _ => rfl
  | jump _ _ _ _ hf _ _ => exact absurd hf (by simp [Mode.lstat])

/-- Without following the last component, a path leads to that name in the directory the rest of
the path leads to, whether it exists or not. -/
theorem Walks.mkdir_concat {k : ℕ} {cur d : Loc} {cs : List PathStr} {n : PathStr}
    (h : Walks t .stat k cur cs d) (hd : t.node d = some .dir) (hn : n ≠ PathStr.dot)
    (hn' : n ≠ PathStr.dotDot) : t.walk .mkdir k cur (cs ++ [n]) = .ok (n :: d) := by
  obtain ⟨k', -, hk⟩ := h.walk_append
  obtain ⟨jump, hj⟩ := walk_eq (t := t) (m := .mkdir) k'
  rw [hk .mkdir [n] (by simp), hj, walkAux_proper hd hn hn']
  cases t.node (n :: d) with
  | none => rfl
  | some nd =>
      cases nd with
      | link target => rfl
      | dir => exact walkAux_nil _
      | file data => exact walkAux_nil _

/-- One more component that exists and is not a link. -/
theorem Walks.stat_concat {k : ℕ} {cur d : Loc} {cs : List PathStr} {n : PathStr}
    (h : Walks t .stat k cur cs d) (hn : Proper n) (hs : (t.node (n :: d)).isSome)
    (hl : t.isLink (n :: d) = false) : Walks t .stat k cur (cs ++ [n]) (n :: d) := by
  obtain ⟨k', -, hk⟩ := h.walk_append
  obtain ⟨jump, hj⟩ := walk_eq (t := t) (m := .stat) k'
  apply walk_ok_iff.mp
  rw [hk .stat [n] (by simp), hj, walkAux_enter (t.parent_dir n d hs) hn.2.1 hn.2.2 hs hl,
    walkAux_nil]

/-- A walk that ends where nothing exists ends at a free name of a directory. -/
theorem Walks.free_spec {k : ℕ} {cur l : Loc} {cs : List PathStr} (h : Walks t m k cur cs l)
    (hcs : ∀ c ∈ cs, IsName c) (hcur : (t.node cur).isSome) (hl : t.node l = none) :
    ∃ n d, l = n :: d ∧ t.node d = some .dir ∧ Proper n := by
  induction h with
  | nil => rw [hl] at hcur; cases hcur
  | dot _ _ ih => exact ih (fun c hc => hcs c (by simp [hc])) hcur hl
  | dotDot hd _ ih =>
      exact ih (fun c hc => hcs c (by simp [hc])) (by rw [dir_tail hd]; rfl) hl
  | enter _ _ _ hs _ _ ih => exact ih (fun c hc => hcs c (by simp [hc])) hs hl
  | @missing k cur c hd hc hc' _ _ => exact ⟨c, cur, rfl, hd, hcs c (by simp), hc, hc'⟩
  | @stop k cur c hd hc hc' _ _ => exact ⟨c, cur, rfl, hd, hcs c (by simp), hc, hc'⟩
  | jump _ _ _ _ _ _ _ ih =>
      refine ih (fun c hc => ?_) (isSome_linkStart hcur) hl
      obtain hc | hc := List.mem_append.mp hc
      · exact isName_of_mem_relElements hc
      · exact hcs c (by simp [hc])

/-- What a path leads to without its trailing separator. -/
theorem walks_names {t : FileTree} {p : PathStr} {l : Loc} (h : t.resolve .stat p = .ok l) :
    Walks t .stat maxLinks [] (names p) l := by
  unfold resolve at h
  split_ifs at h
  have hw := walk_ok_iff.mp h
  unfold relElements at hw
  split_ifs at hw
  · obtain ⟨d, hd⟩ := hw.split (by simp)
    obtain ⟨k', -, hk⟩ := hd.walk_append
    have hdot : Walks t .stat k' d [dot] l :=
      walk_ok_iff.mp (by rw [← hk .stat [dot] (by simp), walk_ok_iff.mpr hw])
    obtain rfl := hdot.of_dot
    exact hd
  · rwa [List.append_nil] at hw

/-- What `resolve` finds nothing at is a free name of a directory. -/
theorem resolve_free_spec {p : PathStr} {l : Loc} (h : t.resolve m p = .ok l)
    (hl : t.node l = none) : ∃ n d, l = n :: d ∧ t.node d = some .dir ∧ Proper n := by
  unfold resolve at h
  split_ifs at h
  exact (walk_ok_iff.mp h).free_spec (fun c hc => isName_of_mem_relElements hc)
    (by rw [t.root_dir]; rfl) hl

/-- A walk that succeeds also succeeds with more links left. -/
theorem Walks.more_links {k k' : ℕ} {cur l : Loc} {cs : List PathStr} (h : Walks t m k cur cs l)
    (hk : k ≤ k') : Walks t m k' cur cs l := by
  induction h generalizing k' with
  | nil => exact .nil _ _
  | dot hd _ ih => exact .dot hd (ih hk)
  | dotDot hd _ ih => exact .dotDot hd (ih hk)
  | enter hd hc hc' hs hl _ ih => exact .enter hd hc hc' hs hl (ih hk)
  | missing hd hc hc' hn hm => exact .missing hd hc hc' hn hm
  | stop hd hc hc' hl hf => exact .stop hd hc hc' hl hf
  | @jump k cur l c target cs hd hc hc' hn hf ht _ ih =>
      obtain ⟨k'', rfl⟩ := Nat.exists_eq_add_of_lt (Nat.lt_of_succ_le hk)
      exact .jump hd hc hc' hn hf ht (ih (by omega))

/-- Directories and links stay what they are, and files stay files. -/
structure Persists (t t' : FileTree) : Prop where
  dir : ∀ x, t.node x = some .dir → t'.node x = some .dir
  link : ∀ x target, t.node x = some (.link target) → t'.node x = some (.link target)
  file : ∀ x data, t.node x = some (.file data) → ∃ data', t'.node x = some (.file data')

theorem persists_of_keeps {t' : FileTree} (h : ∀ x, (t.node x).isSome → t'.node x = t.node x) :
    Persists t t' := by
  refine ⟨fun x hx => ?_, fun x target hx => ?_, fun x data hx => ⟨data, ?_⟩⟩
  all_goals rw [h x (by rw [hx]; rfl), hx]

theorem Persists.refl (t : FileTree) : Persists t t := persists_of_keeps fun _ _ => rfl

theorem Persists.trans {t' t'' : FileTree} (h : Persists t t') (h' : Persists t' t'') :
    Persists t t'' := by
  refine ⟨fun x hx => h'.dir x (h.dir x hx),
    fun x target hx => h'.link x target (h.link x target hx), fun x data hx => ?_⟩
  obtain ⟨data', hdata⟩ := h.file x data hx
  exact h'.file x data' hdata

theorem Persists.isSome {t' : FileTree} (h : Persists t t') {x : Loc} (hx : (t.node x).isSome) :
    (t'.node x).isSome := by
  obtain ⟨nd, hnd⟩ := Option.isSome_iff_exists.mp hx
  cases nd with
  | dir => rw [h.dir x hnd]; rfl
  | link target => rw [h.link x target hnd]; rfl
  | file data =>
      obtain ⟨data', hdata⟩ := h.file x data hnd
      rw [hdata]
      rfl

theorem Persists.isLink {t' : FileTree} (h : Persists t t') {x : Loc} (hx : (t.node x).isSome) :
    t'.isLink x = t.isLink x := by
  obtain ⟨nd, hnd⟩ := Option.isSome_iff_exists.mp hx
  cases nd with
  | dir => simp [FileTree.isLink, hnd, h.dir x hnd]
  | link target => simp [FileTree.isLink, hnd, h.link x target hnd]
  | file data =>
      obtain ⟨data', hdata⟩ := h.file x data hnd
      simp [FileTree.isLink, hnd, hdata]

theorem Persists.isDir {t' : FileTree} (h : Persists t t') {x : Loc} (hx : (t.node x).isSome) :
    t'.isDir x = t.isDir x := by
  obtain ⟨nd, hnd⟩ := Option.isSome_iff_exists.mp hx
  cases nd with
  | dir => simp [FileTree.isDir, hnd, h.dir x hnd]
  | link target => simp [FileTree.isDir, hnd, h.link x target hnd]
  | file data =>
      obtain ⟨data', hdata⟩ := h.file x data hnd
      simp [FileTree.isDir, hnd, hdata]

/-- Successful walks survive every change in which things stay what they are. -/
theorem Walks.persists {t' : FileTree} {k : ℕ} {cur l : Loc} {cs : List PathStr}
    (h : Walks t m k cur cs l) (hm : m.mayMiss = false) (ht : Persists t t') :
    Walks t' m k cur cs l := by
  induction h with
  | nil => exact .nil _ _
  | dot hd _ ih => exact .dot (ht.dir _ hd) ih
  | dotDot hd _ ih => exact .dotDot (ht.dir _ hd) ih
  | enter hd hc hc' hs hl _ ih =>
      exact .enter (ht.dir _ hd) hc hc' (ht.isSome hs) (by rw [ht.isLink hs, hl]) ih
  | missing _ _ _ _ hmiss => rw [hm] at hmiss; cases hmiss
  | @stop k cur c hd hc hc' hl hf =>
      obtain ⟨target, hn⟩ := isLink_iff.mp hl
      exact .stop (ht.dir _ hd) hc hc' (isLink_iff.mpr ⟨target, ht.link _ _ hn⟩) hf
  | jump hd hc hc' hn hf hne _ ih => exact .jump (ht.dir _ hd) hc hc' (ht.link _ _ hn) hf hne ih

theorem resolve_persists {t' : FileTree} {p : PathStr} {l : Loc} (h : t.resolve m p = .ok l)
    (hm : m.mayMiss = false) (ht : Persists t t') : t'.resolve m p = .ok l := by
  unfold resolve at h ⊢
  split_ifs at h ⊢
  exact walk_ok_iff.mpr ((walk_ok_iff.mp h).persists hm ht)

/-- Successful walks survive every change that keeps what exists. -/
theorem Walks.mono {t' : FileTree} {k : ℕ} {cur l : Loc} {cs : List PathStr}
    (h : Walks t m k cur cs l) (hm : m.mayMiss = false)
    (ht : ∀ x, (t.node x).isSome → t'.node x = t.node x) : Walks t' m k cur cs l :=
  h.persists hm (persists_of_keeps ht)

/-- A walk that ends at something that exists has not missed it. -/
theorem Walks.found {k : ℕ} {cur l : Loc} {cs : List PathStr} (h : Walks t m k cur cs l)
    (hs : (t.node l).isSome) : Walks t ⟨m.follow, false⟩ k cur cs l := by
  induction h with
  | nil => exact .nil _ _
  | dot hd _ ih => exact .dot hd (ih hs)
  | dotDot hd _ ih => exact .dotDot hd (ih hs)
  | enter hd hc hc' hs' hl _ ih => exact .enter hd hc hc' hs' hl (ih hs)
  | missing _ _ _ hn _ => rw [hn] at hs; cases hs
  | stop hd hc hc' hl hf => exact .stop hd hc hc' hl hf
  | jump hd hc hc' hn hf hne _ ih => exact .jump hd hc hc' hn hf hne (ih hs)

theorem resolve_found {p : PathStr} {l : Loc} (h : t.resolve m p = .ok l)
    (hs : (t.node l).isSome) : t.resolve ⟨m.follow, false⟩ p = .ok l := by
  unfold resolve at h ⊢
  split_ifs at h ⊢
  exact walk_ok_iff.mpr ((walk_ok_iff.mp h).found hs)

theorem resolve_isSome {p : PathStr} {l : Loc} (h : t.resolve m p = .ok l)
    (hm : m.mayMiss = false) : (t.node l).isSome := by
  unfold resolve at h
  split_ifs at h
  exact (walk_ok_iff.mp h).isSome hm (by rw [t.root_dir]; rfl)

/-! ### Physical paths -/

/-- What stands above an existing location is a directory. -/
theorem dir_of_inside {l l' : Loc} (h : inside l l') (hne : l' ≠ l) (hs : (t.node l').isSome) :
    t.node l = some .dir := by
  induction l' with
  | nil => exact absurd (List.suffix_nil.mp h).symm hne
  | cons n l' ih =>
      have hd := t.parent_dir n l' hs
      obtain rfl | h := List.suffix_cons_iff.mp h
      · exact absurd rfl hne
      · by_cases he : l' = l
        · rw [← he, hd]
        · exact ih h he (by rw [hd]; rfl)

theorem proper_of_inside {l l' : Loc} {x : PathStr} (h : inside (x :: l) l')
    (hs : (t.node l').isSome) : Proper x := by
  by_cases he : l' = x :: l
  · exact t.proper x l (by rw [← he]; exact hs)
  · exact t.proper x l (by rw [dir_of_inside h he hs]; rfl)

/-- Walking down the names of an existing location that is not a link reaches it directly. -/
theorem walkAux_descend {jump : Loc → List PathStr → Except WalkError Loc} {d : List PathStr}
    {cur : Loc} {cs : List PathStr} (hs : (t.node (d.reverse ++ cur)).isSome)
    (hl : t.isLink (d.reverse ++ cur) = false) :
    walkAux t m jump cur (d ++ cs) = walkAux t m jump (d.reverse ++ cur) cs := by
  induction d generalizing cur with
  | nil => rfl
  | cons c d ih =>
      have e : (c :: d).reverse ++ cur = d.reverse ++ (c :: cur) := by simp
      rw [e] at hs hl ⊢
      have hin : inside (c :: cur) (d.reverse ++ (c :: cur)) := List.suffix_append _ _
      have hp : Proper c := proper_of_inside hin hs
      have hsome : (t.node (c :: cur)).isSome ∧ t.isLink (c :: cur) = false := by
        by_cases he : d.reverse ++ (c :: cur) = c :: cur
        · rw [he] at hs hl
          exact ⟨hs, hl⟩
        · have hdir := dir_of_inside hin he hs
          exact ⟨by rw [hdir]; rfl, by simp [isLink, hdir]⟩
      rw [List.cons_append, walkAux_enter (t.parent_dir c cur hsome.1) hp.2.1 hp.2.2 hsome.1
        hsome.2, ih hs hl]

theorem walk_descend {k : ℕ} {d : List PathStr} {cur : Loc} {cs : List PathStr}
    (hs : (t.node (d.reverse ++ cur)).isSome) (hl : t.isLink (d.reverse ++ cur) = false) :
    t.walk m k cur (d ++ cs) = t.walk m k (d.reverse ++ cur) cs := by
  obtain ⟨jump, hj⟩ := walk_eq (t := t) (m := m) k
  rw [hj, hj, walkAux_descend hs hl]

theorem proper_of_mem {l : Loc} {c : PathStr} (hs : (t.node l).isSome) (hc : c ∈ l) :
    Proper c := by
  obtain ⟨as, bs, rfl⟩ := List.append_of_mem hc
  exact proper_of_inside (l := bs) (List.suffix_append as (c :: bs)) hs

theorem isName_of_mem_reverse {l : Loc} {c : PathStr} (hs : (t.node l).isSome)
    (hc : c ∈ l.reverse) : IsName c :=
  (proper_of_mem hs (List.mem_reverse.mp hc)).1

/-- Without following it, the last component of the path of an existing entry is found. -/
theorem walk_lstat_entry {t : FileTree} {k : ℕ} {l : Loc} {r : List PathStr}
    (hs : (t.node (r.reverse ++ l)).isSome) : t.walk .lstat k l r = .ok (r.reverse ++ l) := by
  obtain ⟨jump, hj⟩ := walk_eq (t := t) (m := .lstat) k
  by_cases hlink : t.isLink (r.reverse ++ l) = true
  · obtain rfl | ⟨r, n, rfl⟩ := List.eq_nil_or_concat' r
    · rw [hj, walkAux_nil]
      rfl
    · rw [List.reverse_concat, List.cons_append] at hs hlink ⊢
      have hdir := t.parent_dir n (r.reverse ++ l) hs
      have hn := t.proper n (r.reverse ++ l) hs
      obtain ⟨target, htarget⟩ := isLink_iff.mp hlink
      rw [walk_descend (by rw [hdir]; rfl) (by simp [isLink, hdir]), hj,
        walkAux_proper hdir hn.2.1 hn.2.2, htarget]
      rfl
  · have h : t.walk .lstat k l (r ++ []) = t.walk .lstat k (r.reverse ++ l) [] :=
      walk_descend hs (by simpa using hlink)
    rw [List.append_nil] at h
    rw [h, hj, walkAux_nil]

/-- A path that named a free place leads there once something stands there, which is not a link
if links are followed. -/
theorem Walks.created {t' : FileTree} {k : ℕ} {cur l : Loc} {cs : List PathStr} {nd : Node}
    (h : Walks t m k cur cs l) (hl : t.node l = none)
    (ht : ∀ x, t'.node x = if x = l then some nd else t.node x)
    (hnd : m.follow = true → ∀ target, nd ≠ .link target) :
    Walks t' ⟨m.follow, false⟩ k cur cs l := by
  have hkeep : ∀ x, (t.node x).isSome → t'.node x = t.node x := by
    intro x hx
    rw [ht, if_neg]
    rintro rfl
    rw [hl] at hx
    cases hx
  have hdir : ∀ x, t.node x = some .dir → t'.node x = some .dir := fun x hx => by
    rw [hkeep x (by rw [hx]; rfl), hx]
  induction h with
  | nil => exact .nil _ _
  | dot hd _ ih => exact .dot (hdir _ hd) (ih hl ht)
  | dotDot hd _ ih => exact .dotDot (hdir _ hd) (ih hl ht)
  | enter hd hc hc' hs hlink _ ih =>
      refine .enter (hdir _ hd) hc hc' (by rw [hkeep _ hs]; exact hs) ?_ (ih hl ht)
      simpa only [isLink, hkeep _ hs] using hlink
  | @missing k cur c hd hc hc' _ _ =>
      have hself : t'.node (c :: cur) = some nd := by rw [ht, if_pos rfl]
      cases hlink : t'.isLink (c :: cur) with
      | false => exact .enter (hdir _ hd) hc hc' (by rw [hself]; rfl) hlink (.nil _ _)
      | true =>
          refine .stop (hdir _ hd) hc hc' hlink (Bool.eq_false_iff.mpr fun hfollow => ?_)
          obtain ⟨target, hn⟩ := isLink_iff.mp hlink
          exact hnd hfollow target (Option.some.inj (hself.symm.trans hn))
  | stop _ _ _ hlink _ =>
      obtain ⟨target, hn⟩ := isLink_iff.mp hlink
      rw [hl] at hn
      cases hn
  | jump hd hc hc' hn hf hne _ ih =>
      refine .jump (hdir _ hd) hc hc' ?_ hf hne (ih hl ht)
      rw [hkeep _ (by rw [hn]; rfl), hn]

theorem resolve_created {t' : FileTree} {p : PathStr} {l : Loc} {nd : Node}
    (h : t.resolve m p = .ok l) (hl : t.node l = none)
    (ht : ∀ x, t'.node x = if x = l then some nd else t.node x)
    (hnd : m.follow = true → ∀ target, nd ≠ .link target) :
    t'.resolve ⟨m.follow, false⟩ p = .ok l := by
  unfold resolve at h ⊢
  split_ifs at h ⊢
  exact walk_ok_iff.mpr ((walk_ok_iff.mp h).created hl ht hnd)

/-- The place that a component leads to where there are no links. -/
def descend (cur : Loc) (c : PathStr) : Loc :=
  if c = PathStr.dot then cur else if c = PathStr.dotDot then cur.tail else c :: cur

/-- Without links a walk goes where the components say. -/
theorem Walks.linkless {k : ℕ} {cur l : Loc} {cs : List PathStr}
    (h : Walks t m k cur cs l) (hlink : ∀ x, t.isLink x = false) : l = cs.foldl descend cur := by
  induction h with
  | nil => rfl
  | dot _ _ ih => exact ih
  | dotDot _ _ ih => exact ih
  | enter _ hc hc' _ _ _ ih => rw [List.foldl_cons, descend, if_neg hc, if_neg hc', ih]
  | missing _ hc hc' _ _ => rw [List.foldl_cons, descend, if_neg hc, if_neg hc', List.foldl_nil]
  | stop _ _ _ h _ => rw [hlink] at h; cases h
  | @jump k cur l c target cs _ _ _ hn _ _ _ _ =>
      have h := hlink (c :: cur)
      simp [isLink, hn] at h

/-- What cannot be resolved cannot be gone on from. -/
theorem walkAux_append_error {cs' : List PathStr}
    (hjump : ∀ cur cs e, jump cur cs = .error e → jump cur (cs ++ cs') = .error e)
    {cs : List PathStr} {cur : Loc} {e : WalkError} (h : walkAux t .stat jump cur cs = .error e) :
    walkAux t .stat jump cur (cs ++ cs') = .error e := by
  induction cs generalizing cur with
  | nil =>
      rw [walkAux_nil] at h
      cases h
  | cons c cs ih =>
      rw [List.cons_append]
      by_cases hd : t.node cur = some .dir
      swap
      · rw [walkAux_notDir hd] at h ⊢
        exact h
      by_cases hdot : c = dot
      · subst hdot
        rw [walkAux_dot hd] at h ⊢
        exact ih h
      by_cases hdd : c = dotDot
      · subst hdd
        rw [walkAux_dotDot hd] at h ⊢
        exact ih h
      rw [walkAux_proper hd hdot hdd] at h ⊢
      cases hn : t.node (c :: cur) with
      | none =>
          rw [hn] at h
          exact h
      | some nd =>
          rw [hn] at h
          cases nd with
          | dir => exact ih h
          | file data => exact ih h
          | link target =>
              simp only [Mode.stat, Bool.not_true, Bool.and_false, Bool.false_eq_true,
                if_false] at h ⊢
              split_ifs at h ⊢
              · exact h
              · rw [← List.append_assoc]
                exact hjump _ _ _ h

theorem walk_append_error {k : ℕ} {cur : Loc} {cs : List PathStr} {e : WalkError}
    (h : t.walk .stat k cur cs = .error e) (cs' : List PathStr) :
    t.walk .stat k cur (cs ++ cs') = .error e := by
  induction k generalizing cur cs e with
  | zero =>
      refine walkAux_append_error ?_ h
      exact fun _ _ _ hloop => hloop
  | succ k ih => exact walkAux_append_error (fun _ _ _ h => ih h) h

/-- Where no link is followed, it does not matter whether links are. -/
theorem walkAux_of_followed_nil {m' : Mode} {jump' : Loc → List PathStr → Except WalkError Loc}
    {texts : Loc → List PathStr → List PathStr} (hmiss : m.mayMiss = m'.mayMiss)
    {cs : List PathStr} {cur : Loc} (h : followedAux t texts cur cs = []) :
    walkAux t m jump cur cs = walkAux t m' jump' cur cs := by
  induction cs generalizing cur with
  | nil => rw [walkAux_nil, walkAux_nil]
  | cons c cs ih =>
      rw [followedAux] at h
      rw [walkAux, walkAux, hmiss]
      by_cases hd : t.node cur = some .dir
      swap
      · rw [if_pos hd, if_pos hd]
      rw [if_neg (not_not.mpr hd)] at h ⊢
      rw [if_neg (not_not.mpr hd)]
      by_cases hdot : c = dot
      · rw [if_pos hdot] at h
        rw [if_pos hdot, if_pos hdot]
        exact ih h
      rw [if_neg hdot] at h
      rw [if_neg hdot, if_neg hdot]
      by_cases hdd : c = dotDot
      · rw [if_pos hdd] at h
        rw [if_pos hdd, if_pos hdd]
        exact ih h
      rw [if_neg hdd] at h
      rw [if_neg hdd, if_neg hdd]
      cases hn : t.node (c :: cur) with
      | none => rfl
      | some nd =>
          rw [hn] at h
          cases nd with
          | link target => cases h
          | dir => exact ih h
          | file data => exact ih h

theorem walk_of_followed_nil {m' : Mode} (hmiss : m.mayMiss = m'.mayMiss) {k : ℕ} {cur : Loc}
    {cs : List PathStr} (h : t.followed k cur cs = []) :
    t.walk m k cur cs = t.walk m' k cur cs := by
  cases k <;> exact walkAux_of_followed_nil hmiss h

/-- A trailing `"."` follows no link. -/
theorem followedAux_concat_dot {texts : Loc → List PathStr → List PathStr} {cs : List PathStr}
    {cur : Loc} : followedAux t texts cur (cs ++ [dot]) = [] ↔ followedAux t texts cur cs = [] := by
  induction cs generalizing cur with
  | nil => simp [followedAux]
  | cons c cs ih =>
      rw [List.cons_append, followedAux, followedAux]
      split_ifs
      · exact Iff.rfl
      · exact ih
      · exact ih
      · cases t.node (c :: cur) with
        | none => exact Iff.rfl
        | some nd =>
            cases nd with
            | link target => simp
            | dir => exact ih
            | file data => exact ih

theorem followed_concat_dot {k : ℕ} {cur : Loc} {cs : List PathStr} :
    t.followed k cur (cs ++ [dot]) = [] ↔ t.followed k cur cs = [] := by
  cases k <;> exact followedAux_concat_dot

/-- A path whose last component is not a link leads to the same place if links are followed. -/
theorem resolve_follow_of_not_link {mayMiss : Bool} {p : PathStr} {l : Loc}
    (h : t.resolve ⟨false, mayMiss⟩ p = .ok l) (hl : t.isLink l = false) :
    t.resolve ⟨true, mayMiss⟩ p = .ok l := by
  unfold resolve at h ⊢
  split_ifs at h ⊢
  exact walk_ok_iff.mpr ((walk_ok_iff.mp h).follow_of_not_link hl)

/-- The absolute path of components below an existing location that is not a link. -/
theorem resolve_absPath_append {l : Loc} {cs : List PathStr} (hs : (t.node l).isSome)
    (hl : t.isLink l = false) (hcs : ∀ c ∈ cs, IsName c) :
    t.resolve m (absPath (l.reverse ++ cs)) = t.walk m maxLinks l cs := by
  have hnames : ∀ c ∈ l.reverse ++ cs, IsName c := by
    intro c hc
    obtain hc | hc := List.mem_append.mp hc
    · exact isName_of_mem_reverse hs hc
    · exact hcs c hc
  have hwalk : t.walk m maxLinks [] (l.reverse ++ cs) = t.walk m maxLinks l cs := by
    rw [walk_descend (by simpa using hs) (by simpa using hl)]
    simp
  unfold resolve
  rw [if_neg (absPath_ne_nil _), ← hwalk]
  by_cases hnil : l.reverse ++ cs = []
  · rw [hnil]
    rfl
  · rw [absPath, if_neg hnil, relElements_joinAbs hnames]

/-- The path of an existing location that is not a link resolves to the location. -/
theorem resolve_absPath {l : Loc} (hs : (t.node l).isSome) (hl : t.isLink l = false) :
    t.resolve m (absPath l.reverse) = .ok l := by
  have hnil : ∀ c ∈ ([] : List PathStr), IsName c := List.forall_mem_nil _
  have h := resolve_absPath_append (m := m) hs hl hnil
  obtain ⟨jump, hj⟩ := walk_eq (t := t) (m := m) maxLinks
  rw [List.append_nil, hj, walkAux_nil] at h
  exact h

/-- A path below an existing location that is not a link is looked up from there. -/
theorem resolve_append {l : Loc} {s : PathStr} (hs : (t.node l).isSome)
    (hl : t.isLink l = false) :
    t.resolve m (append (absPath l.reverse) ('/' :: s)) =
      t.walk m maxLinks l (lookups ('/' :: s)) := by
  have happ : ∀ p : PathStr, append p ('/' :: s) = p ++ '/' :: s := fun p => by simp [append]
  rw [happ, resolve, if_neg (by simp)]
  by_cases hnil : l = []
  · subst hnil
    -- at the root the leading separators collapse, and only a bare root loses its `"."`
    rw [show absPath (List.reverse []) = ['/'] from rfl, List.singleton_append,
      relElements_sep (by simp)]
    by_cases hn : names ('/' :: s) = []
    · obtain ⟨jump, hj⟩ := walk_eq (t := t) (m := m) maxLinks
      have hdot : walkAux t m jump [] [dot] = walkAux t m jump [] [] := walkAux_dot t.root_dir
      rw [relElements, lookups, hn, hj, hj]
      cases endsInSep ('/' :: s) <;> simp [hdot]
    · rw [relElements, lookups, List.isEmpty_eq_false_iff.mpr hn]
      simp
  · have hne : l.reverse ≠ [] := by simpa using hnil
    rw [absPath, if_neg hne,
      relElements_joinAbs_append s (fun c hc => isName_of_mem_reverse hs hc) hne,
      walk_descend (by simpa using hs) (by simpa using hl)]
    simp

/-- A path without `".."` that leads through no link leads to the location it spells. -/
theorem walks_eq_spelled {t : FileTree} {k : ℕ} {cur l : Loc} {cs : List PathStr}
    (h : Walks t .stat k cur cs l) (hdd : dotDot ∉ cs)
    (hlink : ∀ q, inside q ((cs.filter (· ≠ dot)).reverse ++ cur) → t.isLink q = false) :
    l = (cs.filter (· ≠ dot)).reverse ++ cur := by
  induction h with
  | nil => rfl
  | dot _ _ ih =>
      simp only [List.mem_cons, not_or] at hdd
      simpa using ih hdd.2 (by simpa using hlink)
  | dotDot _ _ ih => simp at hdd
  | @enter k cur l c cs hd hc hc' hs hl hw ih =>
      have hfil : (List.filter (· ≠ PathStr.dot) (c :: cs)).reverse ++ cur =
          (List.filter (· ≠ PathStr.dot) cs).reverse ++ (c :: cur) := by
        simp [hc]
      simp only [List.mem_cons, not_or] at hdd
      rw [hfil] at hlink ⊢
      exact ih hdd.2 hlink
  | missing _ _ _ _ hmiss => cases hmiss
  | stop _ _ _ _ hfalse => cases hfalse
  | @jump k cur l c target cs hd hc hc' hn hf ht _ ih =>
      have hfil : (List.filter (· ≠ PathStr.dot) (c :: cs)).reverse ++ cur =
          (List.filter (· ≠ PathStr.dot) cs).reverse ++ (c :: cur) := by
        simp [hc]
      rw [hfil] at hlink
      have := hlink (c :: cur) (List.suffix_append _ _)
      simp [isLink, hn] at this
/-! ### Changing a tree -/

/-- The tree with nothing but the root. -/
def empty : FileTree where
  node l := if l = [] then some .dir else none
  root_dir := if_pos rfl
  parent_dir n l h := by simp at h
  proper n l h := by simp at h

/-- A new entry in an existing directory. -/
def add (t : FileTree) (n : PathStr) (d : Loc) (nd : Node) (hd : t.node d = some .dir)
    (hn : Proper n) (hnew : t.node (n :: d) = none) : FileTree where
  node l := if l = n :: d then some nd else t.node l
  root_dir := by rw [if_neg (by simp)]; exact t.root_dir
  parent_dir n' l h := by
    have hkeep : ∀ l', t.node l' = some .dir → (if l' = n :: d then some nd else t.node l') =
        some .dir := by
      intro l' hl'
      rw [if_neg]
      · exact hl'
      · rintro rfl
        rw [hnew] at hl'
        cases hl'
    split_ifs at h with he
    · obtain ⟨-, rfl⟩ := List.cons.inj he
      exact hkeep _ hd
    · exact hkeep _ (t.parent_dir n' l h)
  proper n' l h := by
    split_ifs at h with he
    · obtain ⟨rfl, -⟩ := List.cons.inj he
      exact hn
    · exact t.proper n' l h

@[simp] theorem isSome_node_empty (l : Loc) : (empty.node l).isSome ↔ l = [] := by
  simp [empty]

@[simp] theorem isSome_node_add (t : FileTree) {n : PathStr} {d : Loc} {nd : Node}
    {hd : t.node d = some .dir} {hn : Proper n} {hnew : t.node (n :: d) = none} (l : Loc) :
    ((t.add n d nd hd hn hnew).node l).isSome ↔ l = n :: d ∨ (t.node l).isSome := by
  simp only [add]
  split_ifs with h <;> simp [h]

/-- New contents for an existing file. -/
def overwrite (t : FileTree) (l : Loc) (data data' : List UInt8)
    (h : t.node l = some (.file data)) : FileTree where
  node l' := if l' = l then some (.file data') else t.node l'
  root_dir := by
    rw [if_neg]
    · exact t.root_dir
    · rintro rfl
      rw [t.root_dir] at h
      cases h
  parent_dir n l' hs := by
    have hsome : (t.node (n :: l')).isSome := by
      split_ifs at hs with he
      · rw [he, h]; rfl
      · exact hs
    have hdir := t.parent_dir n l' hsome
    rw [if_neg]
    · exact hdir
    · rintro rfl
      rw [hdir] at h
      cases h
  proper n l' hs := by
    split_ifs at hs with he
    · exact t.proper n l' (by rw [he, h]; rfl)
    · exact t.proper n l' hs

/-- The tree without `l` and everything below it; the root stays. -/
def removeTree (t : FileTree) (l : Loc) : FileTree where
  node l' := if l' ≠ [] ∧ inside l l' then none else t.node l'
  root_dir := by simpa using t.root_dir
  parent_dir n l' h := by
    split_ifs at h with hin
    · cases h
    · have hout : ¬ inside l l' := fun hl => hin ⟨by simp, inside_cons n hl⟩
      rw [if_neg (fun hc => hout hc.2)]
      exact t.parent_dir n l' h
  proper n l' h := by
    split_ifs at h
    · cases h
    · exact t.proper n l' h

/-- What is left of a tree was there before. -/
theorem persists_removeTree (t : FileTree) (l : Loc) : Persists (t.removeTree l) t := by
  refine persists_of_keeps fun x hx => ?_
  simp only [removeTree] at hx ⊢
  split_ifs at hx ⊢
  · cases hx
  · rfl

/-- A path to something that has been removed leads nowhere. -/
theorem removeTree_resolve {t : FileTree} {m : Mode} {p : PathStr} {l : Loc}
    (h : t.resolve m p = .ok l) (hm : m.mayMiss = false) (hl : l ≠ []) (x : Loc) :
    (t.removeTree l).resolve m p ≠ .ok x := by
  intro hx
  have hold := resolve_persists hx hm (persists_removeTree t l)
  obtain rfl : x = l := Except.ok.inj (hold.symm.trans h)
  have hsome := resolve_isSome hx hm
  simp [removeTree, hl, inside_refl] at hsome

end FileTree
end Norns.Lib
