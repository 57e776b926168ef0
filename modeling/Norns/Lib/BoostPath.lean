import Mathlib.Data.List.DropRight
import Mathlib.Tactic

/-! # Path strings

POSIX path strings with the operations of Boost.Filesystem version 3: iteration over the
elements of a path, `operator/=`, `parent_path` and the element-wise comparison `==`.

* A path is its string (`PathStr`); the separator is `'/'`.
* `names s` are the maximal runs of other characters.
* `elements s` is what a `path::iterator` delivers: a root element, the names, and a `"."` for a
  trailing separator.  A path that starts with exactly two separators has a *network* root: its
  first element is `"//name"` (or `"//"` if nothing follows).
* `append p q` is `p /= q`: the strings are concatenated, with a separator in between unless `q`
  brings one or `p` already ends in one.
* `absolute p` is `absolute(p)` where the working directory is the root: a path that is a network
  root and nothing else gets a separator, unless its name has only one character.
* `absPath cs` writes a list of components as an absolute path, `"/"` for the empty list. -/

namespace Norns.Lib

/-- A path string. -/
abbrev PathStr := List Char

namespace PathStr

/-- A non-empty string without separators. -/
def IsName (n : PathStr) : Prop := n ≠ [] ∧ '/' ∉ n

instance (n : PathStr) : Decidable (IsName n) := inferInstanceAs (Decidable (_ ∧ _))

/-- `"."` -/
def dot : PathStr := ['.']
/-- `".."` -/
def dotDot : PathStr := ['.', '.']

/-- A name that is neither `"."` nor `".."`. -/
def Proper (n : PathStr) : Prop := IsName n ∧ n ≠ dot ∧ n ≠ dotDot

instance (n : PathStr) : Decidable (Proper n) := inferInstanceAs (Decidable (_ ∧ _))

theorem dots_of_not_proper {n : PathStr} (hn : IsName n) (h : ¬ Proper n) :
    n = dot ∨ n = dotDot := by
  by_contra hdots
  obtain ⟨hdot, hdotDot⟩ := not_or.mp hdots
  exact h ⟨hn, hdot, hdotDot⟩

/-- Where only the first component may be improper, an improper last one is the first. -/
theorem eq_nil_of_not_proper {cs : List PathStr} {n : PathStr}
    (htail : ∀ c ∈ (cs ++ [n]).tail, Proper c) (h : ¬ Proper n) : cs = [] := by
  by_contra hne
  obtain ⟨c, cs, rfl⟩ := List.exists_cons_of_ne_nil hne
  exact h (htail n (by simp))

/-- The names of a string, `acc` being the part of the current name already read. -/
def namesAux : PathStr → PathStr → List PathStr
  | acc, [] => if acc = [] then [] else [acc]
  | acc, c :: s =>
      if c = '/' then (if acc = [] then namesAux [] s else acc :: namesAux [] s)
      else namesAux (acc ++ [c]) s

/-- The maximal runs of non-separators. -/
def names (s : PathStr) : List PathStr := namesAux [] s

/-- The path ends in a separator. -/
def endsInSep (s : PathStr) : Bool := s.getLast? == some '/'

/-- The names, and `"."` for a trailing separator. -/
def relElements (s : PathStr) : List PathStr :=
  names s ++ if endsInSep s && !(names s).isEmpty then [dot] else []

/-- The elements a `path::iterator` delivers. -/
def elements : PathStr → List PathStr
  | [] => []
  | ['/', '/'] => [['/', '/']]
  | '/' :: '/' :: c :: s =>
      if c = '/' then ['/'] :: relElements s
      else
        let rest := (c :: s).dropWhile (· ≠ '/')
        ('/' :: '/' :: (c :: s).takeWhile (· ≠ '/')) ::
          (if rest = [] then [] else ['/'] :: relElements rest)
  | '/' :: s => ['/'] :: relElements s
  | s => relElements s

/-- `p == q` for paths compares the elements. -/
def equiv (p q : PathStr) : Bool := elements p = elements q

/-- `p /= q`. -/
def append (p q : PathStr) : PathStr :=
  match q with
  | [] => p
  | c :: q' =>
      if c = '/' then p ++ c :: q'
      else if p = [] || endsInSep p then p ++ c :: q'
      else p ++ '/' :: c :: q'

theorem append_ne_nil {p : PathStr} (hp : p ≠ []) (q : PathStr) : append p q ≠ [] := by
  unfold append
  split
  · exact hp
  · split_ifs <;> simp

/-- The path without its last element: the last name, or the final separator. -/
def dropFilename (s : PathStr) : PathStr :=
  if endsInSep s then s.dropLast else s.rdropWhile (· ≠ '/')

/-- `parent_path()`, for paths without a network root. -/
def parentPath (s : PathStr) : PathStr :=
  let head := dropFilename s
  let r := head.rdropWhile (· = '/')
  if r = [] && head ≠ [] && !endsInSep s then ['/'] else r

/-- `has_root_name()`: the path starts with exactly two separators. -/
def hasRootName : PathStr → Bool
  | ['/', '/'] => true
  | '/' :: '/' :: c :: _ => c ≠ '/'
  | _ => false

/-- `is_absolute()`.  A network root counts only with a root directory after it; one of three
characters passes for a root directory itself. -/
def isAbsolute : PathStr → Bool
  | ['/', '/'] => false
  | '/' :: '/' :: c :: d :: s => c = '/' || (d :: s).contains '/'
  | '/' :: _ => true
  | _ => false

/-- `absolute(p)`, the working directory being the root. -/
def absolute (p : PathStr) : PathStr :=
  if isAbsolute p then p else if hasRootName p then append p ['/'] else append ['/'] p

/-- The components without `"."`, each `".."` having taken one away. -/
def dropDots (cs : List PathStr) : List PathStr :=
  cs.foldl (fun acc c => if c = dot then acc else if c = dotDot then acc.dropLast else acc ++ [c]) []

/-- The elements of a path put together again, after `dropDots` below its root. -/
def undotted (p : PathStr) : PathStr :=
  let isRoot : PathStr → Bool := fun c => c.head? = some '/'
  ((elements p).takeWhile isRoot ++ dropDots ((elements p).dropWhile isRoot)).foldl append []

/-- What is left of two lists after their common prefix. -/
def stripCommon : List PathStr → List PathStr → List PathStr × List PathStr
  | x :: xs, y :: ys => if x = y then stripCommon xs ys else (x :: xs, y :: ys)
  | xs, ys => (xs, ys)

/-- The components of `lexically_relative` for what is left of the two paths. -/
def relativeComps (rest : List PathStr × List PathStr) : List PathStr :=
  if rest.1 = [] ∧ rest.2 = [] then [dot] else rest.2.map (fun _ => dotDot) ++ rest.1

/-- `p.lexically_relative(base)`, for a base without `"."` and `".."`. -/
def lexicallyRelative (p base : PathStr) : PathStr :=
  let rest := stripCommon (elements p) (elements base)
  if rest = (elements p, elements base) then [] else (relativeComps rest).foldl append []

/-- The components the operating system looks up in a path: the names, and `"."` for a trailing
separator. -/
def lookups (s : PathStr) : List PathStr := names s ++ if endsInSep s then [dot] else []

/-- Components written one after the other, each with a leading separator. -/
def joinAbs (cs : List PathStr) : PathStr := cs.flatMap (fun c => '/' :: c)

/-- The absolute path of a list of components. -/
def absPath (cs : List PathStr) : PathStr := if cs = [] then ['/'] else joinAbs cs

/-! ### Names -/

theorem namesAux_append_sep (acc s t : PathStr) :
    namesAux acc (s ++ '/' :: t) = namesAux acc s ++ names t := by
  induction s generalizing acc with
  | nil =>
      simp only [List.nil_append, namesAux, if_true]
      split_ifs <;> simp [names]
  | cons c s ih =>
      simp only [List.cons_append, namesAux, ih]
      split_ifs <;> simp

theorem names_append_sep (s t : PathStr) : names (s ++ '/' :: t) = names s ++ names t :=
  namesAux_append_sep [] s t

@[simp] theorem names_nil : names [] = [] := rfl

theorem names_sep (t : PathStr) : names ('/' :: t) = names t := by
  simpa using names_append_sep [] t

/-- The names of a path and of what is appended to it. -/
theorem names_append (p q : PathStr) : names (append p q) = names p ++ names q := by
  cases q with
  | nil => simp [append]
  | cons c q =>
      by_cases hc : c = '/'
      · subst hc
        simp [append, names_append_sep, names_sep]
      · by_cases hp : p = []
        · subst hp
          simp [append, hc]
        · cases hsep : endsInSep p with
          | false => simp [append, hc, hp, hsep, names_append_sep]
          | true =>
              -- the separator that `p` ends in is the one in between
              obtain ⟨p, rfl⟩ := List.getLast?_eq_some_iff.mp (beq_iff_eq.mp hsep)
              have hp' := names_append_sep p []
              rw [names_nil, List.append_nil] at hp'
              simp [append, hc, hsep, hp', names_append_sep]

theorem namesAux_of_noSep {acc n : PathStr} (h : '/' ∉ n) :
    namesAux acc n = if acc ++ n = [] then [] else [acc ++ n] := by
  induction n generalizing acc with
  | nil => simp [namesAux]
  | cons c n ih =>
      simp only [List.mem_cons, not_or] at h
      rw [namesAux, if_neg (Ne.symm h.1), ih h.2]
      simp

theorem names_of_isName {n : PathStr} (h : IsName n) : names n = [n] := by
  rw [names, namesAux_of_noSep h.2]
  simp [h.1]

theorem isName_of_mem_namesAux {acc s n : PathStr} (hacc : '/' ∉ acc) (h : n ∈ namesAux acc s) :
    IsName n := by
  induction s generalizing acc with
  | nil =>
      simp only [namesAux] at h
      split_ifs at h with ha
      · cases h
      · rw [List.mem_singleton] at h
        subst h
        exact ⟨ha, hacc⟩
  | cons c s ih =>
      simp only [namesAux] at h
      split_ifs at h with hc ha
      · exact ih (by simp) h
      · obtain rfl | h := List.mem_cons.mp h
        · exact ⟨ha, hacc⟩
        · exact ih (by simp) h
      · refine ih ?_ h
        simp only [List.mem_append, List.mem_singleton, not_or]
        exact ⟨hacc, Ne.symm hc⟩

theorem isName_of_mem_names {s n : PathStr} (h : n ∈ names s) : IsName n :=
  isName_of_mem_namesAux (by simp) h

theorem isName_of_mem_relElements {s n : PathStr} (h : n ∈ relElements s) : IsName n := by
  unfold relElements at h
  obtain h | h := List.mem_append.mp h
  · exact isName_of_mem_names h
  · split_ifs at h
    · rw [List.mem_singleton] at h
      subst h
      decide
    · cases h

/-! ### Absolute paths of components -/

theorem joinAbs_append (as bs : List PathStr) : joinAbs (as ++ bs) = joinAbs as ++ joinAbs bs := by
  simp [joinAbs]

theorem joinAbs_concat (cs : List PathStr) (c : PathStr) :
    joinAbs (cs ++ [c]) = joinAbs cs ++ '/' :: c := by
  simp [joinAbs]

theorem joinAbs_eq_nil {cs : List PathStr} : joinAbs cs = [] ↔ cs = [] := by
  cases cs <;> simp [joinAbs]

theorem names_joinAbs {cs : List PathStr} (h : ∀ c ∈ cs, IsName c) : names (joinAbs cs) = cs := by
  induction cs using List.reverseRecOn with
  | nil => rfl
  | append_singleton cs c ih =>
      rw [joinAbs_concat, names_append_sep, ih (fun d hd => h d (by simp [hd])),
        names_of_isName (h c (by simp))]

theorem endsInSep_append_name {s n : PathStr} (h : IsName n) : endsInSep (s ++ n) = false := by
  obtain ⟨init, c, rfl⟩ := (List.eq_nil_or_concat n).resolve_left h.1
  have hc : c ≠ '/' := by
    rintro rfl
    exact h.2 (by simp)
  simp [endsInSep, hc]

theorem endsInSep_append {p n : PathStr} (hn : IsName n) : endsInSep (append p n) = false := by
  obtain ⟨c, n', rfl⟩ := List.exists_cons_of_ne_nil hn.1
  have hc : c ≠ '/' := by
    rintro rfl
    exact hn.2 (by simp)
  simp only [append, if_neg hc]
  split_ifs
  · exact endsInSep_append_name hn
  · rw [List.append_cons]
    exact endsInSep_append_name hn

theorem nil_append {n : PathStr} (hn : IsName n) : append [] n = n := by
  obtain ⟨a, n', rfl⟩ := List.exists_cons_of_ne_nil hn.1
  simp [append]

/-- A name can be appended before or after. -/
theorem append_append_name {q n : PathStr} (p : PathStr) (hq : q ≠ []) (hn : IsName n) :
    append p (append q n) = append (append p q) n := by
  obtain ⟨c, q', rfl⟩ := List.exists_cons_of_ne_nil hq
  obtain ⟨a, n', rfl⟩ := List.exists_cons_of_ne_nil hn.1
  have ha : a ≠ '/' := by
    rintro rfl
    exact hn.2 (by simp)
  have hlast : ∀ s : PathStr, endsInSep (s ++ c :: q') = endsInSep (c :: q') := by
    intro s
    simp [endsInSep, List.getLast?_append, List.getLast?_cons]
  have hlast' : endsInSep (p ++ '/' :: c :: q') = endsInSep (c :: q') := by
    have h := hlast (p ++ ['/'])
    rwa [List.append_assoc] at h
  by_cases hc : c = '/' <;> by_cases hsep : endsInSep (c :: q') = true <;>
    by_cases hp : (decide (p = []) || endsInSep p) = true <;> simp_all [append]

theorem endsInSep_joinAbs {cs : List PathStr} (h : ∀ c ∈ cs, IsName c) :
    endsInSep (joinAbs cs) = false := by
  obtain rfl | ⟨cs, c, rfl⟩ := List.eq_nil_or_concat' cs
  · rfl
  · rw [joinAbs_concat, List.append_cons]
    exact endsInSep_append_name (h c (by simp))

theorem relElements_joinAbs {cs : List PathStr} (h : ∀ c ∈ cs, IsName c) :
    relElements (joinAbs cs) = cs := by
  simp [relElements, names_joinAbs h, endsInSep_joinAbs h]

theorem absPath_ne_nil (cs : List PathStr) : absPath cs ≠ [] := by
  unfold absPath
  split_ifs with h
  · simp
  · exact joinAbs_eq_nil.not.mpr h

theorem relElements_sep {s : PathStr} (h : s ≠ []) : relElements ('/' :: s) = relElements s := by
  unfold relElements endsInSep
  rw [names_sep, List.getLast?_cons, List.getLast?_eq_some_getLast h]
  simp

theorem elements_sep {c : Char} {s : PathStr} (hc : c ≠ '/') :
    elements ('/' :: c :: s) = ['/'] :: relElements (c :: s) := by
  unfold elements
  split
  all_goals simp_all

theorem elements_of_isName {n : PathStr} (h : IsName n) : elements n = [n] := by
  obtain ⟨c, n', rfl⟩ := List.exists_cons_of_ne_nil h.1
  have hc : c ≠ '/' := by
    rintro rfl
    exact h.2 (by simp)
  have hrel : relElements (c :: n') = [c :: n'] := by
    have hsep := endsInSep_append_name (s := []) h
    rw [List.nil_append] at hsep
    simp [relElements, names_of_isName h, hsep]
  unfold elements
  split
  all_goals simp_all

/-- Below the root directory the iterator delivers the names and the trailing separator. -/
theorem elements_joinAbs_append {n : PathStr} (cs : List PathStr) (s : PathStr) (hn : IsName n) :
    elements (joinAbs (n :: cs) ++ s) = ['/'] :: relElements (joinAbs (n :: cs) ++ s) := by
  obtain ⟨c, n', rfl⟩ := List.exists_cons_of_ne_nil hn.1
  have hc : c ≠ '/' := by
    rintro rfl
    exact hn.2 (by simp)
  have he : joinAbs ((c :: n') :: cs) ++ s = '/' :: c :: (n' ++ joinAbs cs ++ s) := by
    simp [joinAbs]
  rw [he, elements_sep hc, relElements_sep (by simp)]

/-- The iterator delivers the root directory and the components. -/
theorem elements_absPath {cs : List PathStr} (h : ∀ c ∈ cs, IsName c) :
    elements (absPath cs) = ['/'] :: cs := by
  cases cs with
  | nil => decide
  | cons n cs =>
      have he := elements_joinAbs_append cs [] (h n (by simp))
      rw [List.append_nil, relElements_joinAbs h] at he
      exact he

theorem names_joinAbs_append {cs : List PathStr} (s : PathStr) (h : ∀ c ∈ cs, IsName c) :
    names (joinAbs cs ++ '/' :: s) = cs ++ names s := by
  rw [names_append_sep, names_joinAbs h]

/-- Components followed by a path that starts with a separator. -/
theorem relElements_joinAbs_append {cs : List PathStr} (s : PathStr) (h : ∀ c ∈ cs, IsName c)
    (hcs : cs ≠ []) : relElements (joinAbs cs ++ '/' :: s) = cs ++ lookups ('/' :: s) := by
  have hsep : endsInSep (joinAbs cs ++ '/' :: s) = endsInSep ('/' :: s) := by
    simp [endsInSep, List.getLast?_append]
  have hne : (cs ++ names s).isEmpty = false := by simp [hcs]
  unfold relElements lookups
  rw [names_joinAbs_append s h, hsep, hne, names_sep]
  simp

theorem append_joinAbs_name {cs : List PathStr} {n : PathStr} (h : ∀ c ∈ cs, IsName c)
    (hn : IsName n) : append (absPath cs) n = absPath (cs ++ [n]) := by
  obtain ⟨c, n, rfl⟩ := List.exists_cons_of_ne_nil hn.1
  have hc : c ≠ '/' := by
    rintro rfl
    exact hn.2 (by simp)
  by_cases hnil : cs = []
  · subst hnil
    simp [append, absPath, hc, endsInSep, joinAbs]
  · have hp : absPath cs = joinAbs cs := if_neg hnil
    have hne : joinAbs cs ≠ [] := joinAbs_eq_nil.not.mpr hnil
    have hp' : absPath (cs ++ [c :: n]) = joinAbs (cs ++ [c :: n]) := if_neg (by simp)
    rw [hp, hp', joinAbs_concat]
    simp [append, hc, hne, endsInSep_joinAbs h]

theorem dropFilename_append_name {s n : PathStr} (hn : IsName n)
    (hs : s = [] ∨ endsInSep s = true) : dropFilename (s ++ n) = s := by
  unfold dropFilename
  rw [endsInSep_append_name hn, if_neg (by simp)]
  have hall : ∀ x ∈ n, decide (x ≠ '/') = true := by
    intro x hx
    simp only [decide_eq_true_eq]
    rintro rfl
    exact hn.2 hx
  clear hn
  induction n using List.reverseRecOn with
  | nil =>
      rw [List.append_nil]
      obtain rfl | hs := hs
      · rfl
      · rw [List.rdropWhile_eq_self_iff]
        intro hl
        simp only [endsInSep, beq_iff_eq, List.getLast?_eq_some_getLast hl, Option.some.injEq] at hs
        simp [hs]
  | append_singleton n c ih =>
      have hc := hall c (by simp)
      rw [← List.append_assoc, List.rdropWhile_concat, if_pos hc]
      exact ih (fun x hx => hall x (by simp [hx]))

theorem rdropWhile_joinAbs {cs : List PathStr} (h : ∀ c ∈ cs, IsName c) :
    (joinAbs cs).rdropWhile (· = '/') = joinAbs cs := by
  rw [List.rdropWhile_eq_self_iff]
  intro hl
  have hsep := endsInSep_joinAbs h
  simp only [endsInSep, List.getLast?_eq_some_getLast hl] at hsep
  simpa using hsep

/-- `parent_path()` takes the last component away. -/
theorem parentPath_absPath_concat {cs : List PathStr} {c : PathStr} (h : ∀ d ∈ cs, IsName d)
    (hc : IsName c) : parentPath (absPath (cs ++ [c])) = absPath cs := by
  have he : absPath (cs ++ [c]) = (joinAbs cs ++ ['/']) ++ c := by
    simp [absPath, joinAbs]
  have hdrop : dropFilename ((joinAbs cs ++ ['/']) ++ c) = joinAbs cs ++ ['/'] :=
    dropFilename_append_name hc (Or.inr (by simp [endsInSep]))
  have hstrip : (joinAbs cs ++ ['/']).rdropWhile (· = '/') = joinAbs cs := by
    rw [List.rdropWhile_concat, if_pos (by simp), rdropWhile_joinAbs h]
  simp only [parentPath, he, endsInSep_append_name hc, hdrop, hstrip]
  by_cases hnil : cs = [] <;> simp [absPath, hnil, joinAbs_eq_nil]

/-- `parent_path()` of a path that ends in a separator only drops the separator. -/
theorem parentPath_joinAbs_sep {cs : List PathStr} (h : ∀ c ∈ cs, IsName c) :
    parentPath (joinAbs cs ++ ['/']) = joinAbs cs := by
  have hsep : endsInSep (joinAbs cs ++ ['/']) = true := by simp [endsInSep]
  simp [parentPath, dropFilename, hsep, rdropWhile_joinAbs h]

/-! ### Relative paths -/

theorem stripCommon_append (ys xs : List PathStr) : stripCommon (ys ++ xs) ys = (xs, []) := by
  induction ys with
  | nil => cases xs <;> rfl
  | cons y ys ih => simp [stripCommon, ih]

theorem prefix_of_stripCommon_snd {xs ys : List PathStr} (h : (stripCommon xs ys).2 = []) :
    ys <+: xs := by
  induction xs generalizing ys with
  | nil =>
      cases ys with
      | nil => exact List.prefix_refl _
      | cons y ys => cases h
  | cons x xs ih =>
      cases ys with
      | nil => exact List.nil_prefix
      | cons y ys =>
          unfold stripCommon at h
          split_ifs at h with he
          subst he
          exact (List.prefix_cons_inj x).mpr (ih h)

theorem relativeComps_append {ys xs : List PathStr} :
    relativeComps (stripCommon (ys ++ xs) ys) = if xs = [] then [dot] else xs := by
  rw [stripCommon_append]
  simp [relativeComps]

/-- The relative path from a base that is not above the path goes up first. -/
theorem dotDot_mem_relativeComps {xs ys : List PathStr} (h : ¬ ys <+: xs) :
    dotDot ∈ relativeComps (stripCommon xs ys) := by
  have hne : (stripCommon xs ys).2 ≠ [] := fun hnil => h (prefix_of_stripCommon_snd hnil)
  obtain ⟨b, bs, hb⟩ := List.exists_cons_of_ne_nil hne
  simp [relativeComps, hb]

theorem mem_stripCommon {xs ys : List PathStr} {x : PathStr} (h : x ∈ (stripCommon xs ys).1) :
    x ∈ xs := by
  induction xs generalizing ys with
  | nil => cases ys <;> cases h
  | cons a xs ih =>
      cases ys with
      | nil => exact h
      | cons y ys =>
          unfold stripCommon at h
          split_ifs at h
          · exact List.mem_cons_of_mem _ (ih h)
          · exact h

theorem isName_of_mem_relativeComps {xs ys : List PathStr} (h : ∀ c ∈ xs, IsName c)
    {c : PathStr} (hc : c ∈ relativeComps (stripCommon xs ys)) : IsName c := by
  unfold relativeComps at hc
  split_ifs at hc
  · rw [List.mem_singleton] at hc
    subst hc
    decide
  · obtain hc | hc := List.mem_append.mp hc
    · obtain ⟨_, -, rfl⟩ := List.mem_map.mp hc
      decide
    · exact h c (mem_stripCommon hc)

theorem relativeComps_ne_nil (rest : List PathStr × List PathStr) : relativeComps rest ≠ [] := by
  unfold relativeComps
  split_ifs with h
  · simp
  · intro hnil
    simp only [List.append_eq_nil_iff, List.map_eq_nil_iff] at hnil
    exact h ⟨hnil.2, hnil.1⟩

/-- Names appended one after the other. -/
theorem sep_foldl_append {cs : List PathStr} (h : ∀ c ∈ cs, IsName c) (hcs : cs ≠ []) :
    '/' :: cs.foldl append [] = joinAbs cs := by
  induction cs using List.reverseRecOn with
  | nil => exact absurd rfl hcs
  | append_singleton cs n ih =>
      have hn := h n (by simp)
      obtain ⟨c, n', rfl⟩ := List.exists_cons_of_ne_nil hn.1
      have hc : c ≠ '/' := by
        rintro rfl
        exact hn.2 (by simp)
      rw [List.foldl_concat, joinAbs_concat]
      by_cases hnil : cs = []
      · subst hnil
        simp [append, hc, joinAbs]
      · have hcs' : ∀ d ∈ cs, IsName d := fun d hd => h d (by simp [hd])
        have ih := ih hcs' hnil
        have hfold : cs.foldl append [] ≠ [] := by
          intro h0
          rw [h0] at ih
          have hsep := endsInSep_joinAbs hcs'
          rw [← ih] at hsep
          exact absurd hsep (by decide)
        have hsep : endsInSep (cs.foldl append []) = false := by
          have h1 := endsInSep_joinAbs hcs'
          rw [← ih] at h1
          simpa [endsInSep, List.getLast?_cons, List.getLast?_eq_some_getLast hfold] using h1
        rw [← ih]
        simp [append, hc, hfold, hsep]

theorem append_root_foldl {cs : List PathStr} (h : ∀ c ∈ cs, IsName c) (hcs : cs ≠ []) :
    append ['/'] (cs.foldl append []) = joinAbs cs := by
  rw [← sep_foldl_append h hcs]
  cases hf : cs.foldl append [] with
  | nil =>
      have hs := sep_foldl_append h hcs
      rw [hf] at hs
      have hsep := endsInSep_joinAbs h
      rw [← hs] at hsep
      exact absurd hsep (by decide)
  | cons c s =>
      have hc : c ≠ '/' := by
        rintro rfl
        have hs := sep_foldl_append h hcs
        obtain ⟨n, cs', rfl⟩ := List.exists_cons_of_ne_nil hcs
        obtain ⟨c', n', rfl⟩ := List.exists_cons_of_ne_nil (h n (by simp)).1
        rw [hf] at hs
        simp only [joinAbs, List.flatMap_cons, List.cons_append, List.cons.injEq, true_and] at hs
        exact (h ('/' :: n') (by simp [← hs.1])).2 (by simp)
      simp [append, hc, endsInSep]

/-- The relative path between two absolute paths. -/
theorem lexicallyRelative_absPath {xs ys : List PathStr} (hx : ∀ c ∈ xs, IsName c)
    (hy : ∀ c ∈ ys, IsName c) : lexicallyRelative (absPath xs) (absPath ys) =
      (relativeComps (stripCommon xs ys)).foldl append [] := by
  have hstrip : stripCommon (['/'] :: xs) (['/'] :: ys) = stripCommon xs ys := by
    rw [stripCommon, if_pos rfl]
  have hlen : ∀ as bs : List PathStr, (stripCommon as bs).1.length ≤ as.length := by
    intro as
    induction as with
    | nil => intro bs; cases bs <;> exact le_refl _
    | cons a as ih =>
        intro bs
        cases bs with
        | nil => exact le_refl _
        | cons b bs =>
            rw [stripCommon]
            split_ifs
            · exact (ih bs).trans (Nat.le_succ _)
            · exact le_refl _
  unfold lexicallyRelative
  simp only [elements_absPath hx, elements_absPath hy, hstrip]
  rw [if_neg]
  intro heq
  have h1 := hlen xs ys
  rw [heq] at h1
  simp at h1

/-! ### Network roots -/

section network

variable {n s : PathStr} {cs : List PathStr}

theorem exists_cons_of_isName (h : IsName n) : ∃ c n', n = c :: n' ∧ c ≠ '/' := by
  obtain ⟨c, n', rfl⟩ := List.exists_cons_of_ne_nil h.1
  refine ⟨c, n', rfl, ?_⟩
  rintro rfl
  exact h.2 (by simp)

theorem hasRootName_network (h : IsName n) (s : PathStr) :
    hasRootName ('/' :: '/' :: (n ++ s)) = true := by
  obtain ⟨c, n', rfl, hc⟩ := exists_cons_of_isName h
  simp [hasRootName, hc]

theorem hasRootName_joinAbs (h : IsName n) (s : PathStr) :
    hasRootName (joinAbs (n :: cs) ++ s) = false := by
  obtain ⟨c, n', rfl, hc⟩ := exists_cons_of_isName h
  simp [hasRootName, joinAbs, hc]

/-- Nothing is relative to a path with a root name but one with the same. -/
theorem lexicallyRelative_root_of_hasRootName {p : PathStr} (h : hasRootName p = true) :
    lexicallyRelative p ['/'] = [] := by
  have hel : ∃ e es, elements p = e :: es ∧ e ≠ ['/'] := by
    unfold hasRootName at h
    split at h
    · exact ⟨_, _, rfl, by decide⟩
    · exact ⟨_, _, if_neg (by simpa using h), by simp⟩
    · cases h
  obtain ⟨e, es, he, hne⟩ := hel
  have hroot : elements ['/'] = [['/']] := by decide
  rw [lexicallyRelative, he, hroot, stripCommon, if_neg hne]
  exact if_pos rfl

/-- A path without a root name that starts with a separator is absolute. -/
theorem isAbsolute_of_plain (h : hasRootName ('/' :: s) = false) :
    isAbsolute ('/' :: s) = true := by
  match s with
  | [] => rfl
  | [c] =>
      by_cases hc : c = '/'
      · subst hc
        cases h
      · simp [isAbsolute, hc]
  | [c, d] => by_cases hc : c = '/' <;> simp_all [hasRootName, isAbsolute]
  | c :: d :: e :: s => by_cases hc : c = '/' <;> simp_all [hasRootName, isAbsolute]

theorem absolute_of_isAbsolute {p : PathStr} (h : isAbsolute p = true) : absolute p = p :=
  if_pos h

/-- A network root gets a separator, if it is longer than one character. -/
theorem absolute_network (h : IsName n) : absolute ('/' :: '/' :: (n ++ joinAbs cs)) =
    '/' :: '/' :: (n ++ joinAbs cs) ++
      if isAbsolute ('/' :: '/' :: (n ++ joinAbs cs)) then [] else ['/'] := by
  rw [absolute, if_pos (hasRootName_network h _)]
  split_ifs <;> simp [append]

/-- With a component after it, a network root is absolute. -/
theorem isAbsolute_network_cons (h : IsName n) (c : PathStr) (cs : List PathStr) :
    isAbsolute ('/' :: '/' :: (n ++ joinAbs (c :: cs))) = true := by
  obtain ⟨a, n', rfl, ha⟩ := exists_cons_of_isName h
  cases n' with
  | nil => cases c <;> simp [joinAbs, isAbsolute]
  | cons b n' => simp [joinAbs, isAbsolute]

/-- A network root ends where the next separator is. -/
theorem elements_network (hn : IsName n) (hs : s = [] ∨ s.head? = some '/') :
    elements ('/' :: '/' :: (n ++ s)) =
      ('/' :: '/' :: n) :: if s = [] then [] else ['/'] :: relElements s := by
  obtain ⟨c, n', rfl, hc⟩ := exists_cons_of_isName hn
  have hall : ∀ x ∈ c :: n', decide (x ≠ '/') = true := by
    intro x hx
    simp only [decide_eq_true_eq]
    rintro rfl
    exact hn.2 hx
  have hstop : s.takeWhile (fun x => decide (x ≠ '/')) = [] ∧
      s.dropWhile (fun x => decide (x ≠ '/')) = s := by
    obtain rfl | hs := hs
    · exact ⟨rfl, rfl⟩
    · obtain ⟨s, rfl⟩ : ∃ t, s = '/' :: t := by
        cases s with
        | nil => cases hs
        | cons d s => exact ⟨s, by rw [Option.some.inj hs]⟩
      simp
  have htake : (c :: (n' ++ s)).takeWhile (fun x => decide (x ≠ '/')) = c :: n' := by
    rw [← List.cons_append, List.takeWhile_append_of_pos hall, hstop.1, List.append_nil]
  have hdrop : (c :: (n' ++ s)).dropWhile (fun x => decide (x ≠ '/')) = s := by
    rw [← List.cons_append, List.dropWhile_append_of_pos hall, hstop.2]
  rw [List.cons_append, elements, if_neg hc, htake, hdrop]

/-- Names appended to a path that ends in a separator. -/
theorem foldl_append_sep (p : PathStr) (hcs : ∀ c ∈ cs, IsName c) (hne : cs ≠ []) :
    cs.foldl append (p ++ ['/']) = p ++ joinAbs cs := by
  induction cs using List.reverseRecOn with
  | nil => exact absurd rfl hne
  | append_singleton cs c ih =>
      obtain ⟨a, c, rfl, ha⟩ := exists_cons_of_isName (hcs c (by simp))
      rw [List.foldl_concat, joinAbs_concat]
      by_cases hnil : cs = []
      · subst hnil
        simp [append, ha, endsInSep, joinAbs]
      · have hcs' : ∀ d ∈ cs, IsName d := fun d hd => hcs d (by simp [hd])
        have hjoin := joinAbs_eq_nil.not.mpr hnil
        have hsep : endsInSep (p ++ joinAbs cs) = false := by
          have h := endsInSep_joinAbs hcs'
          unfold endsInSep at h ⊢
          rwa [List.getLast?_append_of_ne_nil p hjoin]
        rw [ih hcs' hnil]
        simp [append, ha, hjoin, hsep]

theorem dropDots_of_proper (hcs : ∀ c ∈ cs, Proper c) : dropDots cs = cs := by
  unfold dropDots
  induction cs using List.reverseRecOn with
  | nil => rfl
  | append_singleton cs c ih =>
      have hc := hcs c (by simp)
      rw [List.foldl_concat, ih fun d hd => hcs d (by simp [hd]), if_neg hc.2.1, if_neg hc.2.2]

/-- A network root stays as it is. -/
theorem undotted_network (hn : IsName n) (hcs : ∀ c ∈ cs, Proper c) :
    undotted ('/' :: '/' :: (n ++ joinAbs cs)) = '/' :: '/' :: (n ++ joinAbs cs) := by
  cases cs with
  | nil =>
      have he := elements_network (s := []) hn (.inl rfl)
      rw [List.append_nil, if_pos rfl] at he
      simp [undotted, joinAbs, he, dropDots, append]
  | cons c cs =>
      have hnames : ∀ d ∈ c :: cs, IsName d := fun d hd => (hcs d hd).1
      obtain ⟨a, c', rfl, ha⟩ := exists_cons_of_isName (hnames c (by simp))
      have he := elements_network (s := joinAbs ((a :: c') :: cs)) hn (.inr rfl)
      rw [if_neg (by simp [joinAbs]), relElements_joinAbs hnames] at he
      have hfold := foldl_append_sep ('/' :: '/' :: n) hnames (by simp)
      rw [undotted, he]
      simp only [List.takeWhile_cons, List.dropWhile_cons, List.head?_cons, Option.some.injEq,
        decide_true, if_true, ha, decide_false, Bool.false_eq_true, if_false,
        dropDots_of_proper hcs, List.foldl_append, List.foldl_cons, List.foldl_nil]
      simpa [append] using hfold

/-- So does one with a separator after it. -/
theorem undotted_network_sep (hn : IsName n) :
    undotted ('/' :: '/' :: (n ++ ['/'])) = '/' :: '/' :: (n ++ ['/']) := by
  have he := elements_network (s := ['/']) hn (.inr rfl)
  rw [if_neg (by simp), show relElements ['/'] = [] from rfl] at he
  simp [undotted, he, dropDots, append]

end network

end PathStr
end Norns.Lib
