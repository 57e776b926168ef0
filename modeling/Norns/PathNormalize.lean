import Norns.Lib.FileTree

/-! # Lexical normalisation of data paths

`utils::lexical_normalize` rewrites a client-supplied data path without looking at the file
system.  It runs over the elements of the path and keeps the path read so far in `tmp`:

* `".."` removes the last element of `tmp` and falls back to `"/"`,
* `"."` and `"/"` are skipped,
* an element `"//name"` (two leading separators) contributes `name`,
* everything else is appended.

The main result (`lexicalNormalize_eq`) reads the loop as a stack of components
(`normComps`).  The stack only ever holds names, but the first one is pushed unchecked when it
comes out of a `"//name"` element: `"//.."` normalises to `"/.."`.  The path `"//"`
is the only other exception; it normalises to `"///"`, which names the root.

`normalizes_iff` says for which paths the result is the one of the stack that ignores `"."` and
pops at `".."` wherever they stand (`clampedNormalize`). -/

namespace Norns

open Lib Lib.PathStr

/-- The body of the loop of `lexical_normalize`. -/
def normalizeStep (tmp elem : PathStr) : PathStr :=
  if elem = dotDot then
    let t := parentPath tmp
    if t = [] then ['/'] else t
  else if elem ≠ dot ∧ elem ≠ ['/'] then
    if 2 < elem.length ∧ elem.take 2 = ['/', '/'] then append tmp (elem.drop 2)
    else append tmp elem
  else tmp

/-- `utils::lexical_normalize`. -/
def lexicalNormalize (pathname : PathStr) (asDirectory : Bool) : PathStr :=
  if pathname = [] then []
  else if equiv pathname ['/'] then ['/']
  else
    let tmp := (elements pathname).foldl normalizeStep ['/']
    if !equiv tmp ['/'] && asDirectory then append tmp ['/'] else tmp

/-! ### The loop as a stack of components -/

/-- What one element does to the stack of components. -/
def stackStep (st : List PathStr) (elem : PathStr) : List PathStr :=
  if elem = dotDot then st.dropLast
  else if elem = dot ∨ elem = ['/'] ∨ elem = ['/', '/'] then st
  else if elem.take 2 = ['/', '/'] then st ++ [elem.drop 2]
  else st ++ [elem]

/-- The components of the normalised path. -/
def normComps (pathname : PathStr) : List PathStr := (elements pathname).foldl stackStep []

/-- The elements that occur in paths other than `"//"`. -/
inductive IsElement : PathStr → Prop
  | root : IsElement ['/']
  | name {n : PathStr} : IsName n → IsElement n
  | network {n : PathStr} : IsName n → IsElement ('/' :: '/' :: n)

/-- The first element may carry a network root; the others are names and the root directory. -/
theorem elements_cases {p : PathStr} (hp : p ≠ ['/', '/']) :
    elements p = [] ∨ ∃ e es, elements p = e :: es ∧ IsElement e ∧
      ∀ x ∈ es, x = ['/'] ∨ IsName x := by
  have hrel : ∀ s, relElements s = [] ∨ ∃ e es, relElements s = e :: es ∧ IsElement e ∧
      ∀ x ∈ es, x = ['/'] ∨ IsName x := by
    intro s
    cases hs : relElements s with
    | nil => exact Or.inl rfl
    | cons e es =>
        have hmem : ∀ x ∈ e :: es, IsName x := fun x hx => isName_of_mem_relElements (hs ▸ hx)
        exact Or.inr ⟨e, es, rfl, .name (hmem e (by simp)),
          fun x hx => Or.inr (hmem x (by simp [hx]))⟩
  unfold elements
  split
  · exact Or.inl rfl
  · exact absurd rfl hp
  · next c s _ =>
      split_ifs with hc
      · exact Or.inr ⟨_, _, rfl, .root, fun x hx => Or.inr (isName_of_mem_relElements hx)⟩
      · refine Or.inr ⟨_, _, rfl, .network ⟨by simp [hc], fun hmem => ?_⟩, fun x hx => ?_⟩
        · simpa using List.mem_takeWhile_imp hmem
        · split_ifs at hx
          · cases hx
          · obtain rfl | hx := List.mem_cons.mp hx
            · exact Or.inl rfl
            · exact Or.inr (isName_of_mem_relElements hx)
  · exact Or.inr ⟨_, _, rfl, .root, fun x hx => Or.inr (isName_of_mem_relElements hx)⟩
  · exact hrel _

theorem isElement_of_mem_elements {p e : PathStr} (hp : p ≠ ['/', '/']) (h : e ∈ elements p) :
    IsElement e := by
  obtain hnil | ⟨e₀, es, hes, he₀, htail⟩ := elements_cases hp
  · rw [hnil] at h
    cases h
  · rw [hes] at h
    obtain rfl | h := List.mem_cons.mp h
    · exact he₀
    · obtain rfl | hn := htail e h
      · exact .root
      · exact .name hn

theorem not_network_of_isName {n : PathStr} (h : IsName n) : n.take 2 ≠ ['/', '/'] := by
  intro ht
  exact h.2 (List.mem_of_mem_take (i := 2) (by simp [ht]))

/-- What an element does to the stack: nothing, a pop, or the push of a name. -/
theorem stackStep_cases (st : List PathStr) {e : PathStr} (h : IsElement e) :
    (stackStep st e = st ∧ ∀ tmp, normalizeStep tmp e = tmp) ∨
    (e = dotDot ∧ stackStep st e = st.dropLast) ∨
    (∃ n, IsName n ∧ stackStep st e = st ++ [n] ∧
      (∀ tmp, normalizeStep tmp e = append tmp n) ∧ (Proper n ∨ e = '/' :: '/' :: n)) := by
  cases h with
  | root => exact Or.inl ⟨by simp [stackStep, dotDot], fun tmp => by simp [normalizeStep, dotDot]⟩
  | name hn =>
      by_cases hd : e = dot
      · subst hd
        exact Or.inl ⟨by simp [stackStep, dotDot, dot],
          fun tmp => by simp [normalizeStep, dotDot, dot]⟩
      · by_cases hdd : e = dotDot
        · exact Or.inr (Or.inl ⟨hdd, by simp [stackStep, hdd]⟩)
        · have hroot : e ≠ ['/'] ∧ e ≠ ['/', '/'] := by
            constructor <;> rintro rfl <;> exact hn.2 (by simp)
          have hnet := not_network_of_isName hn
          exact Or.inr (Or.inr ⟨e, hn, by simp [stackStep, hd, hdd, hroot, hnet],
            fun tmp => by simp [normalizeStep, hd, hdd, hroot, hnet], Or.inl ⟨hn, hd, hdd⟩⟩)
  | @network n hn =>
      have hlen : 0 < n.length := List.length_pos_iff.mpr hn.1
      exact Or.inr (Or.inr ⟨n, hn, by simp [stackStep, dotDot, dot, hn.1],
        fun tmp => by simp [normalizeStep, dotDot, dot, hlen], Or.inr rfl⟩)

/-- The stack only holds names. -/
theorem isName_stackStep {st : List PathStr} {e : PathStr} (h : IsElement e)
    (hst : ∀ c ∈ st, IsName c) : ∀ c ∈ stackStep st e, IsName c := by
  obtain ⟨hs, -⟩ | ⟨-, hs⟩ | ⟨n, hn, hs, -⟩ := stackStep_cases st h <;> rw [hs]
  · exact hst
  · exact fun c hc => hst c (List.dropLast_subset st hc)
  · intro c hc
    obtain hc | hc := List.mem_append.mp hc
    · exact hst c hc
    · rw [List.mem_singleton] at hc
      exact hc ▸ hn

/-- One element moves the path of the stack to the path of the next stack. -/
theorem normalizeStep_absPath {st : List PathStr} {e : PathStr} (h : IsElement e)
    (hst : ∀ c ∈ st, IsName c) : normalizeStep (absPath st) e = absPath (stackStep st e) := by
  obtain ⟨hs, hn⟩ | ⟨rfl, hs⟩ | ⟨n, hn, hs, ha, -⟩ := stackStep_cases st h <;> rw [hs]
  · exact hn _
  · obtain rfl | ⟨st, c, rfl⟩ := List.eq_nil_or_concat' st
    · decide
    · have hst' : ∀ d ∈ st, IsName d := fun d hd => hst d (by simp [hd])
      rw [List.dropLast_concat]
      simp [normalizeStep, parentPath_absPath_concat hst' (hst c (by simp)), absPath_ne_nil]
  · rw [ha, append_joinAbs_name hst hn]

theorem foldl_normalizeStep {es : List PathStr} (st : List PathStr) (hes : ∀ e ∈ es, IsElement e)
    (hst : ∀ c ∈ st, IsName c) :
    es.foldl normalizeStep (absPath st) = absPath (es.foldl stackStep st) ∧
      ∀ c ∈ es.foldl stackStep st, IsName c := by
  induction es generalizing st with
  | nil => exact ⟨rfl, hst⟩
  | cons e es ih =>
      have he := hes e (by simp)
      rw [List.foldl_cons, List.foldl_cons, normalizeStep_absPath he hst]
      exact ih _ (fun e' h' => hes e' (by simp [h'])) (isName_stackStep he hst)

@[simp] theorem normComps_networkRoot : normComps ['/', '/'] = [] := by decide

theorem isName_of_mem_normComps {p c : PathStr} (hc : c ∈ normComps p) : IsName c := by
  by_cases hp : p = ['/', '/']
  · subst hp
    simp at hc
  · exact (foldl_normalizeStep [] (fun _ he => isElement_of_mem_elements hp he)
      (List.forall_mem_nil _)).2 c hc

/-- Elements without a network root only push proper names. -/
theorem proper_tail_stackStep {st : List PathStr} {e : PathStr} (h : e = ['/'] ∨ IsName e)
    (hst : ∀ c ∈ st.tail, Proper c) : ∀ c ∈ (stackStep st e).tail, Proper c := by
  have he : IsElement e := h.elim (fun h => h ▸ .root) .name
  obtain ⟨hs, -⟩ | ⟨-, hs⟩ | ⟨n, -, hs, -, hn⟩ := stackStep_cases st he <;> rw [hs]
  · exact hst
  · intro c hc
    rw [List.tail_dropLast] at hc
    exact hst c (List.dropLast_subset _ hc)
  · intro c hc
    cases st with
    | nil => cases hc
    | cons d st =>
        obtain hc | hc := List.mem_append.mp hc
        · exact hst c hc
        · rw [List.mem_singleton] at hc
          subst hc
          obtain hn | rfl := hn
          · exact hn
          · obtain h | h := h
            · cases h
            · exact absurd (List.mem_cons_self) h.2

/-- Only the first component of a normalised path can be `"."` or `".."`. -/
theorem proper_of_mem_tail_normComps {p c : PathStr} (hc : c ∈ (normComps p).tail) :
    Proper c := by
  have hfold : ∀ (es st : List PathStr), (∀ x ∈ es, x = ['/'] ∨ IsName x) →
      (∀ c ∈ st.tail, Proper c) → ∀ c ∈ (es.foldl stackStep st).tail, Proper c := by
    intro es
    induction es with
    | nil => exact fun st _ hst => hst
    | cons e es ih =>
        intro st hes hst
        exact ih _ (fun x hx => hes x (by simp [hx])) (proper_tail_stackStep (hes e (by simp)) hst)
  by_cases hp : p = ['/', '/']
  · subst hp
    simp at hc
  · unfold normComps at hc
    obtain hnil | ⟨e, es, hes, he, htail⟩ := elements_cases hp
    · rw [hnil] at hc
      cases hc
    · rw [hes, List.foldl_cons] at hc
      refine hfold es _ htail ?_ c hc
      obtain ⟨hs, -⟩ | ⟨-, hs⟩ | ⟨n, -, hs, -⟩ := stackStep_cases [] he <;> rw [hs] <;> simp

/-- **The normalised path is the path of the component stack.** -/
theorem lexicalNormalize_eq {p : PathStr} (hnil : p ≠ []) (hp : p ≠ ['/', '/']) :
    lexicalNormalize p false = absPath (normComps p) := by
  have hfold : (elements p).foldl normalizeStep ['/'] = absPath (normComps p) :=
    (foldl_normalizeStep [] (fun _ he => isElement_of_mem_elements hp he) (by simp)).1
  unfold lexicalNormalize
  rw [if_neg hnil]
  split_ifs with heq
  · unfold equiv at heq
    rw [decide_eq_true_eq] at heq
    unfold normComps
    rw [heq]
    decide
  · simpa using hfold

/-- A path in normal form is its own normal form. -/
theorem normComps_absPath {cs : List PathStr} (h : ∀ c ∈ cs, Proper c) :
    normComps (absPath cs) = cs := by
  have hpush : ∀ c, Proper c → ∀ st, stackStep st c = st ++ [c] := by
    intro c hc st
    have hroot : c ≠ ['/'] ∧ c ≠ ['/', '/'] := by
      constructor <;> rintro rfl <;> exact hc.1.2 (by simp)
    simp [stackStep, hc.2.1, hc.2.2, hroot, not_network_of_isName hc.1]
  have hfold : ∀ st, cs.foldl stackStep st = st ++ cs := by
    induction cs with
    | nil => simp
    | cons c cs ih =>
        intro st
        rw [List.foldl_cons, hpush c (h c (by simp)), ih (fun d hd => h d (by simp [hd]))]
        simp
  unfold normComps
  rw [elements_absPath (fun c hc => (h c hc).1), List.foldl_cons, hfold]
  rfl

theorem lexicalNormalize_absPath {cs : List PathStr} (h : ∀ c ∈ cs, Proper c) :
    lexicalNormalize (absPath cs) false = absPath cs := by
  have hnet : absPath cs ≠ ['/', '/'] := by
    intro heq
    have hel := elements_absPath (fun c hc => (h c hc).1)
    rw [heq] at hel
    exact absurd (List.cons.inj hel).1 (by decide)
  rw [lexicalNormalize_eq (absPath_ne_nil _) hnet, normComps_absPath h]

example : lexicalNormalize "/a/./b/../../../c".toList false = "/c".toList := by decide
example : lexicalNormalize "//../a".toList false = "/../a".toList := by decide

theorem lexicalNormalize_networkRoot (asDirectory : Bool) :
    lexicalNormalize ['/', '/'] asDirectory = ['/', '/', '/'] := by
  cases asDirectory <;> decide

/-- As a directory, the normalised path ends in a separator. -/
theorem lexicalNormalize_asDirectory {p : PathStr} (hnil : p ≠ []) (hp : p ≠ ['/', '/']) :
    lexicalNormalize p true =
      if normComps p = [] then ['/'] else absPath (normComps p) ++ ['/'] := by
  have hfold : (elements p).foldl normalizeStep ['/'] = absPath (normComps p) :=
    (foldl_normalizeStep [] (fun _ he => isElement_of_mem_elements hp he) (by simp)).1
  have hroot : equiv (absPath (normComps p)) ['/'] = decide (normComps p = []) := by
    unfold equiv
    rw [elements_absPath (fun c hc => isName_of_mem_normComps hc)]
    simp [elements, relElements, endsInSep]
  unfold lexicalNormalize
  rw [if_neg hnil]
  split_ifs with heq hc hc
  · rfl
  · unfold equiv at heq
    rw [decide_eq_true_eq] at heq
    exact absurd (by unfold normComps; rw [heq]; decide) hc
  · simp only [hfold, hc]
    rfl
  · simp only [hfold, hroot, hc]
    rfl

theorem lexicalNormalize_eq_nil {p : PathStr} {asDirectory : Bool} :
    lexicalNormalize p asDirectory = [] ↔ p = [] := by
  constructor
  · intro h
    by_contra hnil
    by_cases hp : p = ['/', '/']
    · subst hp
      rw [lexicalNormalize_networkRoot] at h
      cases h
    · cases asDirectory with
      | false =>
          rw [lexicalNormalize_eq hnil hp] at h
          exact absPath_ne_nil _ h
      | true =>
          rw [lexicalNormalize_asDirectory hnil hp] at h
          split_ifs at h
          simp at h
  · rintro rfl
    rfl

/-! ### The clamped stack

What the function is for: the components between the separators are folded over a stack, and
`".."` of an empty stack is nothing. -/

/-- What a component does to the stack. -/
def clampStep (st : List PathStr) (c : PathStr) : List PathStr :=
  if c = [] ∨ c = dot then st else if c = dotDot then st.dropLast else st ++ [c]

/-- The components that are left. -/
def clampedComps (p : PathStr) : List PathStr := (p.splitOn '/').foldl clampStep []

/-- The normal form of a path. -/
def clampedNormalize (p : PathStr) (asDirectory : Bool) : PathStr :=
  if p = [] then []
  else absPath (clampedComps p) ++ if asDirectory ∧ clampedComps p ≠ [] then ['/'] else []

/-- The path is normalised: the result is the normal form, has proper components only, and is its
own normal form. -/
structure Normalizes (p : PathStr) : Prop where
  eq : ∀ asDirectory, lexicalNormalize p asDirectory = clampedNormalize p asDirectory
  proper : ∀ asDirectory, ∀ c ∈ names (lexicalNormalize p asDirectory), Proper c
  idempotent : ∀ asDirectory, lexicalNormalize (lexicalNormalize p asDirectory) asDirectory =
    lexicalNormalize p asDirectory

/-- A component below `depth` others is not reached by the `".."` among the components that
follow. -/
def Stays : ℕ → List PathStr → Prop
  | _, [] => True
  | depth, c :: cs =>
      if c = [] ∨ c = dot then Stays depth cs
      else if c = dotDot then
        match depth with
        | 0 => False
        | depth + 1 => Stays depth cs
      else Stays (depth + 1) cs

/-- Two separators, then `"."` or `".."`, and no `".."` that removes it again. -/
def DotsStay (p : PathStr) : Prop :=
  ∃ n s, p = '/' :: '/' :: (n ++ s) ∧ (n = dot ∨ n = dotDot) ∧ (s = [] ∨ s.head? = some '/') ∧
    Stays 0 (names s)

theorem namesAux_eq_filter (acc s : PathStr) :
    namesAux acc s = ((s.splitOn '/').modifyHead (acc ++ ·)).filter (· ≠ []) := by
  induction s generalizing acc with
  | nil =>
      rw [List.splitOn_nil, namesAux, List.modifyHead_cons, List.append_nil]
      by_cases h : acc = [] <;> simp [h]
  | cons c s ih =>
      rw [namesAux, List.splitOn_cons_eq_if_modifyHead]
      by_cases hc : c = '/'
      · have hid : (s.splitOn '/').modifyHead ([] ++ ·) = s.splitOn '/' := by
          cases s.splitOn '/' <;> rfl
        subst hc
        rw [if_pos rfl, ih, hid, if_pos (beq_self_eq_true _), List.modifyHead_cons, List.append_nil]
        by_cases h : acc = [] <;> simp [h]
      · rw [if_neg hc, ih, if_neg (by simpa using hc), List.modifyHead_modifyHead]
        congr 2
        funext x
        simp

/-- The names are the components that are not empty. -/
theorem names_eq_filter (s : PathStr) : names s = (s.splitOn '/').filter (· ≠ []) := by
  rw [names, namesAux_eq_filter]
  cases s.splitOn '/' <;> rfl

theorem clampedComps_eq (p : PathStr) : clampedComps p = (names p).foldl clampStep [] := by
  have hstep : ∀ (st : List PathStr) (c : PathStr),
      (if decide (c ≠ []) = true then clampStep st c else st) = clampStep st c := by
    intro st c
    by_cases hc : c = []
    · simp [hc, clampStep]
    · simp [hc]
  rw [names_eq_filter, List.foldl_filter, clampedComps]
  simp only [hstep]

theorem stackStep_name (st : List PathStr) {n : PathStr} (h : IsName n) :
    stackStep st n = clampStep st n := by
  have hroot : n ≠ ['/'] ∧ n ≠ ['/', '/'] := by
    constructor <;> rintro rfl <;> exact h.2 (by simp)
  have hne : dot ≠ dotDot := by decide
  unfold stackStep clampStep
  by_cases hd : n = dot
  · simp [hd, hne]
  · simp [hd, h.1, hroot, not_network_of_isName h]

/-- Without a network root the loop runs over the names. -/
theorem foldl_relElements (st : List PathStr) (s : PathStr) :
    (relElements s).foldl stackStep st = (names s).foldl clampStep st := by
  have hnames : ∀ (ns : List PathStr), (∀ n ∈ ns, IsName n) → ∀ st,
      ns.foldl stackStep st = ns.foldl clampStep st := by
    intro ns
    induction ns with
    | nil => exact fun _ _ => rfl
    | cons n ns ih =>
        intro hns st
        rw [List.foldl_cons, List.foldl_cons, stackStep_name st (hns n (by simp)),
          ih fun m hm => hns m (by simp [hm])]
  have hdot : ∀ st, stackStep st dot = st := fun st => by simp [stackStep, dot, dotDot]
  rw [relElements, List.foldl_append, hnames _ fun n hn => isName_of_mem_names hn]
  split_ifs
  · rw [List.foldl_cons, List.foldl_nil, hdot]
  · rfl

theorem stackStep_root (st : List PathStr) : stackStep st ['/'] = st := by
  simp [stackStep, dotDot, dot]

/-- The first component of a path with a network root is pushed unchecked. -/
theorem normComps_network {n s : PathStr} (hn : IsName n) (hs : s = [] ∨ s.head? = some '/') :
    normComps ('/' :: '/' :: (n ++ s)) = (names s).foldl clampStep [n] ∧
      clampedComps ('/' :: '/' :: (n ++ s)) = (names s).foldl clampStep (clampStep [] n) := by
  have helements := elements_network hn hs
  obtain ⟨c, n', rfl, hc⟩ := exists_cons_of_isName hn
  have hpush : stackStep [] ('/' :: '/' :: c :: n') = [c :: n'] := by
    simp [stackStep, dotDot, dot]
  constructor
  · rw [normComps, helements, List.foldl_cons, hpush]
    split_ifs with hnil
    · rw [hnil]
      rfl
    · rw [List.foldl_cons, stackStep_root, foldl_relElements]
  · have hnames : names ('/' :: '/' :: (c :: n' ++ s)) = (c :: n') :: names s := by
      rw [names_sep, names_sep]
      obtain rfl | hs := hs
      · rw [List.append_nil, names_of_isName hn]
        rfl
      · obtain ⟨s, rfl⟩ : ∃ t, s = '/' :: t := by
          cases s with
          | nil => cases hs
          | cons d s => exact ⟨s, by rw [Option.some.inj hs]⟩
        rw [names_append_sep, names_of_isName hn, names_sep]
        rfl
    rw [clampedComps_eq, hnames, List.foldl_cons]

/-- What a path looks like from its beginning. -/
theorem network_or (p : PathStr) :
    (∃ n s, p = '/' :: '/' :: (n ++ s) ∧ IsName n ∧ (s = [] ∨ s.head? = some '/')) ∨
    normComps p = clampedComps p := by
  rw [clampedComps_eq]
  unfold normComps elements
  split
  · exact Or.inr rfl
  · exact Or.inr (by decide)
  · next c s =>
      by_cases hc : c = '/'
      · right
        rw [if_pos hc, List.foldl_cons, stackStep_root, foldl_relElements, hc, names_sep,
          names_sep, names_sep]
      · refine Or.inl ⟨(c :: s).takeWhile (· ≠ '/'), (c :: s).dropWhile (· ≠ '/'), ?_, ⟨?_, ?_⟩, ?_⟩
        · rw [List.takeWhile_append_dropWhile]
        · simp [hc]
        · intro hmem
          simpa using List.mem_takeWhile_imp hmem
        · cases hd : (c :: s).dropWhile (· ≠ '/') with
          | nil => exact Or.inl rfl
          | cons d t =>
              have hhead := List.head?_dropWhile_not (fun x : Char => decide (x ≠ '/')) (c :: s)
              rw [hd] at hhead
              right
              simpa using hhead
  · next _ s _ _ =>
      right
      rw [List.foldl_cons, stackStep_root, foldl_relElements, names_sep]
  · exact Or.inr (foldl_relElements [] p)

/-- A component that stays is the first one left. -/
theorem foldl_clampStep_of_stays (x : PathStr) (st : List PathStr) {cs : List PathStr}
    (h : Stays st.length cs) :
    cs.foldl clampStep (x :: st) = x :: cs.foldl clampStep st := by
  induction cs generalizing st with
  | nil => rfl
  | cons c cs ih =>
      unfold Stays at h
      rw [List.foldl_cons, List.foldl_cons, clampStep, clampStep]
      split_ifs at h ⊢ with hdot hdotDot
      · exact ih _ h
      · obtain rfl | ⟨st, d, rfl⟩ := List.eq_nil_or_concat' st
        · exact h.elim
        · rw [← List.cons_append, List.dropLast_concat, List.dropLast_concat]
          rw [List.length_append, List.length_singleton] at h
          exact ih _ h
      · have hlength : (st ++ [c]).length = st.length + 1 := by simp
        exact ih (st ++ [c]) (hlength ▸ h)

/-- Otherwise it makes no difference. -/
theorem foldl_clampStep_of_not_stays (x : PathStr) (st : List PathStr) {cs : List PathStr}
    (h : ¬ Stays st.length cs) : cs.foldl clampStep (x :: st) = cs.foldl clampStep st := by
  induction cs generalizing st with
  | nil => exact absurd trivial h
  | cons c cs ih =>
      unfold Stays at h
      rw [List.foldl_cons, List.foldl_cons, clampStep, clampStep]
      split_ifs at h ⊢ with hdot hdotDot
      · exact ih _ h
      · obtain rfl | ⟨st, d, rfl⟩ := List.eq_nil_or_concat' st
        · rfl
        · rw [← List.cons_append, List.dropLast_concat, List.dropLast_concat]
          rw [List.length_append, List.length_singleton] at h
          exact ih _ h
      · have hlength : (st ++ [c]).length = st.length + 1 := by simp
        exact ih (st ++ [c]) (hlength ▸ h)

theorem proper_clampedComps (p : PathStr) : ∀ c ∈ clampedComps p, Proper c := by
  have hfold : ∀ (ns : List PathStr), (∀ n ∈ ns, IsName n) → ∀ st : List PathStr,
      (∀ c ∈ st, Proper c) → ∀ c ∈ ns.foldl clampStep st, Proper c := by
    intro ns
    induction ns with
    | nil => exact fun _ _ hst => hst
    | cons n ns ih =>
        intro hns st hst
        refine ih (fun m hm => hns m (by simp [hm])) _ fun c hc => ?_
        unfold clampStep at hc
        split_ifs at hc with hdot hdotDot
        · exact hst c hc
        · exact hst c (List.dropLast_subset _ hc)
        · obtain hc | hc := List.mem_append.mp hc
          · exact hst c hc
          · rw [List.mem_singleton] at hc
            subst hc
            exact ⟨hns c (by simp), fun h => hdot (Or.inr h), hdotDot⟩
  rw [clampedComps_eq]
  exact hfold _ (fun n hn => isName_of_mem_names hn) [] (List.forall_mem_nil _)

theorem foldl_clampStep_proper {cs : List PathStr} (h : ∀ c ∈ cs, Proper c)
    (st : List PathStr) : cs.foldl clampStep st = st ++ cs := by
  induction cs generalizing st with
  | nil => simp
  | cons c cs ih =>
      obtain ⟨hname, hdot, hdotDot⟩ := h c (by simp)
      rw [List.foldl_cons, clampStep, if_neg (by simp [hname.1, hdot]), if_neg hdotDot,
        ih fun d hd => h d (by simp [hd]), List.append_assoc]
      rfl

/-- The loop is the fold over the clamped stack, unless dots stay. -/
theorem normComps_eq_clampedComps {p : PathStr} (h : ¬ DotsStay p) :
    normComps p = clampedComps p := by
  obtain ⟨n, s, rfl, hn, hs⟩ | heq := network_or p
  · obtain ⟨hcode, hclamped⟩ := normComps_network hn hs
    rw [hcode, hclamped]
    by_cases hproper : Proper n
    · rw [show clampStep [] n = [n] from foldl_clampStep_proper
        (fun c hc => List.mem_singleton.mp hc ▸ hproper) []]
    · have hdots := dots_of_not_proper hn hproper
      have hpop : clampStep [] n = [] := by
        obtain rfl | rfl := hdots <;> decide
      rw [hpop]
      exact foldl_clampStep_of_not_stays n [] fun hstays => h ⟨n, s, rfl, hdots, hs, hstays⟩
  · exact heq

theorem names_absPath {cs : List PathStr} (h : ∀ c ∈ cs, IsName c) : names (absPath cs) = cs := by
  unfold absPath
  split_ifs with hnil
  · rw [hnil]
    decide
  · exact names_joinAbs h

/-- A normal form with a trailing separator is its own normal form. -/
theorem lexicalNormalize_directory {cs : List PathStr} (h : ∀ c ∈ cs, Proper c) (hne : cs ≠ []) :
    lexicalNormalize (absPath cs ++ ['/']) true = absPath cs ++ ['/'] := by
  have hnames : ∀ c ∈ cs, IsName c := fun c hc => (h c hc).1
  have hread : names (joinAbs cs ++ ['/']) = cs := by
    rw [names_joinAbs_append [] hnames, names_nil, List.append_nil]
  have hpath : absPath cs = joinAbs cs := if_neg hne
  have hcomps : normComps (joinAbs cs ++ ['/']) = cs := by
    obtain ⟨n, cs, rfl⟩ := List.exists_cons_of_ne_nil hne
    rw [normComps, elements_joinAbs_append cs ['/'] (hnames n (by simp)), List.foldl_cons,
      stackStep_root, foldl_relElements, hread, foldl_clampStep_proper h]
    rfl
  have hnet : joinAbs cs ++ ['/'] ≠ ['/', '/'] := by
    intro heq
    rw [heq] at hread
    exact hne hread.symm
  rw [hpath, lexicalNormalize_asDirectory (by simp) hnet, hcomps, if_neg hne, hpath]

/-- **Normalisation**: a path is normalised over the clamped stack exactly if it is not `"//"` and
no `"."` or `".."` stays behind two leading separators. -/
theorem normalizes_iff (p : PathStr) : Normalizes p ↔ p ≠ ['/', '/'] ∧ ¬ DotsStay p := by
  constructor
  · intro h
    constructor
    · rintro rfl
      exact absurd (h.eq false) (by decide)
    · rintro ⟨n, s, rfl, hdots, hs, hstays⟩
      have hn : IsName n := by
        obtain rfl | rfl := hdots <;> decide
      have hnet : '/' :: '/' :: (n ++ s) ≠ ['/', '/'] := by
        intro heq
        have hnil := (List.cons.inj (List.cons.inj heq).2).2
        exact hn.1 (List.append_eq_nil_iff.mp hnil).1
      have hcomps := (normComps_network hn hs).1
      rw [foldl_clampStep_of_stays n [] hstays] at hcomps
      have hproper := h.proper false n (by
        rw [lexicalNormalize_eq (by simp) hnet,
          names_absPath fun c hc => isName_of_mem_normComps hc, hcomps]
        exact List.mem_cons_self)
      obtain rfl | rfl := hdots
      · exact hproper.2.1 rfl
      · exact hproper.2.2 rfl
  · rintro ⟨hnet, hdots⟩
    by_cases hnil : p = []
    · subst hnil
      exact ⟨fun _ => rfl, fun _ c hc => absurd hc (List.not_mem_nil), fun _ => rfl⟩
    have hproper := proper_clampedComps p
    have hfalse : lexicalNormalize p false = absPath (clampedComps p) := by
      rw [lexicalNormalize_eq hnil hnet, normComps_eq_clampedComps hdots]
    have htrue : lexicalNormalize p true =
        if clampedComps p = [] then ['/'] else absPath (clampedComps p) ++ ['/'] := by
      rw [lexicalNormalize_asDirectory hnil hnet, normComps_eq_clampedComps hdots]
    have hnames := names_absPath fun c hc => (hproper c hc).1
    refine ⟨?_, ?_, ?_⟩
    · rintro (_ | _)
      · rw [hfalse, clampedNormalize, if_neg hnil]
        simp
      · rw [htrue, clampedNormalize, if_neg hnil]
        split_ifs with hempty <;> simp_all [absPath]
    · rintro (_ | _) c hc
      · rw [hfalse, hnames] at hc
        exact hproper c hc
      · rw [htrue] at hc
        split_ifs at hc with hempty
        · cases hc
        · have hsep := names_append_sep (absPath (clampedComps p)) []
          rw [names_nil, List.append_nil, hnames] at hsep
          rw [hsep] at hc
          exact hproper c hc
    · rintro (_ | _)
      · rw [hfalse, lexicalNormalize_absPath hproper]
      · rw [htrue]
        split_ifs with hempty
        · rfl
        · exact lexicalNormalize_directory hproper hempty

/-- The dots behind two leading separators stay, and `"//"` gets one more. -/
theorem network_dots_not_normalized :
    lexicalNormalize "//..".toList false = "/..".toList ∧
    clampedNormalize "//..".toList false = "/".toList ∧ ¬ Normalizes "//..".toList ∧
    lexicalNormalize "//".toList false = "///".toList ∧
    clampedNormalize "//".toList false = "/".toList ∧ ¬ Normalizes "//".toList := by
  refine ⟨by decide, by decide, fun h => ?_, by decide, by decide, fun h => ?_⟩
  · exact absurd (h.eq false) (by decide)
  · exact absurd (h.eq false) (by decide)

end Norns
