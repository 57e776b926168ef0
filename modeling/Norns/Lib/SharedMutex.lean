import Norns.Lib.Run
import Mathlib.Data.Fintype.Basic
import Mathlib.Order.Preorder.Finite

/-! # Shared mutexes with writer preference

Threads that lock and unlock shared mutexes.  A mutex is held by one thread exclusively or by any
number of threads, and any number of times by one thread, in shared mode; while a thread waits for
it exclusively, nobody else gets it in shared mode.

A thread is the list of the operations it has still to do, the locks it holds, and whether it has
asked for the lock at the head of the list.  The discipline `Ordered` says that a thread takes
mutexes in increasing order, except that it may take one that it holds in shared mode in shared
mode again.  With writer preference this exception is dangerous: a thread that comes in between
and waits for the mutex exclusively keeps the first one from taking it again, and waits for it to
be given back.  `Guard` rules this out at the moment of the exclusive request, and
`LockInv.not_deadlocked` says that nothing else can go wrong. -/

namespace Norns.Lib

/-- The two modes of a lock. -/
inductive LockMode where
  | shared
  | exclusive
deriving DecidableEq, Repr

/-- An operation on a mutex. -/
inductive LockOp (M : Type) where
  | lock (mode : LockMode) (m : M)
  | unlock (mode : LockMode) (m : M)
deriving DecidableEq, Repr

/-- A thread: the locks it holds, the operations it has still to do, and whether it has asked for
the lock that comes next. -/
structure LockThread (M : Type) where
  held : List (LockMode × M)
  prog : List (LockOp M)
  asked : Bool

variable {ι M : Type} [DecidableEq M]

namespace LockThread

/-- The thread holds the mutex. -/
def Holds (th : LockThread M) (m : M) : Prop := ∃ mode, (mode, m) ∈ th.held

/-- The thread waits for the lock. -/
def WaitsFor (th : LockThread M) (mode : LockMode) (m : M) : Prop :=
  th.asked = true ∧ ∃ rest, th.prog = .lock mode m :: rest

/-- A mutex that is held `n` times is locked once more before it has been given back `n` times. -/
def relocks (m : M) : ℕ → List (LockOp M) → Bool
  | 0, _ => false
  | _ + 1, [] => false
  | n + 1, .lock _ m' :: rest => if m' = m then true else relocks m (n + 1) rest
  | n + 1, .unlock _ m' :: rest => if m' = m then relocks m n rest else relocks m (n + 1) rest

/-- How often the thread holds the mutex. -/
def holds (th : LockThread M) (m : M) : ℕ := th.held.countP (fun l => l.2 = m)

/-- The thread holds the mutex and will lock it again before it has given it back. -/
def Reenters (th : LockThread M) (m : M) : Prop := relocks m (th.holds m) th.prog = true

end LockThread

/-- The state of all threads. -/
abbrev LockState (ι M : Type) := ι → LockThread M

/-- What keeps a lock from being given to a thread that asks for it. -/
def Obstructs (u : LockThread M) (mode : LockMode) (m : M) : Prop :=
  match mode with
  | .shared => (.exclusive, m) ∈ u.held ∨ u.WaitsFor .exclusive m
  | .exclusive => u.Holds m

/-- What a thread can become by a step of its own.  `ops` says what a thread that has nothing to
do may begin. -/
inductive ThreadStep (ops : ι → Set (List (LockOp M))) (s : LockState ι M) (t : ι) :
    LockThread M → Prop
  | start {prog : List (LockOp M)} (hidle : (s t).prog = []) (hops : prog ∈ ops t) :
      ThreadStep ops s t { s t with prog := prog }
  | ask {mode : LockMode} {m : M} {rest : List (LockOp M)}
      (hprog : (s t).prog = .lock mode m :: rest) (hasked : (s t).asked = false) :
      ThreadStep ops s t { s t with asked := true }
  | acquire {mode : LockMode} {m : M} {rest : List (LockOp M)}
      (hprog : (s t).prog = .lock mode m :: rest) (hasked : (s t).asked = true)
      (hfree : ∀ u, ¬ Obstructs (s u) mode m) :
      ThreadStep ops s t ⟨(mode, m) :: (s t).held, rest, false⟩
  | release {mode : LockMode} {m : M} {rest : List (LockOp M)}
      (hprog : (s t).prog = .unlock mode m :: rest) :
      ThreadStep ops s t ⟨(s t).held.erase (mode, m), rest, (s t).asked⟩

/-- One thread makes a step. -/
def LockStep [DecidableEq ι] (ops : ι → Set (List (LockOp M))) (s s' : LockState ι M) : Prop :=
  ∃ t th, ThreadStep ops s t th ∧ s' = Function.update s t th

/-- No thread starts to wait exclusively for a mutex that another one is going to lock again. -/
def Guard (s s' : LockState ι M) : Prop :=
  ∀ t u m, u ≠ t → ¬ (s t).WaitsFor .exclusive m → (s' t).WaitsFor .exclusive m →
    ¬ (s u).Reenters m

/-- `u` keeps `t` waiting. -/
def Blocks (s : LockState ι M) (u t : ι) : Prop :=
  ∃ mode m, (s t).WaitsFor mode m ∧ Obstructs (s u) mode m

/-- The threads of a set wait for each other. -/
def Deadlocked (s : LockState ι M) (W : Finset ι) : Prop :=
  W.Nonempty ∧ ∀ t ∈ W, ∃ u ∈ W, Blocks s u t

/-! ### The discipline -/

section discipline

variable (rank : M → ℕ)

/-- Mutexes are taken in increasing order or again in shared mode, and all are given back. -/
def Ordered : List (LockMode × M) → List (LockOp M) → Prop
  | held, [] => held = []
  | held, .lock mode m :: rest =>
      (∀ l ∈ held, rank l.2 < rank m ∨ (l = (.shared, m) ∧ mode = .shared)) ∧
        Ordered ((mode, m) :: held) rest
  | held, .unlock mode m :: rest => (mode, m) ∈ held ∧ Ordered (held.erase (mode, m)) rest

/-- A section that keeps the discipline and leaves the locks as it found them. -/
def Balanced (held : List (LockMode × M)) (ops : List (LockOp M)) : Prop :=
  ∀ rest, Ordered rank held rest → Ordered rank held (ops ++ rest)

/-- The invariant: the discipline is kept, an exclusive lock is the only one, and nobody waits
exclusively for a mutex that another thread is going to lock again. -/
structure LockInv (s : LockState ι M) : Prop where
  ordered : ∀ t, Ordered rank (s t).held (s t).prog
  exclusion : ∀ t u m, (.exclusive, m) ∈ (s t).held → (s u).Holds m → u = t
  reentry : ∀ t u m, u ≠ t → (s t).WaitsFor .exclusive m → ¬ (s u).Reenters m

end discipline

/-! ### Sections -/

/-- A lock that is given back at the end of a scope. -/
def withLock (mode : LockMode) (m : M) (body : List (LockOp M)) : List (LockOp M) :=
  .lock mode m :: (body ++ [.unlock mode m])

section sections

variable {rank : M → ℕ} {held : List (LockMode × M)}

theorem balanced_nil : Balanced rank held [] := fun _ h => h

theorem Balanced.append {p q : List (LockOp M)} (hp : Balanced rank held p)
    (hq : Balanced rank held q) : Balanced rank held (p ++ q) := by
  intro rest hrest
  rw [List.append_assoc]
  exact hp _ (hq rest hrest)

theorem balanced_flatMap {α : Type} (f : α → List (LockOp M)) (l : List α)
    (h : ∀ a ∈ l, Balanced rank held (f a)) : Balanced rank held (l.flatMap f) := by
  induction l with
  | nil => exact balanced_nil
  | cons a l ih =>
    exact (h a (List.mem_cons_self ..)).append (ih fun b hb => h b (List.mem_cons_of_mem a hb))

theorem balanced_withLock {mode : LockMode} {m : M} {body : List (LockOp M)}
    (hlock : ∀ l ∈ held, rank l.2 < rank m ∨ (l = (.shared, m) ∧ mode = .shared))
    (hbody : Balanced rank ((mode, m) :: held) body) :
    Balanced rank held (withLock mode m body) := by
  intro rest hrest
  rw [withLock, List.cons_append, List.append_assoc]
  refine ⟨hlock, hbody _ ⟨List.mem_cons_self .., ?_⟩⟩
  rw [List.erase_cons_head]
  exact hrest

theorem Balanced.ordered {ops : List (LockOp M)} (h : Balanced rank [] ops) :
    Ordered rank [] ops := by
  have hord := h [] rfl
  rwa [List.append_nil] at hord

end sections

/-! ### Locking again -/

namespace LockThread

theorem relocks_zero (m : M) (prog : List (LockOp M)) : relocks m 0 prog = false := by
  cases prog <;> rfl

theorem relocks_lock_of_ne {m m' : M} (h : m' ≠ m) (n : ℕ) (mode : LockMode)
    (rest : List (LockOp M)) : relocks m n (.lock mode m' :: rest) = relocks m n rest := by
  cases n with
  | zero => rw [relocks_zero, relocks_zero]
  | succ n => exact if_neg h

theorem relocks_unlock_of_ne {m m' : M} (h : m' ≠ m) (n : ℕ) (mode : LockMode)
    (rest : List (LockOp M)) : relocks m n (.unlock mode m' :: rest) = relocks m n rest := by
  cases n with
  | zero => rw [relocks_zero, relocks_zero]
  | succ n => exact if_neg h

theorem relocks_unlock_self (m : M) (n : ℕ) (mode : LockMode) (rest : List (LockOp M)) :
    relocks m (n + 1) (.unlock mode m :: rest) = relocks m n rest := if_pos rfl

theorem relocks_lock_self (m : M) (n : ℕ) (mode : LockMode) (rest : List (LockOp M)) :
    relocks m (n + 1) (.lock mode m :: rest) = true := if_pos rfl

theorem holds_pos {th : LockThread M} {m : M} (h : th.Holds m) : 0 < th.holds m := by
  obtain ⟨mode, hmem⟩ := h
  exact List.countP_pos_iff.mpr ⟨(mode, m), hmem, by simp⟩

theorem holds_eq_zero {th : LockThread M} {m : M} (h : ¬ th.Holds m) : th.holds m = 0 := by
  refine List.countP_eq_zero.mpr fun l hl hm => h ⟨l.1, ?_⟩
  have heq : l.2 = m := by simpa using hm
  rw [← heq]
  exact hl

end LockThread

open LockThread

/-- A mutex that is held exclusively is not locked again. -/
theorem Ordered.not_relocks {rank : M → ℕ} {m : M} {held : List (LockMode × M)}
    {prog : List (LockOp M)} (h : Ordered rank held prog) (hx : (.exclusive, m) ∈ held) :
    relocks m 1 prog = false := by
  induction prog generalizing held with
  | nil => rfl
  | cons op rest ih =>
    cases op with
    | lock mode m' =>
      have hne : m' ≠ m := by
        rintro rfl
        obtain hlt | ⟨heq, -⟩ := h.1 _ hx
        · exact lt_irrefl _ hlt
        · cases heq
      rw [relocks_lock_of_ne hne]
      exact ih h.2 (List.mem_cons_of_mem _ hx)
    | unlock mode m' =>
      by_cases heq : m' = m
      · rw [heq, relocks_unlock_self, relocks_zero]
      · rw [relocks_unlock_of_ne heq]
        refine ih h.2 ((List.mem_erase_of_ne ?_).mpr hx)
        intro hpair
        exact heq (congrArg Prod.snd hpair).symm

/-! ### The invariant is kept -/

section preservation

variable {rank : M → ℕ} {ops : ι → Set (List (LockOp M))} {s : LockState ι M} {t : ι}
  {th : LockThread M}

theorem ordered_of_step (hops : ∀ t, ∀ prog ∈ ops t, Ordered rank [] prog)
    (hord : Ordered rank (s t).held (s t).prog) (h : ThreadStep ops s t th) :
    Ordered rank th.held th.prog := by
  cases h with
  | start hidle hprog =>
    rw [hidle] at hord
    have hheld : (s t).held = [] := hord
    rw [hheld]
    exact hops t _ hprog
  | ask hprog hasked => exact hord
  | acquire hprog hasked hfree =>
    rw [hprog] at hord
    exact hord.2
  | release hprog =>
    rw [hprog] at hord
    exact hord.2

/-- Only a step that acquires a lock adds to what a thread holds, and nothing stands against that
lock. -/
theorem held_of_step (h : ThreadStep ops s t th) {l : LockMode × M} (hl : l ∈ th.held) :
    l ∈ (s t).held ∨ ∀ u, ¬ Obstructs (s u) l.1 l.2 := by
  cases h with
  | start hidle hprog => exact .inl hl
  | ask hprog hasked => exact .inl hl
  | acquire hprog hasked hfree =>
    obtain rfl | hold := List.mem_cons.mp hl
    · exact .inr hfree
    · exact .inl hold
  | release hprog => exact .inl (List.mem_of_mem_erase hl)

omit [DecidableEq M] in
/-- An exclusive lock obstructs every other one. -/
theorem obstructs_of_exclusive {u : LockThread M} {m : M} (h : (.exclusive, m) ∈ u.held)
    (mode : LockMode) : Obstructs u mode m := by
  cases mode with
  | shared => exact .inl h
  | exclusive => exact ⟨.exclusive, h⟩

theorem exclusion_of_step [DecidableEq ι] (hinv : LockInv rank s) (h : ThreadStep ops s t th) :
    ∀ a b m, (.exclusive, m) ∈ (Function.update s t th a).held →
      (Function.update s t th b).Holds m → b = a := by
  intro a b m hx hb
  by_contra hne
  obtain rfl | hat := eq_or_ne a t
  · rw [Function.update_self] at hx
    rw [Function.update_of_ne hne] at hb
    obtain hold | hfree := held_of_step h hx
    · exact hne (hinv.exclusion a b m hold hb)
    · exact hfree b hb
  · rw [Function.update_of_ne hat] at hx
    obtain rfl | hbt := eq_or_ne b t
    · rw [Function.update_self] at hb
      obtain ⟨mode, hmode⟩ := hb
      obtain hold | hfree := held_of_step h hmode
      · exact hne (hinv.exclusion a b m hx ⟨mode, hold⟩)
      · exact hfree a (obstructs_of_exclusive hx mode)
    · rw [Function.update_of_ne hbt] at hb
      exact hne (hinv.exclusion a b m hx hb)

/-- While another thread waits exclusively for a mutex, no step makes a thread one that is going
to lock it again. -/
theorem not_reenters_of_step (hord : Ordered rank (s t).held (s t).prog)
    (h : ThreadStep ops s t th) {u : ι} {m : M} (hwait : (s u).WaitsFor .exclusive m)
    (hnot : ¬ (s t).Reenters m) : ¬ th.Reenters m := by
  unfold Reenters at hnot ⊢
  cases h with
  | start hidle hprog =>
    rw [hidle] at hord
    have hheld : (s t).held = [] := hord
    simp only [holds, hheld, List.countP_nil, relocks_zero]
    simp
  | ask hprog hasked => exact hnot
  | @acquire mode m' rest hprog hasked hfree =>
    rw [hprog] at hnot hord
    obtain rfl | hne := eq_or_ne m' m
    · cases mode with
      | shared => exact absurd (.inr hwait) (hfree u)
      | exclusive =>
        have hzero : (s t).holds m' = 0 := holds_eq_zero (hfree t)
        have hone : holds ⟨(.exclusive, m') :: (s t).held, rest, false⟩ m' = 1 := by
          simpa [holds] using hzero
        rw [hone, hord.2.not_relocks (List.mem_cons_self ..)]
        simp
    · have hsame : holds ⟨(mode, m') :: (s t).held, rest, false⟩ m = (s t).holds m := by
        simp [holds, hne]
      rwa [hsame, ← relocks_lock_of_ne hne]
  | @release mode m' rest hprog =>
    rw [hprog] at hnot hord
    have hcount := (List.perm_cons_erase hord.1).countP_eq (fun l => decide (l.2 = m))
    rw [List.countP_cons] at hcount
    obtain rfl | hne := eq_or_ne m' m
    · have hsucc : (s t).holds m' =
          holds ⟨(s t).held.erase (mode, m'), rest, (s t).asked⟩ m' + 1 := by
        simpa [holds] using hcount
      rwa [hsucc, relocks_unlock_self] at hnot
    · have hsame : (s t).holds m = holds ⟨(s t).held.erase (mode, m'), rest, (s t).asked⟩ m := by
        simpa [holds, hne] using hcount
      rwa [hsame, relocks_unlock_of_ne hne] at hnot

/-- Under the guard the invariant is kept. -/
theorem LockInv.step [DecidableEq ι] {s' : LockState ι M}
    (hops : ∀ t, ∀ prog ∈ ops t, Ordered rank [] prog) (hinv : LockInv rank s)
    (h : LockStep ops s s') (hguard : Guard s s') : LockInv rank s' := by
  obtain ⟨t, th, hstep, rfl⟩ := h
  refine ⟨fun a => ?_, exclusion_of_step hinv hstep, fun a u m hne hwait => ?_⟩
  · obtain rfl | hat := eq_or_ne a t
    · rw [Function.update_self]
      exact ordered_of_step hops (hinv.ordered a) hstep
    · rw [Function.update_of_ne hat]
      exact hinv.ordered a
  · by_cases hold : (s a).WaitsFor .exclusive m
    · obtain rfl | hut := eq_or_ne u t
      · rw [Function.update_self]
        exact not_reenters_of_step (hinv.ordered u) hstep hold (hinv.reentry a u m hne hold)
      · rw [Function.update_of_ne hut]
        exact hinv.reentry a u m hne hold
    · -- the thread that has just asked is the one that moved
      have hat : a = t := by
        by_contra hat
        rw [Function.update_of_ne hat] at hwait
        exact hold hwait
      have hut : u ≠ t := fun hut => hne (hut.trans hat.symm)
      rw [Function.update_of_ne hut]
      exact hguard a u m hne hold hwait

end preservation

/-! ### No deadlock -/

section deadlock

variable {rank : M → ℕ} {s : LockState ι M}

omit [DecidableEq M] in
theorem waitsFor_unique {th : LockThread M} {mode mode' : LockMode}
    {m m' : M} (h : th.WaitsFor mode m) (h' : th.WaitsFor mode' m') : mode = mode' ∧ m = m' := by
  obtain ⟨-, rest, hprog⟩ := h
  obtain ⟨-, rest', hprog'⟩ := h'
  rw [hprog] at hprog'
  cases hprog'
  exact ⟨rfl, rfl⟩

/-- A thread that waits for a mutex below or at one it holds takes the latter again, in shared
mode. -/
theorem Ordered.shared_of_waits {th : LockThread M} {mode mode' : LockMode} {m m' : M}
    (hord : Ordered rank th.held th.prog) (hwait : th.WaitsFor mode m)
    (hheld : (mode', m') ∈ th.held) (hrank : rank m ≤ rank m') :
    m' = m ∧ mode' = .shared ∧ mode = .shared := by
  obtain ⟨-, rest, hprog⟩ := hwait
  rw [hprog] at hord
  obtain hlt | ⟨heq, hmode⟩ := hord.1 _ hheld
  · exact absurd hrank (not_le.mpr hlt)
  · cases heq
    exact ⟨rfl, rfl, hmode⟩

/-- The rank of the mutex that comes next. -/
def LockThread.height (rank : M → ℕ) (th : LockThread M) : ℕ :=
  match th.prog with
  | .lock _ m :: _ => rank m
  | _ => 0

omit [DecidableEq M] in
theorem LockThread.WaitsFor.height_eq {th : LockThread M} {mode : LockMode} {m : M}
    (h : th.WaitsFor mode m) (rank : M → ℕ) : th.height rank = rank m := by
  obtain ⟨-, rest, hprog⟩ := h
  rw [LockThread.height, hprog]

/-- **Deadlock freedom**: no threads wait for each other. -/
theorem LockInv.not_deadlocked (hinv : LockInv rank s) (W : Finset ι) : ¬ Deadlocked s W := by
  rintro ⟨hne, hblocked⟩
  -- the mutex of highest rank that a thread of the set waits for
  obtain ⟨mode, m, t, ht, hwait, hmax⟩ : ∃ mode m, ∃ t ∈ W, (s t).WaitsFor mode m ∧
      ∀ u ∈ W, ∀ mode' m', (s u).WaitsFor mode' m' → rank m' ≤ rank m := by
    obtain ⟨t, ht, hmax⟩ := Finset.exists_max_image W (fun t => (s t).height rank) hne
    obtain ⟨u, hu, mode, m, hwait, -⟩ := hblocked t ht
    refine ⟨mode, m, t, ht, hwait, fun u hu mode' m' hwait' => ?_⟩
    rw [← hwait.height_eq rank, ← hwait'.height_eq rank]
    exact hmax u hu
  -- nobody in the set holds it
  have hnobody : ∀ u ∈ W, ¬ (s u).Holds m := by
    rintro u hu ⟨mode', hheld⟩
    obtain ⟨v, hv, modeu, mu, hwaitu, hobs⟩ := hblocked u hu
    obtain ⟨rfl, rfl, rfl⟩ := (hinv.ordered u).shared_of_waits hwaitu hheld (hmax u hu _ _ hwaitu)
    obtain hx | hwaitv := hobs
    · have huv : u = v := hinv.exclusion v u m hx ⟨_, hheld⟩
      rw [← huv] at hx
      obtain ⟨-, hmode, -⟩ := (hinv.ordered u).shared_of_waits hwaitu hx le_rfl
      cases hmode
    · have hvu : u ≠ v := by
        rintro rfl
        cases (waitsFor_unique hwaitu hwaitv).1
      apply hinv.reentry v u m hvu hwaitv
      obtain ⟨-, rest, hprog⟩ := hwaitu
      obtain ⟨n, hn⟩ : ∃ n, (s u).holds m = n + 1 :=
        ⟨(s u).holds m - 1, by have := holds_pos ⟨_, hheld⟩; omega⟩
      rw [Reenters, hn, hprog, relocks_lock_self]
  obtain ⟨u, hu, mode', m', hwait', hobs⟩ := hblocked t ht
  obtain ⟨rfl, rfl⟩ := waitsFor_unique hwait hwait'
  cases mode with
  | exclusive => exact hnobody u hu hobs
  | shared =>
    obtain hx | hwaitu := hobs
    · exact hnobody u hu ⟨_, hx⟩
    · obtain ⟨v, hv, mode'', m'', hwaitu', hobsv⟩ := hblocked u hu
      obtain ⟨rfl, rfl⟩ := waitsFor_unique hwaitu hwaitu'
      exact hnobody v hv hobsv

/-- A thread that stands in the way of another has something to do. -/
theorem Ordered.busy_of_obstructs {th : LockThread M} {mode : LockMode} {m : M}
    (hord : Ordered rank th.held th.prog) (h : Obstructs th mode m) : th.prog ≠ [] := by
  intro hnil
  rw [hnil] at hord
  have hheld : th.held = [] := hord
  cases mode with
  | exclusive =>
    obtain ⟨mode', hmem⟩ := h
    rw [hheld] at hmem
    cases hmem
  | shared =>
    obtain hmem | ⟨-, rest, hprog⟩ := h
    · rw [hheld] at hmem
      cases hmem
    · rw [hnil] at hprog
      cases hprog

/-- **Progress**: while a thread has something to do, some thread that has can make a step. -/
theorem LockInv.progress [Fintype ι] {ops : ι → Set (List (LockOp M))}
    (hinv : LockInv rank s) (hbusy : ∃ t, (s t).prog ≠ []) :
    ∃ t th, (s t).prog ≠ [] ∧ ThreadStep ops s t th := by
  by_contra hstuck
  push Not at hstuck
  refine hinv.not_deadlocked (Finset.univ.filter fun t => (s t).prog ≠ []) ⟨?_, fun t ht => ?_⟩
  · obtain ⟨t, ht⟩ := hbusy
    exact ⟨t, by simpa using ht⟩
  · have hprog : (s t).prog ≠ [] := by simpa using ht
    have hno := fun th => hstuck t th hprog
    cases hops : (s t).prog with
    | nil => exact absurd hops hprog
    | cons op rest =>
      cases op with
      | unlock mode m => exact absurd (.release hops) (hno _)
      | lock mode m =>
        have hasked : (s t).asked = true := by
          by_contra hasked
          exact hno _ (.ask hops (by simpa using hasked))
        obtain ⟨u, hobs⟩ : ∃ u, Obstructs (s u) mode m := by
          by_contra hfree
          exact hno _ (.acquire hops hasked (not_exists.mp hfree))
        refine ⟨u, ?_, mode, m, ⟨hasked, rest, hops⟩, hobs⟩
        simpa using (hinv.ordered u).busy_of_obstructs hobs

end deadlock

end Norns.Lib
