import Mathlib.Data.Set.Basic
import Mathlib.Tactic

/-! # Walking over a tree that grows

A recursive iteration keeps a stack of open directories.  It delivers an entry of the directory on
top that it has not delivered yet, it opens an entry that is a directory before it goes on to the
next one, and it closes a directory when all that it had listed is delivered.  The tree may grow
between two steps; whether an entry that appears in an open directory is delivered is left open.

Entries are the lists of the names that lead to them.  `Visits.next`: no entry is delivered twice,
whatever happens to the tree in between. -/

namespace Norns.Lib

variable {α : Type}

/-- What the iteration sees of the tree at a time. -/
structure TreeView (α : Type) where
  has : List α → Prop
  isDir : List α → Prop

/-- An open directory: the names in it when it was opened, and those that have been delivered. -/
structure DirStream (α : Type) where
  dir : List α
  listed : Set α
  seen : List α

/-- The directory `r`, just opened. -/
def TreeView.openDir (v : TreeView α) (r : List α) : DirStream α :=
  ⟨r, {n | v.has (r ++ [n])}, []⟩

/-- The next entry, or none at the end, and the directories that are open then. -/
inductive Advance (v : TreeView α) :
    List (DirStream α) → Option (List α) → List (DirStream α) → Prop
  | done : Advance v [] none []
  | close {s : DirStream α} {ss ss' : List (DirStream α)} {it : Option (List α)} :
      (∀ n ∈ s.listed, n ∈ s.seen) → Advance v ss it ss' → Advance v (s :: ss) it ss'
  | deliver {s : DirStream α} {ss : List (DirStream α)} {n : α} :
      n ∉ s.seen → v.has (s.dir ++ [n]) →
      Advance v (s :: ss) (some (s.dir ++ [n])) ({ s with seen := n :: s.seen } :: ss)

/-- A position: the current entry, or none at the end, and the open directories. -/
structure Cursor (α : Type) where
  it : Option (List α)
  streams : List (DirStream α)

/-- The first position. -/
def Cursor.Begins (v : TreeView α) (c : Cursor α) : Prop :=
  Advance v [v.openDir []] c.it c.streams

/-- The position after the entry `r`, which is opened if it is a directory. -/
def Cursor.Next (v : TreeView α) (c : Cursor α) (r : List α) (c' : Cursor α) : Prop :=
  c.it = some r ∧ ((v.isDir r ∧ Advance v (v.openDir r :: c.streams) c'.it c'.streams) ∨
    (¬ v.isDir r ∧ Advance v c.streams c'.it c'.streams))

/-! ### What has been delivered -/

/-- The open directories know what has been delivered of them. -/
structure Streams (visited : List (List α)) (ss : List (DirStream α)) : Prop where
  seen : ∀ s ∈ ss, ∀ n, s.dir ++ [n] ∈ visited ↔ n ∈ s.seen
  dirs : ∀ s ∈ ss, s.dir = [] ∨ s.dir ∈ visited
  distinct : ss.Pairwise fun s s' => s.dir ≠ s'.dir

/-- The entries delivered up to a position, the current one included. -/
structure Visits (visited : List (List α)) (c : Cursor α) : Prop where
  nodup : visited.Nodup
  parents : ∀ r n, r ++ [n] ∈ visited → r = [] ∨ r ∈ visited
  streams : Streams visited c.streams
  current : ∀ r, c.it = some r → r ∈ visited ∧ r ≠ [] ∧ (∀ s ∈ c.streams, s.dir ≠ r) ∧
    ∀ n, r ++ [n] ∉ visited

theorem Streams.tail {visited : List (List α)} {s : DirStream α} {ss : List (DirStream α)}
    (h : Streams visited (s :: ss)) : Streams visited ss :=
  ⟨fun s' hs => h.seen s' (List.mem_cons_of_mem _ hs),
    fun s' hs => h.dirs s' (List.mem_cons_of_mem _ hs), (List.pairwise_cons.mp h.distinct).2⟩

/-- An entry is delivered from the directory on top. -/
theorem Streams.deliver {visited : List (List α)} {s : DirStream α} {ss : List (DirStream α)}
    (h : Streams visited (s :: ss)) (n : α) :
    Streams (visited ++ [s.dir ++ [n]]) ({ s with seen := n :: s.seen } :: ss) := by
  have hdistinct := List.pairwise_cons.mp h.distinct
  refine ⟨fun s' hs m => ?_, fun s' hs => ?_, List.pairwise_cons.mpr hdistinct⟩
  · rw [List.mem_append, List.mem_singleton]
    rcases List.mem_cons.mp hs with rfl | hs
    · rw [h.seen s List.mem_cons_self, List.mem_cons, List.append_cancel_left_eq, or_comm,
        List.singleton_inj]
    · have hne : s'.dir ++ [m] ≠ s.dir ++ [n] :=
        fun heq => hdistinct.1 s' hs (List.append_inj' heq rfl).1.symm
      rw [h.seen s' (List.mem_cons_of_mem _ hs), or_iff_left hne]
  · have hdir : s'.dir = [] ∨ s'.dir ∈ visited := by
      rcases List.mem_cons.mp hs with rfl | hs
      · exact h.dirs s List.mem_cons_self
      · exact h.dirs s' (List.mem_cons_of_mem _ hs)
    exact hdir.imp_right fun hmem => List.mem_append_left _ hmem

/-- One more entry is delivered, which is a new one. -/
theorem Visits.advance {v : TreeView α} {visited : List (List α)} {ss ss' : List (DirStream α)}
    {it : Option (List α)} (hadvance : Advance v ss it ss') (hnodup : visited.Nodup)
    (hparents : ∀ r n, r ++ [n] ∈ visited → r = [] ∨ r ∈ visited) (hss : Streams visited ss) :
    Visits (visited ++ it.toList) ⟨it, ss'⟩ ∧ ∀ r, it = some r → v.has r ∧ r ∉ visited := by
  induction hadvance with
  | done =>
      rw [Option.toList_none, List.append_nil]
      exact ⟨⟨hnodup, hparents, ⟨nofun, nofun, .nil⟩, nofun⟩, nofun⟩
  | close _ _ ih => exact ih hss.tail
  | @deliver s ss n hn hhas =>
      have hnew : s.dir ++ [n] ∉ visited :=
        fun hmem => hn ((hss.seen s List.mem_cons_self n).mp hmem)
      have hstreams := hss.deliver n
      refine ⟨⟨?_, fun r m hmem => ?_, hstreams, ?_⟩, ?_⟩
      · exact List.nodup_append.mpr ⟨hnodup, List.nodup_singleton _, fun a ha b hb => by
          rw [List.mem_singleton.mp hb]
          rintro rfl
          exact hnew ha⟩
      · -- the parent of the new entry is the directory on top
        rcases List.mem_append.mp hmem with hmem | hmem
        · exact (hparents r m hmem).imp_right fun h => List.mem_append_left _ h
        · rw [(List.append_inj' (List.mem_singleton.mp hmem) rfl).1]
          exact (hss.dirs s List.mem_cons_self).imp_right fun h => List.mem_append_left _ h
      · rintro r ⟨⟩
        refine ⟨by simp, by simp, fun s' hs heq => ?_, fun m hmem => ?_⟩
        · have hdir : s'.dir = [] ∨ s'.dir ∈ visited := by
            rcases List.mem_cons.mp hs with rfl | hs
            · exact hss.dirs s List.mem_cons_self
            · exact hss.dirs s' (List.mem_cons_of_mem _ hs)
          rw [heq] at hdir
          exact hdir.elim (by simp) hnew
        · rcases List.mem_append.mp hmem with hmem | hmem
          · exact (hparents _ m hmem).elim (by simp) hnew
          · have hlen := congrArg List.length (List.mem_singleton.mp hmem)
            simp at hlen
      · rintro r ⟨⟩
        exact ⟨hhas, hnew⟩

theorem Visits.begin {v : TreeView α} {c : Cursor α} (h : c.Begins v) :
    Visits c.it.toList c ∧ ∀ r, c.it = some r → v.has r := by
  have hempty : Streams [] [v.openDir ([] : List α)] := by
    refine ⟨fun s hs n => ?_, fun s hs => ?_, List.pairwise_singleton _ _⟩
    · rw [List.mem_singleton.mp hs]
      exact iff_of_false List.not_mem_nil List.not_mem_nil
    · rw [List.mem_singleton.mp hs]
      exact .inl rfl
  obtain ⟨hvisits, hhas⟩ := Visits.advance h List.nodup_nil nofun hempty
  exact ⟨hvisits, fun r hr => (hhas r hr).1⟩

/-- The entry after the current one is a new one, and it exists. -/
theorem Visits.next {v : TreeView α} {visited : List (List α)} {c c' : Cursor α} {r : List α}
    (h : Visits visited c) (hnext : c.Next v r c') :
    Visits (visited ++ c'.it.toList) c' ∧ ∀ r', c'.it = some r' → v.has r' ∧ r' ∉ visited := by
  obtain ⟨hit, ⟨-, hadvance⟩ | ⟨-, hadvance⟩⟩ := hnext
  · obtain ⟨hmem, -, hdirs, hchildren⟩ := h.current r hit
    refine Visits.advance hadvance h.nodup h.parents ⟨fun s hs n => ?_, fun s hs => ?_, ?_⟩
    · rcases List.mem_cons.mp hs with rfl | hs
      · exact iff_of_false (hchildren n) List.not_mem_nil
      · exact h.streams.seen s hs n
    · rcases List.mem_cons.mp hs with rfl | hs
      · exact .inr hmem
      · exact h.streams.dirs s hs
    · exact List.pairwise_cons.mpr ⟨fun s hs => (hdirs s hs).symm, h.streams.distinct⟩
  · exact Visits.advance hadvance h.nodup h.parents h.streams

end Norns.Lib
