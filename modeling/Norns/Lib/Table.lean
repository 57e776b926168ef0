import Mathlib.Data.List.AList
import Mathlib.Tactic

/-! # Hash maps with unique keys

`std::unordered_map` as an association list without duplicate keys (`AList`).  `emplace` never
overwrites; `countIf` is `std::count_if` over the values.  Nothing here depends on the order of
the entries. -/

namespace Norns.Lib

variable {κ α : Type} [DecidableEq κ]

/-- A map from `κ` to `α`. -/
abbrev Table (κ α : Type) := AList (fun _ : κ => α)

namespace Table

/-- `unordered_map::emplace`: insert unless the key is taken. -/
def emplace (k : κ) (a : α) (t : Table κ α) : Table κ α := if k ∈ t then t else t.insert k a

/-- `std::count_if` over the values. -/
def countIf (p : α → Bool) (t : Table κ α) : ℕ := t.entries.countP (fun e => p e.2)

theorem emplace_of_notMem {k : κ} {a : α} {t : Table κ α} (h : k ∉ t) :
    t.emplace k a = t.insert k a := by
  simp [emplace, h]

theorem lookup_emplace_of_notMem {k k' : κ} {a : α} {t : Table κ α} (h : k ∉ t) :
    (t.emplace k a).lookup k' = if k' = k then some a else t.lookup k' := by
  rw [emplace_of_notMem h]
  split_ifs with hk
  · subst hk
    exact AList.lookup_insert t
  · exact AList.lookup_insert_ne hk

theorem lookup_emplace (k k' : κ) (a : α) (t : Table κ α) :
    (t.emplace k a).lookup k' = (t.lookup k').or (if k' = k then some a else none) := by
  by_cases hmem : k ∈ t
  · rw [emplace, if_pos hmem]
    split_ifs with hk
    · subst hk
      obtain ⟨b, hb⟩ := Option.isSome_iff_exists.mp (AList.lookup_isSome.mpr hmem)
      rw [hb, Option.some_or]
    · rw [Option.or_none]
  · rw [lookup_emplace_of_notMem hmem]
    split_ifs with hk
    · subst hk
      rw [AList.lookup_eq_none.mpr hmem, Option.none_or]
    · rw [Option.or_none]

theorem emplace_ne_self {k : κ} {a : α} {t : Table κ α} (h : k ∉ t) : t.emplace k a ≠ t := by
  intro he
  have hl : (t.emplace k a).lookup k = some a := by
    rw [lookup_emplace_of_notMem h, if_pos rfl]
  rw [he, AList.lookup_eq_none.mpr h] at hl
  cases hl

theorem erase_emplace_of_notMem {k : κ} {a : α} {t : Table κ α} (h : k ∉ t) :
    AList.erase k (t.emplace k a) = t := by
  rw [emplace_of_notMem h]
  apply AList.ext
  show List.kerase k (AList.insert k a t).entries = t.entries
  rw [AList.entries_insert_of_notMem h]
  exact List.kerase_cons_eq rfl

theorem lookup_erase' (k k' : κ) (t : Table κ α) :
    (t.erase k).lookup k' = if k' = k then none else t.lookup k' := by
  split_ifs with hk
  · subst hk
    exact AList.lookup_erase k' t
  · exact AList.lookup_erase_ne hk

theorem lookup_replace (k k' : κ) (a : α) (t : Table κ α) :
    (t.replace k a).lookup k' = if k' = k then (t.lookup k).map fun _ => a else t.lookup k' := by
  obtain ⟨l, hl⟩ := t
  show (l.kreplace k a).dlookup k' = if k' = k then (l.dlookup k).map fun _ => a else l.dlookup k'
  clear hl
  induction l with
  | nil => simp [List.kreplace]
  | cons e l ih =>
      obtain ⟨k₀, a₀⟩ := e
      by_cases hk₀ : k = k₀
      · subst hk₀
        by_cases hk : k' = k
        · subst hk
          simp [List.kreplace]
        · simp [List.kreplace, hk]
      · have hcons : List.kreplace k a (⟨k₀, a₀⟩ :: l) = ⟨k₀, a₀⟩ :: l.kreplace k a := by
          simp [List.kreplace, hk₀]
        rw [hcons, List.dlookup_cons_ne l ⟨k₀, a₀⟩ hk₀]
        by_cases hk' : k' = k₀
        · subst hk'
          rw [List.dlookup_cons_eq, List.dlookup_cons_eq, if_neg (Ne.symm hk₀)]
        · rw [List.dlookup_cons_ne _ _ hk', List.dlookup_cons_ne _ _ hk', ih]

/-- The map with every value replaced by what `f` makes of it, without those it makes nothing of. -/
def filterMap {β : Type} (f : α → Option β) (t : Table κ α) : Table κ β where
  entries := t.entries.filterMap fun e => (f e.2).map (Sigma.mk e.1)
  nodupKeys := by
    have hsub : ∀ l : List (Sigma fun _ : κ => α),
        (l.filterMap fun e => (f e.2).map (Sigma.mk (β := fun _ : κ => β) e.1)).keys.Sublist
          l.keys := by
      intro l
      induction l with
      | nil => exact List.Sublist.refl _
      | cons e l ih =>
          cases he : f e.2 with
          | none =>
              rw [List.filterMap_cons_none (by simp [he])]
              exact ih.cons e.1
          | some b =>
              rw [List.filterMap_cons_some (b := ⟨e.1, b⟩) (by simp [he])]
              exact ih.cons_cons e.1
    exact (hsub t.entries).nodup t.nodupKeys

theorem lookup_filterMap {β : Type} (f : α → Option β) (t : Table κ α) (k : κ) :
    (t.filterMap f).lookup k = (t.lookup k).bind f := by
  apply Option.ext
  intro b
  rw [← Option.mem_def, AList.mem_lookup_iff, Option.bind_eq_some_iff]
  constructor
  · intro h
    obtain ⟨⟨k', a⟩, he, hb⟩ := List.mem_filterMap.mp h
    obtain ⟨b', hb', heq⟩ := Option.map_eq_some_iff.mp hb
    cases heq
    exact ⟨a, AList.mem_lookup_iff.mpr he, hb'⟩
  · rintro ⟨a, ha, hb⟩
    exact List.mem_filterMap.mpr ⟨⟨k, a⟩, AList.mem_lookup_iff.mp ha, by simp [hb]⟩

/-- A map that leads no two keys to the same value has at most as many entries as there are
values. -/
theorem length_le_card [DecidableEq α] {t : Table κ α} {S : Finset α}
    (hinj : ∀ k k' a, t.lookup k = some a → t.lookup k' = some a → k = k')
    (hmem : ∀ k a, t.lookup k = some a → a ∈ S) : t.entries.length ≤ S.card := by
  have hlookup : ∀ e ∈ t.entries, t.lookup e.1 = some e.2 := fun e he =>
    AList.mem_lookup_iff.mpr he
  have hnodup : (t.entries.map (·.2)).Nodup := by
    refine List.Nodup.map_on ?_ (List.NodupKeys.nodup t.nodupKeys)
    rintro ⟨k, a⟩ he ⟨k', a'⟩ he' rfl
    rw [hinj k k' a (hlookup _ he) (hlookup _ he')]
  calc t.entries.length = (t.entries.map (·.2)).toFinset.card := by
        rw [List.toFinset_card_of_nodup hnodup, List.length_map]
    _ ≤ S.card := by
        refine Finset.card_le_card fun a ha => ?_
        obtain ⟨e, he, rfl⟩ := List.mem_map.mp (List.mem_toFinset.mp ha)
        exact hmem e.1 e.2 (hlookup e he)

end Table
end Norns.Lib
