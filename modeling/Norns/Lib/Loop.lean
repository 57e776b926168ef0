import Mathlib.Tactic

/-! # Loops

A loop is given by what one pass does: it goes on with a new state, or it leaves with a result.
The passes are numbered, so that a pass can depend on what the outside answers the next time it is
asked.  `runLoop` runs a loop on fuel and `LoopEnds` says that some fuel is enough.

* `LoopEnds.invariant`: what every pass keeps is known of the result.
* `not_loopEnds`: a loop that can always go on never ends.
* `exists_pass`: a loop that does not end goes through a state at every pass.
* `eventually_constant`: what such a loop counts up to a bound comes to rest. -/

namespace Norns.Lib

/-- What a pass leads to. -/
inductive Pass (σ ρ : Type) where
  | next (s : σ)
  | leave (r : ρ)
deriving DecidableEq, Repr

variable {σ ρ : Type} {body : ℕ → σ → Pass σ ρ}

/-- The loop from the pass `i` on. -/
def runLoop (body : ℕ → σ → Pass σ ρ) : ℕ → ℕ → σ → Option ρ
  | 0, _, _ => none
  | fuel + 1, i, s =>
      match body i s with
      | .next s' => runLoop body fuel (i + 1) s'
      | .leave r => some r

/-- The loop ends with `r`. -/
def LoopEnds (body : ℕ → σ → Pass σ ρ) (i : ℕ) (s : σ) (r : ρ) : Prop :=
  ∃ fuel, runLoop body fuel i s = some r

theorem runLoop_leave {i : ℕ} {s : σ} {r : ρ} (h : body i s = .leave r) (fuel : ℕ) :
    runLoop body (fuel + 1) i s = some r := by
  rw [runLoop, h]

theorem runLoop_next {i : ℕ} {s s' : σ} (h : body i s = .next s') (fuel : ℕ) :
    runLoop body (fuel + 1) i s = runLoop body fuel (i + 1) s' := by
  rw [runLoop, h]

theorem loopEnds_leave {i : ℕ} {s : σ} {r r' : ρ} (h : body i s = .leave r) :
    LoopEnds body i s r' ↔ r' = r := by
  constructor
  · rintro ⟨fuel, hrun⟩
    cases fuel with
    | zero => cases hrun
    | succ fuel =>
        rw [runLoop_leave h] at hrun
        exact (Option.some.inj hrun).symm
  · rintro rfl
    exact ⟨1, runLoop_leave h 0⟩

theorem loopEnds_next {i : ℕ} {s s' : σ} {r : ρ} (h : body i s = .next s') :
    LoopEnds body i s r ↔ LoopEnds body (i + 1) s' r := by
  constructor
  · rintro ⟨fuel, hrun⟩
    cases fuel with
    | zero => cases hrun
    | succ fuel =>
        rw [runLoop_next h] at hrun
        exact ⟨fuel, hrun⟩
  · rintro ⟨fuel, hrun⟩
    exact ⟨fuel + 1, by rw [runLoop_next h, hrun]⟩

/-- What holds at the first pass and is kept by every pass tells something about the result. -/
theorem LoopEnds.invariant {P : ℕ → σ → Prop} {Q : ρ → Prop} {i : ℕ} {s : σ} {r : ρ}
    (h : LoopEnds body i s r) (hs : P i s)
    (hnext : ∀ i s s', P i s → body i s = .next s' → P (i + 1) s')
    (hleave : ∀ i s r, P i s → body i s = .leave r → Q r) : Q r := by
  obtain ⟨fuel, hrun⟩ := h
  induction fuel generalizing i s with
  | zero => cases hrun
  | succ fuel ih =>
      cases hb : body i s with
      | next s' =>
          rw [runLoop_next hb] at hrun
          exact ih (hnext i s s' hs hb) hrun
      | leave r' =>
          rw [runLoop_leave hb] at hrun
          obtain rfl := Option.some.inj hrun
          exact hleave i s _ hs hb

/-- A loop ends in one way. -/
theorem LoopEnds.unique {i : ℕ} {s : σ} {r r' : ρ} (h : LoopEnds body i s r)
    (h' : LoopEnds body i s r') : r = r' := by
  refine h.invariant (P := fun i s => LoopEnds body i s r') (Q := fun r => r = r') h' ?_ ?_
  · intro i s s' hends hb
    exact (loopEnds_next hb).mp hends
  · intro i s r hends hb
    exact ((loopEnds_leave hb).mp hends).symm

/-- A loop that can always go on never ends. -/
theorem not_loopEnds {P : ℕ → σ → Prop} {i : ℕ} {s : σ} (hs : P i s)
    (hnext : ∀ i s, P i s → ∃ s', body i s = .next s' ∧ P (i + 1) s') (r : ρ) :
    ¬ LoopEnds body i s r := by
  intro h
  refine h.invariant (Q := fun _ => False) hs ?_ ?_
  · intro i s s' hP hb
    obtain ⟨s'', hb', hP'⟩ := hnext i s hP
    obtain rfl := Pass.next.inj (hb.symm.trans hb')
    exact hP'
  · intro i s r hP hb
    obtain ⟨s', hb', -⟩ := hnext i s hP
    cases hb.symm.trans hb'

/-- A loop that does not end comes to every pass, in a state of which all is known that passes
keep. -/
theorem exists_pass {P : ℕ → σ → Prop} {s : σ} (hs : P 0 s) (hends : ∀ r, ¬ LoopEnds body 0 s r)
    (hnext : ∀ i s s', P i s → body i s = .next s' → P (i + 1) s') (i : ℕ) :
    ∃ s s', P i s ∧ body i s = .next s' := by
  have hpass : ∀ i, ∃ s, P i s ∧ ∀ r, ¬ LoopEnds body i s r := by
    intro i
    induction i with
    | zero => exact ⟨s, hs, hends⟩
    | succ i ih =>
        obtain ⟨s, hP, hends⟩ := ih
        cases hb : body i s with
        | leave r => exact absurd ((loopEnds_leave hb).mpr rfl) (hends r)
        | next s' => exact ⟨s', hnext i s s' hP hb, fun r => (loopEnds_next hb).not.mp (hends r)⟩
  obtain ⟨s, hP, hends⟩ := hpass i
  cases hb : body i s with
  | leave r => exact absurd ((loopEnds_leave hb).mpr rfl) (hends r)
  | next s' => exact ⟨s, s', hP, hb⟩

/-- A sequence that does not fall and stays below a bound does not rise for ever. -/
theorem eventually_constant {f : ℕ → ℕ} {b : ℕ} (hmono : ∀ i, f i ≤ f (i + 1)) (hb : ∀ i, f i < b) :
    ∃ n, ∀ i ≥ n, f (i + 1) = f i := by
  by_contra hnot
  push Not at hnot
  have hgrow : ∀ k, ∃ i, k ≤ f i := by
    intro k
    induction k with
    | zero => exact ⟨0, Nat.zero_le _⟩
    | succ k ih =>
        obtain ⟨i, hi⟩ := ih
        obtain ⟨j, hj, hne⟩ := hnot i
        have hij : f i ≤ f j := monotone_nat_of_le_succ hmono hj
        have hstep := hmono j
        exact ⟨j + 1, by omega⟩
  obtain ⟨i, hi⟩ := hgrow b
  exact absurd (hb i) (by omega)

end Norns.Lib
