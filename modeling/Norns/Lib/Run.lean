import Mathlib.Logic.Relation
import Mathlib.Tactic

/-! # Runs of a transition system

A system is a step relation on a type of states; `Run step s s'` says that `s'` is reached from
`s` by finitely many steps.  The two rules used everywhere: what every step keeps, every run
keeps (`Run.invariant`), and a system whose steps decrease a measure can only be run to a state
without a further step (`exists_final`).  `Guarded step ok` restricts a system to the steps that
meet a condition on the state before them. -/

namespace Norns.Lib

variable {σ : Type}

/-- `s'` is reached from `s` by finitely many steps. -/
abbrev Run (step : σ → σ → Prop) : σ → σ → Prop := Relation.ReflTransGen step

/-- The steps of a system that meet a condition on the state before the step and on the step. -/
def Guarded (step : σ → σ → Prop) (ok : σ → σ → Prop) (s s' : σ) : Prop := step s s' ∧ ok s s'

/-- No step leaves `s`. -/
def Final (step : σ → σ → Prop) (s : σ) : Prop := ∀ s', ¬ step s s'

theorem Run.invariant {step : σ → σ → Prop} {P : σ → Prop}
    (hstep : ∀ s s', P s → step s s' → P s') {s s' : σ} (h : Run step s s') (hs : P s) : P s' := by
  induction h with
  | refl => exact hs
  | tail _ hst ih => exact hstep _ _ ih hst

theorem Run.of_guarded {step ok : σ → σ → Prop} {s s' : σ} (h : Run (Guarded step ok) s s') :
    Run step s s' := by
  induction h with
  | refl => exact .refl
  | tail _ hst ih => exact ih.tail hst.1

theorem exists_final {step : σ → σ → Prop} (μ : σ → ℕ)
    (hdec : ∀ s s', step s s' → μ s' < μ s) (s : σ) : ∃ s', Run step s s' ∧ Final step s' := by
  induction hn : μ s using Nat.strong_induction_on generalizing s with
  | _ n ih =>
      by_cases hf : Final step s
      · exact ⟨s, Relation.ReflTransGen.refl, hf⟩
      · obtain ⟨s₁, h₁⟩ := not_forall_not.mp hf
        obtain ⟨s₂, hrun, hfin⟩ := ih (μ s₁) (hn ▸ hdec s s₁ h₁) s₁ rfl
        exact ⟨s₂, Relation.ReflTransGen.head h₁ hrun, hfin⟩

end Norns.Lib
