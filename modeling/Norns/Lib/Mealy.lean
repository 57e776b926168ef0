import Mathlib.Tactic

/-! # Machines that answer

A machine takes one input after the other; each changes its state and gets an answer.  Two machines
that keep a relation between their states and answer alike in related states give the same answers
to every sequence (`answers_eq_of_simulation`).  A machine of several parts answers the inputs for
one part as if there were no others (`answersTo_eq_answers_filter`). -/

namespace Norns.Lib

variable {σ τ ι ο : Type}

/-- The answers to a sequence of inputs. -/
def answers (step : σ → ι → σ × ο) : σ → List ι → List ο
  | _, [] => []
  | s, i :: is => (step s i).2 :: answers step (step s i).1 is

/-- The answers to those inputs of a sequence that meet `p`. -/
def answersTo (step : σ → ι → σ × ο) (p : ι → Bool) : σ → List ι → List ο
  | _, [] => []
  | s, i :: is =>
      if p i then (step s i).2 :: answersTo step p (step s i).1 is
      else answersTo step p (step s i).1 is

/-- The state after a sequence of inputs. -/
def after (step : σ → ι → σ × ο) (s : σ) (is : List ι) : σ := is.foldl (fun s i => (step s i).1) s

/-- The rule of simulation, for inputs that meet `ok`. -/
theorem answers_eq_of_simulation {step : σ → ι → σ × ο} {step' : τ → ι → τ × ο}
    {R : σ → τ → Prop} {ok : ι → Prop}
    (hstep : ∀ s t i, ok i → R s t →
      (step s i).2 = (step' t i).2 ∧ R (step s i).1 (step' t i).1)
    {s : σ} {t : τ} (h : R s t) {is : List ι} (his : ∀ i ∈ is, ok i) :
    answers step s is = answers step' t is := by
  induction is generalizing s t with
  | nil => rfl
  | cons i is ih =>
      obtain ⟨hanswer, hR⟩ := hstep s t i (his i List.mem_cons_self) h
      rw [answers, answers, hanswer, ih hR fun i hi => his i (List.mem_cons_of_mem _ hi)]

/-- The states stay related. -/
theorem after_of_simulation {step : σ → ι → σ × ο} {step' : τ → ι → τ × ο} {R : σ → τ → Prop}
    {ok : ι → Prop} (hstep : ∀ s t i, ok i → R s t → R (step s i).1 (step' t i).1)
    {s : σ} {t : τ} (h : R s t) {is : List ι} (his : ∀ i ∈ is, ok i) :
    R (after step s is) (after step' t is) := by
  induction is generalizing s t with
  | nil => exact h
  | cons i is ih =>
      exact ih (hstep s t i (his i List.mem_cons_self) h) fun i hi =>
        his i (List.mem_cons_of_mem _ hi)

/-- A system that makes steps of its own and takes the inputs of a machine with some of them. -/
theorem after_filterMap_of_simulation {ε : Type} {next : ε → τ → τ} {step : σ → ι → σ × ο}
    {input : ε → Option ι} {R : σ → τ → Prop} {ok : ι → Prop}
    (hinput : ∀ s t e i, input e = some i → ok i → R s t → R (step s i).1 (next e t))
    (hsilent : ∀ s t e, input e = none → R s t → R s (next e t))
    {s : σ} {t : τ} (h : R s t) {es : List ε} (hes : ∀ i ∈ es.filterMap input, ok i) :
    R (after step s (es.filterMap input)) (es.foldl (fun t e => next e t) t) := by
  induction es generalizing s t with
  | nil => exact h
  | cons e es ih =>
      cases he : input e with
      | none =>
          rw [List.filterMap_cons_none he] at hes ⊢
          exact ih (hsilent s t e he h) hes
      | some i =>
          rw [List.filterMap_cons_some he] at hes ⊢
          exact ih (hinput s t e i he (hes i List.mem_cons_self) h) fun j hj =>
            hes j (List.mem_cons_of_mem _ hj)

/-- `R` compares the part that the inputs with `p` are about. -/
theorem answersTo_eq_answers_filter {step : σ → ι → σ × ο} {p : ι → Bool} {R : σ → σ → Prop}
    (hmine : ∀ s t i, p i = true → R s t →
      (step s i).2 = (step t i).2 ∧ R (step s i).1 (step t i).1)
    (hother : ∀ s t i, p i = false → R s t → R (step s i).1 t)
    {s t : σ} (h : R s t) (is : List ι) :
    answersTo step p s is = answers step t (is.filter p) := by
  induction is generalizing s t with
  | nil => rfl
  | cons i is ih =>
      cases hp : p i with
      | true =>
          obtain ⟨hanswer, hR⟩ := hmine s t i hp h
          rw [answersTo, if_pos hp, List.filter_cons_of_pos hp, answers, hanswer, ih hR]
      | false =>
          have hp' : ¬ p i = true := by simp [hp]
          rw [answersTo, if_neg hp', List.filter_cons_of_neg hp', ih (hother s t i hp h)]

end Norns.Lib
