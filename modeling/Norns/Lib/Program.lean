import Norns.Lib.Run

/-! # Programs that call

A program returns, or it makes a call and goes on with the answer.  The program does not say what
a call does: that is the part of an `Interp`, which relates a call and the state to the answers
and the states after it, and also says what can happen while the call is under way.

`Program.Step` is one step of a program in a state, so that other threads can be put between any
two of them; `Program.Trace` is a sequence of steps together with the calls that were answered.
Where the answers are known beforehand, `Program.eval` is what the program returns; where they are
not, `Program.Ensures` is what is known of it, with one rule for each constructor. -/

namespace Norns.Lib

/-- A program with calls from `Op`; the call `op` is answered with a `Res op`. -/
inductive Program (Op : Type) (Res : Op → Type) (α : Type) where
  | ret (a : α)
  | call (op : Op) (next : Res op → Program Op Res α)

namespace Program

variable {Op : Type} {Res : Op → Type} {α β σ : Type}

def bind : Program Op Res α → (α → Program Op Res β) → Program Op Res β
  | ret a, f => f a
  | call op next, f => call op fun r => (next r).bind f

instance : Monad (Program Op Res) where
  pure := ret
  bind := bind

/-- The program that makes one call and returns its answer. -/
def perform (op : Op) : Program Op Res (Res op) := call op ret

/-- What a program returns if the call `op` is answered with `os op`. -/
def eval (os : (op : Op) → Res op) : Program Op Res α → α
  | ret a => a
  | call op next => (next (os op)).eval os

/-- The calls that it makes then, in order. -/
def made (os : (op : Op) → Res op) : Program Op Res α → List Op
  | ret _ => []
  | call op next => op :: (next (os op)).made os

/-- What calls do to a state. -/
structure Interp (Op : Type) (Res : Op → Type) (σ : Type) where
  /-- the call returns. -/
  answer : (op : Op) → σ → Res op → σ → Prop
  /-- the call changes the state before it returns. -/
  within : Op → σ → σ → Prop

/-- One step of a program. -/
inductive Step (I : Interp Op Res σ) : Program Op Res α × σ → Program Op Res α × σ → Prop
  | answer {op : Op} {next : Res op → Program Op Res α} {s s' : σ} {r : Res op}
      (h : I.answer op s r s') : Step I (call op next, s) (next r, s')
  | within {op : Op} {next : Res op → Program Op Res α} {s s' : σ}
      (h : I.within op s s') : Step I (call op next, s) (call op next, s')

/-- A run with the calls that were answered, in order. -/
inductive Trace (I : Interp Op Res σ) (c : Program Op Res α × σ) :
    List (Sigma Res) → Program Op Res α × σ → Prop
  | refl : Trace I c [] c
  | answer {op : Op} {next : Res op → Program Op Res α} {s s' : σ} {r : Res op}
      {es : List (Sigma Res)} (htrace : Trace I c es (call op next, s))
      (h : I.answer op s r s') : Trace I c (es ++ [⟨op, r⟩]) (next r, s')
  | within {op : Op} {next : Res op → Program Op Res α} {s s' : σ} {es : List (Sigma Res)}
      (htrace : Trace I c es (call op next, s)) (h : I.within op s s') :
      Trace I c es (call op next, s')

variable {I : Interp Op Res σ}

/-- What holds at the start and is kept by answers and by what happens within calls holds all
along a trace. -/
theorem Trace.invariant {P : List (Sigma Res) → Program Op Res α → σ → Prop}
    {c c' : Program Op Res α × σ} {es : List (Sigma Res)} (h : Trace I c es c')
    (hinit : P [] c.1 c.2)
    (hanswer : ∀ es op next s r s', P es (call op next) s → I.answer op s r s' →
      P (es ++ [⟨op, r⟩]) (next r) s')
    (hwithin : ∀ es op next s s', P es (call op next) s → I.within op s s' →
      P es (call op next) s') : P es c'.1 c'.2 := by
  induction h with
  | refl => exact hinit
  | answer _ h ih => exact hanswer _ _ _ _ _ _ ih h
  | within _ h ih => exact hwithin _ _ _ _ _ ih h

/-- A call that is answered comes before the trace of what follows. -/
theorem Trace.head {op : Op} {next : Res op → Program Op Res α} {s s' : σ} {r : Res op}
    {es : List (Sigma Res)} {c : Program Op Res α × σ} (h : I.answer op s r s')
    (htrace : Trace I (next r, s') es c) : Trace I (call op next, s) (⟨op, r⟩ :: es) c := by
  induction htrace with
  | refl => exact Trace.refl.answer h
  | answer _ ha ih => exact ih.answer ha
  | within _ hw ih => exact ih.within hw

/-- A program that has returned does nothing more. -/
theorem Trace.of_ret {a : α} {s : σ} {es : List (Sigma Res)} {c : Program Op Res α × σ}
    (h : Trace I (ret a, s) es c) : es = [] ∧ c = (ret a, s) := by
  generalize hc : (ret a, s) = c₀ at h
  induction h with
  | refl => exact ⟨rfl, rfl⟩
  | answer _ _ ih =>
      obtain ⟨-, h⟩ := ih
      rw [← hc] at h
      cases h
  | within _ _ ih =>
      obtain ⟨-, h⟩ := ih
      rw [← hc] at h
      cases h

/-- A run of a call is still at the call, where what other threads keep still holds, or it has got
an answer and gone on with it. -/
theorem Trace.of_call {P : σ → Prop} {op : Op} {next : Res op → Program Op Res α} {s : σ}
    {es : List (Sigma Res)} {c : Program Op Res α × σ} (h : Trace I (call op next, s) es c)
    (hs : P s) (hwithin : ∀ s s', P s → I.within op s s' → P s') :
    (∃ s', P s' ∧ c = (call op next, s')) ∨
    ∃ s₁ r s₂ es', P s₁ ∧ I.answer op s₁ r s₂ ∧ Trace I (next r, s₂) es' c := by
  induction h with
  | refl => exact Or.inl ⟨s, hs, rfl⟩
  | answer _ ha ih =>
      obtain ⟨s', hs', hc⟩ | ⟨s₁, r, s₂, es', hs₁, hr, hrest⟩ := ih
      · cases hc
        exact Or.inr ⟨_, _, _, [], hs', ha, .refl⟩
      · exact Or.inr ⟨s₁, r, s₂, _, hs₁, hr, hrest.answer ha⟩
  | within _ hw ih =>
      obtain ⟨s', hs', hc⟩ | ⟨s₁, r, s₂, es', hs₁, hr, hrest⟩ := ih
      · cases hc
        exact Or.inl ⟨_, hwithin _ _ hs' hw, rfl⟩
      · exact Or.inr ⟨s₁, r, s₂, _, hs₁, hr, hrest.within hw⟩

/-- Whatever the program returns if it is started in `s`, it returns with `Q`. -/
def Ensures (I : Interp Op Res σ) (p : Program Op Res α) (s : σ) (Q : α → σ → Prop) : Prop :=
  ∀ es a s', Trace I (p, s) es (ret a, s') → Q a s'

theorem ensures_ret {a : α} {s : σ} {Q : α → σ → Prop} (h : Q a s) : Ensures I (ret a) s Q := by
  intro es b s' htrace
  obtain ⟨-, hc⟩ := htrace.of_ret
  cases hc
  exact h

theorem ensures_call {P : σ → Prop} {op : Op} {next : Res op → Program Op Res α} {s : σ}
    {Q : α → σ → Prop} (hs : P s) (hwithin : ∀ s s', P s → I.within op s s' → P s')
    (hanswer : ∀ s r s', P s → I.answer op s r s' → Ensures I (next r) s' Q) :
    Ensures I (call op next) s Q := by
  intro es a s' htrace
  obtain ⟨s₁, -, hc⟩ | ⟨s₁, r, s₂, es', hs₁, hr, hrest⟩ := htrace.of_call hs hwithin
  · cases hc
  · exact hanswer s₁ r s₂ hs₁ hr es' a s' hrest

end Program

end Norns.Lib
