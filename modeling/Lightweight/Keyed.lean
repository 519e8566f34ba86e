import Mathlib.Logic.Function.Basic

/-! Machines that answer each input, and tables of them, one for each key. -/

namespace Lightweight.Keyed

variable {σ ι ο κ : Type}

/-- The answers to some inputs, with the inputs. -/
def answers (step : σ → ι → ο × σ) : σ → List ι → List (ι × ο)
  | _, [] => []
  | state, input :: inputs =>
      (input, (step state input).1) :: answers step (step state input).2 inputs

/-- The state behind some inputs. -/
def final (step : σ → ι → ο × σ) (state : σ) (inputs : List ι) : σ :=
  inputs.foldl (fun state input => (step state input).2) state

theorem answers_append (step : σ → ι → ο × σ) (state : σ) (first last : List ι) :
    answers step state (first ++ last) =
      answers step state first ++ answers step (final step state first) last := by
  induction first generalizing state with
  | nil => rfl
  | cons input inputs ih =>
      rw [List.cons_append, answers, ih, answers, List.cons_append]
      rfl

theorem length_answers (step : σ → ι → ο × σ) (state : σ) (inputs : List ι) :
    (answers step state inputs).length = inputs.length := by
  induction inputs generalizing state with
  | nil => rfl
  | cons input inputs ih => exact congrArg (· + 1) (ih _)

/-- What every step keeps holds at the end. -/
theorem final_invariant {step : σ → ι → ο × σ} {state : σ} {inputs : List ι} (invariant : σ → Prop)
    (base : invariant state)
    (kept : ∀ state, ∀ input ∈ inputs, invariant state → invariant (step state input).2) :
    invariant (final step state inputs) := by
  induction inputs generalizing state with
  | nil => exact base
  | cons input inputs ih =>
      apply ih (kept state input List.mem_cons_self base)
      exact fun state other member => kept state other (List.mem_cons_of_mem _ member)

/-- States that answer alike, and lead to states that do. -/
theorem answers_congr {step : σ → ι → ο × σ} {state other : σ} {inputs : List ι}
    (alike : σ → σ → Prop) (base : alike state other)
    (kept : ∀ state other, ∀ input ∈ inputs, alike state other →
      (step state input).1 = (step other input).1 ∧ alike (step state input).2 (step other input).2) :
    answers step state inputs = answers step other inputs := by
  induction inputs generalizing state other with
  | nil => rfl
  | cons input inputs ih =>
      obtain ⟨same, next⟩ := kept state other input List.mem_cons_self base
      rw [answers, answers, same]
      congr 1
      apply ih next
      exact fun state other input member => kept state other input (List.mem_cons_of_mem _ member)

section Table

variable [DecidableEq κ] (key : ι → κ) (step : σ → ι → ο × σ)

/-- A table of machines, of which an input concerns the one with its key. -/
def stepAt (table : κ → σ) (input : ι) : ο × (κ → σ) :=
  let (answer, state) := step (table (key input)) input
  (answer, Function.update table (key input) state)

/-- The answers for one key are those of its machine to its inputs. -/
theorem filter_answers (table : κ → σ) (inputs : List ι) (k : κ) :
    (answers (stepAt key step) table inputs).filter (fun answer => key answer.1 = k) =
      answers step (table k) (inputs.filter fun input => key input = k) := by
  induction inputs generalizing table with
  | nil => rfl
  | cons input inputs ih =>
      rw [answers, List.filter_cons, List.filter_cons, ih]
      by_cases here : key input = k
      · subst here
        rw [if_pos (decide_eq_true rfl), if_pos (decide_eq_true rfl), answers]
        simp only [stepAt, Function.update_self]
      · rw [if_neg (by simpa using here), if_neg (by simpa using here)]
        simp only [stepAt]
        rw [Function.update_of_ne (Ne.symm here)]

/-- The machine of one key behind some inputs has taken its own. -/
theorem final_stepAt (table : κ → σ) (inputs : List ι) (k : κ) :
    final (stepAt key step) table inputs k =
      final step (table k) (inputs.filter fun input => key input = k) := by
  induction inputs generalizing table with
  | nil => rfl
  | cons input inputs ih =>
      change final (stepAt key step) (stepAt key step table input).2 inputs k = _
      rw [ih, List.filter_cons]
      by_cases here : key input = k
      · subst here
        rw [if_pos (decide_eq_true rfl)]
        simp only [stepAt, Function.update_self]
        rfl
      · rw [if_neg (by simpa using here)]
        simp only [stepAt]
        rw [Function.update_of_ne (Ne.symm here)]

end Table

end Lightweight.Keyed
