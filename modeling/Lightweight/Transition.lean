import Mathlib.Logic.Function.Basic

/-! Guarded step functions and what whole runs of them preserve. An action that is not enabled in
a state has no successor. -/

namespace Lightweight.Transition

variable {σ α : Type} (step : σ → α → Option σ)

def run : σ → List α → Option σ
  | s, [] => some s
  | s, action :: rest => (step s action).bind fun t => run t rest

/-- `t` is reached from `s` by a run every step of which meets `ok` in the state before it. -/
inductive Reaches (ok : σ → α → Prop) (s : σ) : σ → Prop where
  | start : Reaches ok s s
  | next {t u : σ} {action : α} : Reaches ok s t → ok t action → step t action = some u →
      Reaches ok s u

/-- No condition on the steps of a run. -/
def Always : σ → α → Prop := fun _ _ => True

variable {step}

theorem Reaches.invariant {ok : σ → α → Prop} {s t : σ} (inv : σ → Prop) (base : inv s)
    (kept : ∀ s action t, ok s action → inv s → step s action = some t → inv t)
    (reached : Reaches step ok s t) : inv t := by
  induction reached with
  | start => exact base
  | next _ met stepped ih => exact kept _ _ _ met ih stepped

/-- One more step, by the action named. -/
theorem Reaches.act {ok : σ → α → Prop} {s t u : σ} (reached : Reaches step ok s t) (action : α)
    (met : ok t action) (stepped : step t action = some u) : Reaches step ok s u :=
  .next reached met stepped

theorem Reaches.trans {ok : σ → α → Prop} {s t u : σ} (first : Reaches step ok s t)
    (second : Reaches step ok t u) : Reaches step ok s u := by
  induction second with
  | start => exact first
  | next _ met stepped ih => exact .next ih met stepped

theorem run_reaches {s t : σ} {actions : List α} (ran : run step s actions = some t) :
    Reaches step Always s t := by
  induction actions generalizing s with
  | nil =>
      cases ran
      exact .start
  | cons action rest ih =>
      obtain ⟨u, stepped, tail⟩ := Option.bind_eq_some_iff.mp ran
      exact (Reaches.next .start trivial stepped).trans (ih tail)

/-- A run that stops short of a step that does not meet `ok`. -/
def runMeeting (step : σ → α → Option σ) (ok : σ → α → Prop) [∀ s action, Decidable (ok s action)] :
    σ → List α → Option σ
  | s, [] => some s
  | s, action :: rest =>
      if ok s action then (step s action).bind fun t => runMeeting step ok t rest else none

theorem runMeeting_reaches {ok : σ → α → Prop} [∀ s action, Decidable (ok s action)] {s t : σ}
    {actions : List α} (ran : runMeeting step ok s actions = some t) : Reaches step ok s t := by
  induction actions generalizing s with
  | nil =>
      cases ran
      exact .start
  | cons action rest ih =>
      simp only [runMeeting, Option.ite_none_right_eq_some] at ran
      obtain ⟨u, stepped, tail⟩ := Option.bind_eq_some_iff.mp ran.2
      exact (Reaches.next .start ran.1 stepped).trans (ih tail)

/-- Where the steps that meet `ok` are just those that keep `inv`, the runs that meet it are just
those that `inv` holds along. -/
theorem runMeeting_iff {ok : σ → α → Prop} [∀ s action, Decidable (ok s action)] (inv : σ → Prop)
    (exact : ∀ s action t, inv s → step s action = some t → (ok s action ↔ inv t)) {s t : σ}
    {actions : List α} (base : inv s) (ran : run step s actions = some t) :
    (∀ begun u, begun <+: actions → run step s begun = some u → inv u) ↔
      runMeeting step ok s actions = some t := by
  induction actions generalizing s with
  | nil =>
      cases ran
      simp only [runMeeting, iff_true]
      intro begun u begins ended
      rw [List.prefix_nil.mp begins] at ended
      cases ended
      exact base
  | cons action rest ih =>
      obtain ⟨first, stepped, tail⟩ := Option.bind_eq_some_iff.mp ran
      have met := exact s action first base stepped
      simp only [runMeeting, Option.ite_none_right_eq_some, stepped, Option.bind_some]
      constructor
      · intro along
        have kept : inv first := by
          refine along [action] first (List.prefix_append [action] rest) ?_
          simp only [run, stepped, Option.bind_some]
        refine ⟨met.mpr kept, (ih kept tail).mp ?_⟩
        intro begun u begins ended
        apply along (action :: begun) u (List.cons_prefix_cons.mpr ⟨rfl, begins⟩)
        simp only [run, stepped, Option.bind_some, ended]
      · intro meets begun u begins ended
        cases begun with
        | nil =>
            cases ended
            exact base
        | cons head begun =>
            obtain ⟨rfl, shorter⟩ := List.cons_prefix_cons.mp begins
            simp only [run, stepped, Option.bind_some] at ended
            exact (ih (met.mp meets.1) tail).mpr meets.2 begun u shorter ended

end Lightweight.Transition
