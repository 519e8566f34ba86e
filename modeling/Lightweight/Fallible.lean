import Mathlib.Tactic.TypeStar

/-! Computations over a state that may fail, and rules for what their results have in common. The
state is kept when they fail, as it is behind a mutable reference. -/

namespace Lightweight.Fallible

variable {σ ε α β : Type}

/-- Fails under a condition. -/
def refuseIf (condition : Prop) [Decidable condition] (error : ε) : EStateM ε σ Unit :=
  if condition then throw error else pure ()

/-- The value of an option, an error for none. -/
def okOr (value : Option α) (error : ε) : EStateM ε σ α :=
  match value with
  | some value => pure value
  | none => throw error

/-- A computation that leaves the state alone. -/
def propagate : Except ε α → EStateM ε σ α
  | .ok value => pure value
  | .error error => throw error

/-- What a computation gives when the state it ends in is dropped. -/
def outcome (m : EStateM ε σ α) (start : σ) : Except ε α :=
  match m start with
  | .ok value _ => .ok value
  | .error error _ => .error error

/-- Every result of a computation has the property, whatever state it starts in. -/
structure Yields (m : EStateM ε σ α) (property : α → Prop) : Prop where
  result : ∀ start value final, m start = .ok value final → property value

theorem bind_eq_ok {m : EStateM ε σ α} {next : α → EStateM ε σ β} {start final : σ} {result : β} :
    (m >>= next) start = .ok result final ↔
      ∃ value middle, m start = .ok value middle ∧ next value middle = .ok result final := by
  change EStateM.bind m next start = _ ↔ _
  unfold EStateM.bind
  cases m start with
  | ok value middle =>
      constructor
      · exact fun computed => ⟨value, middle, rfl, computed⟩
      · rintro ⟨_, _, ⟨⟩, computed⟩
        exact computed
  | error error middle => simp

theorem refuseIf_eq_ok {condition : Prop} [Decidable condition] {error : ε} {start final : σ}
    {value : Unit} :
    (refuseIf condition error : EStateM ε σ Unit) start = .ok value final ↔
      ¬condition ∧ final = start := by
  by_cases refused : condition
  · rw [refuseIf, if_pos refused]
    constructor
    · rintro ⟨⟩
    · exact fun passed => absurd refused passed.1
  · rw [refuseIf, if_neg refused]
    constructor
    · rintro ⟨⟩
      exact ⟨refused, rfl⟩
    · rintro ⟨-, rfl⟩
      rfl

theorem refuseIf_eq_error {condition : Prop} [Decidable condition] {error found : ε}
    {start final : σ} :
    (refuseIf condition error : EStateM ε σ Unit) start = .error found final ↔
      condition ∧ found = error ∧ final = start := by
  by_cases refused : condition
  · rw [refuseIf, if_pos refused]
    constructor
    · rintro ⟨⟩
      exact ⟨refused, rfl, rfl⟩
    · rintro ⟨-, rfl, rfl⟩
      rfl
  · rw [refuseIf, if_neg refused]
    constructor
    · rintro ⟨⟩
    · exact fun refusal => absurd refusal.1 refused

theorem bind_eq_error {m : EStateM ε σ α} {next : α → EStateM ε σ β} {start final : σ} {error : ε} :
    (m >>= next) start = .error error final ↔ m start = .error error final ∨
      ∃ value middle, m start = .ok value middle ∧ next value middle = .error error final := by
  change EStateM.bind m next start = _ ↔ _
  unfold EStateM.bind
  cases m start with
  | ok value middle =>
      constructor
      · exact fun failed => Or.inr ⟨value, middle, rfl, failed⟩
      · rintro (⟨⟨⟩⟩ | ⟨_, _, ⟨⟩, failed⟩)
        exact failed
  | error error middle => simp

theorem Yields.pure {value : α} {property : α → Prop} (holds : property value) :
    Yields (pure value : EStateM ε σ α) property := by
  constructor
  intro start result final computed
  cases computed
  exact holds

/-- The property of the last computation, given one of each result before it. -/
theorem Yields.bind {m : EStateM ε σ α} {next : α → EStateM ε σ β} {middle : α → Prop}
    {property : β → Prop} (first : Yields m middle)
    (last : ∀ value, middle value → Yields (next value) property) : Yields (m >>= next) property := by
  constructor
  intro start result final computed
  obtain ⟨value, between, computed, rest⟩ := bind_eq_ok.mp computed
  exact (last value (first.result start value between computed)).result between result final rest

/-- The property of the last computation, whatever comes before it. -/
theorem Yields.after {m : EStateM ε σ α} {next : α → EStateM ε σ β} {property : β → Prop}
    (last : ∀ value, Yields (next value) property) : Yields (m >>= next) property := by
  have anything : Yields m fun _ => True := ⟨fun _ _ _ _ => trivial⟩
  exact anything.bind fun value _ => last value

theorem Yields.refuseIf {condition : Prop} [Decidable condition] (error : ε) :
    Yields (refuseIf condition error : EStateM ε σ Unit) fun _ => ¬condition := by
  constructor
  intro start value final computed
  exact (refuseIf_eq_ok.mp computed).1

theorem Yields.propagate (outcome : Except ε α) :
    Yields (propagate outcome : EStateM ε σ α) fun value => outcome = .ok value := by
  constructor
  intro start value final computed
  cases outcome with
  | ok value =>
      cases computed
      rfl
  | error error => cases computed

theorem outcome_eq_ok {m : EStateM ε σ α} {start : σ} {value : α} :
    outcome m start = .ok value ↔ ∃ final, m start = .ok value final := by
  unfold outcome
  cases m start with
  | ok value final => simp
  | error error final => simp

/-- The state a computation ends in, also when it fails. -/
def finalOf : EStateM.Result ε σ α → σ
  | .ok _ final => final
  | .error _ final => final

/-- A computation that ends in a state of the kind it starts in, also when it fails. -/
structure Keeps (invariant : σ → Prop) (m : EStateM ε σ α) : Prop where
  kept : ∀ start, invariant start → invariant (finalOf (m start))

section Keeps

variable {invariant : σ → Prop}

theorem Keeps.ok {m : EStateM ε σ α} (keeps : Keeps invariant m) {start final : σ} {value : α}
    (held : invariant start) (computed : m start = .ok value final) : invariant final := by
  have kept := keeps.kept start held
  rwa [computed] at kept

theorem Keeps.pure (value : α) : Keeps invariant (pure value : EStateM ε σ α) :=
  ⟨fun _ held => held⟩

theorem Keeps.get : Keeps invariant (get : EStateM ε σ σ) :=
  ⟨fun _ held => held⟩

theorem Keeps.bind {m : EStateM ε σ α} {next : α → EStateM ε σ β} (first : Keeps invariant m)
    (last : ∀ value, Keeps invariant (next value)) : Keeps invariant (m >>= next) := by
  constructor
  intro start held
  have kept := first.kept start held
  change invariant (finalOf (EStateM.bind m next start))
  unfold EStateM.bind
  cases computed : m start with
  | ok value middle =>
      rw [computed] at kept
      exact (last value).kept middle kept
  | error error middle =>
      rw [computed] at kept
      exact kept

theorem Keeps.map {m : EStateM ε σ α} (f : α → β) (keeps : Keeps invariant m) :
    Keeps invariant (f <$> m) := by
  rw [map_eq_pure_bind]
  exact keeps.bind fun value => Keeps.pure (f value)

theorem Keeps.refuseIf {condition : Prop} [Decidable condition] (error : ε) :
    Keeps invariant (refuseIf condition error : EStateM ε σ Unit) := by
  constructor
  intro start held
  unfold Fallible.refuseIf
  split
  · exact held
  · exact held

theorem Keeps.okOr (value : Option α) (error : ε) :
    Keeps invariant (okOr value error : EStateM ε σ α) := by
  cases value with
  | none => exact ⟨fun _ held => held⟩
  | some value => exact ⟨fun _ held => held⟩

theorem Keeps.propagate (outcome : Except ε α) :
    Keeps invariant (propagate outcome : EStateM ε σ α) := by
  cases outcome with
  | ok value => exact ⟨fun _ held => held⟩
  | error error => exact ⟨fun _ held => held⟩

end Keeps

/-- How a computation ends: a result and its state of one kind, or an error and its state of
another. -/
def Ends (after : α → σ → Prop) (failed : ε → σ → Prop) : EStateM.Result ε σ α → Prop
  | .ok value final => after value final
  | .error error final => failed error final

section Ends

variable {after : α → σ → Prop} {failed : ε → σ → Prop}

theorem Ends.mono {after' : α → σ → Prop} {failed' : ε → σ → Prop} {result : EStateM.Result ε σ α}
    (ends : Ends after failed result) (ok : ∀ value final, after value final → after' value final)
    (error : ∀ error final, failed error final → failed' error final) :
    Ends after' failed' result := by
  cases result with
  | ok value final => exact ok value final ends
  | error found final => exact error found final ends

theorem Ends.bind {middle : β → σ → Prop} {m : EStateM ε σ β} {next : β → EStateM ε σ α} {start : σ}
    (first : Ends middle failed (m start))
    (last : ∀ value between, middle value between → Ends after failed (next value between)) :
    Ends after failed ((m >>= next) start) := by
  change Ends after failed (EStateM.bind m next start)
  unfold EStateM.bind
  cases computed : m start with
  | ok value between =>
      rw [computed] at first
      exact last value between first
  | error error between =>
      rw [computed] at first
      exact first

theorem Ends.get {start : σ} :
    Ends (fun value final => value = start ∧ final = start) failed ((get : EStateM ε σ σ) start) :=
  ⟨rfl, rfl⟩

theorem Ends.modify {change : σ → σ} {start : σ} :
    Ends (fun _ final => final = change start) failed ((modify change : EStateM ε σ Unit) start) :=
  rfl

theorem Ends.refuseIf {condition : Prop} [Decidable condition] {error : ε} {start : σ}
    (refused : condition → failed error start) :
    Ends (fun _ final => final = start ∧ ¬condition) failed
      ((refuseIf condition error : EStateM ε σ Unit) start) := by
  unfold Fallible.refuseIf
  split
  · rename_i holds
    exact refused holds
  · rename_i passes
    exact ⟨rfl, passes⟩

theorem Ends.propagate {outcome : Except ε β} {start : σ}
    (refused : ∀ error, outcome = .error error → failed error start) :
    Ends (fun value final => final = start ∧ outcome = .ok value) failed
      ((propagate outcome : EStateM ε σ β) start) := by
  cases outcome with
  | ok value => exact ⟨rfl, rfl⟩
  | error error => exact refused error rfl

end Ends

/-- The states in which the turns of a loop begin. A turn that fails is the last. -/
def turns (turn : EStateM ε σ α) : Nat → σ → List σ
  | 0, _ => []
  | count + 1, start =>
      start ::
        match turn start with
        | .ok _ next => turns turn count next
        | .error _ _ => []

/-- The turns of what comes behind a computation, none if it fails. -/
def turnsAfter (m : EStateM ε σ α) (rest : α → σ → List σ) (start : σ) : List σ :=
  match m start with
  | .ok value final => rest value final
  | .error _ _ => []

theorem length_turns_le (turn : EStateM ε σ α) (count : Nat) (start : σ) :
    (turns turn count start).length ≤ count := by
  induction count generalizing start with
  | zero => exact Nat.le_refl 0
  | succ count ih =>
      rw [turns, List.length_cons]
      cases turn start with
      | ok value next => exact Nat.succ_le_succ (ih next)
      | error error next => exact Nat.succ_le_succ (Nat.zero_le count)

/-- Every turn begins in a state of the kind that the loop begins in. -/
theorem turns_keep {invariant : σ → Prop} {turn : EStateM ε σ α} (keeps : Keeps invariant turn)
    {count : Nat} {start : σ} (held : invariant start) : ∀ state ∈ turns turn count start,
      invariant state := by
  induction count generalizing start with
  | zero =>
      intro state member
      cases member
  | succ count ih =>
      rw [turns, List.forall_mem_cons]
      refine ⟨held, ?_⟩
      cases computed : turn start with
      | ok value next => exact ih (keeps.ok held computed)
      | error error next =>
          intro state member
          cases member

/-- A check of one element after the other, which stops at the first failure. -/
def checkAll (check : α → Except ε Unit) : List α → Except ε Unit
  | [] => .ok ()
  | x :: xs =>
      match check x with
      | .ok () => checkAll check xs
      | .error error => .error error

theorem checkAll_eq_ok {check : α → Except ε Unit} {xs : List α} :
    checkAll check xs = .ok () ↔ ∀ x ∈ xs, check x = .ok () := by
  induction xs with
  | nil => simp [checkAll]
  | cons x xs ih =>
      rw [List.forall_mem_cons, ← ih, checkAll]
      cases check x with
      | ok value => simp
      | error error => simp

end Lightweight.Fallible
