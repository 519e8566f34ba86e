import Lightweight.Utf8
import Lightweight.Router.AutoRoute
import Lightweight.Router.Requirements

/-! Which rule a request meets (`matches` and `decide` of `lightweight-router/src/auto_route.rs`),
and that a condition refused as contradictory is one that no request meets. -/

namespace Lightweight.Router.Auto

open Lightweight.Router

def AutoEndpoint.endpoint : AutoEndpoint → Endpoint
  | .chat => .chatCompletions
  | .completion => .completions

/-- A condition that is not set is not looked at. -/
def unlessSet {α : Type} (want : Option α) (holds : α → Bool) : Bool :=
  match want with
  | none => true
  | some want => holds want

/-- Whether `needs` satisfies every condition that is set. A prompt threshold needs an estimate. -/
def AutoCondition.matches (condition : AutoCondition) (needs : RequestRequirements) : Bool :=
  unlessSet condition.endpoint (fun want => needs.endpoint = some want.endpoint) &&
  unlessSet condition.requiresTools (fun want => needs.tools = want) &&
  unlessSet condition.toolChoice (fun want => needs.toolChoice = want) &&
  unlessSet condition.requiresReasoning (fun want => needs.reasoning = want) &&
  unlessSet condition.minPromptTokens (fun min =>
    needs.promptTokens.any fun tokens => min ≤ tokens) &&
  unlessSet condition.maxPromptTokens (fun max =>
    needs.promptTokens.any fun tokens => tokens ≤ max)

/-- The route that `Auto` chose, and the rule that chose it, if one did. -/
structure AutoDecision where
  route : RouteName
  rule : Option (List Char)
  classify : Bool
deriving DecidableEq, Repr

/-- The first rule that `needs` satisfies, in configured order, or the fallback. -/
def AutoRoute.decide (auto : AutoRoute) (needs : RequestRequirements) : AutoDecision :=
  match auto.rules.find? fun rule => rule.condition.matches needs with
  | none => ⟨auto.fallback, none, false⟩
  | some rule => ⟨rule.route, some rule.name, rule.classify⟩

section Matching

variable {condition : AutoCondition} {needs : RequestRequirements}

theorem unlessSet_some {α : Type} {want : Option α} {holds : α → Bool} {value : α}
    (set : want = some value) (held : unlessSet want holds = true) : holds value = true := by
  rw [set] at held
  exact held

/-- What a request that matches has of each condition that is set. -/
structure Matched (condition : AutoCondition) (needs : RequestRequirements) : Prop where
  endpoint : ∀ want, condition.endpoint = some want → needs.endpoint = some want.endpoint
  tools : ∀ want, condition.requiresTools = some want → needs.tools = want
  toolChoice : ∀ want, condition.toolChoice = some want → needs.toolChoice = want
  reasoning : ∀ want, condition.requiresReasoning = some want → needs.reasoning = want
  least : ∀ min, condition.minPromptTokens = some min →
    ∃ tokens, needs.promptTokens = some tokens ∧ min ≤ tokens
  most : ∀ max, condition.maxPromptTokens = some max →
    ∃ tokens, needs.promptTokens = some tokens ∧ tokens ≤ max

theorem matched (held : condition.matches needs = true) : Matched condition needs := by
  simp only [AutoCondition.matches, Bool.and_eq_true] at held
  obtain ⟨⟨⟨⟨⟨endpoint, tools⟩, toolChoice⟩, reasoning⟩, least⟩, most⟩ := held
  constructor
  · intro want set
    simpa using unlessSet_some set endpoint
  · intro want set
    simpa using unlessSet_some set tools
  · intro want set
    simpa using unlessSet_some set toolChoice
  · intro want set
    simpa using unlessSet_some set reasoning
  · intro min set
    simpa [Option.any_eq_true] using unlessSet_some set least
  · intro max set
    simpa [Option.any_eq_true] using unlessSet_some set most

/-- No estimate is both high and low enough. -/
theorem Matched.not_crossed (matched : Matched condition needs) : condition.crossed = false := by
  unfold AutoCondition.crossed
  split
  · rename_i min max atLeast atMost
    obtain ⟨tokens, counted, low⟩ := matched.least min atLeast
    obtain ⟨again, same, high⟩ := matched.most max atMost
    rw [counted] at same
    cases same
    rw [decide_eq_false_iff_not]
    omega
  · rfl

theorem Matched.consistent {endpoint : Endpoint} (matched : Matched condition needs)
    (extracted : Extracted endpoint needs) : condition.contradiction = none := by
  have completion : condition.endpoint = some .completion →
      needs.tools = false ∧ needs.toolChoice = .unspecified ∧ needs.reasoning = false := by
    intro want
    apply extracted.completion
    have sent := matched.endpoint .completion want
    rw [extracted.sentTo] at sent
    exact Option.some.inj sent
  unfold AutoCondition.contradiction
  simp only [matched.not_crossed, Bool.false_eq_true, if_false]
  split
  · rename_i both
    have wanted := matched.tools true both.2
    rw [(completion both.1).1] at wanted
    cases wanted
  · split
    · rename_i both
      have wanted := matched.reasoning true both.2
      rw [(completion both.1).2.2] at wanted
      cases wanted
    · split
      · rename_i both
        obtain ⟨choice, set, other⟩ := (Option.any_eq_true _ _).mp both.2
        have wanted := matched.toolChoice choice set
        rw [(completion both.1).2.1] at wanted
        simp [← wanted] at other
      · split
        · rename_i both
          have absent := matched.tools false both.1
          have declared : needs.tools = true := by
            apply extracted.forced
            rcases both.2 with required | function
            · exact Or.inl (matched.toolChoice .required required)
            · exact Or.inr (matched.toolChoice .function function)
          rw [absent] at declared
          cases declared
        · rfl

end Matching

/-- A condition with a contradiction matches no request that is not refused, on either endpoint and
however its body reads. -/
theorem contradiction_matches_nothing (reader : BodyReader) (condition : AutoCondition)
    (endpoint : Endpoint) (body : List UInt8) {needs : RequestRequirements}
    (contradictory : condition.contradiction.isSome)
    (accepted : extract reader endpoint body = .ok needs) : condition.matches needs = false := by
  rw [← Bool.not_eq_true]
  intro held
  rw [(matched held).consistent (extract_spec accepted)] at contradictory
  cases contradictory

/-- A body with a prompt and nothing else. -/
def promptBody : List UInt8 := Utf8.encode "\x7b\"prompt\":\"hi\"\x7d".toList

/-- The reading of that body. -/
def promptReader : BodyReader where
  chat _ := none
  completion body :=
    if body = promptBody then
      some ⟨⟨some (.text "hi".toList), none, none, none, none, none, none⟩, none⟩
    else none

theorem contradiction_matches_nothing_completion :
    extract promptReader .completions promptBody =
        .ok { onlyEndpoint .completions with promptTokens := some 1 } ∧
      AutoCondition.matches { endpoint := some .completion, requiresTools := some true }
        { onlyEndpoint .completions with promptTokens := some 1 } = false := by
  have read : extract promptReader .completions promptBody =
      .ok { onlyEndpoint .completions with promptTokens := some 1 } := by rfl
  exact ⟨read, contradiction_matches_nothing promptReader _ .completions promptBody (by decide) read⟩

end Lightweight.Router.Auto
