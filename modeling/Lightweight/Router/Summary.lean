import Lightweight.Router.SelectPlans

/-! What a route promises a client (`summarize` of `lightweight-router/src/select.rs`) against what
is asked of a deployment before a request is sent to it. -/

namespace Lightweight.Router

open Lightweight.Catalog

inductive Feature where
  | streaming
  | sseDone
  | usageChunk
  | chatCompletions
  | completions
  | tools
  | toolCallDeltas
  | toolChoice
  | parallelToolCalls
  | reasoningContent
deriving DecidableEq, Repr

def FeatureSet.has (features : FeatureSet) : Feature → Bool
  | .streaming => features.streaming
  | .sseDone => features.sseDone
  | .usageChunk => features.usageChunk
  | .chatCompletions => features.chatCompletions
  | .completions => features.completions
  | .tools => features.tools
  | .toolCallDeltas => features.toolCallDeltas
  | .toolChoice => features.toolChoice
  | .parallelToolCalls => features.parallelToolCalls
  | .reasoningContent => features.reasoningContent

@[simp]
theorem has_intersect (a b : FeatureSet) (feature : Feature) :
    (a.intersect b).has feature = (a.has feature && b.has feature) := by
  cases feature <;> rfl

@[simp]
theorem has_none (feature : Feature) : FeatureSet.none.has feature = false := by
  cases feature <;> rfl

/-- The features a request needs: a node that honours `tool_choice` also takes tools. -/
def RequestRequirements.neededFeatures (needs : RequestRequirements) : List Feature :=
  (match needs.endpoint with
    | some .chatCompletions => [.chatCompletions]
    | some .completions => [.completions]
    | .none => []) ++
  (if needs.tools then [.tools] else []) ++
  (if needs.needsToolChoice then [.tools, .toolChoice] else []) ++
  (if needs.reasoning then [.reasoningContent] else [])

structure RouteSummary where
  available : Bool
  contextLength : Option Nat
  capabilities : FeatureSet
  maxConcurrentRequests : Option Nat
deriving DecidableEq, Repr

/-- What the loop of `summarize` has gathered so far. -/
structure Gathered where
  context : Option Nat
  capabilities : Option FeatureSet
  concurrency : Option Nat
  everyOneObserved : Bool
deriving DecidableEq, Repr

def Gathered.add (observed : DeploymentId → Option DeploymentObservation) (gathered : Gathered)
    (candidate : Candidate) : Gathered :=
  match observed candidate.deployment with
  | none => { gathered with everyOneObserved := false }
  | some seen =>
      { gathered with
        context := some (match gathered.context with
          | some c => min c seen.contextLength
          | none => seen.contextLength)
        capabilities := some (match gathered.capabilities with
          | some soFar => soFar.intersect seen.capabilities
          | none => seen.capabilities)
        concurrency := some (match gathered.concurrency with
          | some c => min c seen.maxConcurrentRequests
          | none => seen.maxConcurrentRequests) }

/-- Summarize a route over exactly the eligible deployments. -/
def summarize [Lowercase] (topology : Topology) (route : Route)
    (health : NodeId → Option NodeStatus)
    (observed : DeploymentId → Option DeploymentObservation) : RouteSummary :=
  match eligible topology route health with
  | .error _ => ⟨false, none, .none, none⟩
  | .ok plan =>
      let gathered := plan.candidates.foldl (Gathered.add observed) ⟨none, none, none, true⟩
      if !gathered.everyOneObserved then ⟨true, none, .none, none⟩
      else ⟨true, gathered.context, gathered.capabilities.getD .none, gathered.concurrency⟩

/-- `gathered` promises nothing beyond a context and a set of features. -/
def Gathered.Within (gathered : Gathered) (context : Nat) (features : FeatureSet) : Prop :=
  (∃ c, gathered.context = some c ∧ c ≤ context) ∧
  ∃ narrowed, gathered.capabilities = some narrowed ∧
    ∀ feature, narrowed.has feature = true → features.has feature = true

theorem Gathered.Within.add {gathered : Gathered} {context : Nat} {features : FeatureSet}
    (within : gathered.Within context features)
    (observed : DeploymentId → Option DeploymentObservation) (candidate : Candidate) :
    (gathered.add observed candidate).Within context features := by
  rcases within with ⟨⟨c, known, small⟩, narrowed, kept, fewer⟩
  unfold Gathered.add
  cases observed candidate.deployment with
  | none => exact ⟨⟨c, known, small⟩, narrowed, kept, fewer⟩
  | some seen =>
      refine ⟨⟨min c seen.contextLength, by simp [known], ?_⟩,
        narrowed.intersect seen.capabilities, by simp [kept], ?_⟩
      · exact le_trans (min_le_left _ _) small
      · intro feature has
        rw [has_intersect, Bool.and_eq_true] at has
        exact fewer feature has.1

theorem Gathered.add_within (gathered : Gathered)
    {observed : DeploymentId → Option DeploymentObservation} {candidate : Candidate}
    {seen : DeploymentObservation} (known : observed candidate.deployment = some seen) :
    (gathered.add observed candidate).Within seen.contextLength seen.capabilities := by
  rcases gathered with ⟨context, capabilities, concurrency, every⟩
  unfold Gathered.add
  rw [known]
  refine ⟨⟨_, rfl, ?_⟩, _, rfl, ?_⟩
  · cases context with
    | none => exact le_rfl
    | some c => exact min_le_right _ _
  · intro feature has
    cases capabilities with
    | none => exact has
    | some soFar =>
        rw [has_intersect, Bool.and_eq_true] at has
        exact has.2

theorem foldl_within (observed : DeploymentId → Option DeploymentObservation)
    (candidates : List Candidate) {gathered : Gathered} {context : Nat} {features : FeatureSet}
    (within : gathered.Within context features) :
    (candidates.foldl (Gathered.add observed) gathered).Within context features := by
  induction candidates generalizing gathered with
  | nil => exact within
  | cons candidate rest ih => exact ih (within.add observed candidate)

theorem foldl_unobserved (observed : DeploymentId → Option DeploymentObservation)
    (candidates : List Candidate) {gathered : Gathered} (missing : gathered.everyOneObserved = false) :
    (candidates.foldl (Gathered.add observed) gathered).everyOneObserved = false := by
  induction candidates generalizing gathered with
  | nil => exact missing
  | cons candidate rest ih =>
      apply ih
      unfold Gathered.add
      cases observed candidate.deployment with
      | none => rfl
      | some seen => exact missing

/-- If the loop has seen every candidate, what it gathered is within each one's observation. -/
theorem gathered_within (observed : DeploymentId → Option DeploymentObservation)
    (candidates : List Candidate) (gathered : Gathered)
    (all : (candidates.foldl (Gathered.add observed) gathered).everyOneObserved = true) :
    ∀ candidate ∈ candidates, ∃ seen, observed candidate.deployment = some seen ∧
      (candidates.foldl (Gathered.add observed) gathered).Within seen.contextLength
        seen.capabilities := by
  induction candidates generalizing gathered with
  | nil => simp
  | cons candidate rest ih =>
      intro other member
      rcases List.mem_cons.mp member with rfl | later
      · cases known : observed other.deployment with
        | none =>
            have missing : (gathered.add observed other).everyOneObserved = false := by
              simp [Gathered.add, known]
            rw [List.foldl_cons, foldl_unobserved observed rest missing] at all
            cases all
        | some seen => exact ⟨seen, rfl, foldl_within observed rest (gathered.add_within known)⟩
      · exact ih (gathered.add observed candidate) all other later

/-- A deployment with every needed feature and room for the prompt has no gap. -/
theorem gaps_eq_nil {needs : RequestRequirements} {seen : DeploymentObservation}
    (features : ∀ feature ∈ needs.neededFeatures, seen.capabilities.has feature = true)
    (room : ∀ required ∈ needs.requiredContext, required ≤ seen.contextLength) :
    gaps needs (some seen) = [] := by
  have endpoint : endpointGap needs.endpoint seen.capabilities = [] := by
    cases sent : needs.endpoint with
    | none => rfl
    | some endpoint =>
        cases endpoint with
        | chatCompletions =>
            have chat := features .chatCompletions (by simp [RequestRequirements.neededFeatures, sent])
            simp_all [endpointGap, FeatureSet.has]
        | completions =>
            have text := features .completions (by simp [RequestRequirements.neededFeatures, sent])
            simp_all [endpointGap, FeatureSet.has]
  have tools : needs.tools = true → seen.capabilities.tools = true := fun declared =>
    features .tools (by simp [RequestRequirements.neededFeatures, declared])
  have choice : needs.needsToolChoice = true →
      seen.capabilities.tools = true ∧ seen.capabilities.toolChoice = true := fun forced =>
    ⟨features .tools (by simp [RequestRequirements.neededFeatures, forced]),
      features .toolChoice (by simp [RequestRequirements.neededFeatures, forced])⟩
  have reasoning : needs.reasoning = true → seen.capabilities.reasoningContent = true := fun asked =>
    features .reasoningContent (by simp [RequestRequirements.neededFeatures, asked])
  have context : contextGap needs.requiredContext seen.contextLength = [] := by
    cases required : needs.requiredContext with
    | none => rfl
    | some required' =>
        have fits := room required' required
        simp [contextGap, Nat.not_lt.mpr fits]
  simp only [gaps, endpoint, context, List.nil_append, List.append_nil, List.append_eq_nil_iff,
    ite_eq_right_iff, List.cons_ne_nil, imp_false, Bool.and_eq_true, Bool.not_eq_true', not_and,
    Bool.not_eq_false]
  exact ⟨⟨tools, choice⟩, reasoning⟩

/-- The filter keeps a candidate list that has no gap as it is. -/
theorem filter_eq_self {found : Eligible} {needs : RequestRequirements}
    {observed : DeploymentId → Option DeploymentObservation} (some' : found.candidates ≠ [])
    (fit : ∀ candidate ∈ found.candidates, gaps needs (observed candidate.deployment) = []) :
    filter found needs observed = .ok found := by
  have whole : ∀ candidates : List Candidate,
      (∀ candidate ∈ candidates, gaps needs (observed candidate.deployment) = []) →
      splitByGaps needs observed candidates = (candidates, []) := by
    intro candidates
    induction candidates with
    | nil => exact fun _ => rfl
    | cons candidate rest ih =>
        intro every
        have tail := ih fun other member => every other (List.mem_cons_of_mem _ member)
        simp [splitByGaps, tail, every candidate List.mem_cons_self]
  simp [filter, whole found.candidates fit, some']

theorem eligible_candidates_ne_nil [Lowercase] {topology : Topology} {route : Route}
    {health : NodeId → Option NodeStatus} {found : Eligible}
    (left : eligible topology route health = .ok found) : found.candidates ≠ [] := by
  simp only [eligible] at left
  split at left
  · cases left
  · rename_i nonempty
    cases left
    simpa using nonempty

theorem summary_never_overpromises [Lowercase] (topology : Topology) (route : Route)
    (health : NodeId → Option NodeStatus)
    (observed : DeploymentId → Option DeploymentObservation) (needs : RequestRequirements)
    (request : needs.endpoint.isSome = true)
    (features : ∀ feature ∈ needs.neededFeatures,
      (summarize topology route health observed).capabilities.has feature = true)
    (context : ∀ promised ∈ (summarize topology route health observed).contextLength,
      ∀ required ∈ needs.requiredContext, required ≤ promised)
    (found : Eligible) (left : eligible topology route health = .ok found) :
    (∀ candidate ∈ found.candidates, gaps needs (observed candidate.deployment) = []) ∧
      filter found needs observed = .ok found := by
  have some' := eligible_candidates_ne_nil left
  have needed : ∃ feature, feature ∈ needs.neededFeatures := by
    rcases Option.isSome_iff_exists.mp request with ⟨endpoint, sent⟩
    cases endpoint with
    | chatCompletions => exact ⟨.chatCompletions, by simp [RequestRequirements.neededFeatures, sent]⟩
    | completions => exact ⟨.completions, by simp [RequestRequirements.neededFeatures, sent]⟩
  have fit : ∀ candidate ∈ found.candidates, gaps needs (observed candidate.deployment) = [] := by
    simp only [summarize, left] at features context
    split at features
    · -- A route with an unobserved candidate promises no feature at all.
      rcases needed with ⟨feature, member⟩
      simpa using features feature member
    · rename_i all
      rw [if_neg all] at context
      intro candidate member
      rcases gathered_within observed found.candidates ⟨none, none, none, true⟩ (by simpa using all)
        candidate member with ⟨seen, known, ⟨c, reported, small⟩, narrowed, kept, fewer⟩
      rw [known]
      apply gaps_eq_nil
      · intro feature member
        have promised := features feature member
        rw [kept] at promised
        exact fewer feature promised
      · intro required member
        exact le_trans (context c reported required member) small
  exact ⟨fit, filter_eq_self some' fit⟩

section Sample

attribute [local instance] asciiLowercase

theorem summary_never_overpromises_chat :
    ∃ found, eligible spreadTopology spreadRoute servingHealth = .ok found ∧
      found.candidates.length = 2 ∧ filter found chatNeeds chatObserved = .ok found := by
  refine ⟨_, rfl, rfl, ?_⟩
  exact (summary_never_overpromises spreadTopology spreadRoute servingHealth chatObserved chatNeeds
    rfl (by decide) (by decide) _ rfl).2

end Sample

end Lightweight.Router
