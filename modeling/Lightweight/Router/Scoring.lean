import Mathlib.Tactic.Linarith
import Mathlib.Tactic.Positivity
import Lightweight.Router.Classifier

/-! Adaptive scoring of a classification (`lightweight-router/src/scoring/`): the check of the section
against the classifier, and the decision between the verdict's route and the fallback. Doubles are
read as the numbers they stand for. -/

namespace Lightweight.Router.Scoring

open Lightweight.Core Lightweight.Catalog Binary64 Classifier

def minHalfLifeSecs : Nat := 60

def maxHalfLifeSecs : Nat := 604800

def maxSamples : Nat := 10000

/-- The share of the accepted confidences that priors may reach into. -/
def maxInfluenceShare : Exact := some (1 / 2)

structure Weights where
  classifier : Exact
  prior : Exact
  history : Exact
deriving DecidableEq, Repr

def Weights.influenceRadius (weights : Weights) : Exact := weights.prior.div weights.classifier

structure HistoryFile where
  halfLifeSecs : Nat
  minSamples : Nat
  shrinkageSamples : Option Nat
deriving DecidableEq, Repr

/-- The `auto_route.adaptive_scoring` section, as written; the priors in the order of their names. -/
structure AdaptiveScoringFile where
  enabled : Bool
  weights : Weights
  priors : List (List Char × Exact)
  history : HistoryFile
deriving DecidableEq, Repr

structure HistoryPolicy where
  halfLife : Nat
  minSamples : Nat
  shrinkageSamples : Nat
deriving DecidableEq, Repr

structure AdaptiveScoring where
  enabled : Bool
  weights : Weights
  priors : List (RouteName × Exact)
  history : HistoryPolicy
deriving DecidableEq, Repr

/-- `route`'s configured prior; 0 when it has none. -/
def AdaptiveScoring.prior (scoring : AdaptiveScoring) (route : RouteName) : Exact :=
  match scoring.priors.find? fun entry => entry.1 == route with
  | some entry => entry.2
  | none => some 0

/-! The history of the routes: shown, and never scored. -/

/-- What is kept of one route: its successes as they were at some time, in nanoseconds. -/
structure Record where
  successes : Exact
  decayedAt : Option Nat
deriving DecidableEq, Repr

structure HistoryBook where
  policy : Option HistoryPolicy
  routes : List RouteName
  records : List Record
deriving DecidableEq, Repr

structure HistoryObservations where
  effectiveSamples : Exact
  successes : Exact
  minSamplesReached : Bool
deriving DecidableEq, Repr

def HistoryObservations.none : HistoryObservations := ⟨some 0, some 0, false⟩

/-- What a count is worth later, with the two to the power of a double. -/
def decayFactor (exp2 : Exact → Exact) (elapsed halfLife : Nat) : Exact :=
  exp2 (Exact.div (some (-((elapsed : ℚ) / 1000000000))) (some (halfLife : ℚ)))

def Record.decayed (exp2 : Exact → Exact) (record : Record) (now halfLife : Nat) : Exact :=
  let factor := match record.decayedAt with
    | some at_ => decayFactor exp2 (now - at_) halfLife
    | none => some 1
  record.successes.mul factor

def observationsOf (successes : Exact) (policy : HistoryPolicy) : HistoryObservations where
  effectiveSamples := successes
  successes := successes
  minSamplesReached := Exact.le (some policy.minSamples) successes

/-- What has been observed of `route` at `now`. -/
def HistoryBook.observations (exp2 : Exact → Exact) (book : HistoryBook) (route : RouteName)
    (now : Nat) : HistoryObservations :=
  match book.policy, book.routes.findIdx? (· == route) with
  | some policy, some index =>
      match book.records[index]? with
      | some record => observationsOf (record.decayed exp2 now policy.halfLife) policy
      | none => .none
  | _, _ => .none

/-! The decision. -/

inductive ScoringReason where
  | scored
  | uncontested
  | belowThreshold
  | noVerdict
  | internalError
deriving DecidableEq, Repr

inductive ClassifierBasis where
  | verdict
  | baseline
deriving DecidableEq, Repr

structure CandidateScore where
  route : RouteName
  basis : ClassifierBasis
  classifierSignal : Exact
  priorSignal : Exact
  historySignal : Exact
  totalScore : Exact
  confidence : Exact
  prior : Exact
  historyObservations : HistoryObservations
deriving DecidableEq, Repr

structure ScoringTrace where
  enabled : Bool
  reason : ScoringReason
  classifierBaseline : Exact
  influenceRadius : Exact
  weights : Weights
  historyActive : Bool
  classifiedRoute : RouteName
  winner : RouteName
  overrode : Bool
  rejectedRoute : Option RouteName
  rejectedConfidence : Option Exact
  candidates : List CandidateScore
deriving DecidableEq, Repr

structure ScoringDecision where
  route : RouteName
  trace : ScoringTrace
deriving DecidableEq, Repr

/-- The signal the fallback route is given. -/
def classifierBaseline (classifier : RouteClassifier) : Exact := classifier.limits.minConfidence

/-- One contender's score. The history is recorded for the trace and never added. -/
def score (exp2 : Exact → Exact) (scoring : AdaptiveScoring) (history : HistoryBook) (now : Nat)
    (route : RouteName) (basis : ClassifierBasis) (confidence : Exact) : CandidateScore :=
  let prior := scoring.prior route
  let classifierSignal := scoring.weights.classifier.mul confidence
  let priorSignal := scoring.weights.prior.mul prior
  { route, basis, classifierSignal, priorSignal, historySignal := some 0
    totalScore := classifierSignal.add priorSignal, confidence, prior
    historyObservations := history.observations exp2 route now }

/-- The contest of an accepted verdict with the fallback. -/
def contest (trace : ScoringTrace) (classified fallback : RouteName) (verdict : Verdict)
    (verdictScore fallbackScore : CandidateScore) : ScoringDecision :=
  let trace := { trace with candidates := [verdictScore, fallbackScore] }
  if !(verdictScore.totalScore.isSome && fallbackScore.totalScore.isSome) then
    { route := classified, trace := { trace with reason := .internalError } }
  else
    -- Ties go to the verdict.
    let winner :=
      if verdictScore.totalScore.lt fallbackScore.totalScore then fallback else verdict.route
    { route := winner
      trace := { trace with reason := .scored, overrode := winner != classified, winner } }

/-- Resolve a classification to one logical route. -/
def decide (exp2 : Exact → Exact) (scoring : AdaptiveScoring) (history : HistoryBook)
    (classification : Classification) (classifier : RouteClassifier) (now : Nat) :
    ScoringDecision :=
  let baseline := classifierBaseline classifier
  let classified := classification.route classifier
  let trace : ScoringTrace :=
    { enabled := true, reason := .noVerdict, classifierBaseline := baseline
      influenceRadius := scoring.weights.influenceRadius, weights := scoring.weights
      historyActive := false, classifiedRoute := classified, winner := classified, overrode := false
      rejectedRoute := none, rejectedConfidence := none, candidates := [] }
  match classification.verdict, classification.outcome with
  | some verdict, .chosen =>
      let verdictScore :=
        score exp2 scoring history now verdict.route .verdict verdict.confidence
      if verdict.route = classifier.fallback then
        { route := verdict.route
          trace := { trace with
            reason := .uncontested, winner := verdict.route, candidates := [verdictScore] } }
      else
        contest trace classified classifier.fallback verdict verdictScore
          (score exp2 scoring history now classifier.fallback .baseline baseline)
  | some rejected, .lowConfidence =>
      { route := classified
        trace := { trace with
          reason := .belowThreshold, rejectedRoute := some rejected.route
          rejectedConfidence := some rejected.confidence } }
  | _, _ => { route := classified, trace }

/-! The check. -/

inductive Problem where
  | classifierWeight
  | priorWeight
  | historyWeight
  | halfLife
  | minSamples
  | shrinkageSamples
  | needsClassifier
  | priorAuto (name : List Char)
  | priorReserved (name : List Char)
  | priorUnread (name : List Char)
  | priorRange (name : List Char)
  | priorTwice (route : RouteName)
  | influence (radius : Exact) (provider : ProviderKind) (baseline limit : Exact)
deriving DecidableEq, Repr

/-- What is wrong with the weights. History is observational, and refused as a weight. -/
def weightProblems (weights : Weights) : List Problem :=
  (if weights.classifier.within 0 1 && Exact.lt (some 0) weights.classifier then []
    else [.classifierWeight]) ++
  (if weights.prior.within 0 1 then [] else [.priorWeight]) ++
  (if weights.history = some 0 then [] else [.historyWeight])

def historyProblems (history : HistoryFile) : List Problem :=
  let shrinkageSamples := history.shrinkageSamples.getD history.minSamples
  (if minHalfLifeSecs ≤ history.halfLifeSecs ∧ history.halfLifeSecs ≤ maxHalfLifeSecs then []
    else [.halfLife]) ++
  (if 1 ≤ history.minSamples ∧ history.minSamples ≤ maxSamples then [] else [.minSamples]) ++
  (if 1 ≤ shrinkageSamples ∧ shrinkageSamples ≤ maxSamples then [] else [.shrinkageSamples])

/-- The routes that can ever contend. -/
def contenders (classifier : RouteClassifier) : List RouteName :=
  classifier.candidates.map Candidate.route ++ [classifier.fallback]

structure CheckedPriors where
  priors : List (RouteName × Exact)
  problems : List Problem

section Validate

variable [Lowercase]

def checkPrior (routes : List RouteName) (state : CheckedPriors) (entry : List Char × Exact) :
    CheckedPriors :=
  let fail (problem : Problem) : CheckedPriors :=
    { state with problems := state.problems ++ [problem] }
  if isAuto entry.1 then fail (.priorAuto entry.1)
  else if isReserved entry.1 then fail (.priorReserved entry.1)
  else
    match routes.find? fun route => RouteName.matches route entry.1 with
    | none => fail (.priorUnread entry.1)
    | some route =>
        if !entry.2.within 0 1 then fail (.priorRange entry.1)
        else if state.priors.any fun seen => seen.1 == route then fail (.priorTwice route)
        else { state with priors := state.priors ++ [(route, entry.2)] }

def checkPriors (routes : List RouteName) (raw : List (List Char × Exact)) : CheckedPriors :=
  raw.foldl (checkPrior routes) ⟨[], []⟩

/-- Half of the confidences that a provider's threshold accepts. -/
def influenceLimit (baseline : Exact) : Exact :=
  maxInfluenceShare.mul (baseline.map fun number => 1 - number)

/-- How far priors can move a decision, against one provider's threshold. -/
def influenceProblems (weights : Weights) (provider : ClassifierProvider) : List Problem :=
  let radius := weights.influenceRadius
  let baseline := provider.limits.minConfidence
  let limit := influenceLimit baseline
  if Exact.lt (some 0) radius && Exact.le limit radius then
    [.influence radius provider.kind baseline limit]
  else []

/-- The priors and the weights, against the classifier they are for. -/
def checkAgainst (raw : AdaptiveScoringFile) (classifier : RouteClassifier) : CheckedPriors :=
  let routes := contenders classifier
  let checked := checkPriors routes raw.priors
  let influence :=
    if (weightProblems raw.weights).isEmpty then
      (classifier.provider :: classifier.standby.toList).flatMap (influenceProblems raw.weights)
    else []
  { priors := checked.priors.insertionSort fun a b => routes.idxOf a.1 ≤ routes.idxOf b.1
    problems := checked.problems ++ influence }

/-- `scoring::validate`. `written` says whether the file has a classifier section at all. -/
def validate (raw : AdaptiveScoringFile) (classifier : Option RouteClassifier) (written : Bool) :
    Except (List Problem) AdaptiveScoring :=
  let first := weightProblems raw.weights ++ historyProblems raw.history
  let second : CheckedPriors := match classifier with
    | none => ⟨[], if written then [] else [.needsClassifier]⟩
    | some classifier => checkAgainst raw classifier
  let problems := first ++ second.problems
  if problems.isEmpty then
    .ok
      { enabled := raw.enabled, weights := raw.weights, priors := second.priors
        history :=
          { halfLife := raw.history.halfLifeSecs, minSamples := raw.history.minSamples
            shrinkageSamples := raw.history.shrinkageSamples.getD raw.history.minSamples } }
  else .error problems

end Validate

/-! What the check leaves. -/

/-- The bound on the weights against one provider's threshold, in numbers. -/
def Dominated (classifier prior : ℚ) (provider : ClassifierProvider) : Prop :=
  ∃ baseline, provider.limits.minConfidence = some baseline ∧ 0 ≤ baseline ∧ baseline ≤ 1 ∧
    (0 < prior / classifier → prior / classifier < 1 / 2 * (1 - baseline))

/-- Sections that the checks of the classifier and of the scoring accept. -/
structure Accepted (classifier : RouteClassifier) (scoring : AdaptiveScoring) : Prop where
  weights : ∃ w p, scoring.weights.classifier = some w ∧ scoring.weights.prior = some p ∧ 0 < w ∧
    0 ≤ p ∧ ∀ provider ∈ classifier.provider :: classifier.standby.toList, Dominated w p provider
  priors : ∀ entry ∈ scoring.priors, entry.2.within 0 1 = true

theorem weightProblems_nil {weights : Weights} (none : weightProblems weights = []) :
    ∃ w p, weights.classifier = some w ∧ weights.prior = some p ∧ 0 < w ∧ 0 ≤ p := by
  unfold weightProblems at none
  simp only [List.append_eq_nil_iff, ite_eq_left_iff, List.cons_ne_nil, imp_false, not_not,
    Bool.and_eq_true] at none
  obtain ⟨⟨⟨inside, positive⟩, fraction⟩, -⟩ := none
  obtain ⟨w, classifier, -, -⟩ := Exact.within_iff.mp inside
  obtain ⟨p, prior, atLeast, -⟩ := Exact.within_iff.mp fraction
  rw [classifier] at positive
  exact ⟨w, p, classifier, prior, of_decide_eq_true positive, atLeast⟩

theorem influenceProblems_nil {weights : Weights} {provider : ClassifierProvider} {w p : ℚ}
    (none : influenceProblems weights provider = []) (classifier : weights.classifier = some w)
    (prior : weights.prior = some p) (positive : 0 < w)
    (threshold : provider.limits.minConfidence.within 0 1 = true) : Dominated w p provider := by
  obtain ⟨baseline, known, low, high⟩ := Exact.within_iff.mp threshold
  refine ⟨baseline, known, low, high, fun moves => ?_⟩
  have radius : weights.influenceRadius = some (p / w) := by
    simp [Weights.influenceRadius, classifier, prior, Exact.div, positive.ne']
  have limit : influenceLimit provider.limits.minConfidence = some (1 / 2 * (1 - baseline)) := by
    simp [influenceLimit, maxInfluenceShare, known, Exact.mul]
  simp only [influenceProblems, radius, limit] at none
  by_contra far
  have reaches : Exact.le (some (1 / 2 * (1 - baseline))) (some (p / w)) = true :=
    decide_eq_true (not_lt.mp far)
  have moved : Exact.lt (some 0) (some (p / w)) = true := decide_eq_true moves
  rw [moved, reaches, Bool.and_true, if_pos rfl] at none
  exact List.cons_ne_nil _ _ none

section Accepts

variable [Lowercase]

theorem checkPriors_within (routes : List RouteName) (raw : List (List Char × Exact)) :
    ∀ entry ∈ (checkPriors routes raw).priors, entry.2.within 0 1 = true := by
  have kept : ∀ (raw : List (List Char × Exact)) (state : CheckedPriors),
      (∀ entry ∈ state.priors, entry.2.within 0 1 = true) →
      ∀ entry ∈ (raw.foldl (checkPrior routes) state).priors, entry.2.within 0 1 = true := by
    intro raw
    induction raw with
    | nil => exact fun state good => good
    | cons entry rest ih =>
        intro state good
        refine ih (checkPrior routes state entry) ?_
        unfold checkPrior
        dsimp only
        split
        · exact good
        · split
          · exact good
          · split
            · exact good
            · split
              · exact good
              · split
                · exact good
                · rename_i inside _
                  intro other member
                  rcases List.mem_append.mp member with before | new
                  · exact good other before
                  · rw [List.mem_singleton.mp new]
                    simpa using inside
  exact kept raw ⟨[], []⟩ nofun

theorem accepted_of_validate {urls : UrlReader} {file : ClassifierFile} {routes : List Described}
    {autoFallback : List Char} {env stored : Env} {classifier : RouteClassifier}
    {raw : AdaptiveScoringFile} {written : Bool} {scoring : AdaptiveScoring}
    (known : Classifier.validate urls file routes autoFallback env stored = .ok classifier)
    (checked : validate raw (some classifier) written = .ok scoring) :
    Accepted classifier scoring := by
  unfold validate at checked
  dsimp only at checked
  split at checked
  · rename_i clean
    cases checked
    rw [List.isEmpty_iff, List.append_eq_nil_iff, List.append_eq_nil_iff] at clean
    obtain ⟨⟨weights, -⟩, against⟩ := clean
    rw [checkAgainst, List.append_eq_nil_iff, weights, List.isEmpty_nil, if_pos rfl,
      List.flatMap_eq_nil_iff] at against
    obtain ⟨w, p, classifierWeight, priorWeight, positive, atLeast⟩ := weightProblems_nil weights
    refine ⟨⟨w, p, classifierWeight, priorWeight, positive, atLeast, fun provider member => ?_⟩, ?_⟩
    · exact influenceProblems_nil (against.2 provider member) classifierWeight priorWeight positive
        (validate_limits known provider member)
    · intro entry member
      exact checkPriors_within _ _ entry ((List.perm_insertionSort _ _).mem_iff.mp member)
  · cases checked

end Accepts

/-! What is decided. -/

theorem prior_number {scoring : AdaptiveScoring}
    (priors : ∀ entry ∈ scoring.priors, entry.2.within 0 1 = true) (route : RouteName) :
    ∃ q, scoring.prior route = some q ∧ 0 ≤ q ∧ q ≤ 1 := by
  unfold AdaptiveScoring.prior
  split
  · rename_i entry found
    exact Exact.within_iff.mp (priors entry (List.mem_of_find?_eq_some found))
  · exact ⟨0, rfl, le_refl 0, zero_le_one⟩

/-- The total of a contender. -/
def total (scoring : AdaptiveScoring) (route : RouteName) (confidence : Exact) : Exact :=
  (scoring.weights.classifier.mul confidence).add (scoring.weights.prior.mul (scoring.prior route))

section Decide

variable (exp2 : Exact → Exact) (scoring : AdaptiveScoring) (history : HistoryBook)
  {classification : Classification} (classifier : RouteClassifier) (now : Nat)

theorem contest_route (trace : ScoringTrace) (fallback : RouteName) (verdict : Verdict)
    (verdictScore fallbackScore : CandidateScore) :
    (contest trace verdict.route fallback verdict verdictScore fallbackScore).route =
      if verdictScore.totalScore.lt fallbackScore.totalScore then fallback else verdict.route := by
  unfold contest
  dsimp only
  cases won : verdictScore.totalScore with
  | none => rfl
  | some x =>
      cases stands : fallbackScore.totalScore with
      | none => rfl
      | some y => rfl

/-- An accepted verdict gives way to a fallback with a greater total. -/
theorem decide_chosen {verdict : Verdict} (named : classification.verdict = some verdict)
    (chosen : classification.outcome = .chosen) :
    (decide exp2 scoring history classification classifier now).route =
      if verdict.route ≠ classifier.fallback ∧
          (total scoring verdict.route verdict.confidence).lt
            (total scoring classifier.fallback classifier.limits.minConfidence) = true then
        classifier.fallback
      else verdict.route := by
  have classified : classification.route classifier = verdict.route := by
    simp [Classification.route, named, chosen]
  unfold decide
  simp only [named, chosen, classified]
  by_cases same : verdict.route = classifier.fallback
  · simp [same]
  · rw [if_neg same, contest_route]
    by_cases beaten : (total scoring verdict.route verdict.confidence).lt
        (total scoring classifier.fallback classifier.limits.minConfidence) = true
    · exact (if_pos beaten).trans (if_pos ⟨same, beaten⟩).symm
    · exact (if_neg beaten).trans (if_neg fun both => beaten both.2).symm

/-- What was not chosen leaves the fallback. -/
theorem decide_unchosen (unchosen : classification.verdict = none ∨
      classification.outcome = .lowConfidence) :
    (decide exp2 scoring history classification classifier now).route = classifier.fallback := by
  unfold decide
  dsimp only
  rcases unchosen with none | low
  · simp [none, Classification.route]
  · cases named : classification.verdict with
    | none => simp [Classification.route, named]
    | some verdict => simp [low, Classification.route, named]

end Decide

section Numbers

variable {scoring : AdaptiveScoring} {w p : ℚ}

theorem total_number (classifier : scoring.weights.classifier = some w)
    (prior : scoring.weights.prior = some p)
    (priors : ∀ entry ∈ scoring.priors, entry.2.within 0 1 = true) (route : RouteName)
    (confidence : ℚ) :
    ∃ q, 0 ≤ q ∧ q ≤ 1 ∧ total scoring route (some confidence) = some (w * confidence + p * q) := by
  obtain ⟨q, known, low, high⟩ := prior_number priors route
  exact ⟨q, low, high, by simp [total, classifier, prior, known, Exact.mul, Exact.add]⟩

/-- Between numbers, what the weights allow: no prior outweighs a confidence in the upper half. -/
theorem upper_half_stands {baseline confidence verdictPrior fallbackPrior : ℚ} (positive : 0 < w)
    (atLeast : 0 ≤ p) (bound : 0 < p / w → p / w < 1 / 2 * (1 - baseline)) (high : baseline ≤ 1)
    (least : 0 ≤ verdictPrior) (most : fallbackPrior ≤ 1)
    (sure : (1 + baseline) / 2 ≤ confidence) :
    ¬w * confidence + p * verdictPrior < w * baseline + p * fallbackPrior := by
  intro overturned
  have margin : (1 - baseline) / 2 ≤ confidence - baseline := by linarith
  have pull : p * fallbackPrior ≤ p := by nlinarith
  have push : 0 ≤ p * verdictPrior := by positivity
  have needed : w * (confidence - baseline) < p := by linarith
  have pulled : 0 < p := lt_of_le_of_lt (mul_nonneg positive.le (by linarith)) needed
  have radius : p < w * (1 / 2 * (1 - baseline)) := by
    have := bound (div_pos pulled positive)
    rwa [div_lt_iff₀ positive, mul_comm] at this
  have reach : w * ((1 - baseline) / 2) ≤ w * (confidence - baseline) :=
    mul_le_mul_of_nonneg_left margin positive.le
  linarith

end Numbers

/-- What is promised of the route that a classification by `asked` is scored to. -/
structure Resolved (exp2 : Exact → Exact) (scoring : AdaptiveScoring) (asked : RouteClassifier)
    (classification : Classification) (route : RouteName) : Prop where
  closed : route ∈ asked.candidates.map Candidate.route ∨ route = asked.fallback
  /-- Without a verdict, or with one below the threshold. -/
  fallback : (∀ verdict, classification.verdict = some verdict →
    verdict.confidence.lt asked.limits.minConfidence = true) → route = asked.fallback
  /-- A verdict in the upper half of the confidences that are taken is not overturned. -/
  dominated : ∀ verdict confidence baseline, classification.verdict = some verdict →
    verdict.confidence = some confidence → asked.limits.minConfidence = some baseline →
    (1 + baseline) / 2 ≤ confidence → route = verdict.route
  unweighted : scoring.weights.prior = some 0 → route = classification.route asked
  unobserved : ∀ (history : HistoryBook) (now : Nat),
    (decide exp2 scoring history classification asked now).route = route

section Main

variable {exp2 : Exact → Exact} {scoring : AdaptiveScoring} {asked : RouteClassifier}
  {classification : Classification} {verdict : Verdict} {w p : ℚ}

theorem resolved_unchosen
    (unchosen : classification.verdict = none ∨ classification.outcome = .lowConfidence)
    (below : ∀ verdict, classification.verdict = some verdict →
      verdict.confidence.lt asked.limits.minConfidence = true)
    (threshold : asked.limits.minConfidence.within 0 1 = true) :
    Resolved exp2 scoring asked classification asked.fallback where
  closed := .inr rfl
  fallback _ := rfl
  dominated := by
    intro verdict confidence baseline named sure bar upper
    obtain ⟨number, known, -, high⟩ := Exact.within_iff.mp threshold
    cases known.symm.trans bar
    have less := below verdict named
    rw [sure, bar] at less
    have := of_decide_eq_true less
    linarith
  unweighted _ := by
    rcases unchosen with none | low
    · simp [Classification.route, none]
    · cases named : classification.verdict with
      | none => simp [Classification.route, named]
      | some verdict => simp [Classification.route, named, low]
  unobserved history now := decide_unchosen exp2 scoring history asked now unchosen

theorem resolved_chosen (history : HistoryBook) (now : Nat)
    (classifierWeight : scoring.weights.classifier = some w)
    (priorWeight : scoring.weights.prior = some p) (positive : 0 < w) (atLeast : 0 ≤ p)
    (priors : ∀ entry ∈ scoring.priors, entry.2.within 0 1 = true)
    (bounded : Dominated w p asked.provider) (named : classification.verdict = some verdict)
    (chosen : classification.outcome = .chosen) (valid : verdict.Valid asked.candidates)
    (taken : verdict.confidence.lt asked.limits.minConfidence = false) :
    Resolved exp2 scoring asked classification
      (decide exp2 scoring history classification asked now).route := by
  obtain ⟨baseline, threshold, low, high, bound⟩ := bounded
  have limits : asked.limits.minConfidence = some baseline := threshold
  obtain ⟨confidence, sure, -, -⟩ := Exact.within_iff.mp valid.confidence
  obtain ⟨v, least, -, verdictTotal⟩ :=
    total_number classifierWeight priorWeight priors verdict.route confidence
  obtain ⟨f, -, most, fallbackTotal⟩ :=
    total_number classifierWeight priorWeight priors asked.fallback baseline
  have decided : ∀ (history : HistoryBook) (now : Nat),
      (decide exp2 scoring history classification asked now).route =
        if verdict.route ≠ asked.fallback ∧ w * confidence + p * v < w * baseline + p * f then
          asked.fallback
        else verdict.route := by
    intro history now
    rw [decide_chosen exp2 scoring history asked now named chosen, sure, limits, verdictTotal,
      fallbackTotal]
    simp [Exact.lt]
  rw [decided]
  refine ⟨?_, ?_, ?_, ?_, decided⟩
  · split
    · exact .inr rfl
    · exact .inl valid.candidate
  · intro below
    exact absurd (below verdict named) (by simp [taken])
  · intro other number bar again isNumber isBar upper
    cases named.symm.trans again
    cases sure.symm.trans isNumber
    cases limits.symm.trans isBar
    exact if_neg fun both => upper_half_stands positive atLeast bound high least most upper both.2
  · intro zero
    cases priorWeight.symm.trans zero
    have own : classification.route asked = verdict.route := by
      simp [Classification.route, named, chosen]
    have accepted : baseline ≤ confidence := by
      rw [sure, limits] at taken
      exact not_lt.mp (of_decide_eq_false taken)
    rw [own]
    refine if_neg fun both => ?_
    have more := both.2
    rw [zero_mul, zero_mul, add_zero, add_zero] at more
    exact absurd (mul_le_mul_of_nonneg_left accepted positive.le) (not_le.mpr more)

/-- For sections that the checks accept, with either provider asked, whatever it answers, and at any
time: the route is a candidate or the fallback; it is the fallback without a verdict that the
threshold takes; a verdict in the upper half of the confidences that are taken stands; without a
weight on the priors the route is the classification's own; and the history has no part in it. -/
theorem scoring_closed_dominated [Lowercase] (serde : Serde) (exp2 : Exact → Exact)
    (urls : UrlReader) (file : ClassifierFile) (routes : List Described) (autoFallback : List Char)
    (env stored : Env) (raw : AdaptiveScoringFile) (written : Bool) {classifier : RouteClassifier}
    {scoring : AdaptiveScoring}
    (known : Classifier.validate urls file routes autoFallback env stored = .ok classifier)
    (checked : validate raw (some classifier) written = .ok scoring)
    (provider : ClassifierProvider)
    (one : provider ∈ classifier.provider :: classifier.standby.toList) (met : Circumstances)
    (history : HistoryBook) (now : Nat) :
    Resolved exp2 scoring (classifier.asking provider)
      (classify serde (classifier.asking provider) met)
      (decide exp2 scoring history (classify serde (classifier.asking provider) met)
        (classifier.asking provider) now).route := by
  obtain ⟨⟨w, p, classifierWeight, priorWeight, positive, atLeast, dominated⟩, priors⟩ :=
    accepted_of_validate known checked
  have threshold := validate_limits known provider one
  rcases classify_ends serde (classifier.asking provider) met with
    ⟨verdict, named, chosen, valid, taken⟩ | ⟨verdict, named, rejected, below⟩ | unanswered
  · exact resolved_chosen history now classifierWeight priorWeight positive atLeast priors
      (dominated provider one) named chosen valid taken
  · rw [decide_unchosen exp2 scoring history _ now (.inr rejected)]
    refine resolved_unchosen (.inr rejected) (fun other again => ?_) threshold
    cases named.symm.trans again
    exact below
  · rw [decide_unchosen exp2 scoring history _ now (.inl unanswered)]
    refine resolved_unchosen (.inl unanswered) (fun other again => ?_) threshold
    cases unanswered.symm.trans again

end Main

section Sample

/-- Two routes to choose between, a third that classifies, and the other provider beside it. -/
def sampleFile : ClassifierFile where
  provider := .lightweight
  routes := [['G'], ['c']]
  fallbackRoute := none
  lightweight := some
    { route := ['Q'], timeoutMs := some 5000, minConfidence := some (1 / 2), maxInputChars := 2000 }
  jev := some
    { baseUrl := ['u'], apiKeyEnv := ['K'], model := some ['m'], timeoutMs := some 5000
      minConfidence := some (3 / 4), maxInputChars := 2000, includeUserText := true }
  route := none
  timeoutMs := none
  minConfidence := none
  maxInputChars := none

def sampleRoutes : List Described := [⟨['G'], none⟩, ⟨['C'], some ['d']⟩, ⟨['Q'], none⟩]

def sampleUrls : UrlReader where
  parse _ := some
    { scheme := https, host := some ['h'], username := [], password := none, query := none
      fragment := none }
  asStr _ := https ++ [':', '/', '/', 'h', '/']
  isLoopbackIp _ := false

def sampleLimits (minConfidence : ℚ) : Limits := ⟨5000, some minConfidence, 2000⟩

def sampleClassifier : RouteClassifier where
  candidates := [⟨['G'], none⟩, ⟨['C'], some ['d']⟩]
  fallback := ['G']
  provider := .lightweight ⟨['Q'], sampleLimits (1 / 2)⟩
  standby := some (.jev
    { baseUrl := https ++ [':', '/', '/', 'h'], apiKeyEnv := ['K'], key := none, keySource := .missing
      model := ['m'], limits := sampleLimits (3 / 4), includeUserText := true })

def sampleScoringFile : AdaptiveScoringFile where
  enabled := true
  weights := ⟨some 1, some (1 / 10), some 0⟩
  priors := [(['c'], some (1 / 2)), (['g'], some 1)]
  history := ⟨3600, 20, none⟩

def sampleScoring : AdaptiveScoring where
  enabled := true
  weights := ⟨some 1, some (1 / 10), some 0⟩
  priors := [(['G'], some 1), (['C'], some (1 / 2))]
  history := ⟨3600, 20, 20⟩

/-- A reply that is no JSON. -/
def sampleMet : Circumstances where
  expired := false
  budgetFirst := false
  late := false
  nested := { exhausted := false, status := 200, body := some [] }
  jev := .answered 200 (some [])
  duration := 0
  requestId := []
  inputTruncated := false

theorem sample_resolved :
    @Classifier.validate asciiLowercase sampleUrls sampleFile sampleRoutes ['G'] (fun _ => none)
        (fun _ => none) = .ok sampleClassifier ∧
      @validate asciiLowercase sampleScoringFile (some sampleClassifier) true = .ok sampleScoring ∧
      Resolved id sampleScoring sampleClassifier
        (@classify asciiLowercase ⟨fun _ => none, fun _ => []⟩ sampleClassifier sampleMet)
        (decide id sampleScoring ⟨none, [], []⟩
          (@classify asciiLowercase ⟨fun _ => none, fun _ => []⟩ sampleClassifier sampleMet)
          sampleClassifier 0).route := by
  have known : @Classifier.validate asciiLowercase sampleUrls sampleFile sampleRoutes ['G']
      (fun _ => none) (fun _ => none) = .ok sampleClassifier := by decide +kernel
  have checked : @validate asciiLowercase sampleScoringFile (some sampleClassifier) true =
      .ok sampleScoring := by decide +kernel
  exact ⟨known, checked, @scoring_closed_dominated asciiLowercase ⟨fun _ => none, fun _ => []⟩ id
    sampleUrls sampleFile sampleRoutes ['G'] (fun _ => none) (fun _ => none) sampleScoringFile true
    sampleClassifier sampleScoring known checked sampleClassifier.provider List.mem_cons_self
    sampleMet ⟨none, [], []⟩ 0⟩

end Sample

end Lightweight.Router.Scoring
