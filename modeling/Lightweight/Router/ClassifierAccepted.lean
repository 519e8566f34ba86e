import Lightweight.Collect
import Lightweight.Router.Classifier

/-! Which classifier sections are accepted: those in which nothing is wrong, and among them the ones
whose candidates are configured routes, each named once. -/

namespace Lightweight.Router.Classifier

open Lightweight.Core Lightweight.Catalog

/-- A check that finds nothing wrong has a result. -/
def Checked.Settled {α : Type} (checked : Checked α) : Prop :=
  checked.problems = [] → ∃ result, checked.result = some result

theorem report_settled {α : Type} (say : TargetProblem → Problem) (found : Except TargetProblem α) :
    (report say found).Settled := by
  intro clean
  cases found with
  | error problem => cases clean
  | ok result => exact ⟨result, rfl⟩

theorem validateLimits_settled (place : List Char) (timeoutMs : Option Nat)
    (minConfidence : Binary64.Exact) (inputChars : Nat) :
    (validateLimits place timeoutMs minConfidence inputChars).Settled := by
  intro clean
  unfold validateLimits at clean ⊢
  dsimp only at clean ⊢
  rw [clean]
  exact ⟨_, rfl⟩

theorem validateBaseUrl_settled (urls : UrlReader) (raw : List Char) :
    (validateBaseUrl urls raw).Settled := by
  intro clean
  unfold validateBaseUrl at clean ⊢
  split at clean
  · split_ifs at clean ⊢ with secure
    exact ⟨_, rfl⟩
  · cases clean

theorem validateModel_settled (raw : Option (List Char)) : (validateModel raw).Settled := by
  intro clean
  unfold validateModel at clean ⊢
  split at clean
  · cases clean
  · split_ifs at clean ⊢ with empty invalid
    exact ⟨_, rfl⟩

/-- Of the Jev block, unless its key is missing. -/
theorem validateJev_settled {urls : UrlReader} {raw : JevFile} {active : Bool} {env stored : Env}
    (held : (validateJev urls raw active env stored).2 = []) :
    (validateJev urls raw active env stored).1.Settled := by
  intro clean
  unfold validateJev at held clean ⊢
  dsimp only at held clean ⊢
  cases found : findKey raw active env stored with
  | error missing =>
      rw [found] at held
      cases held
  | ok key =>
      rw [found] at clean
      simp only [List.append_eq_nil_iff] at clean
      obtain ⟨⟨url, model⟩, limits⟩ := clean
      obtain ⟨baseUrl, url⟩ := validateBaseUrl_settled urls raw.baseUrl url
      obtain ⟨model', model⟩ := validateModel_settled raw.model model
      obtain ⟨limits', limits⟩ := validateLimits_settled _ _ _ _ limits
      rw [url, model, limits]
      exact ⟨_, rfl⟩

section Validate

variable [Lowercase]

theorem validateLightweight_settled (raw : LightweightFile) (routes : List Described)
    (place : List Char) : (validateLightweight raw routes place).Settled := by
  intro clean
  unfold validateLightweight at clean ⊢
  dsimp only at clean ⊢
  rw [List.append_eq_nil_iff] at clean
  obtain ⟨route, found⟩ := report_settled _ _ clean.1
  obtain ⟨limits, checked⟩ := validateLimits_settled _ _ _ _ clean.2
  rw [found, checked]
  exact ⟨_, rfl⟩

theorem refusals_of_ok {urls : UrlReader} {raw : ClassifierFile} {routes : List Described}
    {autoFallback : List Char} {env stored : Env} {classifier : RouteClassifier}
    (accepted : validate urls raw routes autoFallback env stored = .ok classifier) :
    refusals urls raw routes autoFallback env stored = [] := by
  simp only [validate] at accepted
  split at accepted
  · rename_i clean
    exact List.isEmpty_iff.mp clean
  · cases accepted

/-- A section is accepted exactly where nothing is wrong with it. -/
theorem validate_ok_iff {urls : UrlReader} {raw : ClassifierFile} {routes : List Described}
    {autoFallback : List Char} {env stored : Env} :
    (∃ classifier, validate urls raw routes autoFallback env stored = .ok classifier) ↔
      refusals urls raw routes autoFallback env stored = [] := by
  constructor
  · rintro ⟨classifier, accepted⟩
    exact refusals_of_ok accepted
  · intro clean
    unfold validate
    dsimp only
    rw [clean]
    simp only [refusals, List.append_eq_nil_iff, List.map_eq_nil_iff] at clean
    obtain ⟨held, ⟨⟨⟨⟨⟨fallback, _⟩, _⟩, lightweight⟩, jev⟩, provider⟩⟩ := clean
    obtain ⟨route, found⟩ : ∃ route, (checkFallback raw routes autoFallback).result = some route :=
      report_settled _ _ fallback
    have assigned : ∃ found, (assign raw.provider (checkLightweight raw routes).result
        (checkJev urls raw env stored).1.result).1 = some found := by
      unfold missingProvider at provider
      cases selected : raw.provider with
      | lightweight =>
          rw [selected] at provider
          cases block : (lightweightFile raw).result with
          | none =>
              rw [block] at provider
              cases provider
          | some written =>
              unfold checkLightweight at lightweight ⊢
              rw [block] at lightweight ⊢
              obtain ⟨result, checked⟩ := validateLightweight_settled _ _ _ lightweight
              exact ⟨.lightweight result, by simp [assign, checked]⟩
      | jev =>
          rw [selected] at provider
          cases block : raw.jev with
          | none =>
              rw [block] at provider
              cases provider
          | some written =>
              unfold checkJev at held jev ⊢
              rw [block] at held jev ⊢
              obtain ⟨result, checked⟩ := validateJev_settled held jev
              exact ⟨.jev result, by simp [assign, checked]⟩
    obtain ⟨found', assigned⟩ := assigned
    rw [found, assigned]
    exact ⟨_, rfl⟩

/-! ### Candidates -/

theorem configured_eq_ok {name : List Char} {routes : List Described} {route : RouteName} :
    configured name routes = .ok route ↔ isAuto name = false ∧ isReserved name = false ∧
      (routes.find? fun route => RouteName.matches route.name name).map Described.name =
        some route := by
  unfold configured
  cases auto : isAuto name with
  | true => simp
  | false =>
      cases reserved : isReserved name with
      | true => simp
      | false =>
          cases found : routes.find? fun route => RouteName.matches route.name name with
          | none => simp
          | some described => simp

/-- A route is found under the name it has. -/
theorem configured_same {name : List Char} {routes : List Described} {route : RouteName}
    (found : configured name routes = .ok route) : sameName route name = true := by
  obtain ⟨_, _, searched⟩ := configured_eq_ok.mp found
  obtain ⟨described, here, rfl⟩ := Option.map_eq_some_iff.mp searched
  have named := List.find?_some here
  exact named

/-- Two names are found to be the same route exactly where they are compared as the same. -/
theorem configured_eq_iff {a b : List Char} {routes : List Described} {first second : RouteName}
    (one : configured a routes = .ok first) (other : configured b routes = .ok second) :
    first = second ↔ sameName a b = true := by
  have left := sameName_iff.mp (configured_same one)
  have right := sameName_iff.mp (configured_same other)
  rw [sameName_iff]
  constructor
  · rintro rfl
    rw [← left, right]
  · intro same
    have alike : ∀ route : Described,
        RouteName.matches route.name a = RouteName.matches route.name b := by
      intro route
      simp only [RouteName.matches, sameName, same]
    obtain ⟨_, _, searched⟩ := configured_eq_ok.mp one
    obtain ⟨_, _, again⟩ := configured_eq_ok.mp other
    simp only [alike] at searched
    rw [searched] at again
    exact Option.some.inj again

/-- The candidate an entry stands for. -/
structure Stands (routes : List Described) (name : List Char) (candidate : Candidate) : Prop where
  route : configured name routes = .ok candidate.route
  description : candidate.description =
    (routes.find? fun route => route.name == candidate.route).bind Described.description

theorem checkCandidate_collects (routes : List Described) :
    Collects (fun state : CheckedCandidates => state.problems = []) CheckedCandidates.candidates
      (checkCandidate routes) (Stands routes) Candidate.route where
  sound := by
    intro state name clean
    unfold checkCandidate at clean ⊢
    cases found : configured name routes with
    | error problem => simp [found] at clean
    | ok route =>
        rw [found] at clean
        dsimp only at clean ⊢
        split_ifs at clean ⊢ with twice
        · simp at clean
        · refine ⟨clean, ⟨route, _⟩, ⟨found, rfl⟩, ?_, rfl⟩
          simpa using twice
  complete := by
    intro state name candidate clean stands fresh
    unfold checkCandidate
    rw [stands.route]
    dsimp only
    rw [if_neg (by simpa using fresh), ← stands.description]
    exact ⟨clean, rfl⟩

/-- The candidates are distinct exactly where no two entries are compared as the same. -/
theorem stands_nodup_iff {routes : List Described} {names : List (List Char)}
    {candidates : List Candidate} (fitting : List.Forall₂ (Stands routes) names candidates) :
    (candidates.map Candidate.route).Nodup ↔ names.Pairwise fun a b => sameName a b = false := by
  -- A key stands for one route, and a route for one key.
  have unique : Relator.BiUnique fun (key : List Char) (route : RouteName) =>
      ∃ name, lookupKey name = key ∧ configured name routes = .ok route := by
    constructor
    · rintro _ route _ ⟨a, rfl, one⟩ ⟨b, rfl, other⟩
      exact sameName_iff.mp ((configured_eq_iff one other).mp rfl)
    · rintro _ first second ⟨a, rfl, one⟩ ⟨b, same, other⟩
      exact (configured_eq_iff one other).mpr (sameName_iff.mpr same.symm)
  have keyed : List.Forall₂ (fun (key : List Char) (route : RouteName) =>
      ∃ name, lookupKey name = key ∧ configured name routes = .ok route)
      (names.map lookupKey) (candidates.map Candidate.route) := by
    rw [List.forall₂_map_left_iff, List.forall₂_map_right_iff]
    exact fitting.imp fun name candidate stands => ⟨name, rfl, stands.route⟩
  have same : (names.map lookupKey).Nodup ↔ (candidates.map Candidate.route).Nodup :=
    List.rel_nodup unique keyed
  rw [← same, List.Nodup, List.pairwise_map]
  simp only [sameName, beq_eq_false_iff_ne]

/-- Entries that are all routes are refused only where two of them are the same one. -/
theorem checkCandidates_clean_iff {routes : List Described} {names : List (List Char)}
    (found : ∀ name ∈ names, ∃ route, configured name routes = .ok route) :
    (checkCandidates routes names).problems = [] ↔
      names.Pairwise fun a b => sameName a b = false := by
  have run := (checkCandidate_collects routes).foldl_iff names ⟨[], []⟩ rfl rfl
  constructor
  · intro clean
    obtain ⟨fitting, once⟩ := (run (checkCandidates routes names).candidates).mp ⟨clean, rfl⟩
    exact (stands_nodup_iff fitting).mp once
  · intro apart
    have each : ∀ name ∈ names, ∃ candidate, Stands routes name candidate := by
      intro name member
      obtain ⟨route, named⟩ := found name member
      exact ⟨⟨route, (routes.find? fun found => found.name == route).bind Described.description⟩,
        named, rfl⟩
    obtain ⟨candidates, fitting⟩ := exists_forall₂ each
    exact ((run candidates).mpr ⟨fitting, (stands_nodup_iff fitting).mpr apart⟩).1

end Validate

end Lightweight.Router.Classifier
