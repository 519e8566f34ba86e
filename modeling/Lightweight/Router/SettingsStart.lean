import Lightweight.Router.ClassifierAccepted
import Lightweight.Router.SettingsRequests

/-! Whether the router would start from its file after saves and removals that are served one after
another (`lightweight-router/src/classifier_settings.rs`): what the check of a file has to do with the
stored keys, what a save and a removal leave, and what a save changes in the file. -/

namespace Lightweight.Router.Settings

open Lightweight.Core Lightweight.Catalog Binary64 Classifier Auto Reading Transition

/-! A validated classifier without its key. -/

def unkeyedJev (provider : JevClassifier) : JevClassifier :=
  { provider with key := none, keySource := .missing }

def unkeyedProvider : ClassifierProvider → ClassifierProvider
  | .lightweight provider => .lightweight provider
  | .jev provider => .jev (unkeyedJev provider)

def unkeyed (classifier : RouteClassifier) : RouteClassifier :=
  { classifier with
    provider := unkeyedProvider classifier.provider
    standby := classifier.standby.map unkeyedProvider }

@[simp] theorem providerRoute_unkeyed (provider : ClassifierProvider) :
    providerRoute (unkeyedProvider provider) = providerRoute provider := by
  cases provider <;> rfl

@[simp] theorem influenceProblems_unkeyed (weights : Scoring.Weights) (provider : ClassifierProvider) :
    Scoring.influenceProblems weights (unkeyedProvider provider) =
      Scoring.influenceProblems weights provider := by
  cases provider <;> rfl

theorem classifierRoutes_unkeyed (classifier : RouteClassifier) :
    classifierRoutes (some (unkeyed classifier)) = classifierRoutes (some classifier) := by
  cases standby : classifier.standby <;>
    simp [classifierRoutes, unkeyed, standby, List.filterMap_cons]

section Check

variable [Lowercase]

theorem checkAgainst_unkeyed (raw : Scoring.AdaptiveScoringFile) (classifier : RouteClassifier) :
    Scoring.checkAgainst raw (unkeyed classifier) = Scoring.checkAgainst raw classifier := by
  have influence :
      ((unkeyed classifier).provider :: (unkeyed classifier).standby.toList).flatMap
          (Scoring.influenceProblems raw.weights) =
        (classifier.provider :: classifier.standby.toList).flatMap
          (Scoring.influenceProblems raw.weights) := by
    cases standby : classifier.standby <;> simp [unkeyed, standby]
  unfold Scoring.checkAgainst
  rw [influence]
  rfl

/-- The checks around the classifier do not look at its key. -/
theorem check_unkeyed (raw : AutoRouteFile) (routes : List Route) (found : List AutoProblem)
    (classifier : RouteClassifier) :
    check raw routes found (some (unkeyed classifier)) = check raw routes found (some classifier) := by
  have scoring : checkScoring raw (some (unkeyed classifier)) = checkScoring raw (some classifier) := by
    cases section_ : raw.adaptiveScoring <;>
      simp [checkScoring, section_, Scoring.validate, checkAgainst_unkeyed]
  have rules : checkRules raw routes (some (unkeyed classifier)) =
      checkRules raw routes (some classifier) := rfl
  have cross : ∀ clean fallback rules,
      checkCrossRoute raw routes clean fallback rules (some (unkeyed classifier)) =
        checkCrossRoute raw routes clean fallback rules (some classifier) := by
    intro clean fallback rules
    unfold checkCrossRoute
    rw [classifierRoutes_unkeyed]
    rfl
  simp only [check, scoring, rules, cross]

end Check

/-! The check of the classifier, and the stored keys. -/

/-- The section needs no stored key, or one that is there both times. -/
def SameKey (env stored stored' : Env) (var : List Char) : Prop :=
  (present (env var)).isSome ∨ stored' var = stored var

/-- The environment is read like the store, under a usable name. -/
theorem readSecret_eq (owner var : List Char) (env : Env) :
    (readSecret owner var env).toOption = if usableEnvName var then present (env var) else none := by
  unfold readSecret
  cases usable : usableEnvName var with
  | false => rfl
  | true =>
      cases found : env var with
      | none => rfl
      | some raw =>
          cases trimmed : trim raw with
          | nil => simp [present, trimmed, Option.filter, Except.toOption]
          | cons c value => simp [present, trimmed, Option.filter, Except.toOption]

theorem findKey_kept {raw : JevFile} {active : Bool} {env stored stored' : Env}
    (found : (findKey raw active env stored).isOk = true)
    (kept : active = true → SameKey env stored stored' raw.apiKeyEnv) :
    (findKey raw active env stored').isOk = true := by
  cases active with
  | false =>
      simp only [findKey, Bool.false_eq_true, if_false]
      split
      · rfl
      · split <;> rfl
  | true =>
      have read := readSecret_eq jevOwner raw.apiKeyEnv env
      simp only [findKey, if_true] at found ⊢
      cases secret : readSecret jevOwner raw.apiKeyEnv env with
      | ok key => rfl
      | error missing =>
          rw [secret] at found read
          cases usable : usableEnvName raw.apiKeyEnv with
          | false => simp [fromStore, usable, Except.isOk, Except.toBool] at found
          | true =>
              rw [usable, if_pos rfl] at read
              rcases kept rfl with there | same
              · simp [← read, Except.toOption] at there
              · simpa [fromStore, same] using found

/-- What is found of the block does not depend on the key, once there is one where there has to be. -/
theorem validateJev_kept (urls : UrlReader) {raw : JevFile} {active : Bool} {env stored stored' : Env}
    (before : (findKey raw active env stored).isOk = true)
    (after : (findKey raw active env stored').isOk = true) :
    (validateJev urls raw active env stored').1.problems =
        (validateJev urls raw active env stored).1.problems ∧
      (validateJev urls raw active env stored').2 = (validateJev urls raw active env stored).2 ∧
      (validateJev urls raw active env stored').1.result.map unkeyedJev =
        (validateJev urls raw active env stored).1.result.map unkeyedJev := by
  unfold validateJev
  cases found : findKey raw active env stored with
  | error missing => simp [found, Except.isOk, Except.toBool] at before
  | ok key =>
      cases found' : findKey raw active env stored' with
      | error missing => simp [found', Except.isOk, Except.toBool] at after
      | ok key' =>
          refine ⟨rfl, rfl, ?_⟩
          dsimp only
          cases (validateBaseUrl urls raw.baseUrl).result with
          | none => rfl
          | some baseUrl =>
              cases (validateModel raw.model).result with
              | none => rfl
              | some model =>
                  cases (validateLimits jevPlace raw.timeoutMs raw.minConfidence
                    raw.maxInputChars).result <;> rfl

theorem validateJev_missing {urls : UrlReader} {raw : JevFile} {active : Bool} {env stored : Env}
    (none_ : (validateJev urls raw active env stored).2 = []) :
    (findKey raw active env stored).isOk = true := by
  unfold validateJev at none_
  cases found : findKey raw active env stored with
  | ok key => rfl
  | error missing => simp [found] at none_

/-- The keys that the section needs are there both times. -/
def SameKeys (env stored stored' : Env) (raw : ClassifierFile) : Prop :=
  raw.provider = .jev → ∀ block, raw.jev = some block → SameKey env stored stored' block.apiKeyEnv

theorem checkJev_kept {urls : UrlReader} {raw : ClassifierFile} {env stored stored' : Env}
    (none_ : (checkJev urls raw env stored).2 = []) (kept : SameKeys env stored stored' raw) :
    (checkJev urls raw env stored').1.problems = (checkJev urls raw env stored).1.problems ∧
      (checkJev urls raw env stored').2 = (checkJev urls raw env stored).2 ∧
      (checkJev urls raw env stored').1.result.map unkeyedJev =
        (checkJev urls raw env stored).1.result.map unkeyedJev := by
  unfold checkJev at none_ ⊢
  cases written : raw.jev with
  | none => exact ⟨rfl, rfl, rfl⟩
  | some block =>
      rw [written] at none_
      have before := validateJev_missing none_
      exact validateJev_kept urls before
        (findKey_kept before fun active => kept (by simpa using active) block written)

/-- The two providers, but for a key. -/
theorem assign_kept (kind : ProviderKind) (lightweight : Option LightweightClassifier)
    {jev jev' : Option JevClassifier} (same : jev'.map unkeyedJev = jev.map unkeyedJev) :
    (assign kind lightweight jev').1.map unkeyedProvider =
        (assign kind lightweight jev).1.map unkeyedProvider ∧
      (assign kind lightweight jev').2.map unkeyedProvider =
        (assign kind lightweight jev).2.map unkeyedProvider := by
  have provider : (jev'.map ClassifierProvider.jev).map unkeyedProvider =
      (jev.map ClassifierProvider.jev).map unkeyedProvider := by
    cases jev <;> cases jev' <;> simp_all [unkeyedProvider]
  cases kind with
  | lightweight => exact ⟨rfl, provider⟩
  | jev => exact ⟨provider, rfl⟩

section Keys

variable [Lowercase]

theorem refusals_kept {urls : UrlReader} {raw : ClassifierFile} {routes : List Described}
    {autoFallback : List Char} {env stored stored' : Env}
    (clean : refusals urls raw routes autoFallback env stored = [])
    (kept : SameKeys env stored stored' raw) :
    refusals urls raw routes autoFallback env stored' = [] ∧
      (checkJev urls raw env stored').1.result.map unkeyedJev =
        (checkJev urls raw env stored).1.result.map unkeyedJev := by
  unfold refusals at clean ⊢
  dsimp only at clean ⊢
  have none_ : (checkJev urls raw env stored).2 = [] :=
    List.map_eq_nil_iff.mp (List.append_eq_nil_iff.mp clean).1
  obtain ⟨problems, missing, result⟩ := checkJev_kept none_ kept
  rw [problems, missing]
  exact ⟨clean, result⟩

theorem validate_kept {urls : UrlReader} {raw : ClassifierFile} {routes : List Described}
    {autoFallback : List Char} {env stored stored' : Env}
    (clean : refusals urls raw routes autoFallback env stored = [])
    (kept : SameKeys env stored stored' raw) :
    (Classifier.validate urls raw routes autoFallback env stored').map unkeyed =
      (Classifier.validate urls raw routes autoFallback env stored).map unkeyed := by
  obtain ⟨clean', same⟩ := refusals_kept clean kept
  obtain ⟨first, second⟩ := assign_kept raw.provider (checkLightweight raw routes).result same
  unfold Classifier.validate
  dsimp only
  rw [clean', clean, if_pos List.isEmpty_nil]
  revert first second
  generalize assign raw.provider (checkLightweight raw routes).result
    (checkJev urls raw env stored').1.result = assigned'
  generalize assign raw.provider (checkLightweight raw routes).result
    (checkJev urls raw env stored).1.result = assigned
  obtain ⟨provider', standby'⟩ := assigned'
  obtain ⟨provider, standby⟩ := assigned
  intro first second
  cases (checkFallback raw routes autoFallback).result with
  | none => cases provider' <;> cases provider <;> rfl
  | some fallback =>
      cases provider' <;> cases provider <;> simp_all [unkeyed, Except.map]

/-- A section that is refused is refused for all that is wrong with it. -/
theorem refusals_of_error {urls : UrlReader} {raw : ClassifierFile} {routes : List Described}
    {autoFallback : List Char} {env stored : Env} {problems : List Classifier.Refusal}
    (refused : Classifier.validate urls raw routes autoFallback env stored = .error problems) :
    refusals urls raw routes autoFallback env stored = problems := by
  simp only [Classifier.validate] at refused
  split at refused
  · rename_i clean
    rw [List.isEmpty_iff.mp clean]
    split at refused
    · cases refused
    · exact Except.error.inj refused
  · exact Except.error.inj refused

theorem checkClassifier_kept {urls : UrlReader} {raw : AutoRouteFile} {described : List Described}
    {env stored stored' : Env}
    (clean : (checkClassifier urls raw described env stored).2 = [])
    (kept : ∀ written, raw.classifier = some written → SameKeys env stored stored' written) :
    (checkClassifier urls raw described env stored').2 = [] ∧
      (checkClassifier urls raw described env stored').1.map unkeyed =
        (checkClassifier urls raw described env stored).1.map unkeyed := by
  unfold checkClassifier at clean ⊢
  cases section_ : raw.classifier with
  | none => exact ⟨rfl, rfl⟩
  | some written =>
      rw [section_] at clean
      dsimp only at clean ⊢
      cases before : Classifier.validate urls written described raw.fallbackRoute env stored with
      | ok classifier =>
          have same := validate_kept (refusals_of_ok before) (kept written section_)
          rw [before] at same
          cases after : Classifier.validate urls written described raw.fallbackRoute env stored' with
          | ok classifier' =>
              rw [after] at same
              exact ⟨rfl, congrArg some (Except.ok.inj same)⟩
          | error problems =>
              rw [after] at same
              cases same
      | error problems =>
          rw [before] at clean
          have none_ : problems = [] := List.map_eq_nil_iff.mp clean
          have same := validate_kept ((refusals_of_error before).trans none_) (kept written section_)
          rw [before] at same
          cases after : Classifier.validate urls written described raw.fallbackRoute env stored' with
          | ok classifier' =>
              rw [after] at same
              cases same
          | error problems' =>
              rw [after] at same
              cases same
              exact ⟨clean, rfl⟩

/-- A section that is refused is refused for all that its checks find. -/
theorem checkAuto_problems {urls : UrlReader} {whole : WholeFile} {routes : List Route}
    {env stored : Env} {auto : AutoRouteFile} (section_ : whole.autoRoute = some auto) :
    (checkAuto urls whole routes env stored).2 =
      (check auto routes
        (checkClassifier urls auto (routes.map (describe whole.file.routes)) env stored).2
        (checkClassifier urls auto (routes.map (describe whole.file.routes)) env stored).1).problems := by
  simp only [checkAuto, section_, Auto.validate]
  generalize check auto routes _ _ = checked
  unfold assemble
  cases clean : checked.problems.isEmpty with
  | false => rfl
  | true =>
      cases checked.fallback <;> cases checked.crossRouteFallback <;> try rfl
      exact (List.isEmpty_iff.mp clean).symm

theorem check_kept {raw : AutoRouteFile} {routes : List Route} {found : List AutoProblem}
    {a b : Option RouteClassifier} (same : a.map unkeyed = b.map unkeyed) :
    check raw routes found a = check raw routes found b := by
  cases a <;> cases b
  · rfl
  · cases same
  · cases same
  · rename_i a b
    rw [← check_unkeyed raw routes found a, ← check_unkeyed raw routes found b,
      Option.some.inj same]

/-- A file that would start goes on to start when the keys that it needs are still there. -/
theorem accepts_kept {texts : Texts} {whole : WholeFile} {env stored stored' : Env}
    (accepted : texts.accepts whole env stored = true)
    (kept : ∀ auto raw, whole.autoRoute = some auto → auto.classifier = some raw →
      SameKeys env stored stored' raw) :
    texts.accepts whole env stored' = true := by
  unfold Texts.accepts at accepted ⊢
  rw [validateWithStore_isOk] at accepted ⊢
  refine ⟨accepted.1, ?_⟩
  have clean := accepted.2
  cases section_ : whole.autoRoute with
  | none => simp [checkAuto, section_]
  | some auto =>
      rw [checkAuto_problems section_] at clean ⊢
      generalize checkedRoutes texts.urls whole env = routes at clean ⊢
      have found : (checkClassifier texts.urls auto
          (routes.routes.map (describe whole.file.routes)) env stored).2 = [] := by
        simp only [check, List.append_eq_nil_iff] at clean
        exact clean.1.1.1.1.2
      obtain ⟨found', same⟩ := checkClassifier_kept found fun written => kept auto written section_
      rw [found', check_kept same]
      rwa [found] at clean

end Keys

/-! A save and a removal in which nothing fails. -/

/-- What a save leaves. -/
def saved (machine : Machine) (edited : Edited) (apiKey : Option (List Char)) : Machine :=
  let kept := match apiKey with
    | some key => machine.put (jevAccount edited.apiKeyEnv) (some key)
    | none => machine
  { kept with file := edited.next, backup := some machine.file }

/-- The keys after a save are those that it was checked with. -/
theorem saved_keys (machine : Machine) (edited : Edited) (request : SaveRequest) :
    (fun var => (saved machine edited request.apiKey).get (jevAccount var)) =
      standingIn edited request.apiKey fun var => machine.get (jevAccount var) := by
  funext var
  unfold standingIn
  cases brought : request.apiKey with
  | none => simp [saved, Machine.get]
  | some key =>
      change (machine.put (jevAccount edited.apiKeyEnv) (some key)).get (jevAccount var) = _
      by_cases here : var = edited.apiKeyEnv
      · simp [here, request.keyWhole key brought]
      · have apart : jevAccount var ≠ jevAccount edited.apiKeyEnv := fun same =>
          here (jevAccount_injective same)
        simp [here, machine.get_put_other (some key) apart]

/-- What an edit is made of. -/
structure Edits (texts : Texts) (text : List Char) (request : SaveRequest) (edited : Edited)
    (document : Value) (before after : Map) : Prop where
  parsed : texts.fromStr text = some document
  found : classifierSection document = some before
  patched : patchSection request before = .ok after
  next : edited.next = texts.pretty (withSection document after) ++ ['\n']
  read : texts.read edited.next = some edited.file

theorem edit_eq_ok {texts : Texts} {text expected : List Char} {request : SaveRequest}
    {edited : Edited} (made : edit texts text expected request = .ok edited) :
    ∃ document before after, Edits texts text request edited document before after := by
  unfold edit at made
  split at made
  · cases made
  · split at made
    · cases made
    · rename_i document parsed
      split at made
      · cases made
      · rename_i before found
        split at made
        · cases made
        · rename_i after patched
          dsimp only at made
          split at made
          · cases made
          · rename_i file read
            cases made
            exact ⟨document, before, after, parsed, found, patched, rfl, read⟩

/-- The two values agree but for two members of the classifier section. -/
def SameOutside (old new : Value) : Prop :=
  (∀ key, key ≠ autoRouteKey → new.get key = old.get key) ∧
  ∃ auto auto', old.get autoRouteKey = some auto ∧ new.get autoRouteKey = some auto' ∧
    (∀ key, key ≠ classifierKey → auto'.get key = auto.get key) ∧
    ∃ written written', auto.get classifierKey = some written ∧
      auto'.get classifierKey = some written' ∧
      ∀ key, key ≠ providerKey → key ≠ jevKey → written'.get key = written.get key

theorem patchSection_others {request : SaveRequest} {before after : Map}
    (patched : patchSection request before = .ok after) {key : List Char} (provider : key ≠ providerKey)
    (jev : key ≠ jevKey) : Map.get key after = Map.get key before := by
  unfold patchSection at patched
  dsimp only at patched
  split at patched
  · cases patched
    rw [get_put, if_neg provider]
  · split at patched
    · split at patched
      · cases patched
        rw [get_put, if_neg jev, get_put, if_neg provider]
      · cases patched
    · cases patched

theorem withSection_outside {document : Value} {before after : Map}
    (found : classifierSection document = some before)
    (same : ∀ key, key ≠ providerKey → key ≠ jevKey → Map.get key after = Map.get key before) :
    SameOutside document (withSection document after) := by
  unfold classifierSection at found
  split at found
  · rename_i root
    split at found
    · rename_i auto there
      split at found
      · rename_i members within
        cases found
        have written : withSection (.object root) after =
            .object (put autoRouteKey (.object (put classifierKey (.object after) auto)) root) := by
          simp [withSection, there]
        rw [written]
        refine ⟨fun key other => ?_, .object auto, .object (put classifierKey (.object after) auto),
          there, ?_, fun key other => ?_, .object before, .object after, within, ?_, same⟩
        · rw [Value.get, get_put, if_neg other, Value.get]
        · rw [Value.get, get_put, if_pos rfl]
        · rw [Value.get, get_put, if_neg other, Value.get]
        · rw [Value.get, get_put, if_pos rfl]
      · cases found
    · cases found
  · cases found

section Serve

variable [Lowercase] (texts : Texts) (env : Env)

theorem save_unfailing (machine : Machine) (expected : List Char) (request : SaveRequest) :
    save texts env none machine expected request =
      match checks texts env expected request machine with
      | .error failure => (machine, .returned (.error failure))
      | .ok edited => (saved machine edited request.apiKey,
          .returned (.ok (if request.apiKey.isSome then .replaced else .unchanged))) := by
  have looked : lookedUp none machine = fun var => machine.get (jevAccount var) :=
    lookedUp_answered rfl machine
  unfold checks
  cases made : edit texts machine.file expected request with
  | error failure => simp [save, saveSteps, saveStep, refusal, made]
  | ok edited =>
      cases brought : request.apiKey with
      | some key =>
          have whole := request.keyWhole key brought
          cases accepted : texts.accepts edited.file env
              (standingIn edited (some key) fun var => machine.get (jevAccount var)) with
          | false =>
              simp [save, saveSteps, saveStep, refusal, made, brought, looked, accepted]
          | true =>
              simp [save, saveSteps, saveStep, refusal, made, brought, looked, accepted, keptBy, whole,
                saved]
      | none =>
          have standing : standingIn edited none (fun var => machine.get (jevAccount var)) =
              fun var => machine.get (jevAccount var) := by
            funext var
            simp [standingIn]
          by_cases needed : request.provider = .jev ∧ inEnvironment env edited.apiKeyEnv = false
          · cases held : machine.get (jevAccount edited.apiKeyEnv) with
            | none => simp [save, saveSteps, saveStep, refusal, made, brought, needed, held]
            | some key =>
                cases accepted : texts.accepts edited.file env
                    (fun var => machine.get (jevAccount var)) <;>
                  simp [save, saveSteps, saveStep, refusal, made, brought, needed, held, standing,
                    looked, accepted, saved]
          · have held : ¬(request.provider = .jev ∧ inEnvironment env edited.apiKeyEnv = false ∧
                machine.get (jevAccount edited.apiKeyEnv) = none) :=
              fun missing => needed ⟨missing.1, missing.2.1⟩
            cases accepted : texts.accepts edited.file env
                (fun var => machine.get (jevAccount var)) <;>
              simp [save, saveSteps, saveStep, refusal, made, brought, if_neg needed, if_neg held,
                standing, looked, accepted, saved]

theorem checks_eq_ok {machine : Machine} {expected : List Char} {request : SaveRequest}
    {edited : Edited} (checked : checks texts env expected request machine = .ok edited) :
    edit texts machine.file expected request = .ok edited ∧
      texts.accepts edited.file env
        (standingIn edited request.apiKey fun var => machine.get (jevAccount var)) = true := by
  unfold checks at checked
  split at checked
  · cases checked
  · rename_i made
    split at checked
    · cases checked
    · split at checked
      · rename_i accepted
        cases checked
        exact ⟨made, accepted⟩
      · cases checked

/-- The router would start from the file that there is, with the keys that there are. -/
def Starts (machine : Machine) : Prop :=
  ∃ file, texts.read machine.file = some file ∧
    texts.accepts file env (fun var => machine.get (jevAccount var)) = true

/-- A request of a sequence, served with no other beside it. -/
def serve (machine : Machine) (request : Request) : Option Machine :=
  some (perform texts env machine request).1

/-- Nothing fails while the request is served, and the provider that a removal finds in the file is
Jev if that is what a start reads. -/
def Recognised (machine : Machine) : Request → Prop
  | .save _ _ fault => fault = none
  | .removeKey _ fault => fault = none ∧ ∀ file, texts.read machine.file = some file →
      providerOf file = some .jev → (summary (sectionOf texts machine.file)).provider = some jevKey

variable {texts env}

theorem save_starts {machine : Machine} {expected : List Char} {request : SaveRequest}
    (starts : Starts texts env machine) :
    Starts texts env (save texts env none machine expected request).1 := by
  rw [save_unfailing]
  cases checked : checks texts env expected request machine with
  | error failure => exact starts
  | ok edited =>
      obtain ⟨made, accepted⟩ := checks_eq_ok texts env checked
      obtain ⟨document, before, after, edits⟩ := edit_eq_ok made
      refine ⟨edited.file, edits.read, ?_⟩
      rw [saved_keys]
      exact accepted

theorem removeKey_starts {machine : Machine} {expected : List Char}
    (met : Recognised texts machine (.removeKey expected none)) (starts : Starts texts env machine) :
    Starts texts env (removeKey texts env expected none machine).1 := by
  obtain ⟨file, read, accepted⟩ := starts
  have seen := met.2 file read
  cases allowed : removable texts env machine.file expected with
  | error failure =>
      simp only [removeKey, refusal, allowed]
      exact ⟨file, read, accepted⟩
  | ok account =>
      simp only [removeKey, refusal, allowed]
      refine ⟨file, read, accepts_kept accepted ?_⟩
      intro auto raw section_ written jev block there
      unfold removable at allowed
      split at allowed
      · cases allowed
      · dsimp only at allowed
        split at allowed
        · cases allowed
        · rename_i free
          cases allowed
          have provider := seen (by simp [providerOf, section_, written, jev])
          have inside : inEnvironment env (summary (sectionOf texts machine.file)).apiKeyEnv = true := by
            simpa [provider] using free
          by_cases same : block.apiKeyEnv = (summary (sectionOf texts machine.file)).apiKeyEnv
          · left
            rwa [same]
          · right
            exact machine.get_put_other none fun both => same (jevAccount_injective both)

theorem starts_kept {start machine : Machine} (begins : Starts texts env start)
    (reached : Reaches (serve texts env) (Recognised texts) start machine) :
    Starts texts env machine := by
  refine reached.invariant (Starts texts env) begins ?_
  intro before request after met starts stepped
  cases stepped
  cases request with
  | save expected request fault =>
      cases met
      rw [perform_save]
      exact save_starts starts
  | removeKey expected fault =>
      cases met.1
      rw [perform_removeKey]
      exact removeKey_starts met starts

variable (texts env) in
/-- The file is as it was, or it is the printing of a value that agrees with what it was but for two
members of the classifier section. -/
def FileKept (before after : Machine) : Prop :=
  after.file = before.file ∨ ∃ old new, texts.fromStr before.file = some old ∧ SameOutside old new ∧
    after.file = texts.pretty new ++ ['\n']

theorem save_fileKept (machine : Machine) (expected : List Char) (request : SaveRequest) :
    FileKept texts machine (perform texts env machine (.save expected request none)).1 := by
  rw [perform_save, save_unfailing]
  cases checked : checks texts env expected request machine with
  | error failure => exact .inl rfl
  | ok edited =>
      obtain ⟨made, -⟩ := checks_eq_ok texts env checked
      obtain ⟨document, before, after, edits⟩ := edit_eq_ok made
      exact .inr ⟨document, withSection document after, edits.parsed,
        withSection_outside edits.found fun key => patchSection_others edits.patched, edits.next⟩

/-- Whatever saves and removals are served one after another, the router would start from what they
leave, and each save keeps the file but for the two members. -/
theorem settings_start {start machine : Machine} (begins : Starts texts env start)
    (reached : Reaches (serve texts env) (Recognised texts) start machine) :
    Starts texts env machine ∧ ∀ expected request,
      FileKept texts machine (perform texts env machine (.save expected request none)).1 :=
  ⟨starts_kept begins reached, fun expected request => save_fileKept machine expected request⟩

end Serve

/-- In a file whose sections are written as objects and whose provider is written as a name, a removal
finds the provider that a start reads. -/
theorem recognised_of_plain {texts : Texts} {machine : Machine} {root auto members : Map}
    (parsed : texts.fromStr machine.file = some (.object root))
    (auto_ : Map.get autoRouteKey root = some (.object auto))
    (section_ : Map.get classifierKey auto = some (.object members))
    (named : ∀ value, Map.get providerKey members = some value → ∃ name, value = .string name)
    (expected : List Char) : Recognised texts machine (.removeKey expected none) := by
  refine ⟨rfl, fun file read jev => ?_⟩
  have provider : (summary (sectionOf texts machine.file)).provider =
      some (((Map.get providerKey members).bind asStr).getD lightweightKey) := by
    simp [sectionOf, parsed, Value.get, auto_, section_, summary]
  obtain ⟨outside, -, rest⟩ := Option.bind_eq_some_iff.mp read
  rw [parsed, Option.bind_some] at rest
  unfold readFile at rest
  split at rest
  · rename_i nothing
    cases rest
    simp [providerOf, nothing] at jev
  · obtain ⟨classifier, there, made⟩ := Option.map_eq_some_iff.mp rest
    have written : writtenClassifier (.object root) = some (.object members) := by
      simp [writtenClassifier, memberOf, auto_, section_]
    rw [written] at there
    obtain ⟨raw, found, same⟩ := Option.map_eq_some_iff.mp
      (show (readClassifier (.object members)).map some = some classifier from there)
    cases same
    cases made
    have kind := readClassifier_provider found
    rw [show raw.provider = .jev by simpa [providerOf] using jev] at kind
    unfold providerIn memberOf at kind
    dsimp only at kind
    cases member : Map.get providerKey members with
    | none =>
        rw [member] at kind
        cases kind
    | some value =>
        obtain ⟨name, rfl⟩ := named value member
        rw [member] at kind
        rw [provider, member, Option.bind_some, asStr, Option.getD_some, kindNamed_jev kind]

/-! A provider that is written as an object. -/

section Sample

attribute [local instance] asciiLowercase

theorem starts_iff {texts : Texts} {env : Env} {machine : Machine} :
    Starts texts env machine ↔ ((texts.read machine.file).any fun file =>
      texts.accepts file env fun var => machine.get (jevAccount var)) = true := by
  simp [Starts, Option.any_eq_true]

def replacing : Request := .save replacedMachine.file replacingSave none

def replacedTexts : Texts :=
  sampleTexts [sampleDocument (.string jevKey) sampleBlock, sampleDocument (.string jevKey) savedBlock]

theorem settings_start_replaced :
    Starts replacedTexts noEnv (perform replacedTexts noEnv replacedMachine replacing).1 ∧
      ∀ expected request, FileKept replacedTexts
        (perform replacedTexts noEnv replacedMachine replacing).1
        (perform replacedTexts noEnv (perform replacedTexts noEnv replacedMachine replacing).1
          (.save expected request none)).1 :=
  settings_start (starts_iff.mpr (by decide +kernel))
    (Reaches.start.act (u := (perform replacedTexts noEnv replacedMachine replacing).1) replacing rfl rfl)

def mapTexts : Texts := sampleTexts [sampleDocument (.object [(jevKey, .null)]) sampleBlock]

def mapMachine : Machine :=
  sampleMachine (.object [(jevKey, .null)]) sampleBlock "old".toList

theorem removal_stops_start :
    Starts mapTexts noEnv mapMachine ∧
      (perform mapTexts noEnv mapMachine (.removeKey mapMachine.file none)).2.result = some true ∧
      ¬Starts mapTexts noEnv (perform mapTexts noEnv mapMachine (.removeKey mapMachine.file none)).1 := by
  refine ⟨starts_iff.mpr ?_, ?_, fun starts => absurd (starts_iff.mp starts) ?_⟩
  all_goals decide +kernel

end Sample

end Lightweight.Router.Settings
