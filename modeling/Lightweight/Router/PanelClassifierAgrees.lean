import Lightweight.Catalog.FreeId
import Lightweight.Router.ClassifierAccepted
import Lightweight.Router.PanelClassifier

/-! Which of the classifier drafts that the panel approves the router accepts. The panel's rules are
the router's, field by field, but for two: the router refuses a candidate that is listed twice, and
it measures the model's name in bytes. -/

namespace Lightweight.Router.Panel

open Lightweight.Core Lightweight.Catalog Classifier Binary64

section Agreement

variable [Lowercase]

/-- Lower-casing keeps the white space at the ends of a text, and makes none. -/
def TrimKept : Prop := ∀ text : List Char,
  Lowercase.toLowercase (trim text) = trim (Lowercase.toLowercase text)

/-! ### Names -/

theorem isReserved_lookupKey {name : List Char} (reserved : isReserved name = true) :
    lookupKey name = defaultKey := by
  exact lookupKey_of_map (ascii_of_all (by decide)) (isReserved_iff.mp reserved)

/-- A name without a problem is one of a configured route. -/
theorem configured_of_routeProblem (kept : TrimKept) {name : List Char} {routes : List Described}
    {what : List Char} (approved : routeProblem name (routes.map Described.name) what = none) :
    ∃ route, configured name routes = .ok route := by
  unfold routeProblem at approved
  split_ifs at approved with blank foreign unlisted
  rw [Bool.not_eq_true, Bool.not_eq_false', isLogicalRoute_iff] at foreign
  rw [Bool.not_eq_true, Bool.not_eq_false', List.any_eq_true] at unlisted
  obtain ⟨route, listed, same⟩ := unlisted
  obtain ⟨described, member, rfl⟩ := List.mem_map.mp listed
  have named : RouteName.matches described.name name = true := by
    have key : lookupKey described.name = lookupKey name := by
      rw [lookupKey, lookupKey, kept, kept, beq_iff_eq.mp same]
    exact sameName_iff.mpr key
  have auto : isAuto name = false := by
    rw [← Bool.not_eq_true, isAuto_iff]
    exact foreign.notAuto
  have reserved : isReserved name = false := by
    rw [← Bool.not_eq_true]
    exact fun reserved => foreign.notDefault (isReserved_lookupKey reserved)
  cases searched : routes.find? fun route => RouteName.matches route.name name with
  | none => exact absurd named (List.find?_eq_none.mp searched described member)
  | some found =>
      refine ⟨found.name, configured_eq_ok.mpr ⟨auto, reserved, ?_⟩⟩
      rw [searched, Option.map_some]

/-- White space around a name makes no difference to the route that is found. -/
theorem configured_trim (name : List Char) (routes : List Described) :
    configured (trim name) routes = configured name routes := by
  have alike : ∀ other, sameName other (trim name) = sameName other name := by
    intro other
    rw [sameName, sameName, lookupKey_trim]
  have reserved : isReserved (trim name) = isReserved name := by
    rw [Bool.eq_iff_iff, isReserved_iff, isReserved_iff, trim_idempotent]
  have auto : isAuto (trim name) = isAuto name := by
    rw [Bool.eq_iff_iff, isAuto_iff, isAuto_iff, lookupKey_trim]
  unfold configured
  simp only [RouteName.matches, alike, reserved, auto]

/-! ### Fields -/

omit [Lowercase] in
theorem checkWhole_none {most : Nat} {raw : List Char} (approved : checkWhole most raw = none) :
    1 ≤ wholeNumber (trim raw) ∧ wholeNumber (trim raw) ≤ most := by
  unfold checkWhole at approved
  dsimp only at approved
  split_ifs at approved with blank letters outside
  rw [not_or, not_lt, not_lt] at outside
  exact outside

omit [Lowercase] in
theorem checkConfidence_none {browser : Browser} {raw : List Char}
    (approved : checkConfidence browser raw = none) :
    Exact.within 0 1 (browser.number (trim raw)) = true := by
  unfold checkConfidence at approved
  dsimp only at approved
  split_ifs at approved with blank outside
  rw [Bool.not_eq_true, Bool.not_eq_false'] at outside
  exact outside

omit [Lowercase] in
/-- Limits without a problem are limits. -/
theorem validateLimits_clean {browser : Browser} {timeout confidence chars : List Char}
    (place : List Char) (timeouts : checkTimeout timeout = none)
    (confidences : checkConfidence browser confidence = none) (inputs : checkMaxInput chars = none) :
    (validateLimits place (some (wholeNumber (trim timeout))) (browser.number (trim confidence))
      (wholeNumber (trim chars))).problems = [] := by
  have time := checkWhole_none timeouts
  have input := checkWhole_none inputs
  have most : Panel.maxTimeoutMs = Classifier.maxTimeoutMs := rfl
  have longest : Panel.maxInputChars = Classifier.maxInputChars := rfl
  unfold validateLimits
  dsimp only
  rw [checkConfidence_none confidences, if_neg (by simp), if_neg (by omega), if_neg (by omega)]
  rfl

omit [Lowercase] in
theorem isAlpha_iff {c : Char} :
    c.isAlpha = true ↔ ('A' ≤ c ∧ c ≤ 'Z') ∨ ('a' ≤ c ∧ c ≤ 'z') := by
  have spelled : c.isAlpha = (decide (c.val ≥ 'A'.val ∧ c.val ≤ 'Z'.val) ||
      (decide (c.val ≥ 'a'.val) && decide (c.val ≤ 'z'.val))) := rfl
  rw [spelled]
  simp only [Bool.or_eq_true, Bool.and_eq_true, decide_eq_true_eq, Char.le_def, ge_iff_le]

omit [Lowercase] in
theorem isAsciiAlphanumeric_eq (c : Char) : isAsciiAlphanumeric c = c.isAlphanum := by
  have digit : c.isDigit = (decide (c.val ≥ '0'.val) && decide (c.val ≤ '9'.val)) := rfl
  rw [Bool.eq_iff_iff, Char.isAlphanum, Bool.or_eq_true, isAlpha_iff, digit]
  simp only [isAsciiAlphanumeric, Bool.or_eq_true, Bool.and_eq_true, decide_eq_true_eq, Char.le_def]
  tauto

omit [Lowercase] in
theorem not_digit_of_isAlpha {c : Char} (letter : (c.isAlpha || c == '_') = true) :
    ('0' ≤ c && c ≤ '9') = false := by
  rw [← Bool.not_eq_true]
  intro digit
  rw [Bool.or_eq_true, isAlpha_iff, beq_iff_eq] at letter
  simp only [Bool.and_eq_true, decide_eq_true_eq, Char.le_def, UInt32.le_iff_toNat_le]
    at digit letter
  have nine : '9'.val.toNat = 57 := rfl
  have upperA : 'A'.val.toNat = 65 := rfl
  have lowerA : 'a'.val.toNat = 97 := rfl
  rcases letter with (upper | lower) | rfl
  · omega
  · omega
  · exact absurd digit.2 (by decide)

omit [Lowercase] in
theorem usableEnvName_of_checkEnvName {raw : List Char} (approved : checkEnvName raw = none) :
    usableEnvName (trim raw) = true := by
  unfold checkEnvName at approved
  cases value : trim raw with
  | nil => simp [value] at approved
  | cons first rest =>
      rw [value] at approved
      dsimp only at approved
      split_ifs at approved with letters
      rw [Bool.and_eq_true] at letters
      obtain ⟨letter, later⟩ := letters
      have here : (first.isAlphanum || first == '_') = true := by
        rw [Char.isAlphanum, Bool.or_assoc, Bool.or_comm first.isDigit,
          ← Bool.or_assoc, letter, Bool.true_or]
      simp only [usableEnvName, List.isEmpty_cons, Bool.not_false, Bool.true_and, List.all_cons,
        isAsciiAlphanumeric_eq, here, later, List.head?_cons, Option.any_some,
        not_digit_of_isAlpha letter]

omit [Lowercase] in
/-- A model without a problem is refused only for its bytes. -/
theorem validateModel_clean_iff {raw : List Char} (approved : checkModel raw = none) :
    (validateModel (some (trim raw))).problems = [] ↔ Classifier.byteLength (trim raw) ≤ 128 := by
  unfold checkModel at approved
  dsimp only at approved
  split_ifs at approved with blank wrong
  rw [not_or, Bool.not_eq_true] at wrong
  unfold validateModel
  rw [Option.map_some, trim_idempotent]
  dsimp only
  rw [if_neg blank, wrong.2, Bool.false_or]
  split_ifs with long
  · simpa using long
  · simpa using long

/-! ### The base URL -/

/-- An IPv4 address as it is written. -/
def dotted (a b c d : Nat) : List Char :=
  ['.'].intercalate [Nat.toDigits 10 a, Nat.toDigits 10 b, Nat.toDigits 10 c, Nat.toDigits 10 d]

/-- A host as the URL parser writes it: of lower-case ASCII characters, an IPv6 address in brackets,
and no brackets elsewhere. -/
structure PlainHost (host : List Char) : Prop where
  ascii : ∀ c ∈ host, c.toNat < 128
  lower : ∀ c ∈ host, c.toLower = c
  brackets : ('[' ∉ host ∧ ']' ∉ host) ∨
    ∃ address, host = '[' :: (address ++ [']']) ∧ ':' ∈ address ∧ '[' ∉ address ∧ ']' ∉ address

/-- What the URL parser, which is the browser's and the router's, is documented to do, and which
addresses the parser of IP addresses takes for the machine's own. -/
structure UrlLaws (urls : UrlReader) : Prop where
  /-- An empty password is none. -/
  password : ∀ {text url}, urls.parse text = some url → url.password ≠ some []
  query : ∀ {text url}, urls.parse text = some url → '?' ∉ text → url.query = none
  fragment : ∀ {text url}, urls.parse text = some url → '#' ∉ text → url.fragment = none
  /-- The slashes at the end of the URL of a host, and white space in front of them, are in its path. -/
  path : ∀ {text url}, urls.parse text = some url → (url.scheme = https ∨ url.scheme = http) →
    url.host.getD [] ≠ [] → '?' ∉ text → '#' ∉ text →
      ∃ other, urls.parse (trim (text.rdropWhile (· == '/'))) = some other ∧
        other.scheme = url.scheme ∧ other.host = url.host ∧ other.username = url.username ∧
          other.password = url.password
  host : ∀ {text url host}, urls.parse text = some url →
    (url.scheme = https ∨ url.scheme = http) → url.host = some host → PlainHost host
  /-- A host that looks like an IPv4 address is one. -/
  address : ∀ {text url host}, urls.parse text = some url →
    (url.scheme = https ∨ url.scheme = http) → url.host = some host →
      looksLoopback (unbracketed host) = true →
        ∃ b c d, b ≤ 255 ∧ c ≤ 255 ∧ d ≤ 255 ∧ unbracketed host = dotted 127 b c d
  loopback4 : ∀ {b c d}, b ≤ 255 → c ≤ 255 → d ≤ 255 → urls.isLoopbackIp (dotted 127 b c d) = true
  loopback6 : urls.isLoopbackIp "::1".toList = true

omit [Lowercase] in
theorem dropWhile_of_not_mem {c : Char} {text : List Char} (free : c ∉ text) :
    text.dropWhile (· == c) = text := by
  cases text with
  | nil => rfl
  | cons first rest =>
      have other : ¬ (first == c) = true := by
        rw [beq_iff_eq]
        rintro rfl
        exact free List.mem_cons_self
      exact List.dropWhile_cons_of_neg other

omit [Lowercase] in
theorem rdropWhile_of_not_mem {c : Char} {text : List Char} (free : c ∉ text) :
    text.rdropWhile (· == c) = text := by
  rw [List.rdropWhile, dropWhile_of_not_mem (by simpa using free), List.reverse_reverse]

omit [Lowercase] in
/-- The panel and the router see the same between the brackets: the host, or the address in it. -/
theorem PlainHost.unbracketed {host : List Char} (plain : PlainHost host) :
    (host.dropWhile (· == '[')).rdropWhile (· == ']') = Panel.unbracketed host ∧
      (Panel.unbracketed host = host ∨ ':' ∈ Panel.unbracketed host) ∧
        ∀ c ∈ Panel.unbracketed host, c ∈ host := by
  rcases plain.brackets with ⟨opening, closing⟩ | ⟨address, rfl, colon, opening, closing⟩
  · have itself : Panel.unbracketed host = host := by
      unfold Panel.unbracketed
      dsimp only
      rw [if_neg fun first : host.head? = some '[' => opening (List.mem_of_mem_head? first),
        if_neg fun last : host.getLast? = some ']' => closing (List.mem_of_getLast? last)]
    rw [itself, dropWhile_of_not_mem opening, rdropWhile_of_not_mem closing]
    exact ⟨rfl, .inl rfl, fun _ member => member⟩
  · have inner : Panel.unbracketed ('[' :: (address ++ [']'])) = address := by
      simp [Panel.unbracketed]
    have rest : '[' ∉ address ++ [']'] := by
      simpa using opening
    rw [inner, List.dropWhile_cons_of_pos (by simp), dropWhile_of_not_mem rest,
      List.rdropWhile_concat_pos _ _ _ (by simp), rdropWhile_of_not_mem closing]
    refine ⟨rfl, .inr colon, ?_⟩
    intro c member
    exact List.mem_cons_of_mem _ (List.mem_append_left _ member)

theorem isLoopback_of_isLoopbackHost {urls : UrlReader} (laws : UrlLaws urls) {text : List Char}
    {url : Url} {host : List Char} (parsed : urls.parse text = some url)
    (scheme : url.scheme = https ∨ url.scheme = http) (hosted : url.host = some host)
    (loopback : isLoopbackHost host = true) : isLoopback urls url = true := by
  have plain := laws.host parsed scheme hosted
  obtain ⟨stripped, whole, inside⟩ := plain.unbracketed
  have lowered : Lowercase.toLowercase (unbracketed host) = unbracketed host := by
    rw [Lowercase.ascii _ fun c member => plain.ascii c (inside c member)]
    refine (List.map_congr_left ?_).trans (List.map_id _)
    exact fun c member => plain.lower c (inside c member)
  unfold isLoopbackHost at loopback
  dsimp only at loopback
  rw [lowered, Bool.or_eq_true, Bool.or_eq_true, beq_iff_eq, beq_iff_eq] at loopback
  unfold isLoopback
  rw [hosted, Option.any_some, stripped, Bool.or_eq_true]
  rcases loopback with (named | six) | four
  · rcases whole with itself | colon
    · rw [itself] at named
      left
      rw [named]
      decide
    · rw [named] at colon
      exact absurd colon (by decide)
  · right
    rw [six]
    exact laws.loopback6
  · obtain ⟨b, c, d, low, mid, high, same⟩ := laws.address parsed scheme hosted four
    right
    rw [same]
    exact laws.loopback4 low mid high

/-- What no problem with a base URL says of it. -/
structure ApprovedUrl (text : List Char) (url : Url) (host : List Char) : Prop where
  scheme : url.scheme = https ∨ url.scheme = http
  hosted : url.host = some host
  named : host ≠ []
  username : url.username = []
  password : url.password.getD [] = []
  query : '?' ∉ text
  fragment : '#' ∉ text
  secure : url.scheme = http → isLoopbackHost host = true

theorem checkBaseUrl_none {browser : Browser} {raw : List Char}
    (approved : checkBaseUrl browser raw = none) :
    ∃ url host, browser.parseUrl (trim raw) = some url ∧ ApprovedUrl (trim raw) url host := by
  unfold checkBaseUrl at approved
  dsimp only at approved
  split_ifs at approved with blank
  split at approved
  · cases approved
  · rename_i url parsed
    split_ifs at approved with foreign nowhere secrets asked marked insecure
    obtain ⟨host, hosted⟩ : ∃ host, url.host = some host := by
      cases hosted : url.host with
      | none => simp [hosted] at nowhere
      | some host => exact ⟨host, rfl⟩
    rw [hosted, Option.getD_some] at nowhere insecure
    simp only [Bool.not_eq_true, Bool.or_eq_false_iff, Bool.not_eq_false', List.isEmpty_iff]
      at secrets asked marked
    refine ⟨url, host, parsed, ?_, hosted, by simpa using nowhere, secrets.1, secrets.2,
      by simpa using asked.2, by simpa using marked.2, ?_⟩
    · by_contra neither
      exact foreign (not_or.mp neither)
    · intro plain
      by_contra elsewhere
      exact insecure ⟨plain, by simpa using elsewhere⟩

/-- The URL of an approved text without the slashes at its end is one that the router takes. -/
theorem validateUrl_approved {urls : UrlReader} (laws : UrlLaws urls) {text host : List Char}
    {url : Url} (parsed : urls.parse text = some url) (approved : ApprovedUrl text url host) :
    ∃ other, urls.parse (trim (text.rdropWhile (· == '/'))) = some other ∧
      validateUrl urls.parse (text.rdropWhile (· == '/')) = .ok other ∧
        other.scheme = url.scheme ∧ other.host = url.host := by
  have named : url.host.getD [] ≠ [] := by
    rw [approved.hosted]
    exact approved.named
  obtain ⟨other, again, scheme, hosted, username, password⟩ :=
    laws.path parsed approved.scheme named approved.query approved.fragment
  have none_ : url.password = none := by
    have blank := approved.password
    cases given : url.password with
    | none => rfl
    | some secret =>
        rw [given, Option.getD_some] at blank
        exact absurd (blank ▸ given) (laws.password parsed)
  have inside : ∀ c ∈ trim (text.rdropWhile (· == '/')), c ∈ text := by
    intro c member
    exact (List.rdropWhile_prefix _ _).subset (mem_of_mem_trim member)
  have query := laws.query again fun member => approved.query (inside _ member)
  have fragment := laws.fragment again fun member => approved.fragment (inside _ member)
  have known : ¬ (other.scheme ≠ ['h', 't', 't', 'p'] ∧ other.scheme ≠ ['h', 't', 't', 'p', 's']) := by
    rw [scheme]
    exact fun neither => approved.scheme.elim neither.2 neither.1
  refine ⟨other, again, ?_, scheme, hosted⟩
  unfold validateUrl
  rw [again]
  dsimp only
  rw [if_neg known, hosted, approved.hosted, username, approved.username, password, none_, query,
    fragment]
  simp [approved.named]

/-- A base URL without a problem is one that the router takes, without the slashes at its end. -/
theorem validateBaseUrl_clean {urls : UrlReader} (laws : UrlLaws urls) {number : List Char → Exact}
    {raw : List Char} (approved : checkBaseUrl ⟨urls.parse, number⟩ raw = none) :
    (validateBaseUrl urls (normalizeBaseUrl raw)).problems = [] := by
  obtain ⟨url, host, parsed, approved⟩ := checkBaseUrl_none approved
  obtain ⟨other, again, checked, scheme, hosted⟩ := validateUrl_approved laws parsed approved
  have secure : other.scheme = https ∨ isLoopback urls other = true := by
    rcases approved.scheme with safe | plain
    · exact .inl (scheme.trans safe)
    · right
      exact isLoopback_of_isLoopbackHost laws again (.inr (scheme.trans plain))
        (hosted.trans approved.hosted) (approved.secure plain)
  unfold validateBaseUrl normalizeBaseUrl
  rw [checked]
  dsimp only
  rw [if_pos secure]

/-! ### The section -/

variable {urls : UrlReader} {number : List Char → Exact} {draft : ClassifierDraft}
  {routes : List Described} {env : Env}

/-- The environment holds the key that the section names, where its provider needs one. -/
def HoldsKey (env : Env) (draft : ClassifierDraft) : Prop :=
  draft.provider = .jev → ∃ key, present (env (trim draft.jev.apiKeyEnv)) = some key

/-- What no problem in a draft says of its fields. -/
structure Approved (browser : Browser) (draft : ClassifierDraft) (routes : List RouteName) : Prop where
  some : draft.candidates ≠ []
  few : draft.candidates.length ≤ Classifier.maxCandidates
  candidates : ∀ name ∈ draft.candidates, routeProblem name routes "route".toList = none
  fallbackRoute : routeProblem draft.fallbackRoute routes "fallback route".toList = none
  lightweight : draft.writes .lightweight = true →
    (Panel.checkLightweight browser draft.lightweight routes).any = false
  jev : draft.writes .jev = true → (Panel.checkJev browser draft.jev).any = false

theorem approved_of_clean {browser : Browser} {routes : List RouteName}
    (clean : hasProblems (validateDraft browser draft routes) = false) :
    Approved browser draft routes := by
  unfold hasProblems validateDraft at clean
  simp only [Bool.or_eq_false_iff, Option.isSome_eq_false_iff, Option.isNone_iff_eq_none] at clean
  obtain ⟨⟨⟨⟨candidates, fallback⟩, _⟩, lightweight⟩, jev⟩ := clean
  unfold Panel.checkCandidates at candidates
  split_ifs at candidates with empty many
  rw [Option.map_eq_none_iff, List.find?_eq_none] at candidates
  refine ⟨by simpa using empty, not_lt.mp many, ?_, fallback, ?_, ?_⟩
  · intro name member
    simpa using candidates name member
  · intro written
    rw [if_pos written] at lightweight
    exact lightweight
  · intro written
    rw [if_pos written] at jev
    exact jev

omit [Lowercase] in
/-- No field of an object has a problem. -/
theorem FieldProblems.any_eq_false {problems : FieldProblems} :
    problems.any = false ↔ ∀ field ∈ problems, field.2 = none := by
  simp [FieldProblems.any]

omit [Lowercase] in
theorem lightweightFile_section (browser : Browser) (draft : ClassifierDraft) :
    lightweightFile (classifierSection browser draft) = ⟨[],
      if draft.writes .lightweight then
        some (lightweightBlock browser draft.lightweight, lightweightPlace)
      else none⟩ := by
  unfold lightweightFile classifierSection
  cases draft.writes .lightweight <;> rfl

omit [Lowercase] in
/-- The selected provider's block is there. -/
theorem missingProvider_section (browser : Browser) (draft : ClassifierDraft) :
    missingProvider (classifierSection browser draft) = [] := by
  have selected : draft.writes draft.provider = true := by
    unfold ClassifierDraft.writes
    rw [beq_self_eq_true, Bool.true_or]
  unfold missingProvider
  rw [lightweightFile_section]
  unfold classifierSection
  cases provider : draft.provider with
  | lightweight =>
      rw [provider] at selected
      simp [selected]
  | jev =>
      rw [provider] at selected
      simp [selected]

/-- Approved candidates are refused only where two of them are the same one. -/
theorem routesProblems_clean_iff (kept : TrimKept) {browser : Browser}
    (approved : Approved browser draft (routes.map Described.name)) :
    routesProblems routes draft.candidates = [] ↔
      draft.candidates.Pairwise (fun a b => sameName a b = false) := by
  have found : ∀ name ∈ draft.candidates, ∃ route, configured name routes = .ok route :=
    fun name member => configured_of_routeProblem kept (approved.candidates name member)
  unfold routesProblems
  rw [if_neg (by simpa using approved.some), if_neg (not_lt.mpr approved.few), List.nil_append,
    List.nil_append, checkCandidates_clean_iff found]

theorem checkLightweight_clean (kept : TrimKept) {browser : Browser}
    (approved : Approved browser draft (routes.map Described.name)) :
    (Classifier.checkLightweight (classifierSection browser draft) routes).problems = [] := by
  unfold Classifier.checkLightweight
  rw [lightweightFile_section]
  cases written : draft.writes .lightweight with
  | false => rfl
  | true =>
      have fields := approved.lightweight written
      simp only [FieldProblems.any_eq_false, Panel.checkLightweight, List.forall_mem_cons] at fields
      obtain ⟨route, timeout, confidence, chars, _⟩ := fields
      obtain ⟨found, named⟩ := configured_of_routeProblem kept route
      have limits := validateLimits_clean lightweightPlace timeout confidence chars
      rw [if_pos rfl]
      unfold validateLightweight lightweightBlock
      dsimp only
      rw [configured_trim, named, limits]
      rfl

omit [Lowercase] in
theorem findKey_held (held : HoldsKey env draft) {raw : JevFile}
    (named : raw.apiKeyEnv = trim draft.jev.apiKeyEnv) (usable : usableEnvName raw.apiKeyEnv = true)
    (stored : Env) :
    ∃ found, findKey raw (draft.provider == ProviderKind.jev) env stored = .ok found := by
  unfold findKey
  cases active : draft.provider == ProviderKind.jev with
  | true =>
      obtain ⟨key, there⟩ := held (beq_iff_eq.mp active)
      rw [present, Option.filter_eq_some_iff] at there
      obtain ⟨value, some_⟩ := there
      have read : readSecret jevOwner raw.apiKeyEnv env = .ok key := by
        unfold readSecret
        rw [usable, if_neg (by simp), named, value]
        cases key with
        | nil => cases some_
        | cons c key => rfl
      rw [if_pos rfl, read]
      exact ⟨_, rfl⟩
  | false =>
      rw [if_neg (by simp)]
      cases present (env raw.apiKeyEnv) with
      | some value => exact ⟨_, rfl⟩
      | none =>
          cases fromStore stored raw.apiKeyEnv with
          | some value => exact ⟨_, rfl⟩
          | none => exact ⟨_, rfl⟩

/-- The Jev block is refused only for the bytes of its model. -/
theorem checkJev_clean_iff (laws : UrlLaws urls)
    (approved : Approved ⟨urls.parse, number⟩ draft (routes.map Described.name))
    (held : HoldsKey env draft) (stored : Env) :
    (Classifier.checkJev urls (classifierSection ⟨urls.parse, number⟩ draft) env stored).2 = [] ∧
      ((Classifier.checkJev urls (classifierSection ⟨urls.parse, number⟩ draft) env
          stored).1.problems = [] ↔
        (draft.writes .jev = true → Classifier.byteLength (trim draft.jev.model) ≤ 128)) := by
  unfold Classifier.checkJev classifierSection
  dsimp only
  cases written : draft.writes .jev with
  | false => simp
  | true =>
      have fields := approved.jev written
      simp only [FieldProblems.any_eq_false, Panel.checkJev, List.forall_mem_cons] at fields
      obtain ⟨baseUrl, envName, model, timeout, confidence, chars, _⟩ := fields
      have url := validateBaseUrl_clean laws baseUrl
      have usable := usableEnvName_of_checkEnvName envName
      have named := validateModel_clean_iff model
      have limits := validateLimits_clean jevPlace timeout confidence chars
      rw [if_pos rfl]
      have same : (jevBlock ⟨urls.parse, number⟩ draft.jev).apiKeyEnv = trim draft.jev.apiKeyEnv := rfl
      obtain ⟨found, key⟩ := findKey_held held same usable stored
      unfold validateJev
      dsimp only
      rw [key]
      obtain ⟨key, source⟩ := found
      unfold jevBlock at *
      dsimp only at *
      rw [url, limits, List.nil_append, List.append_nil, named]
      simp

/-- A draft without a problem is accepted exactly where no two of its candidates are the same name,
and its model, if it is written, is short enough in bytes. -/
theorem section_accepted_iff (kept : TrimKept) (laws : UrlLaws urls)
    (clean : hasProblems (validateDraft ⟨urls.parse, number⟩ draft (routes.map Described.name)) = false)
    (held : HoldsKey env draft) (autoFallback : List Char) (stored : Env) :
    (∃ classifier, Classifier.validate urls (classifierSection ⟨urls.parse, number⟩ draft) routes
        autoFallback env stored = .ok classifier) ↔
      draft.candidates.Pairwise (fun a b => sameName a b = false) ∧
        (draft.writes .jev = true → Classifier.byteLength (trim draft.jev.model) ≤ 128) := by
  have approved := approved_of_clean clean
  obtain ⟨fallback, named⟩ := configured_of_routeProblem kept approved.fallbackRoute
  obtain ⟨keys, jev⟩ := checkJev_clean_iff laws approved held stored
  have fallbackClean : (checkFallback (classifierSection ⟨urls.parse, number⟩ draft) routes
      autoFallback).problems = [] := by
    unfold checkFallback classifierSection
    dsimp only [Option.getD_some]
    rw [named]
    rfl
  have candidates := routesProblems_clean_iff kept approved
  have provided := missingProvider_section ⟨urls.parse, number⟩ draft
  have shorthand : (lightweightFile (classifierSection ⟨urls.parse, number⟩ draft)).problems = [] := by
    rw [lightweightFile_section]
  have lightweight := checkLightweight_clean kept approved
  have entries : (classifierSection ⟨urls.parse, number⟩ draft).routes = draft.candidates := rfl
  rw [validate_ok_iff, ← candidates, ← jev]
  unfold refusals
  dsimp only
  rw [keys, fallbackClean, shorthand, lightweight, provided, entries]
  simp only [List.map_nil, List.nil_append, List.append_nil, List.map_eq_nil_iff,
    List.append_eq_nil_iff]

end Agreement

section Sample

attribute [local instance] asciiLowercase

theorem isWhitespace_toLower (c : Char) : isWhitespace c.toLower = isWhitespace c := by
  by_cases upper : 65 ≤ c.toNat ∧ c.toNat ≤ 90
  · have shifted := toNat_toLower_of_upper upper
    have plain : isWhitespace c = false := by
      simp only [isWhitespace, Bool.or_eq_false_iff, Bool.and_eq_false_iff,
        decide_eq_false_iff_not, beq_eq_false_iff_ne]
      omega
    rw [plain]
    simp only [isWhitespace, Bool.or_eq_false_iff, Bool.and_eq_false_iff,
      decide_eq_false_iff_not, beq_eq_false_iff_ne]
    omega
  · rw [toLower_of_not_upper upper]

theorem trimKept_ascii : TrimKept := by
  intro text
  have same : isWhitespace ∘ Char.toLower = isWhitespace := funext isWhitespace_toLower
  change (trim text).map Char.toLower = trim (text.map Char.toLower)
  simp only [trim, List.rdropWhile, List.dropWhile_map, ← List.map_reverse, same]

def sampleSite : List Char := "https://a".toList

/-- Reads one URL, with any number of slashes behind it. -/
def sampleParser : UrlReader where
  parse text :=
    if text.rdropWhile (· == '/') = sampleSite then some ⟨https, some ['a'], [], none, none, none⟩
    else none
  asStr _ := sampleSite ++ ['/']
  isLoopbackIp host := decide (host = "::1".toList) || ['1', '2', '7', '.'].isPrefixOf host

theorem sampleParser_laws : UrlLaws sampleParser := by
  have read {text : List Char} {url : Url} (parsed : sampleParser.parse text = some url) :
      text.rdropWhile (· == '/') = sampleSite ∧ url = ⟨https, some ['a'], [], none, none, none⟩ := by
    simp only [sampleParser, Option.ite_none_right_eq_some, Option.some.injEq] at parsed
    exact ⟨parsed.1, parsed.2.symm⟩
  constructor
  · intro text url parsed
    rw [(read parsed).2]
    simp
  · intro text url parsed _
    rw [(read parsed).2]
  · intro text url parsed _
    rw [(read parsed).2]
  · intro text url parsed _ _ _ _
    refine ⟨url, ?_, rfl, rfl, rfl, rfl⟩
    rw [(read parsed).1, (read parsed).2]
    decide
  · intro text url host parsed _ hosted
    rw [(read parsed).2] at hosted
    cases hosted
    exact ⟨ascii_of_all (by decide), List.forall_mem_singleton.mpr (by decide), .inl (by decide)⟩
  · intro text url host parsed _ hosted four
    rw [(read parsed).2] at hosted
    cases hosted
    exact absurd four (by decide)
  · intro b c d _ _ _
    have written : dotted 127 b c d = ['1', '2', '7', '.'] ++ ['.'].intercalate
        [Nat.toDigits 10 b, Nat.toDigits 10 c, Nat.toDigits 10 d] := by
      unfold dotted
      rw [List.intercalate_cons_cons]
      rfl
    simp [sampleParser, written]
  · decide

/-- A draft for Jev, with the Lightweight classifier kept beside it. -/
def sampleDraft (candidates : List (List Char)) (model : List Char) : ClassifierDraft where
  provider := .jev
  candidates := candidates
  fallbackRoute := ['a']
  descriptions := []
  lightweight := ⟨['B'], "30000".toList, ['1'], "2000".toList⟩
  jev := ⟨sampleSite ++ ['/'], "KEY".toList, model, "5000".toList, ['0'], "32000".toList, true⟩
  keepStandby := true

/-- Reads the two numbers that are digits. -/
def sampleNumber (text : List Char) : Exact := some (wholeNumber text)

def sampleBrowser : Browser := ⟨sampleParser.parse, sampleNumber⟩

def sampleRoutes : List Described := [⟨['A'], none⟩, ⟨['B'], none⟩]

def sampleEnv : Env := fun name => if name = "KEY".toList then some ['k'] else none

/-- What the router makes of the draft's section. -/
def sampleAnswer (draft : ClassifierDraft) : Except (List Classifier.Refusal) RouteClassifier :=
  Classifier.validate sampleParser (classifierSection sampleBrowser draft) sampleRoutes ['A']
    sampleEnv fun _ => none

theorem section_accepted_iff_sample :
    ∃ classifier, sampleAnswer (sampleDraft [['A'], ['b']] ['m']) = .ok classifier := by
  have clean : hasProblems (validateDraft sampleBrowser (sampleDraft [['A'], ['b']] ['m'])
      (sampleRoutes.map Described.name)) = false := by decide +kernel
  have held : HoldsKey sampleEnv (sampleDraft [['A'], ['b']] ['m']) := fun _ => ⟨['k'], by decide⟩
  refine (section_accepted_iff trimKept_ascii sampleParser_laws clean held ['A'] fun _ => none).mpr ⟨?_, ?_⟩
  · decide
  · decide +kernel

theorem sampleAnswer_refused {draft : ClassifierDraft} (refused : (sampleAnswer draft).isOk = false) :
    ¬ ∃ classifier, sampleAnswer draft = .ok classifier := by
  rintro ⟨classifier, accepted⟩
  rw [accepted] at refused
  cases refused

/-- The panel approves of a model of 65 characters that are two bytes each, and of a route that is
listed twice; the router refuses both. -/
theorem section_refused_sample :
    ((hasProblems (validateDraft sampleBrowser (sampleDraft [['A']] (List.replicate 65 'é'))
        (sampleRoutes.map Described.name)) = false ∧
        HoldsKey sampleEnv (sampleDraft [['A']] (List.replicate 65 'é'))) ∧
      ¬ ∃ classifier, sampleAnswer (sampleDraft [['A']] (List.replicate 65 'é')) = .ok classifier) ∧
    (hasProblems (validateDraft sampleBrowser (sampleDraft [['A'], ['a']] ['m'])
        (sampleRoutes.map Described.name)) = false ∧
        HoldsKey sampleEnv (sampleDraft [['A'], ['a']] ['m'])) ∧
      ¬ ∃ classifier, sampleAnswer (sampleDraft [['A'], ['a']] ['m']) = .ok classifier := by
  refine ⟨⟨⟨?_, fun _ => ⟨['k'], ?_⟩⟩, sampleAnswer_refused ?_⟩,
    ⟨?_, fun _ => ⟨['k'], ?_⟩⟩, sampleAnswer_refused ?_⟩
  all_goals decide +kernel

end Sample

end Lightweight.Router.Panel
