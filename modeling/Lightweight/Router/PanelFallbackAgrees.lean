import Lightweight.Router.PanelCycles

/-! The panel and the router agree on fallback lists: a draft without a problem is a section that
`fallback::validate` accepts, and the running lists read back as themselves. They differ where a
route's name has a comma, or is the one that no member of an object can be set under. -/

namespace Lightweight.Router.Panel

open Lightweight.Core Lightweight.Catalog Lightweight.Digraph

section Agreement

variable [Lowercase]

/-- The names that a running router uses. -/
structure GoodRoles (roles : Roles) : Prop where
  apart : Apart roles.names
  trimmed : ∀ name ∈ roles.names, trim name = name
  reachable : ∀ name ∈ roles.reachable, name ∈ roles.names
  classifier : ∀ name ∈ roles.classifierRoutes, name ∈ roles.names

/-- The panel's context is what a router with these names reports. -/
structure Reported (ctx : FallbackContext) (roles : Roles) : Prop where
  routes : ctx.routes = roles.names.filter isLogicalRoute
  reachable : ∀ name, name ∈ ctx.reachable ↔ name ∈ roles.reachable
  classifier : ∀ name, name ∈ ctx.classifierRoutes ↔ name ∈ roles.classifierRoutes

variable {roles : Roles} {ctx : FallbackContext}

theorem same_eq_sameName : same = sameName := rfl

/-- Among names that are apart, one that is compared as the same as a member is that member. -/
theorem any_same_iff {names : List RouteName} (apart : Apart names) {some : List RouteName}
    (listed : ∀ name ∈ some, name ∈ names) {route : RouteName} (member : route ∈ names) :
    some.any (same · route) = true ↔ route ∈ some := by
  rw [List.any_eq_true]
  constructor
  · rintro ⟨name, here, alike⟩
    rw [← apart.eq (listed name here) member alike]
    exact here
  · intro here
    exact ⟨route, here, sameName_iff.mpr rfl⟩

/-- `concrete` finds the route a name stands for, as the router does. -/
theorem concrete_eq_ok (kelvin : KelvinAlone) (good : GoodRoles roles) (reported : Reported ctx roles)
    {name : List Char} {route : RouteName} :
    concrete name ctx = .ok route ↔ roles.Names name route := by
  have key (word : List Char) (plain : ∀ c ∈ trim word, c.toNat < 128) :
      same (trim name) word = true ↔ lookupKey name = (trim word).map Char.toLower := by
    rw [same_eq_sameName, sameName_iff, lookupKey_trim]
    rw [show lookupKey word = (trim word).map Char.toLower from Lowercase.ascii _ plain]
  have auto : same (trim name) "auto".toList = true ↔ lookupKey name = autoKey :=
    key _ (ascii_of_all (by decide))
  have reserved : same (trim name) "default".toList = true ↔ lookupKey name = defaultKey :=
    key _ (ascii_of_all (by decide))
  have apart : Apart ctx.routes := by
    rw [reported.routes]
    exact good.apart.filter _
  have search (found : RouteName) :
      (ctx.routes.find? (same · (trim name))).filter (fun route => !route.isEmpty) = some found ↔
        (found ∈ roles.names ∧ Logical found) ∧ sameName found name = true := by
    rw [Option.filter_eq_some_iff, same_eq_sameName, apart.find?_eq_some, reported.routes,
      List.mem_filter, isLogicalRoute_iff, sameName_iff, sameName_iff, lookupKey_trim]
    constructor
    · exact fun searched => searched.1
    · intro searched
      refine ⟨searched, ?_⟩
      have visible := searched.1.2.visible
      rw [ne_eq, lookupKey_eq_nil kelvin, good.trimmed found searched.1.1] at visible
      simpa using visible
  have answers {found : RouteName} (listed : found ∈ roles.names) :
      ctx.classifierRoutes.any (same · found) = true ↔ found ∈ roles.classifierRoutes := by
    rw [any_same_iff good.apart (fun name member =>
      good.classifier name ((reported.classifier name).mp member)) listed, reported.classifier]
  unfold concrete
  dsimp only
  constructor
  · intro found
    split_ifs at found with empty isAuto isDefault
    rw [List.isEmpty_iff, ← lookupKey_eq_nil kelvin] at empty
    rw [auto] at isAuto
    rw [reserved] at isDefault
    split at found
    · cases found
    · rename_i named searched
      rw [search] at searched
      obtain ⟨⟨listed, _⟩, alike⟩ := searched
      split_ifs at found with classifies
      cases found
      rw [answers listed] at classifies
      exact ⟨⟨empty, isAuto, isDefault⟩, listed, alike, classifies⟩
  · rintro ⟨logical, listed, alike, answering⟩
    have own := logical.of_same (sameName_iff.mp alike)
    rw [if_neg (by rw [List.isEmpty_iff, ← lookupKey_eq_nil kelvin]; exact logical.visible),
      if_neg (by rw [auto]; exact logical.notAuto),
      if_neg (by rw [reserved]; exact logical.notDefault),
      (search route).mpr ⟨⟨listed, own⟩, alike⟩]
    exact if_neg (by rw [answers listed]; exact answering)

theorem checkTargets_eq_ok (kelvin : KelvinAlone) (good : GoodRoles roles)
    (reported : Reported ctx roles) {source : RouteName} (member : source ∈ roles.names)
    {names : List (List Char)} {before result : List RouteName}
    (listed : ∀ route ∈ before, route ∈ roles.names) :
    checkTargets ctx source before names = .ok result ↔
      ∃ more, result = before ++ more ∧
        List.Forall₂ (fun name route => roles.Names name route ∧ route ≠ source) names more ∧
        more.Nodup ∧ ∀ route ∈ more, route ∉ before := by
  induction names generalizing before with
  | nil =>
      rw [checkTargets, Except.ok.injEq]
      constructor
      · rintro rfl
        exact ⟨[], (List.append_nil _).symm, .nil, List.nodup_nil, by simp⟩
      · rintro ⟨more, rfl, stand, _⟩
        cases stand
        rw [List.append_nil]
  | cons name names ih =>
      have own {route : RouteName} (here : route ∈ roles.names) :
          same route source = true ↔ route = source :=
        ⟨good.apart.eq here member, fun equal => by rw [equal]; exact sameName_iff.mpr rfl⟩
      have twice {route : RouteName} (here : route ∈ roles.names) :
          before.any (same · route) = true ↔ route ∈ before := any_same_iff good.apart listed here
      have grown {route : RouteName} (here : route ∈ roles.names) :
          ∀ other ∈ before ++ [route], other ∈ roles.names := by
        intro other old
        rcases List.mem_append.mp old with old | final
        · exact listed other old
        · rw [List.mem_singleton.mp final]
          exact here
      rw [checkTargets]
      constructor
      · intro checked
        split at checked
        · cases checked
        · rename_i target found
          have stands := (concrete_eq_ok kelvin good reported).mp found
          split_ifs at checked with itself again
          rw [own stands.listed] at itself
          rw [twice stands.listed] at again
          obtain ⟨more, rfl, stand, once, fresh⟩ := (ih (grown stands.listed)).mp checked
          refine ⟨target :: more, ?_, .cons ⟨stands, itself⟩ stand, ?_, ?_⟩
          · rw [List.append_assoc, List.singleton_append]
          · rw [List.nodup_cons]
            refine ⟨?_, once⟩
            intro later
            exact fresh target later (List.mem_append_right _ (List.mem_singleton_self target))
          · rw [List.forall_mem_cons]
            refine ⟨again, ?_⟩
            intro route later old
            exact fresh route later (List.mem_append_left _ old)
      · rintro ⟨more, rfl, stand, once, fresh⟩
        cases stand with
        | @cons _ target _ more stands stand =>
            rw [List.nodup_cons] at once
            rw [List.forall_mem_cons] at fresh
            rw [(concrete_eq_ok kelvin good reported).mpr stands.1]
            dsimp only
            rw [if_neg (by rw [own stands.1.listed]; exact stands.2),
              if_neg (by rw [twice stands.1.listed]; exact fresh.1)]
            refine (ih (grown stands.1.listed)).mpr ⟨more, ?_, stand, once.2, ?_⟩
            · rw [List.append_assoc, List.singleton_append]
            · intro route later old
              rcases List.mem_append.mp old with old | final
              · exact fresh.2 route later old
              · rw [List.mem_singleton.mp final] at later
                exact once.1 later

/-- A row as the lists it is compared with are written. -/
def written (row : ChainDraft) : List Char × List (List Char) := (row.source, parseTargets row.targets)

/-- A row is refused, or is one more list. -/
theorem checkRow_cases (kelvin : KelvinAlone) (good : GoodRoles roles) (reported : Reported ctx roles)
    (state : Checking) (row : ChainDraft) :
    (∃ problem, (checkRow ctx state row).problems = state.problems ++ [(row.id, problem)]) ∨
    ∃ list, FitList roles (written row) list ∧ state.seen.any (same · list.1) = false ∧
      checkRow ctx state row =
        ⟨state.problems, state.resolved ++ [list], state.seen ++ [list.1]⟩ := by
  unfold checkRow
  split_ifs with blank
  · exact .inl ⟨_, rfl⟩
  · split
    · exact .inl ⟨_, rfl⟩
    · rename_i source found
      have stands := (concrete_eq_ok kelvin good reported).mp found
      split_ifs with foreign again
      · exact .inl ⟨_, rfl⟩
      · exact .inl ⟨_, rfl⟩
      · dsimp only
        split_ifs with none_ many
        · exact .inl ⟨_, rfl⟩
        · exact .inl ⟨_, rfl⟩
        · split
          · exact .inl ⟨_, rfl⟩
          · rename_i targets checked
            obtain ⟨more, same_targets, stand, once, _⟩ := (checkTargets_eq_ok kelvin good reported
              stands.listed (by simp)).mp checked
            rw [List.nil_append] at same_targets
            subst same_targets
            refine .inr ⟨(source, targets), ⟨stands, ?_, by simpa [written] using none_, not_lt.mp many,
              ⟨stand, once⟩⟩, by simpa using again, rfl⟩
            rw [Bool.not_eq_true, Bool.not_eq_false', any_same_iff good.apart (fun name member =>
              good.reachable name ((reported.reachable name).mp member)) stands.listed,
              reported.reachable] at foreign
            exact foreign

/-- A row that stands for a list of its own is taken. -/
theorem checkRow_taken (kelvin : KelvinAlone) (good : GoodRoles roles) (reported : Reported ctx roles)
    (state : Checking) {row : ChainDraft} {list : RouteName × List RouteName}
    (fit : FitList roles (written row) list) (fresh : state.seen.any (same · list.1) = false) :
    checkRow ctx state row =
      ⟨state.problems, state.resolved ++ [list], state.seen ++ [list.1]⟩ := by
  obtain ⟨source, targets⟩ := list
  have found : concrete row.source ctx = .ok source :=
    (concrete_eq_ok kelvin good reported).mpr fit.source
  have visible : trim row.source ≠ [] := by
    rw [ne_eq, ← lookupKey_eq_nil kelvin]
    exact fit.source.logical.visible
  have within : ctx.reachable.any (same · source) = true := by
    rw [any_same_iff good.apart (fun name member =>
      good.reachable name ((reported.reachable name).mp member)) fit.source.listed,
      reported.reachable]
    exact fit.reachable
  have checked : checkTargets ctx source [] (parseTargets row.targets) = .ok targets :=
    (checkTargets_eq_ok kelvin good reported fit.source.listed (by simp)).mpr
      ⟨targets, rfl, fit.targets.stand, fit.targets.once, by simp⟩
  have some : parseTargets row.targets ≠ [] := fit.some
  have few : (parseTargets row.targets).length ≤ maxFallbackRoutes := fit.few
  unfold checkRow
  rw [if_neg (by simpa using visible), found]
  dsimp only at fresh ⊢
  rw [within, fresh, if_neg (by simp), if_neg (by simp), if_neg (by simpa using some),
    if_neg (not_lt.mpr few), checked]

/-- No row was refused so far. -/
structure Quiet (roles : Roles) (state : Checking) : Prop where
  problems : state.problems = []
  seen : state.seen = state.resolved.map Prod.fst
  listed : ∀ source ∈ state.seen, source ∈ roles.names

theorem Quiet.fresh_iff (good : GoodRoles roles) {state : Checking} (quiet : Quiet roles state)
    {source : RouteName} (listed : source ∈ roles.names) :
    state.seen.any (same · source) = false ↔ source ∉ state.resolved.map Prod.fst := by
  rw [← Bool.not_eq_true, any_same_iff good.apart quiet.listed listed, quiet.seen]

omit [Lowercase] in
/-- The state after one more list. -/
theorem Quiet.grown {state : Checking} {list : RouteName × List RouteName} :
    Quiet roles ⟨state.problems, state.resolved ++ [list], state.seen ++ [list.1]⟩ ↔
      Quiet roles state ∧ list.1 ∈ roles.names := by
  constructor
  · rintro ⟨problems, seen, listed⟩
    rw [List.map_append, List.map_singleton] at seen
    refine ⟨⟨problems, (List.append_inj_left' seen rfl), ?_⟩, ?_⟩
    · exact fun source member => listed source (List.mem_append_left _ member)
    · exact listed list.1 (List.mem_append_right _ (List.mem_singleton_self _))
  · rintro ⟨⟨problems, seen, listed⟩, member⟩
    refine ⟨problems, ?_, ?_⟩
    · rw [List.map_append, List.map_singleton, seen]
    · intro source old
      rcases List.mem_append.mp old with old | final
      · exact listed source old
      · rw [List.mem_singleton.mp final]
        exact member

theorem checkRow_collects (kelvin : KelvinAlone) (good : GoodRoles roles)
    (reported : Reported ctx roles) :
    Collects (Quiet roles) Checking.resolved (checkRow ctx)
      (fun row => FitList roles (written row)) Prod.fst where
  sound := by
    intro state row quiet
    rcases checkRow_cases kelvin good reported state row with
      ⟨problem, refused⟩ | ⟨list, fit, fresh, taken⟩
    · have none_ := quiet.problems
      rw [refused] at none_
      simp at none_
    · rw [taken] at quiet ⊢
      obtain ⟨before, _⟩ := Quiet.grown.mp quiet
      exact ⟨before, list, fit, (before.fresh_iff good fit.source.listed).mp fresh, rfl⟩
  complete := by
    intro state row list quiet fit fresh
    have unseen := (quiet.fresh_iff good fit.source.listed).mpr fresh
    rw [checkRow_taken kelvin good reported state fit unseen]
    exact ⟨Quiet.grown.mpr ⟨quiet, fit.source.listed⟩, rfl⟩

/-- While no row was refused, the rows seen are those that are kept. -/
theorem foldl_checkRow_quiet (kelvin : KelvinAlone) (good : GoodRoles roles)
    (reported : Reported ctx roles) (rows : List ChainDraft)
    (clean : (rows.foldl (checkRow ctx) ⟨[], [], []⟩).problems = []) :
    Quiet roles (rows.foldl (checkRow ctx) ⟨[], [], []⟩) := by
  induction rows using List.reverseRecOn with
  | nil => exact ⟨rfl, rfl, by simp⟩
  | append_singleton rows row ih =>
      rw [List.foldl_append, List.foldl_cons, List.foldl_nil] at clean ⊢
      rcases checkRow_cases kelvin good reported (rows.foldl (checkRow ctx) ⟨[], [], []⟩) row with
        ⟨problem, refused⟩ | ⟨list, fit, _, taken⟩
      · rw [refused] at clean
        simp at clean
      · rw [taken] at clean ⊢
        exact Quiet.grown.mpr ⟨ih clean, fit.source.listed⟩

/-- A draft has no problem exactly where its rows stand for lists that may stand together. -/
theorem hasChainProblems_iff (kelvin : KelvinAlone) (good : GoodRoles roles)
    (reported : Reported ctx roles) (rows : List ChainDraft) :
    hasChainProblems (validateChains rows ctx) = false ↔
      ∃ lists, Acceptable roles (rows.map written) lists := by
  have started : Quiet roles ⟨[], [], []⟩ := ⟨rfl, rfl, by simp⟩
  have run := (checkRow_collects kelvin good reported).foldl_iff rows ⟨[], [], []⟩ started rfl
  have noCycle {lists : List (RouteName × List RouteName)} (distinct : (lists.map Prod.fst).Nodup) :
      findCycle lists = none ↔ ¬ HasCycle (Lists lists) := by
    rw [← (findCycle_exact lists).2.1, ← (findCycle_alike distinct).2]
    simp
  simp only [hasChainProblems, validateChains, Bool.or_eq_false_iff, Option.isSome_eq_false_iff,
    Option.isNone_iff_eq_none, Bool.not_eq_false', List.isEmpty_iff]
  constructor
  · rintro ⟨searched, clean⟩
    obtain ⟨fits, distinct⟩ := (run _).mp ⟨foldl_checkRow_quiet kelvin good reported rows clean, rfl⟩
    exact ⟨_, List.forall₂_map_left_iff.mpr fits, distinct, (noCycle distinct).mp searched⟩
  · rintro ⟨lists, fits, distinct, acyclic⟩
    obtain ⟨quiet, collected⟩ := (run lists).mpr ⟨List.forall₂_map_left_iff.mp fits, distinct⟩
    rw [collected]
    exact ⟨(noCycle distinct).mpr acyclic, quiet.problems⟩

end Agreement

/-! ### Lists as the members of an object -/

section Members

variable (skip : List Char → Prop) [DecidablePred skip]

/-- The object that the lists are set in, but for those under a key that is passed over. -/
def insertAll (lists : List (RouteName × List RouteName)) : CrossRouteFallbackFile :=
  lists.foldl (fun object list => if skip list.1 then object else object.insert list.1 list.2) ∅

theorem getElem?_insertAll {lists : List (RouteName × List RouteName)}
    (distinct : (lists.map Prod.fst).Nodup) (key : List Char) (value : List (List Char)) :
    (insertAll skip lists)[key]? = some value ↔ (key, value) ∈ lists ∧ ¬ skip key := by
  induction lists using List.reverseRecOn with
  | nil => simp [insertAll]
  | append_singleton lists list ih =>
      obtain ⟨source, targets⟩ := list
      rw [List.map_append, List.nodup_append] at distinct
      obtain ⟨distinct, -, fresh⟩ := distinct
      have unlisted : (source, value) ∉ lists := fun listed =>
        fresh source (List.mem_map_of_mem listed) source (by simp) rfl
      unfold insertAll at ih ⊢
      rw [List.foldl_append, List.foldl_cons, List.foldl_nil, List.mem_append, List.mem_singleton,
        Prod.mk.injEq]
      by_cases passed : skip source
      · rw [if_pos passed, ih distinct]
        constructor
        · exact fun held => ⟨.inl held.1, held.2⟩
        · rintro ⟨listed | ⟨rfl, _⟩, unskipped⟩
          · exact ⟨listed, unskipped⟩
          · exact absurd passed unskipped
      · rw [if_neg passed, Std.ExtTreeMap.getElem?_insert]
        by_cases own : source = key
        · subst own
          rw [if_pos Std.ReflCmp.compare_self, Option.some.injEq]
          constructor
          · rintro rfl
            exact ⟨.inr ⟨rfl, rfl⟩, passed⟩
          · rintro ⟨listed | ⟨_, rfl⟩, _⟩
            · exact absurd listed unlisted
            · rfl
        · rw [if_neg (fun equal => own (Std.LawfulEqCmp.eq_of_compare equal)), ih distinct]
          constructor
          · exact fun held => ⟨.inl held.1, held.2⟩
          · rintro ⟨listed | ⟨rfl, _⟩, unskipped⟩
            · exact ⟨listed, unskipped⟩
            · exact absurd rfl own

theorem toList_insertAll {lists : List (RouteName × List RouteName)}
    (distinct : (lists.map Prod.fst).Nodup) :
    (insertAll skip lists).toList.Perm (lists.filter fun list => !decide (skip list.1)) := by
  rw [List.perm_ext_iff_of_nodup]
  · rintro ⟨key, value⟩
    rw [Std.ExtTreeMap.mem_toList_iff_getElem?_eq_some, getElem?_insertAll skip distinct,
      List.mem_filter]
    simp
  · refine Std.ExtTreeMap.distinct_keys_toList.imp ?_
    rintro a b different rfl
    exact different Std.ReflCmp.compare_self
  · exact distinct.of_map.filter _

end Members

/-! ### Names in a field of text -/

theorem not_mem_splitOn {c : Char} {text piece : List Char} (member : piece ∈ text.splitOn c) :
    c ∉ piece := by
  induction text generalizing piece with
  | nil =>
      rw [List.splitOn_nil, List.mem_singleton] at member
      rw [member]
      exact List.not_mem_nil
  | cons first text ih =>
      rw [List.splitOn_cons_eq_if_modifyHead] at member
      split at member
      · rcases List.mem_cons.mp member with rfl | later
        · exact List.not_mem_nil
        · exact ih later
      · rename_i other
        cases pieces : text.splitOn c with
        | nil => exact absurd pieces (List.splitOn_ne_nil c text)
        | cons head rest =>
            rw [pieces] at ih member
            rcases List.mem_cons.mp member with rfl | later
            · rw [List.mem_cons, not_or]
              refine ⟨?_, ih List.mem_cons_self⟩
              rintro rfl
              exact other BEq.rfl
            · exact ih (List.mem_cons_of_mem head later)

/-- No name in a field of names parted by commas has one. -/
theorem comma_not_mem_parseTargets {text name : List Char} (member : name ∈ parseTargets text) :
    ',' ∉ name := by
  obtain ⟨piece, split, rfl⟩ := List.mem_map.mp (List.mem_filter.mp member).1
  exact fun comma => not_mem_splitOn split (mem_of_mem_trim comma)

theorem parseTargets_space (text : List Char) : parseTargets (' ' :: text) = parseTargets text := by
  have blank : ∀ c ∈ [' '], isWhitespace c = true := List.forall_mem_singleton.mpr (by decide)
  unfold parseTargets
  rw [List.splitOn_cons_eq_if_modifyHead, if_neg (by decide)]
  cases pieces : text.splitOn ',' with
  | nil => rfl
  | cons head rest =>
      have same : trim (' ' :: head) = trim head := trim_append_left blank head
      rw [List.modifyHead_cons, List.map_cons, List.map_cons, same]

theorem parseTargets_cons {name : List Char} (plain : ',' ∉ name) (trimmed : trim name = name)
    (some : name ≠ []) (text : List Char) :
    parseTargets (name ++ ',' :: text) = name :: parseTargets text := by
  unfold parseTargets
  rw [List.splitOn_append_cons_self_of_not_mem plain, List.map_cons, trimmed, List.filter_cons,
    if_pos (by simpa using some)]

/-- Names without a comma are read back from the field they were written into. -/
theorem parseTargets_join {names : List (List Char)} (plain : ∀ name ∈ names, ',' ∉ name)
    (trimmed : ∀ name ∈ names, trim name = name) (some : ∀ name ∈ names, name ≠ []) :
    parseTargets ((", ".toList).intercalate names) = names := by
  induction names with
  | nil => rfl
  | cons name names ih =>
      rw [List.forall_mem_cons] at plain trimmed some
      have later := ih plain.2 trimmed.2 some.2
      cases names with
      | nil =>
          rw [List.intercalate_singleton, parseTargets, List.splitOn_eq_singleton plain.1,
            List.map_singleton, trimmed.1, List.filter_cons, if_pos (by simpa using some.1),
            List.filter_nil]
      | cons next names =>
          rw [List.intercalate_cons_cons, List.append_assoc]
          have joined := parseTargets_cons plain.1 trimmed.1 some.1
            (' ' :: (", ".toList).intercalate (next :: names))
          rw [parseTargets_space, later] at joined
          exact joined

/-! ### What the panel writes -/

section Writing

variable [Lowercase] {roles : Roles} {ctx : FallbackContext}

/-- The list a row is written as. -/
structure WrittenAs (ctx : FallbackContext) (row : ChainDraft) (list : RouteName × List RouteName) :
    Prop where
  source : concrete row.source ctx = .ok list.1
  targets : List.Forall₂ (fun name route => concrete name ctx = .ok route) (parseTargets row.targets)
    list.2

theorem writtenAs_of_fitList (kelvin : KelvinAlone) (good : GoodRoles roles)
    (reported : Reported ctx roles) {row : ChainDraft} {list : RouteName × List RouteName}
    (fit : FitList roles (written row) list) : WrittenAs ctx row list where
  source := (concrete_eq_ok kelvin good reported).mpr fit.source
  targets := fit.targets.stand.imp fun _ _ stands =>
    (concrete_eq_ok kelvin good reported).mpr stands.1

theorem writtenAs_of_acceptable (kelvin : KelvinAlone) (good : GoodRoles roles)
    (reported : Reported ctx roles) {rows : List ChainDraft}
    {lists : List (RouteName × List RouteName)} (acceptable : Acceptable roles (rows.map written) lists) :
    List.Forall₂ (WrittenAs ctx) rows lists :=
  (List.forall₂_map_left_iff.mp acceptable.fits).imp fun _ _ fit =>
    writtenAs_of_fitList kelvin good reported fit

theorem rightUnique_writtenAs : Relator.RightUnique (WrittenAs ctx) := by
  intro row list other as again
  have source := as.source
  rw [again.source] at source
  have unique : Relator.RightUnique fun name route => concrete name ctx = .ok route := by
    intro name first second one another
    rw [one] at another
    exact Except.ok.inj another
  exact Prod.ext (Except.ok.inj source).symm
    (List.right_unique_forall₂' unique as.targets again.targets)

theorem filterMap_concrete {names : List (List Char)} {routes : List RouteName}
    (found : List.Forall₂ (fun name route => concrete name ctx = .ok route) names routes) :
    names.filterMap (fun name => (concrete name ctx).toOption) = routes := by
  induction found with
  | nil => rfl
  | cons one _ ih =>
      rw [List.filterMap_cons_some (by rw [one]; rfl), ih]

/-- The section holds the list of each row, but for one under the key that cannot be set. -/
theorem fallbackSection_eq {rows : List ChainDraft} {lists : List (RouteName × List RouteName)}
    (as : List.Forall₂ (WrittenAs ctx) rows lists) :
    fallbackSection rows ctx = insertAll (· = protoKey) lists := by
  unfold fallbackSection insertAll
  generalize (∅ : CrossRouteFallbackFile) = object
  induction as generalizing object with
  | nil => rfl
  | cons as _ ih =>
      rw [List.foldl_cons, List.foldl_cons, as.source, filterMap_concrete as.targets]
      exact ih _

omit [Lowercase] in
theorem view_eq (fallback : CrossRouteFallback) :
    view fallback = insertAll (fun _ => False) fallback.chains := by
  unfold view insertAll
  simp

/-- A draft without a problem makes a section that the router accepts and that has one list for each
row, exactly where no row's list goes under the key that cannot be set. -/
theorem draft_accepted_iff (kelvin : KelvinAlone) {routes : List Route} (good : GoodRoles roles)
    (reported : Reported ctx roles) (names : roles.names = routes.map Route.name)
    {rows : List ChainDraft} (clean : hasChainProblems (validateChains rows ctx) = false) :
    ((∃ fallback, validate (fallbackSection rows ctx) routes roles.reachable
          roles.classifierRoutes = .ok fallback) ∧
        ∃ lists, List.Forall₂ (WrittenAs ctx) rows lists ∧
          (fallbackSection rows ctx).toList.Perm lists) ↔
      ∀ row ∈ rows, ¬ (protoKey ∈ roles.names ∧ sameName protoKey row.source = true) := by
  obtain ⟨lists, acceptable⟩ := (hasChainProblems_iff kelvin good reported rows).mp clean
  have fits := List.forall₂_map_left_iff.mp acceptable.fits
  have as := writtenAs_of_acceptable kelvin good reported acceptable
  have held := toList_insertAll (· = protoKey) acceptable.distinct
  rw [← fallbackSection_eq as] at held
  constructor
  · rintro ⟨_, others, again, whole⟩ row member ⟨listed, alike⟩
    have same_lists := List.right_unique_forall₂' rightUnique_writtenAs as again
    obtain ⟨list, here, fit⟩ := exists_of_forall₂ fits member
    have proto : list.1 = protoKey := by
      have source := sameName_iff.mp fit.source.same
      exact good.apart.eq fit.source.listed listed
        (sameName_iff.mpr (source.trans (sameName_iff.mp alike).symm))
    rw [same_lists] at here
    have kept := held.mem_iff.mp (whole.mem_iff.mpr here)
    simp [proto] at kept
  · intro apart
    have every : lists.filter (fun list => !decide (list.1 = protoKey)) = lists := by
      rw [List.filter_eq_self]
      intro list here
      obtain ⟨row, member, fit⟩ := exists_of_forall₂ fits.flip here
      rw [Bool.not_eq_true', decide_eq_false_iff_not]
      intro proto
      have listed := fit.source.listed
      have alike := fit.source.same
      rw [proto] at listed alike
      exact apart row member ⟨listed, alike⟩
    rw [every] at held
    refine ⟨?_, lists, as, held⟩
    have itself := acceptable.self held
    obtain ⟨names, reachable, classifierRoutes⟩ := roles
    dsimp only at names
    subst names
    exact validate_of_acceptable kelvin good.apart itself

/-- Lower-casing a text neither makes commas nor takes them away. -/
def CommaKept : Prop := ∀ text : List Char, ',' ∈ Lowercase.toLowercase text ↔ ',' ∈ text

omit [Lowercase] in
theorem map_written_draftFrom (entries : List (List Char × List (List Char))) :
    (draftFrom entries).map written =
      entries.map fun list => (list.1, parseTargets ((", ".toList).intercalate list.2)) := by
  unfold draftFrom
  rw [List.map_map]
  have composed : (written ∘ fun entry : (List Char × List (List Char)) × Nat =>
      ({ id := entry.2 + 1, source := entry.1.1,
         targets := (", ".toList).intercalate entry.1.2 } : ChainDraft)) =
      (fun list => (list.1, parseTargets ((", ".toList).intercalate list.2))) ∘ Prod.fst := rfl
  have first := List.map_map (f := Prod.fst) (l := entries.zipIdx)
    (g := fun list : List Char × List (List Char) =>
      (list.1, parseTargets ((", ".toList).intercalate list.2)))
  rw [List.zipIdx_map_fst] at first
  rw [first]
  rfl

/-- Lists whose targets have no comma are read back from their rows. -/
theorem map_written_of_plain (kelvin : KelvinAlone) (good : GoodRoles roles)
    {entries : List (List Char × List (List Char))} (entered : Acceptable roles entries entries)
    (plain : ∀ entry ∈ entries, ∀ target ∈ entry.2, ',' ∉ target) :
    (draftFrom entries).map written = entries := by
  rw [map_written_draftFrom]
  refine (List.map_congr_left ?_).trans (List.map_id entries)
  rintro ⟨source, targets⟩ member
  have fit := List.forall₂_same.mp entered.fits (source, targets) member
  have stands := forall₂_self (fun stands => stands.1.self) fit.targets.stand
  rw [List.forall₂_same] at stands
  rw [parseTargets_join (plain _ member) (fun name here => good.trimmed name (stands name here).listed)]
  · rfl
  · rintro name here rfl
    exact (stands [] here).logical.visible ((lookupKey_eq_nil kelvin).mpr rfl)

/-- A target that is read from a row has no comma. -/
theorem comma_not_mem_target (commas : CommaKept) (good : GoodRoles roles)
    {entries : List (List Char × List (List Char))} {lists : List (RouteName × List RouteName)}
    (acceptable : Acceptable roles ((draftFrom entries).map written) lists)
    {list : RouteName × List RouteName} (kept : list ∈ lists) {target : RouteName}
    (inside : target ∈ list.2) : ',' ∉ target := by
  intro comma
  obtain ⟨row, rowMember, fit⟩ := exists_of_forall₂ acceptable.fits.flip kept
  obtain ⟨name, typed, stands, _⟩ := exists_of_forall₂ fit.targets.stand.flip inside
  rw [map_written_draftFrom] at rowMember
  obtain ⟨entry, _, rfl⟩ := List.mem_map.mp rowMember
  have plain := comma_not_mem_parseTargets typed
  have alike := sameName_iff.mp stands.same
  rw [← good.trimmed target stands.listed, ← commas, ← lookupKey, alike, lookupKey, commas] at comma
  exact plain (mem_of_mem_trim comma)

/-- The running lists read back as themselves, and without a problem, exactly where none goes under
the key that cannot be set and no target has a comma. -/
theorem running_lists_iff (kelvin : KelvinAlone) (commas : CommaKept) (good : GoodRoles roles)
    (reported : Reported ctx roles) {fallback : CrossRouteFallback}
    (running : Acceptable roles fallback.chains fallback.chains)
    {entries : List (List Char × List (List Char))} (listed : entries.Perm (view fallback).toList) :
    (hasChainProblems (validateChains (draftFrom entries) ctx) = false ∧
        fallbackSection (draftFrom entries) ctx = view fallback) ↔
      ∀ list ∈ fallback.chains, list.1 ≠ protoKey ∧ ∀ target ∈ list.2, ',' ∉ target := by
  have viewed := toList_insertAll (fun _ => False) running.distinct
  rw [← view_eq] at viewed
  have all : fallback.chains.filter (fun _ => !decide False) = fallback.chains := by simp
  rw [all] at viewed
  have perm := listed.trans viewed
  have entered : Acceptable roles entries entries := running.self perm
  constructor
  · rintro ⟨clean, same_section⟩ list member
    obtain ⟨lists, acceptable⟩ := (hasChainProblems_iff kelvin good reported _).mp clean
    have as := writtenAs_of_acceptable kelvin good reported acceptable
    have held : (fallbackSection (draftFrom entries) ctx)[list.1]? = some list.2 := by
      rw [same_section, view_eq, getElem?_insertAll _ running.distinct]
      exact ⟨member, not_false⟩
    rw [fallbackSection_eq as, getElem?_insertAll _ acceptable.distinct] at held
    obtain ⟨kept, apart⟩ := held
    refine ⟨apart, ?_⟩
    exact fun target inside => comma_not_mem_target commas good acceptable kept inside
  · intro plain
    have back := map_written_of_plain kelvin good entered fun entry member =>
      (plain entry (perm.mem_iff.mp member)).2
    have acceptable : Acceptable roles ((draftFrom entries).map written) entries := by
      rw [back]
      exact entered
    refine ⟨(hasChainProblems_iff kelvin good reported _).mpr ⟨entries, acceptable⟩, ?_⟩
    have as := writtenAs_of_acceptable kelvin good reported acceptable
    apply Std.ExtTreeMap.ext_toList
    rw [fallbackSection_eq as]
    have every : entries.filter (fun list => !decide (list.1 = protoKey)) = entries := by
      rw [List.filter_eq_self]
      intro list here
      simpa using (plain list (perm.mem_iff.mp here)).1
    have held := toList_insertAll (· = protoKey) acceptable.distinct
    rw [every] at held
    exact held.trans listed

end Writing

end Lightweight.Router.Panel
