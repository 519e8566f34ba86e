import Lightweight.Histogram
import Mathlib.Data.List.Perm.Basic
import Mathlib.Data.List.MinMax
import Mathlib.Algebra.Ring.Nat

/-! The tallies of the gateway's metrics: counters that any number of requests bring up to date at once
and a scrape reads while they do. Each update is one atomic step. -/

namespace Lightweight.Gateway.Latency

open Histogram

def latencyBoundsMs : Ladder Nat where
  bounds := [50, 100, 250, 500, 1000, 2500, 5000, 10000, 30000, 60000, 120000]
  sorted := by decide

structure Tally where
  count : Nat
  totalMs : Nat
  maxMs : Nat
  buckets : List Nat
deriving DecidableEq, Repr

def Tally.new : Tally := { count := 0, totalMs := 0, maxMs := 0, buckets := latencyBoundsMs.empty }

/-- The atomic steps of an observation. -/
inductive TallyUpdate where
  | count
  | total (ms : Nat)
  | max (ms : Nat)
  | bucket (index : Nat)
deriving DecidableEq, Repr

def Tally.apply (tally : Tally) : TallyUpdate → Tally
  | .count => { tally with count := tally.count + 1 }
  | .total ms => { tally with totalMs := tally.totalMs + ms }
  | .max ms => { tally with maxMs := max tally.maxMs ms }
  | .bucket index => { tally with buckets := tally.buckets.modify index (· + 1) }

def Tally.run (tally : Tally) (updates : List TallyUpdate) : Tally := updates.foldl Tally.apply tally

/-- What `observe` does, in its order. -/
def observation (ms : Nat) : List TallyUpdate :=
  [.count, .total ms, .max ms, .bucket (bucketOf latencyBoundsMs.bounds ms)]

def Tally.observe (tally : Tally) (ms : Nat) : Tally := tally.run (observation ms)

/-- A cumulative bucket; the last one has no bound. -/
structure Bucket where
  leMs : Option Nat
  count : Nat
deriving DecidableEq, Repr

structure TallySnapshot where
  count : Nat
  totalMs : Nat
  maxMs : Nat
  buckets : List Bucket
deriving DecidableEq, Repr

/-- The bounds of the buckets. -/
def bucketBounds : List (Option Nat) := latencyBoundsMs.bounds.map some ++ [none]

/-- A read whose loads find the tally at different moments: the bucket of each index, and then the
other counters. -/
def readAt (moment : Nat → Tally) : TallySnapshot :=
  let loaded := (List.range bucketBounds.length).map fun index => (moment index).buckets.getD index 0
  { count := (moment bucketBounds.length).count
    totalMs := (moment (bucketBounds.length + 1)).totalMs
    maxMs := (moment (bucketBounds.length + 2)).maxMs
    buckets := List.zipWith (fun leMs count => { leMs, count }) bucketBounds (cumulative 0 loaded) }

def Tally.read (tally : Tally) : TallySnapshot := readAt fun _ => tally

/-- The bound of the first bucket that holds as many observations; the share of them is rounded up to
a whole number before. -/
def TallySnapshot.quantileMs (snapshot : TallySnapshot) (target : Nat) : Option Nat :=
  if snapshot.count = 0 then none
  else (snapshot.buckets.find? fun bucket => target ≤ bucket.count).bind Bucket.leMs

/-! ### The updates in any order -/

theorem modify_modify_comm (counts : List Nat) (i j : Nat) :
    (counts.modify i (· + 1)).modify j (· + 1) = (counts.modify j (· + 1)).modify i (· + 1) := by
  apply List.ext_getElem?
  intro k
  simp only [List.getElem?_modify]
  by_cases first : i = k
  · by_cases second : j = k
    · simp [first, second]
    · simp [first, second]
  · by_cases second : j = k
    · simp [first, second]
    · simp [first, second]

theorem Tally.apply_comm (tally : Tally) (first second : TallyUpdate) :
    (tally.apply first).apply second = (tally.apply second).apply first := by
  cases first with
  | count => cases second <;> rfl
  | total ms =>
      cases second with
      | total other => simp only [Tally.apply, Nat.add_right_comm]
      | _ => rfl
  | max ms =>
      cases second with
      | max other => simp only [Tally.apply, max_right_comm]
      | _ => rfl
  | bucket index =>
      cases second with
      | bucket other => simp only [Tally.apply, modify_modify_comm]
      | _ => rfl

/-- How the steps of several observations fall between each other makes no difference in the end. -/
theorem Tally.run_perm (tally : Tally) {updates others : List TallyUpdate}
    (interleaved : updates.Perm others) : tally.run updates = tally.run others :=
  interleaved.foldl_eq' (fun first _ second _ state => Tally.apply_comm state first second) tally

theorem Tally.run_observations (tally : Tally) (values : List Nat) :
    tally.run (values.flatMap observation) =
      { count := tally.count + values.length
        totalMs := tally.totalMs + values.sum
        maxMs := values.foldl max tally.maxMs
        buckets := values.foldl (Histogram.observe latencyBoundsMs.bounds) tally.buckets } := by
  induction values generalizing tally with
  | nil => rfl
  | cons value values ih =>
      have split : tally.run ((value :: values).flatMap observation) =
          (tally.observe value).run (values.flatMap observation) := by
        rw [Tally.run, List.flatMap_cons, List.foldl_append]
        rfl
      have one : tally.observe value =
          { count := tally.count + 1
            totalMs := tally.totalMs + value
            maxMs := max tally.maxMs value
            buckets := Histogram.observe latencyBoundsMs.bounds tally.buckets value } := rfl
      rw [split, ih, one, List.length_cons, List.sum_cons, List.foldl_cons, List.foldl_cons]
      simp only [Tally.mk.injEq, and_true]
      omega

/-! ### Between two moments -/

/-- No counter of the first tally is ahead of the second. -/
structure Tally.Below (tally other : Tally) : Prop where
  count : tally.count ≤ other.count
  totalMs : tally.totalMs ≤ other.totalMs
  maxMs : tally.maxMs ≤ other.maxMs
  buckets : ∀ index, tally.buckets.getD index 0 ≤ other.buckets.getD index 0

theorem Tally.Below.refl (tally : Tally) : tally.Below tally :=
  ⟨le_rfl, le_rfl, le_rfl, fun _ => le_rfl⟩

theorem Tally.Below.trans {first second third : Tally} (here : first.Below second)
    (there : second.Below third) : first.Below third :=
  ⟨here.count.trans there.count, here.totalMs.trans there.totalMs, here.maxMs.trans there.maxMs,
    fun index => (here.buckets index).trans (there.buckets index)⟩

theorem Tally.below_apply (tally : Tally) (update : TallyUpdate) :
    tally.Below (tally.apply update) := by
  cases update with
  | count => exact ⟨Nat.le_succ _, le_rfl, le_rfl, fun _ => le_rfl⟩
  | total ms => exact ⟨le_rfl, Nat.le_add_right _ _, le_rfl, fun _ => le_rfl⟩
  | max ms => exact ⟨le_rfl, le_rfl, le_max_left _ _, fun _ => le_rfl⟩
  | bucket index =>
      refine ⟨le_rfl, le_rfl, le_rfl, ?_⟩
      intro other
      simp only [Tally.apply, List.getD_eq_getElem?_getD, List.getElem?_modify]
      cases tally.buckets[other]? with
      | none => exact le_rfl
      | some count => by_cases here : index = other <;> simp [here]

theorem Tally.below_run (tally : Tally) (updates : List TallyUpdate) :
    tally.Below (tally.run updates) := by
  induction updates generalizing tally with
  | nil => exact Tally.Below.refl tally
  | cons update updates ih => exact (tally.below_apply update).trans (ih _)

/-- A run with all the steps of another one is ahead of it. -/
theorem Tally.below_of_subperm (tally : Tally) {updates others : List TallyUpdate}
    (among : updates.Subperm others) : (tally.run updates).Below (tally.run others) := by
  obtain ⟨nonempty, same, inside⟩ := among
  obtain ⟨rest, split⟩ := inside.exists_perm_append
  have whole : tally.run others = (tally.run updates).run rest :=
    calc
      tally.run others = tally.run (nonempty ++ rest) := tally.run_perm split
      _ = (tally.run nonempty).run rest := List.foldl_append
      _ = (tally.run updates).run rest := congrArg (Tally.run · rest) (tally.run_perm same)
  rw [whole]
  exact Tally.below_run _ rest

theorem cumulative_mono {counts others : List Nat} (below : List.Forall₂ (· ≤ ·) counts others)
    {running other : Nat} (before : running ≤ other) :
    List.Forall₂ (· ≤ ·) (cumulative running counts) (cumulative other others) := by
  induction below generalizing running other with
  | nil => exact .nil
  | cons here _ ih =>
      have next := Nat.add_le_add before here
      exact .cons next (ih next)

theorem length_cumulative (running : Nat) (counts : List Nat) :
    (cumulative running counts).length = counts.length := by
  induction counts generalizing running with
  | nil => rfl
  | cons count counts ih => rw [cumulative, List.length_cons, ih, List.length_cons]

theorem map_count_zipWith {bounds : List (Option Nat)} {counts : List Nat}
    (aligned : bounds.length = counts.length) :
    (List.zipWith (fun leMs count => Bucket.mk leMs count) bounds counts).map Bucket.count =
      counts := by
  induction bounds generalizing counts with
  | nil => exact (List.eq_nil_of_length_eq_zero aligned.symm).symm
  | cons bound bounds ih =>
      cases counts with
      | nil => cases aligned
      | cons count counts => exact congrArg (count :: ·) (ih (Nat.succ.inj aligned))

/-- The counters that a read finds in the buckets. -/
def loadedAt (moment : Nat → Tally) : List Nat :=
  (List.range bucketBounds.length).map fun index => (moment index).buckets.getD index 0

theorem readAt_counts (moment : Nat → Tally) :
    (readAt moment).buckets.map Bucket.count = cumulative 0 (loadedAt moment) := by
  apply map_count_zipWith
  rw [length_cumulative, List.length_map, List.length_range]

theorem loadedAt_mono {moment other : Nat → Tally} (below : ∀ load, (moment load).Below (other load)) :
    List.Forall₂ (· ≤ ·) (loadedAt moment) (loadedAt other) := by
  rw [loadedAt, loadedAt, List.forall₂_map_left_iff, List.forall₂_map_right_iff]
  exact List.forall₂_same.mpr fun index _ => (below index).buckets index

/-- The tally of some values that have all been observed. -/
def tallyOf (values : List Nat) : Tally := Tally.new.run (values.flatMap observation)

theorem tallyOf_eq (values : List Nat) :
    tallyOf values =
      { count := values.length
        totalMs := values.sum
        maxMs := values.foldl max 0
        buckets := latencyBoundsMs.observed values } := by
  rw [tallyOf, Tally.run_observations]
  simp only [Tally.new, Nat.zero_add]
  rfl

theorem length_observed (values : List Nat) :
    (latencyBoundsMs.observed values).length = bucketBounds.length := by
  have kept (counts : List Nat) : (values.foldl (Histogram.observe latencyBoundsMs.bounds)
      counts).length = counts.length := by
    induction values generalizing counts with
    | nil => rfl
    | cons value values ih => exact (ih _).trans (List.length_modify _ _ _)
  exact kept _

theorem getD_range (counts : List Nat) :
    ((List.range counts.length).map fun index => counts.getD index 0) = counts := by
  apply List.ext_getElem
  · simp
  · intro index _ inside
    simp [List.getD_eq_getElem?_getD, inside]

/-- Read while nothing is observed, the buckets say of each bound how many values are at most it. -/
theorem loadedAt_tallyOf (values : List Nat) :
    cumulative 0 (loadedAt fun _ => tallyOf values) = levels latencyBoundsMs.bounds values := by
  rw [loadedAt, tallyOf_eq, ← length_observed values, getD_range, Ladder.cumulative_observed]

/-- What a scrape reads while requests are observed: of each bound no fewer than had been finished when
it began, and no more than had been started when it ended. -/
theorem scrape_between (updates : List TallyUpdate) {finished started : List Nat} {first last : Nat}
    (before : (finished.flatMap observation).Subperm (updates.take first))
    (after : (updates.take last).Subperm (started.flatMap observation))
    {moments : Nat → Nat} (during : ∀ load, first ≤ moments load ∧ moments load ≤ last) :
    let snapshot := readAt fun load => Tally.new.run (updates.take (moments load))
    finished.length ≤ snapshot.count ∧ snapshot.count ≤ started.length ∧
      List.Forall₂ (· ≤ ·) (levels latencyBoundsMs.bounds finished)
        (snapshot.buckets.map Bucket.count) ∧
      List.Forall₂ (· ≤ ·) (snapshot.buckets.map Bucket.count)
        (levels latencyBoundsMs.bounds started) := by
  have above (load : Nat) : (tallyOf finished).Below
      (Tally.new.run (updates.take (moments load))) := by
    have longer : (updates.take first).Subperm (updates.take (moments load)) :=
      (List.take_sublist_take_left (during load).1).subperm
    exact Tally.below_of_subperm _ (before.trans longer)
  have below (load : Nat) : (Tally.new.run (updates.take (moments load))).Below
      (tallyOf started) := by
    have shorter : (updates.take (moments load)).Subperm (updates.take last) :=
      (List.take_sublist_take_left (during load).2).subperm
    exact Tally.below_of_subperm _ (shorter.trans after)
  intro snapshot
  rw [readAt_counts, ← loadedAt_tallyOf finished, ← loadedAt_tallyOf started]
  refine ⟨?_, ?_, cumulative_mono (loadedAt_mono above) le_rfl,
    cumulative_mono (loadedAt_mono below) le_rfl⟩
  · have counted := (above bucketBounds.length).count
    rw [tallyOf_eq] at counted
    exact counted
  · have counted := (below bucketBounds.length).count
    rw [tallyOf_eq] at counted
    exact counted

/-- One request has been observed, and two others are being. -/
def twoAtOnce : List TallyUpdate :=
  observation 70 ++ [.count, .total 300, .bucket (bucketOf latencyBoundsMs.bounds 300), .count]

/-- When the scrape loads a counter. -/
def scrapeMoment (load : Nat) : Nat := if load < 3 then 4 else 7

theorem scrape_between_two :
    let snapshot := readAt fun load => Tally.new.run (twoAtOnce.take (scrapeMoment load))
    [70].length ≤ snapshot.count ∧ snapshot.count ≤ [70, 300, 9].length ∧
      List.Forall₂ (· ≤ ·) (levels latencyBoundsMs.bounds [70])
        (snapshot.buckets.map Bucket.count) ∧
      List.Forall₂ (· ≤ ·) (snapshot.buckets.map Bucket.count)
        (levels latencyBoundsMs.bounds [70, 300, 9]) := by
  have first : ([70].flatMap observation).Subperm (twoAtOnce.take 4) := by
    decide
  have last : (twoAtOnce.take 7).Subperm ([70, 300, 9].flatMap observation) := by
    decide
  have between (load : Nat) : 4 ≤ scrapeMoment load ∧ scrapeMoment load ≤ 7 := by
    unfold scrapeMoment
    split <;> omega
  exact scrape_between twoAtOnce first last between

/-! ### Quantiles -/

/-- The bounds and the counts go together, so the first count that is enough gives its bound. -/
theorem find_bucket (enough : Nat → Bool) (counted : Nat → Nat) (bounds : List Nat) (total : Nat) :
    ((List.zipWith (fun leMs count => Bucket.mk leMs count) (bounds.map some ++ [none])
        (bounds.map counted ++ [total])).find? fun bucket => enough bucket.count).bind Bucket.leMs =
      bounds.find? fun bound => enough (counted bound) := by
  induction bounds with
  | nil =>
      cases held : enough total with
      | true => simp [held]
      | false => simp [held]
  | cons bound bounds ih =>
      cases held : enough (counted bound) with
      | true => simp [held]
      | false => simpa [held] using ih

theorem quantileMs_tallyOf {values : List Nat} (nonempty : values ≠ []) (target : Nat) :
    (tallyOf values).read.quantileMs target =
      latencyBoundsMs.bounds.find? fun bound => target ≤ values.countP (· ≤ bound) := by
  have counted : (tallyOf values).read.count = values.length := by
    rw [Tally.read, readAt, tallyOf_eq]
  have positive : values.length ≠ 0 := fun none_ => nonempty (List.eq_nil_of_length_eq_zero none_)
  have buckets : (tallyOf values).read.buckets =
      List.zipWith (fun leMs count => Bucket.mk leMs count) bucketBounds
        (levels latencyBoundsMs.bounds values) := by
    rw [← loadedAt_tallyOf values]
    rfl
  rw [TallySnapshot.quantileMs, counted, if_neg positive, buckets]
  exact find_bucket (fun count => target ≤ count) (fun bound => values.countP (· ≤ bound)) _ _

/-- The first of some bounds in order that passes is the least that does. -/
theorem find_sorted {bounds : List Nat} (sorted : bounds.Pairwise (· < ·)) {passes : Nat → Bool}
    {bound : Nat} :
    bounds.find? passes = some bound ↔
      bound ∈ bounds ∧ passes bound = true ∧
        ∀ lower ∈ bounds, lower < bound → passes lower = false := by
  induction bounds with
  | nil => simp
  | cons first bounds ih =>
      rw [List.pairwise_cons] at sorted
      cases here : passes first with
      | true =>
          rw [List.find?_cons_of_pos here, Option.some.injEq]
          constructor
          · intro same
            subst same
            refine ⟨List.mem_cons_self, here, ?_⟩
            intro lower member less
            rcases List.mem_cons.mp member with same | later
            · omega
            · have above := sorted.1 lower later
              omega
          · intro least
            by_contra other
            have later : bound ∈ bounds := (List.mem_cons.mp least.1).resolve_left (Ne.symm other)
            have failed := least.2.2 first List.mem_cons_self (sorted.1 bound later)
            rw [here] at failed
            cases failed
      | false =>
          rw [List.find?_cons_of_neg (by simp [here]), ih sorted.2]
          constructor
          · intro least
            refine ⟨List.mem_cons_of_mem _ least.1, least.2.1, ?_⟩
            intro lower member less
            rcases List.mem_cons.mp member with same | later
            · rw [same]
              exact here
            · exact least.2.2 lower later less
          · intro least
            rcases List.mem_cons.mp least.1 with same | later
            · rw [← same, least.2.1] at here
              cases here
            · exact ⟨later, least.2.1, fun lower member less =>
                least.2.2 lower (List.mem_cons_of_mem _ member) less⟩

/-- Whatever the order in which the steps of the observations fall, a quantile is the least bound
below which as many of the values are; there is none where only the last bucket has as many. -/
theorem quantile_least {values : List Nat} (nonempty : values ≠ []) {updates : List TallyUpdate}
    (interleaved : updates.Perm (values.flatMap observation)) (target bound : Nat) :
    ((Tally.new.run updates).read.quantileMs target = some bound ↔
      bound ∈ latencyBoundsMs.bounds ∧ target ≤ values.countP (· ≤ bound) ∧
        ∀ lower ∈ latencyBoundsMs.bounds, lower < bound → values.countP (· ≤ lower) < target) ∧
      ((Tally.new.run updates).read.quantileMs target = none ↔
        ∀ bound ∈ latencyBoundsMs.bounds, values.countP (· ≤ bound) < target) := by
  have same : Tally.new.run updates = tallyOf values := Tally.run_perm Tally.new interleaved
  rw [same, quantileMs_tallyOf nonempty, find_sorted latencyBoundsMs.sorted, List.find?_eq_none]
  simp

theorem quantile_least_three :
    ((Tally.new.run (observation 60 ++ observation 700 ++ observation 90)).read.quantileMs 2 =
        some 100 ↔
      100 ∈ latencyBoundsMs.bounds ∧ 2 ≤ [700, 90, 60].countP (· ≤ 100) ∧
        ∀ lower ∈ latencyBoundsMs.bounds, lower < 100 → [700, 90, 60].countP (· ≤ lower) < 2) ∧
      ((Tally.new.run (observation 60 ++ observation 700 ++ observation 90)).read.quantileMs 2 = none ↔
        ∀ bound ∈ latencyBoundsMs.bounds, [700, 90, 60].countP (· ≤ bound) < 2) :=
  quantile_least (List.cons_ne_nil _ _) (by decide) 2 100

end Lightweight.Gateway.Latency
