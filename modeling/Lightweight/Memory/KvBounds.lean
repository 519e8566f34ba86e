import Lightweight.Memory.Estimator
import Mathlib.Algebra.Order.BigOperators.Group.List

/-! The key-value cache of an estimate against its size in unbounded numbers, and what follows for the
verdict on smaller windows. -/

namespace Lightweight.Memory

open Lightweight.Core Lightweight.Gguf Lightweight.Word64

/-- A factor behind a product that stopped at the largest number. -/
theorem toNat_saturatingMul_of_min {a b : UInt64} {n : Nat}
    (capped : a.toNat = min n (UInt64.size - 1)) :
    (saturatingMul a b).toNat = min (n * b.toNat) (UInt64.size - 1) := by
  rw [toNat_saturatingMul, capped]
  rcases Nat.le_total n (UInt64.size - 1) with small | large
  · rw [min_eq_left small]
  · rw [min_eq_right large]
    rcases Nat.eq_zero_or_pos b.toNat with zero | positive
    · rw [zero, Nat.mul_zero, Nat.mul_zero]
    · have first := Nat.le_mul_of_pos_right (UInt64.size - 1) positive
      have second := Nat.le_mul_of_pos_right n positive
      omega

/-- One side of one layer: the type it is kept in, and how many elements of it. -/
structure Side where
  kind : GgmlType
  elements : Nat

/-- The bytes of a side, unbounded. -/
def Side.bytes (side : Side) : Nat := (side.kind.footprint side.elements).getD 0

/-- What 64 bits keep of them: the count of the elements stops at the largest number, and the size
wraps. -/
def Side.kept (side : Side) : Nat :=
  (side.kind.footprint (min side.elements (UInt64.size - 1))).getD 0 % UInt64.size

/-- The slots of a load. -/
def slots (params : RuntimeParams) : Nat := (max params.nParallel 1).toNat

def layerSides (metadata : ModelMetadata) (params : RuntimeParams) (headDimK headDimV : UInt64)
    (layer : Nat) : List Side :=
  let kvHeads := (metadata.kvHeadsForLayer layer).getD 0
  [⟨params.cacheTypeK, params.nCtx.toNat * kvHeads.toNat * headDimK.toNat * slots params⟩,
    ⟨params.cacheTypeV, params.nCtx.toNat * kvHeads.toNat * headDimV.toNat * slots params⟩]

/-- The sides of the cache, a K and a V for every layer. -/
def kvSides (metadata : ModelMetadata) (params : RuntimeParams) : List Side :=
  (List.range (metadata.blockCount.getD 0).toNat).flatMap
    (layerSides metadata params (metadata.headDimK.getD 0) (metadata.headDimV.getD 0))

/-- The size of the cache, unbounded. -/
def exactKv (metadata : ModelMetadata) (params : RuntimeParams) : Nat :=
  ((kvSides metadata params).map Side.bytes).sum

section Sides

theorem geometry_divides {kind : GgmlType} (known : kind.isKnown = true) :
    ∃ blockSize typeSize, kind.blockSize = some blockSize ∧ kind.typeSize = some typeSize ∧
      0 < blockSize.toNat ∧ blockSize.toNat ∣ UInt64.size ∧ 0 < typeSize.toNat := by
  cases kind with
  | unknown id => cases known
  | _ => exact ⟨_, _, rfl, rfl, by decide, by decide, by decide⟩

theorem footprint_mono (kind : GgmlType) {few many : Nat} (le : few ≤ many) :
    (kind.footprint few).getD 0 ≤ (kind.footprint many).getD 0 := by
  by_cases known : kind.isKnown = true
  · obtain ⟨blockSize, typeSize, block, type, positive⟩ := GgmlType.geometry_of_known known
    simp only [GgmlType.footprint, block, type, Option.getD_some]
    apply Nat.mul_le_mul_right
    exact (gc_mul_ceilDiv positive).monotone_l le
  · cases kind with
    | unknown id => exact Nat.le_refl 0
    | _ => exact absurd rfl known

theorem Side.kept_le (side : Side) : side.kept ≤ side.bytes :=
  le_trans (Nat.mod_le _ _) (footprint_mono side.kind (min_le_left _ _))

/-- The last of a whole number of blocks is paid for by one element less as well. -/
theorem ceilDiv_pred_of_dvd {n size : Nat} (divides : size ∣ n) (several : 1 < size) :
    (n - 1) ⌈/⌉ size = n ⌈/⌉ size := by
  obtain ⟨blocks, rfl⟩ := divides
  have positive : 0 < size := by omega
  apply Nat.le_antisymm
  · exact (gc_mul_ceilDiv positive).monotone_l (Nat.sub_le _ 1)
  · apply (ceilDiv_le_iff_le_mul positive).mpr
    apply Nat.mul_le_mul_left
    by_contra fewer
    have short := (ceilDiv_le_iff_le_mul positive (b := size * blocks - 1) (c := blocks - 1)).mp
      (by omega)
    have room : size ≤ size * blocks := Nat.le_mul_of_pos_right size (by omega)
    rw [Nat.mul_sub, Nat.mul_one] at short
    omega

/-- Nothing is lost of a side just when its elements and its bytes can be counted. -/
theorem Side.kept_eq_iff {side : Side} (known : side.kind.isKnown = true) :
    side.kept = side.bytes ↔ side.elements ≤ UInt64.size ∧ side.bytes < UInt64.size := by
  obtain ⟨blockSize, typeSize, block, type, real, divides, positive⟩ := geometry_divides known
  have mono := (gc_mul_ceilDiv real).monotone_l
  have wide : 0 < UInt64.size := by decide
  simp only [Side.kept, Side.bytes, GgmlType.footprint, block, type, Option.getD_some]
  constructor
  · intro same
    have counted : side.elements ⌈/⌉ blockSize.toNat * typeSize.toNat < UInt64.size := by
      rw [← same]
      exact Nat.mod_lt _ wide
    refine ⟨?_, counted⟩
    by_contra above
    -- all blocks of 64 bits' worth of elements are not enough for the side
    have more : UInt64.size ⌈/⌉ blockSize.toNat < side.elements ⌈/⌉ blockSize.toNat := by
      obtain ⟨blocks, whole⟩ := divides
      rw [whole, ← smul_eq_mul, smul_ceilDiv real]
      apply lt_of_not_ge
      intro few
      have enough := (ceilDiv_le_iff_le_mul real).mp few
      omega
    have least : min side.elements (UInt64.size - 1) ⌈/⌉ blockSize.toNat ≤
        UInt64.size ⌈/⌉ blockSize.toNat := mono (by omega)
    have lost := Nat.mul_lt_mul_of_pos_right (lt_of_le_of_lt least more) positive
    have cut := Nat.mod_le
      (min side.elements (UInt64.size - 1) ⌈/⌉ blockSize.toNat * typeSize.toNat) UInt64.size
    omega
  · rintro ⟨few, counted⟩
    have same : min side.elements (UInt64.size - 1) ⌈/⌉ blockSize.toNat =
        side.elements ⌈/⌉ blockSize.toNat := by
      rcases Nat.lt_or_ge (UInt64.size - 1) side.elements with more | within
      · have full : side.elements = UInt64.size := by omega
        rw [full] at counted ⊢
        rw [min_eq_right (Nat.sub_le _ 1)]
        apply ceilDiv_pred_of_dvd divides
        by_contra single
        have one : blockSize.toNat = 1 := by omega
        rw [one, ceilDiv_one] at counted
        have least := Nat.le_mul_of_pos_right UInt64.size positive
        omega
      · rw [min_eq_left within]
    rw [same, Nat.mod_eq_of_lt counted]

end Sides

section Loop

variable {metadata : ModelMetadata} {params : RuntimeParams}

theorem toNat_sideElements (params : RuntimeParams) (kvHeads headDim : UInt64) :
    (sideElements params kvHeads headDim).toNat =
      min (params.nCtx.toNat * kvHeads.toNat * headDim.toNat * slots params) (UInt64.size - 1) := by
  have parallel : (max params.nParallel 1).toUInt64.toNat = slots params := rfl
  rw [sideElements, ← parallel]
  apply toNat_saturatingMul_of_min
  apply toNat_saturatingMul_of_min
  exact toNat_saturatingMul _ _

/-- What a side adds is what is kept of it. -/
theorem toNat_sized {kind : GgmlType} {elements bytes : UInt64} {count : Nat}
    (computed : sized kind elements = .ok bytes)
    (capped : elements.toNat = min count (UInt64.size - 1)) :
    bytes.toNat = (Side.mk kind count).kept := by
  have same := GgmlType.bytesForElements_toNat kind elements
  unfold sized at computed
  split at computed
  · rename_i found told
    cases computed
    rw [told, Option.map_some, capped] at same
    obtain ⟨size, exactly, cut⟩ := Option.map_eq_some_iff.mp same.symm
    rw [Side.kept, exactly, Option.getD_some, cut]
  · cases computed

theorem toNat_saturatingAdd_of_min {a b : UInt64} {n : Nat}
    (capped : a.toNat = min n (UInt64.size - 1)) :
    (saturatingAdd a b).toNat = min (n + b.toNat) (UInt64.size - 1) := by
  rw [toNat_saturatingAdd, capped]
  omega

theorem Side.kept_empty (kind : GgmlType) : (Side.mk kind 0).kept = 0 := by
  have le := (Side.mk kind 0).kept_le
  have none_there : (Side.mk kind 0).bytes = 0 := by
    unfold Side.bytes GgmlType.footprint
    split
    · rw [Option.getD_some, zero_ceilDiv, Nat.zero_mul]
    · rfl
  omega

/-- One layer adds what is kept of its two sides. -/
theorem toNat_kvLayer {headDimK headDimV : UInt64} {bpeK bpeV : Rat} {running next : KvRunning}
    {layer total : Nat} (counted : running.bytes.toNat = min total (UInt64.size - 1))
    (computed : kvLayer metadata params headDimK headDimV bpeK bpeV running layer = .ok next) :
    next.bytes.toNat =
      min (total + ((layerSides metadata params headDimK headDimV layer).map Side.kept).sum)
        (UInt64.size - 1) := by
  unfold kvLayer at computed
  unfold layerSides
  split at computed
  · cases computed
  · rename_i kvHeads told
    rw [told, Option.getD_some]
    split at computed
    · rename_i none_there
      cases computed
      rw [none_there, counted]
      simp only [UInt64.toNat_zero, Nat.mul_zero, Nat.zero_mul, List.map_cons, List.map_nil,
        Side.kept_empty, List.sum_cons, List.sum_nil, Nat.add_zero]
    · cases k_sized : sized params.cacheTypeK (sideElements params kvHeads headDimK) with
      | error reason =>
          rw [k_sized] at computed
          cases computed
      | ok k =>
          cases v_sized : sized params.cacheTypeV (sideElements params kvHeads headDimV) with
          | error reason =>
              rw [k_sized, v_sized] at computed
              cases computed
          | ok v =>
              rw [k_sized, v_sized] at computed
              cases computed
              have k_kept := toNat_sized k_sized (toNat_sideElements params kvHeads headDimK)
              have v_kept := toNat_sized v_sized (toNat_sideElements params kvHeads headDimV)
              rw [toNat_saturatingAdd_of_min (toNat_saturatingAdd_of_min counted), k_kept, v_kept]
              simp only [List.map_cons, List.map_nil, List.sum_cons, List.sum_nil, Nat.add_zero,
                Nat.add_assoc]

/-- All layers add what is kept of all their sides. -/
theorem toNat_foldlM_kvLayer {headDimK headDimV : UInt64} {bpeK bpeV : Rat} {layers : List Nat}
    {running final : KvRunning} {total : Nat}
    (counted : running.bytes.toNat = min total (UInt64.size - 1))
    (computed : layers.foldlM (kvLayer metadata params headDimK headDimV bpeK bpeV) running =
      .ok final) :
    final.bytes.toNat =
      min (total + ((layers.flatMap (layerSides metadata params headDimK headDimV)).map
        Side.kept).sum) (UInt64.size - 1) := by
  induction layers generalizing running total with
  | nil =>
      cases computed
      simp only [List.flatMap_nil, List.map_nil, List.sum_nil, Nat.add_zero]
      exact counted
  | cons layer layers ih =>
      rw [List.foldlM_cons] at computed
      cases turn : kvLayer metadata params headDimK headDimV bpeK bpeV running layer with
      | error reason =>
          rw [turn] at computed
          cases computed
      | ok next =>
          rw [turn] at computed
          rw [ih (toNat_kvLayer counted turn) computed, List.flatMap_cons, List.map_append,
            List.sum_append, Nat.add_assoc]

theorem bytesPerElement_known {kind : GgmlType} {average : Rat}
    (told : bytesPerElement kind = .ok average) : kind.isKnown = true := by
  cases kind with
  | unknown id => cases told
  | _ => rfl

theorem accumulate_ok {layers : Nat} {headDimK headDimV : UInt64} {cache : KvCache}
    (computed : accumulate metadata params layers headDimK headDimV = .ok cache) :
    params.cacheTypeK.isKnown = true ∧ params.cacheTypeV.isKnown = true ∧
      cache.bytes.toNat = min (((List.range layers).flatMap
        (layerSides metadata params headDimK headDimV)).map Side.kept).sum (UInt64.size - 1) := by
  unfold accumulate at computed
  cases k_told : bytesPerElement params.cacheTypeK with
  | error reason =>
      rw [k_told] at computed
      cases computed
  | ok bpeK =>
      cases v_told : bytesPerElement params.cacheTypeV with
      | error reason =>
          rw [k_told, v_told] at computed
          cases computed
      | ok bpeV =>
          rw [k_told, v_told] at computed
          dsimp only [bind, Except.bind] at computed
          split at computed
          · cases computed
          · rename_i running summed
            cases computed
            have start : (KvRunning.mk 0 0).bytes.toNat = min 0 (UInt64.size - 1) := rfl
            have total := toNat_foldlM_kvLayer start summed
            rw [Nat.zero_add] at total
            exact ⟨bytesPerElement_known k_told, bytesPerElement_known v_told, total⟩

/-- Either something is missing and the cache counts as nothing, or both its types are known and it
is what is kept of its sides. -/
theorem kvCacheBytes_cases (metadata : ModelMetadata) (params : RuntimeParams) :
    (kvCacheBytes metadata params).2 ≠ [] ∧ (kvCacheBytes metadata params).1.bytes = 0 ∨
      params.cacheTypeK.isKnown = true ∧ params.cacheTypeV.isKnown = true ∧
        (kvCacheBytes metadata params).1.bytes.toNat =
          min ((kvSides metadata params).map Side.kept).sum (UInt64.size - 1) := by
  unfold kvCacheBytes kvSides
  split
  · exact Or.inl ⟨List.cons_ne_nil _ _, rfl⟩
  · rename_i layers layers_told
    split
    · rename_i headDimK headDimV k_told v_told
      split
      · exact Or.inl ⟨List.cons_ne_nil _ _, rfl⟩
      · split
        · rename_i cache computed
          rw [layers_told, k_told, v_told]
          exact Or.inr (accumulate_ok computed)
        · exact Or.inl ⟨List.cons_ne_nil _ _, rfl⟩
    · exact Or.inl ⟨List.cons_ne_nil _ _, rfl⟩

end Loop

section Estimates

variable {estimator : Estimator} {metadata : ModelMetadata} {params : RuntimeParams} {budget : Budget}

theorem kv_complete (complete : (estimator.estimateAgainst metadata params budget).missing = []) :
    params.cacheTypeK.isKnown = true ∧ params.cacheTypeV.isKnown = true ∧
      (estimator.estimateAgainst metadata params budget).kvCache.toNat =
        min ((kvSides metadata params).map Side.kept).sum (UInt64.size - 1) := by
  rcases kvCacheBytes_cases metadata params with ⟨missing, _⟩ | told
  · have parts := (List.append_eq_nil_iff.mp complete).1
    exact absurd (List.append_eq_nil_iff.mp parts).2 missing
  · exact told

theorem sides_known (metadata : ModelMetadata) (known_k : params.cacheTypeK.isKnown = true)
    (known_v : params.cacheTypeV.isKnown = true) :
    ∀ side ∈ kvSides metadata params, side.kind.isKnown = true := by
  intro side member
  obtain ⟨layer, -, listed⟩ := List.mem_flatMap.mp member
  simp only [layerSides, List.mem_cons, List.not_mem_nil, or_false] at listed
  rcases listed with rfl | rfl
  · exact known_k
  · exact known_v

/-- No side of the cache is too large to be counted. -/
def SidesCounted (metadata : ModelMetadata) (params : RuntimeParams) : Prop :=
  ∀ side ∈ kvSides metadata params, side.elements ≤ UInt64.size ∧ side.bytes < UInt64.size

/-- The sum of what is kept is the sum of the sides, or below it where one cannot be counted. -/
theorem sum_kept (known : ∀ side ∈ kvSides metadata params, side.kind.isKnown = true) :
    SidesCounted metadata params ∧
        ((kvSides metadata params).map Side.kept).sum = exactKv metadata params ∨
      ¬SidesCounted metadata params ∧
        ((kvSides metadata params).map Side.kept).sum < exactKv metadata params := by
  by_cases counted : SidesCounted metadata params
  · refine Or.inl ⟨counted, ?_⟩
    apply congrArg List.sum
    apply List.map_congr_left
    intro side member
    exact (Side.kept_eq_iff (known side member)).mpr (counted side member)
  · refine Or.inr ⟨counted, ?_⟩
    apply List.sum_lt_sum
    · exact fun side _ => side.kept_le
    · simp only [SidesCounted, not_forall] at counted
      obtain ⟨side, member, lost⟩ := counted
      refine ⟨side, member, lt_of_le_of_ne side.kept_le ?_⟩
      intro same
      exact lost ((Side.kept_eq_iff (known side member)).mp same)

theorem sum_flatMap_le {f g : Nat → List Side} {weigh other : Side → Nat} (layers : List Nat)
    (le : ∀ layer, ((f layer).map weigh).sum ≤ ((g layer).map other).sum) :
    ((layers.flatMap f).map weigh).sum ≤ ((layers.flatMap g).map other).sum := by
  induction layers with
  | nil => exact Nat.le_refl 0
  | cons layer layers ih =>
      rw [List.flatMap_cons, List.flatMap_cons, List.map_append, List.map_append, List.sum_append,
        List.sum_append]
      exact Nat.add_le_add (le layer) ih

/-- A smaller window over fewer slots keeps no more than the larger one takes. -/
theorem sum_kept_le_exact {nCtx nParallel : UInt32} (window : nCtx ≤ params.nCtx)
    (fewer : nParallel ≤ params.nParallel) :
    ((kvSides metadata { params with nCtx, nParallel }).map Side.kept).sum ≤
      exactKv metadata params := by
  have slots_le : slots { params with nCtx, nParallel } ≤ slots params := by
    unfold slots
    rw [UInt32.toNat_max, UInt32.toNat_max]
    exact max_le_max_right _ (UInt32.le_iff_toNat_le.mp fewer)
  apply sum_flatMap_le
  intro layer
  have element_le : ∀ heads dim : Nat,
      nCtx.toNat * heads * dim * slots { params with nCtx, nParallel } ≤
        params.nCtx.toNat * heads * dim * slots params := by
    intro heads dim
    apply Nat.mul_le_mul _ slots_le
    apply Nat.mul_le_mul_right
    apply Nat.mul_le_mul_right
    exact UInt32.le_iff_toNat_le.mp window
  simp only [layerSides, List.map_cons, List.map_nil, List.sum_cons, List.sum_nil, Nat.add_zero]
  apply Nat.add_le_add
  · exact le_trans (Side.kept_le _) (footprint_mono _ (element_le _ _))
  · exact le_trans (Side.kept_le _) (footprint_mono _ (element_le _ _))

theorem safe_iff :
    (estimator.estimateAgainst metadata params budget).verdict = .safe ↔
      saturatingAdd (estimator.estimateAgainst metadata params budget).total
        (marginFor budget.spendable) ≤ budget.spendable := by
  unfold Estimator.estimateAgainst
  dsimp only
  split
  · rename_i fits
    exact ⟨fun _ => fits, fun _ => rfl⟩
  · rename_i short
    constructor
    · intro safe
      split at safe <;> cases safe
    · exact fun fits => absurd fits short

/-- What a load takes beside the cache. -/
def besideCache (estimator : Estimator) (metadata : ModelMetadata) (params : RuntimeParams) : Nat :=
  (metadata.weightBytes.getD 0).toNat + (estimator.computeBytes metadata params).1.toNat +
    (saturatingAdd estimator.computeModel.engineBaseline
      estimator.computeModel.hostOverhead).toNat

theorem toNat_total :
    (estimator.estimateAgainst metadata params budget).total.toNat =
      min (besideCache estimator metadata params + (kvCacheBytes metadata params).1.bytes.toNat)
        (UInt64.size - 1) := by
  unfold Estimator.estimateAgainst besideCache
  dsimp only
  rw [toNat_saturatingAdd, toNat_saturatingAdd, toNat_saturatingAdd]
  omega

/-- In unbounded numbers, a load is safe when what it takes and the margin are in the budget, or the
budget is more than any load can be seen to take. -/
theorem safe_iff_exact :
    (estimator.estimateAgainst metadata params budget).verdict = .safe ↔
      budget.spendable.toNat = UInt64.size - 1 ∨
        besideCache estimator metadata params + (kvCacheBytes metadata params).1.bytes.toNat +
          (marginFor budget.spendable).toNat ≤ budget.spendable.toNat := by
  rw [safe_iff, UInt64.le_iff_toNat_le, toNat_saturatingAdd, toNat_total]
  have most := budget.spendable.toNat_lt
  have wide : UInt64.size = 2 ^ 64 := rfl
  omega

/-- The cache of an estimate is at least its exact size, as far as 64 bits go. -/
def NotUnderstated (estimator : Estimator) (metadata : ModelMetadata) (params : RuntimeParams)
    (budget : Budget) : Prop :=
  min (exactKv metadata params) (UInt64.size - 1) ≤
    (estimator.estimateAgainst metadata params budget).kvCache.toNat

/-- A load that is safe is safe with any smaller window and any fewer slots. -/
def SafeBelow (estimator : Estimator) (metadata : ModelMetadata) (params : RuntimeParams)
    (budget : Budget) : Prop :=
  (estimator.estimateAgainst metadata params budget).verdict = .safe →
    ∀ nCtx ≤ params.nCtx, ∀ nParallel ≤ params.nParallel,
      (estimator.estimateAgainst metadata { params with nCtx, nParallel } budget).verdict = .safe

/-- Where the sides cannot be counted, what is kept of them still fills 64 bits. -/
def KeptFills (metadata : ModelMetadata) (params : RuntimeParams) : Prop :=
  UInt64.size - 1 ≤ ((kvSides metadata params).map Side.kept).sum

theorem notUnderstated_iff
    (complete : (estimator.estimateAgainst metadata params budget).missing = []) :
    NotUnderstated estimator metadata params budget ↔
      SidesCounted metadata params ∨ KeptFills metadata params := by
  rcases kv_complete complete with ⟨known_k, known_v, kept⟩
  unfold NotUnderstated KeptFills
  rw [kept]
  rcases sum_kept (sides_known metadata known_k known_v) with
    ⟨counted, same⟩ | ⟨lost, below⟩
  · rw [same]
    exact ⟨fun _ => Or.inl counted, fun _ => Nat.le_refl _⟩
  · constructor
    · intro least
      exact Or.inr (by omega)
    · rintro (counted | fills)
      · exact absurd counted lost
      · omega

theorem kvCache_le (metadata : ModelMetadata) (params : RuntimeParams) :
    (kvCacheBytes metadata params).1.bytes.toNat ≤
      min ((kvSides metadata params).map Side.kept).sum (UInt64.size - 1) := by
  rcases kvCacheBytes_cases metadata params with ⟨-, nothing⟩ | ⟨-, -, told⟩
  · rw [nothing]
    exact Nat.zero_le _
  · exact told.le

theorem safeBelow_of_notUnderstated (least : NotUnderstated estimator metadata params budget) :
    SafeBelow estimator metadata params budget := by
  intro safe nCtx window nParallel fewer
  rw [safe_iff, UInt64.le_iff_toNat_le, toNat_saturatingAdd, toNat_total] at safe ⊢
  have same : besideCache estimator metadata { params with nCtx, nParallel } =
      besideCache estimator metadata params := rfl
  have smaller := le_trans (kvCache_le metadata { params with nCtx, nParallel })
    (min_le_min_right (UInt64.size - 1) (sum_kept_le_exact window fewer))
  have larger : min (exactKv metadata params) (UInt64.size - 1) ≤
      (kvCacheBytes metadata params).1.bytes.toNat := least
  rw [same]
  omega

end Estimates

/-- With nothing missing, the cache is not understated and a safe load stays safe when it is made
smaller, just when no side of the cache is too large to be counted, or what is kept of the sides
fills 64 bits all the same. -/
theorem estimate_never_understates_iff (estimator : Estimator) (metadata : ModelMetadata)
    (params : RuntimeParams) (budget : Budget)
    (complete : (estimator.estimateAgainst metadata params budget).missing = []) :
    NotUnderstated estimator metadata params budget ∧ SafeBelow estimator metadata params budget ↔
      SidesCounted metadata params ∨ KeptFills metadata params := by
  constructor
  · rintro ⟨least, -⟩
    exact (notUnderstated_iff complete).mp least
  · intro counted
    have least := (notUnderstated_iff complete).mpr counted
    exact ⟨least, safeBelow_of_notUnderstated least⟩

/-- A model of one layer. -/
def oneLayer (kvHeads headDim : UInt64) : ModelMetadata where
  architecture := "llama"
  supported := true
  contextLength := some 8192
  blockCount := some 1
  embeddingLength := some 1024
  feedForwardLength := some 4096
  headCount := some 16
  headCountKv := some [kvHeads]
  keyLength := some headDim
  valueLength := some headDim
  vocabSize := some 32000
  quantizationLabel := "Q4_K_M"
  weightBytes := some 0x10000000

/-- A machine with eight gibibytes free. -/
def eightFree : Budget := ⟨⟨0x400000000, 0x200000000, 0x200000000, 0, 0⟩, 0⟩

-- evaluated by the elaborator below
unseal Rat.add Rat.sub Rat.mul Rat.inv

theorem estimate_of_ordinary_model :
    (Estimator.headless.estimateAgainst (oneLayer 8 64) .default eightFree).missing = [] ∧
      NotUnderstated .headless (oneLayer 8 64) .default eightFree ∧
      SafeBelow .headless (oneLayer 8 64) .default eightFree := by
  have complete : (Estimator.headless.estimateAgainst (oneLayer 8 64) .default eightFree).missing =
      [] := by
    decide
  have counted : SidesCounted (oneLayer 8 64) .default := by
    intro side member
    have sides : kvSides (oneLayer 8 64) .default = [⟨.f16, 2097152⟩, ⟨.f16, 2097152⟩] := rfl
    rw [sides] at member
    simp only [List.mem_cons, List.not_mem_nil, or_false, or_self] at member
    rw [member]
    decide
  exact ⟨complete, (estimate_never_understates_iff _ _ _ _ complete).mpr (Or.inl counted)⟩

/-- 2 ^ 40 heads of 1024 over 8192 tokens are 2 ^ 63 elements of two bytes on each side: the cache
counts as nothing and the load is safe, while half the window fills 64 bits and is refused. -/
theorem huge_cache_counts_as_nothing :
    (Estimator.headless.estimateAgainst (oneLayer 0x10000000000 1024)
        (RuntimeParams.default.withContext 8192) eightFree).missing = [] ∧
      ¬NotUnderstated .headless (oneLayer 0x10000000000 1024)
        (RuntimeParams.default.withContext 8192) eightFree ∧
      ¬SafeBelow .headless (oneLayer 0x10000000000 1024)
        (RuntimeParams.default.withContext 8192) eightFree := by
  refine ⟨by decide, ?_, ?_⟩
  · unfold NotUnderstated
    decide
  · intro below
    have smaller := below (by decide) 4096 (by decide) 1 (by decide)
    revert smaller
    decide

end Lightweight.Memory
