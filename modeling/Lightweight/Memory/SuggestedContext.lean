import Lightweight.Memory.Remedies
import Mathlib.Algebra.BigOperators.Ring.Finset

/-! The context that an estimate suggests against the verdict on it: the suggestion is solved from a
linear price for each token, the verdict is on sizes in whole blocks. -/

namespace Lightweight.Memory

open Lightweight.Core Lightweight.Gguf Lightweight.Word64

/-! ### Elements and blocks -/

/-- The exact bytes of an element. -/
def average (kind : GgmlType) : Rat :=
  ((kind.typeSize.getD 0).toNat : Rat) / (kind.blockSize.getD 1).toNat

/-- The places that the last block of so many elements leaves over. -/
def leftOver (kind : GgmlType) (elements : Nat) : Int :=
  (-(elements : Int)) % (kind.blockSize.getD 1).toNat

/-- The places left over in the blocks of a side that are counted, less the elements that are not. -/
def Side.unfilled (side : Side) : Int :=
  let counted := min side.elements (UInt64.size - 1)
  leftOver side.kind counted - (side.elements - counted : Nat)

-- evaluated by the elaborator below
unseal Rat.add Rat.sub Rat.mul Rat.inv

section Blocks

variable {kind : GgmlType}

theorem bytesPerElement_eq_average {bytes : Rat} (told : bytesPerElement kind = .ok bytes) :
    bytes = average kind := by
  cases kind with
  | unknown id => cases told
  | _ =>
      cases told
      decide

theorem average_bounds (known : kind.isKnown = true) :
    1 / 256 ≤ average kind ∧ ((kind.blockSize.getD 1).toNat : Rat) * average kind ≤ 512 := by
  cases kind with
  | unknown id => cases known
  | _ => decide

theorem average_nonneg (kind : GgmlType) : 0 ≤ average kind :=
  div_nonneg (Nat.cast_nonneg _) (Nat.cast_nonneg _)

/-- Whole blocks are the elements and the places left over. -/
theorem footprint_eq (known : kind.isKnown = true) (elements : Nat) :
    (((kind.footprint elements).getD 0 : Nat) : Rat) =
      (elements + leftOver kind elements) * average kind := by
  obtain ⟨blockSize, typeSize, block, type, positive⟩ := GgmlType.geometry_of_known known
  have wide : (blockSize.toNat : Int) ≠ 0 := by omega
  have whole : ((elements ⌈/⌉ blockSize.toNat : Nat) : Int) * blockSize.toNat =
      elements + (-(elements : Int)) % blockSize.toNat := by
    have least : elements ≤ elements ⌈/⌉ blockSize.toNat * blockSize.toNat := by
      rw [Nat.mul_comm]
      exact le_smul_ceilDiv positive
    have most : elements ⌈/⌉ blockSize.toNat * blockSize.toNat ≤ elements + blockSize.toNat - 1 := by
      rw [Nat.ceilDiv_eq_add_pred_div]
      exact Nat.div_mul_le_self _ _
    have split : -(elements : Int) =
        ((elements ⌈/⌉ blockSize.toNat * blockSize.toNat : Nat) : Int) - elements +
          blockSize.toNat * -((elements ⌈/⌉ blockSize.toNat : Nat) : Int) := by
      push_cast
      ring
    rw [split, Int.add_mul_emod_self_left, Int.emod_eq_of_lt (by omega) (by omega)]
    push_cast
    ring
  have real : (blockSize.toNat : Rat) ≠ 0 := by exact_mod_cast wide
  have whole : ((elements ⌈/⌉ blockSize.toNat : Nat) : Rat) * blockSize.toNat =
      elements + ((-(elements : Int)) % blockSize.toNat : Int) := by
    exact_mod_cast whole
  simp only [GgmlType.footprint, average, leftOver, block, type, Option.getD_some, Nat.cast_mul]
  rw [← whole]
  field_simp

theorem leftOver_le (known : kind.isKnown = true) (elements : Nat) :
    (leftOver kind elements : Rat) * average kind ≤ 512 := by
  obtain ⟨blockSize, typeSize, block, type, positive⟩ := GgmlType.geometry_of_known known
  have wide : (0 : Int) < blockSize.toNat := by omega
  have below : leftOver kind elements ≤ (kind.blockSize.getD 1).toNat := by
    rw [leftOver, block, Option.getD_some]
    exact (Int.emod_lt_of_pos _ wide).le
  have below : (leftOver kind elements : Rat) ≤ (kind.blockSize.getD 1).toNat := by
    exact_mod_cast below
  calc
    (leftOver kind elements : Rat) * average kind ≤ (kind.blockSize.getD 1).toNat * average kind :=
      mul_le_mul_of_nonneg_right below (average_nonneg kind)
    _ ≤ 512 := (average_bounds known).2

end Blocks

/-! ### The price of a token -/

/-- What one more token of the window adds in a layer. -/
def layerPrice (metadata : ModelMetadata) (params : RuntimeParams) (headDimK headDimV : UInt64)
    (layer : Nat) : Rat :=
  let heads := saturatingMul ((metadata.kvHeadsForLayer layer).getD 0) (max params.nParallel 1).toUInt64
  heads.toNat * (headDimK.toNat * average params.cacheTypeK + headDimV.toNat * average params.cacheTypeV)

/-- What one more token of the window adds, exactly. -/
def tokenPrice (metadata : ModelMetadata) (params : RuntimeParams) : Rat :=
  ((List.range (metadata.blockCount.getD 0).toNat).map
    (layerPrice metadata params (metadata.headDimK.getD 0) (metadata.headDimV.getD 0))).sum

section Price

variable {metadata : ModelMetadata} {params : RuntimeParams} {headDimK headDimV : UInt64}
  {running next : KvRunning} {layer : Nat}

theorem layerPrice_nonneg (metadata : ModelMetadata) (params : RuntimeParams)
    (headDimK headDimV : UInt64) (layer : Nat) :
    0 ≤ layerPrice metadata params headDimK headDimV layer := by
  have k := average_nonneg params.cacheTypeK
  have v := average_nonneg params.cacheTypeV
  unfold layerPrice
  positivity

theorem sized_of_known {kind : GgmlType} (known : kind.isKnown = true) (elements : UInt64) :
    ∃ bytes, sized kind elements = .ok bytes := by
  cases kind with
  | unknown id => cases known
  | _ => exact ⟨_, rfl⟩

theorem kvLayer_priced
    (computed : kvLayer metadata params headDimK headDimV (average params.cacheTypeK)
      (average params.cacheTypeV) running layer = .ok next) :
    metadata.kvHeadsForLayer layer ≠ none ∧
      next.perToken = running.perToken + layerPrice metadata params headDimK headDimV layer := by
  unfold kvLayer at computed
  unfold layerPrice
  cases told : metadata.kvHeadsForLayer layer with
  | none =>
      rw [told] at computed
      cases computed
  | some kvHeads =>
      rw [told] at computed
      refine ⟨Option.some_ne_none _, ?_⟩
      dsimp only [Option.getD_some] at computed ⊢
      split at computed
      · rename_i none_there
        cases computed
        have nothing : (saturatingMul 0 (max params.nParallel 1).toUInt64).toNat = 0 := by
          rw [toNat_saturatingMul, UInt64.toNat_zero, Nat.zero_mul, Nat.zero_min]
        rw [none_there, nothing, Nat.cast_zero, zero_mul, add_zero]
      · cases k_sized : sized params.cacheTypeK (sideElements params kvHeads headDimK) with
        | error reason =>
            rw [k_sized] at computed
            cases computed
        | ok k =>
            cases v_sized : sized params.cacheTypeV (sideElements params kvHeads headDimV) with
            | error reason =>
                rw [k_sized, v_sized] at computed
                cases computed
            | ok v =>
                rw [k_sized, v_sized] at computed
                cases computed
                rfl

/-- A layer can be counted when its heads are told and the types are known. -/
theorem kvLayer_succeeds {bpeK bpeV : Rat} (known_k : params.cacheTypeK.isKnown = true)
    (known_v : params.cacheTypeV.isKnown = true) (told : metadata.kvHeadsForLayer layer ≠ none) :
    ∃ next, kvLayer metadata params headDimK headDimV bpeK bpeV running layer = .ok next := by
  obtain ⟨kvHeads, told⟩ := Option.ne_none_iff_exists'.mp told
  obtain ⟨k, k_sized⟩ := sized_of_known known_k (sideElements params kvHeads headDimK)
  obtain ⟨v, v_sized⟩ := sized_of_known known_v (sideElements params kvHeads headDimV)
  unfold kvLayer
  rw [told]
  dsimp only
  split
  · exact ⟨_, rfl⟩
  · rw [k_sized, v_sized]
    exact ⟨_, rfl⟩

theorem foldlM_kvLayer_priced {layers : List Nat}
    (computed : layers.foldlM (kvLayer metadata params headDimK headDimV (average params.cacheTypeK)
      (average params.cacheTypeV)) running = .ok next) :
    (∀ layer ∈ layers, metadata.kvHeadsForLayer layer ≠ none) ∧
      next.perToken = running.perToken +
        (layers.map (layerPrice metadata params headDimK headDimV)).sum := by
  induction layers generalizing running with
  | nil =>
      cases computed
      simp
  | cons layer layers ih =>
      rw [List.foldlM_cons] at computed
      cases turn : kvLayer metadata params headDimK headDimV (average params.cacheTypeK)
          (average params.cacheTypeV) running layer with
      | error reason =>
          rw [turn] at computed
          cases computed
      | ok middle =>
          rw [turn] at computed
          have here := kvLayer_priced turn
          have behind := ih computed
          rw [List.forall_mem_cons, List.map_cons, List.sum_cons, ← add_assoc, ← here.2]
          exact ⟨⟨here.1, behind.1⟩, behind.2⟩

theorem foldlM_kvLayer_succeeds {bpeK bpeV : Rat} {layers : List Nat}
    (known_k : params.cacheTypeK.isKnown = true) (known_v : params.cacheTypeV.isKnown = true)
    (told : ∀ layer ∈ layers, metadata.kvHeadsForLayer layer ≠ none) :
    ∃ final, layers.foldlM (kvLayer metadata params headDimK headDimV bpeK bpeV) running =
      .ok final := by
  induction layers generalizing running with
  | nil => exact ⟨running, rfl⟩
  | cons layer layers ih =>
      rw [List.forall_mem_cons] at told
      obtain ⟨middle, turn⟩ : ∃ middle,
          kvLayer metadata params headDimK headDimV bpeK bpeV running layer = .ok middle :=
        kvLayer_succeeds known_k known_v told.1
      rw [List.foldlM_cons, turn]
      exact ih told.2

theorem accumulate_priced {layers : Nat} {cache : KvCache}
    (computed : accumulate metadata params layers headDimK headDimV = .ok cache) :
    params.cacheTypeK.isKnown = true ∧ params.cacheTypeV.isKnown = true ∧
      cache.bytesPerToken.toNat = min (((List.range layers).map
        (layerPrice metadata params headDimK headDimV)).sum.ceil.toNat) (UInt64.size - 1) ∧
      ∀ c, ∃ other, accumulate metadata (params.withContext c) layers headDimK headDimV = .ok other := by
  unfold accumulate at computed
  cases k_told : bytesPerElement params.cacheTypeK with
  | error reason =>
      rw [k_told] at computed
      cases computed
  | ok bpeK =>
      cases v_told : bytesPerElement params.cacheTypeV with
      | error reason =>
          rw [k_told, v_told] at computed
          cases computed
      | ok bpeV =>
          have known_k := bytesPerElement_known k_told
          have known_v := bytesPerElement_known v_told
          rw [k_told, v_told] at computed
          dsimp only [bind, Except.bind] at computed
          split at computed
          · cases computed
          · rename_i running summed
            cases computed
            rw [bytesPerElement_eq_average k_told, bytesPerElement_eq_average v_told] at summed
            obtain ⟨told, price⟩ := foldlM_kvLayer_priced summed
            rw [zero_add] at price
            refine ⟨known_k, known_v, ?_, ?_⟩
            · rw [← price]
              exact toNat_ofNatClamp _
            · intro c
              obtain ⟨final, counted⟩ : ∃ final, (List.range layers).foldlM
                  (kvLayer metadata (params.withContext c) headDimK headDimV bpeK bpeV) ⟨0, 0⟩ =
                    .ok final :=
                foldlM_kvLayer_succeeds known_k known_v told
              refine ⟨⟨final.bytes, UInt64.ofNatClamp final.perToken.ceil.toNat⟩, ?_⟩
              have same_k : bytesPerElement (params.withContext c).cacheTypeK = .ok bpeK := k_told
              have same_v : bytesPerElement (params.withContext c).cacheTypeV = .ok bpeV := v_told
              unfold accumulate
              rw [same_k, same_v]
              dsimp only [bind, Except.bind]
              rw [counted]
              rfl

/-- A cache with a price has it from the layers, and can be counted for every window. -/
theorem kvCacheBytes_priced (priced : (kvCacheBytes metadata params).1.bytesPerToken ≠ 0) :
    params.cacheTypeK.isKnown = true ∧ params.cacheTypeV.isKnown = true ∧
      (kvCacheBytes metadata params).1.bytesPerToken.toNat =
        min (tokenPrice metadata params).ceil.toNat (UInt64.size - 1) ∧
      ∀ c, (kvCacheBytes metadata (params.withContext c)).2 = [] := by
  unfold kvCacheBytes tokenPrice at *
  cases layers_told : metadata.blockCount with
  | none =>
      rw [layers_told] at priced
      exact absurd rfl priced
  | some layers =>
      cases k_told : metadata.headDimK with
      | none =>
          rw [layers_told, k_told] at priced
          exact absurd rfl priced
      | some headDimK =>
          cases v_told : metadata.headDimV with
          | none =>
              rw [layers_told, k_told, v_told] at priced
              exact absurd rfl priced
          | some headDimV =>
              rw [layers_told, k_told, v_told] at priced
              dsimp only [Option.getD_some] at priced ⊢
              by_cases counts : metadata.headCountKv = none
              · rw [if_pos counts] at priced
                exact absurd rfl priced
              · rw [if_neg counts] at priced ⊢
                cases computed : accumulate metadata params layers.toNat headDimK headDimV with
                | error reason =>
                    rw [computed] at priced
                    exact absurd rfl priced
                | ok cache =>
                    obtain ⟨known_k, known_v, price, windows⟩ := accumulate_priced computed
                    refine ⟨known_k, known_v, price, ?_⟩
                    intro c
                    obtain ⟨other, counted⟩ := windows c
                    rw [if_neg counts, counted]

end Price

/-! ### The sides of the cache at a window -/

/-- The exact bytes of a side's elements. -/
def Side.share (side : Side) : Rat := side.elements * average side.kind

/-- The bytes of the places left over in the last blocks. -/
def Side.padding (side : Side) : Rat := side.unfilled * average side.kind

section Window

variable {metadata : ModelMetadata} {params : RuntimeParams} {c : UInt32}

theorem Side.share_nonneg (side : Side) : 0 ≤ side.share :=
  mul_nonneg (Nat.cast_nonneg _) (average_nonneg _)

theorem Side.kept_eq_share_add {side : Side} (known : side.kind.isKnown = true)
    (small : side.share + 512 < UInt64.size) : (side.kept : Rat) = side.share + side.padding := by
  have le : min side.elements (UInt64.size - 1) ≤ side.elements := Nat.min_le_left _ _
  have counted := footprint_eq known (min side.elements (UInt64.size - 1))
  have more := leftOver_le known (min side.elements (UInt64.size - 1))
  have fits : (side.kind.footprint (min side.elements (UInt64.size - 1))).getD 0 < UInt64.size := by
    have below : (((side.kind.footprint (min side.elements (UInt64.size - 1))).getD 0 : Nat) : Rat) <
        UInt64.size := by
      calc
        (((side.kind.footprint (min side.elements (UInt64.size - 1))).getD 0 : Nat) : Rat) =
            (min side.elements (UInt64.size - 1) : Nat) * average side.kind +
              leftOver side.kind (min side.elements (UInt64.size - 1)) * average side.kind := by
          rw [counted, add_mul]
        _ ≤ side.elements * average side.kind + 512 := by
          apply add_le_add _ more
          apply mul_le_mul_of_nonneg_right _ (average_nonneg _)
          exact_mod_cast le
        _ < UInt64.size := small
    exact_mod_cast below
  have places : (side.unfilled : Rat) = leftOver side.kind (min side.elements (UInt64.size - 1)) -
      (side.elements - (min side.elements (UInt64.size - 1) : Nat)) := by
    rw [Side.unfilled, Int.cast_sub, Int.cast_natCast, Nat.cast_sub le]
  rw [Side.kept, Nat.mod_eq_of_lt fits, counted, Side.share, Side.padding, places]
  ring

/-- A head that takes any bytes cannot be paid for as often as 64 bits count. -/
theorem headDim_eq_zero {dim : Nat} {bytes others : Rat} (takes : 1 / 256 ≤ bytes)
    (beside : 0 ≤ others) (useful : 512 ≤ c.toNat)
    (within : (c.toNat : Rat) * ((UInt64.size - 1 : Nat) * (dim * bytes + others)) < UInt64.size) :
    dim = 0 := by
  by_contra some_there
  have one : (1 : Rat) ≤ dim := by exact_mod_cast Nat.one_le_iff_ne_zero.mpr some_there
  have useful : (512 : Rat) ≤ c.toNat := by exact_mod_cast useful
  have least : (1 / 256 : Rat) ≤ dim * bytes + others := by
    calc
      (1 / 256 : Rat) = 1 * (1 / 256) + 0 := by ring
      _ ≤ dim * bytes + others := add_le_add (mul_le_mul one takes (by norm_num) (by linarith)) beside
  have much : (UInt64.size : Rat) ≤ 512 * ((UInt64.size - 1 : Nat) * (1 / 256)) := by
    have wide : UInt64.size = 2 ^ 64 := rfl
    rw [wide]
    norm_num
  have cost : (512 : Rat) * ((UInt64.size - 1 : Nat) * (1 / 256)) ≤
      c.toNat * ((UInt64.size - 1 : Nat) * (dim * bytes + others)) := by
    gcongr
  exact absurd within (not_lt.mpr (much.trans cost))

/-- The elements of one layer cost the price of the layer for each token. A count of heads that is
cut off would have cost too much. -/
theorem sum_layerShares {headDimK headDimV : UInt64} {layer : Nat}
    (known_k : params.cacheTypeK.isKnown = true) (known_v : params.cacheTypeV.isKnown = true)
    (useful : 512 ≤ c.toNat)
    (within : c.toNat * layerPrice metadata params headDimK headDimV layer < UInt64.size) :
    ((layerSides metadata (params.withContext c) headDimK headDimV layer).map Side.share).sum =
      c.toNat * layerPrice metadata params headDimK headDimV layer := by
  have slots_told : (max params.nParallel 1).toUInt64.toNat = slots params := rfl
  have same_slots : slots { params with nCtx := c } = slots params := rfl
  have k_takes := (average_bounds known_k).1
  have v_takes := (average_bounds known_v).1
  simp only [layerPrice, toNat_saturatingMul, slots_told] at within ⊢
  simp only [layerSides, RuntimeParams.withContext, same_slots, List.map_cons, List.map_nil,
    List.sum_cons, List.sum_nil, Side.share]
  generalize ((metadata.kvHeadsForLayer layer).getD 0).toNat = kvHeads at within ⊢
  rcases Nat.le_total (kvHeads * slots params) (UInt64.size - 1) with few | many
  · rw [min_eq_left few]
    push_cast
    ring
  · rw [min_eq_right many] at within ⊢
    have no_k : headDimK.toNat = 0 :=
      headDim_eq_zero k_takes (by positivity) useful within
    have no_v : headDimV.toNat = 0 := by
      rw [add_comm] at within
      exact headDim_eq_zero v_takes (by positivity) useful within
    rw [no_k, no_v]
    simp

/-- All elements cost the price of a token for each of them. -/
theorem sum_shares (known_k : params.cacheTypeK.isKnown = true)
    (known_v : params.cacheTypeV.isKnown = true) (useful : 512 ≤ c.toNat)
    (within : c.toNat * tokenPrice metadata params < UInt64.size) :
    ((kvSides metadata (params.withContext c)).map Side.share).sum =
      c.toNat * tokenPrice metadata params := by
  unfold tokenPrice kvSides at *
  generalize metadata.headDimK.getD 0 = headDimK at *
  generalize metadata.headDimV.getD 0 = headDimV at *
  generalize List.range (metadata.blockCount.getD 0).toNat = layers at *
  have price_nonneg := layerPrice_nonneg metadata params headDimK headDimV
  induction layers with
  | nil => simp
  | cons layer layers ih =>
      have rest : (0 : Rat) ≤ (layers.map (layerPrice metadata params headDimK headDimV)).sum := by
        apply List.sum_nonneg
        simpa using fun layer _ => price_nonneg layer
      have tokens : (0 : Rat) ≤ c.toNat := Nat.cast_nonneg _
      rw [List.map_cons, List.sum_cons, mul_add] at within
      have here := mul_nonneg tokens (price_nonneg layer)
      have behind := mul_nonneg tokens rest
      rw [List.flatMap_cons, List.map_append, List.sum_append, List.map_cons, List.sum_cons, mul_add,
        ih (by linarith), sum_layerShares known_k known_v useful (by linarith)]

end Window

/-! ### The suggestion -/

/-- What the budget has left beside the cache. -/
def spareFor (estimator : Estimator) (metadata : ModelMetadata) (params : RuntimeParams)
    (budget : Budget) : Nat :=
  budget.spendable.toNat -
    (besideCache estimator metadata params + (marginFor budget.spendable).toNat)

/-- The window that this pays for at the price of a token in whole bytes, as far as the model was
trained. -/
def pricedContext (estimator : Estimator) (metadata : ModelMetadata) (params : RuntimeParams)
    (budget : Budget) : UInt32 :=
  let pays := spareFor estimator metadata params budget / (tokenPrice metadata params).ceil.toNat
  let trained := (metadata.contextLength.map UInt64.toNat).getD (UInt32.size - 1)
  UInt32.ofNat (min (min pays (UInt32.size - 1)) trained)

/-- At this window, the places left over in the last blocks take no more than what is left of the spare
memory when the tokens are paid for exactly. -/
def PaddingPaid (estimator : Estimator) (metadata : ModelMetadata) (params : RuntimeParams)
    (budget : Budget) : Prop :=
  let c := pricedContext estimator metadata params budget
  ((kvSides metadata (params.withContext c)).map Side.padding).sum ≤
    spareFor estimator metadata params budget - c.toNat * tokenPrice metadata params

section Suggestion

variable {estimator : Estimator} {metadata : ModelMetadata} {params : RuntimeParams} {budget : Budget}
  {c : UInt32}

theorem toNat_clampToU32 (value : UInt64) :
    (clampToU32 value).toNat = min value.toNat (UInt32.size - 1) := by
  have wide : UInt32.size = 2 ^ 32 := rfl
  unfold clampToU32
  split
  · rename_i small
    rw [UInt64.lt_iff_toNat_lt] at small
    have bound : (0x100000000 : UInt64).toNat = 2 ^ 32 := rfl
    rw [UInt64.toNat_toUInt32]
    omega
  · rename_i large
    rw [UInt64.lt_iff_toNat_lt] at large
    have bound : (0x100000000 : UInt64).toNat = 2 ^ 32 := rfl
    have most : (0xFFFFFFFF : UInt32).toNat = 2 ^ 32 - 1 := rfl
    omega

theorem solveMaxContext_eq_some {budget fixed price : UInt64}
    (solved : solveMaxContext budget fixed price = some c) :
    price ≠ 0 ∧ fixed.toNat ≤ budget.toNat ∧ 512 ≤ c.toNat ∧
      c.toNat = min ((budget.toNat - fixed.toNat) / price.toNat) (UInt32.size - 1) := by
  unfold solveMaxContext at solved
  split at solved
  · cases solved
  · rename_i payable
    rw [not_or, UInt64.not_lt, UInt64.le_iff_toNat_le] at payable
    dsimp only at solved
    split at solved
    · rename_i useful
      cases solved
      rw [UInt32.le_iff_toNat_le] at useful
      refine ⟨payable.1, payable.2, useful, ?_⟩
      rw [toNat_clampToU32, UInt64.toNat_div, UInt64.toNat_sub_of_le _ _
        (UInt64.le_iff_toNat_le.mpr payable.2)]
    · cases solved

/-- What a suggestion was solved from. -/
theorem suggested_from
    (suggested : (estimator.estimateAgainst metadata params budget).maxContextThatFits = some c) :
    (kvCacheBytes metadata params).1.bytesPerToken ≠ 0 ∧ 512 ≤ c.toNat ∧
      besideCache estimator metadata params + (marginFor budget.spendable).toNat ≤
        budget.spendable.toNat ∧
      c.toNat = min (min (spareFor estimator metadata params budget /
        (kvCacheBytes metadata params).1.bytesPerToken.toNat) (UInt32.size - 1))
          ((metadata.contextLength.map UInt64.toNat).getD (UInt32.size - 1)) := by
  unfold Estimator.estimateAgainst at suggested
  dsimp only at suggested
  obtain ⟨clamped, useful⟩ := Option.filter_eq_some_iff.mp suggested
  obtain ⟨tokens, solved, capped⟩ := Option.map_eq_some_iff.mp clamped
  obtain ⟨priced, payable, enough, count⟩ := solveMaxContext_eq_some solved
  have useful : 512 ≤ c.toNat := UInt32.le_iff_toNat_le.mp (of_decide_eq_true useful)
  have fixed : (saturatingAdd (saturatingAdd (saturatingAdd (metadata.weightBytes.getD 0)
      (estimator.computeBytes metadata params).1) (saturatingAdd estimator.computeModel.engineBaseline
        estimator.computeModel.hostOverhead)) (marginFor budget.spendable)).toNat =
      min (besideCache estimator metadata params + (marginFor budget.spendable).toNat)
        (UInt64.size - 1) := by
    rw [toNat_saturatingAdd, toNat_saturatingAdd, toNat_saturatingAdd, besideCache]
    omega
  rw [fixed] at payable count
  have most := budget.spendable.toNat_lt
  have wide : UInt64.size = 2 ^ 64 := rfl
  have within : besideCache estimator metadata params + (marginFor budget.spendable).toNat ≤
      UInt64.size - 1 := by
    by_contra above
    have nothing : budget.spendable.toNat - min (besideCache estimator metadata params +
        (marginFor budget.spendable).toNat) (UInt64.size - 1) = 0 := by omega
    rw [nothing, Nat.zero_div] at count
    omega
  rw [min_eq_left within] at payable count
  refine ⟨priced, useful, payable, ?_⟩
  have fits : c.toNat = min tokens.toNat
      ((metadata.contextLength.map UInt64.toNat).getD (UInt32.size - 1)) := by
    rw [← capped]
    cases metadata.contextLength with
    | none =>
        have bound := tokens.toNat_lt
        have wide : UInt32.size = 2 ^ 32 := rfl
        simp only [Option.map_none, Option.getD_none]
        omega
    | some modelMax =>
        have bound := tokens.toNat_lt
        have wide : UInt32.size = 2 ^ 32 := rfl
        simp only [Option.map_some, Option.getD_some, UInt32.toNat_min, toNat_clampToU32]
        omega
  rw [fits, count]
  rfl

theorem spareFor_add_lt (estimator : Estimator) (metadata : ModelMetadata) (params : RuntimeParams)
    (budget : Budget) : spareFor estimator metadata params budget + 512 < UInt64.size := by
  have margin : minMargin.toNat ≤ (marginFor budget.spendable).toNat := by
    rw [toNat_marginFor]
    exact Nat.le_max_left _ _
  have least : minMargin.toNat = 512 * 1024 * 1024 := by decide
  have most := budget.spendable.toNat_lt
  have wide : UInt64.size = 2 ^ 64 := rfl
  unfold spareFor
  omega

/-- The price fits 64 bits, and the suggestion is the window that the spare memory pays for. -/
theorem suggested_priced
    (suggested : (estimator.estimateAgainst metadata params budget).maxContextThatFits = some c) :
    c = pricedContext estimator metadata params budget ∧
      c.toNat * tokenPrice metadata params ≤ spareFor estimator metadata params budget := by
  obtain ⟨priced, useful, payable, count⟩ := suggested_from suggested
  obtain ⟨-, -, price, -⟩ := kvCacheBytes_priced priced
  have small : spareFor estimator metadata params budget < UInt64.size - 1 := by
    have spare := spareFor_add_lt estimator metadata params budget
    omega
  have paid : c.toNat * (kvCacheBytes metadata params).1.bytesPerToken.toNat ≤
      spareFor estimator metadata params budget := by
    apply Nat.mul_le_of_le_div
    omega
  have whole : (kvCacheBytes metadata params).1.bytesPerToken.toNat =
      (tokenPrice metadata params).ceil.toNat := by
    have cost := Nat.mul_le_mul_right (kvCacheBytes metadata params).1.bytesPerToken.toNat useful
    omega
  rw [whole] at count paid
  constructor
  · apply UInt32.toNat_inj.mp
    have bound : min (min (spareFor estimator metadata params budget /
        (tokenPrice metadata params).ceil.toNat) (UInt32.size - 1))
          ((metadata.contextLength.map UInt64.toNat).getD (UInt32.size - 1)) < UInt32.size := by
      have wide : 0 < UInt32.size := by decide
      omega
    rw [pricedContext, UInt32.toNat_ofNat_of_lt' bound, count]
  · have up : tokenPrice metadata params ≤ (tokenPrice metadata params).ceil.toNat := by
      calc
        tokenPrice metadata params ≤ ((tokenPrice metadata params).ceil : Rat) := Rat.le_ceil
        _ ≤ ((tokenPrice metadata params).ceil.toNat : Rat) := by
          exact_mod_cast Int.self_le_toNat _
    calc
      c.toNat * tokenPrice metadata params ≤ c.toNat * (tokenPrice metadata params).ceil.toNat := by
        gcongr
      _ ≤ spareFor estimator metadata params budget := by exact_mod_cast paid

theorem kept_at_suggestion
    (suggested : (estimator.estimateAgainst metadata params budget).maxContextThatFits = some c) :
    ((((kvSides metadata (params.withContext c)).map Side.kept).sum : Nat) : Rat) =
      c.toNat * tokenPrice metadata params +
        ((kvSides metadata (params.withContext c)).map Side.padding).sum := by
  obtain ⟨priced, useful, -, -⟩ := suggested_from suggested
  obtain ⟨known_k, known_v, -, -⟩ := kvCacheBytes_priced priced
  have paid := (suggested_priced suggested).2
  have room : (spareFor estimator metadata params budget : Rat) + 512 < UInt64.size := by
    exact_mod_cast spareFor_add_lt estimator metadata params budget
  have within : c.toNat * tokenPrice metadata params < UInt64.size := by linarith
  have shares := sum_shares known_k known_v useful within
  have known : ∀ side ∈ kvSides metadata (params.withContext c), side.kind.isKnown = true :=
    sides_known metadata known_k known_v
  have each : ∀ side ∈ kvSides metadata (params.withContext c),
      (side.kept : Rat) = side.share + side.padding := by
    intro side member
    apply Side.kept_eq_share_add (known side member)
    have nonneg : ∀ share ∈ (kvSides metadata (params.withContext c)).map Side.share, 0 ≤ share := by
      intro share listed
      obtain ⟨other, -, same⟩ := List.mem_map.mp listed
      rw [← same]
      exact other.share_nonneg
    have le := List.single_le_sum nonneg side.share (List.mem_map_of_mem member)
    linarith
  rw [← shares, ← List.sum_map_add, Nat.cast_list_sum, List.map_map]
  exact congrArg List.sum (List.map_congr_left each)

end Suggestion

/-- The suggested context is safe just when the budget is more than any load can be seen to take, or
the padding of the cache is paid for. -/
theorem suggested_context_safe_iff (estimator : Estimator) (metadata : ModelMetadata)
    (params : RuntimeParams) (budget : Budget) (c : UInt32)
    (suggested : (estimator.estimateAgainst metadata params budget).maxContextThatFits = some c) :
    (estimator.estimateAgainst metadata (params.withContext c) budget).verdict = .safe ↔
      budget.spendable.toNat = UInt64.size - 1 ∨ PaddingPaid estimator metadata params budget := by
  obtain ⟨priced, -, payable, -⟩ := suggested_from suggested
  obtain ⟨-, -, -, windows⟩ := kvCacheBytes_priced priced
  have kept := kept_at_suggestion suggested
  have bytes : (kvCacheBytes metadata (params.withContext c)).1.bytes.toNat =
      min ((kvSides metadata (params.withContext c)).map Side.kept).sum (UInt64.size - 1) := by
    rcases kvCacheBytes_cases metadata (params.withContext c) with ⟨missing, -⟩ | ⟨-, -, told⟩
    · exact absurd (windows c) missing
    · exact told
  have beside : besideCache estimator metadata (params.withContext c) =
      besideCache estimator metadata params := rfl
  have fits : PaddingPaid estimator metadata params budget ↔
      ((kvSides metadata (params.withContext c)).map Side.kept).sum ≤
        spareFor estimator metadata params budget := by
    rw [PaddingPaid, ← (suggested_priced suggested).1, ← Nat.cast_le (α := Rat), kept,
      le_sub_iff_add_le']
  rw [safe_iff_exact, beside, bytes, fits]
  have most := budget.spendable.toNat_lt
  have wide : UInt64.size = 2 ^ 64 := rfl
  unfold spareFor
  omega

theorem suggested_context_of_ordinary_model :
    (Estimator.headless.estimateAgainst (oneLayer 8 64) .default eightFree).maxContextThatFits =
        some 8192 ∧
      (Estimator.headless.estimateAgainst (oneLayer 8 64) (RuntimeParams.default.withContext 8192)
        eightFree).verdict = .safe := by
  have suggested : (Estimator.headless.estimateAgainst (oneLayer 8 64) .default
      eightFree).maxContextThatFits = some 8192 := by
    decide
  have paid : PaddingPaid .headless (oneLayer 8 64) .default eightFree := by
    unfold PaddingPaid
    decide
  exact ⟨suggested, (suggested_context_safe_iff _ _ _ _ _ suggested).mpr (Or.inr paid)⟩

/-- A cache of eight bits. -/
def eightBits : RuntimeParams := { RuntimeParams.default with cacheTypeK := .q8_0, cacheTypeV := .q8_0 }

/-- What one layer of one head of 80 takes beside the cache, the margin, and 513 tokens at 170 bytes. -/
def justEnough : Budget := ⟨⟨0x400000000, 1038701738, 1038701738, 0, 0⟩, 0⟩

/-- The 41040 elements of a side at 513 tokens do not fill the last of their 1283 blocks. -/
theorem suggested_context_only_tight :
    (Estimator.headless.estimateAgainst (oneLayer 1 80) eightBits justEnough).maxContextThatFits =
        some 513 ∧
      (Estimator.headless.estimateAgainst (oneLayer 1 80) (eightBits.withContext 513)
        justEnough).verdict = .tight := by
  decide

end Lightweight.Memory
