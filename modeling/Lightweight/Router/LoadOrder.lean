import Mathlib.Algebra.Order.Field.Basic
import Mathlib.Data.Prod.Lex
import Mathlib.Data.Rat.Cast.Order
import Lightweight.Router.LeastBusyRuns

/-! The least-busy order as a sort by exact rational load: the cross-multiplied comparison is that of
the fractions, its products fit their machine width, and the order it leads to is the stable one. -/

namespace Lightweight.Router

/-! ### The comparison and its width -/

/-- What a load is compared by: known capacities first, then the load as a fraction of the capacity,
or the requests in flight where there is none. -/
def Load.normalized (load : Load) : Bool ×ₗ ℚ :=
  match load.capacity with
  | some limit => toLex (false, load.active / limit)
  | none => toLex (true, load.active)

/-- A load as the source holds it. -/
structure LoadWords where
  active : UInt64
  limit : Option UInt32
deriving DecidableEq, Repr

def LoadWords.load (words : LoadWords) : Load :=
  ⟨words.active.toNat, words.limit.map UInt32.toNat⟩

def LoadWords.capacity (words : LoadWords) : Option UInt64 :=
  (words.limit.filter fun limit => 0 < limit).map UInt32.toUInt64

/-- `u128::from(active) * u128::from(limit)`, which wraps where it does not fit. -/
def product (active limit : UInt64) : BitVec 128 :=
  active.toBitVec.setWidth 128 * limit.toBitVec.setWidth 128

/-- `compare_load` on machine words. -/
def compareLoadWords (a b : LoadWords) : Ordering :=
  match a.capacity, b.capacity with
  | some limitA, some limitB =>
      compare (product a.active limitB).toNat (product b.active limitA).toNat
  | some _, none => .lt
  | none, some _ => .gt
  | none, none => compare a.active.toNat b.active.toNat

theorem LoadWords.capacity_load (words : LoadWords) :
    words.load.capacity = words.capacity.map UInt64.toNat := by
  obtain ⟨active, limit⟩ := words
  cases limit with
  | none => rfl
  | some limit =>
      have same : 0 < limit ↔ 0 < limit.toNat := UInt32.lt_iff_toNat_lt
      simp only [LoadWords.load, LoadWords.capacity, Load.capacity, Option.map_some,
        Option.filter_some, same]
      split <;> simp

/-- A capacity is a `u32`. -/
theorem LoadWords.capacity_lt {words : LoadWords} {limit : UInt64}
    (known : words.capacity = some limit) : limit.toNat < 2 ^ 32 := by
  obtain ⟨word, _, same⟩ := Option.map_eq_some_iff.mp known
  rw [← same, UInt32.toNat_toUInt64]
  exact word.toNat_lt

/-- No product of a count and a capacity wraps. -/
theorem product_toNat (active : UInt64) {limit : UInt64} (narrow : limit.toNat < 2 ^ 32) :
    (product active limit).toNat = active.toNat * limit.toNat := by
  have counted : active.toNat < 2 ^ 64 := active.toNat_lt
  have fits : active.toNat * limit.toNat < 2 ^ 128 := by
    calc
      active.toNat * limit.toNat < 2 ^ 64 * 2 ^ 32 :=
        Nat.mul_lt_mul_of_lt_of_lt counted narrow
      _ ≤ 2 ^ 128 := by decide
  rw [product, BitVec.toNat_mul, BitVec.toNat_setWidth, BitVec.toNat_setWidth]
  rw [Nat.mod_eq_of_lt (a := active.toBitVec.toNat) (by simp; omega)]
  rw [Nat.mod_eq_of_lt (a := limit.toBitVec.toNat) (by simp; omega)]
  exact Nat.mod_eq_of_lt fits

theorem compareLoadWords_eq (a b : LoadWords) :
    compareLoadWords a b = compareLoad a.load b.load := by
  unfold compareLoadWords compareLoad
  rw [LoadWords.capacity_load, LoadWords.capacity_load]
  cases knownA : a.capacity with
  | none =>
      cases b.capacity with
      | none => rfl
      | some limitB => rfl
  | some limitA =>
      cases knownB : b.capacity with
      | none => rfl
      | some limitB =>
          simp only [Option.map_some]
          rw [product_toNat a.active (LoadWords.capacity_lt knownB),
            product_toNat b.active (LoadWords.capacity_lt knownA)]
          rfl

/-! ### Fractions -/

theorem compareLoad_lt (a b : Load) : compareLoad a b = .lt ↔ a.normalized < b.normalized := by
  unfold compareLoad Load.normalized
  cases knownA : a.capacity with
  | none =>
      cases knownB : b.capacity with
      | none => simp [Nat.compare_eq_lt, Prod.Lex.toLex_lt_toLex]
      | some limitB => simp [Prod.Lex.toLex_lt_toLex]
  | some limitA =>
      cases knownB : b.capacity with
      | none => simp [Prod.Lex.toLex_lt_toLex]
      | some limitB =>
          have positiveA : (0 : ℚ) < limitA := Nat.cast_pos.mpr (Load.capacity_pos knownA)
          have positiveB : (0 : ℚ) < limitB := Nat.cast_pos.mpr (Load.capacity_pos knownB)
          simp only [Nat.compare_eq_lt, Prod.Lex.toLex_lt_toLex, lt_irrefl, true_and, false_or]
          rw [div_lt_div_iff₀ positiveA positiveB]
          exact_mod_cast Iff.rfl

theorem compareLoad_gt (a b : Load) : compareLoad a b = .gt ↔ b.normalized < a.normalized := by
  rw [← compareLoad_lt, compareLoad_swap a b, Ordering.swap_eq_gt]

theorem compareLoad_eq (a b : Load) : compareLoad a b = .eq ↔ a.normalized = b.normalized := by
  have less := compareLoad_lt a b
  have greater := compareLoad_gt a b
  cases compared : compareLoad a b with
  | lt => simp [(less.mp compared).ne]
  | gt => simp [(greater.mp compared).ne']
  | eq =>
      rw [compared] at less greater
      simp only [reduceCtorEq, false_iff, not_lt] at less greater
      simp [le_antisymm greater less]

/-! ### The whole order -/

/-- The candidates with their loads: `loads` is aligned with them, and a load that is missing is
unknown. -/
def withLoads (eligible : Eligible) (loads : List Load) : List (Candidate × Load) :=
  eligible.candidates.zipIdx.map fun (candidate, index) =>
    (candidate, loads[index]?.getD ⟨0, none⟩)

/-- By load as a fraction, then by configured position. -/
def NoBusier (a b : Candidate × Load) : Prop :=
  toLex (a.2.normalized, a.1.position) ≤ toLex (b.2.normalized, b.1.position)

theorem noBusier_iff (a b : Candidate × Load) : NoBusier a b ↔ busierThan a b ≠ .gt := by
  rw [NoBusier, Prod.Lex.toLex_le_toLex, busierThan, ← compareLoad_lt, ← compareLoad_eq]
  cases compareLoad a.2 b.2 with
  | lt => simp
  | gt => simp
  | eq => simp [Nat.compare_ne_gt]

theorem tied_iff (ranked : List (Candidate × Load)) :
    (match ranked[0]?, ranked[1]? with
      | some (_, first), some (_, second) => compareLoad first second == .eq
      | _, _ => false) = true ↔
    ∃ first second rest, ranked = first :: second :: rest ∧
      compareLoad first.2 second.2 = .eq := by
  match ranked with
  | [] => simp
  | [_] => simp
  | (first, load) :: (second, loadNext) :: rest => simp

/-- The comparison is that of the loads as fractions, a total preorder, with no product too wide for
its words; and the candidates are sorted by it, then by position, those that compare equal as they
were. A tie is told exactly when the first two compare equal. -/
theorem least_busy_sorts (eligible : Eligible) (loads : List Load) :
    (∀ a b : LoadWords, compareLoadWords a b = compareLoad a.load b.load) ∧
    (∀ a b : Load, compareLoad a b = compare a.normalized b.normalized) ∧
    (∀ a b : Load, (compareLoad a b).isLE ∨ (compareLoad b a).isLE) ∧
    (∀ a b c : Load, (compareLoad a b).isLE → (compareLoad b c).isLE → (compareLoad a c).isLE) ∧
    ∃ ranked : List (Candidate × Load),
      ranked.Perm (withLoads eligible loads) ∧
      ranked.Pairwise NoBusier ∧
      (∀ part : List (Candidate × Load), part.Sublist (withLoads eligible loads) →
        part.Pairwise NoBusier → part.Sublist ranked) ∧
      ∃ activeBefore concurrencyLimit tied,
        orderLeastBusy eligible loads =
          .ofEligible { eligible with candidates := ranked.map Prod.fst } .leastBusy
            (.leastBusy activeBefore concurrencyLimit tied) ∧
        (tied = true ↔ ∃ first second rest, ranked = first :: second :: rest ∧
          compareLoad first.2 second.2 = .eq) := by
  refine ⟨compareLoadWords_eq, ?_, ?_, fun a b c => compareLoad_trans, ?_⟩
  · intro a b
    cases compared : compareLoad a b with
    | lt => exact (compare_lt_iff_lt.mpr ((compareLoad_lt a b).mp compared)).symm
    | gt => exact (compare_gt_iff_gt.mpr ((compareLoad_gt a b).mp compared)).symm
    | eq => exact (compare_eq_iff_eq.mpr ((compareLoad_eq a b).mp compared)).symm
  · intro a b
    rw [compareLoad_swap b a]
    cases compareLoad a b <;> simp
  · have same : (fun a b : Candidate × Load => busierThan a b ≠ .gt) = NoBusier := by
      funext a b
      exact propext (noBusier_iff a b).symm
    refine ⟨(withLoads eligible loads).insertionSort fun a b => busierThan a b ≠ .gt,
      List.perm_insertionSort _ _, ?_, ?_, _, _, _, rfl, ?_⟩
    · rw [← same]
      exact List.pairwise_insertionSort _ _
    · intro part taken sorted
      rw [← same] at sorted
      exact List.sublist_insertionSort sorted taken
    · exact tied_iff _

end Lightweight.Router
