import Mathlib.Data.Int.CardIntervalMod
import Mathlib.Data.List.Rotate

/-! Turns that go round a list: turn `n` starts `n` places on. Consecutive turns are shared out evenly
among the places. -/

namespace Lightweight.Rotation

variable {α : Type} {ring : List α}

/-- The order of one turn. -/
def turned (ring : List α) (turn : Nat) : List α :=
  ring.rotate (turn % max ring.length 1)

theorem turned_isRotated (ring : List α) (turn : Nat) : (turned ring turn).IsRotated ring :=
  List.IsRotated.forall ring _

theorem head?_turned (ring : List α) (turn : Nat) :
    (turned ring turn).head? = ring[turn % ring.length]? := by
  cases ring with
  | nil => simp [turned]
  | cons first rest =>
      have positive : 0 < (first :: rest).length := by simp
      rw [turned, max_eq_left positive]
      exact List.head?_rotate (Nat.mod_lt turn positive)

/-- A place is met again once round the ring. -/
theorem place_iff (first turn : Nat) {places place : Nat} (inside : place < places) :
    (first + turn) % places = place ↔ turn ≡ place + (places - first % places) [MOD places] := by
  have below : first % places < places := Nat.mod_lt first (by omega)
  have parts := Nat.mod_add_div first places
  have whole : first + (place + (places - first % places)) ≡ place [MOD places] := by
    have gathered : first + (place + (places - first % places)) =
        place + places * (first / places + 1) := by
      rw [Nat.mul_succ]
      omega
    rw [gathered]
    exact Nat.add_mul_mod_self_left place places _
  have reduced : (first + turn) % places = place ↔ first + turn ≡ place [MOD places] := by
    rw [Nat.ModEq, Nat.mod_eq_of_lt inside]
  rw [reduced]
  constructor
  · intro same
    exact Nat.ModEq.add_left_cancel' first (same.trans whole.symm)
  · intro same
    exact (Nat.ModEq.add_left first same).trans whole

/-- How many of `count` turns from `first` on come to one place. -/
theorem count_place (first count : Nat) {places place : Nat} (inside : place < places) :
    count / places ≤ (List.range' first count).countP (· % places = place) ∧
      (List.range' first count).countP (· % places = place) ≤ count / places + 1 := by
  have counted : (List.range' first count).countP (· % places = place) =
      Nat.count (· ≡ place + (places - first % places) [MOD places]) count := by
    rw [List.range'_eq_map_range, List.countP_map, Nat.count]
    apply List.countP_congr
    intro turn _
    simpa using place_iff first turn inside
  rw [counted, Nat.count_modEq_card count (by omega)]
  split <;> omega

variable [DecidableEq α]

/-- No place is led by more than one turn beyond another. -/
theorem leads_shared (once : ring.Nodup) {a b : α} (here : a ∈ ring) (there : b ∈ ring)
    {turns : List Nat} {first count : Nat} (consecutive : turns.Perm (List.range' first count)) :
    turns.countP (fun turn => (turned ring turn).head? = some a) ≤
      turns.countP (fun turn => (turned ring turn).head? = some b) + 1 := by
  have counted : ∀ c ∈ ring, ∃ place < ring.length,
      turns.countP (fun turn => (turned ring turn).head? = some c) =
        (List.range' first count).countP (· % ring.length = place) := by
    intro c member
    obtain ⟨place, inside, same⟩ := List.getElem_of_mem member
    refine ⟨place, inside, ?_⟩
    rw [consecutive.countP_eq]
    apply List.countP_congr
    intro turn _
    have bound : turn % ring.length < ring.length := Nat.mod_lt turn (by omega)
    rw [decide_eq_true_iff, decide_eq_true_iff, head?_turned, List.getElem?_eq_getElem bound,
      Option.some.injEq, ← same]
    exact once.getElem_inj_iff
  obtain ⟨placeA, insideA, ofA⟩ := counted a here
  obtain ⟨placeB, insideB, ofB⟩ := counted b there
  rw [ofA, ofB]
  have high := (count_place first count insideA).2
  have low := (count_place first count insideB).1
  omega

end Lightweight.Rotation
