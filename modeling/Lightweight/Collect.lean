import Mathlib.Data.List.Forall2
import Mathlib.Data.List.Nodup

/-! Checks that go through a list and collect what it stands for: each item stands for at most one
result, and no two results may have the same key. A check is told apart from a refused one by a
predicate on its state, so that it may note its refusals as it likes. -/

namespace Lightweight

variable {σ α β κ : Type}

/-- Where each item stands for something, so does the list. -/
theorem exists_forall₂ {fits : α → β → Prop} {items : List α}
    (each : ∀ item ∈ items, ∃ result, fits item result) :
    ∃ results, List.Forall₂ fits items results := by
  induction items with
  | nil => exact ⟨[], .nil⟩
  | cons item items ih =>
      rw [List.forall_mem_cons] at each
      obtain ⟨result, fit⟩ := each.1
      obtain ⟨results, fitting⟩ := ih each.2
      exact ⟨result :: results, .cons fit fitting⟩

/-- What a relation gives of its right side holds of every member on that side. -/
theorem forall₂_self {fits : α → β → Prop} {own : β → β → Prop}
    (self : ∀ {item result}, fits item result → own result result) {items : List α}
    {results : List β} (fitting : List.Forall₂ fits items results) :
    List.Forall₂ own results results := by
  induction fitting with
  | nil => exact .nil
  | cons fit _ ih => exact .cons (self fit) ih

theorem exists_of_forall₂ {fits : α → β → Prop} {items : List α} {results : List β}
    (fitting : List.Forall₂ fits items results) {item : α} (member : item ∈ items) :
    ∃ result ∈ results, fits item result := by
  induction fitting with
  | nil => cases member
  | cons fit _ ih =>
      rcases List.mem_cons.mp member with rfl | later
      · exact ⟨_, List.mem_cons_self, fit⟩
      · obtain ⟨result, listed, fit⟩ := ih later
        exact ⟨result, List.mem_cons_of_mem _ listed, fit⟩

/-- One step collects a fresh result of its item, or leaves a state that is not clean. -/
structure Collects (clean : σ → Prop) (kept : σ → List β) (step : σ → α → σ)
    (fits : α → β → Prop) (key : β → κ) : Prop where
  sound : ∀ {state item}, clean (step state item) → clean state ∧
    ∃ result, fits item result ∧ key result ∉ (kept state).map key ∧
      kept (step state item) = kept state ++ [result]
  complete : ∀ {state item result}, clean state → fits item result →
    key result ∉ (kept state).map key →
      clean (step state item) ∧ kept (step state item) = kept state ++ [result]

namespace Collects

variable {clean : σ → Prop} {kept : σ → List β} {step : σ → α → σ} {fits : α → β → Prop}
  {key : β → κ}

/-- A run that ends clean has collected a result for every item. -/
theorem foldl_sound (collects : Collects clean kept step fits key) {items : List α} {state : σ}
    (ended : clean (items.foldl step state)) :
    clean state ∧ ∃ results, List.Forall₂ fits items results ∧ (results.map key).Nodup ∧
      (∀ result ∈ results, key result ∉ (kept state).map key) ∧
      kept (items.foldl step state) = kept state ++ results := by
  induction items generalizing state with
  | nil => exact ⟨ended, [], .nil, List.nodup_nil, by simp, by simp⟩
  | cons item items ih =>
      obtain ⟨stepped, results, fitting, distinct, fresh, collected⟩ := ih ended
      obtain ⟨started, result, fit, unseen, grown⟩ := collects.sound stepped
      rw [grown, List.append_assoc] at collected
      rw [grown] at fresh
      refine ⟨started, result :: results, .cons fit fitting, ?_, ?_, collected⟩
      · rw [List.map_cons, List.nodup_cons]
        refine ⟨?_, distinct⟩
        intro again
        obtain ⟨other, listed, same⟩ := List.mem_map.mp again
        apply fresh other listed
        simp [same]
      · rw [List.forall_mem_cons]
        refine ⟨unseen, ?_⟩
        intro other listed seen
        apply fresh other listed
        rw [List.map_append]
        exact List.mem_append_left _ seen

theorem foldl_complete (collects : Collects clean kept step fits key) {items : List α}
    {results : List β} {state : σ} (started : clean state) (fitting : List.Forall₂ fits items results)
    (distinct : (results.map key).Nodup)
    (fresh : ∀ result ∈ results, key result ∉ (kept state).map key) :
    clean (items.foldl step state) ∧ kept (items.foldl step state) = kept state ++ results := by
  induction fitting generalizing state with
  | nil => exact ⟨started, (List.append_nil _).symm⟩
  | @cons item result items results fit fitting ih =>
      rw [List.map_cons, List.nodup_cons] at distinct
      rw [List.forall_mem_cons] at fresh
      obtain ⟨stepped, grown⟩ := collects.complete started fit fresh.1
      have unseen : ∀ other ∈ results, key other ∉ (kept (step state item)).map key := by
        intro other listed seen
        rw [grown, List.map_append, List.mem_append] at seen
        rcases seen with old | last
        · exact fresh.2 other listed old
        · rw [List.map_singleton, List.mem_singleton] at last
          apply distinct.1
          rw [← last]
          exact List.mem_map_of_mem listed
      obtain ⟨ended, collected⟩ := ih stepped distinct.2 unseen
      refine ⟨ended, ?_⟩
      rw [List.foldl_cons, collected, grown, List.append_assoc, List.singleton_append]

/-- A run from nothing. -/
theorem foldl_iff (collects : Collects clean kept step fits key) (items : List α) (state : σ)
    (started : clean state) (nothing : kept state = []) (results : List β) :
    clean (items.foldl step state) ∧ kept (items.foldl step state) = results ↔
      List.Forall₂ fits items results ∧ (results.map key).Nodup := by
  constructor
  · rintro ⟨ended, collected⟩
    obtain ⟨_, found, fitting, distinct, _, grown⟩ := collects.foldl_sound ended
    rw [nothing, List.nil_append, collected] at grown
    rw [grown]
    exact ⟨fitting, distinct⟩
  · rintro ⟨fitting, distinct⟩
    have fresh : ∀ result ∈ results, key result ∉ (kept state).map key := by
      rw [nothing]
      simp
    obtain ⟨ended, collected⟩ := collects.foldl_complete started fitting distinct fresh
    rw [nothing, List.nil_append] at collected
    exact ⟨ended, collected⟩

end Collects

end Lightweight
