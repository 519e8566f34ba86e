import Mathlib.Data.List.Basic
import Mathlib.Data.List.Forall2

/-! Lists in which what one entry asks for is answered by a later one, and what a conversion that
drops entries leaves of that. -/

namespace Lightweight

section Answered

variable {α β κ : Type}

/-- Every key an entry asks for is answered further on. -/
def Answered (asks answers : α → κ → Prop) : List α → Prop
  | [] => True
  | entry :: rest =>
      (∀ key, asks entry key → ∃ later ∈ rest, answers later key) ∧ Answered asks answers rest

/-- The results stand in the order of the entries they were made of. -/
def InOrder (f : α → Option β) (entries : List α) (results : List β) : Prop :=
  ∃ kept, List.Sublist kept entries ∧ List.Forall₂ (fun entry result => f entry = some result)
    kept results

theorem filterMap_inOrder (f : α → Option β) (entries : List α) :
    InOrder f entries (entries.filterMap f) := by
  induction entries with
  | nil => exact ⟨[], List.Sublist.refl [], List.Forall₂.nil⟩
  | cons entry rest ih =>
      obtain ⟨kept, sublist, converted⟩ := ih
      cases result : f entry with
      | none =>
          rw [List.filterMap_cons_none result]
          exact ⟨kept, sublist.cons entry, converted⟩
      | some made =>
          rw [List.filterMap_cons_some result]
          exact ⟨entry :: kept, sublist.cons_cons entry, List.Forall₂.cons result converted⟩

variable {asks answers : α → κ → Prop} {asks' answers' : β → κ → Prop} {f : α → Option β}

theorem Answered.of_mem {entries : List α} (answered : Answered asks answers entries) {entry : α}
    (member : entry ∈ entries) {key : κ} (asked : asks entry key) :
    ∃ later ∈ entries, answers later key := by
  induction entries with
  | nil => cases member
  | cons first rest ih =>
      obtain ⟨answered_first, answered_rest⟩ := answered
      rcases List.mem_cons.mp member with rfl | listed
      · obtain ⟨later, listed, answer⟩ := answered_first key asked
        exact ⟨later, List.mem_cons_of_mem entry listed, answer⟩
      · obtain ⟨later, listed, answer⟩ := ih answered_rest listed
        exact ⟨later, List.mem_cons_of_mem first listed, answer⟩

/-- A conversion that asks for nothing new and keeps every answer keeps all keys answered. -/
theorem Answered.filterMap {entries : List α} (answered : Answered asks answers entries)
    (f_asks : ∀ entry ∈ entries, ∀ {result key}, f entry = some result → asks' result key →
      asks entry key)
    (f_answers : ∀ {entry result key}, f entry = some result → answers entry key →
      answers' result key)
    (kept : entries.Pairwise fun entry later =>
      ∀ key, asks entry key → answers later key → (f later).isSome) :
    Answered asks' answers' (entries.filterMap f) := by
  induction entries with
  | nil => trivial
  | cons entry rest ih =>
      obtain ⟨answered_entry, answered_rest⟩ := answered
      obtain ⟨kept_entry, kept_rest⟩ := List.pairwise_cons.mp kept
      have rest_answered := ih answered_rest
        (fun later member => f_asks later (List.mem_cons_of_mem entry member)) kept_rest
      cases result : f entry with
      | none => rwa [List.filterMap_cons_none result]
      | some made =>
          rw [List.filterMap_cons_some result]
          refine ⟨?_, rest_answered⟩
          intro key asked
          have asked_entry := f_asks entry List.mem_cons_self result asked
          obtain ⟨later, member, answer⟩ := answered_entry key asked_entry
          obtain ⟨reply, replied⟩ :=
            Option.isSome_iff_exists.mp (kept_entry later member key asked_entry answer)
          exact ⟨reply, List.mem_filterMap.mpr ⟨later, member, replied⟩,
            f_answers replied answer⟩

end Answered

end Lightweight
