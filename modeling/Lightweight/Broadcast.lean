import Mathlib.Data.List.Basic

/-! A broadcast channel of bounded memory. Every value sent has a position; a receiver has a cursor
among the positions, and one that falls too far behind loses values, never the newest. -/

namespace Lightweight.Broadcast

variable {σ : Type}

/-- What one `recv` gives. -/
inductive Received (σ : Type) where
  | value (sent : σ)
  /-- The cursor was moved over values that are no longer held. -/
  | lagged
  /-- Every sender is gone and every value was received. -/
  | closed
deriving DecidableEq, Repr

/-- The receiving half. -/
structure Channel (σ : Type) where
  /-- Over what was sent so far, whether the senders are gone, and the receiver's cursor: what is
  received and the cursor after it, or nothing while the receiver waits. -/
  recv : List σ → Bool → ℕ → Option (Received σ × ℕ)
  recv_caught_up : ∀ sent gone next, sent.length ≤ next →
    recv sent gone next = if gone then some (.closed, next) else none
  recv_behind : ∀ sent gone next, next < sent.length →
    (∃ value, sent[next]? = some value ∧ recv sent gone next = some (.value value, next + 1)) ∨
    ∃ later, next < later ∧ later < sent.length ∧ recv sent gone next = some (.lagged, later)

/-- A receiver that is behind does not wait. -/
theorem Channel.recv_ready (channel : Channel σ) {sent : List σ} {next : ℕ} (gone : Bool)
    (behind : next < sent.length) : (channel.recv sent gone next).isSome := by
  rcases channel.recv_behind sent gone next behind with ⟨value, -, received⟩ | ⟨later, -, -, received⟩
  · rw [received]
    rfl
  · rw [received]
    rfl

/-- The channel that holds the newest `capacity` values. -/
def bounded (capacity : ℕ) (positive : 0 < capacity) : Channel σ where
  recv sent gone next :=
    if sent.length ≤ next + capacity then
      match sent[next]? with
      | some value => some (.value value, next + 1)
      | none => if gone then some (.closed, next) else none
    else some (.lagged, sent.length - capacity)
  recv_caught_up := by
    intro sent gone next reached
    rw [if_pos (by omega), List.getElem?_eq_none reached]
  recv_behind := by
    intro sent gone next behind
    split
    · left
      exact ⟨sent[next], List.getElem?_eq_getElem behind, by rw [List.getElem?_eq_getElem behind]⟩
    · right
      exact ⟨sent.length - capacity, by omega, by omega, rfl⟩

end Lightweight.Broadcast
