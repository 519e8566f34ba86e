import Lightweight.Gateway.SchedulerEffects

/-! Who `take_next` picks. The queue stays in arrival order, so a pick is decided by the rounds alone;
a round counts the caller's waiting requests at the moment of arrival and is never renumbered. -/

namespace Lightweight.Gateway

open Transition

/-- Requests that arrive at one instant arrive in the order of their numbers. -/
def Earlier (x y : Waiter) : Prop :=
  x.enqueued < y.enqueued ∨ x.enqueued = y.enqueued ∧ x.id < y.id

/-- The queue is in arrival order, and nobody in it arrives later than now. -/
structure View.Arrived (v : View) : Prop where
  sorted : v.waiting.Pairwise fun x y => x.id < y.id ∧ x.enqueued ≤ y.enqueued
  past : ∀ x ∈ v.waiting, x.enqueued ≤ v.clock

theorem View.Arrived.sub {v : View} {rest : List Waiter} {clock : Nat} (arrived : v.Arrived)
    (sub : rest.Sublist v.waiting) (later : v.clock ≤ clock) :
    rest.Pairwise (fun x y => x.id < y.id ∧ x.enqueued ≤ y.enqueued) ∧
      ∀ x ∈ rest, x.enqueued ≤ clock :=
  ⟨arrived.sorted.sublist sub, fun x member => le_trans (arrived.past x (sub.subset member)) later⟩

theorem next_sublist {v : View} {front back : List Waiter} {waiter : Waiter}
    (next : v.next front waiter back) : (front ++ back).Sublist v.waiting := by
  rw [(minByKey_spec next).1]
  exact (List.sublist_cons_self _ _).append_left front

/-- How a step changes the queue: it loses some waiters, or gains one at the back. -/
theorem step_queue {w t : World} {action : Action} (sound : w.Sound)
    (stepped : step w action = some t) :
    w.clock ≤ t.clock ∧ t.sched.config.starvationCeiling = w.sched.config.starvationCeiling ∧
      (t.waiting.Sublist w.waiting ∨ ∃ band peer, t.clock = w.clock ∧
        (action = .enqueue band peer ∨ action = .admitOrEnqueue band peer) ∧
        t.waiting = w.waiting ++ [w.newcomer band peer]) := by
  have effect := step_effect sound stepped
  change w.view.clock ≤ t.view.clock ∧ t.view.ceiling = w.view.ceiling ∧
    (t.view.waiting.Sublist w.view.waiting ∨ ∃ band peer, t.view.clock = w.view.clock ∧ _ ∧
      t.view.waiting = w.view.waiting ++ _)
  generalize t.view = v at effect
  cases effect with
  | quiet => exact ⟨le_rfl, rfl, .inl (List.Sublist.refl _)⟩
  | tick elapsed _ => exact ⟨Nat.le_add_right _ _, rfl, .inl (List.Sublist.refl _)⟩
  | admitted => exact ⟨le_rfl, rfl, .inl (List.Sublist.refl _)⟩
  | join band peer which _ =>
      refine ⟨le_rfl, rfl, .inr ⟨band, peer, rfl, ?_, rfl⟩⟩
      exact which.imp_right And.left
  | store => exact ⟨le_rfl, rfl, .inl (List.Sublist.refl _)⟩
  | lock => exact ⟨le_rfl, rfl, .inl (List.Sublist.refl _)⟩
  | pause => exact ⟨le_rfl, rfl, .inl (List.Sublist.refl _)⟩
  | resume => exact ⟨le_rfl, rfl, .inl (List.Sublist.refl _)⟩
  | free => exact ⟨le_rfl, rfl, .inl (List.Sublist.refl _)⟩
  | leave => exact ⟨le_rfl, rfl, .inl List.eraseP_sublist⟩
  | stop => exact ⟨le_rfl, rfl, .inl (List.Sublist.refl _)⟩
  | pop holder front waiter back took _ _ next => exact ⟨le_rfl, rfl, .inl (next_sublist next)⟩

theorem step_arrived {w t : World} {action : Action} (sound : w.Sound) (arrived : w.view.Arrived)
    (stepped : step w action = some t) : t.view.Arrived := by
  obtain ⟨later, -, sub | ⟨band, peer, same, -, queue⟩⟩ := step_queue sound stepped
  · obtain ⟨sorted, past⟩ := arrived.sub sub later
    exact ⟨sorted, past⟩
  · have waiting : t.view.waiting = w.view.waiting ++ [w.newcomer band peer] := queue
    have clock : t.view.clock = w.view.clock := same
    constructor
    · rw [waiting, List.pairwise_append]
      refine ⟨arrived.sorted, by simp, ?_⟩
      intro x queued y new
      rw [List.mem_singleton.mp new]
      exact ⟨Nat.lt_succ_of_le (sound.waiterBound x queued), arrived.past x queued⟩
    · rw [waiting, clock]
      intro x member
      rcases List.mem_append.mp member with queued | new
      · exact arrived.past x queued
      · rw [List.mem_singleton.mp new]
        exact le_rfl

theorem reached_arrived {ok : World → Action → Prop} {capacity clock : Nat}
    {config : SchedulerConfig} {w : World}
    (reached : Reaches step ok (World.new capacity config clock) w) : w.view.Arrived := by
  have inv : w.Sound ∧ w.view.Arrived := by
    refine reached.invariant (fun w => w.Sound ∧ w.view.Arrived) ?_ ?_
    · refine ⟨new_sound capacity config clock, List.Pairwise.nil, ?_⟩
      exact fun _ member => absurd member List.not_mem_nil
    · intro s action u _ inv next
      exact ⟨step_sound inv.1 next, step_arrived inv.1 inv.2 next⟩
  exact inv.2

theorem rank_aged {x : Waiter} {now ceiling : Nat} (aged : agedOut x now ceiling = true) :
    rank x now ceiling = toLex (0, toLex (0, x.enqueued)) := by
  simp [rank, aged]

theorem rank_fresh {x : Waiter} {now ceiling : Nat} (fresh : agedOut x now ceiling = false) :
    rank x now ceiling = toLex (x.band.tier, toLex (x.round, x.enqueued)) := by
  simp [rank, fresh]

theorem Band.tier_pos (band : Band) : 0 < band.tier := by
  cases band <;> decide

/-- Nothing ranks before an aged-out waiter but a waiter that aged out no later. -/
theorem rank_le_aged {x y : Waiter} {now ceiling : Nat} (aged : agedOut x now ceiling = true)
    (before : rank y now ceiling ≤ rank x now ceiling) :
    agedOut y now ceiling = true ∧ y.enqueued ≤ x.enqueued := by
  rw [rank_aged aged] at before
  cases waited : agedOut y now ceiling with
  | true =>
      rw [rank_aged waited] at before
      simpa [Prod.Lex.toLex_le_toLex] using before
  | false =>
      rw [rank_fresh waited] at before
      have positive := y.band.tier_pos
      simp only [Prod.Lex.toLex_le_toLex] at before
      omega

theorem clock_monotone {s t : World} (sound : s.Sound) (reached : Reaches step Always s t) :
    t.Sound ∧ s.clock ≤ t.clock ∧
      t.sched.config.starvationCeiling = s.sched.config.starvationCeiling := by
  refine reached.invariant (fun t => t.Sound ∧ s.clock ≤ t.clock ∧
    t.sched.config.starvationCeiling = s.sched.config.starvationCeiling) ⟨sound, le_rfl, rfl⟩ ?_
  intro u action v _ inv stepped
  obtain ⟨later, same, -⟩ := step_queue inv.1 stepped
  exact ⟨step_sound inv.1 stepped, le_trans inv.2.1 later, same.trans inv.2.2⟩

/-- From the moment a waiter has waited out the ceiling, every waiter picked while it is still
waiting arrived no later than it did. -/
theorem aged_out_not_overtaken {capacity clock : Nat} {config : SchedulerConfig} {s t : World}
    {x waiter : Waiter} {sched : Scheduler}
    (before : Reaches step Always (World.new capacity config clock) s)
    (aged : s.sched.config.starvationCeiling ≤ s.clock - x.enqueued)
    (after : Reaches step Always s t) (still : x ∈ t.waiting)
    (picked : t.sched.takeNext t.clock = some (waiter, sched)) :
    waiter.enqueued ≤ x.enqueued := by
  obtain ⟨-, later, same⟩ := clock_monotone (reached_sound before) after
  have waited : agedOut x t.clock t.sched.config.starvationCeiling = true := by
    simp only [agedOut, decide_eq_true_eq]
    omega
  obtain ⟨front, back, least, -⟩ := Scheduler.takeNext_eq_some picked
  exact (rank_le_aged waited (minByKey_le least x still)).2

/-- A bulk request has waited out the default ceiling when a short one arrives: the pick is not the
newcomer. -/
theorem aged_out_not_overtaken_by_newcomer :
    ∃ (t : World) (x waiter : Waiter) (sched : Scheduler),
      x ∈ t.waiting ∧ t.waiting.length = 2 ∧ t.sched.takeNext t.clock = some (waiter, sched) ∧
        waiter.enqueued ≤ x.enqueued := by
  have ran : (run step (World.new 1 .default 0)
      [.tryAdmit, .admitOrEnqueue .bulk ⟨none⟩, .tick (60 * 1000000000)]).any (fun s =>
        (run step s [.tick 1, .admitOrEnqueue .interactive ⟨some (.v4 0)⟩]).any fun t =>
          (t.sched.takeNext t.clock).any fun _ => decide (t.waiting.length = 2 ∧ ∃ x ∈ t.waiting,
            s.sched.config.starvationCeiling ≤ s.clock - x.enqueued)) = true := by decide
  obtain ⟨s, before, rest⟩ := (Option.any_eq_true _ _).mp ran
  obtain ⟨t, after, pick⟩ := (Option.any_eq_true _ _).mp rest
  obtain ⟨⟨waiter, sched⟩, picked, facts⟩ := (Option.any_eq_true _ _).mp pick
  obtain ⟨two, x, still, aged⟩ := of_decide_eq_true facts
  exact ⟨t, x, waiter, sched, still, two, picked,
    aged_out_not_overtaken (run_reaches before) aged (run_reaches after) still picked⟩

/-- An arrival's round is at least that of every request of its caller and band that waits. -/
def RoundsGrow (w : World) : Action → Prop
  | .enqueue band peer => ∀ x ∈ w.waiting, x.peer = peer → x.band = band →
      x.round ≤ asU32 (w.sched.inner.waitingOf peer)
  | .admitOrEnqueue band peer => ∀ x ∈ w.waiting, x.peer = peer → x.band = band →
      x.round ≤ asU32 (w.sched.inner.waitingOf peer)
  | _ => True

instance (w : World) : (action : Action) → Decidable (RoundsGrow w action)
  | .enqueue _ _ | .admitOrEnqueue _ _ => inferInstanceAs (Decidable (∀ x ∈ w.waiting, _))
  | .tick _ | .tryAdmit | .storeCapacity _ | .lockCapacity _ | .setBandLimits _ | .pause
  | .dropGuard | .turn | .dropPermit _ | .claim _ | .timedOut _ | .dropTicket _
  | .closeTicket _ | .describe _ _ _ _ | .inBand _ _ => isTrue trivial

def RoundsSorted (waiting : List Waiter) : Prop :=
  waiting.Pairwise fun x y => x.peer = y.peer → x.band = y.band → x.round ≤ y.round

theorem step_rounds {w t : World} {action : Action} (sound : w.Sound) (grow : RoundsGrow w action)
    (sorted : RoundsSorted w.waiting) (stepped : step w action = some t) :
    RoundsSorted t.waiting := by
  obtain ⟨-, -, sub | ⟨band, peer, -, which, queue⟩⟩ := step_queue sound stepped
  · exact sorted.sublist sub
  · have bounded : ∀ x ∈ w.waiting, x.peer = peer → x.band = band →
        x.round ≤ asU32 (w.sched.inner.waitingOf peer) := by
      rcases which with rfl | rfl
      · exact grow
      · exact grow
    unfold RoundsSorted
    rw [queue, List.pairwise_append]
    refine ⟨sorted, by simp, ?_⟩
    intro x queued y new samePeer sameBand
    rw [List.mem_singleton.mp new] at samePeer sameBand ⊢
    exact bounded x queued samePeer sameBand

theorem reached_rounds {capacity clock : Nat} {config : SchedulerConfig} {w : World}
    (reached : Reaches step RoundsGrow (World.new capacity config clock) w) :
    RoundsSorted w.waiting := by
  have inv : w.Sound ∧ RoundsSorted w.waiting := by
    refine reached.invariant (fun w => w.Sound ∧ RoundsSorted w.waiting) ?_ ?_
    · exact ⟨new_sound capacity config clock, List.Pairwise.nil⟩
    · intro s action u grow inv next
      exact ⟨step_sound inv.1 next, step_rounds inv.1 grow inv.2 next⟩
  exact inv.2

/-- The tier a waiter is served in at `now`. -/
def serviceTier (x : Waiter) (now ceiling : Nat) : Nat :=
  if agedOut x now ceiling then 0 else x.band.tier

/-- The key without the round: starvation and band, then arrival. -/
def callerKey (x : Waiter) (now ceiling : Nat) : Nat ×ₗ (Nat ×ₗ Nat) :=
  toLex (serviceTier x now ceiling, toLex (x.enqueued, x.id))

theorem Band.tier_injective {a b : Band} (same : a.tier = b.tier) : a = b := by
  cases a <;> cases b <;> first | rfl | cases same

/-- Within a tier, a request never ranks after one of its caller's that is behind it. -/
theorem rank_le_behind {x y : Waiter} {now ceiling : Nat}
    (tier : serviceTier x now ceiling = serviceTier y now ceiling) (arrived : x.enqueued ≤ y.enqueued)
    (rounds : x.band = y.band → x.round ≤ y.round) :
    rank x now ceiling ≤ rank y now ceiling := by
  have positive := x.band.tier_pos
  have positive' := y.band.tier_pos
  unfold serviceTier at tier
  cases aged : agedOut x now ceiling with
  | true =>
      cases aged' : agedOut y now ceiling with
      | true =>
          rw [rank_aged aged, rank_aged aged']
          simpa [Prod.Lex.toLex_le_toLex] using arrived
      | false =>
          simp only [aged, aged', if_true, Bool.false_eq_true, if_false] at tier
          omega
  | false =>
      cases aged' : agedOut y now ceiling with
      | true =>
          simp only [aged, aged', if_true, Bool.false_eq_true, if_false] at tier
          omega
      | false =>
          simp only [aged, aged', Bool.false_eq_true, if_false] at tier
          have grown := rounds (Band.tier_injective tier)
          rw [rank_fresh aged, rank_fresh aged']
          simp only [Prod.Lex.toLex_le_toLex]
          omega

/-- A request of the picked one's caller and tier that is still waiting stands behind it. -/
theorem behind_pick {waiting front back : List Waiter} {waiter x : Waiter} {now ceiling : Nat}
    (least : minByKey (fun x => rank x now ceiling) waiting = some (front, waiter, back))
    (sorted : waiting.Pairwise fun x y => x.id < y.id ∧ x.enqueued ≤ y.enqueued)
    (rounds : RoundsSorted waiting) (member : x ∈ waiting) (other : x ≠ waiter)
    (caller : x.peer = waiter.peer)
    (tier : serviceTier x now ceiling = serviceTier waiter now ceiling) :
    waiter.id < x.id ∧ waiter.enqueued ≤ x.enqueued := by
  obtain ⟨queue, before, -⟩ := minByKey_spec least
  unfold RoundsSorted at rounds
  rw [queue] at sorted rounds member
  rw [List.pairwise_append, List.pairwise_cons] at sorted rounds
  rcases List.mem_append.mp member with ahead | member
  · -- a request ahead of the pick would rank no later than it
    have earlier := sorted.2.2 x ahead waiter List.mem_cons_self
    have grown := rounds.2.2 x ahead waiter List.mem_cons_self caller
    exact absurd (rank_le_behind tier earlier.2 grown) (not_le.mpr (before x ahead))
  · rcases List.mem_cons.mp member with same | behind
    · exact absurd same other
    · exact sorted.2.1.1 x behind

/-- In a run whose arrivals keep the rounds growing, no pick passes over an earlier request of the
same caller, band and side of the ceiling; with a single caller the pick is the least by starvation
tier, band and arrival. -/
theorem caller_order_kept {capacity clock : Nat} {config : SchedulerConfig} {w : World}
    {now : Nat} {waiter : Waiter} {sched : Scheduler}
    (reached : Reaches step RoundsGrow (World.new capacity config clock) w)
    (picked : w.sched.takeNext now = some (waiter, sched)) :
    (∀ x ∈ w.waiting, x.peer = waiter.peer → x.band = waiter.band →
      agedOut x now w.sched.config.starvationCeiling =
        agedOut waiter now w.sched.config.starvationCeiling → ¬ Earlier x waiter) ∧
    ((∀ x ∈ w.waiting, x.peer = waiter.peer) → ∀ x ∈ w.waiting, x ≠ waiter →
      callerKey waiter now w.sched.config.starvationCeiling <
        callerKey x now w.sched.config.starvationCeiling) := by
  have arrived := reached_arrived reached
  have rounds := reached_rounds reached
  obtain ⟨front, back, least, -⟩ := Scheduler.takeNext_eq_some picked
  constructor
  · intro x member caller band aged earlier
    have tier : serviceTier x now w.sched.config.starvationCeiling =
        serviceTier waiter now w.sched.config.starvationCeiling := by
      simp only [serviceTier, aged, band]
    have other : x ≠ waiter := by
      rintro rfl
      rcases earlier with before | ⟨-, before⟩
      · exact lt_irrefl _ before
      · exact lt_irrefl _ before
    have behind := behind_pick least arrived.sorted rounds member other caller tier
    rcases earlier with before | ⟨-, before⟩
    · omega
    · omega
  · intro single x member other
    have first : serviceTier waiter now w.sched.config.starvationCeiling ≤
        serviceTier x now w.sched.config.starvationCeiling := by
      have order := minByKey_le least x member
      simp only [rank, Prod.Lex.toLex_le_toLex] at order
      unfold serviceTier
      omega
    simp only [callerKey, Prod.Lex.toLex_lt_toLex]
    rcases lt_or_eq_of_le first with less | same
    · exact .inl less
    · have behind := behind_pick least arrived.sorted rounds member other (single x member) same.symm
      omega

/-- Three requests of one caller wait; two are served, so that the third keeps round two while only
one request waits. The caller's next request is given round one and is picked first. -/
theorem same_caller_overtaken :
    ¬ ∀ (capacity clock : Nat) (config : SchedulerConfig) (w : World) (now : Nat)
      (waiter : Waiter) (sched : Scheduler),
      Reaches step Always (World.new capacity config clock) w →
        w.sched.takeNext now = some (waiter, sched) →
          ∀ x ∈ w.waiting, x.peer = waiter.peer → x.band = waiter.band →
            agedOut x now w.sched.config.starvationCeiling =
              agedOut waiter now w.sched.config.starvationCeiling → ¬ Earlier x waiter := by
  intro ordered
  have ran : (run step (World.new 1 .default 0)
      [.tryAdmit, .admitOrEnqueue .bulk ⟨none⟩, .tick 1, .admitOrEnqueue .bulk ⟨none⟩, .tick 1,
        .admitOrEnqueue .bulk ⟨none⟩, .dropPermit 1, .turn, .claim 2, .dropPermit 5, .turn,
        .tick 1, .admitOrEnqueue .bulk ⟨none⟩]).any (fun w =>
          (w.sched.takeNext w.clock).any fun picked => decide (∃ x ∈ w.waiting,
            x.peer = picked.1.peer ∧ x.band = picked.1.band ∧
            agedOut x w.clock w.sched.config.starvationCeiling =
              agedOut picked.1 w.clock w.sched.config.starvationCeiling ∧
            x.enqueued < picked.1.enqueued)) = true := by decide
  obtain ⟨w, ran, pick⟩ := (Option.any_eq_true _ _).mp ran
  obtain ⟨⟨waiter, sched⟩, picked, passed⟩ := (Option.any_eq_true _ _).mp pick
  obtain ⟨x, member, peer, band, side, earlier⟩ := of_decide_eq_true passed
  exact ordered 1 0 .default w w.clock waiter sched (run_reaches ran) picked x member peer band side
    (.inl earlier)

/-- Two requests of one caller wait and nothing has left the queue: the first to arrive is picked. -/
theorem caller_order_kept_two_waiting :
    ∃ (w : World) (waiter : Waiter) (sched : Scheduler),
      w.sched.takeNext w.clock = some (waiter, sched) ∧ w.waiting.length = 2 ∧
      ∀ x ∈ w.waiting, x ≠ waiter → callerKey waiter w.clock w.sched.config.starvationCeiling <
        callerKey x w.clock w.sched.config.starvationCeiling := by
  have ran : (runMeeting step RoundsGrow (World.new 1 .default 0)
      [.tryAdmit, .admitOrEnqueue .bulk ⟨none⟩, .tick 1, .admitOrEnqueue .bulk ⟨none⟩]).any
        (fun w => (w.sched.takeNext w.clock).any fun picked => decide (w.waiting.length = 2 ∧
          ∀ x ∈ w.waiting, x.peer = picked.1.peer)) = true := by decide
  obtain ⟨w, ran, pick⟩ := (Option.any_eq_true _ _).mp ran
  obtain ⟨⟨waiter, sched⟩, picked, single⟩ := (Option.any_eq_true _ _).mp pick
  obtain ⟨two, single⟩ := of_decide_eq_true single
  have order := (caller_order_kept (runMeeting_reaches ran) picked).2 single
  exact ⟨w, waiter, sched, picked, two, order⟩

end Lightweight.Gateway
