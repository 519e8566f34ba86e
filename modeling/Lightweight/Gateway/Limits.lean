import Lightweight.Keyed
import Lightweight.Store.ApiKeys
import Mathlib.Data.List.TakeWhile

/-! Ceilings for each key: so many requests in any minute, and so many in a day
(`lightweight-gateway/src/limits.rs`). -/

namespace Lightweight.Gateway

open Lightweight.Store Keyed

/-- Instants and durations are counted in nanoseconds. -/
def secondNanos : Nat := 1000000000

def minute : Nat := 60 * secondNanos

def daySecs : Nat := 86400

/-- One key's usage. -/
structure KeyUsage where
  recent : List Nat
  dayCount : UInt32
  day : Nat
  total : UInt64
  lastUsed : Nat
deriving DecidableEq

def KeyUsage.new : KeyUsage := ⟨[], 0, 0, 0, 0⟩

inductive Ceiling where
  | perMinute
  | perDay
deriving DecidableEq

structure Throttled where
  retryAfter : Nat
  which : Ceiling
deriving DecidableEq

/-- A request for a key, with what the clocks show: the instant, the time of day, and the time of day
again when it is read once more. -/
structure AdmitCall where
  keyId : String
  limit : RateLimit
  now : Nat
  unix : Nat
  unixAgain : Nat
deriving DecidableEq

def AdmitCall.today (call : AdmitCall) : Nat := call.unix / daySecs

/-- The window and the day as they are when a request comes. -/
def KeyUsage.settle (usage : KeyUsage) (now today : Nat) : KeyUsage :=
  { usage with
    recent := usage.recent.dropWhile fun front => minute ≤ now - front
    dayCount := if usage.day = today then usage.dayCount else 0
    day := today }

/-- The ceiling that a request runs into, with how long to wait. -/
def KeyUsage.throttle (usage : KeyUsage) (call : AdmitCall) : Option Throttled :=
  if call.limit.perMinute.any fun perMinute => perMinute ≤ UInt32.ofNat usage.recent.length then
    let oldest := usage.recent.headD call.now
    let wait := minute - (call.now - oldest)
    some ⟨max (wait / secondNanos) 1, .perMinute⟩
  else if call.limit.perDay.any fun perDay => perDay ≤ usage.dayCount then
    some ⟨max (daySecs - call.unixAgain % daySecs) 1, .perDay⟩
  else none

/-- One more request. -/
def KeyUsage.count (usage : KeyUsage) (call : AdmitCall) : KeyUsage :=
  { usage with
    recent := usage.recent ++ [call.now]
    dayCount := usage.dayCount + 1
    total := usage.total + 1
    lastUsed := call.unixAgain }

def KeyUsage.admitCall (usage : KeyUsage) (call : AdmitCall) : Except Throttled Unit × KeyUsage :=
  let settled := usage.settle call.now call.today
  match settled.throttle call with
  | some throttled => (.error throttled, settled)
  | none => (.ok (), settled.count call)

/-- Every key's usage; a key that was never seen has used nothing. -/
abbrev RateLimiter := String → KeyUsage

def RateLimiter.new : RateLimiter := fun _ => .new

/-- The decisions for some calls. -/
def decisions (calls : List AdmitCall) : List (AdmitCall × Except Throttled Unit) :=
  answers (stepAt AdmitCall.keyId KeyUsage.admitCall) RateLimiter.new calls

/-- The calls that were let through. -/
def letThrough (decided : List (AdmitCall × Except Throttled Unit)) : List AdmitCall :=
  (decided.filter fun decision => decision.2 matches .ok ()).map Prod.fst

/-- The calls come one after the other, by both clocks. -/
def CallsInOrder (calls : List AdmitCall) : Prop :=
  calls.Pairwise fun first second => first.now ≤ second.now ∧ first.unix ≤ second.unix

section Settle

variable {usage : KeyUsage} {call : AdmitCall}

theorem dropWhile_dropWhile {α : Type} {first second : α → Bool} {xs : List α}
    (weaker : ∀ x, first x = true → second x = true) :
    (xs.dropWhile first).dropWhile second = xs.dropWhile second := by
  induction xs with
  | nil => rfl
  | cons x xs ih =>
      rw [List.dropWhile_cons]
      split
      · rename_i dropped
        rw [ih, List.dropWhile_cons, if_pos (weaker x dropped)]
      · rfl

theorem settle_settle {now later today after : Nat} (passed : now ≤ later)
    (begun : usage.day ≤ today) (rolled : today ≤ after) :
    (usage.settle now today).settle later after = usage.settle later after := by
  have window : (usage.recent.dropWhile fun front => minute ≤ now - front).dropWhile
      (fun front => minute ≤ later - front) =
        usage.recent.dropWhile fun front => minute ≤ later - front := by
    apply dropWhile_dropWhile
    intro front old
    rw [decide_eq_true_eq] at old ⊢
    omega
  have day : (if today = after then if usage.day = today then usage.dayCount else 0 else 0) =
      if usage.day = after then usage.dayCount else 0 := by
    split
    · rename_i same
      rw [same]
    · rename_i apart
      rw [if_neg]
      omega
  unfold KeyUsage.settle
  dsimp only
  rw [window, day]

/-- A request is refused, or counted behind a look at the clocks. -/
theorem admitCall_cases (usage : KeyUsage) (call : AdmitCall) :
    (∃ throttled, usage.admitCall call = (.error throttled, usage.settle call.now call.today)) ∨
      (usage.settle call.now call.today).throttle call = none ∧
        usage.admitCall call = (.ok (), (usage.settle call.now call.today).count call) := by
  unfold KeyUsage.admitCall
  dsimp only
  cases (usage.settle call.now call.today).throttle call with
  | some throttled => exact Or.inl ⟨throttled, rfl⟩
  | none => exact Or.inr ⟨rfl, rfl⟩

theorem day_admitCall : (usage.admitCall call).2.day = call.today := by
  rcases admitCall_cases usage call with ⟨throttled, refused⟩ | ⟨-, counted⟩
  · rw [refused]
    rfl
  · rw [counted]
    rfl

/-- A request that is let through is below both ceilings. -/
theorem throttle_eq_none (free : usage.throttle call = none) :
    (∀ ceiling, call.limit.perMinute = some ceiling → UInt32.ofNat usage.recent.length < ceiling) ∧
      ∀ ceiling, call.limit.perDay = some ceiling → usage.dayCount < ceiling := by
  unfold KeyUsage.throttle at free
  split at free
  · cases free
  · rename_i below_minute
    split at free
    · cases free
    · rename_i below_day
      refine ⟨?_, ?_⟩
      · intro ceiling given
        rw [given, Option.any_some, decide_eq_true_eq] at below_minute
        exact UInt32.not_le.mp below_minute
      · intro ceiling given
        rw [given, Option.any_some, decide_eq_true_eq] at below_day
        exact UInt32.not_le.mp below_day

end Settle

section Minute

/-- How many of some instants fall in the minute from an instant on. -/
def inMinute (start : Nat) (instants : List Nat) : Nat :=
  instants.countP fun instant => start ≤ instant ∧ instant < start + minute

/-- What is known of the window behind requests that were counted at some instants, the last look
being at `now`. -/
structure Windowed (usage : KeyUsage) (counted : List Nat) (now : Nat) (ceiling : UInt32) : Prop where
  recent : ∃ dropped, counted = dropped ++ usage.recent ∧ ∀ instant ∈ dropped, instant + minute ≤ now
  short : usage.recent.length ≤ ceiling.toNat
  bounded : ∀ start, inMinute start counted ≤ ceiling.toNat

variable {usage : KeyUsage} {call : AdmitCall} {counted : List Nat} {now : Nat} {ceiling : UInt32}

theorem Windowed.settle (windowed : Windowed usage counted now ceiling) (passed : now ≤ call.now) :
    Windowed (usage.settle call.now call.today) counted call.now ceiling := by
  obtain ⟨⟨dropped, split, old⟩, short, bounded⟩ := windowed
  refine ⟨?_, ?_, bounded⟩
  · refine ⟨dropped ++ usage.recent.takeWhile fun front => minute ≤ call.now - front, ?_, ?_⟩
    · rw [split, List.append_assoc]
      congr 1
      exact List.takeWhile_append_dropWhile.symm
    · intro instant member
      rcases List.mem_append.mp member with earlier | now_dropped
      · exact (old instant earlier).trans passed
      · have gone := List.mem_takeWhile_imp now_dropped
        rw [decide_eq_true_eq, minute, secondNanos] at gone
        rw [minute, secondNanos]
        omega
  · exact (List.dropWhile_sublist _).length_le.trans short

/-- A request that is let through finds the minute before it open. -/
theorem Windowed.count (windowed : Windowed usage counted call.now ceiling)
    (room : usage.recent.length < ceiling.toNat) :
    Windowed (usage.count call) (counted ++ [call.now]) call.now ceiling := by
  obtain ⟨⟨dropped, split, old⟩, short, bounded⟩ := windowed
  refine ⟨⟨dropped, ?_, old⟩, ?_, ?_⟩
  · rw [split, List.append_assoc]
    rfl
  · rw [KeyUsage.count, List.length_append]
    exact room
  · intro start
    by_cases inside : start ≤ call.now ∧ call.now < start + minute
    · have early : inMinute start dropped = 0 := by
        apply List.countP_eq_zero.mpr
        intro instant member
        have := old instant member
        rw [decide_eq_true_eq]
        omega
      calc
        inMinute start (counted ++ [call.now]) =
            inMinute start dropped + inMinute start usage.recent + 1 := by
          rw [split]
          unfold inMinute
          rw [List.countP_append, List.countP_append, List.countP_singleton, if_pos]
          rw [decide_eq_true_eq]
          exact inside
        _ ≤ usage.recent.length + 1 := by
          rw [early, Nat.zero_add]
          exact Nat.succ_le_succ List.countP_le_length
        _ ≤ ceiling.toNat := room
    · have same : inMinute start (counted ++ [call.now]) = inMinute start counted := by
        unfold inMinute
        rw [List.countP_append, List.countP_singleton, if_neg, Nat.add_zero]
        rw [decide_eq_true_eq]
        exact inside
      rw [same]
      exact bounded start

end Minute

section Day

/-- What is known of the day behind requests that were counted on some days. -/
structure Daily (usage : KeyUsage) (counted : List Nat) (ceiling : UInt32) : Prop where
  current : counted.count usage.day = usage.dayCount.toNat
  past : ∀ day ∈ counted, day ≤ usage.day
  bounded : ∀ day, counted.count day ≤ ceiling.toNat

variable {usage : KeyUsage} {call : AdmitCall} {counted : List Nat} {ceiling : UInt32}

theorem Daily.settle (daily : Daily usage counted ceiling) (rolled : usage.day ≤ call.today) :
    Daily (usage.settle call.now call.today) counted ceiling := by
  refine ⟨?_, fun day member => (daily.past day member).trans rolled, daily.bounded⟩
  change counted.count call.today = (if usage.day = call.today then usage.dayCount else 0).toNat
  split
  · rename_i same
    rw [← same]
    exact daily.current
  · rename_i apart
    apply List.count_eq_zero.mpr
    intro member
    have := daily.past _ member
    omega

theorem Daily.count (daily : Daily usage counted ceiling) (today : usage.day = call.today)
    (room : usage.dayCount < ceiling) :
    Daily (usage.count call) (counted ++ [call.today]) ceiling := by
  have more : (usage.dayCount + 1).toNat = usage.dayCount.toNat + 1 := by
    have below := UInt32.lt_iff_toNat_lt.mp room
    have small := ceiling.toNat_lt
    rw [UInt32.toNat_add]
    apply Nat.mod_eq_of_lt
    change usage.dayCount.toNat + 1 < 2 ^ 32
    omega
  refine ⟨?_, ?_, ?_⟩
  · change (counted ++ [call.today]).count usage.day = (usage.dayCount + 1).toNat
    rw [List.count_append, daily.current, more, today, List.count_singleton_self]
  · intro day member
    rcases List.mem_append.mp member with earlier | now
    · exact daily.past day earlier
    · rw [List.mem_singleton.mp now]
      exact today.ge
  · intro day
    rw [List.count_append]
    by_cases same : call.today = day
    · rw [← same, ← today, daily.current, today, List.count_singleton_self]
      exact UInt32.lt_iff_toNat_lt.mp room
    · rw [List.count_singleton, if_neg (by simpa using same)]
      exact daily.bounded day

end Day

/-- What is known of a key behind the requests that were counted for it, the last look being at
`now`. -/
structure Metered (limit : RateLimit) (usage : KeyUsage) (counted : List AdmitCall) (now : Nat) :
    Prop where
  windowed : ∀ ceiling, limit.perMinute = some ceiling →
    Windowed usage (counted.map AdmitCall.now) now ceiling
  daily : ∀ ceiling, limit.perDay = some ceiling →
    Daily usage (counted.map AdmitCall.today) ceiling

theorem new_metered (limit : RateLimit) : Metered limit .new [] 0 where
  windowed _ _ := ⟨⟨[], rfl, nofun⟩, Nat.zero_le _, fun _ => Nat.zero_le _⟩
  daily _ _ := ⟨rfl, nofun, fun _ => Nat.zero_le _⟩

section Metered

variable {limit : RateLimit} {usage : KeyUsage} {call : AdmitCall} {calls counted : List AdmitCall}
  {now : Nat}

theorem letThrough_error {throttled : Throttled} {rest : List (AdmitCall × Except Throttled Unit)} :
    letThrough ((call, .error throttled) :: rest) = letThrough rest := rfl

theorem letThrough_ok {rest : List (AdmitCall × Except Throttled Unit)} :
    letThrough ((call, .ok ()) :: rest) = call :: letThrough rest := rfl

theorem Metered.settle (metered : Metered limit usage counted now) (passed : now ≤ call.now)
    (rolled : usage.day ≤ call.today) :
    Metered limit (usage.settle call.now call.today) counted call.now where
  windowed ceiling given := (metered.windowed ceiling given).settle passed
  daily ceiling given := (metered.daily ceiling given).settle rolled

theorem Metered.count (metered : Metered limit usage counted call.now) (today : usage.day = call.today)
    (fixed : call.limit = limit) (free : usage.throttle call = none) :
    Metered limit (usage.count call) (counted ++ [call]) call.now := by
  obtain ⟨minute_room, day_room⟩ := throttle_eq_none free
  rw [fixed] at minute_room day_room
  refine ⟨?_, ?_⟩
  · intro ceiling given
    have windowed := metered.windowed ceiling given
    rw [List.map_append]
    apply windowed.count
    -- the window is never long enough to be cut off
    have small := ceiling.toNat_lt
    have short := windowed.short
    have room := UInt32.lt_iff_toNat_lt.mp (minute_room ceiling given)
    rw [UInt32.toNat_ofNat', Nat.mod_eq_of_lt (by omega)] at room
    exact room
  · intro ceiling given
    rw [List.map_append]
    exact (metered.daily ceiling given).count today (day_room ceiling given)

/-- What is known of a key stays known through all its requests. -/
theorem Metered.run (metered : Metered limit usage counted now) (ordered : CallsInOrder calls)
    (passed : ∀ call ∈ calls, now ≤ call.now ∧ usage.day ≤ call.today)
    (fixed : ∀ call ∈ calls, call.limit = limit) :
    ∃ usage' now', Metered limit usage'
      (counted ++ letThrough (answers KeyUsage.admitCall usage calls)) now' := by
  induction calls generalizing usage counted now with
  | nil =>
      refine ⟨usage, now, ?_⟩
      rw [answers, letThrough, List.filter_nil, List.map_nil, List.append_nil]
      exact metered
  | cons call calls ih =>
      obtain ⟨behind, ordered⟩ := List.pairwise_cons.mp ordered
      obtain ⟨now_passed, rolled⟩ := passed call List.mem_cons_self
      have settled := metered.settle now_passed rolled
      have later : ∀ other ∈ calls, call.now ≤ other.now ∧
          (usage.admitCall call).2.day ≤ other.today := by
        intro other member
        obtain ⟨instant, time⟩ := behind other member
        rw [day_admitCall]
        exact ⟨instant, Nat.div_le_div_right time⟩
      have rest_fixed : ∀ other ∈ calls, other.limit = limit :=
        fun other member => fixed other (List.mem_cons_of_mem _ member)
      rw [answers]
      rcases admitCall_cases usage call with ⟨throttled, refused⟩ | ⟨free, through⟩
      · rw [refused] at later ⊢
        rw [letThrough_error]
        exact ih settled ordered later rest_fixed
      · rw [through] at later ⊢
        rw [letThrough_ok, List.append_cons]
        have metered := settled.count rfl (fixed call List.mem_cons_self) free
        exact ih metered ordered later rest_fixed

end Metered

/-- The calls for a key that were let through. -/
def admittedFor (key : String) (decided : List (AdmitCall × Except Throttled Unit)) : List AdmitCall :=
  (letThrough decided).filter fun call => call.keyId = key

theorem admittedFor_decisions (key : String) (calls : List AdmitCall) :
    admittedFor key (decisions calls) =
      letThrough (answers KeyUsage.admitCall .new (calls.filter fun call => call.keyId = key)) := by
  have own := filter_answers AdmitCall.keyId KeyUsage.admitCall RateLimiter.new calls key
  change _ = answers KeyUsage.admitCall .new _ at own
  rw [← own]
  unfold admittedFor letThrough decisions
  rw [List.filter_map, List.filter_filter, List.filter_filter]
  congr 1
  apply List.filter_congr
  intro decision _
  exact Bool.and_comm _ _

section Refused

/-- Limiters that nothing from an instant on can tell apart. -/
def Alike (since : AdmitCall) (limiter other : RateLimiter) : Prop :=
  ∀ key now today, since.now ≤ now → since.today ≤ today →
    (limiter key).settle now today = (other key).settle now today

variable {since call : AdmitCall} {limiter other : RateLimiter}

theorem Alike.step (alike : Alike since limiter other)
    (passed : since.now ≤ call.now ∧ since.unix ≤ call.unix) :
    (stepAt AdmitCall.keyId KeyUsage.admitCall limiter call).1 =
        (stepAt AdmitCall.keyId KeyUsage.admitCall other call).1 ∧
      Alike since (stepAt AdmitCall.keyId KeyUsage.admitCall limiter call).2
        (stepAt AdmitCall.keyId KeyUsage.admitCall other call).2 := by
  have same : (limiter call.keyId).admitCall call = (other call.keyId).admitCall call := by
    unfold KeyUsage.admitCall
    rw [alike call.keyId call.now call.today passed.1 (Nat.div_le_div_right passed.2)]
  unfold stepAt
  rw [same]
  refine ⟨rfl, ?_⟩
  intro key now today later rolled
  dsimp only
  by_cases here : key = call.keyId
  · rw [here, Function.update_self, Function.update_self]
  · rw [Function.update_of_ne here, Function.update_of_ne here]
    exact alike key now today later rolled

theorem refused_alike {throttled : Throttled} (begun : (limiter call.keyId).day ≤ call.today)
    (refused : (stepAt AdmitCall.keyId KeyUsage.admitCall limiter call).1 = .error throttled) :
    Alike call (stepAt AdmitCall.keyId KeyUsage.admitCall limiter call).2 limiter := by
  intro key now today later rolled
  by_cases here : key = call.keyId
  · subst here
    rcases admitCall_cases (limiter call.keyId) call with ⟨_, stopped⟩ | ⟨-, through⟩
    · simp only [stepAt, stopped, Function.update_self]
      exact settle_settle later begun rolled
    · simp only [stepAt, through] at refused
      cases refused
  · simp only [stepAt, Function.update_of_ne here]

/-- A request that is refused changes no other decision. -/
theorem decisions_without_refused {before after : List AdmitCall}
    {decided rest : List (AdmitCall × Except Throttled Unit)} {throttled : Throttled}
    (ordered : CallsInOrder (before ++ call :: after))
    (refused : decisions (before ++ call :: after) = decided ++ (call, .error throttled) :: rest)
    (same_length : decided.length = before.length) :
    decisions (before ++ after) = decided ++ rest := by
  obtain ⟨-, behind, crossing⟩ := List.pairwise_append.mp ordered
  obtain ⟨behind, -⟩ := List.pairwise_cons.mp behind
  unfold decisions at refused ⊢
  rw [answers_append, answers] at refused
  rw [answers_append]
  obtain ⟨first, last⟩ := List.append_inj refused ((length_answers _ _ _).trans same_length.symm)
  injection last with here later
  injection here with _ answered
  rw [first, ← later]
  congr 1
  symm
  apply answers_congr (Alike call)
  · apply refused_alike _ answered
    apply final_invariant (fun limiter : RateLimiter => ∀ key, (limiter key).day ≤ call.today)
    · exact fun _ => Nat.zero_le _
    · intro limiter earlier member days key
      simp only [stepAt]
      by_cases here : key = earlier.keyId
      · subst here
        rw [Function.update_self, day_admitCall]
        exact Nat.div_le_div_right (crossing earlier member call List.mem_cons_self).2
      · rw [Function.update_of_ne here]
        exact days key
  · intro limiter other next member alike
    exact alike.step (behind next member)

end Refused

/-- The ceilings hold in every minute and on every day, a refused request counts towards neither, and
no key has a part in what another may do. -/
theorem rate_limits_hold (limits : String → RateLimit) {calls : List AdmitCall}
    (ordered : CallsInOrder calls) (fixed : ∀ call ∈ calls, call.limit = limits call.keyId) :
    (∀ key ceiling start, (limits key).perMinute = some ceiling →
      inMinute start ((admittedFor key (decisions calls)).map AdmitCall.now) ≤ ceiling.toNat) ∧
    (∀ key ceiling day, (limits key).perDay = some ceiling →
      ((admittedFor key (decisions calls)).map AdmitCall.today).count day ≤ ceiling.toNat) ∧
    (∀ before call after decided throttled rest, calls = before ++ call :: after →
      decisions calls = decided ++ (call, .error throttled) :: rest →
      decided.length = before.length → decisions (before ++ after) = decided ++ rest) ∧
    ∀ key others, (others.filter fun call : AdmitCall => call.keyId = key) =
        calls.filter (fun call => call.keyId = key) →
      (decisions others).filter (fun decision => decision.1.keyId = key) =
        (decisions calls).filter fun decision => decision.1.keyId = key := by
  have metered : ∀ key, ∃ usage now,
      Metered (limits key) usage (admittedFor key (decisions calls)) now := by
    intro key
    rw [admittedFor_decisions]
    refine (new_metered (limits key)).run (ordered.filter _) ?_ ?_
    · exact fun call member => ⟨Nat.zero_le _, Nat.zero_le _⟩
    · intro call member
      obtain ⟨listed, own⟩ := List.mem_filter.mp member
      rw [fixed call listed, of_decide_eq_true own]
  refine ⟨?_, ?_, ?_, ?_⟩
  · intro key ceiling start given
    obtain ⟨usage, now, known⟩ := metered key
    exact (known.windowed ceiling given).bounded start
  · intro key ceiling day given
    obtain ⟨usage, now, known⟩ := metered key
    exact (known.daily ceiling given).bounded day
  · rintro before call after decided throttled rest rfl refused same_length
    exact decisions_without_refused ordered refused same_length
  · intro key others same
    unfold decisions
    rw [filter_answers, filter_answers, same]

/-- Three requests in one minute where two are let through, and one when the first is old enough. -/
def burst : List AdmitCall :=
  [⟨"a", ⟨some 2, some 3⟩, 0, 0, 0⟩, ⟨"a", ⟨some 2, some 3⟩, secondNanos, 1, 1⟩,
    ⟨"a", ⟨some 2, some 3⟩, 59 * secondNanos, 59, 59⟩, ⟨"a", ⟨some 2, some 3⟩, minute, 60, 60⟩]

theorem burst_is_metered :
    (decisions burst).map Prod.snd = [.ok (), .ok (), .error ⟨1, .perMinute⟩, .ok ()] ∧
      inMinute 0 ((admittedFor "a" (decisions burst)).map AdmitCall.now) ≤ (2 : UInt32).toNat := by
  refine ⟨by decide +kernel, ?_⟩
  have ordered : CallsInOrder burst := by
    unfold CallsInOrder
    decide +kernel
  have fixed : ∀ call ∈ burst, call.limit = ⟨some 2, some 3⟩ := by
    decide +kernel
  exact (rate_limits_hold (fun _ => ⟨some 2, some 3⟩) ordered fixed).1 "a" 2 0 rfl

end Lightweight.Gateway
