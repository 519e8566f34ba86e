import Lightweight.Gateway.Limits
import Lightweight.Api.Stream

/-! The advice that goes with a refusal on the ceiling of a minute (`routes.rs`, `limits.rs`): whether
a request that waits as long as it was told to is let through. -/

namespace Lightweight.Gateway

open Lightweight.Store Lightweight.Api Keyed

def Ceiling.which : Ceiling → List Char
  | .perMinute => "per-minute".toList
  | .perDay => "per-day".toList

/-- The answer to a refused request. -/
structure TooManyRequests where
  status : Nat
  body : ErrorBody
  /-- The `Retry-After` header. -/
  retryAfter : List Char

def tooManyRequests (throttled : Throttled) : TooManyRequests :=
  let seconds := Nat.toDigits 10 throttled.retryAfter
  let message := "this key has reached its ".toList ++ throttled.which.which ++
    " request limit; retry in ".toList ++ seconds ++ " seconds".toList
  { status := 429
    body := .invalidRequest message "rate_limited".toList
    retryAfter := seconds }

/-- What is remembered of every key behind some calls. -/
def limiterAfter (calls : List AdmitCall) : RateLimiter :=
  final (stepAt AdmitCall.keyId KeyUsage.admitCall) RateLimiter.new calls

/-- The decision for one more call. -/
def decisionAfter (calls : List AdmitCall) (call : AdmitCall) : Except Throttled Unit :=
  ((limiterAfter calls call.keyId).admitCall call).1

/-- The ceiling of the day, if there is one, has not been reached when the call comes. -/
def DayOpen (usage : KeyUsage) (call : AdmitCall) : Prop :=
  ∀ ceiling, call.limit.perDay = some ceiling →
    (usage.settle call.now call.today).dayCount < ceiling

/-- Whatever is refused to the key in between, a request of the key with the same limit that waits as
many seconds as the header says is let through, as far as the day goes. -/
def RetrySuffices (earlier : List AdmitCall) (refused : AdmitCall) (throttled : Throttled) : Prop :=
  ∀ (between : List AdmitCall) (later : AdmitCall),
    later.keyId = refused.keyId → later.limit = refused.limit →
    refused.now + Nat.ofDigitChars 10 (tooManyRequests throttled).retryAfter 0 * secondNanos ≤
      later.now →
    (∀ call ∈ between, call.keyId = refused.keyId → call.now ≤ later.now) →
    (∀ before call after, between = before ++ call :: after → call.keyId = refused.keyId →
      decisionAfter (earlier ++ refused :: before) call ≠ .ok ()) →
    DayOpen (limiterAfter (earlier ++ refused :: between) later.keyId) later →
    decisionAfter (earlier ++ refused :: between) later = .ok ()

/-- The requests remembered that are younger than a minute at an instant, as far as they come behind
all that are not. -/
def KeyUsage.remembered (usage : KeyUsage) (now : Nat) : List Nat :=
  usage.recent.dropWhile fun front => minute ≤ now - front

/-- From as many seconds on behind a call, fewer requests are remembered than the limit allows. -/
def Frees (usage : KeyUsage) (call : AdmitCall) (seconds : Nat) : Prop :=
  ∀ ceiling, call.limit.perMinute = some ceiling →
    ∀ now, call.now + seconds * secondNanos ≤ now →
      UInt32.ofNat (usage.remembered now).length < ceiling

/-! ### The window -/

section Window

variable {usage : KeyUsage} {call : AdmitCall} {calls : List AdmitCall} {now : Nat}

theorem remembered_admitCall (refused : (usage.admitCall call).1 ≠ .ok ()) (passed : call.now ≤ now) :
    (usage.admitCall call).2.remembered now = usage.remembered now := by
  rcases admitCall_cases usage call with ⟨throttled, told⟩ | ⟨-, told⟩
  · rw [told]
    apply dropWhile_dropWhile
    intro front old
    rw [decide_eq_true_eq] at old ⊢
    omega
  · rw [told] at refused
    exact absurd rfl refused

/-- Refused requests change nothing that counts later. -/
theorem remembered_final (passed : ∀ call ∈ calls, call.now ≤ now)
    (refused : ∀ before call after, calls = before ++ call :: after →
      ((final KeyUsage.admitCall usage before).admitCall call).1 ≠ .ok ()) :
    (final KeyUsage.admitCall usage calls).remembered now = usage.remembered now := by
  induction calls generalizing usage with
  | nil => rfl
  | cons call calls ih =>
      have first := refused [] call calls rfl
      rw [List.forall_mem_cons] at passed
      have behind : ∀ before other after, calls = before ++ other :: after →
          ((final KeyUsage.admitCall (usage.admitCall call).2 before).admitCall other).1 ≠ .ok () := by
        intro before other after split
        exact refused (call :: before) other after (congrArg (call :: ·) split)
      exact (ih passed.2 behind).trans (remembered_admitCall first passed.1)

/-- A request is let through when both ceilings are above what is counted. -/
theorem admitCall_ok_iff (dayOpen : DayOpen usage call) :
    (usage.admitCall call).1 = .ok () ↔ ∀ ceiling, call.limit.perMinute = some ceiling →
      UInt32.ofNat (usage.remembered call.now).length < ceiling := by
  constructor
  · intro through
    rcases admitCall_cases usage call with ⟨throttled, told⟩ | ⟨free, -⟩
    · rw [told] at through
      cases through
    · exact (throttle_eq_none free).1
  · intro room
    have below_minute : ¬call.limit.perMinute.any (fun perMinute =>
        perMinute ≤ UInt32.ofNat (usage.settle call.now call.today).recent.length) = true := by
      intro reached
      obtain ⟨ceiling, given, reached⟩ := (Option.any_eq_true _ _).mp reached
      exact absurd (of_decide_eq_true reached) (UInt32.not_le.mpr (room ceiling given))
    have below_day : ¬call.limit.perDay.any (fun perDay =>
        perDay ≤ (usage.settle call.now call.today).dayCount) = true := by
      intro reached
      obtain ⟨ceiling, given, reached⟩ := (Option.any_eq_true _ _).mp reached
      exact absurd (of_decide_eq_true reached) (UInt32.not_le.mpr (dayOpen ceiling given))
    have free : (usage.settle call.now call.today).throttle call = none := by
      rw [KeyUsage.throttle, if_neg below_minute, if_neg below_day]
    unfold KeyUsage.admitCall
    dsimp only
    rw [free]

/-- As long as 32 bits count what is remembered, the first instant decides. -/
theorem frees_iff_at_first {seconds : Nat} (few : usage.recent.length < UInt32.size) :
    Frees usage call seconds ↔ ∀ ceiling, call.limit.perMinute = some ceiling →
      (usage.remembered (call.now + seconds * secondNanos)).length < ceiling.toNat := by
  have counted : ∀ now, (UInt32.ofNat (usage.remembered now).length).toNat =
      (usage.remembered now).length := by
    intro now
    have shorter := (List.dropWhile_sublist (fun front => minute ≤ now - front)
      (l := usage.recent)).length_le
    exact UInt32.toNat_ofNat_of_lt' (lt_of_le_of_lt shorter few)
  constructor
  · intro frees ceiling given
    have room := UInt32.lt_iff_toNat_lt.mp (frees ceiling given _ (Nat.le_refl _))
    rwa [counted] at room
  · intro room ceiling given now passed
    rw [UInt32.lt_iff_toNat_lt, counted]
    have later : (usage.remembered (call.now + seconds * secondNanos)).dropWhile
        (fun front => minute ≤ now - front) = usage.remembered now := by
      apply dropWhile_dropWhile
      intro front old
      rw [decide_eq_true_eq] at old ⊢
      omega
    rw [← later]
    exact lt_of_le_of_lt (List.dropWhile_sublist _).length_le (room ceiling given)

end Window

theorem limiterAfter_append (earlier others : List AdmitCall) (key : String) :
    limiterAfter (earlier ++ others) key = final KeyUsage.admitCall (limiterAfter earlier key)
      (others.filter fun call => call.keyId = key) := by
  unfold limiterAfter
  rw [final_stepAt, final_stepAt, List.filter_append]
  exact List.foldl_append

/-- The window of the key when a request comes behind the refused one and others that were refused. -/
theorem remembered_later {earlier between : List AdmitCall} {refused : AdmitCall} {now : Nat}
    (limited : decisionAfter earlier refused ≠ .ok ()) (passed : refused.now ≤ now)
    (between_passed : ∀ call ∈ between, call.keyId = refused.keyId → call.now ≤ now)
    (between_refused : ∀ before call after, between = before ++ call :: after →
      call.keyId = refused.keyId → decisionAfter (earlier ++ refused :: before) call ≠ .ok ()) :
    (limiterAfter (earlier ++ refused :: between) refused.keyId).remembered now =
      (limiterAfter earlier refused.keyId).remembered now := by
  rw [limiterAfter_append, List.filter_cons, if_pos (decide_eq_true rfl)]
  apply remembered_final
  · intro call member
    rcases List.mem_cons.mp member with same | listed
    · rw [same]
      exact passed
    · obtain ⟨listed, own⟩ := List.mem_filter.mp listed
      exact between_passed call listed (of_decide_eq_true own)
  · intro before call after split
    cases before with
    | nil =>
        injection split with same _
        rw [← same]
        exact limited
    | cons first before =>
        injection split with same split
        obtain ⟨front, back, whole, kept, behind⟩ := List.filter_eq_append_iff.mp split
        obtain ⟨others, tail, back_eq, foreign, own, -⟩ := List.filter_eq_cons_iff.mp behind
        have own : call.keyId = refused.keyId := of_decide_eq_true own
        have told := between_refused (front ++ others) call tail
          (by rw [whole, back_eq, List.append_assoc]) own
        have none_own : others.filter (fun call => call.keyId = refused.keyId) = [] :=
          List.filter_eq_nil_iff.mpr foreign
        unfold decisionAfter at told
        rw [own, limiterAfter_append, List.filter_cons, if_pos (decide_eq_true rfl),
          List.filter_append, kept, none_own, List.append_nil] at told
        rw [← same]
        exact told

/-- A request of a key that may make one in a minute, so many nanoseconds after the start. -/
def oneInAMinute (now : Nat) : AdmitCall := ⟨"key", ⟨some 1, none⟩, now, 0, 0⟩

end Lightweight.Gateway
