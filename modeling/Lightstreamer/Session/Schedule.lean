import Lightstreamer.Config.Retry

/-!
# The schedule over any calls

A reconnection schedule is asked for delays and reset, in any order. `Tally` counts the calls since
the last reset and the delays granted since then, and `Follows` says that the schedule is a function
of the two: the base is the first delay doubled once for each delay granted, up to the ceiling, and
the attempts are the calls, up to the largest `u32`. From one call (`Follows.after`) follows any
sequence of calls (`follows_foldl`).

A call meets its policy (`Meets`) when it grants at most the ceiling of its turn, and refuses
exactly behind the budget. The limit of the counter is a budget of its own: `meets_iff` says when it
shows.
-/

namespace Lightstreamer.Session

open Lightstreamer.Protocol Lightstreamer.Config

namespace Jitter

/-- A delay is drawn within its bound. -/
theorem below_le (j : Jitter) (bound : ℕ) : (j.below bound).1 ≤ bound := by
  unfold below checkedAdd
  split
  · next range hrange =>
    split_ifs at hrange
    cases hrange
    have hlt := Nat.mod_lt j.nextU64.1.toNat (show 0 < min bound u64Max + 1 by omega)
    show j.nextU64.1.toNat % (min bound u64Max + 1) ≤ bound
    omega
  · exact Nat.le_refl bound

end Jitter

namespace Backoff

variable {b : Backoff} {policy : BackoffPolicy}

/-- A call on the schedule. -/
inductive Call
  | nextDelay
  | reset
  deriving DecidableEq

/-- The calls of `nextDelay` since the last reset, and how many of them were granted a delay. -/
structure Tally where
  calls : ℕ
  granted : ℕ
  deriving DecidableEq

/-- The schedule and the tally after a call. -/
def after (p : Backoff × Tally) : Call → Backoff × Tally
  | .nextDelay =>
    (p.1.nextDelay.2, ⟨p.2.calls + 1, p.2.granted + if p.1.nextDelay.1.isSome then 1 else 0⟩)
  | .reset => (p.1.reset, ⟨0, 0⟩)

/-- The answer to a call meets the policy, after the calls that were tallied: the delay is within
the first one doubled once for each delay granted, and within the ceiling; and a delay is granted
exactly as long as the budget lasts. -/
def Meets (policy : BackoffPolicy) (tally : Tally) : Option ℕ → Prop
  | some delay => delay ≤ min (policy.initial * 2 ^ tally.granted) policy.max ∧
      ∀ max, policy.maxAttempts = some max → tally.calls < max.val
  | none => ∃ max, policy.maxAttempts = some max ∧ max.val ≤ tally.calls

/-- A schedule in the state that a policy and a tally give it. -/
structure Follows (policy : BackoffPolicy) (b : Backoff) (tally : Tally) : Prop where
  policy_eq : b.policy = policy
  attempts_eq : b.attempts = min tally.calls u32Max
  base_eq : b.base = min (policy.initial * 2 ^ tally.granted) policy.max

/-! ## One call -/

theorem nextDelay_eq (b : Backoff) :
    b.nextDelay =
      if u32Max ≤ b.attempts then (none, b)
      else if b.policy.maxAttempts.any fun max => max.val < b.attempts + 1 then
        (none, { b with attempts := b.attempts + 1 })
      else (some (b.jitter.below b.base).1, { b with
        attempts := b.attempts + 1
        base := min ((checkedMul durationMax b.base 2).getD b.policy.max) b.policy.max
        jitter := (b.jitter.below b.base).2 }) := by
  unfold nextDelay checkedAdd
  by_cases h : u32Max ≤ b.attempts
  · rw [if_pos h, if_neg (by omega)]
  · rw [if_neg h, if_pos (by omega)]

/-- The base doubles, up to the ceiling. -/
theorem doubled_eq {initial max granted : ℕ} (hmax : max ≤ durationMax) :
    min ((checkedMul durationMax (min (initial * 2 ^ granted) max) 2).getD max) max =
      min (initial * 2 ^ (granted + 1)) max := by
  have hpow : initial * 2 ^ (granted + 1) = initial * 2 ^ granted * 2 := by
    rw [pow_succ, Nat.mul_assoc]
  rw [hpow]
  generalize initial * 2 ^ granted = reached
  unfold checkedMul
  split_ifs with h
  · show min (min reached max * 2) max = _
    omega
  · show min max max = _
    omega

namespace Follows

variable {tally : Tally}

theorem start (h : policy.initial ≤ policy.max) (jitter : Jitter) :
    Follows policy ⟨policy, 0, policy.initial, jitter⟩ ⟨0, 0⟩ := by
  refine ⟨rfl, rfl, ?_⟩
  show policy.initial = min (policy.initial * 1) policy.max
  omega

theorem reset (h : Follows policy b tally) (hinitial : policy.initial ≤ policy.max) :
    Follows policy b.reset ⟨0, 0⟩ := by
  refine ⟨h.policy_eq, rfl, ?_⟩
  show b.policy.initial = min (policy.initial * 1) policy.max
  rw [h.policy_eq]
  omega

/-- One call keeps the schedule in step with the tally. -/
theorem nextDelay (h : Follows policy b tally) (hmax : policy.max ≤ durationMax) :
    Follows policy b.nextDelay.2
      ⟨tally.calls + 1, tally.granted + if b.nextDelay.1.isSome then 1 else 0⟩ := by
  obtain ⟨hpolicy, hattempts, hbase⟩ := h
  rw [nextDelay_eq]
  by_cases hcounter : u32Max ≤ b.attempts
  · rw [if_pos hcounter]
    refine ⟨hpolicy, ?_, hbase⟩
    show b.attempts = min (tally.calls + 1) u32Max
    omega
  rw [if_neg hcounter]
  have hcalls : b.attempts + 1 = min (tally.calls + 1) u32Max := by omega
  by_cases hspent : b.policy.maxAttempts.any fun max => max.val < b.attempts + 1
  · rw [if_pos hspent]
    exact ⟨hpolicy, hcalls, hbase⟩
  · rw [if_neg hspent]
    refine ⟨hpolicy, hcalls, ?_⟩
    show min ((checkedMul durationMax b.base 2).getD b.policy.max) b.policy.max = _
    rw [hpolicy, hbase]
    exact doubled_eq hmax

/-- The answer to a call meets the policy, unless the counter is at its limit and the policy has
none. -/
theorem meets_iff (h : Follows policy b tally) :
    Meets policy tally b.nextDelay.1 ↔ policy.maxAttempts ≠ none ∨ tally.calls < u32Max := by
  obtain ⟨hpolicy, hattempts, hbase⟩ := h
  have hdelay := b.jitter.below_le b.base
  rw [hbase] at hdelay
  rw [nextDelay_eq, hpolicy, hattempts]
  cases hbudget : policy.maxAttempts with
  | none =>
    by_cases hcounter : u32Max ≤ tally.calls
    · rw [if_pos (by omega)]
      constructor
      · rintro ⟨max, hmax, -⟩
        rw [hbudget] at hmax
        cases hmax
      · rintro (h | h)
        · exact absurd rfl h
        · omega
    · rw [if_neg (by omega), Option.any_none, if_neg Bool.false_ne_true]
      refine iff_of_true ⟨by rwa [hbase], fun max hmax => ?_⟩ (.inr (by omega))
      rw [hbudget] at hmax
      cases hmax
  | some max =>
    refine iff_of_true ?_ (.inl (Option.some_ne_none max))
    have hmax := max.le
    by_cases hcounter : u32Max ≤ min tally.calls u32Max
    · rw [if_pos hcounter]
      exact ⟨max, hbudget, by omega⟩
    rw [if_neg hcounter, Option.any_some]
    by_cases hspent : max.val < min tally.calls u32Max + 1
    · rw [if_pos (decide_eq_true hspent)]
      exact ⟨max, hbudget, by omega⟩
    · rw [if_neg (by rw [decide_eq_true_eq]; exact hspent)]
      refine ⟨by rwa [hbase], fun max' hmax' => ?_⟩
      cases hbudget.symm.trans hmax'
      omega

/-- Any call keeps the schedule in step with the tally. -/
theorem after {p : Backoff × Tally} (h : Follows policy p.1 p.2)
    (hinitial : policy.initial ≤ policy.max) (hmax : policy.max ≤ durationMax) (call : Call) :
    Follows policy (Backoff.after p call).1 (Backoff.after p call).2 := by
  cases call with
  | nextDelay => exact h.nextDelay hmax
  | reset => exact h.reset hinitial

end Follows

/-- Along any calls, the schedule is in step with the tally. -/
theorem follows_foldl {p : Backoff × Tally} (h : Follows policy p.1 p.2)
    (hinitial : policy.initial ≤ policy.max) (hmax : policy.max ≤ durationMax)
    (calls : List Call) :
    Follows policy (calls.foldl after p).1 (calls.foldl after p).2 := by
  induction calls generalizing p with
  | nil => exact h
  | cons call calls ih => exact ih (h.after hinitial hmax call)

theorem follows_calls {retry : RetryPolicy} (h : checkRetry retry = .ok ()) (jitter : Jitter)
    (calls : List Call) :
    Follows retry.backoff
      (calls.foldl after (⟨retry.backoff, 0, retry.initialDelay, jitter⟩, ⟨0, 0⟩)).1
      (calls.foldl after (⟨retry.backoff, 0, retry.initialDelay, jitter⟩, ⟨0, 0⟩)).2 := by
  obtain ⟨-, hinitial, htiming⟩ := checkRetry_eq_ok_iff.mp h
  have hlimit : maxTiming ≤ durationMax := by decide
  exact follows_foldl (.start hinitial jitter) hinitial (htiming.trans hlimit) calls

/-- **When a call meets its policy.** For a policy that the configuration accepts, any state of the
generator and any calls before: the answer to a call of `nextDelay` is what the policy says if and
only if the policy has a budget, or fewer calls than the largest `u32` came since the last reset. -/
theorem meets_after_calls_iff {retry : RetryPolicy} (h : checkRetry retry = .ok ())
    (jitter : Jitter) (calls : List Call) :
    let p := calls.foldl after (⟨retry.backoff, 0, retry.initialDelay, jitter⟩, ⟨0, 0⟩)
    Meets retry.backoff p.2 p.1.nextDelay.1 ↔
      retry.maxAttempts ≠ none ∨ p.2.calls < u32Max :=
  (follows_calls h jitter calls).meets_iff

/-- A policy of three attempts, after one refused call and a reset. -/
theorem meets_after_calls_iff_three :
    let p := [Call.nextDelay, .nextDelay, .nextDelay, .nextDelay, .reset].foldl after
      (⟨(RetryPolicy.mk 500 4000 (some ⟨3, by decide, by decide⟩)).backoff, 0, 500, ⟨7⟩⟩, ⟨0, 0⟩)
    Meets (RetryPolicy.mk 500 4000 (some ⟨3, by decide, by decide⟩)).backoff p.2
        p.1.nextDelay.1 ↔
      some (NonZeroU32.mk 3 (by decide) (by decide)) ≠ none ∨ p.2.calls < u32Max :=
  @meets_after_calls_iff (RetryPolicy.mk 500 4000 (some ⟨3, by decide, by decide⟩)) (by decide)
    ⟨7⟩ [Call.nextDelay, .nextDelay, .nextDelay, .nextDelay, .reset]

/-- Any number of calls may come in a row. -/
theorem exists_calls (n : ℕ) (b : Backoff) :
    ∃ calls : List Call, (calls.foldl after (b, ⟨0, 0⟩)).2.calls = n := by
  have key : ∀ p : Backoff × Tally,
      ((List.replicate n Call.nextDelay).foldl after p).2.calls = p.2.calls + n := by
    induction n with
    | zero => exact fun p => rfl
    | succ n ih =>
      intro p
      rw [List.replicate_succ, List.foldl_cons, ih]
      show p.2.calls + 1 + n = p.2.calls + (n + 1)
      omega
  exact ⟨_, (key _).trans (Nat.zero_add n)⟩

/-- Without a budget, a delay is refused once the counter of attempts is at its limit. -/
theorem unbounded_policy_exhausts :
    ¬∀ calls : List Call,
      let p := calls.foldl after (⟨(RetryPolicy.mk 500 4000 none).backoff, 0, 500, ⟨7⟩⟩, ⟨0, 0⟩)
      Meets (RetryPolicy.mk 500 4000 none).backoff p.2 p.1.nextDelay.1 := by
  intro h
  obtain ⟨calls, hcalls⟩ :=
    exists_calls u32Max ⟨(RetryPolicy.mk 500 4000 none).backoff, 0, 500, ⟨7⟩⟩
  have hfollows := @follows_calls (RetryPolicy.mk 500 4000 none) (by decide) ⟨7⟩ calls
  rcases hfollows.meets_iff.mp (h calls) with hbudget | hlt
  · exact hbudget rfl
  · exact absurd (hcalls ▸ hlt) (Nat.lt_irrefl _)

end Backoff

end Lightstreamer.Session
