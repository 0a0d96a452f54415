import Lightstreamer.Protocol.Basic

/-!
# Durations and the reconnection backoff

A `Duration` is its number of nanoseconds. `Backoff` is the reconnection schedule: the base doubles
up to a ceiling, the delay is drawn below the base by an xorshift generator (`Jitter`), and the
number of consecutive failed attempts is bounded by the policy. Its three facts are
`Backoff.attempts_nextDelay`, `Backoff.policy_nextDelay` and `Backoff.nextDelay_bounded`.
-/

namespace Lightstreamer.Session

open Lightstreamer.Protocol

/-! ## Durations -/

/-- The longest `Duration`. -/
abbrev durationMax : ℕ := u64Max * 10 ^ 9 + 999999999

/-- `Duration::from_millis`. -/
def ofMillis (millis : ℕ) : ℕ := millis * 10 ^ 6

/-- The digits of a fraction whose leading digit weighs `divisor`, without trailing zeros. -/
def fractionDigits : ℕ → ℕ → ℕ → List Char
  | 0, _, _ => []
  | fuel + 1, fraction, divisor =>
    if fraction = 0 then []
    else Char.ofNat (48 + fraction / divisor) ::
      fractionDigits fuel (fraction % divisor) (divisor / 10)

/-- An integer part, and the fraction unless it is zero. -/
def decimal (integer fraction divisor : ℕ) (suffix : String) : String :=
  integer.repr ++
    (if fraction = 0 then "" else "." ++ String.ofList (fractionDigits 9 fraction divisor)) ++
    suffix

/-- The `Debug` text of a duration. -/
def durationDebug (duration : ℕ) : String :=
  let secs := duration / 10 ^ 9
  let nanos := duration % 10 ^ 9
  if 0 < secs then decimal secs nanos (10 ^ 8) "s"
  else if 10 ^ 6 ≤ nanos then decimal (nanos / 10 ^ 6) (nanos % 10 ^ 6) (10 ^ 5) "ms"
  else if 10 ^ 3 ≤ nanos then decimal (nanos / 10 ^ 3) (nanos % 10 ^ 3) (10 ^ 2) "µs"
  else decimal nanos 0 1 "ns"

example : durationDebug (ofMillis 13500) = "13.5s" := by decide

/-! ## Jitter -/

/-- The state of the xorshift generator. -/
structure Jitter where
  state : UInt64
  deriving DecidableEq

namespace Jitter

/-- Zero is not a valid state. -/
def fromSeed (seed : UInt64) : Jitter := ⟨if seed = 0 then 0x9E3779B97F4A7C15 else seed⟩

def nextU64 (j : Jitter) : UInt64 × Jitter :=
  let x := j.state
  let x := x ^^^ (x >>> 12)
  let x := x ^^^ (x <<< 25)
  let x := x ^^^ (x >>> 27)
  (x * 0x2545F4914F6CDD1D, ⟨x⟩)

/-- Draw a duration in `[0, bound]`. -/
def below (j : Jitter) (bound : ℕ) : ℕ × Jitter :=
  match checkedAdd u64Max (min bound u64Max) 1 with
  | some range => (j.nextU64.1.toNat % range, j.nextU64.2)
  | none => (bound, j)

end Jitter

/-! ## The schedule -/

structure BackoffPolicy where
  initial : ℕ
  max : ℕ
  maxAttempts : Option NonZeroU32
  deriving DecidableEq

structure Backoff where
  policy : BackoffPolicy
  attempts : ℕ
  base : ℕ
  jitter : Jitter
  deriving DecidableEq

namespace Backoff

def new (policy : BackoffPolicy) (seed : UInt64) : Backoff :=
  ⟨policy, 0, policy.initial, .fromSeed seed⟩

/-- Record a failed attempt: the delay before the next one, or `none` when the budget is spent. -/
def nextDelay (b : Backoff) : Option ℕ × Backoff :=
  match checkedAdd u32Max b.attempts 1 with
  | none => (none, b)
  | some attempts =>
    if (b.policy.maxAttempts.any fun max => max.val < attempts) then
      (none, { b with attempts := attempts })
    else
      let (delay, jitter) := b.jitter.below b.base
      let doubled := ((checkedMul durationMax b.base 2).getD b.policy.max)
      (some delay,
      { b with attempts := attempts, base := min doubled b.policy.max, jitter := jitter })

/-- Clear the schedule after a successful bind. -/
def reset (b : Backoff) : Backoff := { b with attempts := 0, base := b.policy.initial }

@[simp] theorem policy_nextDelay (b : Backoff) : b.nextDelay.2.policy = b.policy := by
  unfold nextDelay
  split
  · rfl
  · split <;> rfl

/-- An attempt that the schedule allows is counted. -/
theorem attempts_nextDelay {b : Backoff} {delay : ℕ} (h : b.nextDelay.1 = some delay) :
    b.nextDelay.2.attempts = b.attempts + 1 := by
  unfold nextDelay checkedAdd at *
  split at h
  · cases h
  · rename_i n hn
    split at hn
    · cases hn
      split at h
      · cases h
      · rename_i h'
        simp only [h', if_false, Bool.false_eq_true]
    · cases hn

/-- **A bounded policy allows as many consecutive attempts as it says.** -/
theorem nextDelay_bounded {b : Backoff} {delay : ℕ} {max : NonZeroU32}
    (hmax : b.policy.maxAttempts = some max) (h : b.nextDelay.1 = some delay) :
    b.nextDelay.2.attempts ≤ max.val := by
  have hattempts := attempts_nextDelay h
  unfold nextDelay checkedAdd at h
  split at h
  · cases h
  · rename_i n hn
    split at hn
    · cases hn
      split at h
      · cases h
      · rename_i h'
        rw [hattempts]
        simpa [hmax] using h'
    · cases hn

end Backoff

end Lightstreamer.Session
