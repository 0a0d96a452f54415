import Lightstreamer.Session.Backoff

/-!
# The retry policy of the caller

`RetryPolicy` is what the caller asks for, `checkRetry` the checks that the configuration builder
makes of it, and `RetryPolicy.backoff` the schedule's own form of it.
-/

namespace Lightstreamer.Config

open Lightstreamer.Protocol Lightstreamer.Session

/-- Why a configuration is refused, as far as the timings go. -/
inductive TimingError
  | zeroDuration (field : String)
  | durationTooLarge (field : String)
  | retryCeilingBelowInitial (initial max : ℕ)
  deriving DecidableEq

/-- How reconnection attempts are spaced and how many are allowed. -/
structure RetryPolicy where
  initialDelay : ℕ
  maxDelay : ℕ
  maxAttempts : Option NonZeroU32
  deriving DecidableEq

/-- The longest duration that the timers are defined for: a year. -/
def maxTiming : ℕ := ofMillis (365 * 24 * 60 * 60 * 1000)

/-- Check that a duration is greater than zero. -/
def requirePositive (field : String) (value : ℕ) : Except TimingError Unit :=
  if value = 0 then .error (.zeroDuration field) else .ok ()

/-- Check that a duration is one the timers are defined for. -/
def requireWithinMaximum (field : String) (value : ℕ) : Except TimingError Unit :=
  if maxTiming < value then .error (.durationTooLarge field) else .ok ()

/-- The checks of a retry policy. -/
def checkRetry (retry : RetryPolicy) : Except TimingError Unit := do
  requirePositive "retry.initial_delay" retry.initialDelay
  requireWithinMaximum "retry.initial_delay" retry.initialDelay
  requireWithinMaximum "retry.max_delay" retry.maxDelay
  if retry.maxDelay < retry.initialDelay then
    .error (.retryCeilingBelowInitial retry.initialDelay retry.maxDelay)
  else .ok ()

/-- The policy of the session options. -/
def RetryPolicy.backoff (retry : RetryPolicy) : BackoffPolicy :=
  ⟨retry.initialDelay, retry.maxDelay, retry.maxAttempts⟩

/-- A policy is accepted when its delays are in order: positive, and within the longest timing. -/
theorem checkRetry_eq_ok_iff {retry : RetryPolicy} :
    checkRetry retry = .ok () ↔ 0 < retry.initialDelay ∧ retry.initialDelay ≤ retry.maxDelay ∧
      retry.maxDelay ≤ maxTiming := by
  simp only [checkRetry, requirePositive, requireWithinMaximum, bind, Except.bind]
  split_ifs <;> simp only [false_iff, true_iff, not_and] <;> omega

end Lightstreamer.Config
