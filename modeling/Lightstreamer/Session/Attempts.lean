import Lightstreamer.Session.Turns
import Lightstreamer.Session.Schedule

/-!
# The attempts that the driver reports

A run that ends with `RetriesExhausted` says how many consecutive attempts failed. `Attempts` counts
them over the run: an attempt is lost when it fails or is rejected, and it is barren when a refresh
of the session ends it before anything was delivered. A clean end, a bind, and a refresh of a
session that delivered something end the row.

The driver keeps two counters instead. The schedule counts the attempts, but starts over at a bind
and at the first refresh in a row, and the streak of refreshes ends the run at a limit of its own.
`Counted` says what the two counters are worth: the schedule is behind the row exactly when it left
out a barren attempt of the row (`missed`). From one turn (`step_reckoned`) follows every run:
`reported_attempts_iff` says when the number in the report is the number of attempts, and that the
refreshes in a row stay within one of the maximum.
-/

namespace Lightstreamer.Session

open Lightstreamer.Foundations Lightstreamer.Protocol

/-- The attempts of a run so far: what was heard on the present stream connection, the attempts
lost or barren in a row, whether the schedule left one of them out, the refreshes in a row without
a data notification between them, and whether a refresh ended the last attempt. -/
structure Attempts where
  bound : Bool := false
  delivered : Bool := false
  failed : ℕ := 0
  missed : Bool := false
  refreshes : ℕ := 0
  byRefresh : Bool := false
  deriving DecidableEq

namespace Attempts

/-- A line on the present stream connection. -/
def hear (a : Attempts) (n : Notification) : Attempts :=
  { a with
    bound := a.bound || isBind n
    delivered := a.delivered || isData n
    refreshes := if isData n then 0 else a.refreshes }

/-- The attempt failed or was rejected. The loss of a connection that was bound is the first of a
new row. -/
def lost (a : Attempts) : Attempts :=
  if a.bound then { failed := 1 } else { failed := a.failed + 1, missed := a.missed }

/-- A refresh of the session ended the attempt. A barren attempt counts, but the schedule leaves it
out when the refresh is the first one in a row, and when a bind has just cleared the schedule. -/
def refreshed (a : Attempts) : Attempts :=
  if a.delivered then { refreshes := a.refreshes + 1, byRefresh := true }
  else
    { failed := a.failed + 1
      missed := a.missed || a.refreshes = 0 || (a.bound && 0 < a.failed)
      refreshes := a.refreshes + 1
      byRefresh := true }

/-- The end of an attempt. -/
def ended (a : Attempts) : UnbindReason → Attempts
  | .connectionFailed _ | .keepaliveExpired _ | .rejected _ => a.lost
  | .serverRefresh _ => a.refreshed
  | .forcedByClient _ | .contentLengthReached _ | .pollCycleExpired _ | .looped _ => {}

/-- What a turn of the pump leads to. -/
def outcome (a : Attempts) : Flow → Attempts
  | .unbind reason => a.ended reason
  | .continue | .closed _ => a

/-- The attempts after a turn of the driver. -/
def follow (s : Drive) (i : Input) (a : Attempts) : Attempts :=
  let a := (i.notification.map a.hear).getD a
  match s.phase with
  | .opening =>
    match i.wake with
    | .openFailed _ | .openTimedOut => a.lost
    | _ => a
  | .pumping =>
    ((Drive.pumpTurn (s.driver.withTurn i.turn) i.wake).map fun r => a.outcome r.1).getD a
  | .waiting _ | .closed _ => a

/-- The schedule is exact for the report of a run: it has a maximum that its counter can exceed, no
barren attempt of the row was left out, and the last attempt was not ended by a refresh. -/
def Exact (policy : BackoffPolicy) (a : Attempts) : Prop :=
  (∃ max, policy.maxAttempts = some max ∧ max.val < u32Max) ∧ a.missed = false ∧
    a.byRefresh = false

variable {a : Attempts}

theorem lost_of_bound (h : a.bound = true) : a.lost = { failed := 1 } := if_pos h

theorem lost_of_unbound (h : a.bound = false) :
    a.lost = { failed := a.failed + 1, missed := a.missed } :=
  if_neg (h ▸ Bool.false_ne_true)

theorem refreshed_of_delivered (h : a.delivered = true) :
    a.refreshed = { refreshes := a.refreshes + 1, byRefresh := true } :=
  if_pos h

theorem refreshed_of_barren (h : a.delivered = false) :
    a.refreshed =
      { failed := a.failed + 1
        missed := a.missed || a.refreshes = 0 || (a.bound && 0 < a.failed)
        refreshes := a.refreshes + 1
        byRefresh := true } :=
  if_neg (h ▸ Bool.false_ne_true)

@[simp] theorem lost_refreshes (a : Attempts) : a.lost.refreshes = 0 := by
  unfold lost
  split_ifs <;> rfl

@[simp] theorem refreshed_refreshes (a : Attempts) :
    a.refreshed.refreshes = a.refreshes + 1 := by
  unfold refreshed
  split_ifs <;> rfl

@[simp] theorem lost_byRefresh (a : Attempts) : a.lost.byRefresh = false := by
  unfold lost
  split_ifs <;> rfl

@[simp] theorem refreshed_byRefresh (a : Attempts) : a.refreshed.byRefresh = true := by
  unfold refreshed
  split_ifs <;> rfl

theorem ended_refreshes_le (a : Attempts) (reason : UnbindReason) :
    (a.ended reason).refreshes ≤ a.refreshes + 1 := by
  cases reason <;> simp [ended]

end Attempts

/-! ## One call of the schedule -/

namespace Backoff

/-- What a call of the schedule does to the attempts it has counted. -/
theorem nextDelay_cases (b : Backoff) :
    ((∃ delay, b.nextDelay.1 = some delay) ∧ b.nextDelay.2.attempts = b.attempts + 1 ∧
      b.attempts < u32Max ∧ ∀ max, b.policy.maxAttempts = some max → b.attempts < max.val) ∨
    (b.nextDelay.1 = none ∧ b.nextDelay.2.attempts = b.attempts ∧ u32Max ≤ b.attempts) ∨
    (b.nextDelay.1 = none ∧ b.nextDelay.2.attempts = b.attempts + 1 ∧ b.attempts < u32Max ∧
      ∃ max, b.policy.maxAttempts = some max ∧ max.val ≤ b.attempts) := by
  rw [nextDelay_eq]
  by_cases hcounter : u32Max ≤ b.attempts
  · rw [if_pos hcounter]
    exact .inr (.inl ⟨rfl, rfl, hcounter⟩)
  rw [if_neg hcounter]
  by_cases hspent : b.policy.maxAttempts.any fun max => max.val < b.attempts + 1
  · rw [if_pos hspent]
    obtain ⟨max, hmax, hlt⟩ := (Option.any_eq_true _ _).mp hspent
    have hlt := of_decide_eq_true hlt
    exact .inr (.inr ⟨rfl, rfl, by omega, max, hmax, by omega⟩)
  · rw [if_neg hspent]
    refine .inl ⟨⟨_, rfl⟩, rfl, by omega, fun max hmax => ?_⟩
    rw [hmax, Option.any_some, decide_eq_true_eq] at hspent
    omega

end Backoff

/-! ## What the counters are worth -/

/-- What the schedule and the streak of refreshes know about the attempts. A bind clears the
schedule, and from then on it says nothing about the row. -/
structure Counted (policy : BackoffPolicy) (d : Lifecycle) (a : Attempts) : Prop where
  policy_eq : d.backoff.policy = policy
  options_eq : d.options.backoff = policy
  bound_iff : a.bound = true ↔ d.streamState = .bound
  streak_eq : d.refreshStreak = min a.refreshes u32Max
  delivered : a.delivered = true → a.refreshes = 0
  row : a.missed = true → 0 < a.failed
  cleared : a.bound = true → d.backoff.attempts = 0
  behind : a.bound = false → d.backoff.attempts ≤ a.failed
  exact_iff : a.bound = false → (d.backoff.attempts = a.failed ↔ a.missed = false)
  refreshed : 0 < a.refreshes → d.backoff.attempts < a.refreshes
  budget : ∀ max, policy.maxAttempts = some max → d.backoff.attempts ≤ max.val
  limit : ∀ max, policy.maxAttempts = some max → max.val < u32Max → a.refreshes ≤ max.val

namespace Counted

variable {policy : BackoffPolicy} {d : Lifecycle} {a : Attempts}

/-- Nothing else of the lifecycle matters. -/
theorem of_eq {d' : Lifecycle} (h : Counted policy d a) (hbackoff : d'.backoff = d.backoff)
    (hoptions : d'.options = d.options) (hstate : d'.streamState = d.streamState)
    (hstreak : d'.refreshStreak = d.refreshStreak) : Counted policy d' a := by
  obtain ⟨hpolicy, hopt, hbound, hstk, hdelivered, hrow, hcleared, hbehind, hexact, hrefreshed,
    hbudget, hlimit⟩ := h
  rw [← hbackoff] at hpolicy hcleared hbehind hexact hrefreshed hbudget
  rw [← hoptions] at hopt
  rw [← hstate] at hbound
  rw [← hstreak] at hstk
  exact ⟨hpolicy, hopt, hbound, hstk, hdelivered, hrow, hcleared, hbehind, hexact, hrefreshed,
    hbudget, hlimit⟩

/-- Between two attempts nothing was heard yet, and the schedule is behind the row if it left an
attempt out. -/
theorem between (hpolicy : d.backoff.policy = policy) (hoptions : d.options.backoff = policy)
    (hstate : d.streamState = .establishing) (hstreak : d.refreshStreak = min a.refreshes u32Max)
    (hbound : a.bound = false) (hdelivered : a.delivered = false)
    (hle : d.backoff.attempts ≤ a.failed)
    (hexact : d.backoff.attempts = a.failed ↔ a.missed = false)
    (hrefreshed : 0 < a.refreshes → d.backoff.attempts < a.refreshes)
    (hbudget : ∀ max, policy.maxAttempts = some max → d.backoff.attempts ≤ max.val)
    (hlimit : ∀ max, policy.maxAttempts = some max → max.val < u32Max → a.refreshes ≤ max.val) :
    Counted policy d a where
  policy_eq := hpolicy
  options_eq := hoptions
  bound_iff := by simp [hbound, hstate]
  streak_eq := hstreak
  delivered h := by simp [hdelivered] at h
  row h := by
    have hne : d.backoff.attempts ≠ a.failed := fun heq => by simp [hexact.mp heq] at h
    omega
  cleared h := by simp [hbound] at h
  behind _ := hle
  exact_iff _ := hexact
  refreshed := hrefreshed
  budget := hbudget
  limit := hlimit

/-- The attempt is over, and nothing is held against the schedule. -/
theorem cleanly (h : Counted policy d a) :
    Counted policy { d with
      streamState := .establishing, backoff := d.backoff.reset, refreshStreak := 0 } {} :=
  .between h.policy_eq h.options_eq rfl rfl rfl rfl (Nat.le_refl 0) (iff_of_true rfl rfl)
    (fun hpos => absurd hpos (Nat.lt_irrefl 0)) (fun _ _ => Nat.zero_le _)
    fun _ _ _ => Nat.zero_le _

/-- An attempt that was lost, when the schedule allows another one. -/
theorem lost (h : Counted policy d a) (hdelay : d.backoff.nextDelay.1 ≠ none) :
    Counted policy { d with
      streamState := .establishing, backoff := d.backoff.nextDelay.2, refreshStreak := 0 }
      a.lost := by
  obtain ⟨-, hattempts, -, hbudget⟩ | ⟨hnone, -⟩ | ⟨hnone, -⟩ := d.backoff.nextDelay_cases
  case inr.inl | inr.inr => exact absurd hnone hdelay
  rw [h.policy_eq] at hbudget
  have hpolicy := d.backoff.policy_nextDelay.trans h.policy_eq
  have hspent : ∀ max, policy.maxAttempts = some max → d.backoff.nextDelay.2.attempts ≤ max.val :=
    fun max hmax => by rw [hattempts]; exact hbudget max hmax
  cases hbound : a.bound with
  | true =>
    rw [Attempts.lost_of_bound hbound]
    rw [h.cleared hbound] at hattempts
    exact .between hpolicy h.options_eq rfl rfl rfl rfl (Nat.le_of_eq hattempts)
      (iff_of_true hattempts rfl) (fun hpos => absurd hpos (Nat.lt_irrefl 0)) hspent
      fun _ _ _ => Nat.zero_le _
  | false =>
    rw [Attempts.lost_of_unbound hbound]
    have hbehind := h.behind hbound
    have hexact := h.exact_iff hbound
    refine .between hpolicy h.options_eq rfl rfl rfl rfl ?_ ?_
      (fun hpos => absurd hpos (Nat.lt_irrefl 0)) hspent fun _ _ _ => Nat.zero_le _
    · show d.backoff.nextDelay.2.attempts ≤ a.failed + 1
      omega
    · show d.backoff.nextDelay.2.attempts = a.failed + 1 ↔ a.missed = false
      rw [← hexact]
      omega

/-- An attempt that was lost, when it spends the budget. -/
theorem lost_exact_iff (h : Counted policy d a) (hdelay : d.backoff.nextDelay.1 = none) :
    d.backoff.nextDelay.2.attempts = a.lost.failed ↔ a.lost.Exact policy := by
  cases hbound : a.bound with
  | true =>
    have hzero := h.cleared hbound
    obtain ⟨⟨delay, hsome⟩, -⟩ | ⟨-, -, hcounter⟩ | ⟨-, -, -, max, -, hmax⟩ :=
      d.backoff.nextDelay_cases
    · rw [hdelay] at hsome
      cases hsome
    · rw [hzero] at hcounter
      exact absurd hcounter (by decide)
    · have := max.pos
      omega
  | false =>
    rw [Attempts.lost_of_unbound hbound]
    have hbehind := h.behind hbound
    have hexact := h.exact_iff hbound
    obtain ⟨⟨delay, hsome⟩, -⟩ | ⟨-, hattempts, hcounter⟩ |
      ⟨-, hattempts, hcounter, max, hmax, hle⟩ := d.backoff.nextDelay_cases
    · rw [hdelay] at hsome
      cases hsome
    · refine iff_of_false ?_ ?_
      · show d.backoff.nextDelay.2.attempts ≠ a.failed + 1
        omega
      · rintro ⟨⟨max, hmax, hlt⟩, -⟩
        have := h.budget max hmax
        omega
    · show d.backoff.nextDelay.2.attempts = a.failed + 1 ↔ _
      rw [hattempts, Nat.add_right_cancel_iff, hexact]
      rw [h.policy_eq] at hmax
      exact ⟨fun hm => ⟨⟨max, hmax, by omega⟩, hm, rfl⟩, fun hm => hm.2.1⟩

/-- The streak of refreshes after one more. -/
theorem streak_succ (h : Counted policy d a) :
    saturatingAdd u32Max d.refreshStreak 1 = min a.refreshed.refreshes u32Max := by
  rw [a.refreshed_refreshes, saturatingAdd, h.streak_eq]
  omega

/-- A refresh that follows another one ended a barren attempt. -/
theorem barren (h : Counted policy d a) (hstreak : 0 < d.refreshStreak) :
    0 < a.refreshes ∧ a.delivered = false := by
  have hstreak_eq := h.streak_eq
  have hpos : 0 < a.refreshes := by omega
  refine ⟨hpos, Bool.eq_false_iff.mpr fun hdelivered => ?_⟩
  rw [h.delivered hdelivered] at hpos
  exact absurd hpos (Nat.lt_irrefl 0)

/-- The schedule never counts more attempts than the row. -/
theorem attempts_le (h : Counted policy d a) : d.backoff.attempts ≤ a.failed := by
  cases hbound : a.bound with
  | true => exact (h.cleared hbound).trans_le (Nat.zero_le _)
  | false => exact h.behind hbound

/-- The first refresh in a row is answered at once, and clears the schedule. -/
theorem refreshed_first (h : Counted policy d a) (hstreak : d.refreshStreak = 0) :
    Counted policy { d with
      streamState := .establishing
      backoff := d.backoff.reset
      refreshStreak := saturatingAdd u32Max d.refreshStreak 1 } a.refreshed := by
  have hrefreshes : a.refreshes = 0 := by
    have hmax : 0 < u32Max := by decide
    have := h.streak_eq
    omega
  have hone : a.refreshed.refreshes = 1 := by rw [a.refreshed_refreshes, hrefreshes]
  have hrefreshed : 0 < a.refreshed.refreshes → 0 < a.refreshed.refreshes := id
  have hlimit : ∀ max : NonZeroU32, policy.maxAttempts = some max → max.val < u32Max →
      a.refreshed.refreshes ≤ max.val := fun max _ _ => by
    rw [hone]
    exact max.pos
  cases hdelivered : a.delivered with
  | true =>
    have hstate := h.streak_succ
    rw [Attempts.refreshed_of_delivered hdelivered] at *
    exact .between h.policy_eq h.options_eq rfl hstate rfl rfl (Nat.le_refl 0)
      (iff_of_true rfl rfl) hrefreshed (fun _ _ => Nat.zero_le _) hlimit
  | false =>
    have hstate := h.streak_succ
    rw [Attempts.refreshed_of_barren hdelivered] at *
    refine .between h.policy_eq h.options_eq rfl hstate rfl rfl (Nat.zero_le _)
      (iff_of_false (Nat.succ_ne_zero _).symm ?_) hrefreshed (fun _ _ => Nat.zero_le _) hlimit
    simp [hrefreshes]

/-- A later refresh in a row is delayed as any lost attempt is. -/
theorem refreshed_again (h : Counted policy d a) (hstreak : 0 < d.refreshStreak)
    (hwithin : ∀ max, policy.maxAttempts = some max →
      saturatingAdd u32Max d.refreshStreak 1 ≤ max.val)
    (hdelay : d.backoff.nextDelay.1 ≠ none) :
    Counted policy { d with
      streamState := .establishing
      backoff := d.backoff.nextDelay.2
      refreshStreak := saturatingAdd u32Max d.refreshStreak 1 } a.refreshed := by
  obtain ⟨-, hattempts, -, hbudget⟩ | ⟨hnone, -⟩ | ⟨hnone, -⟩ := d.backoff.nextDelay_cases
  case inr.inl | inr.inr => exact absurd hnone hdelay
  rw [h.policy_eq] at hbudget
  obtain ⟨hpos, hdelivered⟩ := h.barren hstreak
  have hsucc := h.streak_succ
  have hlt := h.refreshed hpos
  have hle := h.attempts_le
  have hmissed : d.backoff.attempts = a.failed ↔
      (a.missed || (a.bound && 0 < a.failed)) = false := by
    cases hbound : a.bound with
    | true =>
      rw [h.cleared hbound]
      constructor
      · intro hzero
        have hrow : a.missed = false := Bool.eq_false_iff.mpr fun hm => by
          have := h.row hm
          omega
        simp [hrow, ← hzero]
      · intro hm
        simp only [Bool.or_eq_false_iff, Bool.true_and, decide_eq_false_iff_not] at hm
        omega
    | false => rw [h.exact_iff hbound, Bool.false_and, Bool.or_false]
  rw [Attempts.refreshed_of_barren hdelivered] at *
  refine .between (d.backoff.policy_nextDelay.trans h.policy_eq) h.options_eq rfl hsucc rfl rfl
    ?_ ?_ (fun _ => ?_) (fun max hmax => ?_) fun max hmax hlt => ?_
  · show d.backoff.nextDelay.2.attempts ≤ a.failed + 1
    omega
  · show d.backoff.nextDelay.2.attempts = a.failed + 1 ↔
      (a.missed || decide (a.refreshes = 0) || (a.bound && decide (0 < a.failed))) = false
    rw [hattempts, Nat.add_right_cancel_iff, hmissed, decide_eq_false hpos.ne', Bool.or_false]
  · show d.backoff.nextDelay.2.attempts < a.refreshes + 1
    omega
  · show d.backoff.nextDelay.2.attempts ≤ max.val
    have := hbudget max hmax
    omega
  · show a.refreshes + 1 ≤ max.val
    have hwithin := hwithin max hmax
    change _ = min (a.refreshes + 1) u32Max at hsucc
    omega

/-- A refresh that ends the run is reported with too few attempts. -/
theorem refreshed_exact_iff (h : Counted policy d a) (hstreak : 0 < d.refreshStreak) {n : ℕ}
    (hn : n ≤ d.backoff.attempts) : n = a.refreshed.failed ↔ a.refreshed.Exact policy := by
  obtain ⟨-, hdelivered⟩ := h.barren hstreak
  have hle := h.attempts_le
  refine iff_of_false ?_ fun hexact => by simpa using hexact.2.2
  rw [Attempts.refreshed_of_barren hdelivered]
  show n ≠ a.failed + 1
  omega

/-- The schedule refuses a refresh at the limit of its counter only. -/
theorem attempts_of_refused (h : Counted policy d a) (hstreak : 0 < d.refreshStreak)
    (hdelay : d.backoff.nextDelay.1 = none) :
    d.backoff.nextDelay.2.attempts ≤ d.backoff.attempts := by
  have hlt := h.refreshed (h.barren hstreak).1
  obtain ⟨⟨delay, hsome⟩, -⟩ | ⟨-, hattempts, -⟩ | ⟨-, -, hcounter, max, hmax, hle⟩ :=
    d.backoff.nextDelay_cases
  · rw [hdelay] at hsome
    cases hsome
  · exact Nat.le_of_eq hattempts
  · rw [h.policy_eq] at hmax
    have := h.limit max hmax (by omega)
    omega

end Counted

/-! ## Plans -/

namespace Drive

open SessionDriver

variable {policy : BackoffPolicy} {d : SessionDriver} {a : Attempts} {s s' : Drive} {i : Input}

/-- What the plan after an attempt leaves behind: the counters of the next attempt, or the number of
attempts in the report. -/
def Planned (policy : BackoffPolicy) (a : Attempts) : Option Reopen × SessionDriver → Prop
  | (some _, d) => Counted policy d.toLifecycle a
  | (none, d) => d.backoff.attempts = a.failed ↔ a.Exact policy

theorem planned_reopenLater {u : SessionDriver}
    (hnone : u.backoff.nextDelay.1 = none →
      (u.backoff.nextDelay.2.attempts = a.failed ↔ a.Exact policy))
    (hsome : u.backoff.nextDelay.1 ≠ none →
      Counted policy { u.toLifecycle with backoff := u.backoff.nextDelay.2 } a)
    (intent : OpenIntent) : Planned policy a (u.reopenLater intent) := by
  unfold reopenLater
  dsimp only
  cases hdelay : u.backoff.nextDelay.1 with
  | none => exact hnone hdelay
  | some delay => exact hsome (hdelay ▸ Option.some_ne_none delay)

theorem planned_of_lost {u : SessionDriver} (h : Counted policy d.toLifecycle a)
    (hu : u.toLifecycle = { d.toLifecycle with streamState := .establishing })
    (intent : OpenIntent) :
    Planned policy a.lost (reopenLater { u with refreshStreak := 0 } intent) := by
  have hbackoff : u.backoff = d.backoff := by rw [hu]
  refine planned_reopenLater (fun hdelay => ?_) (fun hdelay => ?_) intent
  · dsimp only at hdelay ⊢
    rw [hbackoff] at hdelay ⊢
    exact h.lost_exact_iff hdelay
  · show Counted policy { u.toLifecycle with
      backoff := u.toLifecycle.backoff.nextDelay.2, refreshStreak := 0 } a.lost
    rw [hu]
    exact h.lost (hbackoff ▸ hdelay)

theorem planned_of_refreshed {u : SessionDriver} (h : Counted policy d.toLifecycle a)
    (hu : u.toLifecycle = { d.toLifecycle with streamState := .establishing })
    (cause : ServerCause) :
    Planned policy a.refreshed (u.planAfter (.serverRefresh cause)) := by
  have hbackoff : u.backoff = d.backoff := by rw [hu]
  have hstreak : u.refreshStreak = d.refreshStreak := by rw [hu]
  have hoptions : u.options.backoff = policy := by rw [hu]; exact h.options_eq
  have htwo : 2 ≤ u32Max := by decide
  unfold planAfter
  dsimp only
  split_ifs with hfirst hover
  · show Counted policy { u.toLifecycle with
      backoff := u.toLifecycle.backoff.reset
      refreshStreak := saturatingAdd u32Max u.toLifecycle.refreshStreak 1 } _
    rw [hu]
    refine h.refreshed_first ?_
    rw [saturatingAdd, hstreak] at hfirst
    omega
  · rw [saturatingAdd, hstreak] at hfirst
    exact h.refreshed_exact_iff (by omega) (Nat.le_of_eq (congrArg Backoff.attempts hbackoff))
  · have hpos : 0 < d.refreshStreak := by
      rw [saturatingAdd, hstreak] at hfirst
      omega
    refine planned_reopenLater (fun hdelay => ?_) (fun hdelay => ?_) _
    · dsimp only at hdelay ⊢
      rw [hbackoff] at hdelay ⊢
      exact h.refreshed_exact_iff hpos (h.attempts_of_refused hpos hdelay)
    · show Counted policy { u.toLifecycle with
        backoff := u.toLifecycle.backoff.nextDelay.2
        refreshStreak := saturatingAdd u32Max u.toLifecycle.refreshStreak 1 } _
      rw [hu]
      refine h.refreshed_again hpos (fun max hmax => ?_) (hbackoff ▸ hdelay)
      rw [hoptions, hmax, Option.any_some, decide_eq_true_eq, Nat.not_lt, hstreak] at hover
      exact hover

/-- **The plan after an attempt.** -/
theorem planAfter_planned (h : Counted policy d.toLifecycle a) (reason : UnbindReason) :
    Planned policy (a.ended reason) ((unbound d reason).planAfter reason) := by
  have hu := unbound_toLifecycle d reason
  have hclean : reason.isCleanLoop = true →
      Planned policy {} ((unbound d reason).planAfter reason) := fun hclean => by
    rw [planAfter_of_isCleanLoop _ hclean]
    show Counted policy { (unbound d reason).toLifecycle with
      backoff := (unbound d reason).toLifecycle.backoff.reset, refreshStreak := 0 } {}
    rw [hu]
    exact h.cleanly
  cases reason with
  | connectionFailed | keepaliveExpired | rejected => exact planned_of_lost h hu _
  | serverRefresh cause => exact planned_of_refreshed h hu cause
  | forcedByClient | contentLengthReached | pollCycleExpired | looped => exact hclean rfl

/-! ## Lines -/

theorem onNotification_refreshStreak {n : Notification} (hdata : isData n = false) :
    (d.onNotification n).2.refreshStreak = d.refreshStreak := by
  induction n using onNotification_cases d with
  | conok sid limit millis link hn => rw [hn, onConok_toLifecycle, enterSession_toLifecycle]
  | conerr code message hn =>
    rw [hn]
    unfold onConerr
    split <;> rfl
  | ended code message hn =>
    rw [hn]
    unfold onEnd
    split_ifs
    · rfl
    · split <;> rfl
  | loop millis hn =>
    rw [hn]
    exact congrArg Lifecycle.refreshStreak (d.loopReason_toLifecycle _)
  | prog n hn =>
    obtain ⟨progressive, skip, honoured, hl⟩ := d.onProg_toLifecycle n
    rw [hn, hl]
  | reqok id hn => rw [hn, onRequestOk_toLifecycle]
  | reqerr id code message hn => rw [hn, onRequestError_toLifecycle]
  | quiet n _ hn => rw [hn]
  | report n e _ hn he => rw [hn, emit_toLifecycle]
  | data n h hn => exact absurd h (by rw [hdata]; exact Bool.false_ne_true)

/-- A bind clears the schedule. -/
theorem onConok_counted (h : Counted policy d.toLifecycle a) (sid : SessionId)
    (limit keepAlive : ℕ) (link : Option String) :
    Counted policy (d.onConok sid limit keepAlive link).toLifecycle { a with bound := true } := by
  rw [onConok_toLifecycle, enterSession_toLifecycle]
  exact
    { policy_eq := h.policy_eq
      options_eq := h.options_eq
      bound_iff := iff_of_true rfl rfl
      streak_eq := h.streak_eq
      delivered := h.delivered
      row := h.row
      cleared := fun _ => rfl
      behind := fun hbound => by cases hbound
      exact_iff := fun hbound => by cases hbound
      refreshed := id
      budget := fun _ _ => Nat.zero_le _
      limit := h.limit }

/-- A data notification ends the streak of refreshes. -/
theorem onData_counted (h : Counted policy d.toLifecycle a) (n : Notification) :
    Counted policy (d.onData n).toLifecycle { a with delivered := true, refreshes := 0 } := by
  rw [onData_toLifecycle]
  exact
    { policy_eq := h.policy_eq
      options_eq := h.options_eq
      bound_iff := h.bound_iff
      streak_eq := (Nat.zero_min _).symm
      delivered := fun _ => rfl
      row := h.row
      cleared := h.cleared
      behind := h.behind
      exact_iff := h.exact_iff
      refreshed := fun hpos => absurd hpos (Nat.lt_irrefl 0)
      budget := h.budget
      limit := fun _ _ _ => Nat.zero_le _ }

/-- The counters follow the attempts over a notification. -/
theorem onNotification_counted (h : Counted policy d.toLifecycle a) (n : Notification) :
    Counted policy (d.onNotification n).2.toLifecycle (a.hear n) := by
  by_cases hbind : isBind n = true
  · cases n with
    | connectionOk sid limit millis link =>
      have hhear : a.hear (.connectionOk sid limit millis link) = { a with bound := true } := by
        simp [Attempts.hear, isBind, isData]
      rw [hhear]
      exact onConok_counted h sid limit _ link
    | _ => cases hbind
  rw [Bool.not_eq_true] at hbind
  by_cases hdata : isData n = true
  · have hhear : a.hear n = { a with delivered := true, refreshes := 0 } := by
      simp [Attempts.hear, hbind, hdata]
    have hn : d.onNotification n = (.continue, d.onData n) := by
      cases n <;> first | rfl | cases hdata
    rw [hhear, hn]
    exact onData_counted h n
  · rw [Bool.not_eq_true] at hdata
    have hhear : a.hear n = a := by simp [Attempts.hear, hbind, hdata]
    have hsteady := onNotification_steady (d := d) hbind
    rw [hhear]
    exact h.of_eq hsteady.backoff hsteady.options hsteady.streamState
      (onNotification_refreshStreak hdata)

/-! ## Turns -/

/-- The attempts of a run are reckoned: by the counters while it lasts, in the report when it ends
with one. The refreshes in a row stay within one of the maximum. -/
structure Reckoned (policy : BackoffPolicy) (s : Drive) (a : Attempts) : Prop where
  running : (∀ closed, s.phase ≠ .closed closed) → Counted policy s.driver.toLifecycle a
  reported : ∀ n last, s.phase = .closed (.retriesExhausted n last) →
    (n = a.failed ↔ a.Exact policy)
  limit : ∀ max, policy.maxAttempts = some max → max.val < u32Max → a.refreshes ≤ max.val + 1

theorem Reckoned.of_counted (h : Counted policy s.driver.toLifecycle a)
    (hphase : ∀ closed, s.phase ≠ .closed closed) : Reckoned policy s a where
  running _ := h
  reported _ _ hp := absurd hp (hphase _)
  limit max hmax hlt := (h.limit max hmax hlt).trans (Nat.le_succ _)

/-- A run that ends without a report. -/
theorem finish_reckoned (d : SessionDriver) {closed : SessionClosed}
    (hclosed : ∀ n last, closed ≠ .retriesExhausted n last)
    (hlimit : ∀ max, policy.maxAttempts = some max → max.val < u32Max →
      a.refreshes ≤ max.val + 1) : Reckoned policy (finish d closed) a where
  running h := absurd rfl (h closed)
  reported n last hp := absurd (Phase.closed.inj hp) (hclosed n last)
  limit := hlimit

theorem openNext_reckoned (h : Counted policy d.toLifecycle a)
    (hstate : d.streamState = .establishing) (next : Reopen) :
    Reckoned policy (openNext d next) a :=
  .of_counted (h.of_eq rfl rfl hstate.symm rfl) fun _ hp => by cases hp

theorem reopen_reckoned (h : Counted policy d.toLifecycle a)
    (hstate : d.streamState = .establishing) (next : Reopen) :
    Reckoned policy (reopen d next) a := by
  unfold reopen
  split_ifs
  · exact openNext_reckoned h hstate next
  · exact .of_counted h fun _ hp => by cases hp

theorem unbind_reckoned (h : Counted policy d.toLifecycle a) (reason : UnbindReason) :
    Reckoned policy (unbind d reason) (a.ended reason) := by
  have hlimit : ∀ max, policy.maxAttempts = some max → max.val < u32Max →
      (a.ended reason).refreshes ≤ max.val + 1 := fun max hmax hlt =>
    (a.ended_refreshes_le reason).trans (Nat.succ_le_succ (h.limit max hmax hlt))
  have hplan := planAfter_planned h reason
  obtain ⟨next, d', hp, hu | hu⟩ | ⟨d', hp, hu⟩ := unbind_cases d reason
  · rw [hu]
    exact finish_reckoned _ (fun _ _ hc => by cases hc) hlimit
  · rw [hp] at hplan
    obtain ⟨backoff, streak, hl⟩ := planAfter_toLifecycle (unbound d reason) reason
    rw [hp, unbound_toLifecycle] at hl
    rw [hu]
    exact reopen_reckoned (d := d'.emit _) hplan (congrArg Lifecycle.streamState hl) next
  · rw [hp] at hplan
    rw [hu]
    refine ⟨fun hphase => absurd rfl (hphase _), fun n last hclosed => ?_, hlimit⟩
    cases hclosed
    exact hplan

/-- The turn does not end the run with a report: only the bottom of the loop does. -/
def Quiet (flow : Flow) : Prop := ∀ n last, flow ≠ .closed (.retriesExhausted n last)

theorem quiet_continue : Quiet .continue := fun _ _ h => by cases h

theorem quiet_unbind (reason : UnbindReason) : Quiet (.unbind reason) := fun _ _ h => by cases h

theorem onNotification_quiet (d : SessionDriver) (n : Notification) :
    Quiet (d.onNotification n).1 := by
  induction n using onNotification_cases d with
  | conerr code message hn =>
    rw [hn]
    unfold onConerr
    split
    · exact fun _ _ h => by cases h
    · exact quiet_unbind _
    · exact quiet_unbind _
  | ended code message hn =>
    rw [hn]
    unfold onEnd
    split_ifs
    · exact fun _ _ h => by cases h
    · split
      · exact quiet_unbind _
      · exact quiet_unbind _
      · exact fun _ _ h => by cases h
  | loop millis hn =>
    rw [hn]
    exact quiet_unbind _
  | conok _ _ _ _ hn | prog _ hn | reqok _ hn | reqerr _ _ _ hn | quiet _ _ hn | report _ _ _ hn
  | data _ _ hn =>
    rw [hn]
    exact quiet_continue

theorem onCommand_quiet (d : SessionDriver) (c : SessionCommand) : Quiet (d.onCommand c).1 := by
  cases c with
  | shutdown => exact fun _ _ h => by cases h
  | destroy cause =>
    simp only [onCommand, destroy]
    split
    · exact fun _ _ h => by cases h
    · split
      · exact fun _ _ h => by cases h
      · dsimp only
        split_ifs
        · exact quiet_continue
        · exact fun _ _ h => by cases h
  | _ => exact quiet_continue

theorem onTimer_quiet (d : SessionDriver) : Quiet d.onTimer.1 := by
  obtain h | ⟨budget, h⟩ | ⟨detail, h⟩ := d.onTimer_flow
  · exact h ▸ quiet_continue
  · exact h ▸ quiet_unbind _
  · exact h ▸ quiet_unbind _

theorem interrupted_quiet {wake : Wake} {flow : Flow} (h : Interrupted d wake flow) :
    Quiet flow := by
  obtain ⟨detail, -, rfl⟩ | ⟨-, rfl⟩ | ⟨-, rfl⟩ := h
  · exact quiet_unbind _
  · unfold onStreamEnd
    split_ifs
    · exact fun _ _ h => by cases h
    · exact quiet_unbind _
    · exact quiet_unbind _
  · exact fun _ _ h => by cases h

theorem afterPump_reckoned {r : Flow × SessionDriver} (h : Counted policy r.2.toLifecycle a)
    (hflow : Quiet r.1) :
    Reckoned policy (afterPump r) (a.outcome r.1) := by
  have hlimit : ∀ max, policy.maxAttempts = some max → max.val < u32Max →
      (a.outcome r.1).refreshes ≤ max.val + 1 := fun max hmax hlt => by
    have hle := h.limit max hmax hlt
    cases hr : r.1 with
    | unbind reason => exact (a.ended_refreshes_le reason).trans (Nat.succ_le_succ hle)
    | _ => exact hle.trans (Nat.le_succ _)
  obtain hp | ⟨hr, -, hp⟩ | ⟨reason, hr, -, hp⟩ | ⟨closed, hr, hp⟩ := afterPump_cases r
  · rw [hp]
    exact finish_reckoned _ (fun _ _ hc => by cases hc) hlimit
  · rw [hp, hr]
    exact .of_counted h fun _ hp => by cases hp
  · rw [hp, hr]
    exact unbind_reckoned h reason
  · rw [hp]
    exact finish_reckoned _ (fun n last hc => hflow n last (hc ▸ hr)) hlimit

theorem follow_of_pumping {r : Flow × SessionDriver} (hphase : s.phase = .pumping)
    (hpump : pumpTurn (s.driver.withTurn i.turn) i.wake = some r) :
    a.follow s i = ((i.notification.map a.hear).getD a).outcome r.1 := by
  simp only [Attempts.follow, hphase, hpump, Option.map_some, Option.getD_some]

theorem follow_of_waiting {next : Reopen} (hphase : s.phase = .waiting next)
    (hquiet : i.notification = none) : a.follow s i = a := by
  simp only [Attempts.follow, hphase, hquiet, Option.map_none, Option.getD_none]

/-- **A turn of the driver.** -/
theorem step_reckoned (h : Reckoned policy s a) (hsettled : Settled s)
    (hstep : step s i = some s') : Reckoned policy s' (a.follow s i) := by
  have hd : Counted policy (s.driver.withTurn i.turn).toLifecycle a := by
    refine h.running fun closed hp => ?_
    simp [step, hp] at hstep
  have hstopped : ∀ d, Reckoned policy (finish d stopped) a := fun d =>
    finish_reckoned d (fun _ _ hc => by cases hc) h.limit
  have hcommand : ∀ c, Counted policy ((s.driver.withTurn i.turn).onCommand c).2.toLifecycle a :=
    fun c => by
      obtain ⟨destroying, hl⟩ := (s.driver.withTurn i.turn).onCommand_toLifecycle c
      exact hd.of_eq (by rw [hl]) (by rw [hl]) (by rw [hl]) (by rw [hl])
  cases step_turns hstep with
  | waitCommand next c hphase hw =>
    rw [follow_of_waiting hphase (by simp [Input.notification, hw])]
    obtain ⟨closed, hflow, hend⟩ | hend | ⟨-, -, hend⟩ :=
      afterWait_cases next ((s.driver.withTurn i.turn).onCommand c)
    · rw [hend]
      exact finish_reckoned _ (fun n last hc => onCommand_quiet _ c n last (hc ▸ hflow)) h.limit
    · rw [hend]
      exact hstopped _
    · rw [hend]
      exact .of_counted (hcommand c) fun _ hp => by cases hp
  | waitOver next hphase hw =>
    rw [follow_of_waiting hphase (by simp [Input.notification, hw])]
    have hstate : s.driver.streamState = .establishing := by simpa [Settled, hphase] using hsettled
    exact openNext_reckoned hd hstate next
  | waitStop next hphase hw =>
    rw [follow_of_waiting hphase (by obtain hw | hw := hw <;> simp [Input.notification, hw])]
    exact hstopped _
  | opened hphase hw =>
    have hfollow : a.follow s i = a := by
      simp [Attempts.follow, Input.notification, hphase, hw]
    rw [hfollow]
    exact .of_counted hd fun _ hp => by cases hp
  | openFailed detail hphase hw =>
    have hfollow : a.follow s i = a.ended (.connectionFailed detail) := by
      obtain hw | ⟨hw, -⟩ := hw <;> simp [Attempts.follow, Input.notification, hphase, hw] <;> rfl
    rw [hfollow]
    exact unbind_reckoned hd _
  | openStop hphase hw =>
    have hfollow : a.follow s i = a := by
      obtain hw | hw := hw <;> simp [Attempts.follow, Input.notification, hphase, hw]
    rw [hfollow]
    exact hstopped _
  | line text hphase hw =>
    rw [follow_of_pumping hphase (by rw [hw]; rfl)]
    have hheard : Counted policy (s.driver.withTurn i.turn).heard.toLifecycle a := hd
    cases htext : parseLine text with
    | error e =>
      have hquiet : i.notification = none := by
        simp [Input.notification, hw, htext, Except.toOption]
      rw [hquiet, onLine_of_error _ htext]
      exact afterPump_reckoned (r := (.continue, _)) hheard quiet_continue
    | ok n =>
      rw [Input.notification_of_line hw htext, onLine_of_ok _ htext]
      exact afterPump_reckoned (onNotification_counted hheard n) (onNotification_quiet _ n)
  | command c hphase hw =>
    have hquiet : i.notification = none := by simp [Input.notification, hw]
    rw [follow_of_pumping hphase (by rw [hw]; rfl), hquiet]
    exact afterPump_reckoned (hcommand c) (onCommand_quiet _ c)
  | timer hphase hw =>
    have hquiet : i.notification = none := by simp [Input.notification, hw]
    have hpump : pumpTurn (s.driver.withTurn i.turn) i.wake =
        some (s.driver.withTurn i.turn).onTimer := by
      simp only [step, hphase] at hstep
      obtain ⟨r, hr, -⟩ := Option.map_eq_some_iff.mp hstep
      rw [hw] at hr ⊢
      unfold pumpTurn at hr ⊢
      dsimp only at hr ⊢
      split_ifs at hr ⊢
      rfl
    obtain ⟨failures, hl⟩ := (s.driver.withTurn i.turn).onTimer_toLifecycle
    rw [follow_of_pumping hphase hpump, hquiet]
    exact afterPump_reckoned (hd.of_eq (by rw [hl]) (by rw [hl]) (by rw [hl]) (by rw [hl]))
      (onTimer_quiet _)
  | interrupted flow hphase hw =>
    have hquiet : i.notification = none := by
      obtain ⟨detail, hw, -⟩ | ⟨hw, -⟩ | ⟨hw | hw, -⟩ := hw <;> simp [Input.notification, hw]
    have hpump : pumpTurn (s.driver.withTurn i.turn) i.wake =
        some (flow, s.driver.withTurn i.turn) := by
      obtain ⟨detail, hw, rfl⟩ | ⟨hw, rfl⟩ | ⟨hw | hw, rfl⟩ := hw <;> rw [hw] <;> rfl
    rw [follow_of_pumping hphase hpump, hquiet]
    exact afterPump_reckoned (r := (flow, _)) hd (interrupted_quiet hw)

/-! ## Runs -/

theorem start_reckoned (properties : TransportProperties) (options : SessionOptions)
    (seed : UInt64) (now : ℕ) :
    Reckoned options.backoff (start properties options seed now) {} := by
  refine openNext_reckoned ?_ rfl _
  exact .between rfl rfl rfl rfl rfl rfl (Nat.le_refl 0) (iff_of_true rfl rfl)
    (fun hpos => absurd hpos (Nat.lt_irrefl 0)) (fun _ _ => Nat.zero_le _)
    fun _ _ _ => Nat.zero_le _

/-- **The number in the report.** Along every run, whatever is heard and whatever fails: a run that
ends with `RetriesExhausted` reports the number of attempts lost or barren in a row exactly when the
policy has a maximum that the counter can exceed, no barren attempt of the row was left out by the
schedule, and the last attempt was not ended by a refresh. And the refreshes in a row exceed the
maximum by one at most. -/
theorem reported_attempts_iff {properties : TransportProperties} {options : SessionOptions}
    {seed : UInt64} {now : ℕ} {inputs : List Input} {a : Attempts}
    (hrun : exec (watch step Attempts.follow) (start properties options seed now, {}) inputs =
      some (s, a)) :
    (∀ n last, s.phase = .closed (.retriesExhausted n last) →
      (n = a.failed ↔ a.Exact options.backoff)) ∧
    ∀ max, options.backoff.maxAttempts = some max → max.val < u32Max →
      a.refreshes ≤ max.val + 1 := by
  have hstart : Settled (start properties options seed now) := reopen_settled rfl _
  obtain ⟨hinv, -⟩ : Reckoned options.backoff s a ∧ Settled s := by
    refine exec_invariant (I := fun p : Drive × Attempts => Reckoned options.backoff p.1 p.2 ∧
      Settled p.1) (fun p i p' hp _ hstep => ?_)
      ⟨start_reckoned properties options seed now, hstart⟩ (guarded_true _ _ inputs) hrun
    obtain ⟨s', hs', rfl⟩ := Option.map_eq_some_iff.mp hstep
    exact ⟨step_reckoned hp.1 hp.2 hs', step_settled hp.2 hs'⟩
  exact ⟨hinv.reported, hinv.limit⟩

/-- The default options, with a single attempt after the first one. -/
def onceMore : SessionOptions :=
  { SessionOptions.default with backoff := ⟨ofMillis 500, ofMillis 30000, NonZeroU32.new? 1⟩ }

/-- Two attempts fail, and the report says two. -/
theorem reported_attempts_iff_refused :
    ∃ s a, exec (watch step Attempts.follow) (start ⟨true, false, false⟩ onceMore 1 0, {})
        [⟨.openFailed "refused", {}⟩, ⟨.timer, {}⟩, ⟨.openFailed "refused", {}⟩] = some (s, a) ∧
      ∀ n last, s.phase = .closed (.retriesExhausted n last) →
        (n = a.failed ↔ a.Exact onceMore.backoff) := by
  have h : exec (watch step Attempts.follow) (start ⟨true, false, false⟩ onceMore 1 0, {})
    [⟨.openFailed "refused", {}⟩, ⟨.timer, {}⟩, ⟨.openFailed "refused", {}⟩] = some (_, _) := rfl
  exact ⟨_, _, h, (reported_attempts_iff h).1⟩

/-- Two sessions in a row are refreshed before they deliver anything, and the report says that no
attempt failed. -/
theorem refreshes_reported_as_none :
    ¬∀ inputs s a, exec (watch step Attempts.follow)
        (start ⟨true, false, false⟩ onceMore 1 0, {}) inputs = some (s, a) →
      ∀ n last, s.phase = .closed (.retriesExhausted n last) → n = a.failed := by
  intro h
  have hrun : exec (watch step Attempts.follow) (start ⟨true, false, false⟩ onceMore 1 0, {})
    [⟨.opened, {}⟩, ⟨.line "CONOK,S1,50000,5000,*", {}⟩, ⟨.line "END,48,expired", {}⟩,
      ⟨.opened, {}⟩, ⟨.line "CONOK,S2,50000,5000,*", {}⟩, ⟨.line "END,48,expired", {}⟩] =
    some (_, _) := rfl
  have hreport := h _ _ _ hrun 0 _ rfl
  cases hreport

end Drive

end Lightstreamer.Session
