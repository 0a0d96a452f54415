import Lightstreamer.Config.Timings
import Lightstreamer.Session.Frame

/-!
# When the timer fires

`due` and `nextDeadline` agree on when there is something to do (`due_ne_idle_iff`), a stall comes
first (`due_of_stalled`), and a heartbeat that was dealt with moves its deadline
(`lt_deadline_iff`) unless its interval is nothing. `timers_punctual` puts this together for the
intervals that a configuration can bring about.
-/

namespace Lightstreamer.Session

open Lightstreamer.Protocol Lightstreamer.Config

/-- A deadline lies ahead when there is a budget and the clock has room for it. -/
theorem lt_deadline_iff {start budget : ℕ} :
    start < deadline start budget ↔ 0 < budget ∧ start + budget ≤ instantMax := by
  unfold deadline checkedAdd
  split_ifs with h
  · rw [Option.getD_some]
    omega
  · rw [Option.getD_none]
    omega

namespace Liveness

variable {l : Liveness} {now : ℕ}

theorem due_of_stalled {budget : ℕ} (hbudget : l.inboundBudget = some budget)
    (hreached : deadline l.lastInbound budget ≤ now) : l.due now = .inboundStalled budget := by
  have hfilter : (some budget).filter (fun budget => deadline l.lastInbound budget ≤ now) =
      some budget := by
    rw [Option.filter_some, if_pos (decide_eq_true hreached)]
  unfold due
  rw [hbudget, hfilter]

/-- Nothing but a stall comes before a heartbeat. -/
theorem due_of_not_stalled
    (hquiet : ∀ budget, l.inboundBudget = some budget → now < deadline l.lastInbound budget) :
    l.due now = if l.heartbeatEvery.any fun every => deadline l.lastOutbound every ≤ now then
      .sendHeartbeat else .idle := by
  have hfilter : l.inboundBudget.filter (fun budget => deadline l.lastInbound budget ≤ now) =
      none := by
    cases hbudget : l.inboundBudget with
    | none => rfl
    | some budget =>
      have hlt := hquiet budget hbudget
      rw [Option.filter_some, if_neg (by simpa using hlt)]
  unfold due
  rw [hfilter]

/-- Without an interval no heartbeat is due. -/
theorem due_ne_sendHeartbeat (h : l.heartbeatEvery = none) : l.due now ≠ .sendHeartbeat := by
  unfold due
  rw [h]
  split <;> simp

/-- The stall is told from the rest. -/
theorem stalled_or_not (l : Liveness) (now : ℕ) :
    (∃ budget, l.inboundBudget = some budget ∧ deadline l.lastInbound budget ≤ now) ∨
      ∀ budget, l.inboundBudget = some budget → now < deadline l.lastInbound budget := by
  cases l.inboundBudget with
  | none => exact .inr nofun
  | some budget =>
    rcases Nat.lt_or_ge now (deadline l.lastInbound budget) with h | h
    · refine .inr fun budget' heq => ?_
      cases heq
      exact h
    · exact .inl ⟨budget, rfl, h⟩

/-- What the next deadline is, of the two that may be set. -/
theorem exists_nextDeadline_le_iff :
    (∃ t ∈ l.nextDeadline, t ≤ now) ↔
      (∃ budget ∈ l.inboundBudget, deadline l.lastInbound budget ≤ now) ∨
        ∃ every ∈ l.heartbeatEvery, deadline l.lastOutbound every ≤ now := by
  unfold nextDeadline
  cases l.inboundBudget <;> cases l.heartbeatEvery <;> simp

/-- **The two readings of the clocks agree.** -/
theorem due_ne_idle_iff : l.due now ≠ .idle ↔ ∃ t ∈ l.nextDeadline, t ≤ now := by
  rw [exists_nextDeadline_le_iff]
  rcases l.stalled_or_not now with ⟨budget, hbudget, hreached⟩ | hquiet
  · rw [due_of_stalled hbudget hreached]
    exact iff_of_true nofun (.inl ⟨budget, hbudget, hreached⟩)
  · rw [due_of_not_stalled hquiet]
    have hnone : ¬∃ budget ∈ l.inboundBudget, deadline l.lastInbound budget ≤ now := by
      rintro ⟨budget, hbudget, hreached⟩
      exact absurd hreached (Nat.not_le_of_lt (hquiet budget hbudget))
    rw [or_iff_right hnone]
    cases l.heartbeatEvery <;> simp

/-- When a heartbeat is due, no stall is. -/
theorem not_stalled_of_due (h : l.due now = .sendHeartbeat) :
    ∀ budget, l.inboundBudget = some budget → now < deadline l.lastInbound budget := by
  rcases l.stalled_or_not now with ⟨budget, hbudget, hreached⟩ | hquiet
  · rw [due_of_stalled hbudget hreached] at h
    cases h
  · exact hquiet

/-! ## What moves the clocks -/

/-- What the driver tells the clocks, with the reading at that moment. -/
inductive Tick
  | opened (openTimeout now : ℕ)
  | bound (keepAlive now : ℕ)
  | closed
  | received (now : ℕ)
  | sent (now : ℕ)

def tick (l : Liveness) : Tick → Liveness
  | .opened openTimeout now => l.onStreamOpened openTimeout now
  | .bound keepAlive now => l.onBound keepAlive now
  | .closed => l.onStreamClosed
  | .received now => l.onInbound now
  | .sent now => l.onOutbound now

/-- The interval of the heartbeats is never changed. -/
theorem foldl_tick_heartbeatEvery (ticks : List Tick) (l : Liveness) :
    (ticks.foldl tick l).heartbeatEvery = l.heartbeatEvery := by
  induction ticks generalizing l with
  | nil => rfl
  | cons t ticks ih =>
    rw [List.foldl_cons, ih]
    cases t <;> rfl

end Liveness

namespace SessionDriver

variable {d : SessionDriver} {now later : ℕ} {clock : List ℕ}

/-- The outbound clock moves whether or not the heartbeat left. -/
theorem sendHeartbeat_liveness (d : SessionDriver) :
    d.sendHeartbeat.2.liveness = d.liveness.onOutbound (d.turn.clock.headD 0) := by
  have hattempt : d.attemptHeartbeat.2.liveness = d.liveness ∧
      d.attemptHeartbeat.2.turn.clock = d.turn.clock := by
    unfold attemptHeartbeat
    split <;> exact ⟨rfl, rfl⟩
  have hsettle : ∀ (d : SessionDriver) (e : Option String),
      (settleHeartbeat d e).2.liveness = d.liveness := by
    intro d e
    cases e with
    | none => rfl
    | some detail =>
      unfold settleHeartbeat
      dsimp only
      split <;> rfl
  unfold sendHeartbeat
  dsimp only
  rw [hsettle, clocked, hattempt.1, hattempt.2]

theorem onTimer_liveness (hclock : d.turn.clock = now :: later :: clock)
    (hdue : d.liveness.due now = .sendHeartbeat) :
    d.onTimer.2.liveness = d.liveness.onOutbound later := by
  have hnow : d.turn.clock.headD 0 = now := by rw [hclock]; rfl
  unfold onTimer
  dsimp only
  rw [hnow, hdue]
  dsimp only
  rw [sendHeartbeat_liveness]
  dsimp only [clocked]
  rw [hclock]
  rfl

/-- The heartbeat that was due at `now` and dealt with at `later` is not due again, and neither is
anything else before time passes. -/
def Rests (d : SessionDriver) (now later : ℕ) : Prop :=
  (∀ every ∈ d.onTimer.2.liveness.heartbeatEvery,
    later < deadline d.onTimer.2.liveness.lastOutbound every) ∧
  ∀ t ∈ d.onTimer.2.liveness.nextDeadline, now < t

/-- **A heartbeat moves its deadline** when there is an interval and room for it. -/
theorem rests_iff (hclock : d.turn.clock = now :: later :: clock) (hle : now ≤ later)
    (hdue : d.liveness.due now = .sendHeartbeat) :
    d.Rests now later ↔
      ∀ every ∈ d.liveness.heartbeatEvery, 0 < every ∧ later + every ≤ instantMax := by
  unfold Rests
  rw [onTimer_liveness hclock hdue]
  constructor
  · intro h every hevery
    exact lt_deadline_iff.mp (h.1 every hevery)
  · intro h
    have hbeat : ∀ every ∈ d.liveness.heartbeatEvery, later < deadline later every :=
      fun every hevery => lt_deadline_iff.mpr (h every hevery)
    refine ⟨hbeat, fun t ht => Nat.lt_of_not_le fun hle' => ?_⟩
    rcases Liveness.exists_nextDeadline_le_iff.mp ⟨t, ht, hle'⟩ with
      ⟨budget, hbudget, hreached⟩ | ⟨every, hevery, hreached⟩
    · have hquiet := Liveness.not_stalled_of_due hdue budget hbudget
      exact absurd hreached (Nat.not_le_of_lt hquiet)
    · exact absurd (hreached.trans hle) (Nat.not_le_of_lt (hbeat every hevery))

/-- **The timer is punctual, and does not spin.** For every configuration that the builder accepts
and whatever the clocks were told: something is due exactly when the next deadline was reached; a
stall comes first; and a heartbeat that was dealt with rests until time passes, exactly when the
transport polls, so that none is ever due, or the commitment is of a millisecond at least and the
clock has room for half of it. -/
theorem timers_punctual {config : ClientConfig} {start : ℕ} {ticks : List Liveness.Tick}
    (hliveness : d.liveness = ticks.foldl Liveness.tick (.new config.connectOptions.keepaliveSlack
      config.connectOptions.heartbeatInterval start))
    (hclock : d.turn.clock = now :: later :: clock) (hle : now ≤ later) :
    (d.liveness.due now ≠ .idle ↔ ∃ t ∈ d.liveness.nextDeadline, t ≤ now) ∧
    (∀ budget ∈ d.liveness.inboundBudget, deadline d.liveness.lastInbound budget ≤ now →
      d.liveness.due now = .inboundStalled budget) ∧
    (config.transport = .httpPolling → d.liveness.due now ≠ .sendHeartbeat) ∧
    (d.liveness.due now = .sendHeartbeat → (d.Rests now later ↔
      config.transport = .httpPolling ∨
        ∀ commitment ∈ config.options.inactivityCommitment, ofMillis 1 ≤ commitment ∧
          later + ofMillis (asMillis commitment) / 2 ≤ instantMax)) := by
  have hevery : d.liveness.heartbeatEvery = if config.transport = .httpPolling then none
      else config.options.inactivityCommitment.map
        fun commitment => ofMillis (asMillis commitment) / 2 := by
    rw [hliveness, Liveness.foldl_tick_heartbeatEvery]
    exact heartbeatInterval_connectOptions config
  refine ⟨Liveness.due_ne_idle_iff, fun budget => Liveness.due_of_stalled,
    fun hpolling => Liveness.due_ne_sendHeartbeat (by rw [hevery, if_pos hpolling]),
    fun hdue => ?_⟩
  have hhalf : ∀ commitment, 0 < ofMillis (asMillis commitment) / 2 ↔ ofMillis 1 ≤ commitment := by
    intro commitment
    rw [← asMillis_pos, ofMillis]
    omega
  rw [rests_iff hclock hle hdue, hevery]
  by_cases hpolling : config.transport = .httpPolling
  · simp [hpolling]
  · rw [if_neg hpolling, or_iff_right hpolling]
    cases config.options.inactivityCommitment with
    | none => simp
    | some commitment => simp [hhalf]

/-- A configuration with the defaults and a commitment of twenty seconds. -/
def twentySeconds : ClientConfig where
  adapterSet := none
  user := none
  password := none
  transport := .webSocket
  options := ConnectionOptions.default.withInactivityCommitment (some (ofMillis 20000))
  accepted := rfl

/-- A configuration with the defaults and a commitment of half a millisecond. -/
def halfMillisecond : ClientConfig where
  adapterSet := none
  user := none
  password := none
  transport := .webSocket
  options := ConnectionOptions.default.withInactivityCommitment (some (ofMillis 1 / 2))
  accepted := rfl

/-- A driver of the configuration, with two readings of the clock ahead. -/
def timed (config : ClientConfig) (ticks : List Liveness.Tick) (now later : ℕ) : SessionDriver :=
  { SessionDriver.new ⟨true, false, false⟩ config.connectOptions 1 0 with
    liveness := ticks.foldl Liveness.tick (.new config.connectOptions.keepaliveSlack
      config.connectOptions.heartbeatInterval 0)
    turn := { clock := [now, later] } }

theorem timers_punctual_twentySeconds :
    let d := timed twentySeconds [.opened (ofMillis 10000) 0, .bound (ofMillis 15000) 1]
      (ofMillis 10000) (ofMillis 10001)
    d.liveness.due (ofMillis 10000) = .sendHeartbeat ∧
      d.Rests (ofMillis 10000) (ofMillis 10001) := by
  have h := timers_punctual (d := timed twentySeconds
    [.opened (ofMillis 10000) 0, .bound (ofMillis 15000) 1] (ofMillis 10000) (ofMillis 10001))
    rfl rfl (by decide)
  have hdue : (timed twentySeconds [.opened (ofMillis 10000) 0, .bound (ofMillis 15000) 1]
    (ofMillis 10000) (ofMillis 10001)).liveness.due (ofMillis 10000) = .sendHeartbeat := by decide
  exact ⟨hdue, (h.2.2.2 hdue).mpr (.inr (by decide))⟩

/-- **A timer that spins.** Half a millisecond is accepted, and becomes an interval of nothing: the
heartbeat that was dealt with is due again at the same reading of the clock. -/
theorem timers_spin :
    let d := timed halfMillisecond [] 7 7
    d.liveness.due 7 = .sendHeartbeat ∧ ¬d.Rests 7 7 ∧
      d.onTimer.2.liveness.due 7 = .sendHeartbeat := by
  refine ⟨by decide, fun h => ?_, by decide⟩
  have hbeat := h.1 0 rfl
  exact absurd hbeat (by decide)

end SessionDriver

end Lightstreamer.Session
