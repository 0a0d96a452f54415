import Lightstreamer.Session.Frame

/-!
# The turns of the driver

`onNotification_cases` and `step_turns` are the case analyses that every claim about a line and
about a turn starts from. Around them, what the loop does with the outcome of a turn: it adds
actions of the loop to the trace, plans the next stream connection, and leaves the bookkeeping of
requests alone.
-/

namespace Lightstreamer.Session

open Lightstreamer.Foundations Lightstreamer.Protocol Lightstreamer.Subscription

/-- A notification that counts towards the position in the session. -/
def isData : Notification → Bool
  | .update .. | .subscriptionOk .. | .subscriptionCommandOk .. | .unsubscribed _
  | .endOfSnapshot .. | .clearSnapshot .. | .overflow .. | .subscriptionReconfigured ..
  | .messageDone .. | .messageFailed .. => true
  | _ => false

/-- The notification that an input brings, when it is a line that parses. -/
def Input.notification (i : Input) : Option Notification :=
  match i.wake with
  | .line text => (parseLine text).toOption
  | _ => none

/-- The driver abandons its session over the notification: a refusal that is not fatal. -/
def SessionDriver.abandons (d : SessionDriver) : Notification → Bool
  | .connectionError code _ => classify code ≠ .fatal
  | .end code _ => !d.destroyRequested && classify code ≠ .fatal
  | _ => false

/-- The server confirms a bind. -/
def isBind : Notification → Bool
  | .connectionOk .. => true
  | _ => false

/-- The server ends the session and asks for a new one. -/
def isRefresh : Notification → Bool
  | .end code _ => classify code = .recreateSession
  | _ => false

/-- The server asks for the next stream connection. -/
def isLoop : Notification → Bool
  | .loop _ => true
  | _ => false

/-- The input ends the stream connection the clean way: a `LOOP`, or the end of a polling cycle. -/
def Input.loops (i : Input) (d : SessionDriver) : Bool :=
  match i.wake with
  | .streamEnded => d.properties.isPolling && !d.destroyRequested
  | _ => i.notification.any isLoop

theorem Input.notification_of_line {i : Input} {text : String} {n : Notification}
    (hw : i.wake = .line text) (hn : parseLine text = .ok n) : i.notification = some n := by
  simp [notification, hw, hn, Except.toOption]

theorem Input.notification_eq_some {i : Input} {n : Notification} (h : i.notification = some n) :
    ∃ text, i.wake = .line text ∧ parseLine text = .ok n := by
  unfold notification at h
  split at h
  · rename_i text hw
    cases hp : parseLine text with
    | error e =>
      rw [hp] at h
      cases h
    | ok n' =>
      rw [hp] at h
      cases h
      exact ⟨text, hw, hp⟩
  · cases h

namespace SessionDriver

variable {P : Action → Prop} (d : SessionDriver)

/-! ## Lines -/

/-- The case analysis of a notification by what the driver does with it. -/
theorem onNotification_cases (d : SessionDriver) {motive : Notification → Prop}
    (conok : ∀ sid limit millis link, d.onNotification (.connectionOk sid limit millis link) =
      (.continue, d.onConok sid limit (ofMillis millis) link) →
      motive (.connectionOk sid limit millis link))
    (conerr : ∀ code message, d.onNotification (.connectionError code message) =
      d.onConerr ⟨code, message⟩ → motive (.connectionError code message))
    (ended : ∀ code message, d.onNotification (.end code message) = d.onEnd ⟨code, message⟩ →
      motive (.end code message))
    (loop : ∀ millis, d.onNotification (.loop millis) =
      (.unbind (d.loopReason (ofMillis millis)).1, (d.loopReason (ofMillis millis)).2) →
      motive (.loop millis))
    (prog : ∀ n, d.onNotification (.progressive n) = (.continue, d.onProg n) →
      motive (.progressive n))
    (reqok : ∀ id, d.onNotification (.requestOk id) = (.continue, d.onRequestOk id) →
      motive (.requestOk id))
    (reqerr : ∀ id code message, d.onNotification (.requestError id code message) =
      (.continue, d.onRequestError id ⟨code, message⟩) → motive (.requestError id code message))
    (quiet : ∀ n, ¬isData n → d.onNotification n = (.continue, d) → motive n)
    (report : ∀ n e, ¬isData n → d.onNotification n = (.continue, d.emit e) → e.IsReport →
      motive n)
    (data : ∀ n, isData n → d.onNotification n = (.continue, d.onData n) → motive n)
    (n : Notification) : motive n := by
  cases n with
  | connectionOk => exact conok _ _ _ _ rfl
  | connectionError => exact conerr _ _ rfl
  | «end» => exact ended _ _ rfl
  | loop => exact loop _ rfl
  | progressive => exact prog _ rfl
  | requestOk => exact reqok _ rfl
  | requestError => exact reqerr _ _ _ rfl
  | probe | noOp | wsOk => exact quiet _ Bool.false_ne_true rfl
  | error | sync | clientIp | serverName | constraintsChanged =>
    exact report _ _ Bool.false_ne_true rfl trivial
  | _ => exact data _ rfl rfl

@[simp] theorem withTurn_toLifecycle (turn : Turn) :
    (d.withTurn turn).toLifecycle = d.toLifecycle := rfl

@[simp] theorem withTurn_toDesk (turn : Turn) : (d.withTurn turn).toDesk = d.toDesk := rfl

@[simp] theorem withTurn_trace (turn : Turn) : (d.withTurn turn).trace = d.trace := rfl

/-- The driver as it interprets a line. -/
def heard (d : SessionDriver) : SessionDriver := d.clocked d.liveness.onInbound

@[simp] theorem heard_toLifecycle : d.heard.toLifecycle = d.toLifecycle := rfl

@[simp] theorem heard_registry : d.heard.registry = d.registry := rfl

@[simp] theorem heard_pending : d.heard.pending = d.pending := rfl

@[simp] theorem heard_nextRequestId : d.heard.nextRequestId = d.nextRequestId := rfl

@[simp] theorem heard_trace : d.heard.trace = d.trace := rfl

theorem onLine_of_ok {text : String} {n : Notification} (h : parseLine text = .ok n) :
    d.onLine text = d.heard.onNotification n := by
  simp [onLine, h, heard]

theorem onLine_of_error {text : String} {e : ProtocolError} (h : parseLine text = .error e) :
    d.onLine text = (.continue, d.heard.emit (.unparsed text e)) := by
  simp [onLine, h, heard]

@[simp] theorem loopReason_toLifecycle (delay : ℕ) :
    (d.loopReason delay).2.toLifecycle = d.toLifecycle := by
  unfold loopReason
  split_ifs <;> rfl

@[simp] theorem loopReason_registry (delay : ℕ) : (d.loopReason delay).2.registry = d.registry := by
  unfold loopReason
  split_ifs <;> rfl

@[simp] theorem loopReason_pending (delay : ℕ) : (d.loopReason delay).2.pending = d.pending := by
  unfold loopReason
  split_ifs <;> rfl

@[simp] theorem loopReason_nextRequestId (delay : ℕ) :
    (d.loopReason delay).2.nextRequestId = d.nextRequestId := by
  unfold loopReason
  split_ifs <;> rfl

@[simp] theorem loopReason_toSurroundings (delay : ℕ) :
    (d.loopReason delay).2.toSurroundings = d.toSurroundings := by
  unfold loopReason
  split_ifs <;> rfl

/-- A `LOOP` is always a clean one, with the delay it asked for. -/
theorem loopReason_isCleanLoop (delay : ℕ) :
    (d.loopReason delay).1.isCleanLoop = true ∧
      (d.loopReason delay).1.expectedDelay = some delay := by
  unfold loopReason
  split_ifs <;> exact ⟨rfl, rfl⟩

@[simp] theorem onProg_toDesk (n : ℕ) : (d.onProg n).toDesk = d.toDesk := by
  unfold onProg
  split
  · split_ifs <;> rfl
  · rfl

/-- A `PROG` changes the lifecycle in the position and in what is left to skip only. -/
theorem onProg_toLifecycle (n : ℕ) :
    ∃ progressive skip honoured, (d.onProg n).toLifecycle = { d.toLifecycle with
      progressive := progressive, skipRemaining := skip, progHonoured := honoured } := by
  unfold onProg
  split
  · split_ifs <;> exact ⟨_, _, _, rfl⟩
  · exact ⟨_, _, _, rfl⟩

theorem onProg_extends (hP : ∀ a, a.IsReport → P a) (n : ℕ) :
    Extends P d.trace (d.onProg n).trace := by
  unfold onProg
  split
  · split_ifs
    · exact .refl P _
    · exact extends_report { d with progHonoured := true } hP trivial
    · exact extends_report { d with progHonoured := true, skipRemaining := _ } hP trivial
    · exact extends_report { d with progHonoured := true, progressive := _ } hP trivial
  · exact .refl P _

@[simp] theorem onConerr_toDesk (cause : ServerCause) :
    (d.onConerr cause).2.toDesk = d.toDesk := by
  unfold onConerr
  split <;> rfl

@[simp] theorem onConerr_toSurroundings (cause : ServerCause) :
    (d.onConerr cause).2.toSurroundings = d.toSurroundings := by
  unfold onConerr
  split <;> rfl

@[simp] theorem onEnd_toDesk (cause : ServerCause) : (d.onEnd cause).2.toDesk = d.toDesk := by
  unfold onEnd
  split_ifs
  · rfl
  · split <;> rfl

@[simp] theorem onEnd_toSurroundings (cause : ServerCause) :
    (d.onEnd cause).2.toSurroundings = d.toSurroundings := by
  unfold onEnd
  split_ifs
  · rfl
  · split <;> rfl

/-- What a notification adds to the trace. -/
theorem onNotification_extends (hP : ∀ a, a.IsReport → P a) (n : Notification)
    (hreq : ∀ r kind ps e, P (.control r kind ps e))
    (hmessage : ∀ k s p result b, P (.event (.message k s p result) b))
    (hdata : ∀ k, P (.data k n))
    (hsubscription : ∀ k key outcome b, P (.event (.subscription k key outcome) b))
    (hbound : ∀ sid limit millis link b, n = .connectionOk sid limit millis link →
      P (.event (.bound ⟨sid, d.conokKind sid, ofMillis millis, limit, link⟩) b)) :
    Extends P d.trace (d.onNotification n).2.trace := by
  induction n using onNotification_cases d with
  | conok sid limit millis link hn =>
    exact hn ▸ d.onConok_extends sid _ link limit hP hreq (hmessage none) fun b =>
      hbound sid limit millis link b rfl
  | conerr code message hn => exact hn ▸ by simp
  | ended code message hn => exact hn ▸ by simp
  | loop millis hn => exact hn ▸ by simp
  | prog n hn => exact hn ▸ d.onProg_extends hP n
  | reqok id hn => exact hn ▸ d.onRequestOk_extends hP id
  | reqerr id code message hn =>
    exact hn ▸ d.onRequestError_extends hP id _ fun _ _ _ _ => hmessage _ _ _ _ _
  | quiet n _ hn => exact hn ▸ .refl P _
  | report n e _ hn he => exact hn ▸ d.extends_report hP he
  | data n _ hn =>
    exact hn ▸ d.onData_extends n hdata (fun k => hmessage (some k)) hsubscription

/-- Why a line may end the stream connection: the server asks for the next one, or the session is
abandoned. -/
theorem onNotification_unbind {d : SessionDriver} {n : Notification} {reason : UnbindReason}
    (h : (d.onNotification n).1 = .unbind reason) :
    (d.onNotification n).2.refreshStreak = d.refreshStreak ∧
    ((isLoop n = true ∧ reason.isCleanLoop = true) ∨ d.abandons n = true ∧
      ((∃ cause, reason = .rejected cause) ∨
        isRefresh n = true ∧ ∃ cause, reason = .serverRefresh cause)) := by
  induction n using onNotification_cases d with
  | conok sid limit millis link hn => rw [hn] at h; cases h
  | conerr code message hn =>
    rw [hn] at h ⊢
    unfold onConerr at h ⊢
    cases hc : classify code <;> simp only [hc] at h ⊢ <;> cases h <;>
      exact ⟨rfl, .inr ⟨by simp [abandons, hc], .inl ⟨_, rfl⟩⟩⟩
  | ended code message hn =>
    rw [hn] at h ⊢
    unfold onEnd at h ⊢
    split_ifs at h ⊢ with hdestroy
    rw [Bool.not_eq_true] at hdestroy
    cases hc : classify code <;> simp only [hc] at h ⊢ <;> cases h
    · exact ⟨rfl, .inr ⟨by simp [abandons, hc, hdestroy], .inr ⟨by simp [isRefresh, hc], _, rfl⟩⟩⟩
    · exact ⟨rfl, .inr ⟨by simp [abandons, hc, hdestroy], .inl ⟨_, rfl⟩⟩⟩
  | loop millis hn =>
    rw [hn] at h ⊢
    cases h
    exact ⟨by simp, .inl ⟨rfl, (d.loopReason_isCleanLoop _).1⟩⟩
  | prog n hn => rw [hn] at h; cases h
  | reqok id hn => rw [hn] at h; cases h
  | reqerr id code message hn => rw [hn] at h; cases h
  | quiet n _ hn => rw [hn] at h; cases h
  | report n e _ hn he => rw [hn] at h; cases h
  | data n _ hn => rw [hn] at h; cases h

/-- What only a bind changes. -/
structure Steady (d d' : SessionDriver) : Prop where
  options : d'.options = d.options
  properties : d'.properties = d.properties
  streamState : d'.streamState = d.streamState
  intent : d'.intent = d.intent
  generation : d'.generation = d.generation
  backoff : d'.backoff = d.backoff

theorem Steady.of_toLifecycle {d d' : SessionDriver} (h : d'.toLifecycle = d.toLifecycle) :
    Steady d d' := by
  constructor <;> rw [h]

theorem onCommand_steady (c : SessionCommand) : Steady d (d.onCommand c).2 := by
  obtain ⟨b, h⟩ := d.onCommand_toLifecycle c
  constructor <;> rw [h]

theorem onNotification_steady {d : SessionDriver} {n : Notification} (hbind : isBind n = false) :
    Steady d (d.onNotification n).2 := by
  have hsame : Steady d d := .of_toLifecycle rfl
  have habandon : Steady d d.abandonSession := ⟨rfl, rfl, rfl, rfl, rfl, rfl⟩
  induction n using onNotification_cases d with
  | conok sid limit millis link hn => cases hbind
  | conerr code message hn =>
    rw [hn]
    unfold onConerr
    split
    · exact hsame
    · exact habandon
    · exact habandon
  | ended code message hn =>
    rw [hn]
    unfold onEnd
    split_ifs
    · exact hsame
    · split
      · exact habandon
      · exact habandon
      · exact hsame
  | loop millis hn => exact hn ▸ .of_toLifecycle (by simp)
  | prog n hn =>
    obtain ⟨progressive, skip, honoured, h⟩ := d.onProg_toLifecycle n
    rw [hn]
    constructor <;> rw [h]
  | reqok id hn => exact hn ▸ .of_toLifecycle (by simp)
  | reqerr id code message hn =>
    rw [hn]
    constructor <;> rw [onRequestError_toLifecycle]
  | quiet n _ hn => exact hn ▸ hsame
  | report n e _ hn he =>
    rw [hn]
    exact .of_toLifecycle (by simp)
  | data n _ hn =>
    rw [hn]
    constructor <;> rw [onData_toLifecycle]

/-! ## Timers -/

/-- What a deadline does: nothing, a heartbeat, or the loss of the connection. -/
theorem onTimer_cases :
    (∃ f flow, d.onTimer = (flow, d.clocked f) ∧ (flow = .continue ∨
      ∃ budget, d.liveness.due (d.turn.clock.headD 0) = .inboundStalled budget ∧
        (flow = .unbind (.keepaliveExpired budget) ∨
          ∃ detail, flow = .unbind (.connectionFailed detail)))) ∨
    ∃ f, d.onTimer = (d.clocked f).sendHeartbeat ∧
      d.liveness.due (d.turn.clock.headD 0) = .sendHeartbeat := by
  unfold onTimer
  cases h : d.liveness.due (d.turn.clock.headD 0) with
  | idle => exact .inl ⟨_, _, rfl, .inl rfl⟩
  | sendHeartbeat => exact .inr ⟨_, rfl, rfl⟩
  | inboundStalled budget =>
    refine .inl ⟨fun _ => d.liveness, _, Prod.ext rfl ?_, .inr ⟨budget, rfl, ?_⟩⟩
    · dsimp only
      split <;> rfl
    · dsimp only
      split
      · exact .inr ⟨_, rfl⟩
      · exact .inl rfl

/-- A deadline keeps the pump going or loses the connection. -/
theorem onTimer_flow :
    d.onTimer.1 = .continue ∨ (∃ budget, d.onTimer.1 = .unbind (.keepaliveExpired budget)) ∨
      ∃ detail, d.onTimer.1 = .unbind (.connectionFailed detail) := by
  obtain ⟨f, flow, h, rfl | ⟨budget, -, rfl | ⟨detail, rfl⟩⟩⟩ | ⟨f, h, -⟩ := d.onTimer_cases
  · exact .inl (by rw [h])
  · exact .inr (.inl ⟨budget, by rw [h]⟩)
  · exact .inr (.inr ⟨detail, by rw [h]⟩)
  · rw [h, sendHeartbeat]
    exact (settleHeartbeat_flow _ _).imp_right .inr

@[simp] theorem onTimer_registry : d.onTimer.2.registry = d.registry := by
  obtain ⟨f, flow, h, -⟩ | ⟨f, h, -⟩ := d.onTimer_cases <;> simp [h]

@[simp] theorem onTimer_pending : d.onTimer.2.pending = d.pending := by
  obtain ⟨f, flow, h, -⟩ | ⟨f, h, -⟩ := d.onTimer_cases <;> simp [h]

@[simp] theorem onTimer_nextRequestId : d.onTimer.2.nextRequestId = d.nextRequestId := by
  obtain ⟨f, flow, h, -⟩ | ⟨f, h, -⟩ := d.onTimer_cases <;> simp [h]

theorem onTimer_toLifecycle :
    ∃ failures, d.onTimer.2.toLifecycle =
      { d.toLifecycle with heartbeatFailures := failures } := by
  obtain ⟨f, flow, h, -⟩ | ⟨f, h, -⟩ := d.onTimer_cases
  · exact ⟨d.heartbeatFailures, by simp [h]⟩
  · simpa [h] using (d.clocked f).sendHeartbeat_toLifecycle

theorem onTimer_extends (hreq : ∀ r ps e, P (.control (.heartbeat r) none ps e)) :
    Extends P d.trace d.onTimer.2.trace := by
  obtain ⟨f, flow, h, -⟩ | ⟨f, h, -⟩ := d.onTimer_cases
  · simp [h]
  · simpa [h] using (d.clocked f).sendHeartbeat_extends hreq

/-! ## Plans -/

theorem planAfter_of_isCleanLoop {reason : UnbindReason} (h : reason.isCleanLoop) :
    d.planAfter reason = (some ⟨.rebind, reason.expectedDelay.getD 0⟩,
      { d with backoff := d.backoff.reset, refreshStreak := 0 }) := by
  cases reason <;> first | rfl | cases h

/-- What reopening after a delay does. -/
theorem reopenLater_eq_some {d d' : SessionDriver} {intent : OpenIntent} {next : Reopen}
    (h : d.reopenLater intent = (some next, d')) :
    next.intent = intent ∧ d.backoff.nextDelay.1 = some next.delay ∧
      d' = { d with backoff := d.backoff.nextDelay.2 } := by
  simp only [reopenLater, Prod.mk.injEq, Option.map_eq_some_iff] at h
  obtain ⟨⟨delay, hdelay, rfl⟩, rfl⟩ := h
  exact ⟨rfl, hdelay, rfl⟩

/-- **What the driver opens after an unbind.** It binds again after a clean end; it recovers the
session it holds after a failure; otherwise it creates a session. -/
theorem planAfter_intent {d d' : SessionDriver} {reason : UnbindReason} {next : Reopen}
    (h : d.planAfter reason = (some next, d')) :
    (reason.isCleanLoop = true ∧ next.intent = .rebind) ∨ next.intent = .create ∨
      d.session ≠ none ∧ next.intent = .recover d.progressive := by
  have hfailed : ∀ {d₁ d₂ : SessionDriver}, d₁.session = d.session →
      d₁.progressive = d.progressive → d₁.reopenLater
        (if d₁.session.isSome then .recover d₁.progressive else .create) = (some next, d₂) →
      next.intent = .create ∨ d.session ≠ none ∧ next.intent = .recover d.progressive := by
    intro d₁ d₂ hs hp h
    rw [(reopenLater_eq_some h).1, hs, hp]
    by_cases hsome : d.session.isSome = true
    · exact .inr ⟨by simpa [Option.isSome_iff_ne_none] using hsome, by simp [hsome]⟩
    · exact .inl (by simp [hsome])
  by_cases hclean : reason.isCleanLoop = true
  · rw [planAfter_of_isCleanLoop d hclean] at h
    cases h
    exact .inl ⟨hclean, rfl⟩
  · refine .inr ?_
    cases reason with
    | connectionFailed detail => exact @hfailed { d with refreshStreak := 0 } _ rfl rfl h
    | keepaliveExpired budget => exact @hfailed { d with refreshStreak := 0 } _ rfl rfl h
    | rejected cause => exact .inl (reopenLater_eq_some h).1
    | serverRefresh cause =>
      unfold planAfter at h
      dsimp only at h
      split_ifs at h
      · cases h
        exact .inl rfl
      · cases h
      · exact .inl (reopenLater_eq_some h).1
    | _ => exact absurd rfl hclean

/-- A clean end, or the first refresh in a row. -/
def StartsOver (d : SessionDriver) (reason : UnbindReason) : Prop :=
  reason.isCleanLoop = true ∨ d.refreshStreak = 0 ∧ ∃ cause, reason = .serverRefresh cause

theorem not_startsOver {d : SessionDriver} {reason : UnbindReason}
    (hclean : reason.isCleanLoop = false) (hrefresh : ∀ cause, reason ≠ .serverRefresh cause) :
    ¬d.StartsOver reason := by
  rintro (hloop | ⟨-, cause, hcause⟩)
  · rw [hclean] at hloop
    cases hloop
  · exact hrefresh cause hcause

/-- **What a plan does to the schedule.** It starts over after a clean end and at the first refresh
in a row; otherwise the attempt is counted. -/
theorem planAfter_backoff {d d' : SessionDriver} {reason : UnbindReason} {next : Reopen}
    (h : d.planAfter reason = (some next, d')) :
    (d'.backoff = d.backoff.reset ∧ d.StartsOver reason) ∨
    d.backoff.nextDelay.1 = some next.delay ∧ d'.backoff = d.backoff.nextDelay.2 := by
  have hcounted : ∀ {d₁ : SessionDriver} {intent}, d₁.backoff = d.backoff →
      d₁.reopenLater intent = (some next, d') →
      d.backoff.nextDelay.1 = some next.delay ∧ d'.backoff = d.backoff.nextDelay.2 := by
    intro d₁ intent hb h
    obtain ⟨-, hdelay, rfl⟩ := reopenLater_eq_some h
    exact ⟨hb ▸ hdelay, congrArg (·.nextDelay.2) hb⟩
  by_cases hclean : reason.isCleanLoop = true
  · rw [planAfter_of_isCleanLoop d hclean] at h
    cases h
    exact .inl ⟨rfl, .inl hclean⟩
  · cases reason with
    | connectionFailed detail => exact .inr (@hcounted { d with refreshStreak := 0 } _ rfl h)
    | keepaliveExpired budget => exact .inr (@hcounted { d with refreshStreak := 0 } _ rfl h)
    | rejected cause => exact .inr (@hcounted { d with refreshStreak := 0 } _ rfl h)
    | serverRefresh cause =>
      unfold planAfter at h
      dsimp only at h
      split_ifs at h with hstreak
      · cases h
        refine .inl ⟨rfl, .inr ⟨?_, cause, rfl⟩⟩
        have hmax : 1 < u32Max := by decide
        unfold saturatingAdd at hstreak
        omega
      · cases h
      · exact .inr (@hcounted { d with refreshStreak := saturatingAdd u32Max d.refreshStreak 1 } _
          rfl h)
    | _ => exact absurd rfl hclean

@[simp] theorem planAfter_toDesk (reason : UnbindReason) :
    (d.planAfter reason).2.toDesk = d.toDesk := by
  cases reason <;> try rfl
  unfold planAfter
  dsimp only
  split_ifs <;> rfl

@[simp] theorem planAfter_toSurroundings (reason : UnbindReason) :
    (d.planAfter reason).2.toSurroundings = d.toSurroundings := by
  cases reason <;> try rfl
  unfold planAfter
  dsimp only
  split_ifs <;> rfl

/-- A plan changes the lifecycle in the backoff and in the streak of refreshes only. -/
theorem planAfter_toLifecycle (reason : UnbindReason) :
    ∃ backoff streak, (d.planAfter reason).2.toLifecycle =
      { d.toLifecycle with backoff := backoff, refreshStreak := streak } := by
  cases reason <;> try exact ⟨_, _, rfl⟩
  unfold planAfter
  dsimp only
  split_ifs <;> exact ⟨_, _, rfl⟩

end SessionDriver

namespace Drive

open SessionDriver

variable {P : Action → Prop} (d : SessionDriver)

/-! ## The loop -/

theorem finish_trace (closed : SessionClosed) :
    ∃ b, (finish d closed).driver.trace = d.trace ++ [.close, .event (.closed closed) b] :=
  ⟨!d.turn.interrupts.headD false, by simp [finish, emit, act]⟩

@[simp] theorem finish_toDesk (closed : SessionClosed) :
    (finish d closed).driver.toDesk = d.toDesk := rfl

@[simp] theorem finish_toLifecycle (closed : SessionClosed) :
    (finish d closed).driver.toLifecycle = d.toLifecycle := rfl

@[simp] theorem finish_phase (closed : SessionClosed) :
    (finish d closed).phase = .closed closed := rfl

theorem finish_extends (hP : ∀ a, a.IsLoop → P a) (closed : SessionClosed) :
    Extends P d.trace (finish d closed).driver.trace := by
  obtain ⟨b, h⟩ := finish_trace d closed
  rw [h, List.append_cons]
  exact (Extends.one (hP .close trivial) _).concat (hP _ trivial)

@[simp] theorem openNext_toDesk (next : Reopen) : (openNext d next).driver.toDesk = d.toDesk := rfl

@[simp] theorem openNext_trace (next : Reopen) :
    (openNext d next).driver.trace = d.trace ++ [.openStream (d.buildOpen next.intent)] := rfl

@[simp] theorem openNext_toLifecycle (next : Reopen) :
    (openNext d next).driver.toLifecycle = { d.toLifecycle with
      intent := next.intent
      streamState := .establishing
      skipRemaining := 0
      progHonoured := false } := rfl

@[simp] theorem openNext_phase (next : Reopen) : (openNext d next).phase = .opening := rfl

@[simp] theorem reopen_toDesk (next : Reopen) : (reopen d next).driver.toDesk = d.toDesk := by
  unfold reopen
  split_ifs <;> rfl

theorem reopen_extends (hP : ∀ a, a.IsLoop → P a) (next : Reopen) :
    Extends P d.trace (reopen d next).driver.trace := by
  unfold reopen
  split_ifs
  · exact .one (hP (.openStream _) trivial) _
  · exact .refl P _

@[simp] theorem closeUnlessLooped_toLifecycle (reason : UnbindReason) :
    (closeUnlessLooped d reason).toLifecycle = d.toLifecycle := by
  unfold closeUnlessLooped
  split_ifs <;> rfl

@[simp] theorem closeUnlessLooped_toDesk (reason : UnbindReason) :
    (closeUnlessLooped d reason).toDesk = d.toDesk := by
  unfold closeUnlessLooped
  split_ifs <;> rfl

theorem closeUnlessLooped_extends (hclose : P .close) (reason : UnbindReason) :
    Extends P d.trace (closeUnlessLooped d reason).trace := by
  unfold closeUnlessLooped
  split_ifs
  · exact .refl P _
  · exact .one hclose _

/-- The driver as it plans the next stream connection. -/
def unbound (d : SessionDriver) (reason : UnbindReason) : SessionDriver :=
  closeUnlessLooped
    { d with liveness := d.liveness.onStreamClosed, streamState := .establishing } reason

@[simp] theorem unbound_toLifecycle (reason : UnbindReason) :
    (unbound d reason).toLifecycle = { d.toLifecycle with streamState := .establishing } := by
  simp [unbound]

/-- **The cases of the bottom of the loop.** The driver reopens, or it ends. -/
theorem unbind_cases (reason : UnbindReason) :
    (∃ next d', (unbound d reason).planAfter reason = (some next, d') ∧
      (unbind d reason = finish (d'.emit (.unbound reason (some next.delay))) stopped ∨
        unbind d reason = reopen (d'.emit (.unbound reason (some next.delay))) next)) ∨
    ∃ d', (unbound d reason).planAfter reason = (none, d') ∧
      unbind d reason = finish (d'.emit (.unbound reason none))
        (.retriesExhausted d'.backoff.attempts (some reason)) := by
  unfold unbind
  dsimp only
  have h : closeUnlessLooped
      { d with liveness := d.liveness.onStreamClosed, streamState := .establishing } reason =
    unbound d reason := rfl
  rw [h]
  cases hp : (unbound d reason).planAfter reason with
  | mk next d' =>
    cases next with
    | none => exact .inr ⟨d', rfl, rfl⟩
    | some next =>
      refine .inl ⟨next, d', rfl, ?_⟩
      dsimp only
      split
      · exact .inl rfl
      · exact .inr rfl

theorem unbound_extends (hclose : P .close) (reason : UnbindReason) :
    Extends P d.trace (unbound d reason).trace :=
  closeUnlessLooped_extends
    { d with liveness := d.liveness.onStreamClosed, streamState := .establishing } hclose reason

/-- What the report of an unbind adds to the trace. -/
theorem planned_extends {d d' : SessionDriver} {reason : UnbindReason} {next : Option Reopen}
    (h : (unbound d reason).planAfter reason = (next, d')) (hclose : P .close) (retry : Option ℕ)
    (hreport : ∀ b, P (.event (.unbound reason retry) b)) :
    Extends P d.trace (d'.emit (.unbound reason retry)).trace := by
  have ht := planAfter_toSurroundings (unbound d reason) reason
  rw [h] at ht
  dsimp only at ht
  refine Extends.trans ?_ (extends_emit d' hreport)
  rw [ht]
  exact unbound_extends d hclose reason

/-- The part of the bookkeeping that the loop leaves alone. -/
structure SameDesk (d : SessionDriver) (s : Drive) : Prop where
  registry : s.driver.registry = d.registry
  pending : s.driver.pending = d.pending
  nextRequestId : s.driver.nextRequestId = d.nextRequestId
  forceRebindOutstanding : s.driver.forceRebindOutstanding = d.forceRebindOutstanding

theorem SameDesk.of_toDesk {d : SessionDriver} {s : Drive} (h : s.driver.toDesk = d.toDesk) :
    SameDesk d s :=
  ⟨by rw [h], by rw [h], by rw [h], by rw [h]⟩

/-- The part of the lifecycle that the loop leaves alone: the session and the place in it. -/
structure SameSession (d : SessionDriver) (s : Drive) : Prop where
  session : s.driver.session = d.session
  previousSession : s.driver.previousSession = d.previousSession
  progressive : s.driver.progressive = d.progressive
  generation : s.driver.generation = d.generation

theorem SameSession.of_toLifecycle {d : SessionDriver} {s : Drive}
    (h : s.driver.toLifecycle = d.toLifecycle) : SameSession d s :=
  ⟨by rw [h], by rw [h], by rw [h], by rw [h]⟩

theorem planned_sameDesk {d d' : SessionDriver} {reason : UnbindReason} {next : Option Reopen}
    (h : (unbound d reason).planAfter reason = (next, d')) {s : Drive}
    (hs : s.driver.toDesk = d'.toDesk) : SameDesk d s := by
  have hd' := planAfter_toDesk (unbound d reason) reason
  rw [h] at hd'
  have hu : (unbound d reason).toDesk = { d.toDesk with
      liveness := d.liveness.onStreamClosed } := by
    simp [unbound]
  exact ⟨by rw [hs, hd', hu], by rw [hs, hd', hu], by rw [hs, hd', hu], by rw [hs, hd', hu]⟩

theorem unbind_sameDesk (reason : UnbindReason) : SameDesk d (unbind d reason) := by
  obtain ⟨next, d', h, h' | h'⟩ | ⟨d', h, h'⟩ := unbind_cases d reason <;>
    exact planned_sameDesk h (by simp [h'])

theorem reopen_sameSession (next : Reopen) : SameSession d (reopen d next) := by
  unfold reopen
  split <;> exact ⟨rfl, rfl, rfl, rfl⟩

theorem unbind_sameSession (reason : UnbindReason) : SameSession d (unbind d reason) := by
  obtain ⟨backoff, streak, hl⟩ := planAfter_toLifecycle (unbound d reason) reason
  have hkept : ∀ {d' : SessionDriver}, d'.toLifecycle = { (unbound d reason).toLifecycle with
      backoff := backoff, refreshStreak := streak } → SameSession d ⟨d', .pumping⟩ :=
    fun h => ⟨by rw [h, unbound_toLifecycle], by rw [h, unbound_toLifecycle],
      by rw [h, unbound_toLifecycle], by rw [h, unbound_toLifecycle]⟩
  obtain ⟨next, d', h, h' | h'⟩ | ⟨d', h, h'⟩ := unbind_cases d reason
  all_goals
    rw [h] at hl
    rw [h']
    have hd' := hkept hl
  · exact ⟨hd'.session, hd'.previousSession, hd'.progressive, hd'.generation⟩
  · have hreopen := reopen_sameSession (d'.emit (.unbound reason (some next.delay))) next
    exact ⟨hreopen.session.trans hd'.session, hreopen.previousSession.trans hd'.previousSession,
      hreopen.progressive.trans hd'.progressive, hreopen.generation.trans hd'.generation⟩
  · exact ⟨hd'.session, hd'.previousSession, hd'.progressive, hd'.generation⟩

theorem unbind_extends (hP : ∀ a, a.IsLoop → P a) (reason : UnbindReason) :
    Extends P d.trace (unbind d reason).driver.trace := by
  have hclose : P .close := hP .close trivial
  have hreport : ∀ retry b, P (.event (.unbound reason retry) b) := fun retry b => hP _ trivial
  obtain ⟨next, d', h, h' | h'⟩ | ⟨d', h, h'⟩ := unbind_cases d reason
  · rw [h']
    exact (planned_extends h hclose _ (hreport _)).trans (finish_extends _ hP _)
  · rw [h']
    exact (planned_extends h hclose _ (hreport _)).trans (reopen_extends _ hP _)
  · rw [h']
    exact (planned_extends h hclose _ (hreport _)).trans (finish_extends _ hP _)

/-- What the pump's turn leads to. -/
theorem afterPump_cases (r : Flow × SessionDriver) :
    afterPump r = finish r.2 stopped ∨
    (r.1 = .continue ∧ r.2.stopping = false ∧ afterPump r = ⟨r.2, .pumping⟩) ∨
    (∃ reason, r.1 = .unbind reason ∧ r.2.stopping = false ∧ afterPump r = unbind r.2 reason) ∨
    ∃ closed, r.1 = .closed closed ∧ afterPump r = finish r.2 closed := by
  obtain ⟨flow, d⟩ := r
  by_cases h : d.stopping = true
  · exact .inl (by simp [afterPump, h])
  · rw [Bool.not_eq_true] at h
    cases flow with
    | «continue» => exact .inr (.inl ⟨rfl, h, by simp [afterPump, h]⟩)
    | unbind reason => exact .inr (.inr (.inl ⟨reason, rfl, h, by simp [afterPump, h]⟩))
    | closed closed => exact .inr (.inr (.inr ⟨closed, rfl, by simp [afterPump, h]⟩))

theorem afterPump_sameDesk (r : Flow × SessionDriver) : SameDesk r.2 (afterPump r) := by
  obtain h | ⟨-, -, h⟩ | ⟨reason, -, -, h⟩ | ⟨closed, -, h⟩ := afterPump_cases r
  · exact .of_toDesk (by simp [h])
  · exact .of_toDesk (by simp [h])
  · exact h ▸ unbind_sameDesk r.2 reason
  · exact .of_toDesk (by simp [h])

theorem afterPump_sameSession (r : Flow × SessionDriver) : SameSession r.2 (afterPump r) := by
  obtain h | ⟨-, -, h⟩ | ⟨reason, -, -, h⟩ | ⟨closed, -, h⟩ := afterPump_cases r
  · exact h ▸ .of_toLifecycle (finish_toLifecycle r.2 stopped)
  · exact h ▸ ⟨rfl, rfl, rfl, rfl⟩
  · exact h ▸ unbind_sameSession r.2 reason
  · exact h ▸ .of_toLifecycle (finish_toLifecycle r.2 closed)

theorem afterPump_extends (hP : ∀ a, a.IsLoop → P a) (r : Flow × SessionDriver) :
    Extends P r.2.trace (afterPump r).driver.trace := by
  obtain h | ⟨-, -, h⟩ | ⟨reason, -, -, h⟩ | ⟨closed, -, h⟩ := afterPump_cases r
  · exact h ▸ finish_extends r.2 hP stopped
  · simp [h]
  · exact h ▸ unbind_extends r.2 hP reason
  · exact h ▸ finish_extends r.2 hP closed

/-- What a command taken during the delay leads to. -/
theorem afterWait_cases (next : Reopen) (r : Flow × SessionDriver) :
    (∃ closed, r.1 = .closed closed ∧ afterWait next r = finish r.2 closed) ∨
    (afterWait next r = finish r.2 stopped) ∨
    ((∀ closed, r.1 ≠ .closed closed) ∧ r.2.stopping = false ∧
      afterWait next r = ⟨r.2, .waiting next⟩) := by
  obtain ⟨flow, d⟩ := r
  have hwait : (∀ closed, flow ≠ .closed closed) → afterWait next (flow, d) =
      if d.stopping then finish d stopped else ⟨d, .waiting next⟩ := fun h => by
    cases flow with
    | closed closed => exact absurd rfl (h closed)
    | _ => rfl
  by_cases hflow : ∃ closed, flow = .closed closed
  · obtain ⟨closed, rfl⟩ := hflow
    exact .inl ⟨closed, rfl, rfl⟩
  · have hne : ∀ closed, flow ≠ .closed closed := fun closed h => hflow ⟨closed, h⟩
    by_cases h : d.stopping = true
    · exact .inr (.inl (by simp [hwait hne, h]))
    · rw [Bool.not_eq_true] at h
      exact .inr (.inr ⟨hne, h, by simp [hwait hne, h]⟩)

theorem afterWait_toDesk (next : Reopen) (r : Flow × SessionDriver) :
    (afterWait next r).driver.toDesk = r.2.toDesk := by
  obtain ⟨closed, -, h⟩ | h | ⟨-, -, h⟩ := afterWait_cases next r <;> simp [h]

theorem afterWait_sameSession (next : Reopen) (r : Flow × SessionDriver) :
    SameSession r.2 (afterWait next r) := by
  obtain ⟨closed, -, h⟩ | h | ⟨-, -, h⟩ := afterWait_cases next r
  · exact h ▸ .of_toLifecycle (finish_toLifecycle r.2 closed)
  · exact h ▸ .of_toLifecycle (finish_toLifecycle r.2 stopped)
  · exact h ▸ ⟨rfl, rfl, rfl, rfl⟩

theorem afterWait_extends (hP : ∀ a, a.IsLoop → P a) (next : Reopen) (r : Flow × SessionDriver) :
    Extends P r.2.trace (afterWait next r).driver.trace := by
  obtain ⟨closed, -, h⟩ | h | ⟨-, -, h⟩ := afterWait_cases next r
  · exact h ▸ finish_extends r.2 hP closed
  · exact h ▸ finish_extends r.2 hP stopped
  · simp [h]

/-! ## Turns -/

/-- A stream connection fails to be established. -/
def OpenFails (d : SessionDriver) (wake : Wake) (detail : String) : Prop :=
  wake = .openFailed detail ∨ wake = .openTimedOut ∧
    detail = "the stream connection was not established within " ++
      s!"{durationDebug d.establishmentBudget}"

/-- The pump's turns without a line, a command or a timer. -/
def Interrupted (d : SessionDriver) (wake : Wake) (flow : Flow) : Prop :=
  (∃ detail, wake = .lineFailed detail ∧ flow = .unbind (.connectionFailed detail)) ∨
    (wake = .streamEnded ∧ flow = d.onStreamEnd) ∨
    ((wake = .stop ∨ wake = .handlesDropped) ∧ flow = .closed stopped)

/-- The ways a turn goes, with `d` the driver that takes it. -/
inductive Turned (s : Drive) (wake : Wake) (d : SessionDriver) : Drive → Prop
  | waitCommand (next : Reopen) (c : SessionCommand) (phase : s.phase = .waiting next)
      (hwake : wake = .command c) : Turned s wake d (afterWait next (d.onCommand c))
  | waitOver (next : Reopen) (phase : s.phase = .waiting next) (hwake : wake = .timer) :
      Turned s wake d (openNext d next)
  | waitStop (next : Reopen) (phase : s.phase = .waiting next)
      (hwake : wake = .stop ∨ wake = .handlesDropped) : Turned s wake d (finish d stopped)
  | opened (phase : s.phase = .opening) (hwake : wake = .opened) : Turned s wake d (established d)
  | openFailed (detail : String) (phase : s.phase = .opening) (hwake : OpenFails d wake detail) :
      Turned s wake d (failed d detail)
  | openStop (phase : s.phase = .opening) (hwake : wake = .stop ∨ wake = .handlesDropped) :
      Turned s wake d (finish d stopped)
  | line (text : String) (phase : s.phase = .pumping) (hwake : wake = .line text) :
      Turned s wake d (afterPump (d.onLine text))
  | command (c : SessionCommand) (phase : s.phase = .pumping) (hwake : wake = .command c) :
      Turned s wake d (afterPump (d.onCommand c))
  | timer (phase : s.phase = .pumping) (hwake : wake = .timer) :
      Turned s wake d (afterPump d.onTimer)
  | interrupted (flow : Flow) (phase : s.phase = .pumping) (hwake : Interrupted d wake flow) :
      Turned s wake d (afterPump (flow, d))

/-- **The inversion of a turn.** -/
theorem step_turns {s s' : Drive} {i : Input} (h : step s i = some s') :
    Turned s i.wake (s.driver.withTurn i.turn) s' := by
  unfold step at h
  dsimp only at h
  split at h
  case h_1 next hphase =>
    unfold waitTurn at h
    split at h
    · rename_i c hw
      exact Option.some.inj h ▸ .waitCommand next c hphase hw
    · rename_i hw
      exact Option.some.inj h ▸ .waitOver next hphase hw
    · rename_i hw
      exact Option.some.inj h ▸ .waitStop next hphase (.inl hw)
    · rename_i hw
      exact Option.some.inj h ▸ .waitStop next hphase (.inr hw)
    · cases h
  case h_2 hphase =>
    unfold openTurn at h
    split at h
    · rename_i hw
      exact Option.some.inj h ▸ .opened hphase hw
    · rename_i detail hw
      exact Option.some.inj h ▸ .openFailed detail hphase (.inl hw)
    · rename_i hw
      exact Option.some.inj h ▸ .openFailed _ hphase (.inr ⟨hw, rfl⟩)
    · rename_i hw
      exact Option.some.inj h ▸ .openStop hphase (.inl hw)
    · rename_i hw
      exact Option.some.inj h ▸ .openStop hphase (.inr hw)
    · cases h
  case h_3 hphase =>
    obtain ⟨r, hr, rfl⟩ := Option.map_eq_some_iff.1 h
    unfold pumpTurn at hr
    split at hr
    · rename_i text hw
      exact Option.some.inj hr ▸ .line text hphase hw
    · rename_i detail hw
      exact Option.some.inj hr ▸ .interrupted _ hphase (.inl ⟨detail, hw, rfl⟩)
    · rename_i hw
      exact Option.some.inj hr ▸ .interrupted _ hphase (.inr (.inl ⟨hw, rfl⟩))
    · rename_i c hw
      exact Option.some.inj hr ▸ .command c hphase hw
    · rename_i hw
      split_ifs at hr
      exact Option.some.inj hr ▸ .timer hphase hw
    · rename_i hw
      exact Option.some.inj hr ▸ .interrupted _ hphase (.inr (.inr ⟨.inl hw, rfl⟩))
    · rename_i hw
      exact Option.some.inj hr ▸ .interrupted _ hphase (.inr (.inr ⟨.inr hw, rfl⟩))
    · cases hr
  case h_4 => cases h

/-- A turn that brings a notification hands it to the state machine. -/
theorem step_notification {s s' : Drive} {i : Input} {n : Notification}
    (hn : i.notification = some n)
    (hstep : step s i = some s') :
    s' = afterPump ((s.driver.withTurn i.turn).heard.onNotification n) := by
  obtain ⟨text, hw, hp⟩ := Input.notification_eq_some hn
  cases step_turns hstep with
  | line text' _ hw' =>
    rw [hw] at hw'
    cases hw'
    rw [onLine_of_ok _ hp]
  | waitCommand _ _ _ hw' | waitOver _ _ hw' | opened _ hw' | command _ _ hw' | timer _ hw' =>
    rw [hw] at hw'
    cases hw'
  | waitStop _ _ hw' | openStop _ hw' => rcases hw' with hw' | hw' <;> rw [hw] at hw' <;> cases hw'
  | openFailed _ _ hw' => rcases hw' with hw' | ⟨hw', -⟩ <;> rw [hw] at hw' <;> cases hw'
  | interrupted _ _ hw' =>
    rcases hw' with ⟨_, hw', -⟩ | ⟨hw', -⟩ | ⟨hw' | hw', -⟩ <;> rw [hw] at hw' <;> cases hw'

/-- **The rule for what the loop leaves alone.** A relation that composes and that the loop
satisfies holds of a turn once it holds of its command, its line or its timer. -/
theorem step_kept {R : SessionDriver → SessionDriver → Prop}
    (trans : ∀ {d d' d''}, R d d' → R d' d'' → R d d'')
    (loop : ∀ {d s}, SameDesk d s → SameSession d s →
      Extends Action.IsLoop d.trace s.driver.trace → R d s.driver)
    {s s' : Drive} {i : Input} {d : SessionDriver} (hd : d = s.driver.withTurn i.turn)
    (command : ∀ c, i.wake = .command c → R d (d.onCommand c).2)
    (line : ∀ text, i.wake = .line text → R d (d.onLine text).2)
    (timer : R d d.onTimer.2) (h : step s i = some s') : R d s'.driver := by
  have hdone : ∀ closed, R d (finish d closed).driver := fun closed =>
    loop (.of_toDesk (by simp)) (.of_toLifecycle (by simp)) (finish_extends d (fun _ h => h) closed)
  have hpump : ∀ {r : Flow × SessionDriver}, R d r.2 → R d (afterPump r).driver := fun {r} hr =>
    trans hr (loop (afterPump_sameDesk r) (afterPump_sameSession r)
      (afterPump_extends (fun _ h => h) r))
  have hwait : ∀ {next} {r : Flow × SessionDriver}, R d r.2 → R d (afterWait next r).driver :=
    fun {next r} hr => trans hr (loop (.of_toDesk (afterWait_toDesk next r))
      (afterWait_sameSession next r) (afterWait_extends (fun _ h => h) next r))
  have hrefl : R d d :=
    loop (s := ⟨d, .pumping⟩) ⟨rfl, rfl, rfl, rfl⟩ ⟨rfl, rfl, rfl, rfl⟩ (.refl _ _)
  subst hd
  cases step_turns h with
  | waitCommand next c _ hw => exact hwait (command c hw)
  | waitOver next =>
    have hloop : Action.IsLoop (.openStream ((s.driver.withTurn i.turn).buildOpen next.intent)) :=
      trivial
    exact loop (.of_toDesk (by simp)) ⟨rfl, rfl, rfl, rfl⟩ (.one hloop _)
  | waitStop | openStop => exact hdone stopped
  | opened =>
    exact loop (s := established _) ⟨rfl, rfl, rfl, rfl⟩ ⟨rfl, rfl, rfl, rfl⟩ (.refl _ _)
  | openFailed detail =>
    exact loop (unbind_sameDesk _ _) (unbind_sameSession _ _) (unbind_extends _ (fun _ h => h) _)
  | line text _ hw => exact hpump (line text hw)
  | command c _ hw => exact hpump (command c hw)
  | timer => exact hpump timer
  | interrupted flow => exact hpump (r := (flow, _)) hrefl

/-- **The rule for the bookkeeping**, where the session does not matter. -/
theorem step_desk {R : SessionDriver → SessionDriver → Prop}
    (trans : ∀ {d d' d''}, R d d' → R d' d'' → R d d'')
    (loop : ∀ {d s}, SameDesk d s → Extends Action.IsLoop d.trace s.driver.trace → R d s.driver)
    {s s' : Drive} {i : Input} {d : SessionDriver} (hd : d = s.driver.withTurn i.turn)
    (command : ∀ c, i.wake = .command c → R d (d.onCommand c).2)
    (line : ∀ text, i.wake = .line text → R d (d.onLine text).2)
    (timer : R d d.onTimer.2) (h : step s i = some s') : R d s'.driver :=
  step_kept (R := R) trans (fun hdesk _ ht => loop hdesk ht) hd command line timer h

/-- While no stream connection is established, the stream is not bound. -/
def Settled (s : Drive) : Prop :=
  match s.phase with
  | .waiting _ | .opening => s.driver.streamState = .establishing
  | .pumping | .closed _ => True

theorem reopen_settled {d : SessionDriver} (h : d.streamState = .establishing) (next : Reopen) :
    Settled (reopen d next) := by
  unfold reopen
  split_ifs
  · rfl
  · exact h

theorem unbind_settled (d : SessionDriver) (reason : UnbindReason) : Settled (unbind d reason) := by
  obtain ⟨next, d', hp, hu | hu⟩ | ⟨d', hp, hu⟩ := unbind_cases d reason
  · exact hu ▸ trivial
  · have hl := planAfter_toLifecycle (unbound d reason) reason
    obtain ⟨backoff, streak, hl⟩ := hl
    rw [hp, unbound_toLifecycle] at hl
    exact hu ▸ reopen_settled (d := d'.emit _) (congrArg Lifecycle.streamState hl) next
  · exact hu ▸ trivial

theorem step_settled {s s' : Drive} {i : Input} (h : Settled s) (hstep : step s i = some s') :
    Settled s' := by
  have hpump : ∀ r : Flow × SessionDriver, Settled (afterPump r) := fun r => by
    obtain hp | ⟨-, -, hp⟩ | ⟨reason, -, -, hp⟩ | ⟨closed, -, hp⟩ := afterPump_cases r
    · exact hp ▸ trivial
    · exact hp ▸ trivial
    · exact hp ▸ unbind_settled r.2 reason
    · exact hp ▸ trivial
  cases step_turns hstep with
  | waitCommand next c hphase =>
    obtain ⟨closed, -, hw⟩ | hw | ⟨-, -, hw⟩ :=
      afterWait_cases next ((s.driver.withTurn i.turn).onCommand c)
    · exact hw ▸ trivial
    · exact hw ▸ trivial
    · have hstate : s.driver.streamState = .establishing := by simpa [Settled, hphase] using h
      rw [hw]
      exact (onCommand_steady _ c).streamState.trans hstate
  | waitOver => exact (rfl : _ = StreamState.establishing)
  | waitStop | openStop | opened => trivial
  | openFailed => exact unbind_settled _ _
  | line | command | timer | interrupted => exact hpump _

theorem Reachable.settled {properties : TransportProperties} {options : SessionOptions} {s : Drive}
    (h : Reachable properties options s) : Settled s := by
  obtain ⟨seed, now, inputs, h⟩ := h
  exact exec_invariant (fun _ _ _ hs _ hstep => step_settled hs hstep) (reopen_settled rfl _)
    (guarded_true _ _ inputs) h

end Drive

end Lightstreamer.Session
