import Lightstreamer.Session.Turns

/-!
# Destroy

What follows a `destroy` that the transport took. The driver remembers that it asked for the end of
the session, and consults that memory when the server ends the session or the stream. It stays final
(`destroy_final`) on every run that avoids the other exits (`Heeds`): a refusal to bind, a bind of
another session, a connection lost when the schedule is spent. `destroy_undone` is a run that
creates a new session after a `destroy`.
-/

namespace Lightstreamer.Session

open Lightstreamer.Foundations Lightstreamer.Protocol Lightstreamer.Subscription

/-- The client ended the session. -/
def SessionClosed.isByClient : SessionClosed → Bool
  | .byClient .. => true
  | _ => false

/-- What the driver may do after a `destroy`: it creates no session, binds no new one, and ends only
because the client asked for it. -/
def Action.isFinal : Action → Bool
  | .openStream (.create _) => false
  | .event (.bound info) _ => !info.kind.isFresh
  | .event (.closed closed) _ => closed.isByClient
  | _ => true

theorem Action.IsReport.isFinal {a : Action} (h : a.IsReport) : a.isFinal = true := by
  cases a with
  | event e =>
    cases e with
    | bound | closed => cases h
    | _ => rfl
  | openStream => cases h
  | _ => rfl

/-- The transport took the request to destroy the session. -/
def Action.isHandedDestroy : Action → Bool
  | .control (.destroy _) (some .destroy) _ none => true
  | _ => false

namespace SessionDriver

variable {d d' : SessionDriver}

/-- The end of the session was asked for, and there is a session to end. -/
structure Doomed (d : SessionDriver) : Prop where
  requested : d.destroyRequested = true
  session : d.session ≠ none

/-- The driver reopens after the unbind without creating a session. -/
def Survives (d : SessionDriver) (reason : UnbindReason) : Prop :=
  reason.isCleanLoop = true ∨ d.backoff.nextDelay.1 ≠ none ∧
    ((∃ detail, reason = .connectionFailed detail) ∨ ∃ budget, reason = .keepaliveExpired budget)

/-- What a turn of the pump leaves behind after a `destroy`. -/
structure Heeded (d : SessionDriver) (r : Flow × SessionDriver) : Prop where
  doomed : r.2.Doomed
  final : Extends (fun a => a.isFinal = true) d.trace r.2.trace
  survives : ∀ reason, r.1 = .unbind reason → r.2.Survives reason
  byClient : ∀ closed, r.1 = .closed closed → closed.isByClient = true

theorem Heeded.continue (h : d'.Doomed)
    (ht : Extends (fun a => a.isFinal = true) d.trace d'.trace) : Heeded d (.continue, d') :=
  ⟨h, ht, nofun, nofun⟩

/-- An operation that leaves the session and the request for its end alone. -/
theorem Doomed.of_eq (h : d.Doomed) (hr : d'.destroyRequested = d.destroyRequested)
    (hs : d'.session = d.session) : d'.Doomed :=
  ⟨hr ▸ h.requested, hs ▸ h.session⟩

private theorem report_isFinal (a : Action) (h : a.IsReport) : a.isFinal = true := h.isFinal

/-! ## Commands and timers -/

/-- A command, unless it is another `destroy` that finds no request id left. -/
theorem onCommand_heeded (h : d.Doomed) (c : SessionCommand)
    (hid : ∀ cause, c = .destroy cause → d.nextRequestId < u64Max) : Heeded d (d.onCommand c) := by
  have ht := d.onCommand_extends report_isFinal c (fun _ _ _ _ => rfl) fun _ _ _ _ => rfl
  cases c with
  | destroy cause =>
    obtain ⟨session, hs⟩ := Option.ne_none_iff_exists'.1 h.session
    have htake : d.takeRequestId = some (.fromProgressive d.nextRequestId,
        { d with nextRequestId := d.nextRequestId + 1 }) := by
      have hle : d.nextRequestId + 1 ≤ u64Max := hid cause rfl
      simp [takeRequestId, checkedAdd, hle]
    refine ⟨?_, ht, ?_, ?_⟩
    · simp only [onCommand, destroy, hs, htake]
      exact ⟨by simp, by simp⟩
    · simp only [onCommand, destroy, hs, htake]
      intro reason hr
      split_ifs at hr
    · simp only [onCommand, destroy, hs, htake]
      intro closed hr
      split_ifs at hr
      cases hr
      rfl
  | shutdown =>
    refine ⟨h, .refl _ _, fun reason hr => ?_, fun closed hr => ?_⟩
    · cases hr
    · cases hr
      rfl
  | _ => exact .continue (h.of_eq (by simp) (by simp)) ht

/-- What a `destroy` does: it hands no request over, or the driver remembers it and waits for the
end of a bound session, or ends at once. -/
theorem destroy_outcome (d : SessionDriver) (cause : Option DestroyCause) :
    Extends (fun a => a.isHandedDestroy = false) d.trace (d.destroy cause).2.trace ∨
      (d.destroy cause).2.Doomed ∧ ((d.destroy cause).1 = .closed stopped ∨
        (d.destroy cause).1 = .continue ∧ d.streamState = .bound) := by
  unfold destroy
  split
  · exact .inl (.refl _ _)
  · rename_i session hs
    split
    · exact .inl (.one (by rfl) _)
    · rename_i h
      obtain ⟨-, -, rfl⟩ := takeRequestId_eq_some h
      refine .inr ⟨⟨by simp, by simp [hs]⟩, ?_⟩
      dsimp only
      split_ifs with hbound
      · exact .inr ⟨rfl, by simpa using hbound.1⟩
      · exact .inl rfl

theorem onTimer_heeded (h : d.Doomed)
    (hbudget : ∀ reason, d.onTimer.1 = .unbind reason → d.backoff.nextDelay.1 ≠ none) :
    Heeded d d.onTimer := by
  obtain ⟨failures, hl⟩ := d.onTimer_toLifecycle
  refine ⟨h.of_eq (by rw [hl]) (by rw [hl]), d.onTimer_extends fun _ _ _ => rfl,
    fun reason hr => .inr ⟨by rw [hl]; exact hbudget reason hr, ?_⟩, fun closed hr => ?_⟩
  · obtain hf | ⟨budget, hf⟩ | ⟨detail, hf⟩ := d.onTimer_flow <;> rw [hf] at hr <;> cases hr
    · exact .inr ⟨budget, rfl⟩
    · exact .inl ⟨detail, rfl⟩
  · obtain hf | ⟨budget, hf⟩ | ⟨detail, hf⟩ := d.onTimer_flow <;> rw [hf] at hr <;> cases hr

/-! ## Lines -/

/-- A line that the driver does not answer with its memory of the `destroy`: a refusal to bind, a
bind of another session, or the refusal of the `destroy` itself. -/
def forgets (d : SessionDriver) : Notification → Bool
  | .connectionError .. => true
  | .connectionOk sid .. => (d.conokKind sid).isFresh
  | .requestError id .. => d.pending.get? id = some ⟨.destroy, d.generation⟩
  | _ => false

theorem onConok_heeded (h : d.Doomed) {sid : SessionId} (limit keepAlive : ℕ)
    (link : Option String) (hfresh : (d.conokKind sid).isFresh = false) :
    Heeded d (.continue, d.onConok sid limit keepAlive link) := by
  refine .continue ⟨?_, ?_⟩ (d.onConok_extends sid keepAlive link limit report_isFinal
    (fun _ _ _ _ => rfl) (fun _ _ _ _ => rfl) fun _ => by simp [Action.isFinal, hfresh])
  · rw [onConok_toLifecycle, enterSession_toLifecycle]
    exact h.requested
  · rw [onConok_toLifecycle, enterSession_toLifecycle]
    nofun

theorem onNotification_heeded (h : d.Doomed) {n : Notification} (hn : d.forgets n = false) :
    Heeded d (d.onNotification n) := by
  induction n using onNotification_cases d with
  | conok sid limit millis link heq => exact heq ▸ onConok_heeded h limit _ link hn
  | conerr code message heq => cases hn
  | ended code message heq =>
    rw [heq, onEnd, if_pos h.requested]
    exact ⟨h, .refl _ _, nofun, fun closed hr => by cases hr; rfl⟩
  | loop millis heq =>
    rw [heq]
    refine ⟨h.of_eq (by simp) (by simp), by simp, fun reason hr => ?_, nofun⟩
    cases hr
    exact .inl (d.loopReason_isCleanLoop _).1
  | prog n heq =>
    obtain ⟨progressive, skip, honoured, hl⟩ := d.onProg_toLifecycle n
    exact heq ▸ .continue (h.of_eq (by rw [hl]) (by rw [hl])) (d.onProg_extends report_isFinal n)
  | reqok id heq =>
    exact heq ▸ .continue (h.of_eq (by simp) (by simp)) (d.onRequestOk_extends report_isFinal id)
  | reqerr id code message heq =>
    rw [heq]
    have hkind : (d.takePending id).1 ≠ some .destroy := fun hk => by
      simp [forgets, takePending_eq_some.1 hk] at hn
    refine .continue (h.of_eq ?_ ?_)
      (d.onRequestError_extends report_isFinal id _ fun _ _ _ _ => rfl)
    · rw [onRequestError_toLifecycle]
      simp [hkind]
    · rw [onRequestError_toLifecycle]
  | quiet n _ heq => exact heq ▸ .continue h (.refl _ _)
  | report n e _ heq he =>
    exact heq ▸ .continue ⟨h.requested, h.session⟩ (d.extends_report report_isFinal he)
  | data n _ heq =>
    rw [heq]
    refine .continue (h.of_eq ?_ ?_)
      (d.onData_extends n (fun _ => rfl) (fun _ _ _ _ _ => rfl) fun _ _ _ _ => rfl)
    · rw [onData_toLifecycle]
    · rw [onData_toLifecycle]

theorem onLine_heeded (h : d.Doomed) {text : String}
    (hn : ∀ n, parseLine text = .ok n → d.forgets n = false) : Heeded d (d.onLine text) := by
  cases htext : parseLine text with
  | error e =>
    rw [onLine_of_error d htext]
    exact .continue ⟨h.requested, h.session⟩ (extends_report d.heard report_isFinal trivial)
  | ok n =>
    rw [onLine_of_ok d htext]
    have hheard := onNotification_heeded (d := d.heard) ⟨h.requested, h.session⟩ (hn n htext)
    exact ⟨hheard.doomed, hheard.final, hheard.survives, hheard.byClient⟩

/-! ## Plans -/

/-- A driver with a session to keep never plans to create one after such an unbind. -/
theorem Survives.planAfter {reason : UnbindReason} (h : d.Survives reason) (hs : d.session ≠ none) :
    ∃ next d', d.planAfter reason = (some next, d') ∧ next.intent ≠ .create := by
  have hfailed : ∀ {d₁ : SessionDriver}, d₁.session = d.session → d₁.backoff = d.backoff →
      d.backoff.nextDelay.1 ≠ none → ∃ next d', d₁.reopenLater
        (if d₁.session.isSome then .recover d₁.progressive else .create) = (some next, d') ∧
        next.intent ≠ .create := by
    intro d₁ hsession hbackoff hdelay
    obtain ⟨delay, hdelay⟩ := Option.ne_none_iff_exists'.1 hdelay
    obtain ⟨session, hs⟩ := Option.ne_none_iff_exists'.1 hs
    simp [reopenLater, hbackoff, hdelay, hsession, hs]
  obtain hclean | ⟨hdelay, ⟨detail, rfl⟩ | ⟨budget, rfl⟩⟩ := h
  · exact ⟨_, _, d.planAfter_of_isCleanLoop hclean, by simp⟩
  · exact @hfailed { d with refreshStreak := 0 } rfl rfl hdelay
  · exact @hfailed { d with refreshStreak := 0 } rfl rfl hdelay

end SessionDriver

/-! ## Runs -/

/-- The input is a `destroy`. -/
def Input.asksDestroy (i : Input) : Bool :=
  match i.wake with
  | .command (.destroy _) => true
  | _ => false

namespace Drive

open SessionDriver

variable {d : SessionDriver} {s s' : Drive} {i : Input}

/-- Where the loop may stand after a `destroy`. -/
def Doomed (s : Drive) : Prop :=
  match s.phase with
  | .closed closed => closed.isByClient = true
  | .waiting next => s.driver.Doomed ∧ next.intent ≠ .create
  | .opening | .pumping => s.driver.Doomed

/-- What a turn leaves behind after a `destroy`. -/
structure Heeds (d : SessionDriver) (s : Drive) : Prop where
  doomed : s.Doomed
  final : Extends (fun a => a.isFinal = true) d.trace s.driver.trace

theorem finish_heeds (d : SessionDriver) {closed : SessionClosed} (h : closed.isByClient = true) :
    Heeds d (finish d closed) := by
  obtain ⟨b, ht⟩ := finish_trace d closed
  exact ⟨h, [.close, .event (.closed closed) b], ht, by simp [Action.isFinal, h]⟩

theorem openNext_heeds (h : d.Doomed) {next : Reopen} (hi : next.intent ≠ .create) :
    Heeds d (openNext d next) := by
  refine ⟨⟨h.requested, h.session⟩, [.openStream (d.buildOpen next.intent)], rfl, ?_⟩
  obtain ⟨session, hs⟩ := Option.ne_none_iff_exists'.1 h.session
  unfold buildOpen
  cases hintent : next.intent with
  | create => exact absurd hintent hi
  | _ => simp [hs, Action.isFinal]

/-- The bottom of the loop. -/
theorem unbind_heeds (h : d.Doomed) {reason : UnbindReason} (hs : d.Survives reason) :
    Heeds d (unbind d reason) := by
  have hu : (unbound d reason).Survives reason := by
    simpa only [Survives, unbound_toLifecycle] using hs
  obtain ⟨next, d', hplan, hintent⟩ := hu.planAfter (by rw [unbound_toLifecycle]; exact h.session)
  obtain ⟨backoff, streak, hl⟩ := planAfter_toLifecycle (unbound d reason) reason
  rw [hplan, unbound_toLifecycle] at hl
  dsimp only at hl
  have hd' : d'.Doomed := h.of_eq (by rw [hl]) (by rw [hl])
  have ht := planned_extends (P := fun a : Action => a.isFinal = true) hplan rfl (some next.delay)
    fun _ => rfl
  have hcases : unbind d reason = finish (d'.emit (.unbound reason (some next.delay))) stopped ∨
      unbind d reason = reopen (d'.emit (.unbound reason (some next.delay))) next := by
    obtain ⟨next', d'', hp, hu⟩ | ⟨d'', hp, hu⟩ := unbind_cases d reason
    · rw [hplan] at hp
      cases hp
      exact hu
    · rw [hplan] at hp
      cases hp
  obtain hu | hu := hcases
  · have hf := finish_heeds (d'.emit (.unbound reason (some next.delay)))
      (show stopped.isByClient = true from rfl)
    exact hu ▸ ⟨hf.doomed, ht.trans hf.final⟩
  · rw [hu]
    unfold reopen
    split_ifs
    · have ho := openNext_heeds (d := d'.emit (.unbound reason (some next.delay)))
        ⟨hd'.requested, hd'.session⟩ hintent
      exact ⟨ho.doomed, ht.trans ho.final⟩
    · exact ⟨⟨⟨hd'.requested, hd'.session⟩, hintent⟩, ht⟩

theorem afterPump_heeds {r : Flow × SessionDriver} (h : Heeded d r) : Heeds d (afterPump r) := by
  have hfinish : ∀ {closed : SessionClosed}, closed.isByClient = true →
      Heeds d (finish r.2 closed) := fun hc =>
    have hf := finish_heeds r.2 hc
    ⟨hf.doomed, h.final.trans hf.final⟩
  obtain hp | ⟨-, -, hp⟩ | ⟨reason, hr, -, hp⟩ | ⟨closed, hr, hp⟩ := afterPump_cases r
  · exact hp ▸ hfinish rfl
  · exact hp ▸ ⟨h.doomed, h.final⟩
  · have hu := unbind_heeds h.doomed (h.survives reason hr)
    exact hp ▸ ⟨hu.doomed, h.final.trans hu.final⟩
  · exact hp ▸ hfinish (h.byClient closed hr)

/-- The input loses the stream connection. -/
def loses (s : Drive) (i : Input) : Bool :=
  match i.wake with
  | .lineFailed _ | .openFailed _ | .openTimedOut => true
  | .timer => s.phase = .pumping && (s.driver.withTurn i.turn).onTimer.1 ≠ .continue
  | _ => false

/-- The exits that do not consult the memory of a `destroy` are not taken: no line makes the driver
forget it, no connection is lost when the schedule is spent, and no further `destroy` finds the
request ids exhausted. -/
def Avoids (s : Drive) (i : Input) : Prop :=
  (∀ n ∈ i.notification, s.driver.forgets n = false) ∧
  (loses s i = true → s.driver.backoff.nextDelay.1 ≠ none) ∧
  (i.asksDestroy = true → s.driver.nextRequestId < u64Max)

instance (s : Drive) (i : Input) : Decidable (Avoids s i) :=
  inferInstanceAs (Decidable (_ ∧ _ ∧ _))

theorem step_heeds (h : s.Doomed) (hi : Avoids s i) (hstep : step s i = some s') :
    Heeds s.driver s' := by
  suffices Heeds (s.driver.withTurn i.turn) s' from ⟨this.doomed, this.final⟩
  have hd : (∀ closed, s.phase ≠ .closed closed) → (s.driver.withTurn i.turn).Doomed := fun hp => by
    unfold Doomed at h
    cases hphase : s.phase with
    | closed closed => exact absurd hphase (hp closed)
    | _ =>
      simp only [hphase] at h
      first | exact ⟨h.requested, h.session⟩ | exact ⟨h.1.requested, h.1.session⟩
  have hfailed : ∀ detail, loses s i = true →
      Survives (s.driver.withTurn i.turn) (.connectionFailed detail) := fun detail hl =>
    .inr ⟨hi.2.1 hl, .inl ⟨detail, rfl⟩⟩
  have hid : ∀ c, i.wake = .command c → ∀ cause, c = .destroy cause →
      (s.driver.withTurn i.turn).nextRequestId < u64Max := fun c hw cause hc =>
    hi.2.2 (by simp [Input.asksDestroy, hw, hc])
  cases step_turns hstep with
  | waitCommand next c hphase hw =>
    have hcommand := onCommand_heeded (hd (by simp [hphase])) c (hid c hw)
    have hintent : next.intent ≠ .create := by
      simp only [Doomed, hphase] at h
      exact h.2
    obtain ⟨closed, hr, hafter⟩ | hafter | ⟨-, -, hafter⟩ :=
      afterWait_cases next ((s.driver.withTurn i.turn).onCommand c)
    · have hf := finish_heeds ((s.driver.withTurn i.turn).onCommand c).2
        (hcommand.byClient closed hr)
      exact hafter ▸ ⟨hf.doomed, hcommand.final.trans hf.final⟩
    · have hf := finish_heeds ((s.driver.withTurn i.turn).onCommand c).2
        (show stopped.isByClient = true from rfl)
      exact hafter ▸ ⟨hf.doomed, hcommand.final.trans hf.final⟩
    · exact hafter ▸ ⟨⟨hcommand.doomed, hintent⟩, hcommand.final⟩
  | waitOver next hphase =>
    simp only [Doomed, hphase] at h
    exact openNext_heeds (hd (by simp [hphase])) h.2
  | waitStop | openStop => exact finish_heeds _ rfl
  | opened hphase =>
    have hd := hd (by simp [hphase])
    exact ⟨⟨hd.requested, hd.session⟩, .refl _ _⟩
  | openFailed detail hphase hw =>
    refine unbind_heeds (hd (by simp [hphase])) (hfailed detail ?_)
    obtain hw | ⟨hw, -⟩ := hw <;> simp [loses, hw]
  | line text hphase hw =>
    exact afterPump_heeds (onLine_heeded (hd (by simp [hphase])) fun n hn =>
      hi.1 n (Input.notification_of_line hw hn))
  | command c hphase hw =>
    exact afterPump_heeds (onCommand_heeded (hd (by simp [hphase])) c (hid c hw))
  | timer hphase hw =>
    refine afterPump_heeds (onTimer_heeded (hd (by simp [hphase])) fun reason hr => hi.2.1 ?_)
    simp [loses, hw, hphase, hr]
  | interrupted flow hphase hw =>
    refine afterPump_heeds ⟨hd (by simp [hphase]), .refl _ _, fun reason hr => ?_,
      fun closed hr => ?_⟩
    · obtain ⟨detail, hw, rfl⟩ | ⟨-, rfl⟩ | ⟨-, rfl⟩ := hw
      · cases hr
        exact hfailed detail (by simp [loses, hw])
      · rw [onStreamEnd, if_pos (hd (by simp [hphase])).requested] at hr
        cases hr
      · cases hr
    · obtain ⟨detail, -, rfl⟩ | ⟨-, rfl⟩ | ⟨-, rfl⟩ := hw
      · cases hr
      · rw [onStreamEnd, if_pos (hd (by simp [hphase])).requested] at hr
        cases hr
        rfl
      · cases hr
        rfl

/-- **What a `destroy` leaves behind.** Once the transport took the request, the driver waits for
the end of the session or has ended itself. -/
theorem destroy_turn {cause : Option DestroyCause} {turn : Turn} (hsettled : s.Settled)
    (hstep : step s ⟨.command (.destroy cause), turn⟩ = some s')
    (hhanded : ∃ a ∈ s'.driver.trace.drop s.driver.trace.length, a.isHandedDestroy = true) :
    s'.Doomed := by
  obtain ⟨a, ha, hhanded⟩ := hhanded
  have hloop : ∀ a : Action, a.IsLoop → a.isHandedDestroy = false := fun a ha => by
    cases a with
    | control => cases ha
    | _ => rfl
  let r := (s.driver.withTurn turn).destroy cause
  have hdone : ∀ {closed : SessionClosed}, closed.isByClient = true → (finish r.2 closed).Doomed :=
    fun hc => (finish_heeds r.2 hc).doomed
  have hr := (s.driver.withTurn turn).destroy_outcome cause
  cases step_turns hstep with
  | waitCommand next c hphase hw =>
    cases hw
    obtain ht | ⟨hdoomed, hflow⟩ := hr
    · have := (ht.trans (afterWait_extends hloop next r)).of_mem_drop ha
      simp [hhanded] at this
    · have hstate : s.driver.streamState = .establishing := by
        simpa [Settled, hphase] using hsettled
      obtain ⟨closed, hclosed, hafter⟩ | hafter | ⟨hopen, -, -⟩ := afterWait_cases next r
      · obtain hf | ⟨hf, -⟩ := hflow <;> rw [hf] at hclosed <;> cases hclosed
        exact hafter ▸ hdone rfl
      · exact hafter ▸ hdone rfl
      · obtain hf | ⟨-, hbound⟩ := hflow
        · exact absurd hf (hopen stopped)
        · exact absurd (hstate.symm.trans hbound) (by simp)
  | command c _ hw =>
    cases hw
    obtain ht | ⟨hdoomed, hflow⟩ := hr
    · have := (ht.trans (afterPump_extends hloop r)).of_mem_drop ha
      simp [hhanded] at this
    · obtain hp | ⟨-, -, hp⟩ | ⟨reason, hclosed, -, -⟩ | ⟨closed, hclosed, hp⟩ := afterPump_cases r
      · exact hp ▸ hdone rfl
      · exact hp ▸ hdoomed
      · obtain hf | ⟨hf, -⟩ := hflow <;> rw [hf] at hclosed <;> cases hclosed
      · obtain hf | ⟨hf, -⟩ := hflow <;> rw [hf] at hclosed <;> cases hclosed
        exact hp ▸ hdone rfl
  | waitOver _ _ hw | opened _ hw | line _ _ hw | timer _ hw => cases hw
  | waitStop _ _ hw | openStop _ hw => rcases hw with hw | hw <;> cases hw
  | openFailed _ _ hw => rcases hw with hw | ⟨hw, -⟩ <;> cases hw
  | interrupted _ _ hw => rcases hw with ⟨_, hw, -⟩ | ⟨hw, -⟩ | ⟨hw | hw, -⟩ <;> cases hw

/-- **Destroy is final**, as long as the exits that do not consult the memory of it are avoided: no
session is created or newly bound, and the run ends only because the client asked for it. -/
theorem destroy_final {properties : TransportProperties} {options : SessionOptions}
    {s s₁ s₂ : Drive} {cause : Option DestroyCause} {turn : Turn} {inputs : List Input}
    (h : Reachable properties options s)
    (hdestroy : step s ⟨.command (.destroy cause), turn⟩ = some s₁)
    (hhanded : ∃ a ∈ s₁.driver.trace.drop s.driver.trace.length, a.isHandedDestroy = true)
    (havoids : Guarded step Avoids s₁ inputs) (hrun : exec step s₁ inputs = some s₂) :
    Extends (fun a => a.isFinal = true) s₁.driver.trace s₂.driver.trace ∧
      ∀ closed, s₂.phase = .closed closed → closed.isByClient = true := by
  obtain ⟨hdoomed, ht⟩ := exec_extends (I := Doomed) (fun s : Drive => s.driver.trace)
    (fun _ _ _ hs hi hstep => ⟨(step_heeds hs hi hstep).doomed, (step_heeds hs hi hstep).final⟩)
    (destroy_turn h.settled hdestroy hhanded) havoids hrun
  refine ⟨ht, fun closed hc => ?_⟩
  simpa [Doomed, hc] using hdoomed

/-- A session that its caller wants to end. -/
def bound : List Input := [⟨.opened, {}⟩, ⟨.line "CONOK,S1,50000,5000,*", {}⟩]

/-- The connection drops before the end of the session is reported, and a recovery hears it. -/
def droppedThenEnded : List Input :=
  [⟨.lineFailed "reset", {}⟩, ⟨.timer, {}⟩, ⟨.opened, {}⟩, ⟨.line "CONOK,S1,50000,5000,*", {}⟩,
    ⟨.line "END,31,destroyed", {}⟩]

theorem destroy_final_droppedThenEnded :
    ∃ s s₁ s₂, exec step (start ⟨true, false, false⟩ .default 1 0) bound = some s ∧
      step s ⟨.command (.destroy none), {}⟩ = some s₁ ∧
      exec step s₁ droppedThenEnded = some s₂ ∧
      ∀ closed, s₂.phase = .closed closed → closed.isByClient = true := by
  obtain ⟨s, s₁, s₂, h, h₁, h₂⟩ : ∃ s s₁ s₂,
      exec step (start ⟨true, false, false⟩ .default 1 0) bound = some s ∧
      step s ⟨.command (.destroy none), {}⟩ = some s₁ ∧
      exec step s₁ droppedThenEnded = some s₂ := ⟨_, _, _, rfl, rfl, rfl⟩
  refine ⟨s, s₁, s₂, h, h₁, h₂, (destroy_final ⟨1, 0, bound, h⟩ h₁ ?_ ?_ h₂).2⟩
  · cases h
    cases h₁
    decide
  · cases h
    cases h₁
    decide

/-- The connection drops before the end of the session is reported, and the server has forgotten the
session when the driver tries to recover it. -/
def droppedThenForgotten : List Input :=
  [⟨.lineFailed "reset", {}⟩, ⟨.timer, {}⟩, ⟨.opened, {}⟩, ⟨.line "CONERR,20,gone", {}⟩,
    ⟨.timer, {}⟩]

/-- **A `destroy` undone.** The server did end the session, but the driver creates another one. -/
theorem destroy_undone :
    ∃ s s₁ s₂, exec step (start ⟨true, false, false⟩ .default 1 0) bound = some s ∧
      step s ⟨.command (.destroy none), {}⟩ = some s₁ ∧
      (∃ a ∈ s₁.driver.trace.drop s.driver.trace.length, a.isHandedDestroy = true) ∧
      exec step s₁ droppedThenForgotten = some s₂ ∧
      ¬Extends (fun a => a.isFinal = true) s₁.driver.trace s₂.driver.trace := by
  refine ⟨_, _, _, rfl, rfl, by decide, rfl, fun h => ?_⟩
  have h' := fun a => h.of_mem_drop (a := a)
  revert h'
  decide

end Drive

end Lightstreamer.Session
