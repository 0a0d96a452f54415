import Lightstreamer.Session.Turns

/-!
# The retry budget

How often the driver opens a stream connection while no bind succeeds. Every attempt but the first
is paid for by the schedule, which counts up to its maximum (`allowance`), so a run without a
`CONOK` opens at most one more stream connection than the maximum (`retry_budget`), unless something
else than a bind starts the schedule over (`rewinds`): a clean end of a stream connection that was
never bound, or a refresh of the session there. Each time it does, the run may spend the whole
budget again (`opens_le`), and a server that answers every stream connection with `LOOP` makes the
driver reconnect for ever (`retry_budget_unbounded`).
-/

namespace Lightstreamer.Session

open Lightstreamer.Foundations Lightstreamer.Protocol Lightstreamer.Subscription

/-- The action opens a stream connection. -/
def Action.opens : Action → Bool
  | .openStream _ => true
  | _ => false

/-- How many stream connections were opened. -/
def opens (trace : List Action) : ℕ := trace.countP Action.opens

theorem opens_of_extends {trace trace' : List Action}
    (h : Extends (fun a => a.opens = false) trace trace') : opens trace' = opens trace :=
  h.countP_eq

theorem Action.IsReport.opens {a : Action} (h : a.IsReport) : a.opens = false := by
  cases a with
  | openStream => cases h
  | _ => rfl

namespace Drive

open SessionDriver

variable {max : NonZeroU32} {d : SessionDriver} {s s' : Drive} {i : Input}

/-- The schedule is a bounded one, and it is not spent. -/
structure InBudget (max : NonZeroU32) (d : SessionDriver) : Prop where
  policy : d.backoff.policy.maxAttempts = some max
  attempts : d.backoff.attempts ≤ max.val

/-- A driver that is still running has a schedule that is not spent. -/
def Budgeted (max : NonZeroU32) (s : Drive) : Prop :=
  (∃ closed, s.phase = .closed closed) ∨ InBudget max s.driver

/-- How many stream connections may still be opened before the next bind. -/
def allowance (max : ℕ) (s : Drive) : ℕ :=
  match s.phase with
  | .closed _ => 0
  | .waiting _ => max - s.driver.backoff.attempts + 1
  | .opening => max - s.driver.backoff.attempts
  | .pumping =>
    match s.driver.streamState with
    | .bound => max + 1
    | .establishing => max - s.driver.backoff.attempts

/-- The stream connections opened so far and the ones that may still be opened. -/
def outlay (max : ℕ) (s : Drive) : ℕ := opens s.driver.trace + allowance max s

/-- The input starts the schedule over although the stream connection was never bound. -/
def rewinds (s : Drive) (i : Input) : Bool :=
  s.driver.streamState = .establishing && (i.loops s.driver ||
    s.driver.refreshStreak = 0 && i.notification.any fun n => isRefresh n && s.driver.abandons n)

/-! ## The loop -/

theorem InBudget.of_backoff {d' : SessionDriver} (h : InBudget max d)
    (hb : d'.backoff = d.backoff) : InBudget max d' :=
  ⟨by rw [hb, h.policy], by rw [hb]; exact h.attempts⟩

theorem outlay_finish (d : SessionDriver) (closed : SessionClosed) :
    outlay max.val (finish d closed) = opens d.trace := by
  obtain ⟨b, ht⟩ := finish_trace d closed
  simp [outlay, allowance, opens, ht, Action.opens]

theorem outlay_reopen (d : SessionDriver) (next : Reopen) :
    outlay max.val (reopen d next) = opens d.trace + (max.val - d.backoff.attempts + 1) := by
  unfold reopen
  split_ifs
  · simp [outlay, allowance, opens, Action.opens]
    omega
  · rfl

theorem finish_budgeted (max : NonZeroU32) (d : SessionDriver) (closed : SessionClosed) :
    Budgeted max (finish d closed) :=
  .inl ⟨closed, rfl⟩

theorem openNext_budgeted (h : InBudget max d) (next : Reopen) : Budgeted max (openNext d next) :=
  .inr (h.of_backoff rfl)

theorem reopen_budgeted (h : InBudget max d) (next : Reopen) : Budgeted max (reopen d next) := by
  unfold reopen
  split_ifs
  · exact openNext_budgeted h next
  · exact .inr h

/-- **The bottom of the loop.** It pays for the next stream connection out of the schedule, or
starts the schedule over. -/
theorem unbind_budget (h : InBudget max d) (reason : UnbindReason) :
    Budgeted max (unbind d reason) ∧
    (outlay max.val (unbind d reason) ≤ opens d.trace + (max.val - d.backoff.attempts) ∨
      outlay max.val (unbind d reason) ≤ opens d.trace + (max.val + 1) ∧
        d.StartsOver reason) := by
  have hopens : ∀ {d' : SessionDriver} {next} (retry : Option ℕ),
      (unbound d reason).planAfter reason = (next, d') →
      opens (d'.emit (.unbound reason retry)).trace = opens d.trace := fun retry hp =>
    opens_of_extends (planned_extends (P := fun a : Action => a.opens = false) hp rfl retry
      fun _ => rfl)
  obtain ⟨next, d', hp, hu⟩ | ⟨d', hp, hu⟩ := unbind_cases d reason
  · have hplan := planAfter_backoff hp
    rw [StartsOver, unbound_toLifecycle] at hplan
    dsimp only at hplan
    have hbudget : InBudget max d' := by
      obtain ⟨hb, -⟩ | ⟨hdelay, hb⟩ := hplan
      · exact ⟨by rw [hb]; exact h.policy, by rw [hb]; exact Nat.zero_le _⟩
      · exact ⟨by rw [hb, Backoff.policy_nextDelay, h.policy],
          by rw [hb]; exact Backoff.nextDelay_bounded h.policy hdelay⟩
    have hout : outlay max.val (unbind d reason) ≤
        opens d.trace + (max.val - d'.backoff.attempts + 1) := by
      obtain hu | hu := hu
      · rw [hu, outlay_finish, hopens _ hp]
        omega
      · rw [hu, outlay_reopen, hopens _ hp]
        rfl
    refine ⟨?_, ?_⟩
    · obtain hu | hu := hu
      · exact hu ▸ finish_budgeted max _ _
      · exact hu ▸ reopen_budgeted (d := d'.emit _) (hbudget.of_backoff rfl) next
    · obtain ⟨hb, hwhy⟩ | ⟨hdelay, hb⟩ := hplan
      · exact .inr ⟨by omega, hwhy⟩
      · have hattempts := Backoff.attempts_nextDelay hdelay
        have hle := hbudget.attempts
        rw [hb] at hle hout
        exact .inl (by omega)
  · refine ⟨hu ▸ finish_budgeted max _ _, .inl ?_⟩
    rw [hu, outlay_finish, hopens _ hp]
    omega

/-- The outlay before a turn of the pump, for a driver in the same state. -/
def pumpOutlay (max : ℕ) (d : SessionDriver) : ℕ := outlay max ⟨d, .pumping⟩

theorem pumpOutlay_of_steady {d' : SessionDriver} (h : Steady d d')
    (ht : Extends (fun a => a.opens = false) d.trace d'.trace) :
    pumpOutlay max.val d' = pumpOutlay max.val d := by
  simp only [pumpOutlay, outlay, allowance]
  rw [opens_of_extends ht, h.streamState, h.backoff]

theorem opens_le_pumpOutlay (d : SessionDriver) : opens d.trace ≤ pumpOutlay max.val d :=
  Nat.le_add_right _ _

/-- What the pump's turn leads to. -/
theorem afterPump_budget {r : Flow × SessionDriver} (h : InBudget max r.2) :
    Budgeted max (afterPump r) ∧
    (outlay max.val (afterPump r) ≤ pumpOutlay max.val r.2 ∨
      outlay max.val (afterPump r) ≤ pumpOutlay max.val r.2 + (max.val + 1) ∧
        r.2.streamState = .establishing ∧
          ∃ reason, r.1 = .unbind reason ∧ r.2.StartsOver reason) := by
  obtain hp | ⟨-, -, hp⟩ | ⟨reason, hr, -, hp⟩ | ⟨closed, -, hp⟩ := afterPump_cases r
  · exact ⟨hp ▸ finish_budgeted max _ _, .inl (by
      rw [hp, outlay_finish]; exact opens_le_pumpOutlay _)⟩
  · exact ⟨hp ▸ .inr h, .inl (by rw [hp]; exact le_rfl)⟩
  · obtain ⟨hb, hout⟩ := unbind_budget h reason
    rw [hp]
    refine ⟨hb, ?_⟩
    simp only [pumpOutlay, outlay, allowance] at hout ⊢
    cases hstate : r.2.streamState with
    | bound =>
      refine .inl ?_
      dsimp only
      omega
    | establishing =>
      dsimp only
      obtain hout | ⟨hout, hwhy⟩ := hout
      · exact .inl hout
      · exact .inr ⟨by omega, rfl, reason, hr, hwhy⟩
  · exact ⟨hp ▸ finish_budgeted max _ _, .inl (by
      rw [hp, outlay_finish]; exact opens_le_pumpOutlay _)⟩

/-! ## Turns -/

theorem onLine_inBudget (h : InBudget max d) (text : String) : InBudget max (d.onLine text).2 := by
  cases htext : parseLine text with
  | error e =>
    rw [onLine_of_error d htext]
    exact h.of_backoff rfl
  | ok n =>
    rw [onLine_of_ok d htext]
    cases hbind : isBind n with
    | false => exact h.of_backoff (onNotification_steady hbind).backoff
    | true =>
      cases n with
      | connectionOk sid limit millis link =>
        change InBudget max (d.heard.onConok sid limit (ofMillis millis) link)
        constructor
        · rw [onConok_toLifecycle, enterSession_toLifecycle]
          exact h.policy
        · rw [onConok_toLifecycle, enterSession_toLifecycle]
          exact Nat.zero_le _
      | _ => cases hbind

theorem onTimer_inBudget (h : InBudget max d) : InBudget max d.onTimer.2 := by
  obtain ⟨failures, hl⟩ := d.onTimer_toLifecycle
  exact h.of_backoff (by rw [hl])

/-- A driver that takes a turn has not ended. -/
theorem Budgeted.inBudget (h : Budgeted max s) (hstep : step s i = some s') :
    InBudget max s.driver := by
  refine h.resolve_left fun ⟨closed, hp⟩ => ?_
  simp [step, hp] at hstep

theorem step_budgeted (h : Budgeted max s) (hstep : step s i = some s') : Budgeted max s' := by
  have hd : InBudget max (s.driver.withTurn i.turn) :=
    (h.inBudget hstep).of_backoff rfl
  cases step_turns hstep with
  | waitCommand next c =>
    have hc := hd.of_backoff (onCommand_steady _ c).backoff
    obtain ⟨closed, -, hw⟩ | hw | ⟨-, -, hw⟩ :=
      afterWait_cases next ((s.driver.withTurn i.turn).onCommand c)
    · exact hw ▸ finish_budgeted max _ _
    · exact hw ▸ finish_budgeted max _ _
    · exact hw ▸ .inr hc
  | waitOver next => exact openNext_budgeted hd next
  | waitStop | openStop => exact finish_budgeted max _ _
  | opened => exact .inr (hd.of_backoff rfl)
  | openFailed detail => exact (unbind_budget hd _).1
  | line text => exact (afterPump_budget (onLine_inBudget hd text)).1
  | command c => exact (afterPump_budget (hd.of_backoff (onCommand_steady _ c).backoff)).1
  | timer => exact (afterPump_budget (onTimer_inBudget hd)).1
  | interrupted flow => exact (afterPump_budget (r := (flow, _)) hd).1

theorem onCommand_opens (d : SessionDriver) (c : SessionCommand) :
    Extends (fun a => a.opens = false) d.trace (d.onCommand c).2.trace :=
  d.onCommand_extends (fun _ => Action.IsReport.opens) c (fun _ _ _ _ => rfl) fun _ _ _ _ => rfl

/-- A turn of the pump that starts nothing over stays within its outlay. -/
theorem afterPump_outlay {r : Flow × SessionDriver} (h : InBudget max d) (hr : Steady d r.2)
    (ht : Extends (fun a => a.opens = false) d.trace r.2.trace) {allowed : Bool}
    (hwhy : ∀ reason, r.1 = .unbind reason → d.streamState = .establishing →
      r.2.StartsOver reason → allowed = true) :
    outlay max.val (afterPump r) ≤
      pumpOutlay max.val d + if allowed then max.val + 1 else 0 := by
  have hout := (afterPump_budget (h.of_backoff hr.backoff)).2
  rw [pumpOutlay_of_steady hr ht] at hout
  obtain hout | ⟨hout, hstate, reason, hflow, hreset⟩ := hout
  · exact Nat.le_add_right_of_le hout
  · rwa [if_pos (hwhy reason hflow (hr.streamState ▸ hstate) hreset)]

/-- A line that starts the schedule over on an unbound stream connection rewinds it. -/
theorem line_outlay {text : String} (hw : i.wake = .line text)
    (hbind : ∀ n ∈ i.notification, isBind n = false)
    (hd : InBudget max (s.driver.withTurn i.turn)) :
    outlay max.val (afterPump ((s.driver.withTurn i.turn).onLine text)) ≤
      pumpOutlay max.val (s.driver.withTurn i.turn) +
        if rewinds s i then max.val + 1 else 0 := by
  cases htext : parseLine text with
  | error e =>
    rw [onLine_of_error _ htext]
    exact afterPump_outlay (d := (s.driver.withTurn i.turn).heard) (hd.of_backoff rfl)
      (.of_toLifecycle (by simp))
      (extends_report _ (fun _ => Action.IsReport.opens) (e := .unparsed text e) trivial)
      (by simp)
  | ok n =>
    have hn := Input.notification_of_line hw htext
    rw [onLine_of_ok _ htext]
    refine afterPump_outlay (d := (s.driver.withTurn i.turn).heard) (hd.of_backoff rfl)
      (onNotification_steady (hbind n hn)) ?_ fun reason hr hstate hstarts => ?_
    · exact onNotification_extends _ (fun _ => Action.IsReport.opens) n (fun _ _ _ _ => rfl)
        (fun _ _ _ _ _ => rfl) (fun _ => rfl) (fun _ _ _ _ => rfl) fun _ _ _ _ _ _ => rfl
    · have hstate' : s.driver.streamState = .establishing := hstate
      obtain ⟨hstreak, ⟨hloop, -⟩ | ⟨habandons, ⟨cause, rfl⟩ | ⟨hrefresh, cause, rfl⟩⟩⟩ :=
        onNotification_unbind hr
      · simp [rewinds, hstate', Input.loops, hw, hn, hloop]
      · exact absurd hstarts (not_startsOver rfl (by simp))
      · obtain hclean | ⟨hzero, -⟩ := hstarts
        · cases hclean
        · have hzero' : s.driver.refreshStreak = 0 := hstreak.symm.trans hzero
          have habandons' : s.driver.abandons n = true := habandons
          simp [rewinds, hstate', hzero', hn, hrefresh, habandons']

/-- **A turn without a `CONOK`.** -/
theorem step_outlay (h : Budgeted max s) (hsettled : Settled s)
    (hbind : ∀ n ∈ i.notification, isBind n = false) (hstep : step s i = some s') :
    outlay max.val s' ≤ outlay max.val s + if rewinds s i then max.val + 1 else 0 := by
  have hd : InBudget max (s.driver.withTurn i.turn) :=
    (h.inBudget hstep).of_backoff rfl
  have hpumping : s.phase = .pumping →
      outlay max.val s = pumpOutlay max.val (s.driver.withTurn i.turn) := fun hp => by
    simp [outlay, pumpOutlay, allowance, hp]
  cases step_turns hstep with
  | waitCommand next c hphase =>
    refine Nat.le_add_right_of_le ?_
    have hopens := opens_of_extends (onCommand_opens (s.driver.withTurn i.turn) c)
    have hb := (onCommand_steady (s.driver.withTurn i.turn) c).backoff
    obtain ⟨closed, -, hw⟩ | hw | ⟨-, -, hw⟩ :=
      afterWait_cases next ((s.driver.withTurn i.turn).onCommand c)
    · rw [hw, outlay_finish, hopens]
      exact Nat.le_add_right _ _
    · rw [hw, outlay_finish, hopens]
      exact Nat.le_add_right _ _
    · rw [hw]
      simp only [outlay, allowance, hphase, hopens, hb]
      rfl
  | waitOver next hphase =>
    refine Nat.le_add_right_of_le ?_
    simp [outlay, allowance, hphase, opens, Action.opens]
    omega
  | waitStop | openStop =>
    refine Nat.le_add_right_of_le ?_
    rw [outlay_finish]
    exact Nat.le_add_right _ _
  | opened hphase =>
    refine Nat.le_add_right_of_le ?_
    have hstate : s.driver.streamState = .establishing := by simpa [Settled, hphase] using hsettled
    simp [outlay, allowance, hphase, established, hstate]
  | openFailed detail hphase =>
    refine Nat.le_add_right_of_le ?_
    obtain hout | ⟨-, hstarts⟩ := (unbind_budget hd (.connectionFailed detail)).2
    · refine hout.trans ?_
      simp [outlay, allowance, hphase]
    · exact absurd hstarts (not_startsOver rfl (by simp))
  | line text hphase hw =>
    rw [hpumping hphase]
    exact line_outlay hw hbind hd
  | command c hphase hw =>
    rw [hpumping hphase]
    refine afterPump_outlay hd (onCommand_steady _ c) (onCommand_opens _ c) fun reason hr => ?_
    obtain hf | ⟨closed, hf⟩ := onCommand_flow (s.driver.withTurn i.turn) c <;> rw [hf] at hr <;>
      cases hr
  | timer hphase =>
    rw [hpumping hphase]
    obtain ⟨failures, hl⟩ := (s.driver.withTurn i.turn).onTimer_toLifecycle
    refine afterPump_outlay hd (by constructor <;> rw [hl])
      (onTimer_extends _ fun _ _ _ => rfl) fun reason hr _ hstarts => ?_
    obtain hf | ⟨budget, hf⟩ | ⟨detail, hf⟩ := (s.driver.withTurn i.turn).onTimer_flow <;>
      rw [hf] at hr <;> cases hr <;> exact absurd hstarts (not_startsOver rfl (by simp))
  | interrupted flow hphase hw =>
    rw [hpumping hphase]
    refine afterPump_outlay (r := (flow, _)) hd (.of_toLifecycle rfl) (.refl _ _)
      fun reason hr hstate hstarts => ?_
    obtain ⟨detail, -, rfl⟩ | ⟨hw, rfl⟩ | ⟨-, rfl⟩ := hw
    · cases hr
      exact absurd hstarts (not_startsOver rfl (by simp))
    · have hstate' : s.driver.streamState = .establishing := hstate
      simp only [onStreamEnd] at hr
      split_ifs at hr with hdestroy hpolling
      · simp_all [rewinds, Input.loops, withTurn]
      · cases hr
        exact absurd hstarts (not_startsOver rfl (by simp))
    · cases hr

/-! ## Runs -/

theorem start_budgeted {options : SessionOptions} (hmax : options.backoff.maxAttempts = some max)
    (properties : TransportProperties) (seed : UInt64) (now : ℕ) :
    Budgeted max (start properties options seed now) :=
  openNext_budgeted ⟨hmax, Nat.zero_le _⟩ _

theorem Reachable.budgeted {properties : TransportProperties} {options : SessionOptions}
    (hmax : options.backoff.maxAttempts = some max) (h : Reachable properties options s) :
    Budgeted max s := by
  obtain ⟨seed, now, inputs, h⟩ := h
  exact exec_invariant (fun _ _ _ hs _ hstep => step_budgeted hs hstep)
    (start_budgeted hmax properties seed now) (guarded_true _ _ inputs) h

theorem allowance_le (max : ℕ) (s : Drive) : allowance max s ≤ max + 1 := by
  unfold allowance
  split
  · omega
  · omega
  · omega
  · split <;> omega

/-- What a run without a `CONOK` may open, over the times that its schedule starts over. -/
theorem opens_le (h : Budgeted max s) (hsettled : Settled s) {inputs : List Input}
    (hbind : ∀ i ∈ inputs, ∀ n ∈ i.notification, isBind n = false)
    (hrun : exec step s inputs = some s') :
    opens s'.driver.trace ≤ opens s.driver.trace +
      (max.val + 1) * (countSteps step rewinds s inputs + 1) := by
  have hle : opens s'.driver.trace + allowance max.val s' ≤ opens s.driver.trace +
      allowance max.val s + (max.val + 1) * countSteps step rewinds s inputs :=
    exec_potential (I := fun s => Budgeted max s ∧ Settled s) (fun s => opens s.driver.trace)
      (allowance max.val) rewinds (max.val + 1)
      (fun s i s' hs hi hstep => ⟨⟨step_budgeted hs.1 hstep, step_settled hs.2 hstep⟩,
        step_outlay hs.1 hs.2 hi hstep⟩) ⟨h, hsettled⟩ (guarded_of_forall_mem hbind) hrun
  have := allowance_le max.val s
  rw [Nat.mul_add, Nat.mul_one]
  omega

/-- **The retry budget.** A run without a `CONOK`, in which nothing else starts the schedule over,
opens at most one more stream connection than the policy has attempts. -/
theorem retry_budget {properties : TransportProperties} {options : SessionOptions}
    (hmax : options.backoff.maxAttempts = some max) (h : Reachable properties options s)
    {inputs : List Input} (hbind : ∀ i ∈ inputs, ∀ n ∈ i.notification, isBind n = false)
    (hrewinds : Guarded step (fun s i => rewinds s i = false) s inputs)
    (hrun : exec step s inputs = some s') :
    opens s'.driver.trace ≤ opens s.driver.trace + (max.val + 1) := by
  have hle := opens_le (h.budgeted hmax) h.settled hbind hrun
  rwa [countSteps_eq_zero hrewinds, Nat.zero_add, Nat.mul_one] at hle

/-- Every attempt to reach the server fails. -/
def unreachable : List Input :=
  (List.replicate 8 [⟨.openFailed "refused", {}⟩, ⟨.timer, {}⟩]).flatten ++
    [⟨.openFailed "refused", {}⟩]

theorem retry_budget_unreachable :
    ∃ s, exec step (start ⟨true, false, false⟩ .default 1 0) unreachable = some s ∧
      opens s.driver.trace ≤ 10 := by
  have h : exec step (start ⟨true, false, false⟩ .default 1 0) unreachable = some _ := rfl
  refine ⟨_, h, (retry_budget rfl ⟨1, 0, [], rfl⟩ ?_ ?_ h).trans (by decide)⟩ <;> decide

/-- A server that answers every stream connection with `LOOP`. -/
def looping : ℕ → List Input
  | 0 => []
  | n + 1 => ⟨.opened, {}⟩ :: ⟨.line "LOOP,0", {}⟩ :: looping n

/-- A clean end that asks for no delay opens the next stream connection at once. -/
theorem unbind_at_once {reason : UnbindReason} (hclean : reason.isCleanLoop = true)
    (hdelay : reason.expectedDelay = some 0) (hstopping : d.stopping = false)
    (hturn : d.turn = {}) :
    ∃ d', unbind d reason = openNext d' ⟨.rebind, 0⟩ ∧ d'.stopping = false ∧
      d'.trace = d.trace ++ [.event (.unbound reason (some 0)) true] := by
  unfold unbind
  dsimp only
  rw [closeUnlessLooped, if_pos hclean, planAfter_of_isCleanLoop _ hclean, hdelay]
  simp only [emit, hstopping, hturn, reopen, Option.getD_some, Bool.false_or, if_true]
  exact ⟨_, rfl, rfl, rfl⟩

/-- One such answer. -/
theorem step_loop (hphase : s.phase = .pumping) (hstopping : s.driver.stopping = false) :
    ∃ s', step s ⟨.line "LOOP,0", {}⟩ = some s' ∧ s'.phase = .opening ∧
      s'.driver.stopping = false ∧ opens s'.driver.trace = opens s.driver.trace + 1 := by
  let d := (s.driver.withTurn {}).heard
  have hline : (s.driver.withTurn {}).onLine "LOOP,0" =
      (.unbind (d.loopReason (ofMillis 0)).1, (d.loopReason (ofMillis 0)).2) :=
    onLine_of_ok _ (by decide : parseLine "LOOP,0" = .ok (.loop 0))
  have hsame := d.loopReason_toSurroundings (ofMillis 0)
  have hstop : (d.loopReason (ofMillis 0)).2.stopping = false := by rw [hsame]; exact hstopping
  obtain ⟨hclean, hdelay⟩ := d.loopReason_isCleanLoop (ofMillis 0)
  obtain ⟨d', hu, hd', ht⟩ := unbind_at_once hclean hdelay hstop (by rw [hsame]; rfl)
  refine ⟨openNext d' ⟨.rebind, 0⟩, ?_, rfl, hd', ?_⟩
  · have hpump : step s ⟨.line "LOOP,0", {}⟩ =
        some (afterPump ((s.driver.withTurn {}).onLine "LOOP,0")) := by
      simp [step, hphase, pumpTurn]
    rw [hpump, hline, afterPump, if_neg (by rw [hstop]; exact Bool.false_ne_true), hu]
  · have htrace : d.trace = s.driver.trace := rfl
    rw [openNext_trace, ht, hsame, htrace]
    simp [opens, Action.opens]

theorem exec_loop (hphase : s.phase = .opening) (hstopping : s.driver.stopping = false) :
    ∃ s', exec step s [⟨.opened, {}⟩, ⟨.line "LOOP,0", {}⟩] = some s' ∧ s'.phase = .opening ∧
      s'.driver.stopping = false ∧ opens s'.driver.trace = opens s.driver.trace + 1 := by
  have hopened : step s ⟨.opened, {}⟩ = some (established (s.driver.withTurn {})) := by
    simp [step, hphase, openTurn]
  obtain ⟨s', hs', h⟩ := step_loop (s := established (s.driver.withTurn {})) rfl hstopping
  exact ⟨s', by simp [exec_cons, hopened, hs'], h⟩

/-- A run of such answers opens a stream connection for each of them. -/
theorem exec_looping (h : s.phase = .opening) (hstopping : s.driver.stopping = false) (n : ℕ) :
    ∃ s', exec step s (looping n) = some s' ∧
      opens s'.driver.trace = opens s.driver.trace + n := by
  induction n generalizing s with
  | zero => exact ⟨s, rfl, rfl⟩
  | succ n ih =>
    obtain ⟨m, hm, hphase, hstop, hopens⟩ := exec_loop h hstopping
    obtain ⟨s', hs', hopens'⟩ := ih hphase hstop
    refine ⟨s', ?_, by omega⟩
    exact (@exec_append_eq_some _ _ _ _ _ [_, _] _).2 ⟨m, hm, hs'⟩

/-- **A budget that bounds nothing.** No bound holds for the stream connections that a server can
make the driver open without ever completing a bind. -/
theorem retry_budget_unbounded :
    ¬∃ bound, ∀ inputs s', (∀ i ∈ inputs, ∀ n ∈ i.notification, isBind n = false) →
      exec step (start ⟨true, false, false⟩ .default 1 0) inputs = some s' →
      opens s'.driver.trace ≤ bound := by
  have hbind : ∀ n, ∀ i ∈ looping n, ∀ n ∈ i.notification, isBind n = false := by
    intro n
    induction n with
    | zero => decide
    | succ n ih =>
      simp only [looping, List.forall_mem_cons]
      exact ⟨by decide, by decide, ih⟩
  rintro ⟨bound, h⟩
  obtain ⟨s', hrun, hopens⟩ :=
    exec_looping (s := start ⟨true, false, false⟩ .default 1 0) rfl rfl bound
  have hle := h _ s' (hbind bound) hrun
  have hone : opens (start ⟨true, false, false⟩ .default 1 0).driver.trace = 1 := by decide
  omega

end Drive

end Lightstreamer.Session
