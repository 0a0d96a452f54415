import Lightstreamer.Session.Turns

/-!
# The kind of a bind

What a `CONOK` is reported as, against the history of the run: `expectedKind` reads the kind off the
request that opened the stream connection and the session bound last, and `Truthful` says that the
first bind of every stream connection was reported so. The driver answers from its intent and from
the two fields that hold a session id. They agree with the history (`Faithful`) unless a refusal
meets a driver that has abandoned its session already, or a clean end one that holds none
(`Recalls`).
-/

namespace Lightstreamer.Session

open Lightstreamer.Foundations Lightstreamer.Protocol Lightstreamer.Subscription

/-! ## Histories -/

/-- The session that an action reports as bound. -/
def Action.boundId : Action → Option SessionId
  | .event (.bound info) _ => some info.sessionId
  | _ => none

/-- The session bound last. -/
def lastBound (trace : List Action) : Option SessionId := (trace.filterMap Action.boundId).getLast?

/-- What an action makes of the request that awaits its first bind. -/
def awaits (request : Option StreamOpen) : Action → Option StreamOpen
  | .openStream request => some request
  | .event (.bound _) _ => none
  | _ => request

/-- The request of the stream connection whose first bind is still to come. -/
def awaiting (trace : List Action) : Option StreamOpen := trace.foldl awaits none

/-- The intent that a request carries out. -/
def StreamOpen.intent : StreamOpen → OpenIntent
  | .create _ => .create
  | .bind r => match r.recoveryFrom with
    | some requested => .recover requested
    | none => .rebind

/-- How a bind of `sid` is to be reported when it answers `request` and `last` was bound last. -/
def expectedKind (request : StreamOpen) (last : Option SessionId) (sid : SessionId) : BindKind :=
  match last with
  | none => .created
  | some previous =>
    match request.intent with
    | .create => .recreated (some previous)
    | .rebind => if previous = sid then .rebound else .recreated (some previous)
    | .recover requested =>
      if previous = sid then .recovering requested else .recreated (some previous)

/-- The first bind of every stream connection is reported as expected. -/
def Truthful (trace : List Action) : Prop :=
  ∀ before info delivered later, trace = before ++ .event (.bound info) delivered :: later →
    ∀ request ∈ awaiting before,
      info.kind = expectedKind request (lastBound before) info.sessionId

/-- An action that neither opens a stream connection nor reports a bind. -/
def Action.IsQuiet : Action → Prop
  | .openStream _ | .event (.bound _) _ => False
  | _ => True

theorem Action.IsReport.isQuiet {a : Action} (h : a.IsReport) : a.IsQuiet := by
  cases a with
  | event e =>
    cases e with
    | bound => cases h
    | _ => trivial
  | openStream => cases h
  | _ => trivial

theorem Action.IsQuiet.boundId {a : Action} (h : a.IsQuiet) : a.boundId = none := by
  cases a with
  | event e => cases e <;> first | rfl | cases h
  | _ => rfl

theorem Action.IsLoop.boundId {a : Action} (h : a.IsLoop) : a.boundId = none := by
  cases a with
  | event e => cases e <;> first | rfl | cases h
  | _ => rfl

theorem lastBound_of_extends {trace trace' : List Action}
    (h : Extends (fun a => a.boundId = none) trace trace') :
    lastBound trace' = lastBound trace := by
  rw [lastBound, lastBound, h.filterMap_eq fun _ ha => ha]

theorem awaiting_of_extends {trace trace' : List Action} (h : Extends Action.IsQuiet trace trace') :
    awaiting trace' = awaiting trace := by
  have hquiet : ∀ request (a : Action), a.IsQuiet → awaits request a = request := by
    intro request a ha
    cases a with
    | event e => cases e <;> first | rfl | cases ha
    | openStream => cases ha
    | _ => rfl
  refine h.invariant (I := fun l => awaiting l = awaiting trace) rfl fun l a ha hl => ?_
  rw [awaiting, List.foldl_concat, ← awaiting, hquiet _ a ha, hl]

namespace Truthful

variable {trace trace' : List Action}

theorem nil : Truthful [] := fun before _ _ _ h => by simp at h

/-- Only a bind can be reported wrong. -/
theorem concat (h : Truthful trace) {a : Action} (ha : ∀ info b, a = .event (.bound info) b →
    ∀ request ∈ awaiting trace,
      info.kind = expectedKind request (lastBound trace) info.sessionId) :
    Truthful (trace ++ [a]) := by
  intro before info b later heq
  rcases List.eq_nil_or_concat' later with rfl | ⟨later, c, rfl⟩
  · obtain ⟨rfl, hac⟩ := List.append_inj' heq rfl
    exact ha info b (List.singleton_inj.1 hac)
  · rw [← List.cons_append, ← List.append_assoc] at heq
    exact h before info b later (List.append_inj' heq rfl).1

theorem of_extends (h : Truthful trace)
    (ht : Extends (fun a => a.boundId = none) trace trace') : Truthful trace' := by
  refine ht.invariant h fun _ a ha hl => hl.concat fun info b hab => ?_
  simp [hab, Action.boundId] at ha

theorem of_getElem? {l : List Action} (h : Truthful l) {k : ℕ} {info : BoundInfo} {b : Bool}
    (hk : l[k]? = some (.event (.bound info) b)) :
    ∀ request ∈ awaiting (l.take k),
      info.kind = expectedKind request (lastBound (l.take k)) info.sessionId := by
  obtain ⟨hlt, hk⟩ := List.getElem?_eq_some_iff.1 hk
  refine h _ info b (l.drop (k + 1)) ?_
  rw [← hk, List.getElem_cons_drop, List.take_append_drop]

end Truthful

/-! ## The driver's memory -/

/-- A bind needs a session to name. -/
def OpenIntent.Fits (intent : OpenIntent) (session : Option SessionId) : Prop :=
  intent = .create ∨ session ≠ none

namespace SessionDriver

variable {d d' : SessionDriver}

/-- The two fields that hold a session id name the session bound last, and every bind so far was
reported as expected. -/
structure Recalls (d : SessionDriver) : Prop where
  last : lastBound d.trace = (d.session <|> d.previousSession)
  truthful : Truthful d.trace

/-- The driver knows which request the next bind answers. -/
def Awaits (d : SessionDriver) : Prop :=
  ∀ request ∈ awaiting d.trace, request.intent = d.intent ∧ d.intent.Fits d.session

/-- An operation that reports no bind and keeps the session bound last in mind. -/
theorem Recalls.of_extends (h : d.Recalls)
    (hs : (d'.session <|> d'.previousSession) = (d.session <|> d.previousSession))
    (ht : Extends (fun a => a.boundId = none) d.trace d'.trace) : d'.Recalls :=
  ⟨by rw [lastBound_of_extends ht, h.last, hs], h.truthful.of_extends ht⟩

theorem Awaits.of_extends (h : d.Awaits) (hi : d'.intent = d.intent) (hs : d'.session = d.session)
    (ht : Extends Action.IsQuiet d.trace d'.trace) : d'.Awaits := by
  intro request hr
  rw [awaiting_of_extends ht] at hr
  rw [hi, hs]
  exact h request hr

/-- The request for an intent that fits carries the intent out. -/
theorem intent_buildOpen {intent : OpenIntent} (h : intent.Fits d.session) :
    (d.buildOpen intent).intent = intent := by
  unfold buildOpen
  cases hs : d.session with
  | none =>
    obtain rfl := h.resolve_right fun hne => hne hs
    rfl
  | some session => cases intent <;> rfl

/-- The driver answers from its intent what the request asks for. -/
theorem bindKind_eq_expectedKind {intent : OpenIntent} {request : StreamOpen}
    {last : Option SessionId} (hr : request.intent = intent) (hl : intent.Fits last)
    (sid : SessionId) : bindKind intent last sid = expectedKind request last sid := by
  cases last with
  | none =>
    obtain rfl := hl.resolve_right fun hne => hne rfl
    rfl
  | some previous =>
    unfold bindKind expectedKind
    rw [hr]
    cases intent <;> simp

/-- **A `CONOK`.** Whatever it names is the session bound last from there on. -/
theorem onConok_recalls (h : d.Recalls) (hw : d.Awaits) (sid : SessionId) (limit keepAlive : ℕ)
    (link : Option String) :
    (d.onConok sid limit keepAlive link).Recalls ∧ (d.onConok sid limit keepAlive link).Awaits := by
  have henter : Extends Action.IsQuiet d.trace
      (d.enterSession sid keepAlive link (d.conokKind sid)).trace :=
    d.enterSession_extends sid keepAlive link _ (fun _ => Action.IsReport.isQuiet)
      fun _ _ _ _ _ => trivial
  have hissue : Extends Action.IsQuiet (d.announced sid limit keepAlive link).trace
      (d.onConok sid limit keepAlive link).trace :=
    issueUnboundSubscriptions_extends _ (fun _ => Action.IsReport.isQuiet) fun _ _ _ _ _ => trivial
  have hlast := lastBound_of_extends (henter.mono fun _ => Action.IsQuiet.boundId)
  have hsession : (d.onConok sid limit keepAlive link).session = some sid := by
    rw [onConok_toLifecycle, enterSession_toLifecycle]
  have hkind : ∀ request ∈ awaiting (d.enterSession sid keepAlive link (d.conokKind sid)).trace,
      d.conokKind sid = expectedKind request
        (lastBound (d.enterSession sid keepAlive link (d.conokKind sid)).trace) sid := by
    intro request hr
    rw [awaiting_of_extends henter] at hr
    obtain ⟨hintent, hfits⟩ := hw request hr
    rw [hlast, h.last]
    refine bindKind_eq_expectedKind hintent (hfits.imp_right fun hne => ?_) sid
    obtain ⟨previous, hp⟩ := Option.ne_none_iff_exists'.1 hne
    simp [hp]
  have hannounced : Truthful (d.announced sid limit keepAlive link).trace :=
    (h.truthful.of_extends (henter.mono fun _ => Action.IsQuiet.boundId)).concat
      fun info b heq => by
        cases heq
        exact hkind
  refine ⟨⟨?_, hannounced.of_extends (hissue.mono fun _ => Action.IsQuiet.boundId)⟩, ?_⟩
  · rw [lastBound_of_extends (hissue.mono fun _ => Action.IsQuiet.boundId), hsession]
    simp [lastBound, announced, emit, Action.boundId]
  · intro request hr
    rw [awaiting_of_extends hissue] at hr
    simp [awaiting, announced, emit, awaits] at hr

/-- What a turn of the pump is to leave behind. -/
structure Keeps (r : Flow × SessionDriver) : Prop where
  recalls : r.2.Recalls
  awaits : r.1 = .continue → r.2.Awaits
  loops : ∀ reason, r.1 = .unbind reason → reason.isCleanLoop = true → r.2.session ≠ none

/-- A turn that reports no bind and leaves the session alone. -/
theorem Keeps.of_extends {r : Flow × SessionDriver} (h : d.Recalls) (hw : d.Awaits)
    (hs : r.2.session = d.session) (hp : r.2.previousSession = d.previousSession)
    (hi : r.2.intent = d.intent) (ht : Extends Action.IsQuiet d.trace r.2.trace)
    (hloop : ∀ reason, r.1 = .unbind reason → reason.isCleanLoop = true → d.session ≠ none) :
    Keeps r :=
  ⟨h.of_extends (by rw [hs, hp]) (ht.mono fun _ => Action.IsQuiet.boundId),
    fun _ => hw.of_extends hi hs ht, fun reason hr hc => hs ▸ hloop reason hr hc⟩

/-- A command keeps the session bound last in mind. -/
theorem onCommand_recalls (h : d.Recalls) (c : SessionCommand) : (d.onCommand c).2.Recalls := by
  obtain ⟨b, hl⟩ := d.onCommand_toLifecycle c
  exact h.of_extends (by rw [hl]) (d.onCommand_extends
    (fun _ ha => Action.IsQuiet.boundId (Action.IsReport.isQuiet ha)) c (fun _ _ _ _ => rfl)
    fun _ _ _ _ => rfl)

theorem onCommand_keeps (h : d.Recalls) (hw : d.Awaits) (c : SessionCommand) :
    Keeps (d.onCommand c) := by
  obtain ⟨b, hl⟩ := d.onCommand_toLifecycle c
  have hflow := d.onCommand_flow c
  refine .of_extends h hw (by rw [hl]) (by rw [hl]) (by rw [hl])
    (d.onCommand_extends (fun _ => Action.IsReport.isQuiet) c (fun _ _ _ _ => trivial)
      fun _ _ _ _ => trivial) fun reason hr => ?_
  rw [hr] at hflow
  obtain hf | ⟨closed, hf⟩ := hflow <;> cases hf

theorem onTimer_keeps (h : d.Recalls) (hw : d.Awaits) : Keeps d.onTimer := by
  obtain ⟨failures, hl⟩ := d.onTimer_toLifecycle
  refine .of_extends h hw (by rw [hl]) (by rw [hl]) (by rw [hl])
    (d.onTimer_extends fun _ _ _ => trivial) fun reason hr hclean => ?_
  obtain hf | ⟨budget, hf⟩ | ⟨detail, hf⟩ := d.onTimer_flow <;> rw [hf] at hr <;> cases hr <;>
    cases hclean

/-- Abandoning a session keeps it in mind, unless one is in mind already. -/
theorem Recalls.abandonSession (h : d.Recalls)
    (hs : d.session = none → d.previousSession = none) : d.abandonSession.Recalls := by
  refine h.of_extends ?_ (.refl _ _)
  cases hsession : d.session with
  | none => simp [SessionDriver.abandonSession, hsession, hs hsession]
  | some sid => simp [SessionDriver.abandonSession, hsession]

theorem onNotification_keeps (h : d.Recalls) (hw : d.Awaits) {n : Notification}
    (habandons : d.abandons n = true → d.session = none → d.previousSession = none)
    (hloop : isLoop n = true → d.session ≠ none) : Keeps (d.onNotification n) := by
  have hkeeps : ∀ {d' : SessionDriver}, d'.session = d.session →
      d'.previousSession = d.previousSession → d'.intent = d.intent →
      Extends Action.IsQuiet d.trace d'.trace → Keeps (.continue, d') := fun hs hp hi ht =>
    .of_extends h hw hs hp hi ht (by simp)
  have hP : ∀ a : Action, a.IsReport → a.IsQuiet := fun _ => Action.IsReport.isQuiet
  induction n using onNotification_cases d with
  | conok sid limit millis link hn =>
    rw [hn]
    obtain ⟨hr, ha⟩ := onConok_recalls h hw sid limit (ofMillis millis) link
    exact ⟨hr, fun _ => ha, by simp⟩
  | conerr code message hn =>
    rw [hn]
    simp only [abandons, onConerr] at habandons ⊢
    cases hc : classify code with
    | fatal => exact ⟨h, by simp, by simp⟩
    | _ =>
      rw [hc] at habandons
      refine ⟨h.abandonSession (habandons rfl), by simp, fun reason hr hclean => ?_⟩
      cases hr
      cases hclean
  | ended code message hn =>
    rw [hn]
    simp only [abandons, onEnd] at habandons ⊢
    split_ifs with hdestroy
    · exact ⟨h, by simp, by simp⟩
    · cases hc : classify code with
      | fatal => exact ⟨h, by simp, by simp⟩
      | _ =>
        rw [hc] at habandons
        refine ⟨h.abandonSession (habandons (by simp [hdestroy])), by simp,
          fun reason hr hclean => ?_⟩
        cases hr
        cases hclean
  | loop millis hn =>
    rw [hn]
    exact .of_extends h hw (by simp) (by simp) (by simp) (by simp) fun _ _ _ => hloop rfl
  | prog n hn =>
    obtain ⟨progressive, skip, honoured, hl⟩ := d.onProg_toLifecycle n
    exact hn ▸ hkeeps (by rw [hl]) (by rw [hl]) (by rw [hl]) (onProg_extends _ hP n)
  | reqok id hn =>
    exact hn ▸ hkeeps (by simp) (by simp) (by simp) (d.onRequestOk_extends hP id)
  | reqerr id code message hn =>
    have hl := d.onRequestError_toLifecycle id ⟨code, message⟩
    exact hn ▸ hkeeps (by rw [hl]) (by rw [hl]) (by rw [hl])
      (d.onRequestError_extends hP id _ fun _ _ _ _ => trivial)
  | quiet n _ hn => exact hn ▸ hkeeps rfl rfl rfl (.refl _ _)
  | report n e _ hn he => exact hn ▸ hkeeps rfl rfl rfl (d.extends_report hP he)
  | data n _ hn =>
    have hl := d.onData_toLifecycle n
    exact hn ▸ hkeeps (by rw [hl]) (by rw [hl]) (by rw [hl])
      (d.onData_extends n (fun _ => trivial) (fun _ _ _ _ _ => trivial) fun _ _ _ _ => trivial)

theorem onLine_keeps (h : d.Recalls) (hw : d.Awaits) {text : String}
    (hn : ∀ n, parseLine text = .ok n →
      (d.abandons n = true → d.session = none → d.previousSession = none) ∧
      (isLoop n = true → d.session ≠ none)) : Keeps (d.onLine text) := by
  have hheard : d.heard.Recalls := ⟨h.last, h.truthful⟩
  cases htext : parseLine text with
  | error e =>
    rw [onLine_of_error d htext]
    exact .of_extends hheard hw rfl rfl rfl
      (extends_report _ (fun _ => Action.IsReport.isQuiet) trivial) nofun
  | ok n =>
    rw [onLine_of_ok d htext]
    exact onNotification_keeps hheard hw (hn n htext).1 (hn n htext).2

end SessionDriver

/-! ## Runs -/

namespace Drive

open SessionDriver

variable {d : SessionDriver} {s s' : Drive} {i : Input}

/-- The driver's memory agrees with the history, and so does its plan. -/
structure Faithful (s : Drive) : Prop where
  recalls : s.driver.Recalls
  planned : ∀ next, s.phase = .waiting next → next.intent.Fits s.driver.session
  awaits : s.phase = .opening ∨ s.phase = .pumping → s.driver.Awaits

theorem finish_faithful (h : d.Recalls) (closed : SessionClosed) : Faithful (finish d closed) where
  recalls := h.of_extends rfl (finish_extends d (fun _ => Action.IsLoop.boundId) closed)
  planned := nofun
  awaits := fun hp => by rcases hp with hp | hp <;> cases hp

theorem openNext_faithful (h : d.Recalls) {next : Reopen} (hfits : next.intent.Fits d.session) :
    Faithful (openNext d next) where
  recalls := h.of_extends rfl (Extends.one (P := fun a : Action => a.boundId = none) rfl _)
  planned := nofun
  awaits := fun _ request hr => by
    simp only [openNext_trace, awaiting, List.foldl_append, List.foldl_cons, List.foldl_nil,
      awaits, Option.mem_some_iff] at hr
    subst hr
    exact ⟨intent_buildOpen hfits, hfits⟩

theorem reopen_faithful (h : d.Recalls) {next : Reopen} (hfits : next.intent.Fits d.session) :
    Faithful (reopen d next) := by
  unfold reopen
  split_ifs
  · exact openNext_faithful h hfits
  · refine ⟨h, fun next' hp => ?_, fun hp => by rcases hp with hp | hp <;> cases hp⟩
    cases hp
    exact hfits

/-- The bottom of the loop: a clean end needs a session to bind again. -/
theorem unbind_faithful (h : d.Recalls) {reason : UnbindReason}
    (hloop : reason.isCleanLoop = true → d.session ≠ none) : Faithful (unbind d reason) := by
  have hplanned : ∀ {d' : SessionDriver} {next : Option Reopen} (retry : Option ℕ),
      (unbound d reason).planAfter reason = (next, d') →
      (d'.emit (.unbound reason retry)).Recalls ∧ d'.session = d.session := by
    intro d' next retry hp
    obtain ⟨backoff, streak, hl⟩ := planAfter_toLifecycle (unbound d reason) reason
    rw [hp] at hl
    dsimp only at hl
    have hs : d'.session = d.session ∧ d'.previousSession = d.previousSession := by simp [hl]
    exact ⟨h.of_extends (by rw [emit_toLifecycle, hs.1, hs.2])
      (planned_extends (P := fun a : Action => a.boundId = none) hp rfl retry fun _ => rfl), hs.1⟩
  obtain ⟨next, d', hp, hu | hu⟩ | ⟨d', hp, hu⟩ := unbind_cases d reason
  · rw [hu]
    exact finish_faithful (hplanned _ hp).1 _
  · rw [hu]
    refine reopen_faithful (hplanned _ hp).1 ?_
    rw [emit_toLifecycle, (hplanned (some next.delay) hp).2]
    obtain ⟨hclean, hi⟩ | hi | ⟨hs, hi⟩ := planAfter_intent hp
    · exact .inr (hloop hclean)
    · exact .inl hi
    · exact .inr (by simpa using hs)
  · rw [hu]
    exact finish_faithful (hplanned _ hp).1 _

/-- What the pump's turn leads to. -/
theorem afterPump_faithful {r : Flow × SessionDriver} (h : Keeps r) : Faithful (afterPump r) := by
  obtain hp | ⟨hr, -, hp⟩ | ⟨reason, hr, -, hp⟩ | ⟨closed, -, hp⟩ := afterPump_cases r
  · exact hp ▸ finish_faithful h.recalls _
  · exact hp ▸ ⟨h.recalls, nofun, fun _ => h.awaits hr⟩
  · exact hp ▸ unbind_faithful h.recalls (h.loops reason hr)
  · exact hp ▸ finish_faithful h.recalls _

theorem afterWait_faithful {next : Reopen} {r : Flow × SessionDriver} (h : r.2.Recalls)
    (hfits : next.intent.Fits r.2.session) : Faithful (afterWait next r) := by
  obtain ⟨closed, -, hw⟩ | hw | ⟨-, -, hw⟩ := afterWait_cases next r
  · exact hw ▸ finish_faithful h _
  · exact hw ▸ finish_faithful h _
  · rw [hw]
    refine ⟨h, fun next' hp => ?_, fun hp => by rcases hp with hp | hp <;> cases hp⟩
    cases hp
    exact hfits

/-- The branches that let the driver's memory go are not taken: no refusal meets a driver that has
abandoned its session already, and no clean end one that holds no session. -/
def Mindful (s : Drive) (i : Input) : Prop :=
  (∀ n ∈ i.notification, s.driver.abandons n = true → s.driver.session = none →
    s.driver.previousSession = none) ∧
  (i.loops s.driver = true → s.driver.session ≠ none)

instance (s : Drive) (i : Input) : Decidable (Mindful s i) :=
  inferInstanceAs (Decidable (_ ∧ _))

theorem step_faithful (h : Faithful s) (hi : Mindful s i) (hstep : step s i = some s') :
    Faithful s' := by
  have hd : (s.driver.withTurn i.turn).Recalls := ⟨h.recalls.last, h.recalls.truthful⟩
  cases step_turns hstep with
  | waitCommand next c hphase =>
    refine afterWait_faithful (onCommand_recalls hd c) ?_
    obtain ⟨b, hl⟩ := (s.driver.withTurn i.turn).onCommand_toLifecycle c
    simpa [hl] using h.planned next hphase
  | waitOver next hphase => exact openNext_faithful hd (h.planned next hphase)
  | waitStop | openStop => exact finish_faithful hd stopped
  | opened hphase => exact ⟨⟨hd.last, hd.truthful⟩, nofun, fun _ => h.awaits (.inl hphase)⟩
  | openFailed detail => exact unbind_faithful hd nofun
  | line text hphase hw =>
    exact afterPump_faithful (onLine_keeps hd (h.awaits (.inr hphase)) fun n hn =>
      ⟨hi.1 n (Input.notification_of_line hw hn), fun hl => hi.2 (by
        simp [Input.loops, hw, Input.notification_of_line hw hn, hl])⟩)
  | command c hphase hw => exact afterPump_faithful (onCommand_keeps hd (h.awaits (.inr hphase)) c)
  | timer hphase => exact afterPump_faithful (onTimer_keeps hd (h.awaits (.inr hphase)))
  | interrupted flow hphase hw =>
    refine afterPump_faithful ⟨hd, fun _ => h.awaits (.inr hphase), fun reason hr hclean => ?_⟩
    obtain ⟨detail, -, rfl⟩ | ⟨hw, rfl⟩ | ⟨-, rfl⟩ := hw
    · cases hr
      cases hclean
    · refine hi.2 ?_
      simp only [onStreamEnd] at hr
      split_ifs at hr with hdestroy hpolling
      · simp_all [Input.loops, withTurn]
      · cases hr
        cases hclean
    · cases hr

theorem start_faithful (properties : TransportProperties) (options : SessionOptions)
    (seed : UInt64) (now : ℕ) : Faithful (start properties options seed now) :=
  reopen_faithful ⟨rfl, .nil⟩ (.inl rfl)

/-- **The kind of a bind tells the truth**, as long as the driver does not let its memory go. -/
theorem bind_kind_truthful {properties : TransportProperties} {options : SessionOptions}
    {seed : UInt64} {now : ℕ} {inputs : List Input} {s : Drive}
    (hmindful : Guarded step Mindful (start properties options seed now) inputs)
    (h : exec step (start properties options seed now) inputs = some s) :
    Truthful s.driver.trace :=
  (exec_invariant (fun _ _ _ hs hi hstep => step_faithful hs hi hstep)
    (start_faithful properties options seed now) hmindful h).recalls.truthful

/-- A session, a loop, a drop, a recovery, and a second session. -/
def loopedThenLost : List Input :=
  [⟨.opened, {}⟩, ⟨.line "CONOK,S1,50000,5000,*", {}⟩, ⟨.line "LOOP,0", {}⟩, ⟨.opened, {}⟩,
    ⟨.line "CONOK,S1,50000,5000,*", {}⟩, ⟨.lineFailed "reset", {}⟩, ⟨.timer, {}⟩, ⟨.opened, {}⟩,
    ⟨.line "CONERR,20,gone", {}⟩, ⟨.timer, {}⟩, ⟨.opened, {}⟩,
    ⟨.line "CONOK,S2,50000,5000,*", {}⟩]

theorem bind_kind_truthful_loopedThenLost :
    ∃ s, exec step (start ⟨true, false, false⟩ .default 1 0) loopedThenLost = some s ∧
      Truthful s.driver.trace := by
  have h : exec step (start ⟨true, false, false⟩ .default 1 0) loopedThenLost = some _ := rfl
  exact ⟨_, h, bind_kind_truthful (by decide) h⟩

/-- A session, and a refusal of each of the two attempts to create another one. -/
def refusedTwice : List Input :=
  [⟨.opened, {}⟩, ⟨.line "CONOK,S1,50000,5000,*", {}⟩, ⟨.line "END,48,expired", {}⟩,
    ⟨.opened, {}⟩, ⟨.line "CONERR,5,busy", {}⟩, ⟨.timer, {}⟩, ⟨.opened, {}⟩,
    ⟨.line "CONOK,S2,50000,5000,*", {}⟩]

/-- **A bind that does not tell the truth.** The second refusal in a row erases the session bound
last, and its replacement is reported as the first session. -/
theorem bind_kind_refusedTwice :
    ∃ s, exec step (start ⟨true, false, false⟩ .default 1 0) refusedTwice = some s ∧
      ¬Truthful s.driver.trace := by
  have h : exec step (start ⟨true, false, false⟩ .default 1 0) refusedTwice = some _ := rfl
  refine ⟨_, h, fun ht => ?_⟩
  have hkind := ht.of_getElem? (k := 10) rfl _ rfl
  revert hkind
  decide

end Drive

end Lightstreamer.Session
