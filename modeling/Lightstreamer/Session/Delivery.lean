import Lightstreamer.Session.Stream

/-!
# Every data notification, once and in order

The driver counts the data notifications it passes on, asks a recovery to go on after that count,
and discards what the server sends again. What it passes on is an event: a report on a message, or
what the subscription that the notification names makes of it (`Registry.makes`), at the position of
the notification (`deliver_trace`).

`InStep` says how far the two ends of a session are apart: the notifications in flight are the ones
after a position of the server, and that position and the duplicates left to skip make up the count
of the driver. A drop and a recovery keep it, from any position the server chooses; a stream
connection that ends the clean way while duplicates are left to skip breaks it, since the next
connection starts without skipping (`delivered_twice`). Without that every notification is passed on
once and in order (`delivered_once`).
-/

namespace Lightstreamer.Session

open Lightstreamer.Foundations Lightstreamer.Protocol

/-! ## What reaches the caller's side -/

/-- The event that a data notification makes at a position, when it makes one: a report on a
message, or what the subscription it names makes of it. -/
def Registry.makes (registry : Registry) (position : ℕ) : Notification → Option SessionEvent
  | .messageDone sequence prog response =>
    some (.message (some position) sequence (some prog) (.done response))
  | .messageFailed sequence prog code message =>
    some (.message (some position) sequence (some prog) (.failed ⟨code, message⟩))
  | n => do
    let subId ← SessionDriver.subscriptionId n
    let key ← registry.bySubId.get? subId
    let entry ← registry.entries.get? key
    let outcome ← (entry.manager.handle n).1
    return .subscription position key outcome

/-- The position of the data notification that an event is about. -/
def SessionEvent.position : SessionEvent → Option ℕ
  | .message position .. => position
  | .subscription position .. => some position
  | _ => none

/-- The event about a data notification that an action publishes, and whether the caller's channel
took it. -/
def Action.delivers : Action → Option (SessionEvent × Bool)
  | .event e taken => e.position.map fun _ => (e, taken)
  | _ => none

/-- The events about data notifications that went to the caller's side, in order. -/
def deliveries (trace : List Action) : List (SessionEvent × Bool) :=
  trace.filterMap Action.delivers

/-- The data notification that an action counts, with its position. -/
def Action.passed : Action → Option (ℕ × Notification)
  | .data position n => some (position, n)
  | _ => none

/-- The data notifications that were counted, with their positions. -/
def passedOn (trace : List Action) : List (ℕ × Notification) := trace.filterMap Action.passed

/-- An action that neither counts a data notification nor tells the caller of one. -/
def Action.IsApart (a : Action) : Prop := a.passed = none ∧ a.delivers = none

theorem Action.IsReport.apart {a : Action} (h : a.IsReport) : a.IsApart := by
  cases a with
  | event event taken =>
    cases event with
    | message | subscription => cases h
    | _ => exact ⟨rfl, rfl⟩
  | data => cases h
  | _ => exact ⟨rfl, rfl⟩

theorem Action.IsLoop.apart {a : Action} (h : a.IsLoop) : a.IsApart := by
  cases a with
  | event event taken =>
    cases event with
    | message | subscription => cases h
    | _ => exact ⟨rfl, rfl⟩
  | data => cases h
  | _ => exact ⟨rfl, rfl⟩

theorem passedOn_of_extends {l l' : List Action} (h : Extends Action.IsApart l l') :
    passedOn l' = passedOn l :=
  h.filterMap_eq fun _ ha => ha.1

theorem deliveries_of_extends {l l' : List Action} (h : Extends Action.IsApart l l') :
    deliveries l' = deliveries l :=
  h.filterMap_eq fun _ ha => ha.2

namespace SessionDriver

theorem interpretForSubscription_fst (d : SessionDriver) (position : ℕ) {n : Notification}
    (hdone : ∀ sequence prog response, n = .messageDone sequence prog response → False)
    (hfailed : ∀ sequence prog code message, n = .messageFailed sequence prog code message →
      False) :
    (d.interpretForSubscription position n).1 = d.registry.makes position n := by
  have hmakes : d.registry.makes position n = (subscriptionId n).bind fun subId =>
      (d.registry.bySubId.get? subId).bind fun key =>
      (d.registry.entries.get? key).bind fun entry =>
      (entry.manager.handle n).1.map (.subscription position key) := by
    cases n with
    | messageDone sequence prog response => exact (hdone sequence prog response rfl).elim
    | messageFailed sequence prog code message =>
      exact (hfailed sequence prog code message rfl).elim
    | _ => simp [Registry.makes, Option.map_eq_bind]
  rw [hmakes, interpretForSubscription, resolveSubscription]
  cases subscriptionId n with
  | none => rfl
  | some subId =>
    cases hkey : d.registry.bySubId.get? subId with
    | none => simp [hkey]
    | some key =>
      cases hentry : d.registry.entries.get? key with
      | none => simp [hkey, hentry]
      | some entry => simp [hkey, hentry]

theorem notifySubscription_trace (d : SessionDriver) (n : Notification) :
    (d.notifySubscription n).trace = d.trace ++
      ((d.interpretForSubscription d.progressive n).1.map fun event =>
        Action.event event (!d.turn.interrupts.headD false)).toList := by
  have hsame := d.interpretForSubscription_toSurroundings d.progressive n
  unfold notifySubscription
  dsimp only
  split
  · rename_i event hevent
    rw [hevent, emit, hsame]
    rfl
  · rename_i hevent
    rw [hevent, hsame]
    simp

/-- **What a counted notification adds to the trace**: the event that it makes, after the record
of it. -/
theorem deliver_trace (d : SessionDriver) (n : Notification) :
    (d.deliver n).trace = d.trace ++ [.data d.progressive n] ++
      ((d.registry.makes d.progressive n).map fun event =>
        Action.event event (!d.turn.interrupts.headD false)).toList := by
  unfold deliver
  dsimp only
  split
  · rfl
  · rfl
  · rename_i hdone hfailed
    rw [notifySubscription_trace]
    exact congrArg (fun made => _ ++ (Option.map _ made).toList)
      ((d.act (.data d.progressive n)).interpretForSubscription_fst d.progressive hdone hfailed)

theorem passedOn_deliver (d : SessionDriver) (n : Notification) :
    passedOn (d.deliver n).trace = passedOn d.trace ++ [(d.progressive, n)] := by
  rw [deliver_trace, passedOn, List.filterMap_append, List.filterMap_append]
  cases d.registry.makes d.progressive n with
  | none => simp [passedOn, Action.passed]
  | some event => simp [passedOn, Action.passed]

theorem makes_position {registry : Registry} {position : ℕ} {n : Notification}
    {event : SessionEvent} (h : registry.makes position n = some event) :
    event.position = some position := by
  cases n with
  | messageDone | messageFailed =>
    cases h
    rfl
  | _ =>
    simp only [Registry.makes, Option.bind_eq_bind, Option.bind_eq_some_iff, Option.pure_def,
      Option.some.injEq] at h
    obtain ⟨-, -, -, -, -, -, -, -, rfl⟩ := h
    rfl

/-- What a counted notification tells the caller's side. -/
theorem deliveries_deliver (d : SessionDriver) (n : Notification) :
    deliveries (d.deliver n).trace = deliveries d.trace ++
      ((d.registry.makes d.progressive n).map fun event =>
        (event, !d.turn.interrupts.headD false)).toList := by
  rw [deliver_trace, deliveries, List.filterMap_append, List.filterMap_append]
  cases hmakes : d.registry.makes d.progressive n with
  | none => simp [deliveries, Action.delivers]
  | some event => simp [deliveries, Action.delivers, makes_position hmakes]

end SessionDriver

/-- A data notification that was taken: its position, what it is, and what goes to the caller's
side. -/
structure Taken where
  position : ℕ
  notification : Notification
  delivery : Option (SessionEvent × Bool)
  deriving DecidableEq

/-- What reading a notification takes: it is taken when the position moves on, and goes to the
caller's side as the event that the registry makes of it. An ordered stop abandons the event. -/
def SessionDriver.takes (d : SessionDriver) (n : Notification) (d' : SessionDriver) :
    Option Taken :=
  if d.progressive < d'.progressive then
    some ⟨d'.progressive, n, (d.registry.makes d'.progressive n).map fun event =>
      (event, !d.turn.interrupts.headD false)⟩
  else none

/-- What a turn takes. -/
def Drive.taken (s : Drive) (i : Input) (s' : Drive) : Option Taken :=
  i.notification.bind fun n => (s.driver.withTurn i.turn).takes n s'.driver

/-- What an event of the session makes the driver take. -/
def World.taken (w : World) (e : Event) (w' : World) : Option Taken :=
  (w.turnOf e).bind fun i => w.drive.taken i w'.drive

/-- What the driver takes in a run of the two ends, in order. -/
def World.takes (feed : Feed) (w : World) (events : List Event) : List Taken :=
  outputs (World.step feed) World.taken w events

theorem SessionDriver.takes_congr {d d' d'' : SessionDriver} (n : Notification)
    (h : d''.progressive = d'.progressive) : d.takes n d'' = d.takes n d' := by
  unfold takes
  rw [h]

theorem SessionDriver.takes_eq_none {d d' : SessionDriver} (n : Notification)
    (h : d'.progressive = d.progressive) : d.takes n d' = none := by
  unfold takes
  rw [h, if_neg (Nat.lt_irrefl _)]

theorem Drive.taken_eq_none {s s' : Drive} (i : Input)
    (h : s'.driver.progressive = s.driver.progressive) : s.taken i s' = none := by
  unfold taken
  cases i.notification with
  | none => rfl
  | some n => exact SessionDriver.takes_eq_none (d := s.driver.withTurn i.turn) n h

/-! ## Turns of the driver without a line -/

namespace Drive

open SessionDriver

variable {d : SessionDriver} {s s' : Drive} {i : Input}

/-- The driver waits for a stream connection, or opens one, with the intent. -/
def Reopens (s : Drive) (intent : OpenIntent) : Prop :=
  (∃ next, s.phase = .waiting next ∧ next.intent = intent) ∨
    s.phase = .opening ∧ s.driver.intent = intent ∧ s.driver.skipRemaining = 0 ∧
      s.driver.progHonoured = false

/-- The session, the position in it and what went to the caller's side are the same. -/
structure SamePlace (d : SessionDriver) (s : Drive) : Prop where
  session : s.driver.session = d.session
  progressive : s.driver.progressive = d.progressive
  delivered : deliveries s.driver.trace = deliveries d.trace

theorem openNext_reopens (d : SessionDriver) (next : Reopen) :
    Reopens (openNext d next) next.intent :=
  .inr ⟨rfl, rfl, rfl, rfl⟩

theorem reopen_reopens (d : SessionDriver) (next : Reopen) :
    Reopens (reopen d next) next.intent := by
  unfold reopen
  split_ifs
  · exact openNext_reopens d next
  · exact .inl ⟨next, rfl, rfl⟩

theorem finish_samePlace (d : SessionDriver) (closed : SessionClosed) :
    SamePlace d (finish d closed) :=
  ⟨rfl, rfl, deliveries_of_extends (finish_extends d (fun _ => Action.IsLoop.apart) closed)⟩

theorem unbind_samePlace (d : SessionDriver) (reason : UnbindReason) :
    SamePlace d (unbind d reason) := by
  have hsame := unbind_sameSession d reason
  have hdelivered := deliveries_of_extends (unbind_extends d (fun _ => Action.IsLoop.apart) reason)
  exact ⟨hsame.session, hsame.progressive, hdelivered⟩

/-- A stream connection that is lost with a session held, and not by a refusal. -/
def Parting (reason : UnbindReason) : Prop :=
  reason.isCleanLoop = true ∨ (∃ detail, reason = .connectionFailed detail) ∨
    ∃ budget, reason = .keepaliveExpired budget

/-- The driver binds the session again after a clean end, and recovers it otherwise. -/
theorem unbind_reopens {reason : UnbindReason} (hsession : d.session ≠ none)
    (hparting : Parting reason) :
    (∃ closed, (unbind d reason).phase = .closed closed) ∨
      Reopens (unbind d reason)
        (if reason.isCleanLoop then .rebind else .recover d.progressive) := by
  obtain ⟨next, d', hp, h | h⟩ | ⟨d', hp, h⟩ := unbind_cases d reason
  · exact .inl ⟨_, by rw [h, finish_phase]⟩
  · refine .inr ?_
    have hintent : next.intent =
        if reason.isCleanLoop then .rebind else .recover d.progressive := by
      have hsome : d.session.isSome = true := Option.isSome_iff_ne_none.2 hsession
      have hu : (unbound d reason).session = d.session ∧
          (unbound d reason).progressive = d.progressive := by
        rw [unbound_toLifecycle]
        exact ⟨rfl, rfl⟩
      have hfailed : ∀ {e : SessionDriver}, e.session = (unbound d reason).session →
          e.progressive = (unbound d reason).progressive →
          e.reopenLater (if e.session.isSome then .recover e.progressive else .create) =
            (some next, d') → next.intent = .recover d.progressive := by
        intro e hs hprogressive he
        rw [(reopenLater_eq_some he).1, hs, hu.1, hsome, hprogressive, hu.2, if_pos rfl]
      obtain hclean | ⟨detail, rfl⟩ | ⟨budget, rfl⟩ := hparting
      · rw [planAfter_of_isCleanLoop _ hclean] at hp
        rw [if_pos hclean]
        cases hp
        rfl
      · exact @hfailed { unbound d (.connectionFailed detail) with refreshStreak := 0 } rfl rfl hp
      · exact @hfailed { unbound d (.keepaliveExpired budget) with refreshStreak := 0 } rfl rfl hp
    rw [h, ← hintent]
    exact reopen_reopens _ next
  · exact .inl ⟨_, by rw [h, finish_phase]⟩

/-- Nothing that has to do with the stream connection changed. -/
structure SameStream (d d' : SessionDriver) : Prop where
  session : d'.session = d.session
  progressive : d'.progressive = d.progressive
  intent : d'.intent = d.intent
  skipRemaining : d'.skipRemaining = d.skipRemaining
  progHonoured : d'.progHonoured = d.progHonoured
  passed : passedOn d'.trace = passedOn d.trace
  delivered : deliveries d'.trace = deliveries d.trace

theorem SameStream.of_toLifecycle {d d' : SessionDriver} (h : d'.toLifecycle = d.toLifecycle)
    (ht : Extends Action.IsApart d.trace d'.trace) : SameStream d d' := by
  refine ⟨?_, ?_, ?_, ?_, ?_, passedOn_of_extends ht, deliveries_of_extends ht⟩ <;> rw [h]

theorem SameStream.trans {d d' d'' : SessionDriver} (h : SameStream d d')
    (h' : SameStream d' d'') : SameStream d d'' :=
  ⟨h'.session.trans h.session, h'.progressive.trans h.progressive, h'.intent.trans h.intent,
    h'.skipRemaining.trans h.skipRemaining, h'.progHonoured.trans h.progHonoured,
    h'.passed.trans h.passed, h'.delivered.trans h.delivered⟩

theorem SamePlace.of_sameStream {d d' : SessionDriver} (h : SameStream d d')
    (h' : SamePlace d' s) : SamePlace d s :=
  ⟨h'.session.trans h.session, h'.progressive.trans h.progressive,
    h'.delivered.trans h.delivered⟩

theorem onCommand_sameStream (d : SessionDriver) (c : SessionCommand) :
    SameStream d (d.onCommand c).2 := by
  obtain ⟨b, h⟩ := d.onCommand_toLifecycle c
  have ht := d.onCommand_extends (fun _ => Action.IsReport.apart) c (fun _ _ _ _ => ⟨rfl, rfl⟩)
    fun _ _ _ _ => ⟨rfl, rfl⟩
  refine ⟨?_, ?_, ?_, ?_, ?_, passedOn_of_extends ht, deliveries_of_extends ht⟩ <;> rw [h]

theorem onTimer_sameStream (d : SessionDriver) : SameStream d d.onTimer.2 := by
  obtain ⟨failures, h⟩ := d.onTimer_toLifecycle
  have ht : Extends Action.IsApart d.trace d.onTimer.2.trace :=
    d.onTimer_extends fun _ _ _ => ⟨rfl, rfl⟩
  refine ⟨?_, ?_, ?_, ?_, ?_, passedOn_of_extends ht, deliveries_of_extends ht⟩ <;> rw [h]

/-- Where a turn leaves the stream connection; `clean` says whether it ended the clean way. -/
inductive Drifts (s : Drive) (clean : Bool) (s' : Drive) : Prop
  | closed {closed : SessionClosed} (h : s'.phase = .closed closed)
  | stays (hs : s.phase = .pumping) (hs' : s'.phase = .pumping)
      (hsame : SameStream s.driver s'.driver)
  | parts (hs : s.phase = .pumping)
      (h : Reopens s' (if clean then .rebind else .recover s.driver.progressive))
  | waits {next : Reopen} (hs : s.phase = .waiting next) (h : Reopens s' next.intent)
  | fails (hs : s.phase = .opening) (h : Reopens s' (.recover s.driver.progressive))
  | opens (hs : s.phase = .opening) (hs' : s'.phase = .pumping)
      (hsame : SameStream s.driver s'.driver)

/-- What the pump's turn leads to, when it left the stream connection as it was. -/
theorem afterPump_drifts {clean : Bool} {r : Flow × SessionDriver} (hphase : s.phase = .pumping)
    (hsession : s.driver.session ≠ none) (hsame : SameStream s.driver r.2)
    (hflow : ∀ reason, r.1 = .unbind reason → Parting reason ∧ reason.isCleanLoop = clean) :
    SamePlace s.driver (afterPump r) ∧ Drifts s clean (afterPump r) := by
  obtain h | ⟨-, -, h⟩ | ⟨reason, hr, -, h⟩ | ⟨closed, -, h⟩ := afterPump_cases r
  · rw [h]
    exact ⟨(finish_samePlace r.2 _).of_sameStream hsame, .closed (finish_phase r.2 _)⟩
  · rw [h]
    exact ⟨.of_sameStream hsame ⟨rfl, rfl, rfl⟩, .stays hphase rfl hsame⟩
  · rw [h]
    refine ⟨(unbind_samePlace r.2 reason).of_sameStream hsame, ?_⟩
    obtain ⟨hparting, hclean⟩ := hflow reason hr
    obtain ⟨closed, hclosed⟩ | hreopens :=
      unbind_reopens (d := r.2) (by rw [hsame.session]; exact hsession) hparting
    · exact .closed hclosed
    · rw [hclean, hsame.progressive] at hreopens
      exact .parts hphase hreopens
  · rw [h]
    exact ⟨(finish_samePlace r.2 _).of_sameStream hsame, .closed (finish_phase r.2 _)⟩

/-- **The turns without a line.** They take nothing and keep the position in the session. -/
theorem step_drifts (hsession : s.driver.session ≠ none) (hw : ∀ text, i.wake ≠ .line text)
    (h : step s i = some s') : SamePlace s.driver s' ∧ Drifts s (i.loops s.driver) s' := by
  have hsame : SameStream s.driver (s.driver.withTurn i.turn) := ⟨rfl, rfl, rfl, rfl, rfl, rfl, rfl⟩
  have hloops : i.wake ≠ .streamEnded → i.loops s.driver = false := by
    intro hended
    unfold Input.loops Input.notification
    split
    · rename_i hw'
      exact absurd hw' hended
    · split
      · rename_i text hw'
        exact absurd hw' (hw text)
      · rfl
  cases step_turns h with
  | waitCommand next c hphase =>
    have hc := hsame.trans (onCommand_sameStream (s.driver.withTurn i.turn) c)
    obtain ⟨closed, -, ha⟩ | ha | ⟨-, -, ha⟩ :=
      afterWait_cases next ((s.driver.withTurn i.turn).onCommand c)
    all_goals rw [ha]
    · exact ⟨(finish_samePlace _ closed).of_sameStream hc, .closed (finish_phase _ _)⟩
    · exact ⟨(finish_samePlace _ stopped).of_sameStream hc, .closed (finish_phase _ _)⟩
    · exact ⟨.of_sameStream hc ⟨rfl, rfl, rfl⟩, .waits hphase (.inl ⟨next, rfl, rfl⟩)⟩
  | waitOver next hphase =>
    have hdelivered : deliveries (openNext (s.driver.withTurn i.turn) next).driver.trace =
        deliveries s.driver.trace := by
      rw [openNext_trace]
      exact deliveries_of_extends (.one ⟨rfl, rfl⟩ _)
    exact ⟨⟨rfl, rfl, hdelivered⟩, .waits hphase (openNext_reopens _ next)⟩
  | waitStop | openStop =>
    exact ⟨(finish_samePlace _ stopped).of_sameStream hsame, .closed (finish_phase _ _)⟩
  | opened hphase => exact ⟨⟨rfl, rfl, rfl⟩, .opens hphase rfl ⟨rfl, rfl, rfl, rfl, rfl, rfl, rfl⟩⟩
  | openFailed detail hphase =>
    refine ⟨(unbind_samePlace _ (.connectionFailed detail)).of_sameStream hsame, ?_⟩
    obtain ⟨closed, hclosed⟩ | hreopens := @unbind_reopens (s.driver.withTurn i.turn)
      (.connectionFailed detail) hsession (.inr (.inl ⟨detail, rfl⟩))
    · exact .closed hclosed
    · exact .fails hphase hreopens
  | line text _ hw' => exact absurd hw' (hw text)
  | command c hphase hc =>
    refine afterPump_drifts hphase hsession (hsame.trans (onCommand_sameStream _ c))
      fun reason hr => ?_
    obtain hcontinue | ⟨closed, hclosed⟩ := (s.driver.withTurn i.turn).onCommand_flow c
    · cases hcontinue.symm.trans hr
    · cases hclosed.symm.trans hr
  | timer hphase ht =>
    rw [hloops (by simp [ht])]
    refine afterPump_drifts hphase hsession (hsame.trans (onTimer_sameStream _)) fun reason hr => ?_
    obtain hcontinue | ⟨budget, hexpired⟩ | ⟨detail, hfailed⟩ :=
      (s.driver.withTurn i.turn).onTimer_flow
    · cases hcontinue.symm.trans hr
    · cases hexpired.symm.trans hr
      exact ⟨.inr (.inr ⟨budget, rfl⟩), rfl⟩
    · cases hfailed.symm.trans hr
      exact ⟨.inr (.inl ⟨detail, rfl⟩), rfl⟩
  | interrupted flow hphase hi =>
    refine afterPump_drifts hphase hsession hsame fun reason hr => ?_
    obtain ⟨detail, hwake, rfl⟩ | ⟨hwake, rfl⟩ | ⟨hwake, rfl⟩ := hi
    · cases hr
      rw [hloops (by simp [hwake])]
      exact ⟨.inr (.inl ⟨detail, rfl⟩), rfl⟩
    · -- the end of a polling connection is a clean one, unless a destroy was asked for
      have hclean : i.loops s.driver =
          (s.driver.properties.isPolling && !s.driver.destroyRequested) := by
        simp [Input.loops, hwake]
      dsimp only at hr
      unfold onStreamEnd at hr
      split_ifs at hr with hdestroy hpolling
      · cases hr
        rw [hclean]
        refine ⟨.inl rfl, ?_⟩
        have hd : s.driver.destroyRequested = false := by simpa using hdestroy
        have hp : s.driver.properties.isPolling = true := hpolling
        rw [hd, hp]
        rfl
      · cases hr
        rw [hclean]
        refine ⟨.inr (.inl ⟨_, rfl⟩), ?_⟩
        have hp : s.driver.properties.isPolling = false := by simpa using hpolling
        rw [hp]
        rfl
    · cases hr

/-! ## Lines -/

theorem afterPump_continue (d : SessionDriver) :
    afterPump (.continue, d) = finish d stopped ∨ afterPump (.continue, d) = ⟨d, .pumping⟩ := by
  obtain h | ⟨-, -, h⟩ | ⟨reason, hr, -⟩ | ⟨closed, hr, -⟩ := afterPump_cases (.continue, d)
  · exact .inl h
  · exact .inr h
  · cases hr
  · cases hr

/-- What follows a turn of the pump does not move the position. -/
theorem afterPump_progressive (r : Flow × SessionDriver) :
    (afterPump r).driver.progressive = r.2.progressive := by
  obtain h | ⟨-, -, h⟩ | ⟨reason, -, -, h⟩ | ⟨closed, -, h⟩ := afterPump_cases r
  · rw [h, (finish_samePlace r.2 _).progressive]
  · rw [h]
  · rw [h, (unbind_samePlace r.2 reason).progressive]
  · rw [h, (finish_samePlace r.2 _).progressive]

theorem taken_afterPump {line : String} {n : Notification} (s : Drive) (turn : Turn)
    (hp : parseLine line = .ok n) (r : Flow × SessionDriver) :
    s.taken ⟨.line line, turn⟩ (afterPump r) = (s.driver.withTurn turn).takes n r.2 := by
  unfold taken
  rw [Input.notification_of_line rfl hp]
  exact takes_congr n (afterPump_progressive r)

/-- An aside changes nothing that has to do with the stream connection. -/
theorem onLine_aside {text : String} (h : isAside text = true) :
    (d.onLine text).1 = .continue ∧ SameStream d (d.onLine text).2 := by
  have hheard : SameStream d d.heard := ⟨rfl, rfl, rfl, rfl, rfl, rfl, rfl⟩
  have hreport : ∀ e : SessionEvent, e.IsReport → SameStream d (d.heard.emit e) := fun e he =>
    hheard.trans (.of_toLifecycle rfl (extends_report _ (fun _ => Action.IsReport.apart) he))
  cases hp : parseLine text with
  | error e =>
    rw [onLine_of_error d hp]
    exact ⟨rfl, hreport _ trivial⟩
  | ok n =>
    rw [onLine_of_ok d hp]
    unfold isAside at h
    rw [hp] at h
    cases n with
    | requestOk id =>
      exact ⟨rfl, hheard.trans (.of_toLifecycle (by simp [onNotification])
        (onRequestOk_extends _ (fun _ => Action.IsReport.apart) id))⟩
    | requestError id code message =>
      refine ⟨rfl, hheard.trans ?_⟩
      have hl := d.heard.onRequestError_toLifecycle id ⟨code, message⟩
      have ht : Extends Action.IsApart d.heard.trace
          (d.heard.onRequestError id ⟨code, message⟩).trace :=
        onRequestError_extends _ (fun _ => Action.IsReport.apart) id _ fun _ _ _ _ => ⟨rfl, rfl⟩
      refine ⟨?_, ?_, ?_, ?_, ?_, passedOn_of_extends ht, deliveries_of_extends ht⟩ <;>
        simp only [onNotification] <;> rw [hl]
    | error | sync | clientIp | serverName | constraintsChanged =>
      exact ⟨rfl, hreport _ trivial⟩
    | probe | noOp | wsOk => exact ⟨rfl, hheard⟩
    | _ => cases h

/-- A `CONOK` of the session held, asked for by a bind, changes nothing either. -/
theorem onConok_sameStream {sid : SessionId} (hsession : d.session = some sid)
    (hintent : d.intent ≠ .create) (limit keepAlive : ℕ) (link : Option String) :
    SameStream d (d.onConok sid limit keepAlive link) := by
  have hkind : (d.conokKind sid).isFresh = false := by
    unfold conokKind bindKind
    rw [hsession]
    cases hi : d.intent with
    | create => exact absurd hi hintent
    | rebind => simp [BindKind.isFresh]
    | recover requested => simp [BindKind.isFresh]
  have hl := d.onConok_toLifecycle sid keepAlive link limit
  rw [enterSession_toLifecycle] at hl
  have ht : Extends Action.IsApart d.trace (d.onConok sid limit keepAlive link).trace :=
    d.onConok_extends sid keepAlive link limit (fun _ => Action.IsReport.apart)
      (fun _ _ _ _ => ⟨rfl, rfl⟩) (fun _ _ _ _ => ⟨rfl, rfl⟩) fun _ => ⟨rfl, rfl⟩
  refine ⟨?_, ?_, ?_, ?_, ?_, passedOn_of_extends ht, deliveries_of_extends ht⟩ <;> rw [hl] <;>
    simp [hkind, hsession]

/-- A data notification is discarded, or passed on with the next position. -/
theorem onData_passedOn (n : Notification) :
    passedOn (d.onData n).trace =
      passedOn d.trace ++ if d.skipRemaining = 0 then [(bump d.progressive, n)] else [] := by
  rcases Nat.eq_zero_or_pos d.skipRemaining with hskip | hskip
  · rw [onData_of_no_skip hskip, if_pos hskip]
    exact passedOn_deliver { d with refreshStreak := 0, progressive := bump d.progressive } n
  · rw [onData_of_skip hskip, if_neg hskip.ne', List.append_nil]

theorem bump_of_lt {n : ℕ} (h : n < u64Max) : bump n = n + 1 := by
  rw [bump, checkedAdd, if_pos (Nat.succ_le_of_lt h)]
  rfl

/-- What goes to the caller's side is what a notification takes. -/
theorem onData_deliveries (hmax : d.progressive < u64Max) (n : Notification) :
    deliveries (d.onData n).trace =
      deliveries d.trace ++ ((d.takes n (d.onData n)).bind Taken.delivery).toList := by
  have hbump : d.progressive < bump d.progressive := by
    rw [bump_of_lt hmax]
    exact Nat.lt_succ_self _
  rcases Nat.eq_zero_or_pos d.skipRemaining with hskip | hskip
  · rw [onData_of_no_skip hskip, deliveries_deliver, takes, deliver_toLifecycle, if_pos hbump]
    rfl
  · have hnone : d.takes n (d.onData n) = none := by
      rw [onData_of_skip hskip]
      exact takes_eq_none n rfl
    rw [hnone, onData_of_skip hskip]
    simp

/-- The `PROG` that answers a recovery: what the server sends again is left to skip. -/
theorem onProg_skips {resumed : ℕ} (hintent : d.intent = .recover d.progressive)
    (hhonoured : d.progHonoured = false) (hskip : d.skipRemaining = 0)
    (hle : resumed ≤ d.progressive) :
    (d.onProg resumed).session = d.session ∧ (d.onProg resumed).progressive = d.progressive ∧
      resumed + (d.onProg resumed).skipRemaining = d.progressive ∧
      deliveries (d.onProg resumed).trace = deliveries d.trace := by
  have ht := d.onProg_extends (fun _ => Action.IsReport.apart) resumed
  refine ⟨?_, ?_, ?_, deliveries_of_extends ht⟩
  all_goals
    unfold onProg
    rw [hintent]
    dsimp only
    rw [if_neg (by simp [hhonoured])]
    split_ifs with heq hlt
  · rfl
  · rfl
  · exact absurd (hle.lt_of_ne heq) hlt
  · rfl
  · rfl
  · exact absurd (hle.lt_of_ne heq) hlt
  · rw [emit_toLifecycle]
    dsimp only
    omega
  · rw [emit_toLifecycle]
    dsimp only
    omega
  · exact absurd (hle.lt_of_ne heq) hlt

end Drive

/-! ## Lines in flight -/

/-- The lines that matter to where the session stands. -/
def core (wire : List String) : List String := wire.filter fun line => !isAside line

/-- The notifications after the position `a`, up to `b`. -/
def stretch (feed : Feed) (a b : ℕ) : List String := (List.range' (a + 1) (b - a)).map feed.line

@[simp] theorem core_nil : core [] = [] := rfl

theorem core_append (wire wire' : List String) : core (wire ++ wire') = core wire ++ core wire' :=
  List.filter_append ..

theorem core_cons_of_aside {line : String} (h : isAside line = true) (wire : List String) :
    core (line :: wire) = core wire := by
  rw [core, List.filter_cons_of_neg (by simp [h])]
  rfl

theorem core_cons {line : String} (h : isAside line = false) (wire : List String) :
    core (line :: wire) = line :: core wire := by
  rw [core, List.filter_cons_of_pos (by simp [h])]
  rfl

theorem core_concat {line : String} (h : isAside line = false) (wire : List String) :
    core (wire ++ [line]) = core wire ++ [line] := by
  rw [core_append, core_cons h, core_nil]

theorem confirms_eq_true {sid : SessionId} {line : String} (h : confirms sid line = true) :
    ∃ limit millis link, parseLine line = .ok (.connectionOk sid limit millis link) := by
  unfold confirms at h
  split at h
  · rename_i sid' limit millis link hp
    rw [of_decide_eq_true h] at hp
    exact ⟨limit, millis, link, hp⟩
  · cases h

theorem resumesAt_eq_some {line : String} {position : ℕ} (h : resumesAt line = some position) :
    parseLine line = .ok (.progressive position) := by
  unfold resumesAt at h
  split at h
  · rename_i hp
    cases h
    exact hp
  · cases h

theorem isLoopLine_eq_true {line : String} (h : isLoopLine line = true) :
    ∃ millis, parseLine line = .ok (.loop millis) := by
  unfold isLoopLine at h
  split at h
  · rename_i n hp
    cases n with
    | loop millis => exact ⟨millis, hp⟩
    | _ => cases h
  · cases h

theorem isAside_of_confirms {sid : SessionId} {line : String} (h : confirms sid line = true) :
    isAside line = false := by
  obtain ⟨limit, millis, link, hp⟩ := confirms_eq_true h
  unfold isAside
  rw [hp]

theorem isAside_of_resumesAt {line : String} {position : ℕ} (h : resumesAt line = some position) :
    isAside line = false := by
  unfold isAside
  rw [resumesAt_eq_some h]

theorem isAside_of_isLoopLine {line : String} (h : isLoopLine line = true) :
    isAside line = false := by
  obtain ⟨millis, hp⟩ := isLoopLine_eq_true h
  unfold isAside
  rw [hp]

namespace Feed

variable (feed : Feed)

theorem isAside_line (k : ℕ) : isAside (feed.line k) = false := by
  have hcounts := feed.counts k
  unfold isAside
  rw [feed.parses k]
  cases hn : feed.note k with
  | _ => first | rfl | (rw [hn] at hcounts; cases hcounts)

end Feed

theorem stretch_self (feed : Feed) (a : ℕ) : stretch feed a a = [] := by
  rw [stretch, Nat.sub_self]
  rfl

theorem stretch_succ (feed : Feed) {a b : ℕ} (h : a ≤ b) :
    stretch feed a (b + 1) = stretch feed a b ++ [feed.line (b + 1)] := by
  have hlast : a + 1 + (b - a) = b + 1 := by omega
  rw [stretch, Nat.succ_sub h, List.range'_1_concat, hlast, List.map_append]
  rfl

theorem stretch_cons (feed : Feed) {a b : ℕ} (h : a < b) :
    stretch feed a b = feed.line (a + 1) :: stretch feed (a + 1) b := by
  obtain ⟨n, hn⟩ : ∃ n, b - a = n + 1 := ⟨b - a - 1, by omega⟩
  have hrest : b - (a + 1) = n := by omega
  rw [stretch, hn, List.range'_succ, List.map_cons, stretch, hrest]

namespace Drive

open SessionDriver

variable {feed : Feed} {base : List (SessionEvent × Bool)} {ledger : List Taken}
  {d d' : SessionDriver} {s s' : Drive} {sent : ℕ} {tail : List String}

/-! ## The driver in step with the server -/

/-- The driver is in the session, took every notification up to its position, once and in order, and
told the caller's side of each what it was to tell. -/
structure Keeps (feed : Feed) (base : List (SessionEvent × Bool)) (ledger : List Taken)
    (d : SessionDriver) : Prop where
  session : d.session = some feed.session
  counted : (ledger.map fun t => (t.position, t.notification)) =
    (List.range' 1 d.progressive).map fun k => (k, feed.note k)
  delivered : deliveries d.trace = base ++ ledger.filterMap Taken.delivery

theorem Keeps.samePlace (h : Keeps feed base ledger d) (hsame : SamePlace d s) :
    Keeps feed base ledger s.driver where
  session := hsame.session.trans h.session
  counted := by rw [hsame.progressive, h.counted]
  delivered := hsame.delivered.trans h.delivered

theorem Keeps.sameStream (h : Keeps feed base ledger d) (hsame : SameStream d d') :
    Keeps feed base ledger d' :=
  h.samePlace (s := ⟨d', .pumping⟩) ⟨hsame.session, hsame.progressive, hsame.delivered⟩

/-- What the driver has yet to read of the answer that opened the stream connection, and the
position that the notifications behind it follow. -/
inductive Fits (sid : SessionId) (d : SessionDriver) : List String → ℕ → Prop
  | flowing {a : ℕ} (ha : a + d.skipRemaining = d.progressive) : Fits sid d [] a
  | rebound {a : ℕ} {conok : String} (ha : a = d.progressive) (hconok : confirms sid conok = true)
      (hintent : d.intent = .rebind) (hskip : d.skipRemaining = 0) : Fits sid d [conok] a
  | recovering {a : ℕ} {conok prog : String} (ha : a ≤ d.progressive)
      (hconok : confirms sid conok = true) (hprog : resumesAt prog = some a)
      (hintent : d.intent = .recover d.progressive) (hskip : d.skipRemaining = 0)
      (hhonoured : d.progHonoured = false) : Fits sid d [conok, prog] a
  | resuming {a : ℕ} {prog : String} (ha : a ≤ d.progressive) (hprog : resumesAt prog = some a)
      (hintent : d.intent = .recover d.progressive) (hskip : d.skipRemaining = 0)
      (hhonoured : d.progHonoured = false) : Fits sid d [prog] a

/-- What is in flight on a stream connection that the server answered: the rest of the answer, the
notifications up to the last one sent, and how the connection ends. -/
def Flows (feed : Feed) (d : SessionDriver) (sent : ℕ) (tail lines : List String) : Prop :=
  ∃ head a, Fits feed.session d head a ∧ a ≤ sent ∧ lines = head ++ stretch feed a sent ++ tail

/-- What the server is to answer, when it has not answered yet. -/
inductive Waits (d : SessionDriver) (sent : ℕ) (request : StreamOpen) : Prop
  | rebind (hintent : d.intent = .rebind) (hrequest : request.recoveryFrom = none)
      (hsent : sent = d.progressive)
  | recover (hintent : d.intent = .recover d.progressive)
      (hrequest : request.recoveryFrom = some d.progressive)

/-- The driver and the server on an established stream connection. -/
def Tuned (feed : Feed) (d : SessionDriver) (sent : ℕ) (lines : List String) : Link → Prop
  | .asked request =>
    lines = [] ∧ d.skipRemaining = 0 ∧ d.progHonoured = false ∧ Waits d sent request
  | .open => Flows feed d sent [] lines
  | .ended => ∃ loop, isLoopLine loop = true ∧ Flows feed d sent [loop] lines
  | .down | .void => False

/-- The driver and the server between two stream connections. -/
inductive Asks (d : SessionDriver) (sent : ℕ) (link : Link) : OpenIntent → Prop
  | rebind (hlink : link = .down) (hsent : sent = d.progressive) : Asks d sent link .rebind
  | recover (hlink : link = .down ∨ link = .void) : Asks d sent link (.recover d.progressive)

/-- How far apart the two ends are. -/
def Placed (feed : Feed) (w : World) : Prop :=
  match w.drive.phase with
  | .pumping => Tuned feed w.drive.driver w.sent (core w.wire) w.link
  | .closed _ => True
  | _ => ∃ intent, Reopens w.drive intent ∧ Asks w.drive.driver w.sent w.link intent

/-- The two ends of the session are in step. -/
structure InStep (feed : Feed) (base : List (SessionEvent × Bool)) (ledger : List Taken)
    (w : World) : Prop where
  keeps : Keeps feed base ledger w.drive.driver
  placed : Placed feed w

/-! ## Reading a line -/

theorem Fits.sameStream {sid : SessionId} {head : List String} {a : ℕ} (h : Fits sid d head a)
    (hsame : SameStream d d') : Fits sid d' head a := by
  cases h with
  | flowing ha =>
    refine .flowing ?_
    rw [hsame.skipRemaining, hsame.progressive]
    exact ha
  | rebound ha hconok hintent hskip =>
    exact .rebound (ha.trans hsame.progressive.symm) hconok (hsame.intent.trans hintent)
      (hsame.skipRemaining.trans hskip)
  | recovering ha hconok hprog hintent hskip hhonoured =>
    rw [← hsame.progressive] at ha hintent
    exact .recovering ha hconok hprog (hsame.intent.trans hintent)
      (hsame.skipRemaining.trans hskip) (hsame.progHonoured.trans hhonoured)
  | resuming ha hprog hintent hskip hhonoured =>
    rw [← hsame.progressive] at ha hintent
    exact .resuming ha hprog (hsame.intent.trans hintent) (hsame.skipRemaining.trans hskip)
      (hsame.progHonoured.trans hhonoured)

theorem Flows.sameStream {lines : List String} (h : Flows feed d sent tail lines)
    (hsame : SameStream d d') : Flows feed d' sent tail lines := by
  obtain ⟨head, a, hfits, hle, hlines⟩ := h
  exact ⟨head, a, hfits.sameStream hsame, hle, hlines⟩

/-- When nothing is in flight, the last notification sent is the last one that was read. -/
theorem Flows.drained (h : Flows feed d sent [] []) :
    sent + d.skipRemaining = d.progressive := by
  obtain ⟨head, a, hfits, hle, hlines⟩ := h
  rw [List.append_nil] at hlines
  obtain ⟨rfl, hstretch⟩ := List.append_eq_nil_iff.1 hlines.symm
  cases hfits with
  | flowing ha =>
    rcases hle.eq_or_lt with rfl | hlt
    · exact ha
    · rw [stretch_cons feed hlt] at hstretch
      cases hstretch

theorem Tuned.sameStream {lines : List String} {link : Link} (h : Tuned feed d sent lines link)
    (hsame : SameStream d d') : Tuned feed d' sent lines link := by
  cases link with
  | asked request =>
    obtain ⟨hlines, hskip, hhonoured, hwaits⟩ := h
    refine ⟨hlines, hsame.skipRemaining.trans hskip, hsame.progHonoured.trans hhonoured, ?_⟩
    cases hwaits with
    | rebind hintent hrequest hsent =>
      exact .rebind (hsame.intent.trans hintent) hrequest (hsent.trans hsame.progressive.symm)
    | recover hintent hrequest =>
      rw [← hsame.progressive] at hintent hrequest
      exact .recover (hsame.intent.trans hintent) hrequest
  | «open» => exact Flows.sameStream h hsame
  | ended =>
    obtain ⟨loop, hloop, hflows⟩ := h
    exact ⟨loop, hloop, hflows.sameStream hsame⟩
  | down | void => exact h

theorem onNotification_of_isData {n : Notification} (h : isData n = true) :
    d.onNotification n = (.continue, d.onData n) := by
  cases n with
  | _ => first | rfl | cases h

/-- The next notification is a duplicate to skip, or the one after the position of the driver. -/
theorem onData_keeps {a : ℕ} (hkeeps : Keeps feed base ledger d) (hmax : d.progressive < u64Max)
    (ha : a + d.skipRemaining = d.progressive) :
    Keeps feed base (ledger ++ (d.takes (feed.note (a + 1)) (d.onData (feed.note (a + 1)))).toList)
        (d.onData (feed.note (a + 1))) ∧
      a + 1 + (d.onData (feed.note (a + 1))).skipRemaining =
        (d.onData (feed.note (a + 1))).progressive := by
  have hdelivered := onData_deliveries hmax (feed.note (a + 1))
  have hl := d.onData_toLifecycle (feed.note (a + 1))
  rw [bump_of_lt hmax] at hl
  generalize d.onData (feed.note (a + 1)) = d' at hdelivered hl ⊢
  have hsession : d'.session = some feed.session := by
    rw [hl]
    exact hkeeps.session
  rcases Nat.eq_zero_or_pos d.skipRemaining with hskip | hskip
  · obtain rfl : a = d.progressive := by omega
    rw [if_pos hskip] at hl
    have hprogressive : d'.progressive = d.progressive + 1 := by rw [hl]
    have htakes : d.takes (feed.note (d.progressive + 1)) d' = some ⟨d.progressive + 1,
        feed.note (d.progressive + 1),
        (d.registry.makes (d.progressive + 1) (feed.note (d.progressive + 1))).map fun event =>
          (event, !d.turn.interrupts.headD false)⟩ := by
      rw [takes, hprogressive, if_pos (Nat.lt_succ_self _)]
    refine ⟨⟨hsession, ?_, ?_⟩, ?_⟩
    · rw [htakes, hprogressive, List.map_append, hkeeps.counted, List.range'_1_concat,
        List.map_append, Nat.add_comm 1]
      rfl
    · rw [hdelivered, hkeeps.delivered, List.filterMap_append, htakes, List.append_assoc]
      cases d.registry.makes (d.progressive + 1) (feed.note (d.progressive + 1)) <;> rfl
    · rw [hl]
      dsimp only
      omega
  · rw [if_neg hskip.ne'] at hl
    have hprogressive : d'.progressive = d.progressive := by rw [hl]
    rw [takes_eq_none _ hprogressive] at hdelivered ⊢
    refine ⟨⟨hsession, ?_, ?_⟩, ?_⟩
    · rw [hprogressive, Option.toList_none, List.append_nil, hkeeps.counted]
    · rw [hdelivered, hkeeps.delivered]
      simp
    · rw [hl]
      dsimp only
      omega

/-- A notification that leaves the position where it is takes nothing. -/
theorem Keeps.idle (h : Keeps feed base ledger d') (n : Notification)
    (hsame : d'.progressive = d.progressive) :
    Keeps feed base (ledger ++ (d.takes n d').toList) d' := by
  rw [takes_eq_none n hsame, Option.toList_none, List.append_nil]
  exact h

/-- **The driver reads on.** The next line that matters is one of the answer or a notification, and
keeps the driver in step, or the one that ends the connection. -/
theorem Flows.read {line : String} {lines : List String} (hkeeps : Keeps feed base ledger d)
    (hmax : d.progressive < u64Max) (h : Flows feed d sent tail (line :: lines)) :
    (∃ n, parseLine line = .ok n ∧ (d.onLine line).1 = .continue ∧
        Keeps feed base (ledger ++ (d.takes n (d.onLine line).2).toList) (d.onLine line).2 ∧
        Flows feed (d.onLine line).2 sent tail lines) ∨
      tail = line :: lines ∧ sent + d.skipRemaining = d.progressive := by
  have hheard : SameStream d d.heard := ⟨rfl, rfl, rfl, rfl, rfl, rfl, rfl⟩
  obtain ⟨head, a, hfits, hle, hlines⟩ := h
  cases hfits with
  | flowing ha =>
    rcases hle.eq_or_lt with rfl | hlt
    · rw [stretch_self] at hlines
      exact .inr ⟨hlines.symm, ha⟩
    · rw [stretch_cons feed hlt] at hlines
      obtain ⟨rfl, rfl⟩ := List.cons.inj hlines
      rw [onLine_of_ok d (feed.parses (a + 1)), onNotification_of_isData (feed.counts (a + 1))]
      obtain ⟨hkeeps', ha'⟩ := onData_keeps (hkeeps.sameStream hheard) hmax ha
      exact .inl ⟨_, feed.parses (a + 1), rfl, hkeeps', [], a + 1, .flowing ha', hlt, rfl⟩
  | rebound ha hconok hintent hskip =>
    obtain ⟨rfl, rfl⟩ := List.cons.inj hlines
    obtain ⟨limit, millis, link, hp⟩ := confirms_eq_true hconok
    have hsame := hheard.trans (onConok_sameStream (d := d.heard) hkeeps.session
      (by rw [hheard.intent, hintent]; simp) limit (ofMillis millis) link)
    rw [onLine_of_ok d hp]
    refine .inl ⟨_, hp, rfl, (hkeeps.sameStream hsame).idle _ hsame.progressive, [], a,
      .flowing ?_, hle, rfl⟩
    rw [onNotification, hsame.skipRemaining, hsame.progressive, hskip]
    exact ha
  | recovering ha hconok hprog hintent hskip hhonoured =>
    obtain ⟨rfl, rfl⟩ := List.cons.inj hlines
    obtain ⟨limit, millis, link, hp⟩ := confirms_eq_true hconok
    have hsame := hheard.trans (onConok_sameStream (d := d.heard) hkeeps.session
      (by rw [hheard.intent, hintent]; simp) limit (ofMillis millis) link)
    rw [onLine_of_ok d hp]
    exact .inl ⟨_, hp, rfl, (hkeeps.sameStream hsame).idle _ hsame.progressive, _, a,
      (Fits.resuming ha hprog hintent hskip hhonoured).sameStream hsame, hle, rfl⟩
  | resuming ha hprog hintent hskip hhonoured =>
    obtain ⟨rfl, rfl⟩ := List.cons.inj hlines
    rw [onLine_of_ok d (resumesAt_eq_some hprog), onNotification]
    obtain ⟨hsession, hprogressive, hskips, hdelivered⟩ :=
      onProg_skips (d := d.heard) hintent hhonoured hskip ha
    have hplace : SamePlace d ⟨d.heard.onProg a, .pumping⟩ := ⟨hsession, hprogressive, hdelivered⟩
    exact .inl ⟨_, resumesAt_eq_some hprog, rfl, (hkeeps.samePlace hplace).idle _ hprogressive,
      [], a, .flowing (hskips.trans hprogressive.symm), hle, rfl⟩

/-! ## Steps -/

/-- A clean end of the stream connection finds nothing left to skip and no recovery unanswered, and
the position is below its maximum. -/
def Undisturbed (w : World) (e : Event) : Prop :=
  w.drive.driver.progressive < u64Max ∧
    ∀ i ∈ w.turnOf e, i.loops w.drive.driver = true →
      w.drive.driver.skipRemaining = 0 ∧ w.link.recovers = false

instance (w : World) (e : Event) : Decidable (Undisturbed w e) :=
  inferInstanceAs (Decidable (_ ∧ _))

variable {w : World} {i : Input} {wire : List String}

@[simp] theorem moved_drive (w : World) (i : Input) (wire : List String) (s : Drive) :
    (w.moved i wire s).drive = s := by
  unfold World.moved
  split <;> rfl

/-- What the server does takes nothing. -/
theorem World.taken_of_server (w w' : World) {e : Event} (h : w.turnOf e = none) :
    w.taken e w' = none := by
  unfold World.taken
  rw [h]
  rfl

/-- A turn without a line. -/
theorem World.not_line_of_admits (hadmits : w.admits i = true) : ∀ text, i.wake ≠ .line text := by
  intro text hw
  rw [World.admits, hw] at hadmits
  cases hadmits

theorem lost_down_or_void (link : Link) (i : Input) :
    link.lost i = .down ∨ link.lost i = .void := by
  unfold Link.lost
  split
  · split_ifs
    · exact .inl rfl
    · exact .inr rfl
  · exact .inl rfl

theorem inStep_of_closed {closed : SessionClosed} (hkeeps : Keeps feed base ledger w.drive.driver)
    (h : w.drive.phase = .closed closed) : InStep feed base ledger w := by
  refine ⟨hkeeps, ?_⟩
  unfold Placed
  rw [h]
  trivial

theorem inStep_of_pumping (hkeeps : Keeps feed base ledger w.drive.driver)
    (h : w.drive.phase = .pumping)
    (htuned : Tuned feed w.drive.driver w.sent (core w.wire) w.link) :
    InStep feed base ledger w := by
  refine ⟨hkeeps, ?_⟩
  unfold Placed
  rw [h]
  exact htuned

theorem inStep_of_reopens {intent : OpenIntent} (hkeeps : Keeps feed base ledger w.drive.driver)
    (h : Reopens w.drive intent) (hasks : Asks w.drive.driver w.sent w.link intent) :
    InStep feed base ledger w := by
  refine ⟨hkeeps, ?_⟩
  have hbetween : ∃ intent, Reopens w.drive intent ∧ Asks w.drive.driver w.sent w.link intent :=
    ⟨intent, h, hasks⟩
  unfold Placed
  obtain ⟨next, hphase, -⟩ | ⟨hphase, -⟩ := h <;> rw [hphase] <;> exact hbetween

theorem InStep.tuned (h : InStep feed base ledger w) (hphase : w.drive.phase = .pumping) :
    Tuned feed w.drive.driver w.sent (core w.wire) w.link := by
  have hplaced := h.placed
  unfold Placed at hplaced
  rw [hphase] at hplaced
  exact hplaced

theorem InStep.asks (h : InStep feed base ledger w)
    (hphase : (∃ next, w.drive.phase = .waiting next) ∨ w.drive.phase = .opening) :
    ∃ intent, Reopens w.drive intent ∧ Asks w.drive.driver w.sent w.link intent := by
  have hplaced := h.placed
  unfold Placed at hplaced
  obtain ⟨next, hphase⟩ | hphase := hphase <;> rw [hphase] at hplaced <;> exact hplaced

theorem moved_of_reopens {intent : OpenIntent} (hs : w.drive.phase = .pumping)
    (h : Reopens s' intent) :
    w.moved i wire s' = { w with drive := s', wire := [], link := w.link.lost i } := by
  unfold World.moved
  obtain ⟨next, hphase, -⟩ | ⟨hphase, -⟩ := h <;> rw [hs, hphase]

theorem moved_of_pumping (hs : w.drive.phase = .pumping) (hs' : s'.phase = .pumping) :
    w.moved i wire s' = { w with drive := s', wire := wire } := by
  unfold World.moved
  rw [hs, hs']

/-- Between two stream connections nothing moves but the driver. -/
theorem moved_between {intent : OpenIntent}
    (hs : (∃ next, w.drive.phase = .waiting next) ∨ w.drive.phase = .opening)
    (h : Reopens s' intent) : w.moved i wire s' = { w with drive := s' } := by
  unfold World.moved
  obtain ⟨next, hs⟩ | hs := hs <;> obtain ⟨next', hphase, -⟩ | ⟨hphase, -⟩ := h <;>
    rw [hs, hphase]

theorem Asks.samePlace {link : Link} {intent : OpenIntent} (h : Asks d sent link intent)
    (hsame : SamePlace d s) : Asks s.driver sent link intent := by
  cases h with
  | rebind hlink hsent => exact .rebind hlink (hsent.trans hsame.progressive.symm)
  | recover hlink =>
    rw [← hsame.progressive]
    exact .recover hlink

/-- The request that opens the stream connection asks for what the driver intends. -/
theorem Asks.waits {link : Link} {intent : OpenIntent} (h : Asks d sent link intent)
    (hsession : d.session = some feed.session) (hintent : d.intent = intent) :
    Waits d sent (d.buildOpen d.intent) := by
  cases h with
  | rebind hlink hsent =>
    refine .rebind hintent ?_ hsent
    simp [hintent, buildOpen, hsession, StreamOpen.recoveryFrom]
  | recover hlink =>
    refine .recover hintent ?_
    simp [hintent, buildOpen, hsession, StreamOpen.recoveryFrom]

/-- The driver went on after a line. -/
theorem continue_inStep (hphase : w.drive.phase = .pumping) (hkeeps : Keeps feed base ledger d)
    (htuned : Tuned feed d w.sent (core wire) w.link) :
    InStep feed base ledger (w.moved i wire (afterPump (.continue, d))) := by
  obtain h | h := afterPump_continue d
  · rw [h]
    exact inStep_of_closed (by rw [moved_drive]; exact hkeeps.samePlace (finish_samePlace d _))
      (by rw [moved_drive]; exact finish_phase d _)
  · rw [h, moved_of_pumping hphase rfl]
    exact inStep_of_pumping hkeeps rfl htuned

/-- The driver left a stream connection that ended the clean way, with everything passed on. -/
theorem loop_inStep {reason : UnbindReason} (hphase : w.drive.phase = .pumping)
    (hkeeps : Keeps feed base ledger d) (hreason : reason.isCleanLoop = true)
    (hlink : w.link.lost i = .down) (hsent : w.sent = d.progressive) :
    InStep feed base ledger (w.moved i wire (afterPump (.unbind reason, d))) := by
  have hclosed : ∀ {t : Drive} {closed : SessionClosed}, SamePlace d t →
      t.phase = .closed closed → InStep feed base ledger (w.moved i wire t) := by
    intro t closed hsame ht
    refine inStep_of_closed ?_ (by rw [moved_drive]; exact ht)
    rw [moved_drive]
    exact hkeeps.samePlace hsame
  obtain h | ⟨hflow, -, -⟩ | ⟨reason', hflow, -, h⟩ | ⟨closed, hflow, -⟩ :=
    afterPump_cases (.unbind reason, d)
  · rw [h]
    exact hclosed (finish_samePlace d _) (finish_phase d _)
  · cases hflow
  · cases hflow
    rw [h]
    have hsame := unbind_samePlace d reason
    obtain ⟨closed, hend⟩ | hreopens := @unbind_reopens d reason
      (by rw [hkeeps.session]; simp) (.inl hreason)
    · exact hclosed hsame hend
    · rw [if_pos hreason] at hreopens
      rw [moved_of_reopens hphase hreopens]
      exact inStep_of_reopens (hkeeps.samePlace hsame) hreopens
        (.rebind hlink (hsent.trans hsame.progressive.symm))
  · cases hflow

/-- The end of a polling cycle comes after the last line of it, so everything was passed on and the
session can be bound again. -/
theorem asks_of_loops (h : InStep feed base ledger w) (hG : Undisturbed w (.input i))
    (hadmits : w.admits i = true) (hphase : w.drive.phase = .pumping)
    (hloops : i.loops w.drive.driver = true) :
    Asks w.drive.driver w.sent (w.link.lost i) .rebind := by
  obtain ⟨hskip, hrecovers⟩ := hG.2 i rfl hloops
  have hended : i.wake = .streamEnded := by
    unfold Input.loops at hloops
    split at hloops
    · rename_i hw
      exact hw
    · cases hn : i.notification with
      | none => simp [hn] at hloops
      | some n =>
        obtain ⟨text, hw, -⟩ := Input.notification_eq_some hn
        rw [World.admits, hw] at hadmits
        cases hadmits
  have hwire : w.wire = [] := by
    rw [World.admits, hended] at hadmits
    exact List.isEmpty_iff.1 hadmits
  have htuned := h.tuned hphase
  rw [hwire, core_nil] at htuned
  refine .rebind ?_ ?_
  · cases hl : w.link with
    | «open» => exact if_pos hended
    | void => rw [hl] at htuned; exact htuned.elim
    | _ => rfl
  · cases hl : w.link with
    | asked request =>
      rw [hl] at htuned hrecovers
      cases htuned.2.2.2 with
      | rebind _ _ hsent => exact hsent
      | recover _ hrequest => simp [Link.recovers, hrequest] at hrecovers
    | «open» =>
      rw [hl] at htuned
      have hdrained := Flows.drained htuned
      rwa [hskip, Nat.add_zero] at hdrained
    | ended =>
      rw [hl] at htuned
      obtain ⟨loop, -, head, a, -, -, hlines⟩ := htuned
      simp at hlines
    | down | void => rw [hl] at htuned; exact htuned.elim

/-- The driver takes a turn without a line. -/
theorem input_inStep (h : InStep feed base ledger w) (hG : Undisturbed w (.input i))
    (hadmits : w.admits i = true) (hstep : step w.drive i = some s') :
    InStep feed base ledger (w.moved i w.wire s') := by
  obtain ⟨hsame, hdrifts⟩ := step_drifts (by rw [h.keeps.session]; simp)
    (World.not_line_of_admits hadmits) hstep
  have hkeeps : Keeps feed base ledger (w.moved i w.wire s').drive.driver := by
    rw [moved_drive]
    exact h.keeps.samePlace hsame
  cases hdrifts with
  | closed hclosed => exact inStep_of_closed hkeeps (by rw [moved_drive]; exact hclosed)
  | stays hs hs' hstream =>
    rw [moved_of_pumping hs hs'] at hkeeps ⊢
    exact inStep_of_pumping hkeeps hs' ((h.tuned hs).sameStream hstream)
  | parts hs hreopens =>
    rw [moved_of_reopens hs hreopens] at hkeeps ⊢
    refine inStep_of_reopens hkeeps hreopens ?_
    cases hloops : i.loops w.drive.driver with
    | false =>
      rw [if_neg (by simp)]
      exact (Asks.recover (lost_down_or_void w.link i)).samePlace hsame
    | true =>
      rw [if_pos rfl]
      exact (asks_of_loops h hG hadmits hs hloops).samePlace hsame
  | waits hs hreopens =>
    obtain ⟨intent, hw, hasks⟩ := h.asks (.inl ⟨_, hs⟩)
    obtain ⟨next, hnext, rfl⟩ | ⟨hopening, -⟩ := hw
    · cases hs.symm.trans hnext
      rw [moved_between (.inl ⟨_, hs⟩) hreopens] at hkeeps ⊢
      exact inStep_of_reopens hkeeps hreopens (hasks.samePlace hsame)
    · cases hs.symm.trans hopening
  | fails hs hreopens =>
    obtain ⟨intent, -, hasks⟩ := h.asks (.inr hs)
    rw [moved_between (.inr hs) hreopens] at hkeeps ⊢
    refine inStep_of_reopens hkeeps hreopens ((Asks.recover ?_).samePlace hsame)
    cases hasks with
    | rebind hlink => exact .inl hlink
    | recover hlink => exact hlink
  | opens hs hs' hstream =>
    obtain ⟨intent, hw, hasks⟩ := h.asks (.inr hs)
    obtain ⟨next, hnext, -⟩ | ⟨-, hintent, hskip, hhonoured⟩ := hw
    · cases hs.symm.trans hnext
    · have hmoved : w.moved i w.wire s' = { w with
          drive := s', wire := [], link := .asked (s'.driver.buildOpen s'.driver.intent) } := by
        unfold World.moved
        rw [hs, hs']
      rw [hmoved] at hkeeps ⊢
      refine inStep_of_pumping hkeeps hs' ⟨rfl, hstream.skipRemaining.trans hskip,
        hstream.progHonoured.trans hhonoured, ?_⟩
      exact (hasks.samePlace hsame).waits hkeeps.session (hstream.intent.trans hintent)

/-- The driver reads the next line. -/
theorem receive_inStep {line : String} {turn : Turn} (h : InStep feed base ledger w)
    (hG : Undisturbed w (.receive turn)) (hwire : w.wire = line :: wire)
    (hstep : step w.drive ⟨.line line, turn⟩ = some s') :
    InStep feed base (ledger ++ (w.drive.taken ⟨.line line, turn⟩ s').toList)
      (w.moved ⟨.line line, turn⟩ wire s') := by
  have hturn : SameStream w.drive.driver (w.drive.driver.withTurn turn) :=
    ⟨rfl, rfl, rfl, rfl, rfl, rfl, rfl⟩
  cases step_turns hstep with
  | line text hphase hw =>
    cases hw
    have htuned := h.tuned hphase
    rw [hwire] at htuned
    cases haside : isAside line with
    | true =>
      rw [core_cons_of_aside haside] at htuned
      obtain ⟨hflow, hsame⟩ := onLine_aside (d := w.drive.driver.withTurn turn) haside
      have hstream := hturn.trans hsame
      rw [taken_eq_none _ ((afterPump_progressive _).trans hstream.progressive),
        Option.toList_none, List.append_nil,
        ← Prod.eta (onLine (w.drive.driver.withTurn turn) line), hflow]
      exact continue_inStep hphase (h.keeps.sameStream hstream) (htuned.sameStream hstream)
    | false =>
      rw [core_cons haside] at htuned
      have hkeeps := h.keeps.sameStream hturn
      cases hl : w.link with
      | asked request =>
        rw [hl] at htuned
        cases htuned.1
      | «open» =>
        rw [hl] at htuned
        obtain ⟨n, hp, hflow, hread, hflows⟩ | ⟨hnil, -⟩ :=
          (Flows.sameStream htuned hturn).read hkeeps hG.1
        · rw [taken_afterPump w.drive turn hp,
            ← Prod.eta (onLine (w.drive.driver.withTurn turn) line), hflow]
          exact continue_inStep hphase hread (by rw [hl]; exact hflows)
        · cases hnil
      | ended =>
        rw [hl] at htuned
        obtain ⟨loop, hloop, hflows⟩ := htuned
        obtain ⟨n, hp, hflow, hread, hflows⟩ | ⟨hlast, hsent⟩ :=
          (hflows.sameStream hturn).read hkeeps hG.1
        · rw [taken_afterPump w.drive turn hp,
            ← Prod.eta (onLine (w.drive.driver.withTurn turn) line), hflow]
          exact continue_inStep hphase hread (by rw [hl]; exact ⟨loop, hloop, hflows⟩)
        · obtain ⟨rfl, -⟩ := List.cons.inj hlast
          obtain ⟨millis, hp⟩ := isLoopLine_eq_true hloop
          have hloops : Input.loops ⟨.line loop, turn⟩ w.drive.driver = true := by
            simp [Input.loops, Input.notification, hp, Except.toOption, isLoop]
          have hskip := (hG.2 _ (by simp [World.turnOf, hwire]) hloops).1
          have hleft : SameStream (w.drive.driver.withTurn turn)
              ((w.drive.driver.withTurn turn).heard.loopReason (ofMillis millis)).2 :=
            .of_toLifecycle (by simp) (by simp)
          rw [onLine_of_ok _ hp, onNotification, taken_eq_none _
            ((afterPump_progressive _).trans hleft.progressive), Option.toList_none,
            List.append_nil]
          refine loop_inStep hphase (hkeeps.sameStream hleft) (loopReason_isCleanLoop _ _).1
            (by rw [hl]; rfl) ?_
          rw [hleft.progressive]
          have hskip' : (w.drive.driver.withTurn turn).skipRemaining = 0 := hskip
          omega
      | down | void =>
        rw [hl] at htuned
        exact htuned.elim
  | waitCommand _ _ _ hw | waitOver _ _ hw | opened _ hw | command _ _ hw | timer _ hw => cases hw
  | waitStop _ _ hw | openStop _ hw => rcases hw with hw | hw <;> cases hw
  | openFailed _ _ hw => rcases hw with hw | ⟨hw, -⟩ <;> cases hw
  | interrupted _ _ hw => rcases hw with ⟨_, hw, -⟩ | ⟨hw, -⟩ | ⟨hw | hw, -⟩ <;> cases hw

theorem InStep.cases (h : InStep feed base ledger w) :
    (∃ closed, w.drive.phase = .closed closed) ∨
      (w.drive.phase = .pumping ∧ Tuned feed w.drive.driver w.sent (core w.wire) w.link) ∨
      ∃ intent, Reopens w.drive intent ∧ Asks w.drive.driver w.sent w.link intent := by
  cases hphase : w.drive.phase with
  | closed closed => exact .inl ⟨closed, rfl⟩
  | pumping => exact .inr (.inl ⟨rfl, h.tuned hphase⟩)
  | waiting next => exact .inr (.inr (h.asks (.inl ⟨next, hphase⟩)))
  | opening => exact .inr (.inr (h.asks (.inr hphase)))

/-- The server moves while it holds a stream connection: the driver is on it, or closed. -/
theorem server_inStep {sent : ℕ} {link : Link} (h : InStep feed base ledger w)
    (hdown : w.link ≠ .down) (hvoid : w.link ≠ .void)
    (htuned : Tuned feed w.drive.driver w.sent (core w.wire) w.link →
      Tuned feed w.drive.driver sent (core wire) link) :
    InStep feed base ledger { w with sent := sent, wire := wire, link := link } := by
  obtain ⟨closed, hclosed⟩ | ⟨hphase, hw⟩ | ⟨intent, -, hasks⟩ := h.cases
  · exact inStep_of_closed h.keeps hclosed
  · exact inStep_of_pumping h.keeps hphase (htuned hw)
  · cases hasks with
    | rebind hlink => exact absurd hlink hdown
    | recover hlink => exact absurd hlink (by simp [hdown, hvoid])

/-- The server sends the next of its lines, into the stream connection or into one that was lost. -/
theorem serve_inStep {w' : World} (h : InStep feed base ledger w)
    (hstep : w.step feed .serve = some w') : InStep feed base ledger w' := by
  unfold World.step at hstep
  dsimp only at hstep
  split at hstep
  · rename_i hlink
    cases hstep
    refine server_inStep h (by simp [hlink]) (by simp [hlink]) fun htuned => ?_
    rw [hlink] at htuned ⊢
    obtain ⟨head, a, hfits, hle, hlines⟩ := htuned
    refine ⟨head, a, hfits, Nat.le_succ_of_le hle, ?_⟩
    rw [core_concat (feed.isAside_line _), hlines, stretch_succ feed hle]
    simp only [List.append_nil, List.append_assoc]
  · rename_i hlink
    cases hstep
    -- nobody reads what is sent into a connection that was lost
    obtain ⟨closed, hclosed⟩ | ⟨-, htuned⟩ | ⟨intent, hreopens, hasks⟩ := h.cases
    · exact inStep_of_closed h.keeps hclosed
    · rw [hlink] at htuned
      exact htuned.elim
    · refine inStep_of_reopens h.keeps hreopens ?_
      cases hasks with
      | rebind hdown => cases hlink.symm.trans hdown
      | recover hlink => exact .recover hlink
  · cases hstep

/-- The server ends the stream connection with a `LOOP`. -/
theorem loopLine_inStep {w' : World} {line : String} (h : InStep feed base ledger w)
    (hstep : w.step feed (.loop line) = some w') : InStep feed base ledger w' := by
  unfold World.step at hstep
  dsimp only at hstep
  split_ifs at hstep with hline
  cases hstep
  obtain ⟨hloop, hlink⟩ := hline
  refine server_inStep h (by simp [hlink]) (by simp [hlink]) fun htuned => ?_
  rw [hlink] at htuned
  obtain ⟨head, a, hfits, hle, hlines⟩ := htuned
  refine ⟨line, hloop, head, a, hfits, hle, ?_⟩
  rw [core_concat (isAside_of_isLoopLine hloop), hlines, List.append_nil]

/-- The server answers a request to bind the session again. -/
theorem rebind_inStep {w' : World} {conok : String} (h : InStep feed base ledger w)
    (hstep : w.step feed (.rebind conok) = some w') : InStep feed base ledger w' := by
  unfold World.step at hstep
  dsimp only at hstep
  split at hstep
  · rename_i r hlink
    split_ifs at hstep with hanswer
    cases hstep
    refine server_inStep h (by simp [hlink]) (by simp [hlink]) fun htuned => ?_
    rw [hlink] at htuned
    obtain ⟨hnil, hskip, -, hwaits⟩ := htuned
    rw [core_concat (isAside_of_confirms hanswer.1), hnil]
    cases hwaits with
    | rebind hintent _ hsent =>
      refine ⟨[conok], w.sent, .rebound hsent hanswer.1 hintent hskip, Nat.le_refl _, ?_⟩
      rw [stretch_self]
      rfl
    | recover _ hrequest => cases hanswer.2.symm.trans hrequest
  · cases hstep

/-- The server answers a request to recover the session. -/
theorem recover_inStep {w' : World} {conok prog : String} (h : InStep feed base ledger w)
    (hstep : w.step feed (.recover conok prog) = some w') : InStep feed base ledger w' := by
  unfold World.step at hstep
  dsimp only at hstep
  split at hstep
  · rename_i r position hlink hprog
    split_ifs at hstep with hanswer
    cases hstep
    obtain ⟨hconok, requested, hrequested, hle⟩ := hanswer
    refine server_inStep h (by simp [hlink]) (by simp [hlink]) fun htuned => ?_
    rw [hlink] at htuned
    obtain ⟨hnil, hskip, hhonoured, hwaits⟩ := htuned
    rw [core_append, core_cons (isAside_of_confirms hconok),
      core_cons (isAside_of_resumesAt hprog), core_nil, hnil]
    cases hwaits with
    | rebind _ hrequest => cases hrequested.symm.trans hrequest
    | recover hintent hrequest =>
      obtain rfl : requested = w.drive.driver.progressive :=
        Option.some.inj (hrequested.symm.trans hrequest)
      refine ⟨[conok, prog], position,
        .recovering hle hconok hprog hintent hskip hhonoured, Nat.le_refl _, ?_⟩
      rw [stretch_self]
      rfl
  · cases hstep

/-- **The step.** Every event keeps the two ends in step, with what it takes in the ledger. -/
theorem step_inStep {w' : World} {e : Event} (h : InStep feed base ledger w) (hG : Undisturbed w e)
    (hstep : w.step feed e = some w') :
    InStep feed base (ledger ++ (w.taken e w').toList) w' := by
  cases e with
  | serve =>
    rw [World.taken_of_server w w' rfl, Option.toList_none, List.append_nil]
    exact serve_inStep h hstep
  | remark line =>
    rw [World.taken_of_server w w' rfl, Option.toList_none, List.append_nil]
    unfold World.step at hstep
    dsimp only at hstep
    split_ifs at hstep with hline
    cases hstep
    refine inStep_of_pumping h.keeps hline.2 ?_
    rw [core_append, core_cons_of_aside hline.1, core_nil, List.append_nil]
    exact h.tuned hline.2
  | loop line =>
    rw [World.taken_of_server w w' rfl, Option.toList_none, List.append_nil]
    exact loopLine_inStep h hstep
  | rebind conok =>
    rw [World.taken_of_server w w' rfl, Option.toList_none, List.append_nil]
    exact rebind_inStep h hstep
  | recover conok prog =>
    rw [World.taken_of_server w w' rfl, Option.toList_none, List.append_nil]
    exact recover_inStep h hstep
  | receive turn =>
    unfold World.step at hstep
    dsimp only at hstep
    split at hstep
    · cases hstep
    · rename_i line wire hwire
      obtain ⟨s', hs', rfl⟩ := Option.map_eq_some_iff.1 hstep
      rw [World.taken, World.turnOf, hwire, List.head?_cons, Option.map_some, Option.bind_some,
        moved_drive]
      exact receive_inStep h hG hwire hs'
  | input i =>
    unfold World.step at hstep
    dsimp only at hstep
    split_ifs at hstep with hadmits
    obtain ⟨s', hs', rfl⟩ := Option.map_eq_some_iff.1 hstep
    have hline : ∀ text, i.wake ≠ .line text := World.not_line_of_admits hadmits
    obtain ⟨hsame, -⟩ := step_drifts (by rw [h.keeps.session]; simp) hline hs'
    rw [World.taken, World.turnOf, Option.bind_some, moved_drive,
      taken_eq_none i hsame.progressive, Option.toList_none, List.append_nil]
    exact input_inStep h hG hadmits hs'

/-! ## Runs -/

/-- The driver has just been bound to the session, as a new one. -/
theorem bound_inStep {s₀ s : Drive} {i : Input} {limit millis : ℕ} {link : Option String}
    (hconok : i.notification = some (.connectionOk feed.session limit millis link))
    (hfresh : (s₀.driver.conokKind feed.session).isFresh = true) (hstep : step s₀ i = some s) :
    InStep feed (deliveries s.driver.trace) [] ⟨s, 0, [], .open⟩ := by
  obtain ⟨text, hw, hp⟩ := Input.notification_eq_some hconok
  cases step_turns hstep with
  | line text' hphase hw' =>
    cases hw.symm.trans hw'
    rw [onLine_of_ok _ hp, onNotification]
    let d : SessionDriver := (s₀.driver.withTurn i.turn).heard
    have hl := d.onConok_toLifecycle feed.session (ofMillis millis) link limit
    rw [enterSession_toLifecycle] at hl
    have hkind : (d.conokKind feed.session).isFresh = true := hfresh
    rw [if_pos hkind, if_pos hkind] at hl
    have hsession : (d.onConok feed.session limit (ofMillis millis) link).session =
        some feed.session := by rw [hl]
    have hprogressive : (d.onConok feed.session limit (ofMillis millis) link).progressive = 0 := by
      rw [hl]
    have hskip : (d.onConok feed.session limit (ofMillis millis) link).skipRemaining = 0 := by
      rw [hl]
    have hkeeps : ∀ {t : Drive}, SamePlace (d.onConok feed.session limit (ofMillis millis) link) t →
        Keeps feed (deliveries t.driver.trace) [] t.driver := fun hsame =>
      ⟨hsame.session.trans hsession, by simp [hsame.progressive, hprogressive], by simp⟩
    obtain h | h :=
      afterPump_continue (d.onConok feed.session limit (ofMillis millis) link)
    · rw [h]
      exact inStep_of_closed (hkeeps (finish_samePlace _ _)) (finish_phase _ _)
    · rw [h]
      refine inStep_of_pumping (hkeeps ⟨rfl, rfl, rfl⟩) rfl
        ⟨[], 0, .flowing ?_, Nat.le_refl _, ?_⟩
      · rw [hskip, hprogressive]
      · rw [stretch_self]
        rfl
  | waitCommand _ _ _ hw' | waitOver _ _ hw' | opened _ hw' | command _ _ hw' | timer _ hw' =>
    cases hw.symm.trans hw'
  | waitStop _ _ hw' | openStop _ hw' => rcases hw' with hw' | hw' <;> cases hw.symm.trans hw'
  | openFailed _ _ hw' => rcases hw' with hw' | ⟨hw', -⟩ <;> cases hw.symm.trans hw'
  | interrupted _ _ hw' =>
    rcases hw' with ⟨_, hw', -⟩ | ⟨hw', -⟩ | ⟨hw' | hw', -⟩ <;> cases hw.symm.trans hw'

/-- **Every data notification, once and in order.** From the bind of the session on, the driver
takes the notifications 1, 2, 3, … up to its position, each once; what goes to the caller's side is
the event that each makes in the registry as it then stands, in that order and nothing else; and
nothing that was sent is missing when nothing is in flight. -/
theorem delivered_once {s₀ s : Drive} {i : Input} {limit millis : ℕ} {link : Option String}
    {events : List Event} (hconok : i.notification =
      some (.connectionOk feed.session limit millis link))
    (hfresh : (s₀.driver.conokKind feed.session).isFresh = true) (hbound : step s₀ i = some s)
    (hundisturbed : Guarded (World.step feed) Undisturbed ⟨s, 0, [], .open⟩ events)
    (hrun : exec (World.step feed) ⟨s, 0, [], .open⟩ events = some w) :
    ((World.takes feed ⟨s, 0, [], .open⟩ events).map fun t => (t.position, t.notification)) =
        (List.range' 1 w.drive.driver.progressive).map (fun k => (k, feed.note k)) ∧
      deliveries w.drive.driver.trace = deliveries s.driver.trace ++
        (World.takes feed ⟨s, 0, [], .open⟩ events).filterMap Taken.delivery ∧
      (w.drive.phase = .pumping → w.link = .open → w.wire = [] →
        w.sent ≤ w.drive.driver.progressive) := by
  have hkeeps : ∀ ledger w e w', InStep feed (deliveries s.driver.trace) ledger w →
      Undisturbed w e → World.step feed w e = some w' →
      InStep feed (deliveries s.driver.trace) (ledger ++ (w.taken e w').toList) w' :=
    fun _ _ _ _ => step_inStep
  have h : InStep feed (deliveries s.driver.trace)
      ([] ++ World.takes feed ⟨s, 0, [], .open⟩ events) w :=
    exec_outputs (R := InStep feed (deliveries s.driver.trace)) hkeeps
      (bound_inStep hconok hfresh hbound) hundisturbed hrun
  rw [List.nil_append] at h
  refine ⟨h.keeps.counted, h.keeps.delivered, fun hphase hlink hwire => ?_⟩
  have htuned := h.tuned hphase
  rw [hlink, hwire, core_nil] at htuned
  exact Nat.le.intro (Flows.drained htuned)

/-- A session with one subscription: its confirmation, the end of a snapshot that is cleared first,
and updates. -/
def clearing : Feed where
  session := "S1"
  line k := if k = 1 then "SUBOK,1,1,1" else if k = 2 then "CS,1,1" else "EOS,1,1"
  note k := if k = 1 then .subscriptionOk 1 1 1 else if k = 2 then .clearSnapshot 1 1
    else .endOfSnapshot 1 1
  parses k := by split_ifs <;> rfl
  counts k := by split_ifs <;> rfl

/-- The confirmation of its session. -/
def confirmation : String := "CONOK,S1,50000,5000,*"

/-- The subscription. -/
def clearedItem : SubscriptionSpec := .new "item" "field" .distinct

/-- The subscription is asked for, two notifications are passed on, and the connection is lost. -/
def twoThenLost : List Event :=
  [.input ⟨.command (.subscribe 7 clearedItem), {}⟩, .serve, .serve, .receive {}, .receive {},
    .input ⟨.lineFailed "reset", {}⟩, .input ⟨.timer, {}⟩, .input ⟨.opened, {}⟩]

/-- The server asks for the next connection, and goes on with a notification on it. -/
def loopThenNext : List Event :=
  [.loop "LOOP,0", .receive {}, .input ⟨.opened, {}⟩, .rebind confirmation, .receive {}, .serve,
    .receive {}]

theorem delivered_once_recoveredThenLooped :
    ∃ s₀ s w, exec step (start ⟨true, false, false⟩ .default 1 0) [⟨.opened, {}⟩] = some s₀ ∧
      step s₀ ⟨.line confirmation, {}⟩ = some s ∧
      exec (World.step clearing) ⟨s, 0, [], .open⟩ (twoThenLost ++ [.recover confirmation "PROG,1",
        .receive {}, .receive {}, .serve, .receive {}] ++ loopThenNext) = some w ∧
      w.drive.driver.progressive = 3 ∧
      deliveries w.drive.driver.trace = deliveries s.driver.trace ++
        (World.takes clearing ⟨s, 0, [], .open⟩ (twoThenLost ++ [.recover confirmation "PROG,1",
          .receive {}, .receive {}, .serve, .receive {}] ++ loopThenNext)).filterMap
            Taken.delivery ∧
      deliveries w.drive.driver.trace =
        [(.subscription 1 7 (.ok (.activated 1 1 none)), true),
          (.subscription 2 7 (.ok (.snapshotCleared 1)), true),
          (.subscription 3 7 (.ok (.endOfSnapshot 1)), true)] := by
  obtain ⟨s₀, s, w, hs₀, hs, hw, hfresh, hundisturbed, hposition, htold⟩ : ∃ s₀ s w,
      exec step (start ⟨true, false, false⟩ .default 1 0) [⟨.opened, {}⟩] = some s₀ ∧
      step s₀ ⟨.line confirmation, {}⟩ = some s ∧
      exec (World.step clearing) ⟨s, 0, [], .open⟩ (twoThenLost ++ [.recover confirmation "PROG,1",
        .receive {}, .receive {}, .serve, .receive {}] ++ loopThenNext) = some w ∧
      (s₀.driver.conokKind clearing.session).isFresh = true ∧
      Guarded (World.step clearing) Undisturbed ⟨s, 0, [], .open⟩ (twoThenLost ++
        [.recover confirmation "PROG,1", .receive {}, .receive {}, .serve, .receive {}] ++
        loopThenNext) ∧ w.drive.driver.progressive = 3 ∧
      deliveries w.drive.driver.trace =
        [(.subscription 1 7 (.ok (.activated 1 1 none)), true),
          (.subscription 2 7 (.ok (.snapshotCleared 1)), true),
          (.subscription 3 7 (.ok (.endOfSnapshot 1)), true)] :=
    ⟨_, _, _, rfl, rfl, rfl, rfl, by decide, rfl, rfl⟩
  exact ⟨s₀, s, w, hs₀, hs, hw, hposition,
    (@delivered_once _ _ _ _ _ 50000 5000 none _ rfl hfresh hs hundisturbed hw).2.1, htold⟩

/-- **A notification passed on twice.** The server recovers from the beginning, asks for the next
connection when it has sent one of the two duplicates again, and goes on with the other one: the
caller is told that the snapshot was cleared a second time, where the third notification is its
end. -/
theorem delivered_twice :
    ∃ s₀ s w, exec step (start ⟨true, false, false⟩ .default 1 0) [⟨.opened, {}⟩] = some s₀ ∧
      step s₀ ⟨.line confirmation, {}⟩ = some s ∧
      exec (World.step clearing) ⟨s, 0, [], .open⟩ (twoThenLost ++ [.recover confirmation "PROG,0",
        .receive {}, .receive {}, .serve, .receive {}] ++ loopThenNext) = some w ∧
      w.sent = 2 ∧
      ((World.takes clearing ⟨s, 0, [], .open⟩ (twoThenLost ++ [.recover confirmation "PROG,0",
        .receive {}, .receive {}, .serve, .receive {}] ++ loopThenNext)).map fun t =>
          (t.position, t.notification)) =
        [(1, clearing.note 1), (2, clearing.note 2), (3, clearing.note 2)] ∧
      deliveries w.drive.driver.trace =
        [(.subscription 1 7 (.ok (.activated 1 1 none)), true),
          (.subscription 2 7 (.ok (.snapshotCleared 1)), true),
          (.subscription 3 7 (.ok (.snapshotCleared 1)), true)] ∧
      clearing.note 2 ≠ clearing.note 3 :=
  ⟨_, _, _, rfl, rfl, rfl, rfl, rfl, rfl, by decide⟩

end Drive

end Lightstreamer.Session
