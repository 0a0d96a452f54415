import Lightstreamer.Session.BindKind
import Lightstreamer.Session.Delivery

/-!
# The position in a session

A `Cursor` is the discipline of the position: what moves it, what leaves duplicates to skip, and
what discards them, read off the notifications heard and the actions taken alone. The driver keeps
to it in every run (`step_cursor`). What is left to skip discards as many data notifications of the
stream connection (`skip_discards`), and nothing else depends on it (`onLine_skipping`).
-/

namespace Lightstreamer.Session

open Lightstreamer.Foundations Lightstreamer.Protocol Lightstreamer.Subscription

/-! ## The discipline -/

/-- The position in the session, the duplicates left to skip, and the position that the stream
connection was asked to recover from, until a `PROG` answers it. -/
structure Cursor where
  position : ℕ
  skip : ℕ
  asked : Option ℕ
  deriving DecidableEq

namespace Cursor

/-- What a notification moves. -/
def hear (c : Cursor) : Notification → Cursor
  | .progressive resumed =>
    match c.asked with
    | none => c
    | some requested =>
      { position := if requested < resumed then resumed else c.position
        skip := if resumed < requested then requested - resumed else c.skip
        asked := none }
  | n =>
    if isData n then
      if 0 < c.skip then { c with skip := c.skip - 1 }
      else { c with position := if c.position < u64Max then c.position + 1 else c.position }
    else c

/-- What an action moves. -/
def act (c : Cursor) : Action → Cursor
  | .event (.bound info) _ => if info.kind.isFresh then { c with position := 0, skip := 0 } else c
  | .openStream request => { c with skip := 0, asked := request.recoveryFrom }
  | _ => c

theorem act_of_isQuiet {a : Action} (h : a.IsQuiet) (c : Cursor) : c.act a = c := by
  cases a with
  | event e =>
    cases e with
    | bound => cases h
    | _ => rfl
  | openStream => cases h
  | _ => rfl

theorem foldl_act_of_isQuiet {actions : List Action} (h : ∀ a ∈ actions, a.IsQuiet) (c : Cursor) :
    actions.foldl act c = c := by
  induction actions with
  | nil => rfl
  | cons a actions ih =>
    rw [List.foldl_cons, act_of_isQuiet (h a List.mem_cons_self)]
    exact ih fun b hb => h b (List.mem_cons_of_mem _ hb)

end Cursor

/-- The actions of a turn. -/
def Drive.added (s : Drive) (i : Input) : List Action :=
  ((Drive.step s i).map fun s' => s'.driver.trace.drop s.driver.trace.length).getD []

/-- How a turn moves the cursor: by what the driver hears, then by what it does. -/
def Cursor.follow (s : Drive) (i : Input) (c : Cursor) : Cursor :=
  (s.added i).foldl act ((i.notification.map c.hear).getD c)

namespace SessionDriver

variable {d d' d'' : SessionDriver} {c : Cursor} {l : List Action}

/-- The position that a recovery asked for, when no `PROG` has answered it. -/
def unanswered (d : SessionDriver) : Option ℕ :=
  match d.intent with
  | .recover requested => if d.progHonoured then none else some requested
  | _ => none

/-- Where the driver stands. -/
def cursor (d : SessionDriver) : Cursor := ⟨d.progressive, d.skipRemaining, d.unanswered⟩

/-- From the history `l` and the cursor `c` on, the actions of the driver lead where it stands. -/
def Tracks (c : Cursor) (l : List Action) (d : SessionDriver) : Prop :=
  ∃ t, d.trace = l ++ t ∧ t.foldl Cursor.act c = d.cursor

theorem Tracks.refl (d : SessionDriver) : Tracks d.cursor d.trace d := ⟨[], by simp, rfl⟩

theorem Tracks.quiet (h : Tracks c l d) (hc : d'.cursor = d.cursor)
    (ht : Extends Action.IsQuiet d.trace d'.trace) : Tracks c l d' := by
  obtain ⟨t, hd, hfold⟩ := h
  obtain ⟨u, hd', hquiet⟩ := ht
  refine ⟨t ++ u, by rw [hd', hd, List.append_assoc], ?_⟩
  rw [List.foldl_append, Cursor.foldl_act_of_isQuiet hquiet, hfold, hc]

theorem Tracks.act (h : Tracks c l d) {a : Action} (hc : d'.cursor = d.cursor.act a)
    (ht : d'.trace = d.trace ++ [a]) : Tracks c l d' := by
  obtain ⟨t, hd, hfold⟩ := h
  refine ⟨t ++ [a], by rw [ht, hd, List.append_assoc], ?_⟩
  rw [List.foldl_append, hfold, hc]
  rfl

theorem cursor_of_toLifecycle (h : d'.toLifecycle = d.toLifecycle) : d'.cursor = d.cursor := by
  unfold cursor unanswered
  rw [h]

/-! ## What the driver hears -/

theorem onData_cursor (n : Notification) (hn : isData n = true) :
    (d.onData n).cursor = d.cursor.hear n := by
  have hl := d.onData_toLifecycle n
  have hhear : d.cursor.hear n =
      if 0 < d.cursor.skip then { d.cursor with skip := d.cursor.skip - 1 }
      else { d.cursor with position := bump d.progressive } := by
    have hbump : bump d.progressive =
        if d.progressive < u64Max then d.progressive + 1 else d.progressive := by
      unfold bump checkedAdd
      split_ifs <;> first | rfl | omega
    rw [hbump]
    cases n with
    | _ => first | rfl | cases hn
  rw [hhear]
  unfold cursor unanswered
  rw [hl]
  rcases Nat.eq_zero_or_pos d.skipRemaining with hskip | hskip
  · simp [hskip]
  · simp [hskip, hskip.ne']

theorem onProg_cursor (resumed : ℕ) :
    (d.onProg resumed).cursor = d.cursor.hear (.progressive resumed) := by
  unfold onProg cursor Cursor.hear unanswered
  cases hi : d.intent with
  | recover requested =>
    cases hh : d.progHonoured with
    | true => simp [hi, hh]
    | false =>
      rcases lt_trichotomy resumed requested with hlt | heq | hgt
      · simp [hlt, hlt.ne, hlt.le.not_gt]
      · simp [heq]
      · simp [hgt, hgt.ne', hgt.le.not_gt]
  | _ => simp [hi]

theorem onConok_tracks (sid : SessionId) (limit keepAlive : ℕ) (link : Option String) :
    Tracks d.cursor d.trace (d.onConok sid limit keepAlive link) := by
  have henter : Extends Action.IsQuiet d.trace
      (d.enterSession sid keepAlive link (d.conokKind sid)).trace :=
    d.enterSession_extends sid keepAlive link _ (fun _ => Action.IsReport.isQuiet)
      fun _ _ _ _ _ => trivial
  have hissue : Extends Action.IsQuiet (d.announced sid limit keepAlive link).trace
      (d.onConok sid limit keepAlive link).trace :=
    issueUnboundSubscriptions_extends _ (fun _ => Action.IsReport.isQuiet) fun _ _ _ _ _ => trivial
  have hcursor : (d.announced sid limit keepAlive link).cursor =
      if (d.conokKind sid).isFresh then { d.cursor with position := 0, skip := 0 }
      else d.cursor := by
    unfold announced cursor unanswered
    rw [emit_toLifecycle, enterSession_toLifecycle]
    split_ifs <;> rfl
  obtain ⟨t, ht, hquiet⟩ := henter
  have hannounced : Tracks d.cursor d.trace (d.announced sid limit keepAlive link) := by
    refine ⟨t ++ [.event (.bound ⟨sid, d.conokKind sid, keepAlive, limit, link⟩)
      (!(d.enterSession sid keepAlive link (d.conokKind sid)).turn.interrupts.headD false)], ?_, ?_⟩
    · rw [announced, emit, ht, List.append_assoc]
    · rw [List.foldl_append, Cursor.foldl_act_of_isQuiet hquiet, hcursor]
      rfl
  refine hannounced.quiet (cursor_of_toLifecycle ?_) hissue
  rw [onConok_toLifecycle, announced, emit_toLifecycle]

/-- **What a notification moves.** -/
theorem onNotification_tracks (n : Notification) :
    Tracks (d.cursor.hear n) d.trace (d.onNotification n).2 := by
  have hP : ∀ a : Action, a.IsReport → a.IsQuiet := fun _ => Action.IsReport.isQuiet
  have hstill : ∀ {n : Notification} {d' : SessionDriver}, d.cursor.hear n = d.cursor →
      d'.cursor = d.cursor → Extends Action.IsQuiet d.trace d'.trace →
      Tracks (d.cursor.hear n) d.trace d' := fun hn hc ht => by
    rw [hn]
    exact (Tracks.refl d).quiet hc ht
  have hmoved : ∀ {n : Notification} {d' : SessionDriver}, d'.cursor = d.cursor.hear n →
      Extends Action.IsQuiet d.trace d'.trace → Tracks (d.cursor.hear n) d.trace d' :=
    fun hc ⟨t, ht, hquiet⟩ => ⟨t, ht, by rw [Cursor.foldl_act_of_isQuiet hquiet, hc]⟩
  have hidle : ∀ n : Notification, ¬isData n → (d.onNotification n).2.cursor = d.cursor →
      d.cursor.hear n = d.cursor := fun n hn hsame => by
    cases n with
    | progressive resumed => exact (onProg_cursor resumed).symm.trans hsame
    | _ => first | rfl | exact absurd rfl hn
  induction n using onNotification_cases d with
  | conok sid limit millis link hn => exact hn ▸ onConok_tracks sid limit (ofMillis millis) link
  | conerr code message hn =>
    rw [hn]
    refine hstill rfl ?_ (by simp)
    unfold onConerr
    split <;> rfl
  | ended code message hn =>
    rw [hn]
    refine hstill rfl ?_ (by simp)
    unfold onEnd
    split_ifs
    · rfl
    · split <;> rfl
  | loop millis hn =>
    rw [hn]
    exact hstill rfl (cursor_of_toLifecycle (by simp)) (by simp)
  | prog resumed hn => exact hn ▸ hmoved (onProg_cursor resumed) (d.onProg_extends hP resumed)
  | reqok id hn =>
    rw [hn]
    exact hstill rfl (cursor_of_toLifecycle (by simp)) (d.onRequestOk_extends hP id)
  | reqerr id code message hn =>
    have hl := d.onRequestError_toLifecycle id ⟨code, message⟩
    rw [hn]
    refine hstill rfl ?_ (d.onRequestError_extends hP id _ fun _ _ _ _ => trivial)
    unfold cursor unanswered
    rw [hl]
  | quiet n hdata hn =>
    rw [hn]
    exact hstill (hidle n hdata (by rw [hn])) rfl (.refl _ _)
  | report n e hdata hn he =>
    rw [hn]
    exact hstill (hidle n hdata (by rw [hn]; rfl)) rfl (d.extends_report hP he)
  | data n hdata hn =>
    exact hn ▸ hmoved (onData_cursor n hdata)
      (d.onData_extends n (fun _ => trivial) (fun _ _ _ _ _ => trivial) fun _ _ _ _ => trivial)

theorem onLine_tracks {i : Input} {text : String} (hw : i.wake = .line text) :
    Tracks ((i.notification.map d.cursor.hear).getD d.cursor) d.trace (d.onLine text).2 := by
  cases hp : parseLine text with
  | error e =>
    have hn : i.notification = none := by simp [Input.notification, hw, hp, Except.toOption]
    rw [hn, onLine_of_error d hp]
    exact (Tracks.refl d).quiet rfl
      (d.heard.extends_report (fun _ => Action.IsReport.isQuiet) trivial)
  | ok n =>
    rw [Input.notification_of_line hw hp, onLine_of_ok d hp]
    exact onNotification_tracks (d := d.heard) n

theorem onCommand_tracks (c : SessionCommand) : Tracks d.cursor d.trace (d.onCommand c).2 := by
  obtain ⟨b, hl⟩ := d.onCommand_toLifecycle c
  refine (Tracks.refl d).quiet ?_ (d.onCommand_extends (fun _ => Action.IsReport.isQuiet) c
    (fun _ _ _ _ => trivial) fun _ _ _ _ => trivial)
  unfold cursor unanswered
  rw [hl]

theorem onTimer_tracks : Tracks d.cursor d.trace d.onTimer.2 := by
  obtain ⟨failures, hl⟩ := d.onTimer_toLifecycle
  refine (Tracks.refl d).quiet ?_ (d.onTimer_extends fun _ _ _ => trivial)
  unfold cursor unanswered
  rw [hl]

end SessionDriver

/-! ## Runs -/

namespace Drive

open SessionDriver

variable {d : SessionDriver} {s s' : Drive} {i : Input} {c : Cursor} {l : List Action}

/-- The driver stands where the cursor does, and plans to recover only a session that it holds. -/
structure Sound (c : Cursor) (s : Drive) : Prop where
  stands : c = s.driver.cursor
  planned : ∀ next requested, s.phase = .waiting next → next.intent = .recover requested →
    s.driver.session ≠ none

/-- From the history `l` and the cursor `c` on, the actions lead where the driver stands. -/
structure Leads (c : Cursor) (l : List Action) (s : Drive) : Prop where
  tracks : Tracks c l s.driver
  planned : ∀ next requested, s.phase = .waiting next → next.intent = .recover requested →
    s.driver.session ≠ none

theorem finish_quiet (d : SessionDriver) (closed : SessionClosed) :
    Extends Action.IsQuiet d.trace (finish d closed).driver.trace := by
  obtain ⟨b, h⟩ := finish_trace d closed
  rw [h, List.append_cons]
  exact (Extends.one (by exact trivial) _).concat trivial

theorem finish_leads (h : Tracks c l d) (closed : SessionClosed) : Leads c l (finish d closed) where
  tracks := h.quiet rfl (finish_quiet d closed)
  planned := fun _ _ hphase => by cases hphase

theorem openNext_leads (h : Tracks c l d) {next : Reopen}
    (hplan : ∀ requested, next.intent = .recover requested → d.session ≠ none) :
    Leads c l (openNext d next) where
  tracks := by
    refine h.act ?_ (openNext_trace d next)
    have hasked : (d.buildOpen next.intent).recoveryFrom =
        match next.intent with
        | .recover requested => some requested
        | _ => none := by
      unfold buildOpen
      cases hi : next.intent with
      | recover requested =>
        obtain ⟨sid, hsid⟩ := Option.ne_none_iff_exists'.1 (hplan requested hi)
        rw [hsid]
        rfl
      | _ => cases d.session <;> rfl
    unfold cursor unanswered Cursor.act
    rw [openNext_toLifecycle]
    dsimp only
    rw [hasked]
    cases next.intent <;> rfl
  planned := fun _ _ hphase => by cases hphase

theorem reopen_leads (h : Tracks c l d) {next : Reopen}
    (hplan : ∀ requested, next.intent = .recover requested → d.session ≠ none) :
    Leads c l (reopen d next) := by
  unfold reopen
  split_ifs
  · exact openNext_leads h hplan
  · refine ⟨h, fun next' requested hphase => ?_⟩
    cases hphase
    exact hplan requested

theorem unbind_leads (h : Tracks c l d) (reason : UnbindReason) : Leads c l (unbind d reason) := by
  have hplanned : ∀ {next : Option Reopen} {d' : SessionDriver} (retry : Option ℕ),
      (unbound d reason).planAfter reason = (next, d') →
      Tracks c l (d'.emit (.unbound reason retry)) ∧ d'.session = d.session := by
    intro next d' retry hp
    obtain ⟨backoff, streak, hl⟩ := planAfter_toLifecycle (unbound d reason) reason
    rw [hp] at hl
    dsimp only at hl
    refine ⟨h.quiet ?_ (planned_extends hp trivial retry fun _ => trivial), by rw [hl]; simp⟩
    unfold cursor unanswered
    rw [emit_toLifecycle, hl, unbound_toLifecycle]
  obtain ⟨next, d', hp, hu | hu⟩ | ⟨d', hp, hu⟩ := unbind_cases d reason
  · rw [hu]
    exact finish_leads (hplanned _ hp).1 stopped
  · obtain ⟨htracks, hsession⟩ := hplanned (some next.delay) hp
    rw [hu]
    refine reopen_leads htracks fun requested hi => ?_
    obtain ⟨-, hi'⟩ | hi' | ⟨hs, -⟩ := planAfter_intent hp
    · cases hi.symm.trans hi'
    · cases hi.symm.trans hi'
    · rw [emit_toLifecycle, hsession]
      simpa using hs
  · rw [hu]
    exact finish_leads (hplanned _ hp).1 _

theorem afterPump_leads {r : Flow × SessionDriver} (h : Tracks c l r.2) :
    Leads c l (afterPump r) := by
  obtain hp | ⟨-, -, hp⟩ | ⟨reason, -, -, hp⟩ | ⟨closed, -, hp⟩ := afterPump_cases r
  · exact hp ▸ finish_leads h stopped
  · exact hp ▸ ⟨h, fun _ _ hphase => by cases hphase⟩
  · exact hp ▸ unbind_leads h reason
  · exact hp ▸ finish_leads h closed

/-- What the driver does in a turn leads where it stands after it. -/
theorem step_leads (hplanned : ∀ next requested, s.phase = .waiting next →
      next.intent = .recover requested → s.driver.session ≠ none) (h : step s i = some s') :
    Leads ((i.notification.map s.driver.cursor.hear).getD s.driver.cursor) s.driver.trace s' := by
  let d : SessionDriver := s.driver.withTurn i.turn
  have hstill : ∀ {t : Drive}, (∀ text, i.wake ≠ .line text) → Leads d.cursor d.trace t →
      Leads ((i.notification.map s.driver.cursor.hear).getD s.driver.cursor) s.driver.trace t := by
    intro t hw ht
    have hn : i.notification = none := by
      unfold Input.notification
      split
      · rename_i text hw'
        exact absurd hw' (hw text)
      · rfl
    rw [hn]
    exact ht
  cases step_turns h with
  | waitCommand next command hphase hw =>
    have htracks := onCommand_tracks (d := d) command
    refine hstill (by simp [hw]) ?_
    obtain ⟨closed, -, ha⟩ | ha | ⟨-, -, ha⟩ := afterWait_cases next (d.onCommand command)
    · exact ha ▸ finish_leads htracks closed
    · exact ha ▸ finish_leads htracks stopped
    · rw [ha]
      refine ⟨htracks, fun next' requested hphase' hi => ?_⟩
      cases hphase'
      obtain ⟨b, hl⟩ := d.onCommand_toLifecycle command
      rw [hl]
      exact hplanned next requested hphase hi
  | waitOver next hphase hw =>
    exact hstill (by simp [hw]) (openNext_leads (.refl d) fun requested hi =>
      hplanned next requested hphase hi)
  | waitStop _ _ hw | openStop _ hw =>
    exact hstill (by rcases hw with hw | hw <;> simp [hw]) (finish_leads (.refl d) stopped)
  | opened _ hw => exact hstill (by simp [hw]) ⟨.refl d, fun _ _ hphase => by cases hphase⟩
  | openFailed detail _ hw =>
    exact hstill (by rcases hw with hw | ⟨hw, -⟩ <;> simp [hw]) (unbind_leads (.refl d) _)
  | line text _ hw => exact afterPump_leads (onLine_tracks (d := d) hw)
  | command command _ hw => exact hstill (by simp [hw]) (afterPump_leads (onCommand_tracks command))
  | timer _ hw => exact hstill (by simp [hw]) (afterPump_leads onTimer_tracks)
  | interrupted flow _ hw =>
    refine hstill ?_ (afterPump_leads (.refl d))
    rcases hw with ⟨_, hw, -⟩ | ⟨hw, -⟩ | ⟨hw | hw, -⟩ <;> simp [hw]

/-- **The step.** The driver keeps to the discipline. -/
theorem step_cursor (h : Sound c s) (hstep : step s i = some s') : Sound (c.follow s i) s' := by
  obtain ⟨⟨t, ht, hfold⟩, hplanned⟩ := step_leads h.planned hstep
  refine ⟨?_, hplanned⟩
  rw [Cursor.follow, added, hstep, Option.map_some, Option.getD_some, ht, List.drop_left,
    h.stands, hfold]

theorem start_sound (properties : TransportProperties) (options : SessionOptions) (seed : UInt64)
    (now : ℕ) : Sound ⟨0, 0, none⟩ (start properties options seed now) :=
  ⟨rfl, fun _ _ hphase => by cases hphase⟩

/-! ## What is left to skip -/

/-- The turn keeps the stream connection and binds no other session. -/
def Stays (s : Drive) (i : Input) : Prop :=
  (∀ s' ∈ step s i, s'.phase = .pumping) ∧ ∀ n ∈ i.notification, ∀ sid limit millis link,
    n = .connectionOk sid limit millis link → (s.driver.conokKind sid).isFresh = false

/-- The data notification that an input brings. -/
def data (i : Input) : List Notification := (i.notification.filter fun n => isData n).toList

/-- The data notifications that a run brings. -/
def received (inputs : List Input) : List Notification := inputs.flatMap data

/-- Of the data notifications in `news`, as many are discarded as were left to skip, and the others
are passed on. -/
structure Discards (news : List Notification) (d d' : SessionDriver) : Prop where
  unanswered : d'.unanswered = none
  skip : d'.skipRemaining = d.skipRemaining - news.length
  passed : (passedOn d'.trace).map Prod.snd =
    (passedOn d.trace).map Prod.snd ++ news.drop d.skipRemaining

theorem Discards.of_same (h : d.unanswered = none) {d' : SessionDriver}
    (hc : d'.cursor = d.cursor) (ht : Extends Action.IsApart d.trace d'.trace) :
    Discards [] d d' where
  unanswered := (congrArg Cursor.asked hc).trans h
  skip := congrArg Cursor.skip hc
  passed := by rw [passedOn_of_extends ht, List.drop_nil, List.append_nil]

theorem Discards.trans {news news' : List Notification} {d d' d'' : SessionDriver}
    (h : Discards news d d') (h' : Discards news' d' d'') : Discards (news ++ news') d d'' where
  unanswered := h'.unanswered
  skip := by
    rw [h'.skip, h.skip, List.length_append]
    omega
  passed := by rw [h'.passed, h.passed, h.skip, List.drop_append, List.append_assoc]

/-- A turn of the pump that keeps the stream connection. -/
theorem afterPump_of_pumping {r : Flow × SessionDriver} (h : (afterPump r).phase = .pumping) :
    afterPump r = ⟨r.2, .pumping⟩ := by
  obtain hp | ⟨-, -, hp⟩ | ⟨reason, -, -, hp⟩ | ⟨closed, -, hp⟩ := afterPump_cases r
  · rw [hp] at h
    cases h
  · exact hp
  · exfalso
    rw [hp] at h
    have hreopen : ∀ d next, (reopen d next).phase ≠ .pumping := by
      intro d next
      unfold reopen
      split_ifs <;> simp
    obtain ⟨next, d', -, hu | hu⟩ | ⟨d', -, hu⟩ := unbind_cases r.2 reason
    · rw [hu] at h
      cases h
    · exact hreopen _ _ (hu ▸ h)
    · rw [hu] at h
      cases h
  · rw [hp] at h
    cases h

theorem onData_discards (h : d.unanswered = none) (n : Notification) :
    Discards [n] d (d.onData n) := by
  have hpassed := onData_passedOn (d := d) n
  have hl := d.onData_toLifecycle n
  refine ⟨?_, by rw [hl]; rfl, ?_⟩
  · unfold unanswered at h ⊢
    rw [hl]
    exact h
  · rw [hpassed, List.map_append]
    congr 1
    rcases Nat.eq_zero_or_pos d.skipRemaining with hskip | hskip
    · rw [if_pos hskip, hskip]
      rfl
    · rw [if_neg hskip.ne', List.drop_of_length_le (Nat.succ_le_of_lt hskip)]
      rfl

theorem onNotification_discards (h : d.unanswered = none) {n : Notification}
    (hfresh : ∀ sid limit millis link, n = .connectionOk sid limit millis link →
      (d.conokKind sid).isFresh = false) :
    Discards ((some n).filter fun n => isData n).toList d (d.onNotification n).2 := by
  have hP : ∀ a : Action, a.IsReport → a.IsApart := fun _ => Action.IsReport.apart
  have hidle : ∀ {n : Notification} {d' : SessionDriver}, ¬isData n → d'.cursor = d.cursor →
      Extends Action.IsApart d.trace d'.trace →
      Discards ((some n).filter fun n => isData n).toList d d' := fun hn hc ht => by
    rw [Option.filter_some, if_neg hn]
    exact .of_same h hc ht
  induction n using onNotification_cases d with
  | conok sid limit millis link hn =>
    rw [hn]
    refine hidle (by simp [isData]) ?_ (d.onConok_extends sid _ link limit hP
      (fun _ _ _ _ => ⟨rfl, rfl⟩) (fun _ _ _ _ => ⟨rfl, rfl⟩) fun _ => ⟨rfl, rfl⟩)
    unfold cursor unanswered
    rw [onConok_toLifecycle, enterSession_toLifecycle, hfresh sid limit millis link rfl]
    rfl
  | conerr code message hn =>
    rw [hn]
    refine hidle (by simp [isData]) ?_ (by simp)
    unfold onConerr
    split <;> rfl
  | ended code message hn =>
    rw [hn]
    refine hidle (by simp [isData]) ?_ (by simp)
    unfold onEnd
    split_ifs
    · rfl
    · split <;> rfl
  | loop millis hn =>
    rw [hn]
    exact hidle (by simp [isData]) (cursor_of_toLifecycle (by simp)) (by simp)
  | prog resumed hn =>
    rw [hn]
    refine hidle (by simp [isData]) ?_ (d.onProg_extends hP resumed)
    rw [onProg_cursor, Cursor.hear]
    have hasked : d.cursor.asked = none := h
    rw [hasked]
  | reqok id hn =>
    rw [hn]
    exact hidle (by simp [isData]) (cursor_of_toLifecycle (by simp)) (d.onRequestOk_extends hP id)
  | reqerr id code message hn =>
    have hl := d.onRequestError_toLifecycle id ⟨code, message⟩
    rw [hn]
    refine hidle (by simp [isData]) ?_ (d.onRequestError_extends hP id _ fun _ _ _ _ => ⟨rfl, rfl⟩)
    unfold cursor unanswered
    rw [hl]
  | quiet n hdata hn => exact hn ▸ hidle hdata rfl (.refl _ _)
  | report n e hdata hn he => exact hn ▸ hidle hdata rfl (d.extends_report hP he)
  | data n hdata hn =>
    rw [hn, Option.filter_some, if_pos hdata]
    exact onData_discards h n

theorem stays_discards (hphase : s.phase = .pumping) (h : s.driver.unanswered = none)
    (hstays : Stays s i) (hstep : step s i = some s') :
    s'.phase = .pumping ∧ Discards (data i) s.driver s'.driver := by
  have hphase' : s'.phase = .pumping := hstays.1 s' hstep
  refine ⟨hphase', ?_⟩
  let d : SessionDriver := (s.driver.withTurn i.turn).heard
  have hheard : Discards [] s.driver d := .of_same h rfl (.refl _ _)
  have hsilent : ∀ {d' : SessionDriver}, (∀ text, i.wake ≠ .line text) →
      SameStream (s.driver.withTurn i.turn) d' → Discards (data i) s.driver d' := by
    intro d' hw hsame
    have hn : data i = [] := by
      unfold data Input.notification
      split
      · rename_i text hw'
        exact absurd hw' (hw text)
      · rfl
    rw [hn]
    refine ⟨?_, hsame.skipRemaining, ?_⟩
    · unfold unanswered at h ⊢
      rw [hsame.intent, hsame.progHonoured]
      exact h
    · rw [hsame.passed, List.drop_nil, List.append_nil]
      rfl
  cases step_turns hstep with
  | line text _ hw =>
    rw [afterPump_of_pumping hphase']
    cases hp : parseLine text with
    | error e =>
      have hn : i.notification = none := by simp [Input.notification, hw, hp, Except.toOption]
      rw [data, hn, onLine_of_error _ hp]
      have hreport : Discards [] d (d.emit (.unparsed text e)) :=
        .of_same (d := d) h rfl (d.extends_report (fun _ => Action.IsReport.apart)
          (e := .unparsed text e) trivial)
      exact hheard.trans hreport
    | ok n =>
      have hn := Input.notification_of_line hw hp
      rw [data, hn, onLine_of_ok _ hp]
      have hread := onNotification_discards (d := d) h fun sid limit millis link heq =>
        hstays.2 n hn sid limit millis link heq
      exact hheard.trans hread
  | command c _ hw =>
    rw [afterPump_of_pumping hphase']
    exact hsilent (by simp [hw]) (onCommand_sameStream _ c)
  | timer _ hw =>
    rw [afterPump_of_pumping hphase']
    exact hsilent (by simp [hw]) (onTimer_sameStream _)
  | interrupted flow _ hw =>
    rw [afterPump_of_pumping hphase']
    refine hsilent ?_ ⟨rfl, rfl, rfl, rfl, rfl, rfl, rfl⟩
    rcases hw with ⟨_, hw, -⟩ | ⟨hw, -⟩ | ⟨hw | hw, -⟩ <;> simp [hw]
  | waitCommand _ _ hs | waitOver _ hs | waitStop _ hs | opened hs | openFailed _ hs
  | openStop hs => cases hphase.symm.trans hs

/-- As long as the stream connection and the session stay, as many data notifications are discarded
as were left to skip, and every other one is passed on. -/
theorem skip_discards {inputs : List Input} (hphase : s.phase = .pumping)
    (h : s.driver.unanswered = none) (hstays : Guarded step Stays s inputs)
    (hrun : exec step s inputs = some s') : Discards (received inputs) s.driver s'.driver := by
  induction inputs generalizing s with
  | nil =>
    cases hrun
    exact .of_same h rfl (.refl _ _)
  | cons i inputs ih =>
    obtain ⟨t, ht, hrun⟩ := exec_cons_eq_some.1 hrun
    obtain ⟨hphase', hfirst⟩ := stays_discards hphase h hstays.1 ht
    exact hfirst.trans (ih hphase' hfirst.unanswered (hstays.2 t ht) hrun)

end Drive

/-! ## What depends on what is left to skip -/

namespace SessionDriver

variable (d : SessionDriver) (k : ℕ)

/-- The driver with another count of duplicates left to skip. -/
def skipping (d : SessionDriver) (k : ℕ) : SessionDriver := { d with skipRemaining := k }

theorem takeRequestId_skipping :
    (d.skipping k).takeRequestId = d.takeRequestId.map fun p => (p.1, p.2.skipping k) := by
  unfold takeRequestId
  rw [Option.map_map]
  rfl

theorem dispatch_skipping (request : ControlRequest) (id : RequestId) (kind : PendingKind) :
    (d.skipping k).dispatch request id kind =
      ((d.dispatch request id kind).1, (d.dispatch request id kind).2.skipping k) := by
  have hkind : (d.skipping k).controlKind = d.controlKind := rfl
  unfold dispatch
  rw [hkind]
  cases request.encodeParameters d.controlKind with
  | error error => rfl
  | ok parameters =>
    unfold send skipping
    dsimp only
    cases d.turn.sends.headD none <;> rfl

theorem sendSubscribe_skipping (session : SessionId) (key : SubscriptionKey) (subId : NonZeroU32)
    (entry : RegistryEntry) :
    (d.skipping k).sendSubscribe session key subId entry =
      ((d.sendSubscribe session key subId entry).1,
        (d.sendSubscribe session key subId entry).2.skipping k) := by
  unfold sendSubscribe
  rw [takeRequestId_skipping]
  cases d.takeRequestId with
  | none => rfl
  | some p =>
    dsimp only [Option.map_some]
    rw [dispatch_skipping]
    dsimp only
    split <;> rfl

theorem issueSubscription_skipping (key : SubscriptionKey) :
    (d.skipping k).issueSubscription key =
      ((d.issueSubscription key).1, (d.issueSubscription key).2.skipping k) := by
  have hsession : (d.skipping k).session = d.session := rfl
  have hregistry : (d.skipping k).registry = d.registry := rfl
  unfold issueSubscription
  rw [hsession, hregistry]
  split
  · rfl
  · split
    · rfl
    · split
      · rfl
      · exact sendSubscribe_skipping { d with registry := _ } k _ _ _ _

theorem issueAll_skipping (keys : List SubscriptionKey) :
    (d.skipping k).issueAll keys = ((d.issueAll keys).1, (d.issueAll keys).2.skipping k) := by
  induction keys generalizing d with
  | nil => rfl
  | cons key keys ih =>
    unfold issueAll
    dsimp only
    rw [issueSubscription_skipping]
    dsimp only
    rw [ih]

theorem issueUnboundSubscriptions_skipping :
    (d.skipping k).issueUnboundSubscriptions = d.issueUnboundSubscriptions.skipping k := by
  have hkeys : (d.skipping k).registry = d.registry := rfl
  unfold issueUnboundSubscriptions
  rw [hkeys, issueAll_skipping]
  dsimp only
  split <;> rfl

theorem takePending_skipping (id : String) :
    (d.skipping k).takePending id = ((d.takePending id).1, (d.takePending id).2.skipping k) := by
  have hpending : (d.skipping k).pending = d.pending := rfl
  unfold takePending
  rw [hpending]
  cases d.pending.get? id <;> rfl

theorem acceptRequest_skipping (kind : Option PendingKind) :
    (d.skipping k).acceptRequest kind = (d.acceptRequest kind).skipping k := by
  unfold acceptRequest
  split <;> rfl

theorem undoRequest_skipping (cause : ServerCause) (kind : Option PendingKind) :
    (d.skipping k).undoRequest cause kind = (d.undoRequest cause kind).skipping k := by
  unfold undoRequest
  split <;> rfl

theorem onRequestOk_skipping (id : Option String) :
    (d.skipping k).onRequestOk id = (d.onRequestOk id).skipping k := by
  cases id with
  | none => rfl
  | some id =>
    unfold onRequestOk
    dsimp only
    rw [takePending_skipping]
    dsimp only
    rw [acceptRequest_skipping]
    rfl

theorem onRequestError_skipping (id : String) (cause : ServerCause) :
    (d.skipping k).onRequestError id cause = (d.onRequestError id cause).skipping k := by
  unfold onRequestError
  rw [takePending_skipping]
  dsimp only
  rw [undoRequest_skipping]
  rfl

/-- The two drivers differ at most in what is left to skip. -/
def Alike (d d' : SessionDriver) : Prop := d'.skipping 0 = d.skipping 0

theorem Alike.of_eq_skipping {d d' : SessionDriver} {k : ℕ} (h : d' = d.skipping k) :
    Alike d d' := by
  rw [h]
  rfl

theorem Alike.eq {d d' : SessionDriver} (h : Alike d d') : d' = d.skipping d'.skipRemaining := by
  have hd : d' = (d'.skipping 0).skipping d'.skipRemaining := rfl
  rw [hd, h]
  rfl

theorem enterSession_skipping (sid : SessionId) (keepAlive : ℕ) (link : Option String)
    (kind : BindKind) : Alike (d.enterSession sid keepAlive link kind)
      ((d.skipping k).enterSession sid keepAlive link kind) := by
  unfold enterSession
  dsimp only
  split <;> rfl

theorem onConok_skipping (sid : SessionId) (limit keepAlive : ℕ) (link : Option String) :
    Alike (d.onConok sid limit keepAlive link)
      ((d.skipping k).onConok sid limit keepAlive link) := by
  have hkind : (d.skipping k).conokKind sid = d.conokKind sid := rfl
  obtain ⟨m, henter⟩ : ∃ m, (d.skipping k).enterSession sid keepAlive link (d.conokKind sid) =
      (d.enterSession sid keepAlive link (d.conokKind sid)).skipping m :=
    ⟨_, (enterSession_skipping d k sid keepAlive link (d.conokKind sid)).eq⟩
  have hannounced : (d.skipping k).announced sid limit keepAlive link =
      (d.announced sid limit keepAlive link).skipping m := by
    rw [announced, hkind, henter]
    rfl
  rw [onConok_eq, onConok_eq, hannounced]
  exact .of_eq_skipping (issueUnboundSubscriptions_skipping _ _)

theorem onProg_skipping (resumed : ℕ) :
    Alike (d.onProg resumed) ((d.skipping k).onProg resumed) := by
  have hintent : (d.skipping k).intent = d.intent := rfl
  have hhonoured : (d.skipping k).progHonoured = d.progHonoured := rfl
  unfold onProg
  rw [hintent, hhonoured]
  split
  · dsimp only
    split_ifs <;> rfl
  · rfl

/-- Nothing but a data notification depends on what is left to skip. -/
theorem onNotification_skipping {n : Notification} (hn : isData n = false) :
    ((d.skipping k).onNotification n).1 = (d.onNotification n).1 ∧
      Alike (d.onNotification n).2 ((d.skipping k).onNotification n).2 := by
  cases n with
  | connectionOk sid limit millis link => exact ⟨rfl, onConok_skipping d k sid limit _ link⟩
  | connectionError code message =>
    unfold onNotification onConerr
    dsimp only
    split <;> exact ⟨rfl, rfl⟩
  | «end» code message =>
    have hdestroy : (d.skipping k).destroyRequested = d.destroyRequested := rfl
    unfold onNotification onEnd
    dsimp only
    rw [hdestroy]
    split_ifs
    · exact ⟨rfl, rfl⟩
    · split <;> exact ⟨rfl, rfl⟩
  | loop millis =>
    have hforce : (d.skipping k).forceRebindOutstanding = d.forceRebindOutstanding := rfl
    have hproperties : (d.skipping k).properties = d.properties := rfl
    unfold onNotification loopReason
    dsimp only
    rw [hforce, hproperties]
    split_ifs <;> exact ⟨rfl, rfl⟩
  | progressive resumed => exact ⟨rfl, onProg_skipping d k resumed⟩
  | requestOk id => exact ⟨rfl, .of_eq_skipping (onRequestOk_skipping d k id)⟩
  | requestError id code message =>
    exact ⟨rfl, .of_eq_skipping (onRequestError_skipping d k id ⟨code, message⟩)⟩
  | error | sync | clientIp | serverName | constraintsChanged | probe | noOp | wsOk =>
    exact ⟨rfl, rfl⟩
  | _ => cases hn

/-- A line that is no data notification is taken alike, whatever is left to skip. -/
theorem onLine_skipping {text : String} (h : ∀ n, parseLine text = .ok n → isData n = false) :
    ((d.skipping k).onLine text).1 = (d.onLine text).1 ∧
      Alike (d.onLine text).2 ((d.skipping k).onLine text).2 := by
  cases hp : parseLine text with
  | error e =>
    rw [onLine_of_error _ hp, onLine_of_error _ hp]
    exact ⟨rfl, rfl⟩
  | ok n =>
    rw [onLine_of_ok _ hp, onLine_of_ok _ hp]
    exact onNotification_skipping d.heard k (h n hp)

end SessionDriver

namespace Drive

open SessionDriver

/-- A drop after two notifications, and a recovery that sends one of them again. -/
def recoveredEarlier : List Input :=
  [⟨.opened, {}⟩, ⟨.line "CONOK,S1,50000,5000,*", {}⟩, ⟨.line "EOS,1,1", {}⟩,
    ⟨.line "CS,1,1", {}⟩, ⟨.lineFailed "reset", {}⟩, ⟨.timer, {}⟩, ⟨.opened, {}⟩,
    ⟨.line "CONOK,S1,50000,5000,*", {}⟩, ⟨.line "PROG,1", {}⟩]

end Drive

end Lightstreamer.Session
