import Lightstreamer.Session.BindKind
import Lightstreamer.Session.Stream

/-!
# A session in outline

What a run of the driver looks like from outside, without its bookkeeping. `Outline` keeps where the
driver stands towards its transport, the session it holds and the one bound last, the position in
that session, and the recovery that was asked for; `Outline.next` takes the driver's actions one at
a time and refuses the ones that do not fit. The second part reads facts about whole histories off
the histories that it accepts.

That the driver does nothing that the outline refuses is shown in `Session/Conformance.lean`.
-/

namespace Lightstreamer.Session

open Lightstreamer.Foundations Lightstreamer.Protocol Lightstreamer.Subscription

/-- Where a driver stands towards its transport. -/
inductive Standing
  /-- No stream connection is open: the last one ended cleanly, or not. -/
  | down (looped : Bool)
  /-- A stream connection was opened, and the session is bound to it or not. -/
  | up (bound : Bool)
  /-- The transport was closed under an open stream connection. -/
  | shut
  /-- The loss of the last stream connection was reported, and there will not be another. -/
  | spent
  /-- The transport was closed for good. -/
  | ending
  /-- The end of the run was reported. -/
  | finished
  deriving DecidableEq

namespace Standing

def isUp : Standing → Bool
  | up _ => true
  | _ => false

def isDown : Standing → Bool
  | down _ => true
  | _ => false

/-- Whether a stream connection was opened whose loss is not reported yet. -/
def isOpen : Standing → Bool
  | up _ | shut => true
  | _ => false

/-- What closing the transport leads to. -/
def close : Standing → Option Standing
  | up _ => some shut
  | down _ | spent => some ending
  | _ => none

/-- What reporting the loss of the stream connection leads to. A clean loss leaves the transport
open and always has a successor. -/
def unbind (reason : UnbindReason) (retry : Option ℕ) : Standing → Option Standing
  | up _ => if reason.isCleanLoop ∧ retry.isSome then some (down true) else none
  | shut => if reason.isCleanLoop then none else some (if retry.isSome then down false else spent)
  | _ => none

/-- What reporting the end of the run leads to. -/
def finish : Standing → Option Standing
  | shut | ending => some finished
  | _ => none

/-- When a request is sent: subscriptions, messages and rebinds wait for the bind, and a heartbeat
needs a stream connection. -/
def admits (standing : Standing) : ControlRequest → Bool
  | .subscribe _ | .messageSend _ | .forceRebind _ => standing = up true
  | .unsubscribe _ | .reconfigure _ | .destroy _ => standing.isUp || standing.isDown
  | .heartbeat _ => standing.isUp

theorem isOpen_of_isUp {standing : Standing} (h : standing.isUp = true) :
    standing.isOpen = true := by
  cases standing <;> first | rfl | cases h

/-- What a transport is closed for: the report of a loss, or the end of the run. -/
theorem of_close {standing standing' : Standing} (h : standing.close = some standing') :
    standing'.isOpen = standing.isOpen ∧ (standing' = shut ∨ standing' = ending) ∧
      ∀ looped, standing' ≠ down looped := by
  cases standing <;> cases h <;> exact ⟨rfl, by simp, nofun⟩

/-- A loss is reported of a stream connection that is open. -/
theorem of_unbind {standing standing' : Standing} {reason : UnbindReason} {retry : Option ℕ}
    (h : standing.unbind reason retry = some standing') :
    standing.isOpen = true ∧ (standing'.isOpen = false ∧ standing' ≠ shut ∧ standing' ≠ ending) ∧
      ∀ looped, standing' = down looped → looped = reason.isCleanLoop := by
  cases standing <;> simp only [unbind] at h <;> first | cases h | skip
  · split_ifs at h with hclean
    cases h
    exact ⟨rfl, ⟨rfl, nofun, nofun⟩, fun _ hs => by cases hs; exact hclean.1.symm⟩
  · split_ifs at h with hclean hretry <;> cases h
    · exact ⟨rfl, ⟨rfl, nofun, nofun⟩, fun _ hs => by cases hs; simpa using hclean⟩
    · exact ⟨rfl, ⟨rfl, nofun, nofun⟩, nofun⟩

end Standing

/-- The session that a request names. -/
def sessionOf : ControlRequest → Option SessionId
  | .subscribe r => r.session
  | .unsubscribe r => r.session
  | .reconfigure r => r.session
  | .forceRebind r => r.session
  | .destroy r => r.session
  | .messageSend r => r.session
  | .heartbeat r => r.session

def isHeartbeat : ControlRequest → Bool
  | .heartbeat _ => true
  | _ => false

/-- Whether the session is lost for good. -/
def UnbindReason.losesSession : UnbindReason → Bool
  | rejected _ | serverRefresh _ => true
  | _ => false

/-- How a recovery that was requested from one position and resumed at another is classed. -/
def recoveryKind (requested resumedAt : ℕ) : RecoveryKind :=
  if resumedAt = requested then .exact
  else if resumedAt < requested then .duplicated (requested - resumedAt)
  else .gap (resumedAt - requested)

structure Outline where
  standing : Standing
  session : Option SessionId
  last : Option SessionId
  position : ℕ
  /-- The position that the stream connection was asked to recover from. -/
  asked : Option ℕ
  /-- Whether that recovery was answered. -/
  answered : Bool
  deriving DecidableEq

namespace Outline

/-- Before the first stream connection. -/
def start : Outline := ⟨.down false, none, none, 0, none, false⟩

/-- The request that the next stream connection is opened with: a session that is held is bound
again, from where it stands unless the last stream connection ended cleanly. -/
def expects (o : Outline) (looped : Bool) : StreamOpen → Bool
  | .create _ => o.session = none
  | .bind r => o.session ≠ none ∧ r.session = o.session ∧
      r.recoveryFrom = if looped then none else some o.position

/-- A request names the session that is held; only a heartbeat is sent before there is one. -/
def admits (o : Outline) (request : ControlRequest) : Bool :=
  sessionOf request = o.session ∧ (o.session ≠ none ∨ isHeartbeat request) ∧
    o.standing.admits request

/-- A bind of the same session names the one bound last and carries out what was asked for. -/
def agrees (o : Outline) (info : BoundInfo) : Bool :=
  match info.kind with
  | .created | .recreated _ => true
  | .rebound => o.last = some info.sessionId ∧ o.asked = none
  | .recovering requested => o.last = some info.sessionId ∧ o.asked = some requested

/-- The session is bound. -/
def bind (o : Outline) (info : BoundInfo) : Outline :=
  { o with
    standing := .up true
    session := some info.sessionId
    last := some info.sessionId
    position := if info.kind.isFresh then 0 else o.position }

/-- The recovery was answered. -/
def resume (o : Outline) (outcome : RecoveryOutcome) : Outline :=
  { o with
    answered := true
    position := match outcome.kind with
      | .gap _ => outcome.resumedAt
      | _ => o.position }

/-- What reporting an event leads to. -/
def hear (o : Outline) : SessionEvent → Option Outline
  | .bound info => if o.standing.isUp ∧ o.agrees info then some (o.bind info) else none
  | .recovered outcome =>
    if o.standing.isUp ∧ o.asked = some outcome.requested ∧ o.answered = false ∧
        outcome.kind = recoveryKind outcome.requested outcome.resumedAt then
      some (o.resume outcome)
    else none
  | .resubscribed _ => if o.standing = .up true then some o else none
  | .unbound reason retry => (o.standing.unbind reason retry).map fun standing =>
      { o with
        standing := standing
        session := if reason.losesSession then none else o.session }
  | .message (some position) .. | .subscription position .. =>
    if o.standing.isUp ∧ position = o.position then some o else none
  | .message none .. | .controlResponse .. =>
    if o.standing.isUp ∨ o.standing.isDown then some o else none
  | .serverInfo _ | .unparsed .. => if o.standing.isUp then some o else none
  | .closed _ => o.standing.finish.map fun standing => { o with standing := standing }

/-- What an action leads to, or `none` when it does not fit. -/
def next (o : Outline) : Action → Option Outline
  | .event event _ => o.hear event
  | .openStream request =>
    match o.standing with
    | .down looped =>
      if o.expects looped request then
        some { o with
          standing := .up false
          asked := request.recoveryFrom
          answered := false }
      else none
    | _ => none
  | .control request _ _ _ => if o.admits request then some o else none
  | .close => o.standing.close.map fun standing => { o with standing := standing }
  | .setControlLink _ => if o.standing.isUp then some o else none
  | .data position _ =>
    if o.standing.isUp ∧ position = SessionDriver.bump o.position then
      some { o with position := position }
    else none

end Outline

/-! ## What a history shows -/

/-- The position after an action. -/
def Action.place (k : ℕ) : Action → ℕ
  | .data position _ => position
  | .event (.bound info) _ => if info.kind.isFresh then 0 else k
  | .event (.recovered ⟨_, resumedAt, .gap _⟩) _ => resumedAt
  | _ => k

/-- The session that is held after an action. -/
def Action.holds (session : Option SessionId) : Action → Option SessionId
  | .event (.bound info) _ => some info.sessionId
  | .event (.unbound reason _) _ => if reason.losesSession then none else session
  | _ => session

/-- The loss of a stream connection that an action reports. -/
def Action.loss : Action → Option UnbindReason
  | .event (.unbound reason _) _ => some reason
  | _ => none

def Action.isOpening : Action → Bool
  | .openStream _ => true
  | _ => false

/-- The position in the session. -/
def place (history : List Action) : ℕ := history.foldl Action.place 0

/-- The session that was bound last, unless it was lost for good. -/
def held (history : List Action) : Option SessionId := history.foldl Action.holds none

/-- The losses of stream connections. -/
def losses (history : List Action) : List UnbindReason := history.filterMap Action.loss

/-- How many stream connections were opened. -/
def openings (history : List Action) : ℕ := history.countP Action.isOpening

/-- The recovery that awaits its answer after an action. -/
def Action.recovers (asked : Option ℕ) : Action → Option ℕ
  | .openStream request => request.recoveryFrom
  | .event (.recovered _) _ => none
  | _ => asked

/-- The recovery that the stream connection was asked for and that is not answered. -/
def recovering (history : List Action) : Option ℕ := history.foldl Action.recovers none

/-- When an action comes, given what came before and what comes after it: one stream connection at a
time, whose loss is reported once; the transport closed before the report of a loss that is not a
clean one, and before the end; and nothing after the end. -/
def InTurn (before later : List Action) : Action → Prop
  | .openStream _ => openings before = (losses before).length
  | .event (.unbound reason _) _ => openings before = (losses before).length + 1 ∧
      (before.getLast? = some .close ↔ reason.isCleanLoop = false)
  | .event (.closed _) _ => before.getLast? = some .close ∧ later = []
  | .data .. | .setControlLink _ | .event (.bound _) _ | .event (.recovered _) _
  | .event (.resubscribed _) _ | .event (.subscription ..) _ =>
    openings before = (losses before).length + 1
  | _ => True

/-- What an action names, given what came before it: the session that is held, and the position in
it. -/
def Addressed (before : List Action) : Action → Prop
  | .openStream (.create _) => held before = none
  | .openStream (.bind r) => r.session = held before ∧ ∃ session reason,
      held before = some session ∧ (losses before).getLast? = some reason ∧
      r.recoveryFrom = if reason.isCleanLoop then none else some (place before)
  | .control request _ _ _ => sessionOf request = held before ∧
      (held before = none → isHeartbeat request)
  | .data position _ => position = SessionDriver.bump (place before)
  | .event (.subscription position ..) _ | .event (.message (some position) ..) _ =>
    position = place before
  | .event (.bound info) _ => info.kind.isFresh = false → lastBound before = some info.sessionId
  | .event (.recovered outcome) _ => recovering before = some outcome.requested ∧
      outcome.kind = recoveryKind outcome.requested outcome.resumedAt
  | _ => True

namespace Outline

/-- What the outline has of the history. -/
structure Records (o : Outline) (history : List Action) : Prop where
  position : o.position = place history
  session : o.session = held history
  last : o.last = lastBound history
  asked : o.answered = false → o.asked = recovering history
  opened : o.standing.isOpen = true → openings history = (losses history).length + 1
  idle : o.standing.isOpen = false → o.standing ≠ .finished →
    openings history = (losses history).length
  closed : o.standing = .shut ∨ o.standing = .ending ↔ history.getLast? = some .close
  looped : ∀ looped, o.standing = .down looped → o.session ≠ none →
    ∃ reason, (losses history).getLast? = some reason ∧ looped = reason.isCleanLoop

/-- The ways an action fits. -/
inductive Fits (o : Outline) : Action → Outline → Prop
  | opens (looped : Bool) (request : StreamOpen) (standing : o.standing = .down looped)
      (expects : o.expects looped request = true) :
      Fits o (.openStream request)
        { o with standing := .up false, asked := request.recoveryFrom, answered := false }
  | closes (standing : Standing) (close : o.standing.close = some standing) :
      Fits o .close { o with standing := standing }
  | binds (info : BoundInfo) (b : Bool) (up : o.standing.isUp = true)
      (agrees : o.agrees info = true) : Fits o (.event (.bound info) b) (o.bind info)
  | resumes (outcome : RecoveryOutcome) (b : Bool) (up : o.standing.isUp = true)
      (asked : o.asked = some outcome.requested) (answered : o.answered = false)
      (kind : outcome.kind = recoveryKind outcome.requested outcome.resumedAt) :
      Fits o (.event (.recovered outcome) b) (o.resume outcome)
  | counts (position : ℕ) (n : Notification) (up : o.standing.isUp = true)
      (counted : position = SessionDriver.bump o.position) :
      Fits o (.data position n) { o with position := position }
  | loses (reason : UnbindReason) (retry : Option ℕ) (b : Bool) (standing : Standing)
      (unbind : o.standing.unbind reason retry = some standing) :
      Fits o (.event (.unbound reason retry) b)
        { o with
          standing := standing
          session := if reason.losesSession then none else o.session }
  | ends (closed : SessionClosed) (b : Bool) (standing : Standing)
      (finish : o.standing.finish = some standing) :
      Fits o (.event (.closed closed) b) { o with standing := standing }
  | sends (request : ControlRequest) (kind : Option PendingKind) (parameters : String)
      (error : Option String) (admits : o.admits request = true) :
      Fits o (.control request kind parameters error) o
  | tells (position : ℕ) (key : SubscriptionKey) (outcome : SubscriptionOutcome) (b : Bool)
      (up : o.standing.isUp = true) (counted : position = o.position) :
      Fits o (.event (.subscription position key outcome) b) o
  | answers (position : ℕ) (sequence : MessageSequence) (prog : Option ℕ) (result : MessageResult)
      (b : Bool) (up : o.standing.isUp = true) (counted : position = o.position) :
      Fits o (.event (.message (some position) sequence prog result) b) o
  | issues (entries : List ResubscribedEntry) (b : Bool) (bound : o.standing = .up true) :
      Fits o (.event (.resubscribed entries) b) o
  | links (host : Option String) (up : o.standing.isUp = true) : Fits o (.setControlLink host) o
  | informs (a : SessionEvent) (b : Bool) (up : o.standing.isUp = true)
      (report : (∃ announcement, a = .serverInfo announcement) ∨ ∃ line e, a = .unparsed line e) :
      Fits o (.event a b) o
  | responds (a : SessionEvent) (b : Bool)
      (listens : o.standing.isUp = true ∨ o.standing.isDown = true)
      (report : (∃ id target outcome, a = .controlResponse id target outcome) ∨
        ∃ sequence prog result, a = .message none sequence prog result) :
      Fits o (.event a b) o

variable {o o' : Outline} {a : Action} {history : List Action}

/-- **The inversion of an action.** -/
theorem next_fits (h : o.next a = some o') : o.Fits a o' := by
  cases a with
  | event e b =>
    cases e with
    | bound info =>
      obtain ⟨⟨hup, hagrees⟩, heq⟩ := Option.ite_none_right_eq_some.1 h
      exact Option.some.inj heq ▸ .binds info b hup hagrees
    | recovered outcome =>
      obtain ⟨⟨hup, hasked, hanswered, hkind⟩, heq⟩ := Option.ite_none_right_eq_some.1 h
      exact Option.some.inj heq ▸ .resumes outcome b hup hasked hanswered hkind
    | resubscribed entries =>
      obtain ⟨hbound, heq⟩ := Option.ite_none_right_eq_some.1 h
      exact Option.some.inj heq ▸ .issues entries b hbound
    | unbound reason retry =>
      obtain ⟨standing, hs, rfl⟩ := Option.map_eq_some_iff.1 h
      exact .loses reason retry b standing hs
    | message position sequence prog result =>
      cases position with
      | none =>
        obtain ⟨hl, heq⟩ := Option.ite_none_right_eq_some.1 h
        exact Option.some.inj heq ▸ .responds _ b hl (.inr ⟨sequence, prog, result, rfl⟩)
      | some position =>
        obtain ⟨⟨hup, hp⟩, heq⟩ := Option.ite_none_right_eq_some.1 h
        exact Option.some.inj heq ▸ .answers position sequence prog result b hup hp
    | subscription position key outcome =>
      obtain ⟨⟨hup, hp⟩, heq⟩ := Option.ite_none_right_eq_some.1 h
      exact Option.some.inj heq ▸ .tells position key outcome b hup hp
    | controlResponse id target outcome =>
      obtain ⟨hl, heq⟩ := Option.ite_none_right_eq_some.1 h
      exact Option.some.inj heq ▸ .responds _ b hl (.inl ⟨id, target, outcome, rfl⟩)
    | serverInfo announcement =>
      obtain ⟨hup, heq⟩ := Option.ite_none_right_eq_some.1 h
      exact Option.some.inj heq ▸ .informs _ b hup (.inl ⟨announcement, rfl⟩)
    | unparsed line e =>
      obtain ⟨hup, heq⟩ := Option.ite_none_right_eq_some.1 h
      exact Option.some.inj heq ▸ .informs _ b hup (.inr ⟨line, e, rfl⟩)
    | closed closed =>
      obtain ⟨standing, hs, rfl⟩ := Option.map_eq_some_iff.1 h
      exact .ends closed b standing hs
  | openStream request =>
    simp only [next] at h
    split at h
    · rename_i looped hs
      obtain ⟨hexpects, heq⟩ := Option.ite_none_right_eq_some.1 h
      exact Option.some.inj heq ▸ .opens looped request hs hexpects
    · cases h
  | control request kind parameters error =>
    obtain ⟨hadmits, heq⟩ := Option.ite_none_right_eq_some.1 h
    exact Option.some.inj heq ▸ .sends request kind parameters error hadmits
  | close =>
    obtain ⟨standing, hs, rfl⟩ := Option.map_eq_some_iff.1 h
    exact .closes standing hs
  | setControlLink host =>
    obtain ⟨hup, heq⟩ := Option.ite_none_right_eq_some.1 h
    exact Option.some.inj heq ▸ .links host hup
  | data position n =>
    obtain ⟨⟨hup, hp⟩, heq⟩ := Option.ite_none_right_eq_some.1 h
    exact Option.some.inj heq ▸ .counts position n hup hp

section records

@[simp] theorem place_concat : place (history ++ [a]) = a.place (place history) := by simp [place]

@[simp] theorem held_concat : held (history ++ [a]) = a.holds (held history) := by simp [held]

@[simp] theorem recovering_concat :
    recovering (history ++ [a]) = a.recovers (recovering history) := by
  simp [recovering]

@[simp] theorem losses_concat : losses (history ++ [a]) = losses history ++ a.loss.toList := by
  cases h : a.loss <;> simp [losses, h]

@[simp] theorem openings_concat :
    openings (history ++ [a]) = openings history + if a.isOpening then 1 else 0 := by
  simp [openings, List.countP_cons]

@[simp] theorem lastBound_concat :
    lastBound (history ++ [a]) = (a.boundId <|> lastBound history) := by
  cases h : a.boundId <;> simp [lastBound, h]

end records

/-- An action that is in no account of the history. -/
theorem Records.concat_same (h : o.Records history) (hplace : ∀ k, a.place k = k)
    (hholds : ∀ s, a.holds s = s) (hloss : a.loss = none) (hopening : a.isOpening = false)
    (hrecovers : ∀ k, a.recovers k = k) (hbound : a.boundId = none) (hclose : a ≠ .close)
    (hs : o.standing.isUp = true ∨ o.standing.isDown = true) : o.Records (history ++ [a]) where
  position := by simpa [hplace] using h.position
  session := by simpa [hholds] using h.session
  last := by simpa [hbound] using h.last
  asked := by simpa [hrecovers] using h.asked
  opened := by simpa [hloss, hopening] using h.opened
  idle := by simpa [hloss, hopening] using h.idle
  closed := by
    cases hst : o.standing <;> simp [hst, Standing.isUp, Standing.isDown] at hs ⊢ <;> exact hclose
  looped := by simpa [hloss] using h.looped

/-- A request is sent while a stream connection is open or the next one is waited for. -/
theorem listens_of_admits {request : ControlRequest} (h : o.admits request = true) :
    o.standing.isUp = true ∨ o.standing.isDown = true := by
  have hm : o.standing.admits request = true := by
    simp only [admits, decide_eq_true_eq] at h
    exact h.2.2
  cases request with
  | subscribe | messageSend | forceRebind =>
    exact .inl (by rw [of_decide_eq_true hm]; rfl)
  | heartbeat => exact .inl hm
  | _ => simpa [Standing.admits] using hm

/-- **The records are kept.** -/
theorem Records.concat (h : o.Records history) (hnext : o.next a = some o') :
    o'.Records (history ++ [a]) := by
  cases next_fits hnext with
  | opens looped request standing expects =>
    have hidle := h.idle (by simp [standing, Standing.isOpen]) (by simp [standing])
    exact ⟨by simpa [Action.place] using h.position, by simpa [Action.holds] using h.session,
      by simpa [Action.boundId] using h.last, by simp [Action.recovers],
      by simp [Action.loss, Action.isOpening, hidle], by simp [Standing.isOpen], by simp, by simp⟩
  | closes standing close =>
    obtain ⟨hopen, hclosed, hdown⟩ := Standing.of_close close
    refine ⟨by simpa [Action.place] using h.position, by simpa [Action.holds] using h.session,
      by simpa [Action.boundId] using h.last, by simpa [Action.recovers] using h.asked,
      fun ho => ?_, fun ho _ => ?_, by simpa using hclosed, fun looped hs => ?_⟩
    · simpa [Action.loss, Action.isOpening] using h.opened (hopen ▸ ho)
    · have hfinished : o.standing ≠ .finished := fun hs => by rw [hs] at close; cases close
      simpa [Action.loss, Action.isOpening] using h.idle (hopen ▸ ho) hfinished
    · exact absurd hs (hdown looped)
  | binds info b up agrees =>
    have hopened := h.opened (Standing.isOpen_of_isUp up)
    exact ⟨by simp [Action.place, bind, h.position], by simp [Action.holds, bind],
      by simp [Action.boundId, bind], by simpa [Action.recovers, bind] using h.asked,
      by simpa [Action.loss, Action.isOpening] using fun _ => hopened,
      by simp [bind, Standing.isOpen], by simp [bind], by simp [bind]⟩
  | resumes outcome b up =>
    have hopened := h.opened (Standing.isOpen_of_isUp up)
    have hplace : (o.resume outcome).position =
        place (history ++ [.event (.recovered outcome) b]) := by
      obtain ⟨requested, resumedAt, kind⟩ := outcome
      cases kind <;> simp [resume, Action.place, h.position]
    exact ⟨hplace, by simpa [Action.holds, resume] using h.session,
      by simpa [Action.boundId, resume] using h.last, by simp [resume],
      by simpa [Action.loss, Action.isOpening] using fun _ => hopened,
      fun ho => absurd (Standing.isOpen_of_isUp up) (by simpa [resume] using ho),
      by cases hs : o.standing <;> simp [hs, resume, Standing.isUp] at up ⊢,
      by cases hs : o.standing <;> simp [hs, resume, Standing.isUp] at up ⊢⟩
  | counts position n up counted =>
    have hopened := h.opened (Standing.isOpen_of_isUp up)
    exact ⟨by simp [Action.place], by simpa [Action.holds] using h.session,
      by simpa [Action.boundId] using h.last, by simpa [Action.recovers] using h.asked,
      by simpa [Action.loss, Action.isOpening] using fun _ => hopened,
      fun ho => absurd (Standing.isOpen_of_isUp up) (by simpa using ho),
      by cases hs : o.standing <;> simp [hs, Standing.isUp] at up ⊢,
      by cases hs : o.standing <;> simp [hs, Standing.isUp] at up ⊢⟩
  | loses reason retry b standing unbind =>
    obtain ⟨hopen, hidle, hdown⟩ := Standing.of_unbind unbind
    refine ⟨by simpa [Action.place] using h.position, by simp [Action.holds, h.session],
      by simpa [Action.boundId] using h.last, by simpa [Action.recovers] using h.asked,
      fun ho => ?_, fun _ _ => ?_, ?_, fun looped hs hsession => ⟨reason, ?_, hdown looped hs⟩⟩
    · rw [hidle.1] at ho
      cases ho
    · simpa [Action.loss, Action.isOpening] using h.opened hopen
    · simp [hidle.2.1, hidle.2.2]
    · simp [Action.loss]
  | ends closed b standing finish =>
    obtain rfl : standing = .finished := by
      cases hs : o.standing <;> rw [hs] at finish <;> cases finish <;> rfl
    exact ⟨by simpa [Action.place] using h.position, by simpa [Action.holds] using h.session,
      by simpa [Action.boundId] using h.last, by simpa [Action.recovers] using h.asked,
      by simp [Standing.isOpen], fun _ hne => absurd rfl hne, by simp, by simp⟩
  | sends request kind parameters error admits =>
    exact h.concat_same (fun _ => rfl) (fun _ => rfl) rfl rfl (fun _ => rfl) rfl (by simp)
      (listens_of_admits admits)
  | tells position key outcome b up =>
    exact h.concat_same (fun _ => rfl) (fun _ => rfl) rfl rfl (fun _ => rfl) rfl (by simp) (.inl up)
  | answers position sequence prog result b up =>
    exact h.concat_same (fun _ => rfl) (fun _ => rfl) rfl rfl (fun _ => rfl) rfl (by simp) (.inl up)
  | issues entries b bound =>
    exact h.concat_same (fun _ => rfl) (fun _ => rfl) rfl rfl (fun _ => rfl) rfl (by simp)
      (.inl (by rw [bound]; rfl))
  | links host up =>
    exact h.concat_same (fun _ => rfl) (fun _ => rfl) rfl rfl (fun _ => rfl) rfl (by simp) (.inl up)
  | informs e b up report =>
    obtain ⟨announcement, rfl⟩ | ⟨line, e, rfl⟩ := report <;>
      exact h.concat_same (fun _ => rfl) (fun _ => rfl) rfl rfl (fun _ => rfl) rfl (by simp)
        (.inl up)
  | responds e b listens report =>
    obtain ⟨id, target, outcome, rfl⟩ | ⟨sequence, prog, result, rfl⟩ := report <;>
      exact h.concat_same (fun _ => rfl) (fun _ => rfl) rfl rfl (fun _ => rfl) rfl (by simp) listens

theorem records_start : start.Records [] where
  position := rfl
  session := rfl
  last := rfl
  asked := fun _ => rfl
  opened := nofun
  idle := fun _ _ => rfl
  closed := by simp [start]
  looped := fun _ _ hs => absurd rfl hs

variable {k : ℕ}

/-- An action in an accepted history comes to an outline that has records of what came before. -/
theorem records_of_accepts (h : exec next start history = some o) (hk : history[k]? = some a) :
    ∃ q q' : Outline, q.Records (history.take k) ∧ q.next a = some q' ∧
      exec next q' (history.drop (k + 1)) = some o := by
  obtain ⟨hlt, rfl⟩ := List.getElem?_eq_some_iff.1 hk
  rw [← List.take_append_drop k history, List.drop_eq_getElem_cons hlt] at h
  obtain ⟨q, hq, h⟩ := exec_append_eq_some.1 h
  obtain ⟨q', hq', h⟩ := exec_cons_eq_some.1 h
  exact ⟨q, q', exec_history (fun _ _ _ _ hr hn => hr.concat hn) records_start hq, hq', h⟩

/-- Nothing is accepted after the end. -/
theorem eq_nil_of_finished {later : List Action} (ho : o.standing = .finished)
    (h : exec next o later = some o') : later = [] := by
  cases later with
  | nil => rfl
  | cons a later =>
    obtain ⟨q, hq, -⟩ := exec_cons_eq_some.1 h
    cases next_fits hq with
    | opens _ _ hs => rw [ho] at hs; cases hs
    | closes _ hs | loses _ _ _ _ hs | ends _ _ _ hs => rw [ho] at hs; cases hs
    | sends _ _ _ _ hs => rcases listens_of_admits hs with hs | hs <;> rw [ho] at hs <;> cases hs
    | issues _ _ hs => rw [ho] at hs; cases hs
    | responds _ _ hs => rcases hs with hs | hs <;> rw [ho] at hs <;> cases hs
    | binds _ _ hs | resumes _ _ hs | counts _ _ hs | tells _ _ _ _ hs | answers _ _ _ _ _ hs
    | links _ hs | informs _ _ hs => rw [ho] at hs; cases hs

/-- **In an accepted history everything goes in turn.** -/
theorem inTurn_of_accepts (h : exec next start history = some o) (hk : history[k]? = some a) :
    InTurn (history.take k) (history.drop (k + 1)) a := by
  obtain ⟨q, q', hr, hq, hlater⟩ := records_of_accepts h hk
  have hup : q.standing.isUp = true →
      openings (history.take k) = (losses (history.take k)).length + 1 := fun hs =>
    hr.opened (Standing.isOpen_of_isUp hs)
  cases next_fits hq with
  | opens looped request hs =>
    exact hr.idle (by rw [hs]; rfl) (by rw [hs]; nofun)
  | loses reason retry b standing hs =>
    refine ⟨hr.opened (Standing.of_unbind hs).1, ?_⟩
    rw [← hr.closed]
    cases hst : q.standing with
    | up bound =>
      rw [hst] at hs
      obtain ⟨⟨hclean, -⟩, -⟩ := Option.ite_none_right_eq_some.1 hs
      simp [hclean]
    | shut =>
      rw [hst] at hs
      obtain ⟨hclean, -⟩ := Option.ite_none_left_eq_some.1 hs
      simpa using hclean
    | down | spent | ending | finished => rw [hst] at hs; cases hs
  | ends closed b standing hs =>
    have hst : (q.standing = .shut ∨ q.standing = .ending) ∧ standing = .finished := by
      cases hst : q.standing <;> rw [hst] at hs <;> cases hs <;> simp
    exact ⟨hr.closed.mp hst.1, eq_nil_of_finished hst.2 hlater⟩
  | closes => trivial
  | binds _ _ hs => exact hup hs
  | resumes _ _ hs => exact hup hs
  | counts _ _ hs => exact hup hs
  | sends => trivial
  | tells _ _ _ _ hs => exact hup hs
  | answers => trivial
  | issues _ _ hs => exact hup (by rw [hs]; rfl)
  | links _ hs => exact hup hs
  | informs _ _ _ report => obtain ⟨_, rfl⟩ | ⟨_, _, rfl⟩ := report <;> trivial
  | responds _ _ _ report => obtain ⟨_, _, _, rfl⟩ | ⟨_, _, _, rfl⟩ := report <;> trivial

/-- **In an accepted history everything is addressed to the session that is held.** -/
theorem addressed_of_accepts (h : exec next start history = some o) (hk : history[k]? = some a) :
    Addressed (history.take k) a := by
  obtain ⟨q, q', hr, hq, -⟩ := records_of_accepts h hk
  cases next_fits hq with
  | opens looped request hs hexpects =>
    cases request with
    | create r =>
      have hnone : q.session = none := by simpa [expects] using hexpects
      exact hr.session.symm.trans hnone
    | bind r =>
      obtain ⟨hsome, hsession, hfrom⟩ : q.session ≠ none ∧ r.session = q.session ∧
          r.recoveryFrom = if looped then none else some q.position := by
        simpa [expects] using hexpects
      obtain ⟨session, hheld⟩ := Option.ne_none_iff_exists'.1 hsome
      obtain ⟨reason, hreason, rfl⟩ := hr.looped looped hs hsome
      exact ⟨hr.session ▸ hsession, session, reason, hr.session ▸ hheld, hreason,
        hr.position ▸ hfrom⟩
  | sends request kind parameters error hadmits =>
    obtain ⟨hsession, hsome, -⟩ := of_decide_eq_true hadmits
    exact ⟨hsession.trans hr.session, fun hnone => hsome.resolve_left fun hne =>
      hne (hr.session.trans hnone)⟩
  | counts position n _ hposition => exact hposition.trans (congrArg _ hr.position)
  | tells _ _ _ _ _ hposition => exact hposition.trans hr.position
  | answers _ _ _ _ _ _ hposition => exact hposition.trans hr.position
  | binds info b _ hagrees =>
    intro hfresh
    rw [← hr.last]
    unfold agrees at hagrees
    cases hkind : info.kind with
    | created | recreated => rw [hkind] at hfresh; cases hfresh
    | rebound | recovering => rw [hkind] at hagrees; exact (of_decide_eq_true hagrees).1
  | resumes outcome b _ hasked hanswered hkind =>
    exact ⟨hr.asked hanswered ▸ hasked, hkind⟩
  | closes | loses | ends | issues | links => trivial
  | informs _ _ _ report => obtain ⟨_, rfl⟩ | ⟨_, _, rfl⟩ := report <;> trivial
  | responds _ _ _ report => obtain ⟨_, _, _, rfl⟩ | ⟨_, _, _, rfl⟩ := report <;> trivial

end Outline

end Lightstreamer.Session
