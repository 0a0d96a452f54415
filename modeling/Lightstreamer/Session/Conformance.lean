import Lightstreamer.Session.Outline

/-!
# The driver conforms to its outline

Every history of the driver is one that `Outline.next` accepts, and the outline that it leads to
shows where the driver is (`Outline.Shows`). An operation either adds actions that leave the outline
as it is (`Outline.Passes`), or it moves the outline along with the driver's lifecycle
(`Outline.Tells` for the session and the place in it, `Outline.Follows` for the stream connection).
-/

namespace Lightstreamer.Session

open Lightstreamer.Foundations Lightstreamer.Protocol Lightstreamer.Subscription

namespace Outline

/-- An action that fits the outline and leaves it as it is. -/
def Passes (o : Outline) (a : Action) : Prop := o.next a = some o

/-- Commands are taken: a stream connection is open, or the next one is waited for. -/
def Listens (o : Outline) : Prop := o.standing.isUp = true ∨ o.standing.isDown = true

variable {o : Outline}

theorem Listens.of_isUp (h : o.standing.isUp = true) : o.Listens := .inl h

theorem reads_of_passes {l l' : List Action} (h : Extends o.Passes l l') :
    Reads next l o l' o := .of_extends h

theorem passes_controlResponse (h : o.Listens) (id : Option RequestId) (target : ControlTarget)
    (outcome : ControlOutcome) (b : Bool) :
    o.Passes (.event (.controlResponse id target outcome) b) :=
  if_pos h

theorem passes_message (h : o.Listens) (sequence : MessageSequence) (prog : Option ℕ)
    (result : MessageResult) (b : Bool) :
    o.Passes (.event (.message none sequence prog result) b) :=
  if_pos h

theorem passes_control {request : ControlRequest} (h : o.admits request = true)
    (kind : Option PendingKind) (parameters : String) (error : Option String) :
    o.Passes (.control request kind parameters error) :=
  if_pos h

/-- A request of a session that is held. -/
theorem admits_of_held {session : SessionId} (request : ControlRequest)
    (hs : o.session = some session) (hr : sessionOf request = some session)
    (hm : o.standing.admits request = true) : o.admits request = true := by
  simp [admits, hs, hr, hm]

end Outline

namespace SessionDriver

open Outline

variable {o : Outline} (d : SessionDriver)

/-! ## What leaves the outline as it is -/

theorem reportIdExhaustion_passes (h : o.Listens) (target : ControlTarget) :
    Extends o.Passes d.trace (d.reportIdExhaustion target).trace :=
  d.extends_emit fun b => passes_controlResponse h _ _ _ b

theorem dispatch_passes (h : o.Listens) {request : ControlRequest} (hr : o.admits request = true)
    (id : RequestId) (kind : PendingKind) :
    Extends o.Passes d.trace (d.dispatch request id kind).2.trace := by
  obtain ⟨_, _, hd, rfl⟩ | ⟨_, _, hd, -, -, -, -, -, ht⟩ | ⟨_, _, _, _, hd, -, -, -, -, -, ht⟩ :=
    d.dispatch_cases request id kind
  · rw [hd]
    exact d.extends_emit fun b => passes_controlResponse h _ _ _ b
  · rw [hd, ht]
    exact .one (passes_control hr _ _ _) _
  · rw [hd, ht, List.append_cons]
    exact (Extends.one (passes_control hr _ _ _) _).concat (passes_controlResponse h _ _ _ _)

/-- A command that takes a request id, if there is one left, and dispatches its request. -/
theorem takeRequestId_passes (h : o.Listens) {id : RequestId} {d' : SessionDriver}
    (hid : d.takeRequestId = some (id, d')) {request : ControlRequest}
    (hr : o.admits request = true) (kind : PendingKind) :
    Extends o.Passes d.trace (d'.dispatch request id kind).2.trace := by
  obtain ⟨-, -, rfl⟩ := takeRequestId_eq_some hid
  exact dispatch_passes { d with nextRequestId := d.nextRequestId + 1 } h hr id kind

variable {session : SessionId}

theorem sendSubscribe_passes (hs : o.session = some session) (hup : o.standing = .up true)
    (key : SubscriptionKey) (subId : NonZeroU32) (entry : RegistryEntry) :
    Extends o.Passes d.trace (d.sendSubscribe session key subId entry).2.trace := by
  have h : o.Listens := .of_isUp (by rw [hup]; rfl)
  unfold sendSubscribe
  split
  · exact reportIdExhaustion_passes { d with registry := d.registry.release key subId } h _
  · rename_i id d₁ hid
    have ht := d.takeRequestId_passes h hid
      (admits_of_held (.subscribe (subscribeRequest session id subId entry.spec)) hs rfl
        (by simp [Standing.admits, hup])) (.subscribe key)
    dsimp only
    split <;> exact ht

theorem issueSubscription_passes (hs : o.session = d.session) (hup : o.standing = .up true)
    (key : SubscriptionKey) : Extends o.Passes d.trace (d.issueSubscription key).2.trace := by
  unfold issueSubscription
  split
  · exact .refl _ _
  · rename_i session hsession
    split
    · exact .refl _ _
    · rename_i subId registry ha
      dsimp only
      split
      · exact .refl _ _
      · exact sendSubscribe_passes { d with registry := registry.bind key subId }
          (hs.trans hsession) hup key subId _

theorem issueAll_passes (hs : o.session = d.session) (hup : o.standing = .up true)
    (keys : List SubscriptionKey) : Extends o.Passes d.trace (d.issueAll keys).2.trace := by
  induction keys generalizing d with
  | nil => exact .refl _ _
  | cons key keys ih =>
    exact (d.issueSubscription_passes hs hup key).trans (ih _ (by simpa using hs))

theorem issueUnboundSubscriptions_passes (hs : o.session = d.session)
    (hup : o.standing = .up true) :
    Extends o.Passes d.trace d.issueUnboundSubscriptions.trace := by
  have h := d.issueAll_passes hs hup d.registry.unboundKeys
  unfold issueUnboundSubscriptions
  dsimp only
  split
  · exact h
  · exact h.trans (extends_emit _ fun b => if_pos hup)

/-- **A command leaves the outline as it is**: what it sends names the session that is held, at a
moment when such a request is sent. -/
theorem onCommand_passes (h : o.Listens) (hs : o.session = d.session)
    (hup : d.streamState = .bound → o.standing = .up true) (c : SessionCommand) :
    Extends o.Passes d.trace (d.onCommand c).2.trace := by
  have hlistens : (o.standing.isUp || o.standing.isDown) = true := by simpa [Listens] using h
  cases c with
  | subscribe key spec =>
    simp only [onCommand, subscribe]
    split_ifs with hstate
    · exact issueSubscription_passes { d with registry := d.registry.want key spec } hs (hup hstate)
        key
    · exact .refl _ _
  | unsubscribe key =>
    simp only [onCommand, unsubscribe]
    split
    · exact .refl _ _
    · split
      · exact .refl _ _
      · split
        · exact .refl _ _
        · rename_i session hsession
          split
          · exact reportIdExhaustion_passes { d with registry := d.registry.markRemoving key } h _
          · rename_i id d₁ hid
            exact takeRequestId_passes { d with registry := d.registry.markRemoving key } h hid
              (admits_of_held _ (hs.trans hsession) rfl (by exact hlistens)) _
  | reconfigure key f =>
    simp only [onCommand, reconfigure]
    split
    · rename_i session _ hsession
      split
      · exact d.reportIdExhaustion_passes h _
      · rename_i id d₁ hid
        exact d.takeRequestId_passes h hid
          (admits_of_held _ (hs.trans hsession) rfl (by exact hlistens)) _
    · exact .refl _ _
  | sendMessage m =>
    simp only [onCommand, sendMessage]
    split
    · rename_i session hstate hsession
      split
      · exact (d.reportIdExhaustion_passes h _).trans
          (extends_emit _ fun b => passes_message h _ _ _ b)
      · rename_i id d₁ hid
        have ht := d.takeRequestId_passes h hid (admits_of_held
          (.messageSend ⟨some session, id, m.message, m.sequence, m.msgProg, m.maxWaitMillis, none,
            m.outcome⟩) (hs.trans hsession) rfl
          (by simp [Standing.admits, hup hstate])) (.sendMessage m.identity.1 m.identity.2)
        split
        · exact ht
        · exact ht.trans (extends_emit _ fun b => passes_message h _ _ _ b)
    · exact d.extends_emit fun b => passes_message h _ _ _ b
  | forceRebind closeSocket =>
    simp only [onCommand, forceRebind]
    split
    · rename_i session hstate hsession
      split
      · exact d.reportIdExhaustion_passes h _
      · rename_i id d₁ hid
        obtain ⟨-, -, rfl⟩ := takeRequestId_eq_some hid
        exact dispatch_passes { d with
          nextRequestId := d.nextRequestId + 1
          forceRebindOutstanding := true } h
          (admits_of_held _ (hs.trans hsession) rfl (by simp [Standing.admits, hup hstate])) id _
    · exact .refl _ _
  | destroy cause =>
    simp only [onCommand, destroy]
    split
    · exact .refl _ _
    · rename_i session hsession
      split
      · exact d.reportIdExhaustion_passes h _
      · rename_i id d₁ hid
        obtain ⟨-, -, rfl⟩ := takeRequestId_eq_some hid
        exact dispatch_passes { d with
          nextRequestId := d.nextRequestId + 1
          destroyRequested := true } h
          (admits_of_held _ (hs.trans hsession) rfl (by exact hlistens)) id _
  | shutdown => exact .refl _ _

theorem onTimer_passes (hs : o.session = d.session) (hup : o.standing.isUp = true) :
    Extends o.Passes d.trace d.onTimer.2.trace := by
  have hsend : ∀ d' : SessionDriver, d'.session = d.session →
      Extends o.Passes d'.trace d'.sendHeartbeat.2.trace := fun d' hd' => by
    rw [sendHeartbeat, settleHeartbeat_toSurroundings, clocked_trace, attemptHeartbeat]
    split
    · exact .refl _ _
    · refine .one (passes_control ?_ _ _ _) _
      simp [admits, sessionOf, isHeartbeat, hs, hd', Standing.admits, hup]
  obtain ⟨f, flow, h, -⟩ | ⟨f, h, -⟩ := d.onTimer_cases
  · simp [h]
  · rw [h]
    exact hsend (d.clocked f) rfl

theorem onRequestOk_passes (h : o.Listens) (id : Option String) :
    Extends o.Passes d.trace (d.onRequestOk id).trace := by
  cases id with
  | none => exact .refl _ _
  | some id =>
    have ht := extends_emit (P := o.Passes)
      ((d.takePending id).2.acceptRequest (d.takePending id).1)
      (e := .controlResponse (RequestId.tryNew id).toOption
        (((d.takePending id).1.map PendingKind.target).getD .session) .accepted)
      fun b => passes_controlResponse h _ _ _ b
    simpa [onRequestOk, respond] using ht

theorem onRequestError_passes (h : o.Listens) (id : String) (cause : ServerCause) :
    Extends o.Passes d.trace (d.onRequestError id cause).trace := by
  have ht := undoRequest_extends (P := o.Passes) (d.takePending id).2 cause (d.takePending id).1
    fun _ _ b _ => passes_message h _ _ _ b
  rw [takePending_toSurroundings] at ht
  exact ht.trans (extends_emit _ fun b => passes_controlResponse h _ _ _ b)

theorem retireAll_passes (h : o.Listens) (stale : List (String × Pending)) :
    Extends o.Passes d.trace (d.retireAll stale).trace := by
  induction stale generalizing d with
  | nil => exact .refl _ _
  | cons p stale ih =>
    refine Extends.trans ?_ (ih (d.retireOne p.1 p.2.kind))
    unfold retireOne
    cases p.2.kind with
    | sendMessage s n =>
      exact (d.extends_emit fun b => passes_message h _ _ _ b).trans
        (extends_emit _ fun b => passes_controlResponse h _ _ _ b)
    | _ => exact extends_emit _ fun b => passes_controlResponse h _ _ _ b

theorem enterSession_passes (hup : o.standing.isUp = true) (sid : SessionId) (keepAlive : ℕ)
    (link : Option String) (kind : BindKind) :
    Extends o.Passes d.trace (d.enterSession sid keepAlive link kind).trace := by
  have hpass : o.Passes (.setControlLink link) := if_pos hup
  have hlink : Extends o.Passes d.trace (d.trace ++ [.setControlLink link]) := .one hpass _
  unfold enterSession
  dsimp only
  split
  · refine hlink.trans ?_
    unfold freshSession retireStalePending
    exact retireAll_passes _ (.of_isUp hup) _
  · exact hlink

end SessionDriver

/-! ## What moves the outline -/

/-- The position that an intent recovers from. -/
def OpenIntent.requested : OpenIntent → Option ℕ
  | recover requested => some requested
  | create | rebind => none

namespace Outline

/-- The outline stands for the session that the driver holds and for the place in it. -/
structure Tells (o : Outline) (d : SessionDriver) : Prop where
  session : o.session = d.session
  position : o.position = d.progressive
  last : ∀ sid, (d.session <|> d.previousSession) = some sid → o.last = some sid

/-- The outline stands for the stream connection that the driver has open. -/
structure Follows (o : Outline) (d : SessionDriver) : Prop where
  standing : o.standing = .up (d.streamState = .bound)
  asked : o.asked = d.intent.requested
  answered : o.answered = d.progHonoured

/-- The session, after a loss of the stream connection. -/
def settle (o : Outline) (reason : UnbindReason) : Outline :=
  { o with session := if reason.losesSession then none else o.session }

/-- What a turn of the pump leaves behind. -/
structure Leaves (o : Outline) (r : Flow × SessionDriver) : Prop where
  up : o.standing.isUp = true
  continues : r.1 = .continue → o.Tells r.2 ∧ o.Follows r.2
  unbinds : ∀ reason, r.1 = .unbind reason → (o.settle reason).Tells r.2

variable {o : Outline} {d d' : SessionDriver}

theorem Follows.isUp (h : o.Follows d) : o.standing.isUp = true := by
  rw [h.standing]
  rfl

theorem Tells.of_eq (h : o.Tells d) (hs : d'.session = d.session)
    (hp : d'.previousSession = d.previousSession) (hn : d'.progressive = d.progressive) :
    o.Tells d' :=
  ⟨h.session.trans hs.symm, h.position.trans hn.symm, by rw [hs, hp]; exact h.last⟩

theorem Follows.of_eq (h : o.Follows d) (hs : d'.streamState = d.streamState)
    (hi : d'.intent = d.intent) (hp : d'.progHonoured = d.progHonoured) : o.Follows d' :=
  ⟨by rw [hs]; exact h.standing, by rw [hi]; exact h.asked, by rw [hp]; exact h.answered⟩

theorem Leaves.of_continue (ht : o.Tells d) (hf : o.Follows d) : o.Leaves (.continue, d) :=
  ⟨hf.isUp, fun _ => ⟨ht, hf⟩, nofun⟩

theorem Leaves.of_closed (h : o.standing.isUp = true) (closed : SessionClosed) :
    o.Leaves (.closed closed, d) := ⟨h, nofun, nofun⟩

theorem Leaves.of_unbind (h : o.standing.isUp = true) {reason : UnbindReason}
    (ht : (o.settle reason).Tells d) : o.Leaves (.unbind reason, d) :=
  ⟨h, nofun, fun _ hr => by cases hr; exact ht⟩

theorem settle_of_not_losesSession (reason : UnbindReason) (h : reason.losesSession = false) :
    o.settle reason = o := by
  simp [settle, h]

theorem not_losesSession_of_isCleanLoop {reason : UnbindReason} (h : reason.isCleanLoop = true) :
    reason.losesSession = false := by
  cases reason <;> first | rfl | cases h

/-- A refusal that is not fatal: the session is abandoned, and the outline lets it go when the loss
is reported. -/
theorem Tells.abandonSession (h : o.Tells d) {reason : UnbindReason}
    (hr : reason.losesSession = true) : (o.settle reason).Tells d.abandonSession where
  session := by simp [settle, hr, SessionDriver.abandonSession]
  position := h.position
  last := fun sid hsid => h.last sid (by
    have hs : d.session = some sid := by simpa [SessionDriver.abandonSession] using hsid
    simp [hs])

end Outline

namespace SessionDriver

open Outline

variable {o : Outline} {d : SessionDriver}

/-- A recovery is answered once, and classed by where it resumed. -/
theorem onProg_leaves (ht : o.Tells d) (hf : o.Follows d) (resumedAt : ℕ) :
    ∃ o', Reads next d.trace o (d.onProg resumedAt).trace o' ∧
      o'.Leaves (.continue, d.onProg resumedAt) := by
  have hsame : ∃ o', Reads next d.trace o d.trace o' ∧ o'.Leaves (.continue, d) :=
    ⟨o, .refl _ _ _, .of_continue ht hf⟩
  unfold onProg
  split
  · rename_i requested hintent
    have hhear : d.progHonoured = false → ∀ kind b, kind = recoveryKind requested resumedAt →
        o.next (.event (.recovered ⟨requested, resumedAt, kind⟩) b) =
          some (o.resume ⟨requested, resumedAt, kind⟩) := fun hp kind b hk =>
      if_pos ⟨hf.isUp, by rw [hf.asked, hintent]; rfl, by rw [hf.answered, hp], hk⟩
    split_ifs with hp heq hlt <;> try exact hsame
    all_goals
      rw [Bool.not_eq_true] at hp
      refine ⟨_, .one (hhear hp _ _ ?_) _, .of_continue ⟨ht.session, ?_, ht.last⟩
        ⟨hf.standing, hf.asked, rfl⟩⟩
    · simp [recoveryKind, heq]
    · exact ht.position
    · simp [recoveryKind, heq, hlt]
    · exact ht.position
    · simp [recoveryKind, heq, hlt]
    · rfl
  · exact hsame

theorem deliver_reads {k : ℕ} (hup : o.standing.isUp = true) (hk : d.progressive = bump k)
    (hpos : o.position = k) (n : Notification) :
    Reads next d.trace o (d.deliver n).trace { o with position := d.progressive } := by
  have hdata : Reads next d.trace o (d.act (.data d.progressive n)).trace
      { o with position := d.progressive } := .one (if_pos ⟨hup, by rw [hpos, hk]⟩) _
  refine hdata.trans (reads_of_passes ?_)
  have hmessage : ∀ s p r b, Passes { o with position := d.progressive }
      (.event (.message (some d.progressive) s p r) b) := fun _ _ _ _ => if_pos ⟨hup, rfl⟩
  unfold deliver
  dsimp only
  split
  · exact extends_emit (d.act _) (hmessage _ _ _)
  · exact extends_emit (d.act _) (hmessage _ _ _)
  · unfold notifySubscription
    dsimp only
    split
    · rename_i e he
      obtain ⟨key, outcome, rfl⟩ := interpretForSubscription_position he
      have hevent : ∀ b, Passes { o with position := d.progressive }
          (.event (.subscription d.progressive key outcome) b) := fun _ => if_pos ⟨hup, rfl⟩
      simpa using extends_emit
        ((d.act (.data d.progressive _)).interpretForSubscription d.progressive _).2 hevent
    · simp

theorem onData_leaves (ht : o.Tells d) (hf : o.Follows d) (n : Notification) :
    ∃ o', Reads next d.trace o (d.onData n).trace o' ∧ o'.Leaves (.continue, d.onData n) := by
  have hl := d.onData_toLifecycle n
  rcases Nat.eq_zero_or_pos d.skipRemaining with h | h
  · refine ⟨{ o with position := bump d.progressive }, ?_, .of_continue ⟨?_, ?_, ?_⟩
      (hf.of_eq (by rw [hl]) (by rw [hl]) (by rw [hl]) |> fun hf' => ⟨hf'.1, hf'.2, hf'.3⟩)⟩
    · rw [onData_of_no_skip h]
      exact deliver_reads (d := { d with refreshStreak := 0, progressive := bump d.progressive })
        hf.isUp rfl ht.position n
    · rw [hl]
      exact ht.session
    · rw [hl]
      simp [h]
    · rw [hl]
      exact ht.last
  · refine ⟨o, ?_, .of_continue (ht.of_eq (by rw [hl]) (by rw [hl]) (by rw [hl]; simp [h.ne']))
      (hf.of_eq (by rw [hl]) (by rw [hl]) (by rw [hl]))⟩
    rw [onData_of_skip h]
    exact .refl _ _ _

/-- A `CONOK` binds what it names. -/
theorem onConok_leaves (ht : o.Tells d) (hf : o.Follows d) (sid : SessionId)
    (limit keepAlive : ℕ) (link : Option String) :
    ∃ o', Reads next d.trace o (d.onConok sid limit keepAlive link).trace o' ∧
      o'.Leaves (.continue, d.onConok sid limit keepAlive link) := by
  have hagrees : o.agrees ⟨sid, d.conokKind sid, keepAlive, limit, link⟩ = true := by
    have hlast := ht.last sid
    unfold agrees conokKind
    generalize (d.session <|> d.previousSession) = previous at hlast
    unfold bindKind
    cases hintent : d.intent with
    | create => cases previous <;> rfl
    | rebind =>
      by_cases h : previous = some sid
      · simp [h, hlast h, hf.asked, hintent, OpenIntent.requested]
      · simp [h]
    | recover requested =>
      by_cases h : previous = some sid
      · simp [h, hlast h, hf.asked, hintent, OpenIntent.requested]
      · simp [h]
  have hbound : ∀ b, o.next (.event (.bound ⟨sid, d.conokKind sid, keepAlive, limit, link⟩) b) =
      some (o.bind ⟨sid, d.conokKind sid, keepAlive, limit, link⟩) := fun b =>
    if_pos ⟨hf.isUp, hagrees⟩
  have hl := d.onConok_toLifecycle sid keepAlive link limit
  rw [enterSession_toLifecycle] at hl
  refine ⟨o.bind ⟨sid, d.conokKind sid, keepAlive, limit, link⟩, ?_, .of_continue ⟨?_, ?_, ?_⟩
    ⟨?_, ?_, ?_⟩⟩
  · have hannounced : Reads next d.trace o (d.announced sid limit keepAlive link).trace
        (o.bind ⟨sid, d.conokKind sid, keepAlive, limit, link⟩) :=
      (reads_of_passes (d.enterSession_passes hf.isUp sid keepAlive link _)).concat (hbound _)
    exact hannounced.trans (reads_of_passes (issueUnboundSubscriptions_passes _
      (by simp [announced, enterSession_toLifecycle, Outline.bind]) rfl))
  · rw [hl]
    rfl
  · rw [hl]
    simp only [Outline.bind, ht.position]
  · rw [hl]
    rintro sid' hsid'
    simpa [Outline.bind] using hsid'
  · rw [hl]
    simp [Outline.bind]
  · rw [hl]
    exact hf.asked
  · rw [hl]
    exact hf.answered

theorem onNotification_leaves (ht : o.Tells d) (hf : o.Follows d) (n : Notification) :
    ∃ o', Reads next d.trace o (d.onNotification n).2.trace o' ∧
      o'.Leaves (d.onNotification n) := by
  have hlistens : o.Listens := .of_isUp hf.isUp
  have hpass : ∀ {e : SessionEvent}, (∀ b, o.Passes (.event e b)) →
      ∃ o', Reads next d.trace o (d.emit e).trace o' ∧ o'.Leaves (.continue, d.emit e) :=
    fun he => ⟨o, reads_of_passes (d.extends_emit he), .of_continue (ht.of_eq rfl rfl rfl)
      (hf.of_eq rfl rfl rfl)⟩
  cases n with
  | connectionOk sid limit millis link => exact onConok_leaves ht hf sid limit _ link
  | connectionError code message =>
    refine ⟨o, by simp [onNotification, Reads.refl], ?_⟩
    simp only [onNotification, onConerr]
    cases classify code with
    | fatal => exact .of_closed hf.isUp _
    | recreateSession | retryLater => exact .of_unbind hf.isUp (ht.abandonSession rfl)
  | «end» code message =>
    refine ⟨o, by simp [onNotification, Reads.refl], ?_⟩
    simp only [onNotification, onEnd]
    split_ifs
    · exact .of_closed hf.isUp _
    · cases classify code with
      | fatal => exact .of_closed hf.isUp _
      | recreateSession | retryLater => exact .of_unbind hf.isUp (ht.abandonSession rfl)
  | loop millis =>
    refine ⟨o, by simp [onNotification, Reads.refl], .of_unbind hf.isUp ?_⟩
    rw [settle_of_not_losesSession _
      (not_losesSession_of_isCleanLoop (d.loopReason_isCleanLoop _).1)]
    exact ht.of_eq (by simp) (by simp) (by simp)
  | progressive resumedAt => exact onProg_leaves ht hf resumedAt
  | requestOk id =>
    exact ⟨o, reads_of_passes (d.onRequestOk_passes hlistens id), .of_continue
      (ht.of_eq (by simp) (by simp) (by simp)) (hf.of_eq (by simp) (by simp) (by simp))⟩
  | requestError id code message =>
    have hl := d.onRequestError_toLifecycle id ⟨code, message⟩
    exact ⟨o, reads_of_passes (d.onRequestError_passes hlistens id _), .of_continue
      (ht.of_eq (by rw [hl]) (by rw [hl]) (by rw [hl]))
      (hf.of_eq (by rw [hl]) (by rw [hl]) (by rw [hl]))⟩
  | error code message => exact hpass fun b => passes_controlResponse hlistens _ _ _ b
  | sync | clientIp | serverName | constraintsChanged => exact hpass fun b => if_pos hf.isUp
  | probe | noOp | wsOk => exact ⟨o, .refl _ _ _, .of_continue ht hf⟩
  | _ => exact onData_leaves ht hf _

theorem onLine_leaves (ht : o.Tells d) (hf : o.Follows d) (text : String) :
    ∃ o', Reads next d.trace o (d.onLine text).2.trace o' ∧ o'.Leaves (d.onLine text) := by
  have ht' : o.Tells d.heard := ht.of_eq rfl rfl rfl
  have hf' : o.Follows d.heard := hf.of_eq rfl rfl rfl
  cases htext : parseLine text with
  | error e =>
    rw [onLine_of_error d htext]
    exact ⟨o, reads_of_passes (extends_emit d.heard fun b => if_pos hf.isUp),
      .of_continue (ht'.of_eq rfl rfl rfl) (hf'.of_eq rfl rfl rfl)⟩
  | ok n =>
    rw [onLine_of_ok d htext]
    exact onNotification_leaves ht' hf' n

theorem onCommand_leaves (ht : o.Tells d) (hf : o.Follows d) (c : SessionCommand) :
    Extends o.Passes d.trace (d.onCommand c).2.trace ∧ o.Leaves (d.onCommand c) := by
  obtain ⟨b, hl⟩ := d.onCommand_toLifecycle c
  refine ⟨d.onCommand_passes (.of_isUp hf.isUp) ht.session
    (fun hs => by simp [hf.standing, hs]) c, hf.isUp, fun _ => ⟨?_, ?_⟩, fun reason hr => ?_⟩
  · exact ht.of_eq (by rw [hl]) (by rw [hl]) (by rw [hl])
  · exact hf.of_eq (by rw [hl]) (by rw [hl]) (by rw [hl])
  · obtain hflow | ⟨closed, hflow⟩ := d.onCommand_flow c <;> rw [hflow] at hr <;> cases hr

theorem onTimer_leaves (ht : o.Tells d) (hf : o.Follows d) :
    Extends o.Passes d.trace d.onTimer.2.trace ∧ o.Leaves d.onTimer := by
  obtain ⟨failures, hl⟩ := d.onTimer_toLifecycle
  have ht' : o.Tells d.onTimer.2 := ht.of_eq (by rw [hl]) (by rw [hl]) (by rw [hl])
  refine ⟨d.onTimer_passes ht.session hf.isUp, hf.isUp, fun _ => ⟨ht', ?_⟩, fun reason hr => ?_⟩
  · exact hf.of_eq (by rw [hl]) (by rw [hl]) (by rw [hl])
  · obtain hflow | ⟨budget, hflow⟩ | ⟨detail, hflow⟩ := d.onTimer_flow <;> rw [hflow] at hr <;>
      cases hr
    · exact settle_of_not_losesSession (.keepaliveExpired budget) rfl ▸ ht'
    · exact settle_of_not_losesSession (.connectionFailed detail) rfl ▸ ht'

/-! ## What is opened next -/

/-- The intent carries out what the outline expects. -/
def Plans (d : SessionDriver) (looped : Bool) (intent : OpenIntent) : Prop :=
  if d.session = none then intent.requested = none
  else intent = if looped then .rebind else .recover d.progressive

/-- The request for a plan is the expected one, and asks to recover from what the plan says. -/
theorem Plans.expects {looped : Bool} {intent : OpenIntent} (h : d.Plans looped intent)
    (ht : o.Tells d) : o.expects looped (d.buildOpen intent) = true ∧
      (d.buildOpen intent).recoveryFrom = intent.requested := by
  unfold Plans at h
  cases hs : d.session with
  | none =>
    rw [if_pos hs] at h
    simp [buildOpen, hs, Outline.expects, ht.session, StreamOpen.recoveryFrom, h]
  | some session =>
    rw [if_neg (by simp [hs])] at h
    cases looped <;> subst h <;> simp [buildOpen, hs, Outline.expects, ht.session, ht.position,
      StreamOpen.recoveryFrom, OpenIntent.requested]

/-- **The plan after a loss**: the session that is held is bound again, and recovered from where it
stands unless the loss was a clean one. -/
theorem planAfter_plans {reason : UnbindReason} {next : Reopen}
    (hlost : reason.losesSession = true → d.session = none)
    (h : d.planAfter reason = (some next, d')) : d.Plans reason.isCleanLoop next.intent := by
  unfold Plans
  split_ifs with hs hclean
  · obtain ⟨-, hi⟩ | hi | ⟨hsome, -⟩ := planAfter_intent h
    · rw [hi]
      rfl
    · rw [hi]
      rfl
    · exact absurd hs hsome
  · rw [planAfter_of_isCleanLoop d hclean] at h
    cases h
    rfl
  · have hfailed : ∀ {d₁ : SessionDriver}, d₁.session = d.session →
        d₁.progressive = d.progressive → d₁.reopenLater
          (if d₁.session.isSome then .recover d₁.progressive else .create) = (some next, d') →
        next.intent = .recover d.progressive := fun {d₁} hs₁ hp₁ h => by
      rw [(reopenLater_eq_some h).1, hs₁, hp₁, if_pos (Option.isSome_iff_ne_none.mpr hs)]
    cases reason with
    | connectionFailed detail => exact @hfailed { d with refreshStreak := 0 } rfl rfl h
    | keepaliveExpired budget => exact @hfailed { d with refreshStreak := 0 } rfl rfl h
    | rejected | serverRefresh => exact absurd (hlost rfl) hs
    | _ => exact absurd rfl hclean

end SessionDriver

namespace Outline

/-- The outline shows where the driver is. -/
def Shows (o : Outline) (s : Drive) : Prop :=
  match s.phase with
  | .waiting next => ∃ looped, o.standing = .down looped ∧ o.Tells s.driver ∧
      s.driver.Plans looped next.intent
  | .opening | .pumping => o.Tells s.driver ∧ o.Follows s.driver
  | .closed _ => o.standing = .finished

/-- The outline once the loss of the stream connection was reported. -/
def lose (o : Outline) (reason : UnbindReason) (retry : Option ℕ) : Outline :=
  { o.settle reason with
    standing := if reason.isCleanLoop then .down true
      else if retry.isSome then .down false else .spent }

end Outline

namespace Drive

open Outline SessionDriver

variable {o : Outline} {d d' : SessionDriver} {s s' : Drive} {i : Input}

/-- The run can end wherever the driver stands. -/
theorem finish_shows (h : ∃ standing, o.standing.close = some standing ∧
      standing.finish = some .finished) (closed : SessionClosed) :
    ∃ o', Reads next d.trace o (finish d closed).driver.trace o' ∧
      o'.Shows (finish d closed) := by
  obtain ⟨standing, hclose, hfinish⟩ := h
  obtain ⟨b, ht⟩ := finish_trace d closed
  have hone : o.next .close = some { o with standing := standing } := by
    simp [next, hclose]
  have htwo : next { o with standing := standing } (.event (.closed closed) b) =
      some { o with standing := .finished } := by
    simp [next, hear, hfinish]
  refine ⟨{ o with standing := .finished }, ?_, rfl⟩
  rw [ht, List.append_cons]
  exact (Reads.one hone _).concat htwo

theorem finish_shows_of_isUp (h : o.standing.isUp = true) (closed : SessionClosed) :
    ∃ o', Reads next d.trace o (finish d closed).driver.trace o' ∧
      o'.Shows (finish d closed) := by
  refine finish_shows ⟨.shut, ?_, rfl⟩ closed
  cases hs : o.standing <;> rw [hs] at h <;> first | rfl | cases h

theorem openNext_shows {looped : Bool} {next : Reopen} (h : o.standing = .down looped)
    (ht : o.Tells d) (hp : d.Plans looped next.intent) :
    ∃ o', Reads Outline.next d.trace o (openNext d next).driver.trace o' ∧
      o'.Shows (openNext d next) := by
  obtain ⟨hexpects, hasked⟩ := hp.expects ht
  have hone : o.next (.openStream (d.buildOpen next.intent)) = some { o with
      standing := .up false
      asked := (d.buildOpen next.intent).recoveryFrom
      answered := false } := by
    simp [Outline.next, h, hexpects]
  have htells : Tells { o with
      standing := .up false
      asked := (d.buildOpen next.intent).recoveryFrom
      answered := false } (openNext d next).driver := ⟨ht.session, ht.position, ht.last⟩
  exact ⟨_, .one hone _, htells, rfl, hasked, rfl⟩

theorem reopen_shows {looped : Bool} {next : Reopen} (h : o.standing = .down looped)
    (ht : o.Tells d) (hp : d.Plans looped next.intent) :
    ∃ o', Reads Outline.next d.trace o (reopen d next).driver.trace o' ∧
      o'.Shows (reopen d next) := by
  unfold reopen
  split_ifs
  · exact openNext_shows h ht hp
  · exact ⟨o, .refl _ _ _, looped, h, ht, hp⟩

/-- The report of a loss: the transport is closed first, unless the loss is a clean one. -/
theorem unbound_reads (hup : o.standing.isUp = true) {reason : UnbindReason} (retry : Option ℕ)
    (hretry : reason.isCleanLoop = true → retry.isSome = true)
    (ht : d'.toSurroundings = (unbound d reason).toSurroundings) :
    Reads next d.trace o (d'.emit (.unbound reason retry)).trace (o.lose reason retry) := by
  obtain ⟨bound, hstand⟩ : ∃ bound, o.standing = .up bound := by
    cases hs : o.standing <;> rw [hs] at hup <;> first | exact ⟨_, rfl⟩ | cases hup
  have htrace : d'.trace = (unbound d reason).trace := congrArg Surroundings.trace ht
  have hemit : ∀ (q : Outline) (b : Bool), q.next (.event (.unbound reason retry) b) =
      (q.standing.unbind reason retry).map fun standing =>
        { q with
          standing := standing
          session := if reason.losesSession then none else q.session } :=
    fun _ _ => rfl
  cases hclean : reason.isCleanLoop with
  | true =>
    have hd : d'.trace = d.trace := by
      rw [htrace]
      simp [unbound, closeUnlessLooped, hclean]
    have hreport : ∀ b, o.next (.event (.unbound reason retry) b) =
        some (o.lose reason retry) := fun b => by
      rw [hemit, hstand]
      simp [Standing.unbind, hclean, hretry hclean, lose, settle]
    exact hd ▸ Reads.one (hreport _) _
  | false =>
    have hd : d'.trace = d.trace ++ [.close] := by
      rw [htrace]
      simp [unbound, closeUnlessLooped, hclean, act]
    have hclose : o.next .close = some { o with standing := .shut } := by
      simp [next, hstand, Standing.close]
    have hreport : ∀ b, next { o with standing := .shut } (.event (.unbound reason retry) b) =
        some (o.lose reason retry) := fun b => by
      rw [hemit]
      simp [Standing.unbind, hclean, lose, settle]
    have hread := (Reads.one hclose d.trace).concat (hreport (!d'.turn.interrupts.headD false))
    rwa [← hd] at hread

/-- The bottom of the loop. -/
theorem unbind_shows (hup : o.standing.isUp = true) {reason : UnbindReason}
    (ht : (o.settle reason).Tells d) :
    ∃ o', Reads next d.trace o (unbind d reason).driver.trace o' ∧
      o'.Shows (unbind d reason) := by
  have hlost : reason.losesSession = true → (unbound d reason).session = none := fun hl => by
    have hs := ht.session
    simp only [settle, hl, if_true] at hs
    simp [← hs]
  have hplanned : ∀ {next : Option Reopen} {d' : SessionDriver} (retry : Option ℕ),
      (unbound d reason).planAfter reason = (next, d') →
      d'.toSurroundings = (unbound d reason).toSurroundings ∧
        (o.lose reason retry).Tells (d'.emit (.unbound reason retry)) := by
    intro next d' retry hp
    have hsurr := planAfter_toSurroundings (unbound d reason) reason
    obtain ⟨backoff, streak, hl⟩ := planAfter_toLifecycle (unbound d reason) reason
    rw [hp] at hsurr hl
    dsimp only at hsurr hl
    rw [unbound_toLifecycle] at hl
    exact ⟨hsurr, ⟨by rw [emit_toLifecycle, hl]; exact ht.session,
      by rw [emit_toLifecycle, hl]; exact ht.position,
      by rw [emit_toLifecycle, hl]; exact ht.last⟩⟩
  obtain ⟨next, d', hp, hu⟩ | ⟨d', hp, hu⟩ := unbind_cases d reason
  · obtain ⟨hsurr, htells⟩ := hplanned (some next.delay) hp
    have hreads := unbound_reads hup (some next.delay) (fun _ => rfl) hsurr
    have hdown : (o.lose reason (some next.delay)).standing = .down reason.isCleanLoop := by
      cases hc : reason.isCleanLoop <;> simp [lose, hc]
    rcases hu with hu | hu
    · rw [hu]
      obtain ⟨o', hfinish, hshows⟩ := finish_shows (o := o.lose reason (some next.delay))
        (d := d'.emit _) ⟨.ending, by rw [hdown]; rfl, rfl⟩ stopped
      exact ⟨o', hreads.trans hfinish, hshows⟩
    · rw [hu]
      have hplans : (d'.emit (.unbound reason (some next.delay))).Plans reason.isCleanLoop
          next.intent := by
        obtain ⟨backoff, streak, hl⟩ := planAfter_toLifecycle (unbound d reason) reason
        rw [hp] at hl
        have h := planAfter_plans hlost hp
        unfold Plans at h ⊢
        rw [emit_toLifecycle, hl]
        exact h
      obtain ⟨o', hreopen, hshows⟩ := reopen_shows hdown htells hplans
      exact ⟨o', hreads.trans hreopen, hshows⟩
  · obtain ⟨hsurr, -⟩ := hplanned none hp
    have hdirty : reason.isCleanLoop = false := by
      by_contra hclean
      rw [planAfter_of_isCleanLoop _ (by simpa using hclean)] at hp
      cases hp
    rw [hu]
    obtain ⟨o', hfinish, hshows⟩ := finish_shows (o := o.lose reason none) (d := d'.emit _)
      ⟨.ending, by simp [lose, hdirty, Standing.close], rfl⟩ _
    exact ⟨o', (unbound_reads hup none (by simp [hdirty]) hsurr).trans hfinish, hshows⟩

/-- What the pump's turn leads to. -/
theorem afterPump_shows {r : Flow × SessionDriver} (h : o.Leaves r) :
    ∃ o', Reads next r.2.trace o (afterPump r).driver.trace o' ∧ o'.Shows (afterPump r) := by
  obtain hp | ⟨hr, -, hp⟩ | ⟨reason, hr, -, hp⟩ | ⟨closed, -, hp⟩ := afterPump_cases r
  · exact hp ▸ finish_shows_of_isUp h.up _
  · exact hp ▸ ⟨o, .refl _ _ _, h.continues hr⟩
  · exact hp ▸ unbind_shows h.up (h.unbinds reason hr)
  · exact hp ▸ finish_shows_of_isUp h.up _

/-- **One turn moves the outline.** -/
theorem step_shows (h : o.Shows s ∧ Settled s) (hstep : step s i = some s') :
    ∃ o', (o'.Shows s' ∧ Settled s') ∧ Reads next s.driver.trace o s'.driver.trace o' := by
  have hsettled := step_settled h.2 hstep
  suffices ∃ o', Reads next s.driver.trace o s'.driver.trace o' ∧ o'.Shows s' by
    obtain ⟨o', hreads, hshows⟩ := this
    exact ⟨o', ⟨hshows, hsettled⟩, hreads⟩
  have hpump : ∀ {o' : Outline} {r : Flow × SessionDriver},
      Reads next s.driver.trace o r.2.trace o' → o'.Leaves r →
      ∃ o', Reads next s.driver.trace o (afterPump r).driver.trace o' ∧ o'.Shows (afterPump r) :=
    fun hreads hleaves => by
      obtain ⟨o', hafter, hshows⟩ := afterPump_shows hleaves
      exact ⟨o', hreads.trans hafter, hshows⟩
  have hopen : s.phase = .opening ∨ s.phase = .pumping →
      o.Tells (s.driver.withTurn i.turn) ∧ o.Follows (s.driver.withTurn i.turn) := fun hphase => by
    have hs := h.1
    unfold Shows at hs
    obtain ⟨ht, hf⟩ : o.Tells s.driver ∧ o.Follows s.driver := by
      rcases hphase with hphase | hphase <;> rw [hphase] at hs <;> exact hs
    exact ⟨ht.of_eq rfl rfl rfl, hf.of_eq rfl rfl rfl⟩
  have hwait : ∀ {next : Reopen}, s.phase = .waiting next → ∃ looped, o.standing = .down looped ∧
      o.Tells (s.driver.withTurn i.turn) ∧ (s.driver.withTurn i.turn).Plans looped next.intent ∧
      s.driver.streamState = .establishing := fun {next} hphase => by
    have hs := h.1
    have hstate := h.2
    unfold Shows at hs
    unfold Settled at hstate
    rw [hphase] at hs hstate
    obtain ⟨looped, hstand, ht, hp⟩ := hs
    exact ⟨looped, hstand, ht.of_eq rfl rfl rfl, hp, hstate⟩
  cases step_turns hstep with
  | waitCommand next c hphase =>
    obtain ⟨looped, hstand, ht, hp, hstate⟩ := hwait hphase
    have hlistens : o.Listens := .inr (by rw [hstand]; rfl)
    have hcommand := reads_of_passes (onCommand_passes _ hlistens ht.session
      (fun hs => by rw [withTurn_toLifecycle, hstate] at hs; cases hs) c)
    have hfinish := fun closed => finish_shows (o := o)
      (d := ((s.driver.withTurn i.turn).onCommand c).2) ⟨.ending, by rw [hstand]; rfl, rfl⟩ closed
    obtain ⟨b, hl⟩ := (s.driver.withTurn i.turn).onCommand_toLifecycle c
    obtain ⟨closed, -, hw⟩ | hw | ⟨-, -, hw⟩ :=
      afterWait_cases next ((s.driver.withTurn i.turn).onCommand c)
    · rw [hw]
      obtain ⟨o', hreads, hshows⟩ := hfinish closed
      exact ⟨o', hcommand.trans hreads, hshows⟩
    · rw [hw]
      obtain ⟨o', hreads, hshows⟩ := hfinish stopped
      exact ⟨o', hcommand.trans hreads, hshows⟩
    · rw [hw]
      refine ⟨o, hcommand, looped, hstand, ht.of_eq (by rw [hl]) (by rw [hl]) (by rw [hl]), ?_⟩
      unfold Plans at hp ⊢
      rw [hl]
      exact hp
  | waitOver next hphase =>
    obtain ⟨looped, hstand, ht, hp, -⟩ := hwait hphase
    exact openNext_shows hstand ht hp
  | waitStop next hphase =>
    obtain ⟨looped, hstand, -⟩ := hwait hphase
    exact finish_shows ⟨.ending, by rw [hstand]; rfl, rfl⟩ stopped
  | opened hphase =>
    obtain ⟨ht, hf⟩ := hopen (.inl hphase)
    exact ⟨o, .refl _ _ _, ht.of_eq rfl rfl rfl, hf.of_eq rfl rfl rfl⟩
  | openFailed detail hphase =>
    obtain ⟨ht, hf⟩ := hopen (.inl hphase)
    exact unbind_shows hf.isUp (settle_of_not_losesSession
      (.connectionFailed detail) rfl ▸ ht)
  | openStop hphase => exact finish_shows_of_isUp (hopen (.inl hphase)).2.isUp stopped
  | line text hphase =>
    obtain ⟨ht, hf⟩ := hopen (.inr hphase)
    obtain ⟨o', hreads, hleaves⟩ := onLine_leaves ht hf text
    exact hpump hreads hleaves
  | command c hphase =>
    obtain ⟨ht, hf⟩ := hopen (.inr hphase)
    obtain ⟨hpasses, hleaves⟩ := onCommand_leaves ht hf c
    exact hpump (reads_of_passes hpasses) hleaves
  | timer hphase =>
    obtain ⟨ht, hf⟩ := hopen (.inr hphase)
    obtain ⟨hpasses, hleaves⟩ := onTimer_leaves ht hf
    exact hpump (reads_of_passes hpasses) hleaves
  | interrupted flow hphase hw =>
    obtain ⟨ht, hf⟩ := hopen (.inr hphase)
    refine hpump (.refl _ _ _) ?_
    have hlost : ∀ detail, o.Leaves (.unbind (.connectionFailed detail),
        s.driver.withTurn i.turn) := fun detail => .of_unbind hf.isUp
      (settle_of_not_losesSession (.connectionFailed detail) rfl ▸ ht)
    obtain ⟨detail, -, rfl⟩ | ⟨-, rfl⟩ | ⟨-, rfl⟩ := hw
    · exact hlost detail
    · unfold onStreamEnd
      split_ifs
      · exact .of_closed hf.isUp _
      · exact .of_unbind hf.isUp (settle_of_not_losesSession
          (.pollCycleExpired 0) rfl ▸ ht)
      · exact hlost _
    · exact .of_closed hf.isUp _

theorem start_shows (properties : TransportProperties) (options : SessionOptions) (seed : UInt64)
    (now : ℕ) : ∃ o, o.Shows (start properties options seed now) ∧
      Reads next [] .start (start properties options seed now).driver.trace o := by
  obtain ⟨o, hreads, hshows⟩ := @reopen_shows .start (.new properties options seed now) false
    ⟨.create, 0⟩ rfl ⟨rfl, rfl, nofun⟩ rfl
  exact ⟨o, hshows, hreads⟩

theorem exec_shows {properties : TransportProperties} {options : SessionOptions} {seed : UInt64}
    {now : ℕ} {inputs : List Input}
    (h : exec step (start properties options seed now) inputs = some s) :
    ∃ o, exec next .start s.driver.trace = some o ∧ o.Shows s := by
  obtain ⟨o, hshows, hstart⟩ := start_shows properties options seed now
  obtain ⟨o', ⟨hshows', -⟩, hreads⟩ := exec_reads (R := fun o s => Shows o s ∧ Settled s)
    (fun s => s.driver.trace) (fun _ _ _ _ hs hstep => step_shows hs hstep)
    ⟨hshows, reopen_settled rfl _⟩ h
  obtain ⟨t, ht, haccept⟩ := hstart.trans hreads
  exact ⟨o', by rw [ht]; exact haccept, hshows'⟩

/-- **The driver conforms to its outline.** The history of every run is accepted, and the outline
that it leads to shows where the driver is. -/
theorem Reachable.conforms {properties : TransportProperties} {options : SessionOptions}
    (h : Reachable properties options s) :
    ∃ o, exec next .start s.driver.trace = some o ∧ o.Shows s := by
  obtain ⟨seed, now, inputs, h⟩ := h
  exact exec_shows h

/-- A session that was recovered and then replaced. -/
theorem conforms_loopedThenLost :
    ∃ s, exec step (start ⟨true, false, false⟩ .default 1 0) loopedThenLost = some s ∧
      ∃ o, exec next .start s.driver.trace = some o ∧ o.Shows s := by
  have h : exec step (start ⟨true, false, false⟩ .default 1 0) loopedThenLost = some _ := rfl
  exact ⟨_, h, Reachable.conforms ⟨1, 0, loopedThenLost, h⟩⟩

/-- **Everything goes in turn.** In every run, stream connections are opened one at a time, the loss
of each is reported once, the transport is closed before the report of a loss that is not a clean
one, and nothing follows the end of the run. -/
theorem Reachable.inTurn {properties : TransportProperties} {options : SessionOptions}
    (h : Reachable properties options s) {k : ℕ} {a : Action} (hk : s.driver.trace[k]? = some a) :
    InTurn (s.driver.trace.take k) (s.driver.trace.drop (k + 1)) a := by
  obtain ⟨seed, now, inputs, h⟩ := h
  obtain ⟨o, ho, -⟩ := exec_shows h
  exact inTurn_of_accepts ho hk

theorem inTurn_loopedThenLost :
    ∃ s, exec step (start ⟨true, false, false⟩ .default 1 0) loopedThenLost = some s ∧
      ∃ a, s.driver.trace[3]? = some a ∧ a.loss.isSome = true ∧
        InTurn (s.driver.trace.take 3) (s.driver.trace.drop 4) a := by
  have h : exec step (start ⟨true, false, false⟩ .default 1 0) loopedThenLost = some _ := rfl
  exact ⟨_, h, _, rfl, rfl, Reachable.inTurn ⟨1, 0, loopedThenLost, h⟩ rfl⟩

end Drive

end Lightstreamer.Session
