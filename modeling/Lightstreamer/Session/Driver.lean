import Lightstreamer.Session.Registry

/-!
# The session driver

The functions of the session state machine, from the ones that touch the surroundings (`emit`,
`send`) over control requests (`dispatch`, the commands) and server lines (`onNotification`) to the
plan for the next stream connection (`planAfter`). A function takes the driver and gives it back;
`Drive.step` runs them in the order of the driver's loop.

The driver's fields come in three groups, so that one lemma says which group an operation leaves
alone: the lifecycle of the session, the bookkeeping of requests, and the surroundings.
-/

namespace Lightstreamer.Session

open Lightstreamer.Foundations Lightstreamer.Protocol Lightstreamer.Subscription

/-! ## The state of the driver -/

/-- Where the session stands. -/
structure Lifecycle where
  properties : TransportProperties
  options : SessionOptions
  streamState : StreamState
  intent : OpenIntent
  session : Option SessionId
  previousSession : Option SessionId
  progressive : ℕ
  skipRemaining : ℕ
  progHonoured : Bool
  generation : ℕ
  destroyRequested : Bool
  refreshStreak : ℕ
  heartbeatFailures : ℕ
  negotiatedKeepAlive : Option ℕ
  backoff : Backoff
  deriving DecidableEq

/-- The desired subscriptions, the control requests in flight and the liveness clocks. -/
structure Desk where
  registry : Registry
  pending : OrdMap String Pending
  nextRequestId : ℕ
  forceRebindOutstanding : Bool
  liveness : Liveness
  deriving DecidableEq

/-- What the surroundings answer, and what was done to them. -/
structure Surroundings where
  stopping : Bool
  turn : Turn
  trace : List Action
  deriving DecidableEq

structure SessionDriver extends Lifecycle, Desk, Surroundings
  deriving DecidableEq

/-- How many heartbeats may fail in a row before the connection is given up. -/
abbrev maxHeartbeatFailures : ℕ := 3

namespace SessionDriver

/-- `SessionDriver::new`, at a reading of the clock and with a seed for the jitter. -/
def new (properties : TransportProperties) (options : SessionOptions) (seed : UInt64) (now : ℕ) :
    SessionDriver where
  properties := properties
  options := options
  streamState := .establishing
  intent := .create
  session := none
  previousSession := none
  progressive := 0
  skipRemaining := 0
  progHonoured := false
  generation := 1
  destroyRequested := false
  refreshStreak := 0
  heartbeatFailures := 0
  negotiatedKeepAlive := none
  backoff := .new options.backoff seed
  registry := .new
  pending := .empty
  nextRequestId := 1
  forceRebindOutstanding := false
  liveness := .new options.keepaliveSlack options.heartbeatInterval now
  stopping := false
  turn := {}
  trace := []

/-! ## The surroundings -/

/-- Record an action. -/
def act (d : SessionDriver) (action : Action) : SessionDriver :=
  { d with trace := d.trace ++ [action] }

/-- Read the clock and put the reading into the liveness clocks. -/
def clocked (d : SessionDriver) (f : ℕ → Liveness) : SessionDriver :=
  { d with
    liveness := f (d.turn.clock.headD 0)
    turn := { d.turn with clock := d.turn.clock.tail } }

/-- Publish an event. An ordered stop abandons an event that the channel has no room for, and marks
the driver as unwinding. -/
def emit (d : SessionDriver) (event : SessionEvent) : SessionDriver :=
  let interrupted := d.turn.interrupts.headD false
  { d with
    stopping := d.stopping || interrupted
    turn := { d.turn with interrupts := d.turn.interrupts.tail }
    trace := d.trace ++ [.event event (!interrupted)] }

/-- Hand an encoded request to the transport, and give the error it reports, if any. -/
def send (d : SessionDriver) (request : ControlRequest) (kind : Option PendingKind)
    (parameters : String) : Option String × SessionDriver :=
  let error := d.turn.sends.headD none
  (error, { d with
    turn := { d.turn with sends := d.turn.sends.tail }
    trace := d.trace ++ [.control request kind parameters error] })

/-! ## Sending -/

/-- The next request id, or `none` once the space is exhausted. -/
def takeRequestId (d : SessionDriver) : Option (RequestId × SessionDriver) :=
  (checkedAdd u64Max d.nextRequestId 1).map fun next =>
    (.fromProgressive d.nextRequestId, { d with nextRequestId := next })

def requestIdsExhausted : String := "the request-id space is exhausted"

/-- Report that a request could not be given an id. -/
def reportIdExhaustion (d : SessionDriver) (target : ControlTarget) : SessionDriver :=
  d.emit (.controlResponse none target (.notSent requestIdsExhausted))

def controlKind (d : SessionDriver) : TransportKind :=
  if d.properties.controlSharesStream then .webSocket else .http

/-- Encode and send a control request, recording it for correlation. Says whether it reached the
transport. -/
def dispatch (d : SessionDriver) (request : ControlRequest) (requestId : RequestId)
    (kind : PendingKind) : Bool × SessionDriver :=
  match request.encodeParameters d.controlKind with
  | .error error =>
    (false, d.emit (.controlResponse (some requestId) kind.target (.notSent error.display)))
  | .ok parameters =>
    let d := { d with pending := d.pending.insert requestId.text ⟨kind, d.generation⟩ }
    let sent := d.send request (some kind) parameters
    match sent.1 with
    | none => (true, sent.2.clocked sent.2.liveness.onOutbound)
    | some error =>
      let d := { sent.2 with pending := sent.2.pending.erase requestId.text }
      (false, d.emit (.controlResponse (some requestId) kind.target (.notSent error)))

/-- Encode and send a heartbeat, and give what went wrong. -/
def attemptHeartbeat (d : SessionDriver) : Option String × SessionDriver :=
  match (ControlRequest.heartbeat ⟨d.session⟩).encodeParameters d.controlKind with
  | .error error => (some error.display, d)
  | .ok parameters => d.send (.heartbeat ⟨d.session⟩) none parameters

/-- Count a heartbeat that failed, and give the connection up after too many in a row. -/
def settleHeartbeat (d : SessionDriver) : Option String → Flow × SessionDriver
  | none => (.continue, { d with heartbeatFailures := 0 })
  | some detail =>
    let failures := saturatingAdd u32Max d.heartbeatFailures 1
    if maxHeartbeatFailures ≤ failures then
      (.unbind (.connectionFailed (s!"the outbound heartbeat failed {maxHeartbeatFailures} " ++
        s!"times in a row: {detail}")), { d with heartbeatFailures := 0 })
    else (.continue, { d with heartbeatFailures := failures })

/-- Send a heartbeat. The outbound clock moves whether or not it could be sent. -/
def sendHeartbeat (d : SessionDriver) : Flow × SessionDriver :=
  let attempt := d.attemptHeartbeat
  settleHeartbeat (attempt.2.clocked attempt.2.liveness.onOutbound) attempt.1

/-! ## Subscriptions -/

/-- The `add` request of a subscription. -/
def subscribeRequest (session : SessionId) (requestId : RequestId) (subId : NonZeroU32)
    (spec : SubscriptionSpec) : Subscribe where
  session := some session
  requestId := requestId
  subscriptionId := subId
  group := spec.group
  schema := spec.schema
  mode := spec.mode
  dataAdapter := spec.dataAdapter
  selector := spec.selector
  requestedBufferSize := spec.requestedBufferSize
  requestedMaxFrequency := spec.requestedMaxFrequency
  snapshot := spec.snapshot
  ack := none

/-- Send the `add` of a subscription that has just been bound to `subId`. A binding whose request
did not leave is released; the id is not used again. -/
def sendSubscribe (d : SessionDriver) (session : SessionId) (key : SubscriptionKey)
    (subId : NonZeroU32) (entry : RegistryEntry) : Option ResubscribedEntry × SessionDriver :=
  match d.takeRequestId with
  | none =>
    let d := { d with registry := d.registry.release key subId }
    (none, d.reportIdExhaustion (.subscription key .subscribe))
  | some (requestId, d) =>
    let sent := d.dispatch (.subscribe (subscribeRequest session requestId subId entry.spec))
      requestId (.subscribe key)
    if sent.1 then (some ⟨key, subId, entry.wasActive, entry.spec.wantsSnapshot⟩, sent.2)
    else (none, { sent.2 with registry := sent.2.registry.release key subId })

/-- Send one `add` for a subscription that has no binding yet. -/
def issueSubscription (d : SessionDriver) (key : SubscriptionKey) :
    Option ResubscribedEntry × SessionDriver :=
  match d.session with
  | none => (none, d)
  | some session =>
    match d.registry.allocate with
    | none => (none, d)
    | some (subId, registry) =>
      match registry.entries.get? key with
      | none => (none, { d with registry := registry })
      | some entry =>
        let d := { d with registry := registry.bind key subId }
        d.sendSubscribe session key subId entry

/-- Issue the subscriptions with the given keys, and collect the ones that left. -/
def issueAll (d : SessionDriver) : List SubscriptionKey → List ResubscribedEntry × SessionDriver
  | [] => ([], d)
  | key :: keys =>
    let issue := d.issueSubscription key
    let rest := issue.2.issueAll keys
    (issue.1.toList ++ rest.1, rest.2)

/-- Issue every subscription that has no binding in the current session. -/
def issueUnboundSubscriptions (d : SessionDriver) : SessionDriver :=
  let issue := d.issueAll d.registry.unboundKeys
  if issue.1.isEmpty then issue.2 else issue.2.emit (.resubscribed issue.1)

/-! ## Commands -/

/-- Add a subscription, and issue it at once when a session is bound. -/
def subscribe (d : SessionDriver) (key : SubscriptionKey) (spec : SubscriptionSpec) :
    SessionDriver :=
  let d := { d with registry := d.registry.want key spec }
  if d.streamState = .bound then (d.issueSubscription key).2 else d

/-- Remove a subscription. One without a binding is simply forgotten. -/
def unsubscribe (d : SessionDriver) (key : SubscriptionKey) : SessionDriver :=
  match d.registry.entries.get? key with
  | none => d
  | some entry =>
    match entry.wire with
    | none =>
      { d with registry := d.registry.forget key }
    | some subId =>
      let d := { d with registry := d.registry.markRemoving key }
      match d.session with
      | none => d
      | some session =>
        match d.takeRequestId with
        | none => d.reportIdExhaustion (.subscription key .unsubscribe)
        | some (requestId, d) =>
          (d.dispatch (.unsubscribe ⟨some session, requestId, subId, none⟩) requestId
            (.unsubscribe key)).2

/-- Ask for another frequency ceiling. The desired state changes only when the server accepts. -/
def reconfigure (d : SessionDriver) (key : SubscriptionKey) (maxFrequency : MaxFrequencyLimit) :
    SessionDriver :=
  match (d.registry.entries.get? key).bind RegistryEntry.wire, d.session with
  | some subId, some session =>
    match d.takeRequestId with
    | none => d.reportIdExhaustion (.subscription key .reconfigure)
    | some (requestId, d) =>
      (d.dispatch (.reconfigure ⟨some session, requestId, subId, some maxFrequency⟩) requestId
        (.reconfigure key maxFrequency)).2
  | _, _ => d

/-- Send one message, or report at once that it could not be sent. -/
def sendMessage (d : SessionDriver) (message : OutgoingMessage) : SessionDriver :=
  let sequence := message.identity.1
  let prog := message.identity.2
  match d.streamState, d.session with
  | .bound, some session =>
    match d.takeRequestId with
    | none =>
      (d.reportIdExhaustion .session).emit
        (.message none sequence prog (.notSent requestIdsExhausted))
    | some (requestId, d) =>
      let request : MessageSend := ⟨some session, requestId, message.message, message.sequence,
        message.msgProg, message.maxWaitMillis, none, message.outcome⟩
      let sent := d.dispatch (.messageSend request) requestId (.sendMessage sequence prog)
      if sent.1 then sent.2
      else sent.2.emit
        (.message none sequence prog (.notSent "the message request could not be sent"))
  | _, _ =>
    d.emit (.message none sequence prog (.notSent "no session is bound to send the message on"))

/-- Ask the server to unbind the session. The `LOOP` may arrive before the response. -/
def forceRebind (d : SessionDriver) (closeSocket : Option Bool) : SessionDriver :=
  match d.streamState, d.session with
  | .bound, some session =>
    match d.takeRequestId with
    | none => d.reportIdExhaustion .session
    | some (requestId, d) =>
      let d := { d with forceRebindOutstanding := true }
      (d.dispatch (.forceRebind ⟨some session, requestId, none, closeSocket⟩) requestId
        .forceRebind).2
  | _, _ => d

/-- The end of a run that the client asked for. -/
abbrev stopped : SessionClosed := .byClient false none

/-- Destroy the session, and wait for the `END` when one is promised. -/
def destroy (d : SessionDriver) (cause : Option DestroyCause) : Flow × SessionDriver :=
  match d.session with
  | none => (.closed stopped, d)
  | some session =>
    match d.takeRequestId with
    | none => (.closed (.internal requestIdsExhausted), d.reportIdExhaustion .session)
    | some (requestId, d) =>
      let d := { d with destroyRequested := true }
      let sent := d.dispatch (.destroy ⟨some session, requestId, cause, none⟩) requestId .destroy
      (if d.streamState = .bound ∧ sent.1 then .continue else .closed stopped, sent.2)

def onCommand (d : SessionDriver) : SessionCommand → Flow × SessionDriver
  | .subscribe key spec => (.continue, d.subscribe key spec)
  | .unsubscribe key => (.continue, d.unsubscribe key)
  | .reconfigure key maxFrequency => (.continue, d.reconfigure key maxFrequency)
  | .sendMessage message => (.continue, d.sendMessage message)
  | .forceRebind closeSocket => (.continue, d.forceRebind closeSocket)
  | .destroy cause => d.destroy cause
  | .shutdown => (.closed stopped, d)

/-! ## Responses to control requests -/

/-- Take the pending request a response names, if it belongs to the current session. -/
def takePending (d : SessionDriver) (requestId : String) : Option PendingKind × SessionDriver :=
  match d.pending.get? requestId with
  | none => (none, d)
  | some pending =>
    (if pending.generation = d.generation then some pending.kind else none,
      { d with pending := d.pending.erase requestId })

/-- What an accepted request changes: everything but a frequency is reported by the notification
that follows the acceptance. -/
def acceptRequest (d : SessionDriver) : Option PendingKind → SessionDriver
  | some (.reconfigure key maxFrequency) =>
    { d with registry := d.registry.commitFrequency key maxFrequency }
  | _ => d

/-- Report the response to a request. -/
def respond (d : SessionDriver) (requestId : String) (kind : Option PendingKind)
    (outcome : ControlOutcome) : SessionDriver :=
  let target := (kind.map PendingKind.target).getD .session
  d.emit (.controlResponse (RequestId.tryNew requestId).toOption target outcome)

/-- Handle `REQOK`. -/
def onRequestOk (d : SessionDriver) : Option String → SessionDriver
  | none => d
  | some requestId =>
    let taken := d.takePending requestId
    (taken.2.acceptRequest taken.1).respond requestId taken.1 .accepted

/-- Undo what a refused request had recorded. -/
def undoRequest (d : SessionDriver) (cause : ServerCause) : Option PendingKind → SessionDriver
  | some (.subscribe key) => { d with registry := d.registry.drop key }
  | some (.unsubscribe key) => { d with registry := d.registry.keep key }
  | some (.sendMessage sequence prog) => d.emit (.message none sequence prog (.refused cause))
  | some .forceRebind => { d with forceRebindOutstanding := false }
  | some .destroy => { d with destroyRequested := false }
  | some (.reconfigure ..) | none => d

/-- Handle `REQERR`. -/
def onRequestError (d : SessionDriver) (requestId : String) (cause : ServerCause) :
    SessionDriver :=
  let taken := d.takePending requestId
  (taken.2.undoRequest cause taken.1).respond requestId taken.1 (.rejected cause)

/-- Retire one request of a session that has been replaced. -/
def retireOne (d : SessionDriver) (requestId : String) (kind : PendingKind) : SessionDriver :=
  let d := match kind with
    | .forceRebind => { d with forceRebindOutstanding := false }
    | .sendMessage sequence prog =>
      d.emit (.message none sequence prog
        (.notSent "the session the message was sent on was replaced"))
    | _ => d
  d.emit (.controlResponse (RequestId.tryNew requestId).toOption kind.target
    (.notSent "the session the request was issued on was replaced"))

/-- Retire requests in turn. -/
def retireAll (d : SessionDriver) : List (String × Pending) → SessionDriver
  | [] => d
  | p :: stale => (d.retireOne p.1 p.2.kind).retireAll stale

/-- Retire every control request issued by a session that has been replaced. -/
def retireStalePending (d : SessionDriver) : SessionDriver :=
  let stale := d.pending.filter fun _ pending => pending.generation ≠ d.generation
  let d := { d with pending := d.pending.filter fun _ pending => pending.generation = d.generation }
  d.retireAll (arrange d.turn.drain stale.toList)

/-! ## Data notifications -/

/-- The wire id a notification names, if it is one of a subscription. -/
def subscriptionId : Notification → Option ℕ
  | .update id .. | .subscriptionOk id .. | .subscriptionCommandOk id .. | .unsubscribed id
  | .endOfSnapshot id .. | .clearSnapshot id .. | .overflow id ..
  | .subscriptionReconfigured id .. => some id
  | _ => none

/-- The wire id a notification names and its key, when this session knows it. -/
def resolveSubscription (d : SessionDriver) (notification : Notification) :
    Option (ℕ × SubscriptionKey) := do
  let subId ← subscriptionId notification
  let key ← d.registry.bySubId.get? subId
  return (subId, key)

/-- What a notification does to the registry, once the manager of its entry has seen it. -/
def registryAfter (registry : Registry) (subId : ℕ) (key : SubscriptionKey)
    (manager : SubscriptionManager) : Notification → Registry
  | .subscriptionOk .. | .subscriptionCommandOk .. => (registry.setManager key manager).activate key
  | .unsubscribed _ => registry.remove key subId
  | _ => registry.setManager key manager

/-- Apply a notification to the subscription it names: the event that goes to the caller, if any.
The manager sees the line before the registry acts on it. -/
def interpretForSubscription (d : SessionDriver) (progressive : ℕ) (notification : Notification) :
    Option SessionEvent × SessionDriver :=
  match d.resolveSubscription notification with
  | none => (none, d)
  | some (subId, key) =>
    match d.registry.entries.get? key with
    | none => (none, d)
    | some entry =>
      let handled := entry.manager.handle notification
      (handled.1.map (.subscription progressive key),
        { d with registry := registryAfter d.registry subId key handled.2 notification })

/-- Apply a notification to the subscription it names, and tell the caller. -/
def notifySubscription (d : SessionDriver) (notification : Notification) : SessionDriver :=
  let interpreted := d.interpretForSubscription d.progressive notification
  match interpreted.1 with
  | some event => interpreted.2.emit event
  | none => interpreted.2

/-- Pass a counted data notification on to the caller's side. -/
def deliver (d : SessionDriver) (notification : Notification) : SessionDriver :=
  let d := d.act (.data d.progressive notification)
  match notification with
  | .messageDone sequence prog response =>
    d.emit (.message (some d.progressive) sequence (some prog) (.done response))
  | .messageFailed sequence prog code message =>
    d.emit (.message (some d.progressive) sequence (some prog) (.failed ⟨code, message⟩))
  | notification => d.notifySubscription notification

/-- Count a data notification and pass it on, unless it is a duplicate to discard. -/
def onData (d : SessionDriver) (notification : Notification) : SessionDriver :=
  let d := { d with refreshStreak := 0 }
  if 0 < d.skipRemaining then { d with skipRemaining := d.skipRemaining - 1 }
  else
    let progressive := (checkedAdd u64Max d.progressive 1).getD d.progressive
    deliver { d with progressive := progressive } notification

/-! ## Session notifications -/

/-- How the session that a `CONOK` names came to be bound, given the one bound before. -/
def bindKind (intent : OpenIntent) (previous : Option SessionId) (sessionId : SessionId) :
    BindKind :=
  match intent with
  | .rebind => if previous = some sessionId then .rebound else .recreated previous
  | .recover requested =>
    if previous = some sessionId then .recovering requested else .recreated previous
  | .create =>
    match previous with
    | some previous => .recreated (some previous)
    | none => .created

/-- Start over for a new session. -/
def freshSession (d : SessionDriver) : SessionDriver :=
  retireStalePending { d with
    progressive := 0
    skipRemaining := 0
    registry := d.registry.resetForNewSession
    generation := saturatingAdd u64Max d.generation 1 }

/-- Take note of the session that a `CONOK` names, and start over when it is a new one. -/
def enterSession (d : SessionDriver) (sessionId : SessionId) (keepAlive : ℕ)
    (controlLink : Option String) (kind : BindKind) : SessionDriver :=
  let d := { d with streamState := .bound }
  let d := d.clocked (d.liveness.onBound keepAlive)
  let d := { d with negotiatedKeepAlive := some keepAlive, backoff := d.backoff.reset }
  let d := d.act (.setControlLink controlLink)
  let d := { d with session := some sessionId, previousSession := none }
  if kind.isFresh then d.freshSession else d

/-- Handle `CONOK`. -/
def onConok (d : SessionDriver) (sessionId : SessionId) (requestLimitBytes keepAlive : ℕ)
    (controlLink : Option String) : SessionDriver :=
  let kind := bindKind d.intent (d.session <|> d.previousSession) sessionId
  let d := d.enterSession sessionId keepAlive controlLink kind
  let d := d.emit (.bound ⟨sessionId, kind, keepAlive, requestLimitBytes, controlLink⟩)
  d.issueUnboundSubscriptions

/-- The session is lost, but its id is kept for the report of what replaces it. -/
def abandonSession (d : SessionDriver) : SessionDriver :=
  { d with previousSession := d.session, session := none }

/-- Handle `CONERR`. -/
def onConerr (d : SessionDriver) (cause : ServerCause) : Flow × SessionDriver :=
  match classify cause.code with
  | .fatal => (.closed (.byServer cause), d)
  | .recreateSession | .retryLater => (.unbind (.rejected cause), d.abandonSession)

/-- Handle `END`. -/
def onEnd (d : SessionDriver) (cause : ServerCause) : Flow × SessionDriver :=
  if d.destroyRequested then (.closed (.byClient true (some cause)), d)
  else match classify cause.code with
    | .recreateSession => (.unbind (.serverRefresh cause), d.abandonSession)
    | .retryLater => (.unbind (.rejected cause), d.abandonSession)
    | .fatal => (.closed (.byServer cause), d)

/-- Attribute a `LOOP` to the transition that caused it. -/
def loopReason (d : SessionDriver) (expectedDelay : ℕ) : UnbindReason × SessionDriver :=
  if d.forceRebindOutstanding then
    (.forcedByClient expectedDelay, { d with forceRebindOutstanding := false })
  else if d.properties.isPolling then (.pollCycleExpired expectedDelay, d)
  else if d.properties.endsOnContentLength then (.contentLengthReached expectedDelay, d)
  else (.looped expectedDelay, d)

/-- Handle `PROG`: only the first one that answers a recovery is obeyed. -/
def onProg (d : SessionDriver) (resumedAt : ℕ) : SessionDriver :=
  match d.intent with
  | .recover requested =>
    if d.progHonoured then d
    else
      let d := { d with progHonoured := true }
      if resumedAt = requested then d.emit (.recovered ⟨requested, resumedAt, .exact⟩)
      else if resumedAt < requested then
        let d := { d with skipRemaining := requested - resumedAt }
        d.emit (.recovered ⟨requested, resumedAt, .duplicated (requested - resumedAt)⟩)
      else
        let d := { d with progressive := resumedAt }
        d.emit (.recovered ⟨requested, resumedAt, .gap (resumedAt - requested)⟩)
  | _ => d

/-- The state machine proper. -/
def onNotification (d : SessionDriver) (notification : Notification) : Flow × SessionDriver :=
  match notification with
  | .connectionOk sessionId requestLimitBytes keepAliveMillis controlLink =>
    (.continue, d.onConok sessionId requestLimitBytes (ofMillis keepAliveMillis) controlLink)
  | .connectionError code message => d.onConerr ⟨code, message⟩
  | .end causeCode causeMessage => d.onEnd ⟨causeCode, causeMessage⟩
  | .loop expectedDelayMillis =>
    let looped := d.loopReason (ofMillis expectedDelayMillis)
    (.unbind looped.1, looped.2)
  | .progressive progressive => (.continue, d.onProg progressive)
  | .requestOk requestId => (.continue, d.onRequestOk requestId)
  | .requestError requestId code message =>
    (.continue, d.onRequestError requestId ⟨code, message⟩)
  | .error code message =>
    (.continue, d.emit (.controlResponse none .session (.rejected ⟨code, message⟩)))
  | .probe | .noOp _ | .wsOk => (.continue, d)
  | .sync elapsedSeconds => (.continue, d.emit (.serverInfo (.clock elapsedSeconds)))
  | .clientIp address => (.continue, d.emit (.serverInfo (.clientIp address)))
  | .serverName name => (.continue, d.emit (.serverInfo (.name name)))
  | .constraintsChanged bandwidth => (.continue, d.emit (.serverInfo (.bandwidth bandwidth)))
  | data => (.continue, d.onData data)

/-- One line from the server. A line that does not parse is reported and not counted. -/
def onLine (d : SessionDriver) (line : String) : Flow × SessionDriver :=
  let d := d.clocked d.liveness.onInbound
  match parseLine line with
  | .ok notification => d.onNotification notification
  | .error error => (.continue, d.emit (.unparsed line error))

/-! ## Timers and plans -/

/-- The stream connection ended with no `LOOP` and no error. -/
def onStreamEnd (d : SessionDriver) : Flow :=
  if d.destroyRequested then .closed stopped
  else if d.properties.isPolling then .unbind (.pollCycleExpired 0)
  else .unbind (.connectionFailed "stream connection closed by the peer")

/-- A liveness deadline fell due. -/
def onTimer (d : SessionDriver) : Flow × SessionDriver :=
  let action := d.liveness.due (d.turn.clock.headD 0)
  let d := d.clocked fun _ => d.liveness
  match action with
  | .idle => (.continue, d)
  | .sendHeartbeat => d.sendHeartbeat
  | .inboundStalled budget =>
    match d.streamState with
    | .establishing => (.unbind (.connectionFailed
        s!"no response to the stream-opening request within {durationDebug budget}"), d)
    | .bound => (.unbind (.keepaliveExpired budget), d)

/-- How long a stream connection may take to be established. -/
def establishmentBudget (d : SessionDriver) : ℕ :=
  match d.options.connection with
  | .streaming .. => d.options.openTimeout
  | .polling _ idleMillis =>
    let requested := ofMillis (idleMillis.getD 0)
    let idle := max (d.negotiatedKeepAlive.getD requested) requested
    (checkedAdd durationMax d.options.openTimeout idle).getD durationMax

/-- The request that opens the next stream connection: a bind needs a session to name. -/
def buildOpen (d : SessionDriver) (intent : OpenIntent) : StreamOpen :=
  match d.session, intent with
  | some session, .recover requested =>
    .bind ⟨some session, some requested, d.options.contentLength, d.options.connection, none⟩
  | some session, .rebind =>
    .bind ⟨some session, none, d.options.contentLength, d.options.connection, none⟩
  | _, _ =>
    let credentials := d.options.credentials
    .create ⟨credentials.user, credentials.password, credentials.adapterSet, none,
      d.options.contentLength, d.options.connection, none, none⟩

/-- Reopen with `intent` after the next delay of the backoff, if its budget allows. -/
def reopenLater (d : SessionDriver) (intent : OpenIntent) : Option Reopen × SessionDriver :=
  let next := d.backoff.nextDelay
  (next.1.map fun delay => ⟨intent, delay⟩, { d with backoff := next.2 })

/-- Choose what to open after an unbind, and how long to wait first. -/
def planAfter (d : SessionDriver) (reason : UnbindReason) : Option Reopen × SessionDriver :=
  match reason with
  | .forcedByClient delay | .contentLengthReached delay | .pollCycleExpired delay
  | .looped delay =>
    (some ⟨.rebind, delay⟩, { d with backoff := d.backoff.reset, refreshStreak := 0 })
  | .connectionFailed _ | .keepaliveExpired _ =>
    let d := { d with refreshStreak := 0 }
    d.reopenLater (if d.session.isSome then .recover d.progressive else .create)
  | .rejected _ => reopenLater { d with refreshStreak := 0 } .create
  | .serverRefresh _ =>
    let d := { d with refreshStreak := saturatingAdd u32Max d.refreshStreak 1 }
    if d.refreshStreak ≤ 1 then
      (some ⟨.create, 0⟩, { d with backoff := d.backoff.reset })
    else if d.options.backoff.maxAttempts.any fun max => max.val < d.refreshStreak then (none, d)
    else d.reopenLater .create

end SessionDriver

end Lightstreamer.Session
