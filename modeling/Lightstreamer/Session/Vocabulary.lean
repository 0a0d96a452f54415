import Lightstreamer.Session.Liveness
import Lightstreamer.Subscription.Manager

/-!
# What the session layer publishes and accepts

The options it is given, the commands it takes, the events it emits and the terms they are made of:
how a session came to be bound (`BindKind`), where a recovery resumed (`RecoveryOutcome`), why a
stream connection was lost (`UnbindReason`) and why the session ended (`SessionClosed`).
`classify` says what an error code leaves the client able to do.
-/

namespace Lightstreamer.Session

open Lightstreamer.Protocol Lightstreamer.Subscription

/-- A server-assigned session identifier, opaque to the client. -/
abbrev SessionId := String

/-- A caller-facing handle on one subscription, which outlives the session. -/
abbrev SubscriptionKey := ℕ

/-! ## Options -/

structure Credentials where
  user : Option String
  password : Option String
  adapterSet : Option String
  deriving DecidableEq

structure SessionOptions where
  credentials : Credentials
  connection : ConnectionMode
  contentLength : Option ℕ
  keepaliveSlack : ℕ
  openTimeout : ℕ
  backoff : BackoffPolicy
  deriving DecidableEq

namespace SessionOptions

def isPolling (o : SessionOptions) : Bool :=
  match o.connection with
  | .polling .. => true
  | .streaming .. => false

/-- How often to send a heartbeat: half the inactivity commitment, if one was made. -/
def heartbeatInterval (o : SessionOptions) : Option ℕ :=
  match o.connection with
  | .streaming inactivityMillis .. => inactivityMillis.map fun millis => ofMillis millis / 2
  | .polling .. => none

/-- The defaults of the crate. -/
def default : SessionOptions where
  credentials := ⟨none, none, none⟩
  connection := .streaming none none none
  contentLength := none
  keepaliveSlack := ofMillis 3000
  openTimeout := ofMillis 10000
  backoff := ⟨ofMillis 500, ofMillis 30000, some ⟨8, by decide, by decide⟩⟩

end SessionOptions

/-- What a transport does that the state machine must account for. -/
structure TransportProperties where
  controlSharesStream : Bool
  endsOnContentLength : Bool
  isPolling : Bool
  deriving DecidableEq

/-- The request that opens a stream connection. -/
inductive StreamOpen
  | create (r : CreateSession)
  | bind (r : BindSession)
  deriving DecidableEq

/-! ## What the caller asks for -/

/-- A desired subscription. -/
structure SubscriptionSpec where
  group : String
  schema : String
  mode : SubscriptionMode
  dataAdapter : Option String
  selector : Option String
  requestedBufferSize : Option RequestedBufferSize
  requestedMaxFrequency : Option RequestedMaxFrequency
  snapshot : Option Snapshot
  declaredItems : List String
  declaredFields : List String
  deriving DecidableEq

namespace SubscriptionSpec

/-- A minimal subscription. -/
def new (group schema : String) (mode : SubscriptionMode) : SubscriptionSpec :=
  ⟨group, schema, mode, none, none, none, none, none, [], []⟩

def wantsSnapshot (spec : SubscriptionSpec) : Bool :=
  spec.snapshot matches some .on | some (.length _)

/-- A state machine with no memory of an earlier session. -/
def newManager (spec : SubscriptionSpec) : SubscriptionManager :=
  .new spec.mode spec.wantsSnapshot spec.declaredItems spec.declaredFields

end SubscriptionSpec

/-- A message for the Metadata Adapter. The caller owns the numbering. -/
structure OutgoingMessage where
  message : String
  sequence : Option SequenceName
  msgProg : Option NonZeroU32
  maxWaitMillis : Option ℕ
  outcome : Option Bool
  deriving DecidableEq

/-- How a message identifies itself in `MSGDONE` and `MSGFAIL`. -/
def OutgoingMessage.identity (m : OutgoingMessage) : MessageSequence × Option ℕ :=
  (match m.sequence with
    | some name => .named name.name
    | none => .unspecified,
    m.msgProg.map NonZeroU32.val)

inductive SessionCommand
  | subscribe (key : SubscriptionKey) (spec : SubscriptionSpec)
  | unsubscribe (key : SubscriptionKey)
  | reconfigure (key : SubscriptionKey) (maxFrequency : MaxFrequencyLimit)
  | sendMessage (message : OutgoingMessage)
  | forceRebind (closeSocket : Option Bool)
  | destroy (cause : Option DestroyCause)
  | shutdown
  deriving DecidableEq

/-! ## What the caller is told -/

/-- A cause code and message as the server supplied them. -/
structure ServerCause where
  code : ℤ
  message : String
  deriving DecidableEq

/-- How a session came to be bound. -/
inductive BindKind
  /-- The first session of this driver. -/
  | created
  /-- A new session after an earlier one was lost. -/
  | recreated (previous : Option SessionId)
  /-- The same session, with no recovery request. -/
  | rebound
  /-- The same session, resuming from a stated position. -/
  | recovering (requestedProgressive : ℕ)
  deriving DecidableEq

/-- Whether a new session was bound. -/
def BindKind.isFresh : BindKind → Bool
  | .created | .recreated _ => true
  | .rebound | .recovering _ => false

/-- How a `PROG` relates to the requested progressive. -/
inductive RecoveryKind
  | exact
  | duplicated (count : ℕ)
  | gap (missing : ℕ)
  deriving DecidableEq

structure RecoveryOutcome where
  requested : ℕ
  resumedAt : ℕ
  kind : RecoveryKind
  deriving DecidableEq

/-- Why the session stopped being bound to a stream connection. -/
inductive UnbindReason
  | forcedByClient (expectedDelay : ℕ)
  | contentLengthReached (expectedDelay : ℕ)
  | pollCycleExpired (expectedDelay : ℕ)
  | looped (expectedDelay : ℕ)
  | connectionFailed (detail : String)
  | keepaliveExpired (budget : ℕ)
  | rejected (cause : ServerCause)
  | serverRefresh (cause : ServerCause)
  deriving DecidableEq

namespace UnbindReason

/-- The delay the server asked for before rebinding, if it named one. -/
def expectedDelay : UnbindReason → Option ℕ
  | forcedByClient delay | contentLengthReached delay | pollCycleExpired delay
  | looped delay => some delay
  | _ => none

/-- Whether a plain rebind is safe. -/
def isCleanLoop : UnbindReason → Bool
  | forcedByClient _ | contentLengthReached _ | pollCycleExpired _ | looped _ => true
  | _ => false

end UnbindReason

/-- Why the session ended. -/
inductive SessionClosed
  | byClient (destroyConfirmed : Bool) (cause : Option ServerCause)
  | byServer (cause : ServerCause)
  | retriesExhausted (attempts : ℕ) (last : Option UnbindReason)
  | internal (reason : String)
  deriving DecidableEq

structure BoundInfo where
  sessionId : SessionId
  kind : BindKind
  keepAlive : ℕ
  requestLimitBytes : ℕ
  controlLink : Option String
  deriving DecidableEq

/-- One subscription issued at a bind. -/
structure ResubscribedEntry where
  key : SubscriptionKey
  subscriptionId : NonZeroU32
  previouslyActive : Bool
  snapshotRequested : Bool
  deriving DecidableEq

inductive SubscriptionOperation
  | subscribe
  | unsubscribe
  | reconfigure
  deriving DecidableEq

/-- What a control request was acting on. -/
inductive ControlTarget
  | session
  | subscription (key : SubscriptionKey) (operation : SubscriptionOperation)
  deriving DecidableEq

/-- How a control request ended. -/
inductive ControlOutcome
  | accepted
  | rejected (cause : ServerCause)
  | notSent (reason : String)
  deriving DecidableEq

/-- What became of a message. -/
inductive MessageResult
  | done (response : String)
  | failed (cause : ServerCause)
  | refused (cause : ServerCause)
  | notSent (reason : String)
  deriving DecidableEq

inductive ServerAnnouncement
  | name (name : String)
  | clientIp (address : String)
  | clock (elapsedSeconds : ℕ)
  | bandwidth (bandwidth : Bandwidth)
  deriving DecidableEq

/-- What the session layer tells the layer above it. -/
inductive SessionEvent
  | bound (info : BoundInfo)
  | recovered (outcome : RecoveryOutcome)
  | resubscribed (entries : List ResubscribedEntry)
  | unbound (reason : UnbindReason) (retryIn : Option ℕ)
  | message (progressive : Option ℕ) (sequence : MessageSequence) (prog : Option ℕ)
      (result : MessageResult)
  | subscription (progressive : ℕ) (key : SubscriptionKey) (outcome : SubscriptionOutcome)
  | controlResponse (requestId : Option RequestId) (target : ControlTarget)
      (outcome : ControlOutcome)
  | serverInfo (announcement : ServerAnnouncement)
  | unparsed (line : String) (error : ProtocolError)
  | closed (closed : SessionClosed)
  deriving DecidableEq

/-! ## Error codes -/

/-- What a session-level error code leaves the client able to do. -/
inductive Recovery
  | recreateSession
  | retryLater
  | fatal
  deriving DecidableEq

def classify (code : ℤ) : Recovery :=
  if code = 4 ∨ code = 20 ∨ code = 48 then .recreateSession
  else if code = 5 ∨ code = 6 ∨ code = 10 then .retryLater
  else if 7 ≤ code ∧ code ≤ 9 then .retryLater
  else if code = 33 ∨ code = 34 then .retryLater
  else .fatal

end Lightstreamer.Session
