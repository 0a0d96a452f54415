import Lightstreamer.Protocol.Diff
import Lightstreamer.Protocol.Escaping

/-!
# Request encoding

One structure for each request, with its parameters as typed fields, and its encoding into the
`<param>=<value>&...` line. Optional parameters are left out when absent; texts pass through
`encodeFormValue`, everything else is emitted verbatim. `ControlRequest` gathers the control
requests that the session layer encodes and hands to the transport, `encodeHttpBatch` and
`encodeWsBatch` frame several encoded lines.
-/

namespace Lightstreamer.Protocol

/-- Which transport's rules apply when encoding a request. -/
inductive TransportKind
  | http
  | httpBatched
  | webSocket
  deriving DecidableEq

/-- Whether `LS_session` must appear in the request's own parameter line. -/
def TransportKind.requiresSession : TransportKind → Bool
  | .http => true
  | _ => false

/-- Whether `LS_ack` has any effect on this transport. -/
def TransportKind.honorsAck : TransportKind → Bool
  | .webSocket => true
  | _ => false

/-! ## Validated values -/

/-- A value that its parameter does not admit: the request, what is wrong with the value, and the
text that the message goes on to quote, in its `Debug` format. -/
structure ValueError where
  request : String
  reason : String
  got : Option String
  deriving DecidableEq

def isAsciiAlphanumeric (c : Char) : Bool := c.isAlpha || c.isDigit

/-- A request id: letters and digits. -/
structure RequestId where
  text : String
  nonempty : text.toList.isEmpty = false
  alphanumeric : text.toList.all isAsciiAlphanumeric = true
  deriving DecidableEq

/-- Validate a request id. -/
def RequestId.tryNew (id : String) : Except ValueError RequestId :=
  if hempty : id.toList.isEmpty then .error ⟨"control", "LS_reqId must not be empty", none⟩
  else if hall : id.toList.all isAsciiAlphanumeric then
    .ok ⟨id, Bool.eq_false_iff.2 hempty, hall⟩
  else .error ⟨"control", "LS_reqId must be letters and digits only, got ", some id⟩

/-- A valid text is the request id that carries it. -/
theorem RequestId.tryNew_text (id : RequestId) : RequestId.tryNew id.text = .ok id := by
  rw [RequestId.tryNew, dif_neg (by simp [id.nonempty]), dif_pos id.alphanumeric]

theorem RequestId.text_of_tryNew {text : String} {id : RequestId} (h : tryNew text = .ok id) :
    id.text = text := by
  unfold tryNew at h
  split_ifs at h
  cases h
  rfl

theorem isAsciiAlphanumeric_of_mem_repr {n : ℕ} {c : Char} (h : c ∈ n.repr.toList) :
    isAsciiAlphanumeric c := by
  rw [Nat.toList_repr] at h
  rw [isAsciiAlphanumeric, Nat.isDigit_of_mem_toDigits (by decide) (by decide) h, Bool.or_true]

/-- The request id of a progressive number. -/
def RequestId.fromProgressive (n : ℕ) : RequestId where
  text := n.repr
  nonempty := by
    rw [List.isEmpty_eq_false_iff, Nat.toList_repr]
    exact Nat.toDigits_ne_nil
  alphanumeric := List.all_eq_true.2 fun _ hc => isAsciiAlphanumeric_of_mem_repr hc

/-- Different counts give different ids. -/
theorem RequestId.fromProgressive_text_inj {m n : ℕ}
    (h : (RequestId.fromProgressive m).text = (RequestId.fromProgressive n).text) : m = n := by
  have hdigits : Nat.toDigits 10 m = Nat.toDigits 10 n := by
    rw [← Nat.toList_repr, ← Nat.toList_repr]
    exact congrArg String.toList h
  rw [← @Nat.ofDigitChars_ten_toDigits m, hdigits, Nat.ofDigitChars_ten_toDigits]

/-- Digits, and optionally a dot and more digits. -/
def isDecimal (text : String) : Bool :=
  let digits (s : List Char) : Bool := !s.isEmpty && s.all Char.isDigit
  match text.toList.splitOn '.' with
  | [integral] => digits integral
  | [integral, fractional] => digits integral && digits fractional
  | _ => false

/-- A decimal number with a dot separator. -/
structure DecimalNumber where
  text : String
  wellFormed : isDecimal text = true
  deriving DecidableEq

/-- Validate a decimal number. -/
def DecimalNumber.tryNew (text : String) : Except ValueError DecimalNumber :=
  if h : isDecimal text then .ok ⟨text, h⟩
  else .error ⟨"control", "expected a decimal number with a dot separator, got ", some text⟩

/-- The name that earlier text protocols reserved. -/
def SequenceName.reserved : String := "UNORDERED_MESSAGES"

/-- The name of a message sequence: letters, digits and underscores, and not the reserved name. -/
structure SequenceName where
  name : String
  nonempty : name.toList.isEmpty = false
  unreserved : name ≠ SequenceName.reserved
  alphanumeric : name.toList.all (fun c => isAsciiAlphanumeric c || c = '_') = true
  deriving DecidableEq

/-- Validate a sequence name. -/
def SequenceName.tryNew (name : String) : Except ValueError SequenceName :=
  if hempty : name.toList.isEmpty then .error ⟨"msg", "LS_sequence must not be empty", none⟩
  else if hreserved : name = reserved then
    .error ⟨"msg", "LS_sequence \"UNORDERED_MESSAGES\" is reserved by the protocol", none⟩
  else if hall : name.toList.all (fun c => isAsciiAlphanumeric c || c = '_') then
    .ok ⟨name, Bool.eq_false_iff.2 hempty, hreserved, hall⟩
  else .error ⟨"msg", "LS_sequence must be alphanumeric or underscore, got ", some name⟩

/-- The code that a `destroy` reports in the resulting `END`: zero or negative. -/
structure CauseCode where
  val : Int32
  nonpositive : val ≤ 0
  deriving DecidableEq

/-- Validate a cause code. -/
def CauseCode.tryNew (code : Int32) : Except ValueError CauseCode :=
  if h : code ≤ 0 then .ok ⟨code, h⟩
  else .error ⟨"control", s!"LS_cause_code must be zero or negative, got {code.toInt}", none⟩

/-- The message that a `destroy` reports in the resulting `END`: one line. -/
structure CauseMessage where
  text : String
  singleLine : text.toList.all (fun c => c ≠ '\r' && c ≠ '\n') = true
  deriving DecidableEq

/-- Validate a cause message. -/
def CauseMessage.tryNew (message : String) : Except ValueError CauseMessage :=
  if h : message.toList.all (fun c => c ≠ '\r' && c ≠ '\n') then .ok ⟨message, h⟩
  else .error ⟨"control",
    "LS_cause_message must not contain CR or LF: multiline text is not allowed", none⟩

/-- The cause a `destroy` reports in the resulting `END`. -/
structure DestroyCause where
  code : CauseCode
  message : Option CauseMessage
  deriving DecidableEq

/-! ## Parameter values -/

inductive SubscriptionMode
  | raw
  | merge
  | distinct
  | command
  deriving DecidableEq

def SubscriptionMode.asStr : SubscriptionMode → String
  | .raw => "RAW"
  | .merge => "MERGE"
  | .distinct => "DISTINCT"
  | .command => "COMMAND"

/-- Every mode but `RAW` is filtered. -/
def SubscriptionMode.isFiltered : SubscriptionMode → Bool
  | .raw => false
  | _ => true

inductive ControlOperation
  | add
  | delete
  | reconf
  | constrain
  | forceRebind
  | destroy
  deriving DecidableEq

def ControlOperation.asStr : ControlOperation → String
  | .add => "add"
  | .delete => "delete"
  | .reconf => "reconf"
  | .constrain => "constrain"
  | .forceRebind => "force_rebind"
  | .destroy => "destroy"

inductive RequestedMaxFrequency
  | unlimited
  | unfiltered
  | limited (number : DecimalNumber)
  deriving DecidableEq

def RequestedMaxFrequency.asStr : RequestedMaxFrequency → String
  | .unlimited => "unlimited"
  | .unfiltered => "unfiltered"
  | .limited n => n.text

/-- What a `reconf` can ask for. -/
inductive MaxFrequencyLimit
  | unlimited
  | limited (number : DecimalNumber)
  deriving DecidableEq

def MaxFrequencyLimit.asStr : MaxFrequencyLimit → String
  | .unlimited => "unlimited"
  | .limited n => n.text

/-- What a `constrain` can ask for. -/
inductive MaxBandwidth
  | unlimited
  | limited (number : DecimalNumber)
  deriving DecidableEq

def MaxBandwidth.asStr : MaxBandwidth → String
  | .unlimited => "unlimited"
  | .limited n => n.text

inductive RequestedBufferSize
  | unlimited
  | events (n : NonZeroU32)
  deriving DecidableEq

inductive Snapshot
  | off
  | on
  | length (n : NonZeroU32)
  deriving DecidableEq

inductive TimeToLive
  | unknown
  | unlimited
  | millis (ms : ℕ)
  deriving DecidableEq

def TimeToLive.asStr : TimeToLive → String
  | .unknown => "unknown"
  | .unlimited => "unlimited"
  | .millis ms => ms.repr

inductive ConnectionMode
  | streaming (inactivityMillis keepaliveMillis : Option ℕ) (sendSync : Option Bool)
  | polling (pollingMillis : ℕ) (idleMillis : Option ℕ)
  deriving DecidableEq

/-! ## The parameter line -/

/-- The parameters encoded so far. -/
structure ParameterLine where
  buf : String
  deriving DecidableEq

namespace ParameterLine

def new : ParameterLine := ⟨""⟩

/-- Append `name=value` with the value taken verbatim. -/
def verbatim (params : ParameterLine) (name value : String) : ParameterLine :=
  ⟨params.buf ++ (if params.buf.isEmpty then "" else "&") ++ name ++ "=" ++ value⟩

/-- Append `name=value`, percent-encoding the value. -/
def text (params : ParameterLine) (name value : String) : ParameterLine :=
  params.verbatim name (encodeFormValue value)

def boolean (params : ParameterLine) (name : String) (value : Bool) : ParameterLine :=
  params.verbatim name (if value then "true" else "false")

def number (params : ParameterLine) (name : String) (value : ℕ) : ParameterLine :=
  params.verbatim name value.repr

/-- Append an optional parameter. -/
def optional {α : Type} (params : ParameterLine) (put : ParameterLine → α → ParameterLine) :
    Option α → ParameterLine
  | some value => put params value
  | none => params

end ParameterLine

/-- The polling or streaming group. `LS_polling` is left out of a streaming connection. -/
def ConnectionMode.encodeInto (params : ParameterLine) : ConnectionMode → ParameterLine
  | .streaming inactivityMillis keepaliveMillis sendSync =>
    let params := params.optional (·.number "LS_inactivity_millis") inactivityMillis
    let params := params.optional (·.number "LS_keepalive_millis") keepaliveMillis
    params.optional (·.boolean "LS_send_sync") sendSync
  | .polling pollingMillis idleMillis =>
    let params := (params.boolean "LS_polling" true).number "LS_polling_millis" pollingMillis
    params.optional (·.number "LS_idle_millis") idleMillis

/-! ## Control requests -/

def controlName : String := "control"

def controlPath : String := "/lightstreamer/control.txt"

/-- The parameters every `control` request starts with. -/
def encodeControlHeader (session : Option String) (requestId : RequestId)
    (operation : ControlOperation) (transport : TransportKind) :
    Except RequestError ParameterLine := do
  let params ← match session with
    | some session => pure (ParameterLine.new.text "LS_session" session)
    | none =>
      if transport.requiresSession then
        throw ⟨controlName, "LS_session is required with HTTP transport unless it is supplied " ++
          "on the query string of a batch"⟩
      else pure ParameterLine.new
  return (params.verbatim "LS_reqId" requestId.text).verbatim "LS_op" operation.asStr

/-- `LS_ack`, on the transport that honors it. -/
def encodeAck (params : ParameterLine) (ack : Option Bool) (transport : TransportKind) :
    ParameterLine :=
  if transport.honorsAck then params.optional (·.boolean "LS_ack") ack else params

/-- `LS_op=add`. -/
structure Subscribe where
  session : Option String
  requestId : RequestId
  subscriptionId : NonZeroU32
  group : String
  schema : String
  mode : SubscriptionMode
  dataAdapter : Option String
  selector : Option String
  requestedBufferSize : Option RequestedBufferSize
  requestedMaxFrequency : Option RequestedMaxFrequency
  snapshot : Option Snapshot
  ack : Option Bool
  deriving DecidableEq

namespace Subscribe

/-- Refuse the combinations the server would refuse or silently alter. -/
def validate (r : Subscribe) : Except RequestError Unit := do
  if (r.snapshot matches some (.length _)) ∧ r.mode ≠ .distinct then
    throw ⟨controlName, "LS_snapshot as a number of events is admitted only with " ++
      s!"LS_mode=DISTINCT, got {r.mode.asStr}"⟩
  if (r.snapshot matches some .on) ∧ ¬r.mode.isFiltered then
    throw ⟨controlName, "LS_snapshot=true is ignored by the server with LS_mode=RAW; omit it or " ++
      "choose another mode"⟩
  if (r.requestedMaxFrequency matches some .unfiltered | some (.limited _)) ∧
      ¬r.mode.isFiltered then
    throw ⟨controlName, "LS_requested_max_frequency is ignored by the server with LS_mode=RAW; " ++
      "omit it or choose another mode"⟩
  if r.requestedBufferSize.isSome then
    if ¬(r.mode matches .merge | .distinct) then
      throw ⟨controlName, "LS_requested_buffer_size is ignored by the server unless LS_mode is " ++
        s!"MERGE or DISTINCT, got {r.mode.asStr}"⟩
    if r.requestedMaxFrequency matches some .unfiltered then
      throw ⟨controlName, "LS_requested_buffer_size is ignored by the server when " ++
        "LS_requested_max_frequency is unfiltered; set one or the other"⟩

def encodeParameters (r : Subscribe) (transport : TransportKind) : Except RequestError String := do
  r.validate
  let params ← encodeControlHeader r.session r.requestId .add transport
  let params := params.number "LS_subId" r.subscriptionId.val
  let params := (params.text "LS_group" r.group).text "LS_schema" r.schema
  let params := params.optional (·.text "LS_data_adapter") r.dataAdapter
  let params := params.verbatim "LS_mode" r.mode.asStr
  let params := params.optional (·.text "LS_selector") r.selector
  let params := match r.requestedBufferSize with
    | some .unlimited => params.verbatim "LS_requested_buffer_size" "unlimited"
    | some (.events n) => params.number "LS_requested_buffer_size" n.val
    | none => params
  let params := params.optional (fun p f => p.verbatim "LS_requested_max_frequency" f.asStr)
    r.requestedMaxFrequency
  let params := match r.snapshot with
    | some .off => params.boolean "LS_snapshot" false
    | some .on => params.boolean "LS_snapshot" true
    | some (.length n) => params.number "LS_snapshot" n.val
    | none => params
  return (encodeAck params r.ack transport).buf

end Subscribe

/-- `LS_op=delete`. -/
structure Unsubscribe where
  session : Option String
  requestId : RequestId
  subscriptionId : NonZeroU32
  ack : Option Bool
  deriving DecidableEq

def Unsubscribe.encodeParameters (r : Unsubscribe) (transport : TransportKind) :
    Except RequestError String := do
  let params ← encodeControlHeader r.session r.requestId .delete transport
  return (encodeAck (params.number "LS_subId" r.subscriptionId.val) r.ack transport).buf

/-- `LS_op=reconf`. -/
structure ReconfigureSubscription where
  session : Option String
  requestId : RequestId
  subscriptionId : NonZeroU32
  requestedMaxFrequency : Option MaxFrequencyLimit
  deriving DecidableEq

def ReconfigureSubscription.encodeParameters (r : ReconfigureSubscription)
    (transport : TransportKind) : Except RequestError String := do
  let params ← encodeControlHeader r.session r.requestId .reconf transport
  let params := params.number "LS_subId" r.subscriptionId.val
  return (params.optional (fun p f => p.verbatim "LS_requested_max_frequency" f.asStr)
    r.requestedMaxFrequency).buf

/-- `LS_op=constrain`. -/
structure ConstrainSession where
  session : Option String
  requestId : RequestId
  requestedMaxBandwidth : Option MaxBandwidth
  deriving DecidableEq

def ConstrainSession.encodeParameters (r : ConstrainSession) (transport : TransportKind) :
    Except RequestError String := do
  let params ← encodeControlHeader r.session r.requestId .constrain transport
  return (params.optional (fun p b => p.verbatim "LS_requested_max_bandwidth" b.asStr)
    r.requestedMaxBandwidth).buf

/-- `LS_op=force_rebind`. -/
structure ForceRebind where
  session : Option String
  requestId : RequestId
  pollingMillis : Option ℕ
  closeSocket : Option Bool
  deriving DecidableEq

def ForceRebind.encodeParameters (r : ForceRebind) (transport : TransportKind) :
    Except RequestError String := do
  let params ← encodeControlHeader r.session r.requestId .forceRebind transport
  let params := params.optional (·.number "LS_polling_millis") r.pollingMillis
  return (params.optional (·.boolean "LS_close_socket") r.closeSocket).buf

/-- `LS_op=destroy`. -/
structure DestroySession where
  session : Option String
  requestId : RequestId
  cause : Option DestroyCause
  closeSocket : Option Bool
  deriving DecidableEq

def DestroySession.encodeParameters (r : DestroySession) (transport : TransportKind) :
    Except RequestError String := do
  let params ← encodeControlHeader r.session r.requestId .destroy transport
  let params := params.optional (fun p cause =>
    (p.verbatim "LS_cause_code" (toString cause.code.val.toInt)).optional
      (fun p message => p.text "LS_cause_message" message.text) cause.message) r.cause
  return (params.optional (·.boolean "LS_close_socket") r.closeSocket).buf

/-- `msg`, a control request with its own name. -/
structure MessageSend where
  session : Option String
  requestId : RequestId
  message : String
  sequence : Option SequenceName
  msgProg : Option NonZeroU32
  maxWaitMillis : Option ℕ
  ack : Option Bool
  outcome : Option Bool
  deriving DecidableEq

namespace MessageSend

def name : String := "msg"

/-- Refuse a message that lacks the progressive it needs, or a wait the server would ignore. -/
def validate (r : MessageSend) : Except RequestError Unit := do
  if r.msgProg.isNone ∧ (r.sequence.isSome ∨ r.outcome ≠ some false) then
    throw ⟨name, if r.sequence.isSome then "LS_msg_prog is mandatory when LS_sequence is specified"
      else "LS_msg_prog is mandatory when LS_outcome is not explicitly false"⟩
  if r.maxWaitMillis.isSome ∧ r.sequence.isNone then
    throw ⟨name, "LS_max_wait is ignored by the server unless LS_sequence is specified"⟩

def encodeParameters (r : MessageSend) (transport : TransportKind) :
    Except RequestError String := do
  r.validate
  let params ← match r.session with
    | some session => pure (ParameterLine.new.text "LS_session" session)
    | none =>
      if transport.requiresSession then
        throw ⟨name, "LS_session is required with HTTP transport"⟩
      else pure ParameterLine.new
  let params := params.verbatim "LS_reqId" r.requestId.text
  let params := params.optional (fun p s => p.verbatim "LS_sequence" s.name) r.sequence
  let params := params.optional (fun p n => p.number "LS_msg_prog" n.val) r.msgProg
  let params := params.optional (·.number "LS_max_wait") r.maxWaitMillis
  let params := encodeAck params r.ack transport
  let params := params.optional (·.boolean "LS_outcome") r.outcome
  return (params.text "LS_message" r.message).buf

end MessageSend

/-- `heartbeat`, the pseudo-request that keeps an inactivity commitment. -/
structure Heartbeat where
  session : Option String
  deriving DecidableEq

def Heartbeat.name : String := "heartbeat"

def Heartbeat.encodeParameters (r : Heartbeat) (transport : TransportKind) :
    Except RequestError String :=
  match r.session with
  | some session => .ok (ParameterLine.new.text "LS_session" session).buf
  | none =>
    if transport.requiresSession then
      .error ⟨Heartbeat.name, "LS_session is required with HTTP transport"⟩
    else .ok ParameterLine.new.buf

/-- A control request the session layer sends. -/
inductive ControlRequest
  | subscribe (r : Subscribe)
  | unsubscribe (r : Unsubscribe)
  | reconfigure (r : ReconfigureSubscription)
  | forceRebind (r : ForceRebind)
  | destroy (r : DestroySession)
  | messageSend (r : MessageSend)
  | heartbeat (r : Heartbeat)
  deriving DecidableEq

namespace ControlRequest

/-- The request name. -/
def name : ControlRequest → String
  | messageSend _ => MessageSend.name
  | heartbeat _ => Heartbeat.name
  | _ => controlName

/-- The HTTP request path. -/
def path : ControlRequest → String
  | messageSend _ => "/lightstreamer/msg.txt"
  | heartbeat _ => "/lightstreamer/heartbeat.txt"
  | _ => controlPath

/-- The parameter line of the request. -/
def encodeParameters (r : ControlRequest) (transport : TransportKind) :
    Except RequestError String :=
  match r with
  | subscribe r => r.encodeParameters transport
  | unsubscribe r => r.encodeParameters transport
  | reconfigure r => r.encodeParameters transport
  | forceRebind r => r.encodeParameters transport
  | destroy r => r.encodeParameters transport
  | messageSend r => r.encodeParameters transport
  | heartbeat r => r.encodeParameters transport

end ControlRequest

/-! ## Requests that open a stream connection -/

/-- The client identifier, in its wire form. -/
def clientIdentifier : String := "mgQkwtwdysogQz2BJ4Ji%20kOj2Bg"

/-- `create_session`. -/
structure CreateSession where
  user : Option String
  password : Option String
  adapterSet : Option String
  requestedMaxBandwidth : Option DecimalNumber
  contentLength : Option ℕ
  connection : ConnectionMode
  reduceHead : Option Bool
  ttl : Option TimeToLive
  deriving DecidableEq

namespace CreateSession

def name : String := "create_session"

def path : String := "/lightstreamer/create_session.txt"

def encodeParameters (r : CreateSession) (_transport : TransportKind) :
    Except RequestError String :=
  let params := ParameterLine.new.optional (·.text "LS_user") r.user
  let params := params.optional (·.text "LS_password") r.password
  let params := params.optional (·.text "LS_adapter_set") r.adapterSet
  let params := params.verbatim "LS_cid" clientIdentifier
  let params := params.optional (fun p b => p.verbatim "LS_requested_max_bandwidth" b.text)
    r.requestedMaxBandwidth
  let params := params.optional (·.number "LS_content_length") r.contentLength
  -- an empty registry of decoders is not advertised at all
  let params := if supportedDiffs.isEmpty then params
    else params.verbatim "LS_supported_diffs" supportedDiffs
  let params := r.connection.encodeInto params
  let params := params.optional (·.boolean "LS_reduce_head") r.reduceHead
  .ok (params.optional (fun p ttl => p.verbatim "LS_ttl_millis" ttl.asStr) r.ttl).buf

end CreateSession

/-- `bind_session`. -/
structure BindSession where
  session : Option String
  recoveryFrom : Option ℕ
  contentLength : Option ℕ
  connection : ConnectionMode
  reduceHead : Option Bool
  deriving DecidableEq

namespace BindSession

def name : String := "bind_session"

def path : String := "/lightstreamer/bind_session.txt"

def encodeParameters (r : BindSession) (transport : TransportKind) :
    Except RequestError String := do
  -- neither form of HTTP may leave the session out
  let params ← match r.session, transport with
    | some session, _ => pure (ParameterLine.new.text "LS_session" session)
    | none, .webSocket => pure ParameterLine.new
    | none, _ => throw ⟨name, "LS_session is required with HTTP transport"⟩
  let params := params.optional (·.number "LS_recovery_from") r.recoveryFrom
  let params := params.optional (·.number "LS_content_length") r.contentLength
  let params := r.connection.encodeInto params
  return (params.optional (·.boolean "LS_reduce_head") r.reduceHead).buf

end BindSession

/-! ## Framing -/

/-- The protocol version. -/
def protocolVersion : String := "TLCP-2.5.0"

/-- The HTTP request target of a request path. -/
def httpTarget (path : String) : String := path ++ "?LS_protocol=" ++ protocolVersion

/-- The line separator. -/
def lineSeparator : String := "\r\n"

/-- The WebSocket message of one request. -/
def wsMessage (requestName parameters : String) : String :=
  requestName ++ lineSeparator ++ parameters

/-- Join encoded lines into the body of an HTTP batch. -/
def encodeHttpBatch (requestName : String) (lines : List String) : Except RequestError String :=
  if lines.isEmpty then .error ⟨requestName, "a request batch must not be empty"⟩
  else .ok (lineSeparator.intercalate lines)

/-- Frame encoded lines into one WebSocket message. -/
def encodeWsBatch (requestName : String) (lines : List String) : Except RequestError String := do
  let body ← encodeHttpBatch requestName lines
  return requestName ++ lineSeparator ++ body

end Lightstreamer.Protocol
