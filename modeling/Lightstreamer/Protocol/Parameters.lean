import Lightstreamer.Protocol.Reading
import Mathlib.Data.List.Forall2

/-!
# The parameters that a request is meant to carry

`TlcpRequest.parameters` lists, for each request, the names and the values that its line stands for,
before any escaping. `injection_free`: the server reads exactly these in the encoded line, whatever
texts they hold, and finds the lines of a batch again.
-/

namespace Lightstreamer.Protocol

/-! ## The requests -/

/-- A request of the protocol. -/
inductive TlcpRequest
  | createSession (r : CreateSession)
  | bindSession (r : BindSession)
  | subscribe (r : Subscribe)
  | unsubscribe (r : Unsubscribe)
  | reconfigure (r : ReconfigureSubscription)
  | constrain (r : ConstrainSession)
  | forceRebind (r : ForceRebind)
  | destroy (r : DestroySession)
  | messageSend (r : MessageSend)
  | heartbeat (r : Heartbeat)
  deriving DecidableEq

namespace TlcpRequest

def name : TlcpRequest → String
  | createSession _ => CreateSession.name
  | bindSession _ => BindSession.name
  | messageSend _ => MessageSend.name
  | heartbeat _ => Heartbeat.name
  | _ => controlName

def encodeParameters (r : TlcpRequest) (transport : TransportKind) : Except RequestError String :=
  match r with
  | createSession r => r.encodeParameters transport
  | bindSession r => r.encodeParameters transport
  | subscribe r => r.encodeParameters transport
  | unsubscribe r => r.encodeParameters transport
  | reconfigure r => r.encodeParameters transport
  | constrain r => r.encodeParameters transport
  | forceRebind r => r.encodeParameters transport
  | destroy r => r.encodeParameters transport
  | messageSend r => r.encodeParameters transport
  | heartbeat r => r.encodeParameters transport

end TlcpRequest

/-! ## Values that are written as they are -/

theorem carries_unlimited : Carries "unlimited" "unlimited" := carries_self (by simp [isPartChar])

theorem RequestedMaxFrequency.carries (f : RequestedMaxFrequency) : Carries f.asStr f.asStr := by
  cases f with
  | unlimited => exact carries_unlimited
  | unfiltered => exact carries_self (by simp [isPartChar, RequestedMaxFrequency.asStr])
  | limited n => exact n.carries

theorem MaxFrequencyLimit.carries (f : MaxFrequencyLimit) : Carries f.asStr f.asStr := by
  cases f with
  | unlimited => exact carries_unlimited
  | limited n => exact n.carries

theorem MaxBandwidth.carries (b : MaxBandwidth) : Carries b.asStr b.asStr := by
  cases b with
  | unlimited => exact carries_unlimited
  | limited n => exact n.carries

theorem TimeToLive.carries (ttl : TimeToLive) : Carries ttl.asStr ttl.asStr := by
  cases ttl with
  | unknown => exact carries_self (by simp [isPartChar, TimeToLive.asStr])
  | unlimited => exact carries_unlimited
  | millis ms => exact carries_number ms

theorem SubscriptionMode.carries (mode : SubscriptionMode) : Carries mode.asStr mode.asStr := by
  cases mode <;> exact carries_self (by simp [isPartChar, SubscriptionMode.asStr])

theorem ControlOperation.carries (operation : ControlOperation) :
    Carries operation.asStr operation.asStr := by
  cases operation <;> exact carries_self (by simp [isPartChar, ControlOperation.asStr])

/-! ## The intended parameters -/

/-- The text that the client identifier decodes to. -/
def clientIdentifierText : String := "mgQkwtwdysogQz2BJ4Ji kOj2Bg"

def ConnectionMode.parameters : ConnectionMode → List (String × String)
  | .streaming inactivityMillis keepaliveMillis sendSync =>
    given "LS_inactivity_millis" Nat.repr inactivityMillis ++
      given "LS_keepalive_millis" Nat.repr keepaliveMillis ++
      given "LS_send_sync" booleanText sendSync
  | .polling pollingMillis idleMillis =>
    [("LS_polling", "true"), ("LS_polling_millis", pollingMillis.repr)] ++
      given "LS_idle_millis" Nat.repr idleMillis

def RequestedBufferSize.text : RequestedBufferSize → String
  | .unlimited => "unlimited"
  | .events n => n.val.repr

def Snapshot.text : Snapshot → String
  | .off => "false"
  | .on => "true"
  | .length n => n.val.repr

def controlParameters (session : Option String) (requestId : RequestId)
    (operation : ControlOperation) : List (String × String) :=
  given "LS_session" id session ++ [("LS_reqId", requestId.text), ("LS_op", operation.asStr)]

/-- `LS_ack` is not sent over HTTP. -/
def ackParameters (ack : Option Bool) (transport : TransportKind) : List (String × String) :=
  if transport.honorsAck then given "LS_ack" booleanText ack else []

def DestroyCause.parameters (cause : DestroyCause) : List (String × String) :=
  ("LS_cause_code", toString cause.code.val.toInt) ::
    given "LS_cause_message" CauseMessage.text cause.message

/-- The names and values that a request stands for, in order. -/
def TlcpRequest.parameters (transport : TransportKind) : TlcpRequest → List (String × String)
  | createSession r =>
    given "LS_user" id r.user ++ given "LS_password" id r.password ++
      given "LS_adapter_set" id r.adapterSet ++ [("LS_cid", clientIdentifierText)] ++
      given "LS_requested_max_bandwidth" DecimalNumber.text r.requestedMaxBandwidth ++
      given "LS_content_length" Nat.repr r.contentLength ++
      [("LS_supported_diffs", supportedDiffs)] ++ r.connection.parameters ++
      given "LS_reduce_head" booleanText r.reduceHead ++
      given "LS_ttl_millis" TimeToLive.asStr r.ttl
  | bindSession r =>
    given "LS_session" id r.session ++ given "LS_recovery_from" Nat.repr r.recoveryFrom ++
      given "LS_content_length" Nat.repr r.contentLength ++ r.connection.parameters ++
      given "LS_reduce_head" booleanText r.reduceHead
  | subscribe r =>
    controlParameters r.session r.requestId .add ++
      [("LS_subId", r.subscriptionId.val.repr), ("LS_group", r.group), ("LS_schema", r.schema)] ++
      given "LS_data_adapter" id r.dataAdapter ++ [("LS_mode", r.mode.asStr)] ++
      given "LS_selector" id r.selector ++
      given "LS_requested_buffer_size" RequestedBufferSize.text r.requestedBufferSize ++
      given "LS_requested_max_frequency" RequestedMaxFrequency.asStr r.requestedMaxFrequency ++
      given "LS_snapshot" Snapshot.text r.snapshot ++ ackParameters r.ack transport
  | unsubscribe r =>
    controlParameters r.session r.requestId .delete ++
      [("LS_subId", r.subscriptionId.val.repr)] ++ ackParameters r.ack transport
  | reconfigure r =>
    controlParameters r.session r.requestId .reconf ++
      [("LS_subId", r.subscriptionId.val.repr)] ++
      given "LS_requested_max_frequency" MaxFrequencyLimit.asStr r.requestedMaxFrequency
  | constrain r =>
    controlParameters r.session r.requestId .constrain ++
      given "LS_requested_max_bandwidth" MaxBandwidth.asStr r.requestedMaxBandwidth
  | forceRebind r =>
    controlParameters r.session r.requestId .forceRebind ++
      given "LS_polling_millis" Nat.repr r.pollingMillis ++
      given "LS_close_socket" booleanText r.closeSocket
  | destroy r =>
    controlParameters r.session r.requestId .destroy ++
      (r.cause.map DestroyCause.parameters).getD [] ++
      given "LS_close_socket" booleanText r.closeSocket
  | messageSend r =>
    given "LS_session" id r.session ++ [("LS_reqId", r.requestId.text)] ++
      given "LS_sequence" SequenceName.name r.sequence ++
      given "LS_msg_prog" (fun n : NonZeroU32 => n.val.repr) r.msgProg ++
      given "LS_max_wait" Nat.repr r.maxWaitMillis ++ ackParameters r.ack transport ++
      given "LS_outcome" booleanText r.outcome ++ [("LS_message", r.message)]
  | heartbeat r => given "LS_session" id r.session

/-! ## One chain for each encoder -/

/-- A line carries some parameters, with no name twice and none that could be read amiss. -/
def Conveys (line : String) (pairs : List (String × String)) : Prop :=
  ∃ params names, line = ParameterLine.buf params ∧ Writes params pairs names ∧ names.Nodup ∧
    areNames names

/-- What a step of an encoder gives is what the next one goes on with. -/
theorem exists_of_bind_ok {ε α β : Type} {x : Except ε α} {f : α → Except ε β} {b : β}
    (h : (x >>= f) = .ok b) : ∃ a, x = .ok a ∧ f a = .ok b := by
  cases x with
  | error e => cases h
  | ok a => exact ⟨a, rfl, h⟩

section

variable {params : ParameterLine} {pairs : List (String × String)} {names : List String}
  {transport : TransportKind} {line : String}

/-- The names of either kind of connection. -/
def connectionNames : List String :=
  ["LS_inactivity_millis", "LS_keepalive_millis", "LS_send_sync", "LS_polling",
    "LS_polling_millis", "LS_idle_millis"]

theorem Writes.of_eq {pairs' : List (String × String)} {names' : List String}
    (h : Writes params pairs names) (hpairs : pairs = pairs') (hnames : names = names') :
    Writes params pairs' names' :=
  hpairs ▸ hnames ▸ h

theorem Writes.connection (h : Writes params pairs names) (mode : ConnectionMode) :
    Writes (mode.encodeInto params) (pairs ++ mode.parameters) (names ++ connectionNames) := by
  cases mode with
  | streaming inactivityMillis keepaliveMillis sendSync =>
    have w := (h.optionalNumber "LS_inactivity_millis" inactivityMillis).optionalNumber
      "LS_keepalive_millis" keepaliveMillis
    have w := w.optionalBoolean "LS_send_sync" sendSync
    have w := ((w.skip "LS_polling").skip "LS_polling_millis").skip "LS_idle_millis"
    exact w.of_eq (by simp [ConnectionMode.parameters]) (by simp [connectionNames])
  | polling pollingMillis idleMillis =>
    have w := ((h.skip "LS_inactivity_millis").skip "LS_keepalive_millis").skip "LS_send_sync"
    have w := (w.boolean "LS_polling" true).number "LS_polling_millis" pollingMillis
    have w := w.optionalNumber "LS_idle_millis" idleMillis
    exact w.of_eq (by simp [ConnectionMode.parameters, booleanText]) (by simp [connectionNames])

theorem Writes.session (session : Option String) :
    Writes (ParameterLine.new.optional (·.text "LS_session") session)
      (given "LS_session" id session) ["LS_session"] :=
  Writes.new.optionalText "LS_session" session

theorem Writes.ack (h : Writes params pairs names) (ack : Option Bool)
    (transport : TransportKind) :
    Writes (encodeAck params ack transport) (pairs ++ ackParameters ack transport)
      (names ++ ["LS_ack"]) := by
  unfold encodeAck ackParameters
  split_ifs
  · exact h.optionalBoolean "LS_ack" ack
  · rw [List.append_nil]
    exact h.skip "LS_ack"

theorem writes_controlHeader {session : Option String} {requestId : RequestId}
    {operation : ControlOperation}
    (h : encodeControlHeader session requestId operation transport = .ok params) :
    Writes params (controlParameters session requestId operation)
      ["LS_session", "LS_reqId", "LS_op"] := by
  have hparams : params = ((ParameterLine.new.optional (·.text "LS_session") session).verbatim
      "LS_reqId" requestId.text).verbatim "LS_op" operation.asStr := by
    unfold encodeControlHeader at h
    cases session with
    | some session => exact (Except.ok.inj h).symm
    | none =>
      dsimp only at h
      split_ifs at h
      · cases h
      · exact (Except.ok.inj h).symm
  rw [hparams]
  have w := (Writes.session session).verbatim "LS_reqId" requestId.carries
  have w := w.verbatim "LS_op" operation.carries
  exact w.of_eq (by simp [controlParameters]) rfl

theorem carries_clientIdentifier : Carries clientIdentifier clientIdentifierText := by
  have h : clientIdentifier = encodeFormValue clientIdentifierText := by decide +kernel
  rw [h]
  exact carries_encodeFormValue _

theorem carries_supportedDiffs : Carries supportedDiffs supportedDiffs := by
  have h : supportedDiffs = "T" := by decide
  rw [h]
  exact carries_self (by simp [isPartChar])

theorem CreateSession.conveys {r : CreateSession} (h : r.encodeParameters transport = .ok line) :
    Conveys line ((TlcpRequest.createSession r).parameters transport) := by
  have hdiffs : supportedDiffs.isEmpty = false := by decide
  have w := (Writes.new.optionalText "LS_user" r.user).optionalText "LS_password" r.password
  have w := w.optionalText "LS_adapter_set" r.adapterSet
  have w := @Writes.put _ _ _ "LS_cid" _ _ w carries_clientIdentifier
  have w := w.optionalVerbatim "LS_requested_max_bandwidth" DecimalNumber.text
    r.requestedMaxBandwidth fun n _ => n.carries
  have w := w.optionalNumber "LS_content_length" r.contentLength
  have w := w.verbatim "LS_supported_diffs" carries_supportedDiffs
  have w := (w.connection r.connection).optionalBoolean "LS_reduce_head" r.reduceHead
  have w := w.optionalVerbatim "LS_ttl_millis" TimeToLive.asStr r.ttl fun ttl _ => ttl.carries
  refine ⟨_, _, ?_, w.of_eq (by simp [TlcpRequest.parameters]) rfl, by decide, by decide⟩
  simp only [encodeParameters, hdiffs, Bool.false_eq_true, if_false] at h
  exact (Except.ok.inj h).symm

theorem BindSession.conveys {r : BindSession} (h : r.encodeParameters transport = .ok line) :
    Conveys line ((TlcpRequest.bindSession r).parameters transport) := by
  have w := (Writes.session r.session).optionalNumber "LS_recovery_from" r.recoveryFrom
  have w := (w.optionalNumber "LS_content_length" r.contentLength).connection r.connection
  have w := w.optionalBoolean "LS_reduce_head" r.reduceHead
  refine ⟨_, _, ?_, w.of_eq (by simp [TlcpRequest.parameters]) rfl, by decide, by decide⟩
  obtain ⟨session, recoveryFrom, contentLength, connection, reduceHead⟩ := r
  cases session with
  | some session => exact (Except.ok.inj h).symm
  | none =>
    cases transport with
    | webSocket => exact (Except.ok.inj h).symm
    | http => cases h
    | httpBatched => cases h

/-- The header of a control request is what the other parameters follow. -/
theorem exists_header_of_ok {session : Option String} {requestId : RequestId}
    {operation : ControlOperation} {finish : ParameterLine → Except RequestError String}
    (h : (encodeControlHeader session requestId operation transport >>= finish) = .ok line) :
    ∃ params, Writes params (controlParameters session requestId operation)
      ["LS_session", "LS_reqId", "LS_op"] ∧ finish params = .ok line := by
  obtain ⟨params, hparams, hfinish⟩ := exists_of_bind_ok h
  exact ⟨params, writes_controlHeader hparams, hfinish⟩

theorem Writes.bufferSize (h : Writes params pairs names) (size : Option RequestedBufferSize) :
    Writes (match size with
        | some .unlimited => params.verbatim "LS_requested_buffer_size" "unlimited"
        | some (.events n) => params.number "LS_requested_buffer_size" n.val
        | none => params)
      (pairs ++ given "LS_requested_buffer_size" RequestedBufferSize.text size)
      (names ++ ["LS_requested_buffer_size"]) := by
  cases size with
  | none => exact (h.skip _).of_eq (List.append_nil _).symm rfl
  | some size =>
    cases size with
    | unlimited => exact h.verbatim "LS_requested_buffer_size" carries_unlimited
    | events n => exact h.number "LS_requested_buffer_size" n.val

theorem Writes.snapshot (h : Writes params pairs names) (snapshot : Option Snapshot) :
    Writes (match snapshot with
        | some .off => params.boolean "LS_snapshot" false
        | some .on => params.boolean "LS_snapshot" true
        | some (.length n) => params.number "LS_snapshot" n.val
        | none => params)
      (pairs ++ given "LS_snapshot" Snapshot.text snapshot) (names ++ ["LS_snapshot"]) := by
  cases snapshot with
  | none => exact (h.skip _).of_eq (List.append_nil _).symm rfl
  | some snapshot =>
    cases snapshot with
    | off => exact h.boolean "LS_snapshot" false
    | on => exact h.boolean "LS_snapshot" true
    | length n => exact h.number "LS_snapshot" n.val

theorem Subscribe.conveys {r : Subscribe} (h : r.encodeParameters transport = .ok line) :
    Conveys line ((TlcpRequest.subscribe r).parameters transport) := by
  obtain ⟨-, -, h⟩ := exists_of_bind_ok h
  obtain ⟨params, w, hline⟩ := exists_header_of_ok h
  have w := w.number "LS_subId" r.subscriptionId.val
  have w := (w.text "LS_group" r.group).text "LS_schema" r.schema
  have w := w.optionalText "LS_data_adapter" r.dataAdapter
  have w := (w.verbatim "LS_mode" r.mode.carries).optionalText "LS_selector" r.selector
  have w := (w.bufferSize r.requestedBufferSize).optionalVerbatim "LS_requested_max_frequency"
    RequestedMaxFrequency.asStr r.requestedMaxFrequency fun f _ => f.carries
  have w := (w.snapshot r.snapshot).ack r.ack transport
  exact ⟨_, _, (Except.ok.inj hline).symm, w.of_eq (by simp [TlcpRequest.parameters]) rfl,
    by decide, by decide⟩

theorem Unsubscribe.conveys {r : Unsubscribe} (h : r.encodeParameters transport = .ok line) :
    Conveys line ((TlcpRequest.unsubscribe r).parameters transport) := by
  obtain ⟨params, w, hline⟩ := exists_header_of_ok h
  have w := (w.number "LS_subId" r.subscriptionId.val).ack r.ack transport
  exact ⟨_, _, (Except.ok.inj hline).symm, w.of_eq (by simp [TlcpRequest.parameters]) rfl,
    by decide, by decide⟩

theorem ReconfigureSubscription.conveys {r : ReconfigureSubscription}
    (h : r.encodeParameters transport = .ok line) :
    Conveys line ((TlcpRequest.reconfigure r).parameters transport) := by
  obtain ⟨params, w, hline⟩ := exists_header_of_ok h
  have w := w.number "LS_subId" r.subscriptionId.val
  have w := w.optionalVerbatim "LS_requested_max_frequency" MaxFrequencyLimit.asStr
    r.requestedMaxFrequency fun f _ => f.carries
  exact ⟨_, _, (Except.ok.inj hline).symm, w.of_eq (by simp [TlcpRequest.parameters]) rfl,
    by decide, by decide⟩

theorem ConstrainSession.conveys {r : ConstrainSession}
    (h : r.encodeParameters transport = .ok line) :
    Conveys line ((TlcpRequest.constrain r).parameters transport) := by
  obtain ⟨params, w, hline⟩ := exists_header_of_ok h
  have w := w.optionalVerbatim "LS_requested_max_bandwidth" MaxBandwidth.asStr
    r.requestedMaxBandwidth fun b _ => b.carries
  exact ⟨_, _, (Except.ok.inj hline).symm, w.of_eq (by simp [TlcpRequest.parameters]) rfl,
    by decide, by decide⟩

theorem ForceRebind.conveys {r : ForceRebind} (h : r.encodeParameters transport = .ok line) :
    Conveys line ((TlcpRequest.forceRebind r).parameters transport) := by
  obtain ⟨params, w, hline⟩ := exists_header_of_ok h
  have w := (w.optionalNumber "LS_polling_millis" r.pollingMillis).optionalBoolean
    "LS_close_socket" r.closeSocket
  exact ⟨_, _, (Except.ok.inj hline).symm, w.of_eq (by simp [TlcpRequest.parameters]) rfl,
    by decide, by decide⟩

/-- The cause of a `destroy`, its code first. -/
theorem Writes.cause (h : Writes params pairs names) (cause : Option DestroyCause) :
    Writes (params.optional (fun p cause =>
        (p.verbatim "LS_cause_code" (toString cause.code.val.toInt)).optional
          (fun p message => p.text "LS_cause_message" message.text) cause.message) cause)
      (pairs ++ (cause.map DestroyCause.parameters).getD [])
      (names ++ ["LS_cause_code"] ++ ["LS_cause_message"]) := by
  cases cause with
  | none =>
    exact ((h.skip "LS_cause_code").skip "LS_cause_message").of_eq (by simp) rfl
  | some cause =>
    have w := h.verbatim "LS_cause_code" (carries_int cause.code.val.toInt)
    have w : Writes ((params.verbatim "LS_cause_code" (toString cause.code.val.toInt)).optional
          (fun p message => p.text "LS_cause_message" message.text) cause.message)
        (pairs ++ [("LS_cause_code", toString cause.code.val.toInt)] ++
          given "LS_cause_message" CauseMessage.text cause.message) _ :=
      w.optional cause.message fun message _ => w.text _ message.text
    exact w.of_eq (by simp [DestroyCause.parameters]) rfl

theorem DestroySession.conveys {r : DestroySession} (h : r.encodeParameters transport = .ok line) :
    Conveys line ((TlcpRequest.destroy r).parameters transport) := by
  obtain ⟨params, w, hline⟩ := exists_header_of_ok h
  have w := (w.cause r.cause).optionalBoolean "LS_close_socket" r.closeSocket
  exact ⟨_, _, (Except.ok.inj hline).symm, w.of_eq (by simp [TlcpRequest.parameters]) rfl,
    by decide, by decide⟩

theorem MessageSend.conveys {r : MessageSend} (h : r.encodeParameters transport = .ok line) :
    Conveys line ((TlcpRequest.messageSend r).parameters transport) := by
  obtain ⟨-, -, h⟩ := exists_of_bind_ok h
  have w := (Writes.session r.session).verbatim "LS_reqId" r.requestId.carries
  have w := w.optionalVerbatim "LS_sequence" SequenceName.name r.sequence fun s _ => s.carries
  have w := w.optionalVerbatim "LS_msg_prog" (fun n : NonZeroU32 => n.val.repr) r.msgProg
    fun n _ => carries_number n.val
  have w := (w.optionalNumber "LS_max_wait" r.maxWaitMillis).ack r.ack transport
  have w := (w.optionalBoolean "LS_outcome" r.outcome).text "LS_message" r.message
  refine ⟨_, _, ?_, w.of_eq (by simp [TlcpRequest.parameters]) rfl, by decide, by decide⟩
  cases hsession : r.session with
  | some session =>
    simp only [hsession] at h
    exact (Except.ok.inj h).symm
  | none =>
    simp only [hsession] at h
    split_ifs at h
    · cases h
    · exact (Except.ok.inj h).symm

theorem Heartbeat.conveys {r : Heartbeat} (h : r.encodeParameters transport = .ok line) :
    Conveys line ((TlcpRequest.heartbeat r).parameters transport) := by
  refine ⟨_, _, ?_, Writes.session r.session, by decide, by decide⟩
  obtain ⟨session⟩ := r
  cases session with
  | some session => exact (Except.ok.inj h).symm
  | none =>
    unfold Heartbeat.encodeParameters at h
    dsimp only at h
    split_ifs at h
    exact (Except.ok.inj h).symm

/-- An encoded line carries the parameters of its request. -/
theorem TlcpRequest.conveys {r : TlcpRequest} (h : r.encodeParameters transport = .ok line) :
    Conveys line (r.parameters transport) := by
  cases r with
  | createSession r => exact r.conveys h
  | bindSession r => exact r.conveys h
  | subscribe r => exact r.conveys h
  | unsubscribe r => exact r.conveys h
  | reconfigure r => exact r.conveys h
  | constrain r => exact r.conveys h
  | forceRebind r => exact r.conveys h
  | destroy r => exact r.conveys h
  | messageSend r => exact r.conveys h
  | heartbeat r => exact r.conveys h

end

theorem Conveys.notMem {line : String} {pairs : List (String × String)} (h : Conveys line pairs) :
    '\r' ∉ line.toList ∧ '\n' ∉ line.toList := by
  obtain ⟨params, names, rfl, hwrites, -, hnames⟩ := h
  exact ⟨fun hin => (hwrites.chars hnames _ hin).1 rfl,
    fun hin => (hwrites.chars hnames _ hin).2 rfl⟩

theorem TlcpRequest.name_notMem (r : TlcpRequest) : '\r' ∉ r.name.toList := by
  cases r <;> simp [TlcpRequest.name, CreateSession.name, BindSession.name, MessageSend.name,
    Heartbeat.name, controlName]

end Lightstreamer.Protocol
