import Lightstreamer.Config.Retry
import Lightstreamer.Session.Vocabulary

/-!
# The timings of the caller

`ConnectionOptions` is what the caller asks for, `ConnectionOptions.check` the checks that the
configuration builder makes of its timings. A `ClientConfig` passed them, and
`ClientConfig.connectOptions` is what the state machine is started with: the options of the caller,
made those of a polling connection when the transport polls.
-/

namespace Lightstreamer.Config

open Lightstreamer.Protocol Lightstreamer.Session

structure ConnectionOptions where
  openTimeout : ℕ
  keepaliveSlack : ℕ
  keepaliveHint : Option ℕ
  inactivityCommitment : Option ℕ
  sendSync : Bool
  contentLength : Option ℕ
  retry : RetryPolicy
  deriving DecidableEq

namespace ConnectionOptions

/-- The defaults of the crate. -/
def default : ConnectionOptions where
  openTimeout := ofMillis 10000
  keepaliveSlack := ofMillis 3000
  keepaliveHint := none
  inactivityCommitment := none
  sendSync := true
  contentLength := none
  retry := ⟨ofMillis 500, ofMillis 30000, NonZeroU32.new? 8⟩

def withInactivityCommitment (options : ConnectionOptions) (interval : Option ℕ) :
    ConnectionOptions :=
  { options with inactivityCommitment := interval }

end ConnectionOptions

/-- `Duration::as_millis`. -/
def wholeMillis (value : ℕ) : ℕ := value / 10 ^ 6

/-- Check that a duration fits the whole number of milliseconds the wire carries. -/
def requireMillis (field : String) (value : ℕ) : Except TimingError Unit :=
  if u64Max < wholeMillis value then .error (.durationTooLarge field) else .ok ()

/-- The checks of an interval that is sent to the server, if one was set. -/
def checkInterval (field : String) : Option ℕ → Except TimingError Unit
  | none => .ok ()
  | some value => do
    requirePositive field value
    requireWithinMaximum field value
    requireMillis field value

/-- The checks of the builder. -/
def ConnectionOptions.check (options : ConnectionOptions) : Except TimingError Unit := do
  requirePositive "open_timeout" options.openTimeout
  requireWithinMaximum "open_timeout" options.openTimeout
  requireWithinMaximum "keepalive_slack" options.keepaliveSlack
  checkInterval "keepalive_hint" options.keepaliveHint
  checkInterval "inactivity_commitment" options.inactivityCommitment
  checkRetry options.retry

example : ConnectionOptions.default.check = .ok () := rfl

/-- The transport that the caller chose. -/
inductive Transport
  | webSocket
  | httpStreaming
  | httpPolling
  deriving DecidableEq

/-- A configuration that the builder accepted. -/
structure ClientConfig where
  adapterSet : Option String
  user : Option String
  password : Option String
  transport : Transport
  options : ConnectionOptions
  accepted : options.check = .ok ()

/-- Whole milliseconds for the wire; what does not fit becomes the longest interval. -/
def asMillis (value : ℕ) : ℕ := min (wholeMillis value) u64Max

/-- `SessionOptions::from_client_config`. -/
def ClientConfig.sessionOptions (config : ClientConfig) : SessionOptions where
  credentials := ⟨config.user, config.password, config.adapterSet⟩
  connection := .streaming (config.options.inactivityCommitment.map asMillis)
    (config.options.keepaliveHint.map asMillis)
    (if config.options.sendSync then none else some false)
  contentLength := config.options.contentLength
  keepaliveSlack := config.options.keepaliveSlack
  openTimeout := config.options.openTimeout
  backoff := config.options.retry.backoff

/-- The pause between two polls that a polling session asks for. -/
def defaultPollingMillis : ℕ := 5000

/-- How long a polling session lets the server hold a poll, without a hint of the caller. -/
def defaultIdleMillis : ℕ := 15000

/-- The options that `connect_configured` starts the session with. -/
def ClientConfig.connectOptions (config : ClientConfig) : SessionOptions :=
  match config.transport with
  | .httpPolling =>
    let idleMillis := match config.sessionOptions.connection with
      | .streaming _ keepaliveMillis _ => keepaliveMillis
      | .polling _ idleMillis => idleMillis
    { config.sessionOptions with
      connection := .polling defaultPollingMillis (some (idleMillis.getD defaultIdleMillis)) }
  | .webSocket | .httpStreaming => config.sessionOptions

/-- A polling session sends no heartbeats. -/
theorem heartbeatInterval_connectOptions (config : ClientConfig) :
    config.connectOptions.heartbeatInterval =
      if config.transport = .httpPolling then none
      else config.options.inactivityCommitment.map fun commitment =>
        ofMillis (asMillis commitment) / 2 := by
  have hstreaming : config.sessionOptions.heartbeatInterval =
      config.options.inactivityCommitment.map fun commitment =>
        ofMillis (asMillis commitment) / 2 := Option.map_map ..
  unfold ClientConfig.connectOptions
  cases config.transport with
  | httpPolling => rfl
  | webSocket => exact hstreaming
  | httpStreaming => exact hstreaming

/-- A commitment of less than a millisecond has no whole one. -/
theorem asMillis_pos {commitment : ℕ} : 0 < asMillis commitment ↔ ofMillis 1 ≤ commitment := by
  rw [asMillis, lt_min_iff, wholeMillis, ofMillis, Nat.div_pos_iff]
  have hmax : 0 < u64Max := by decide
  omega

end Lightstreamer.Config
