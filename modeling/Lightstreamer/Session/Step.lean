import Lightstreamer.Foundations.Machine
import Lightstreamer.Session.Driver

/-!
# The driver's loop

`Drive.step` is one turn of the driver: it waits before it reopens, waits for a stream connection
to be established, or pumps lines, commands and timers. A `Wake` says which future won the turn, and
the `Turn` what the surroundings answer during it, so that a list of inputs is one schedule of the
driver. Which of several ready futures wins is up to the schedule: every order that the priorities
of the source allow is the order of some list of inputs.
-/

namespace Lightstreamer.Session

open Lightstreamer.Foundations Lightstreamer.Protocol

/-- Where the loop stands. -/
inductive Phase
  | waiting (next : Reopen)
  | opening
  | pumping
  | closed (closed : SessionClosed)
  deriving DecidableEq

/-- A driver in its loop. -/
structure Drive where
  driver : SessionDriver
  phase : Phase
  deriving DecidableEq

/-- Which future won a turn. -/
inductive Wake
  | line (text : String)
  | lineFailed (detail : String)
  | streamEnded
  | command (command : SessionCommand)
  | handlesDropped
  | stop
  | timer
  | opened
  | openFailed (detail : String)
  | openTimedOut
  deriving DecidableEq

structure Input where
  wake : Wake
  turn : Turn := {}
  deriving DecidableEq

/-- The driver with the answers of the turn it is about to take. -/
def SessionDriver.withTurn (d : SessionDriver) (turn : Turn) : SessionDriver :=
  { d with turn := turn }

namespace Drive

open SessionDriver

/-- The run ends: the transport is closed, then the last event is emitted. -/
def finish (d : SessionDriver) (closed : SessionClosed) : Drive :=
  ⟨(d.act .close).emit (.closed closed), .closed closed⟩

/-- Open the next stream connection. -/
def openNext (d : SessionDriver) (next : Reopen) : Drive :=
  let request := d.buildOpen next.intent
  let d := { d with
    intent := next.intent
    streamState := .establishing
    skipRemaining := 0
    progHonoured := false }
  ⟨d.act (.openStream request), .opening⟩

/-- The top of the loop: a delay is waited out, a zero delay is not. -/
def reopen (d : SessionDriver) (next : Reopen) : Drive :=
  if next.delay = 0 then openNext d next else ⟨d, .waiting next⟩

/-- The transport is closed after every unbind but a clean loop. -/
def closeUnlessLooped (d : SessionDriver) (reason : UnbindReason) : SessionDriver :=
  if reason.isCleanLoop then d else d.act .close

/-- The bottom of the loop: the stream connection is gone. -/
def unbind (d : SessionDriver) (reason : UnbindReason) : Drive :=
  let d := { d with liveness := d.liveness.onStreamClosed, streamState := .establishing }
  let d := closeUnlessLooped d reason
  match d.planAfter reason with
  | (some next, d) =>
    let d := d.emit (.unbound reason (some next.delay))
    if d.stopping then finish d stopped else reopen d next
  | (none, d) =>
    finish (d.emit (.unbound reason none)) (.retriesExhausted d.backoff.attempts (some reason))

/-- What the pump's turn leads to. A stop that interrupted an emission comes first. -/
def afterPump : Flow × SessionDriver → Drive
  | (flow, d) =>
    if d.stopping then finish d stopped
    else match flow with
      | .continue => ⟨d, .pumping⟩
      | .unbind reason => unbind d reason
      | .closed closed => finish d closed

/-- What a command taken during a reconnection delay leads to. -/
def afterWait (next : Reopen) : Flow × SessionDriver → Drive
  | (.closed closed, d) => finish d closed
  | (_, d) => if d.stopping then finish d stopped else ⟨d, .waiting next⟩

/-- The stream connection was established. -/
def established (d : SessionDriver) : Drive :=
  ⟨d.clocked (d.liveness.onStreamOpened d.establishmentBudget), .pumping⟩

/-- The stream connection could not be established. -/
def failed (d : SessionDriver) (detail : String) : Drive := unbind d (.connectionFailed detail)

/-- A turn of the wait for the reconnection delay. -/
def waitTurn (d : SessionDriver) (next : Reopen) : Wake → Option Drive
  | .command command => some (afterWait next (d.onCommand command))
  | .timer => some (openNext d next)
  | .stop | .handlesDropped => some (finish d stopped)
  | _ => none

/-- A turn of the wait for the stream connection. -/
def openTurn (d : SessionDriver) : Wake → Option Drive
  | .opened => some (established d)
  | .openFailed detail => some (failed d detail)
  | .openTimedOut => some (failed d
      s!"the stream connection was not established within {durationDebug d.establishmentBudget}")
  | .stop | .handlesDropped => some (finish d stopped)
  | _ => none

/-- A turn of the pump. The timer is armed only while there is a deadline. -/
def pumpTurn (d : SessionDriver) : Wake → Option (Flow × SessionDriver)
  | .line text => some (d.onLine text)
  | .lineFailed detail => some (.unbind (.connectionFailed detail), d)
  | .streamEnded => some (d.onStreamEnd, d)
  | .command command => some (d.onCommand command)
  | .timer => if d.liveness.nextDeadline.isSome then some d.onTimer else none
  | .stop | .handlesDropped => some (.closed stopped, d)
  | _ => none

/-- One turn of the driver, or `none` when the wake does not fit the phase. -/
def step (s : Drive) (input : Input) : Option Drive :=
  let d := s.driver.withTurn input.turn
  match s.phase with
  | .waiting next => waitTurn d next input.wake
  | .opening => openTurn d input.wake
  | .pumping => (pumpTurn d input.wake).map afterPump
  | .closed _ => none

/-- The driver of a run, before its first turn. -/
def start (properties : TransportProperties) (options : SessionOptions) (seed : UInt64)
    (now : ℕ) : Drive :=
  reopen (.new properties options seed now) ⟨.create, 0⟩

/-- A state that some run reaches. -/
def Reachable (properties : TransportProperties) (options : SessionOptions) (s : Drive) : Prop :=
  ∃ seed now inputs, exec step (start properties options seed now) inputs = some s

end Drive

end Lightstreamer.Session
