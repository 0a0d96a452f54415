import Lightstreamer.Session.Backoff

/-!
# Liveness

The keepalive and heartbeat clocks of one stream connection. An `Instant` is its number of
nanoseconds on the monotonic clock. The inbound clock is armed while a stream connection is open;
`due` says what a deadline that fell due asks of the driver.
-/

namespace Lightstreamer.Session

open Lightstreamer.Protocol

/-- The last `Instant`. -/
abbrev instantMax : ℕ := (2 ^ 63 - 1) * 10 ^ 9 + 999999999

/-- Add a budget to an instant; an overflow fires the deadline at once. -/
def deadline (start budget : ℕ) : ℕ := (checkedAdd instantMax start budget).getD start

/-- What the driver must do because a liveness deadline has fallen due. -/
inductive LivenessAction
  | idle
  | sendHeartbeat
  | inboundStalled (budget : ℕ)
  deriving DecidableEq

structure Liveness where
  slack : ℕ
  inboundBudget : Option ℕ
  lastInbound : ℕ
  heartbeatEvery : Option ℕ
  lastOutbound : ℕ
  deriving DecidableEq

namespace Liveness

def new (slack : ℕ) (heartbeatEvery : Option ℕ) (now : ℕ) : Liveness :=
  ⟨slack, none, now, heartbeatEvery, now⟩

/-- Arm the inbound clock when a stream connection is opened. -/
def onStreamOpened (l : Liveness) (openTimeout now : ℕ) : Liveness :=
  { l with inboundBudget := some openTimeout, lastInbound := now }

/-- Arm the inbound clock with the keep-alive the server reported. -/
def onBound (l : Liveness) (keepAlive now : ℕ) : Liveness :=
  { l with
    inboundBudget := some ((checkedAdd durationMax keepAlive l.slack).getD keepAlive)
    lastInbound := now }

/-- Disarm the inbound clock. -/
def onStreamClosed (l : Liveness) : Liveness := { l with inboundBudget := none }

def onInbound (l : Liveness) (now : ℕ) : Liveness := { l with lastInbound := now }

def onOutbound (l : Liveness) (now : ℕ) : Liveness := { l with lastOutbound := now }

/-- The next instant at which something falls due. -/
def nextDeadline (l : Liveness) : Option ℕ :=
  match l.inboundBudget.map (deadline l.lastInbound),
    l.heartbeatEvery.map (deadline l.lastOutbound) with
  | some a, some b => some (min a b)
  | some a, none => some a
  | none, b => b

/-- What is due: a stall outranks a heartbeat. -/
def due (l : Liveness) (now : ℕ) : LivenessAction :=
  match l.inboundBudget.filter fun budget => deadline l.lastInbound budget ≤ now with
  | some budget => .inboundStalled budget
  | none =>
    if l.heartbeatEvery.any fun every => deadline l.lastOutbound every ≤ now then .sendHeartbeat
    else .idle

end Liveness

end Lightstreamer.Session
