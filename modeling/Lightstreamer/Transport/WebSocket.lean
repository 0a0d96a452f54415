import Lightstreamer.Transport.Framing
import Lightstreamer.Transport.Http

/-!
# The WebSocket transport

One socket at a time, which carries the stream and the control requests. The messages of the server
fill a line buffer (`receive`), from which `next_line` yields one line after the other
(`WsInbound.next`). A `bind_session` reuses the socket when there is one; a `create_session` always
dials a new one, and `wsok` is the first message on every socket (`WsTransport.openStream`).

What the surroundings answer is an argument: the events of the socket in order, the result of a
handshake, what became of a send. A call may be cancelled wherever it waits, and has no result then.
What the transport does to its sockets is recorded in its `log`.
-/

namespace Lightstreamer.Transport

open Foundations Protocol Session

/-! ## Messages and failures -/

/-- A failure that the WebSocket library reports, with its `Display` text. -/
inductive WsError
  | utf8 (reason text : String)
  | capacity (text : String)
  | writeBufferFull (text : String)
  | other (text : String)
  deriving DecidableEq

def WsError.text : WsError → String
  | utf8 _ text | capacity text | writeBufferFull text | other text => text

/-- A failure in the terms of the transports. -/
def mapWsError : WsError → TransportError
  | .utf8 reason _ => .malformedFrame s!"invalid UTF-8 in text message: {reason}"
  | e => .connectionLost e.text

/-- Whether a failure leaves the socket unusable. -/
def isFatal : WsError → Bool
  | .capacity _ | .writeBufferFull _ => false
  | _ => true

/-- A received message. -/
inductive WsMessage
  | text (text : String)
  | ping
  | pong
  | close (description : Option String)
  | binary (payload : Bytes)
  | frame
  deriving DecidableEq

/-- What a received message meant. -/
inductive Reception
  | buffered
  | ignored
  | peerClosed (description : Option String)
  deriving DecidableEq

/-- Classify a received message, and buffer its lines. -/
def receive (buffer : LineBuffer) : WsMessage → Except TransportError Reception × LineBuffer
  | .text text =>
    let pushed := buffer.pushMessage text
    (pushed.1.map fun _ => .buffered, pushed.2)
  | .ping | .pong => (.ok .ignored, buffer)
  | .close description => (.ok (.peerClosed description), buffer)
  | .binary payload => (.error (.malformedFrame
      s!"binary websocket message of {payload.length} bytes; TLCP is text only"), buffer)
  | .frame => (.error (.malformedFrame "raw websocket frame"), buffer)

/-! ## What comes in -/

/-- What the socket gives to one read: a message, a failure, or the end behind a closing handshake.
A peer's close frame is answered before the call goes on, and the call may be cancelled
meanwhile. -/
inductive WsEvent
  | received (message : WsMessage) (cancelled : Bool)
  | failed (e : WsError)
  | ended
  deriving DecidableEq

/-- Whether there is a socket, the lines received but not yet yielded, and the complaint about a
line that the peer left unterminated. -/
structure WsInbound where
  socket : Bool
  buffer : LineBuffer
  truncated : Option TransportError
  deriving DecidableEq

namespace WsInbound

/-- No socket, and nothing of the old one. -/
def reset : WsInbound := ⟨false, .empty, none⟩

/-- The complaint about a line of which only `held` octets came. -/
def midLine (held : ℕ) : TransportError :=
  .malformedFrame s!"the connection ended mid-line, after {held} bytes with no CR-LF"

/-- The connection has ended: a line without its end is discarded, and reported. -/
def truncatedLine (i : WsInbound) : WsInbound :=
  let discarded := i.buffer.discardPartial
  ⟨false, discarded.2, discarded.1.map midLine⟩

/-- `next_line`: the complete lines, the complaint about the incomplete one, and the end. -/
def next (i : WsInbound) (events : List WsEvent) :
    Option (Option Line) × WsInbound × List WsEvent :=
  match i.buffer.popLine with
  | (some line, buffer) => (some (some line), { i with buffer }, events)
  | (none, _) =>
    match i.truncated with
    | some e => (some (some (.error e)), { i with truncated := none }, events)
    | none =>
      if i.socket then
        match events with
        | [] => (none, i, [])
        | .received message cancelled :: events =>
          match receive i.buffer message with
          | (.error e, _) => (some (some (.error e)), reset, events)
          | (.ok (.peerClosed _), buffer) =>
            -- a cancelled call has taken the socket and has not looked at the fragment yet
            if cancelled then (none, { i with socket := false, buffer }, events)
            else next (truncatedLine { i with buffer }) events
          | (.ok _, buffer) => next { i with buffer } events
        | .failed e :: events => (some (some (.error (mapWsError e))), reset, events)
        | .ended :: events => next i.truncatedLine events
      else (some none, i, events)

end WsInbound

/-! ## The transport -/

/-- What became of a message that was handed to the socket; the call may be cancelled meanwhile. -/
inductive Sent
  | done
  | failed (e : WsError)
  | abandoned

/-- What the transport does to its sockets. -/
inductive WsAction
  | connect (uri : List Char)
  | send (name message : String)
  | close
  deriving DecidableEq

structure WsTransport extends WsInbound where
  address : List Char
  controlLink : Option (List Char)
  log : List WsAction
  deriving DecidableEq

namespace WsOk

/-- The request name, which is the whole message. -/
def name : String := "wsok"

end WsOk

/-- The subprotocol that a handshake must negotiate. -/
def subprotocol : String := "TLCP-2.5.0.lightstreamer.com"

namespace WsTransport

/-- An address that cannot be used is refused here. -/
def tryNew (address : List Char) : Except TransportError WsTransport :=
  (streamUri address none).map fun _ =>
    { WsInbound.reset with address := address, controlLink := none, log := [] }

def properties (_ : WsTransport) : TransportProperties := ⟨true, false, false⟩

/-- Record the control link for the next socket. -/
def setControlLink (t : WsTransport) (host : Option (List Char)) : WsTransport :=
  { t with controlLink := host.bind fun host =>
      let host := Text.trim host
      if host.isEmpty ∨ host = controlLinkSame then none else some host }

/-- Send a request as one message. A failure that is fatal costs the socket, and nothing of what was
received. -/
def sendMessage (t : WsTransport) (name message : String) (sent : Sent) :
    Option (Except TransportError Unit) × WsTransport :=
  if t.socket then
    let t := { t with log := t.log ++ [.send name message] }
    match sent with
    | .done => (some (.ok ()), t)
    | .failed e =>
      (some (.error (.send name e.text)), if isFatal e then { t with socket := false } else t)
    | .abandoned => (none, t)
  else (some (.error (.send name "no websocket is open")), t)

/-- Dial, and greet the server; `dialed` is the subprotocol that was negotiated. -/
def connect (t : WsTransport) (dialed : Option (Except String (Option Bytes))) (sent : Sent) :
    Option (Except TransportError Unit) × WsTransport :=
  match streamUri t.address t.controlLink with
  | .error e => (some (.error e), t)
  | .ok uri =>
    let target := redact uri
    let t := { t with log := t.log ++ [.connect uri] }
    match dialed with
    | none => (none, t)
    | some (.error source) => (some (.error (connectError target source)), t)
    | some (.ok (some value)) =>
      if value = utf8Bytes subprotocol.toList then
        { t with socket := true }.sendMessage WsOk.name WsOk.name sent
      else (some (.error (connectError target (s!"server negotiated subprotocol " ++
        s!"`{String.ofList (fromUtf8Lossy value)}`, expected `{subprotocol}`"))), t)
    | some (.ok none) => (some (.error (connectError target
        s!"server negotiated no subprotocol, expected `{subprotocol}`")), t)

/-- The name and the message of the request that opens a stream connection. -/
def encodeOpen : StreamOpen → Except TransportError (String × String)
  | .create r =>
    match r.encodeParameters .webSocket with
    -- the message may quote a password
    | .error _ => .error (.send CreateSession.name
        "session creation parameters cannot be encoded")
    | .ok parameters => .ok (CreateSession.name, wsMessage CreateSession.name parameters)
  | .bind r =>
    match r.encodeParameters .webSocket with
    | .error e => .error (.send BindSession.name e.display)
    | .ok parameters => .ok (BindSession.name, wsMessage BindSession.name parameters)

/-- Whether a request may go on a socket that is already there. -/
def mayReuse : StreamOpen → Bool
  | .create _ => false
  | .bind _ => true

/-- What the surroundings answer to an open: whether the closing of the old socket came to an end,
the handshake, and the two sends. -/
structure OpenAnswer where
  closed : Bool
  dialed : Option (Except String (Option Bytes))
  greeting : Sent
  request : Sent

/-- Open a stream connection: on the socket there is, or on a new one. -/
def openStream (t : WsTransport) (request : StreamOpen) (answer : OpenAnswer) :
    Option (Except TransportError Unit) × WsTransport :=
  match encodeOpen request with
  | .error e => (some (.error e), t)
  | .ok (name, message) =>
    if t.socket && mayReuse request then t.sendMessage name message answer.request
    else
      let log := if t.socket then t.log ++ [.close] else t.log
      -- the buffer is cleared when the old socket has been closed
      if t.socket && !answer.closed then (none, { t with socket := false, log })
      else
        match { t with toWsInbound := .reset, log }.connect answer.dialed answer.greeting with
        | (some (.ok ()), t) => t.sendMessage name message answer.request
        | stopped => stopped

/-- Yield the next line. -/
def nextLine (t : WsTransport) (events : List WsEvent) :
    Option (Option Line) × WsTransport × List WsEvent :=
  let yielded := t.toWsInbound.next events
  (yielded.1, { t with toWsInbound := yielded.2.1 }, yielded.2.2)

/-- Send a control request on the socket of the stream. -/
def sendControl (t : WsTransport) (request : EncodedRequest) (sent : Sent) :
    Option (Except TransportError Unit) × WsTransport :=
  match encodeWsBatch request.name [request.parameters] with
  | .error e => (some (.error (.send request.name e.display)), t)
  | .ok message => t.sendMessage request.name message sent

/-- Close the socket and release everything. -/
def close (t : WsTransport) (failure : Option String) : Except TransportError Unit × WsTransport :=
  if t.socket then
    (match failure with
      | none => .ok ()
      | some reason => .error (.connectionLost reason),
      { t with toWsInbound := .reset, log := t.log ++ [.close] })
  else (.ok (), { t with toWsInbound := .reset })

end WsTransport

end Lightstreamer.Transport
