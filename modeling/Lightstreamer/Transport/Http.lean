import Lightstreamer.Session.Vocabulary
import Lightstreamer.Transport.ControlResponse
import Lightstreamer.Transport.Endpoint

/-!
# The HTTP transport

One stream connection at a time, whose body is read line by line (`Inbound`), and a connection of
its own for every control request, whose response lines are queued ahead of the stream
(`HttpTransport.nextLine`). What the network answers is an argument: the response head of a request,
and the reads of a socket in order. A call that runs out of reads is one that still waits for its
socket; the state it leaves is the one a cancelled call leaves.
-/

namespace Lightstreamer.Transport

open Foundations Protocol Session

/-- A line as the session layer gets it. -/
abbrev Line := Except TransportError String

/-! ## One stream connection -/

/-- A live stream connection: how its body is framed, and the octets read but not yet decoded. -/
structure StreamConn where
  framing : BodyFraming
  pending : Bytes
  deriving DecidableEq

/-- The result of one step of a response body. -/
inductive BodyRead
  | progress (bytes : Bytes)
  | ended (bytes : Bytes)
  deriving DecidableEq

namespace StreamConn

/-- `read_chunk` up to its await: what the octets held give, none when a read is needed. -/
def decodeHeld (c : StreamConn) : Except TransportError (Option BodyRead × StreamConn) :=
  (decodeBody c.framing c.pending).map fun d =>
    (if d.complete then some (.ended d.out) else if d.out = [] then none
      else some (.progress d.out), ⟨d.framing, d.pending⟩)

/-- What the close of the socket means, by the framing it meets. -/
def onClose (c : StreamConn) : Except TransportError BodyRead :=
  match c.framing with
  | .untilClose | .length 0 | .chunked .done => .ok (.ended [])
  | .length _ => .error (.connectionLost "stream connection closed before its Content-Length")
  | .chunked _ => .error (.connectionLost "chunked stream connection closed mid-body")

/-- `read_chunk` from its await on. -/
def onRead (c : StreamConn) : SocketRead → Except TransportError (BodyRead × StreamConn)
  | .error reason => .error (.connectionLost reason)
  | .ok [] => c.onClose.map fun read => (read, c)
  | .ok (byte :: read) =>
    (decodeBody c.framing (c.pending ++ byte :: read)).map fun d =>
      (if d.complete then .ended d.out else .progress d.out, ⟨d.framing, d.pending⟩)

end StreamConn

/-- What comes in on the stream connection: the connection, absent before the first open and after
any close or end; the lines received but not yet yielded; and the last line of a body that ended. -/
structure Inbound where
  stream : Option StreamConn
  lines : LineBuffer
  pendingFinal : Option Line
  deriving DecidableEq

namespace Inbound

/-- Nothing of the old connection is carried into the next. -/
def reset : Inbound := ⟨none, .empty, none⟩

/-- Take what one step of the body gave. The end of a body ends its last line. -/
def absorb (i : Inbound) (c : StreamConn) : BodyRead → Except TransportError Inbound
  | .progress bytes =>
    let pushed := i.lines.pushBytes bytes
    pushed.1.map fun _ => { i with stream := some c, lines := pushed.2 }
  | .ended bytes =>
    let pushed := i.lines.pushBytes bytes
    pushed.1.map fun _ =>
      let flushed := pushed.2.flushPartial
      ⟨none, flushed.2, flushed.1⟩

/-- How many octets the connection holds, with one more for the connection itself. -/
def held (i : Inbound) : ℕ := (i.stream.map fun c => c.pending.length + 1).getD 0

theorem decodeHeld_lt {c c' : StreamConn} {i i' : Inbound} {read : BodyRead}
    (h : c.decodeHeld = .ok (some read, c')) (ha : i.absorb c' read = .ok i') :
    i'.held < c.pending.length + 1 := by
  unfold StreamConn.decodeHeld at h
  cases hd : decodeBody c.framing c.pending with
  | error e => rw [hd] at h; cases h
  | ok d =>
    have hlen := decodeBody_length hd
    rw [hd] at h
    cases hpush : i.lines.pushBytes d.out with
    | mk result lines =>
    simp only [Except.map, Except.ok.injEq, Prod.mk.injEq] at h
    obtain ⟨hread, rfl⟩ := h
    split_ifs at hread with hcomplete hout <;> cases hread <;>
      cases result <;> simp only [absorb, hpush, Except.map] at ha <;> cases ha
    · simp [held]
    · have := List.length_pos_iff.2 hout
      simp only [held, Option.map_some, Option.getD_some]
      omega

/-- `next_line`, behind the control responses: the complete lines, the last line of a body that
ended, and the end. -/
def next (i : Inbound) (reads : List SocketRead) :
    Option (Option Line) × Inbound × List SocketRead :=
  match i.lines.popLine with
  | (some line, lines) => (some (some line), { i with lines }, reads)
  | (none, _) =>
    match i.pendingFinal with
    | some line => (some (some line), { i with pendingFinal := none }, reads)
    | none =>
      match _hstream : i.stream with
      | none => (some none, i, reads)
      | some c =>
        match _hheld : c.decodeHeld with
        | .error e => (some (some (.error e)), reset, reads)
        | .ok (some read, c') =>
          match _habsorb : i.absorb c' read with
          | .error e => (some (some (.error e)), reset, reads)
          | .ok i' => i'.next reads
        | .ok (none, c') =>
          match reads with
          | [] => (none, { i with stream := some c' }, [])
          | read :: reads =>
            match c'.onRead read with
            | .error e => (some (some (.error e)), reset, reads)
            | .ok (read, c'') =>
              match i.absorb c'' read with
              | .error e => (some (some (.error e)), reset, reads)
              | .ok i' => i'.next reads
termination_by (reads.length, i.held)
decreasing_by
  · have := decodeHeld_lt _hheld _habsorb
    simp only [held, _hstream, Option.map_some, Option.getD_some] at this ⊢
    exact Prod.Lex.right _ this
  · exact Prod.Lex.left _ _ (Nat.lt_succ_self _)

end Inbound

/-! ## The transport -/

/-- Whether an HTTP transport streams or long-polls. -/
inductive HttpMode
  | streaming
  | polling
  deriving DecidableEq

/-- A request that is encoded for the control connection. -/
structure EncodedRequest where
  name : String
  path : String
  parameters : String
  deriving DecidableEq

structure HttpTransport extends Inbound where
  mode : HttpMode
  address : List Char
  controlLink : Option (List Char)
  controlLines : List String
  deriving DecidableEq

namespace HttpTransport

/-- An address that cannot be used is refused here. -/
def tryNew (address : List Char) (mode : HttpMode) : Except TransportError HttpTransport :=
  (resolve address none).map fun _ =>
    { Inbound.reset with mode := mode, address := address, controlLink := none, controlLines := [] }

def properties (t : HttpTransport) : TransportProperties :=
  match t.mode with
  | .streaming => ⟨false, true, false⟩
  | .polling => ⟨false, false, true⟩

/-- The endpoint of the next connection. -/
def endpoint (t : HttpTransport) : Except TransportError Endpoint :=
  resolve t.address t.controlLink

/-- Record the control link for the next connection. -/
def setControlLink (t : HttpTransport) (host : Option (List Char)) : HttpTransport :=
  { t with controlLink := host.bind fun host =>
      let host := Text.trim host
      if host.isEmpty ∨ host = controlLinkSame then none else some host }

/-- The target and the body of the request that opens a stream connection. -/
def encodeOpen : StreamOpen → Except TransportError (String × String)
  | .create r =>
    match r.encodeParameters .http with
    -- the message may quote a password
    | .error _ => .error (.send CreateSession.name
        "session creation parameters cannot be encoded")
    | .ok body => .ok (httpTarget CreateSession.path, body)
  | .bind r =>
    match r.encodeParameters .http with
    | .error e => .error (.send BindSession.name e.display)
    | .ok body => .ok (httpTarget BindSession.path, body)

/-- Open a stream connection, with the answer of the server to its request; none when it does not
come in time. -/
def openStream (t : HttpTransport) (request : StreamOpen)
    (answer : Option (Except TransportError Head)) : Except TransportError Unit × HttpTransport :=
  match encodeOpen request, t.endpoint with
  | .error e, _ => (.error e, t)
  | _, .error e => (.error e, t)
  | .ok _, .ok endpoint =>
    let t := { t with toInbound := .reset }
    match answer with
    | none => (.error (connectError endpoint.redacted "stream connection handshake timed out"), t)
    | some (.error e) => (.error e, t)
    | some (.ok head) =>
      if isSuccess head.code then
        (.ok (), { t with stream := some ⟨head.framing, head.leftover⟩ })
      else (.error (connectError endpoint.redacted
          s!"server answered the stream request with HTTP {head.code}"), t)

/-- Yield the next line: a control response first, then a line of the stream. -/
def nextLine (t : HttpTransport) (reads : List SocketRead) :
    Option (Option Line) × HttpTransport × List SocketRead :=
  match t.controlLines with
  | line :: lines => (some (some (.ok line)), { t with controlLines := lines }, reads)
  | [] =>
    let yielded := t.toInbound.next reads
    (yielded.1, { t with toInbound := yielded.2.1 }, yielded.2.2)

/-- What becomes of a control request: the lines of its response, or a failure. -/
def respond (t : HttpTransport) (request : EncodedRequest) (head : Except TransportError Head)
    (reads : List SocketRead) : Except TransportError (List String) :=
  match t.endpoint with
  | .error e => .error (.send request.name e.display)
  | .ok _ => (controlRoundTrip request.name head reads).getD
      (.error (.send request.name "control request timed out"))

/-- Send a control request on its own connection, and queue the response. -/
def sendControl (t : HttpTransport) (request : EncodedRequest) (head : Except TransportError Head)
    (reads : List SocketRead) : Except TransportError Unit × HttpTransport :=
  match t.respond request head reads with
  | .error e => (.error e, t)
  | .ok lines => (.ok (), { t with controlLines := t.controlLines ++ lines })

/-- Close the stream connection and release everything. -/
def close (t : HttpTransport) : HttpTransport :=
  { t with toInbound := .reset, controlLines := [] }

end HttpTransport

end Lightstreamer.Transport
