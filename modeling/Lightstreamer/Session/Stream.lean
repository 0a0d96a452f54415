import Lightstreamer.Session.Turns

/-!
# A session from both ends

A server numbers the data notifications of one session 1, 2, 3, … (`Feed`) and sends them in order
on the current stream connection; the lines it sent and the driver did not read yet are in flight
(`World.wire`). `World.step` lets the two ends move in any order: the server sends the next
notification, another line or a `LOOP`, or answers the request that opened the connection, from a
position of its own choice when the request recovers; the driver reads the next line or takes a turn
without one, and what is in flight is gone with the connection.
-/

namespace Lightstreamer.Session

open Lightstreamer.Foundations Lightstreamer.Protocol

/-! ## What the server sends -/

/-- The data notifications of one session: the lines that the server sends for the positions 1, 2,
3, … and what they parse to. -/
structure Feed where
  session : SessionId
  line : ℕ → String
  note : ℕ → Notification
  parses : ∀ k, parseLine (line k) = .ok (note k)
  counts : ∀ k, isData (note k) = true

/-- A line that neither counts nor says where the session stands. -/
def isAside (line : String) : Bool :=
  match parseLine line with
  | .ok (.connectionOk ..) | .ok (.connectionError ..) | .ok (.end ..) | .ok (.loop _)
  | .ok (.progressive _) => false
  | .ok n => !isData n
  | .error _ => true

/-- A `CONOK` of the session. -/
def confirms (sid : SessionId) (line : String) : Bool :=
  match parseLine line with
  | .ok (.connectionOk sid' ..) => sid' = sid
  | _ => false

/-- The position in a `PROG`. -/
def resumesAt (line : String) : Option ℕ :=
  match parseLine line with
  | .ok (.progressive position) => some position
  | _ => none

/-- A `LOOP`. -/
def isLoopLine (line : String) : Bool :=
  match parseLine line with
  | .ok n => isLoop n
  | .error _ => false

/-! ## The two ends and the wire -/

/-- Where the server stands on the current stream connection. -/
inductive Link
  /-- The request that opened it is not answered yet. -/
  | asked (request : StreamOpen)
  /-- It was answered, and notifications follow. -/
  | open
  /-- The server sent a `LOOP`. -/
  | ended
  /-- There is none. -/
  | down
  /-- It was lost, and the server goes on sending into it. -/
  | void
  deriving DecidableEq

/-- The position that a request asks to recover from. -/
def StreamOpen.recoveryFrom : StreamOpen → Option ℕ
  | .create _ => none
  | .bind r => r.recoveryFrom

/-- A recovery was asked for and is not answered. -/
def Link.recovers : Link → Bool
  | asked request => request.recoveryFrom.isSome
  | _ => false

/-- What is left of a stream connection that the driver gave up. The server does not notice, unless
it ended the connection itself. -/
def Link.lost (link : Link) (i : Input) : Link :=
  match link with
  | .open => if i.wake = .streamEnded then .down else .void
  | _ => .down

/-- The driver, the last position that the server sent, the lines in flight, and where the server
stands. -/
structure World where
  drive : Drive
  sent : ℕ
  wire : List String
  link : Link
  deriving DecidableEq

/-- What happens at one of the ends. -/
inductive Event
  /-- The server sends the next data notification. -/
  | serve
  /-- The server sends another line. -/
  | remark (line : String)
  /-- The server sends a `LOOP`. -/
  | loop (line : String)
  /-- The server answers a plain rebind. -/
  | rebind (conok : String)
  /-- The server answers a recovery. -/
  | recover (conok prog : String)
  /-- The driver reads the next line. -/
  | receive (turn : Turn)
  /-- The driver takes a turn without a line. -/
  | input (i : Input)
  deriving DecidableEq

namespace World

/-- The turn that the driver takes. -/
def turnOf (w : World) : Event → Option Input
  | .receive turn => w.wire.head?.map fun line => ⟨.line line, turn⟩
  | .input i => some i
  | _ => none

/-- The turn fits the wire: lines are read from it in order, and the end of the stream comes after
the last of them. -/
def admits (w : World) (i : Input) : Bool :=
  match i.wake with
  | .line _ => false
  | .streamEnded => w.wire.isEmpty
  | _ => true

/-- The driver has taken a turn, with `wire` still in flight. -/
def moved (w : World) (i : Input) (wire : List String) (s : Drive) : World :=
  match w.drive.phase, s.phase with
  | .pumping, .pumping => { w with drive := s, wire := wire }
  | .pumping, _ => { w with drive := s, wire := [], link := w.link.lost i }
  | .opening, .pumping =>
    { w with drive := s, wire := [], link := .asked (s.driver.buildOpen s.driver.intent) }
  | _, _ => { w with drive := s }

/-- One event of a session, or `none` when it does not fit where the two ends stand. -/
def step (feed : Feed) (w : World) : Event → Option World
  | .serve =>
    match w.link with
    | .open => some { w with sent := w.sent + 1, wire := w.wire ++ [feed.line (w.sent + 1)] }
    | .void => some { w with sent := w.sent + 1 }
    | _ => none
  | .remark line =>
    if isAside line ∧ w.drive.phase = .pumping then some { w with wire := w.wire ++ [line] }
    else none
  | .loop line =>
    if isLoopLine line ∧ w.link = .open then
      some { w with wire := w.wire ++ [line], link := .ended }
    else none
  | .rebind conok =>
    match w.link with
    | .asked (.bind r) =>
      if confirms feed.session conok ∧ r.recoveryFrom = none then
        some { w with wire := w.wire ++ [conok], link := .open }
      else none
    | _ => none
  | .recover conok prog =>
    match w.link, resumesAt prog with
    | .asked (.bind r), some position =>
      if confirms feed.session conok ∧ ∃ requested ∈ r.recoveryFrom, position ≤ requested then
        some { w with sent := position, wire := w.wire ++ [conok, prog], link := .open }
      else none
    | _, _ => none
  | .receive turn =>
    match w.wire with
    | [] => none
    | line :: wire =>
      (w.drive.step ⟨.line line, turn⟩).map (w.moved ⟨.line line, turn⟩ wire)
  | .input i => if w.admits i then (w.drive.step i).map (w.moved i w.wire) else none

end World

end Lightstreamer.Session
