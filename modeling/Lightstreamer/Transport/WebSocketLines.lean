import Lightstreamer.Foundations.Machine
import Lightstreamer.Foundations.Pulling
import Lightstreamer.Transport.ControlResponse
import Lightstreamer.Transport.WebSocket

/-!
# The lines of a WebSocket

`incoming` is the meaning of what a socket brings: the octets of its text messages, and how it ends.
Over any run of a transport, with any number of sockets, the lines that its calls give are the lines
of these octets, socket by socket (`WsTransport.run_lines`). What it does to its sockets keeps an
order (`WsTransport.Phase`): a `create_session` is sent on a new socket only, right behind `wsok`.
-/

namespace Lightstreamer.Transport

open Foundations Protocol

/-! ## What a socket brings -/

/-- How a socket ends: closed, with the complaint about a line that was cut or without, or lost; or
not yet. -/
inductive WsEnd
  | waits
  | closed (complains : Bool)
  | failed (e : TransportError)
  deriving DecidableEq

/-- The octets of the text messages, and the end. -/
def incoming : List WsEvent → Bytes × WsEnd
  | [] => ([], .waits)
  | .received message cancelled :: events =>
    match message with
    | .text text => (utf8Bytes text.toList ++ (incoming events).1, (incoming events).2)
    | .ping | .pong => incoming events
    | .close _ => ([], .closed !cancelled)
    | .binary payload => ([], .failed (.malformedFrame
        s!"binary websocket message of {payload.length} bytes; TLCP is text only"))
    | .frame => ([], .failed (.malformedFrame "raw websocket frame"))
  | .failed e :: _ => ([], .failed (mapWsError e))
  | .ended :: _ => ([], .closed true)

/-- The lines of the octets that come in: those that line ends close, and what the end adds. -/
def wsLinesDue (bytes : Bytes) (fin : WsEnd) : List Line :=
  (LineBuffer.linesOf bytes).map LineBuffer.readLine ++
    match fin with
    | .waits => []
    | .failed e => [.error e]
    | .closed complains =>
      if complains ∧ Segments.opened lf bytes ≠ [] then
        [.error (WsInbound.midLine (Segments.opened lf bytes).length)]
      else []

theorem wsLinesDue_append (bytes more : Bytes) (fin : WsEnd) :
    wsLinesDue (bytes ++ more) fin = (LineBuffer.linesOf bytes).map LineBuffer.readLine ++
      wsLinesDue (Segments.opened lf bytes ++ more) fin := by
  unfold wsLinesDue
  rw [LineBuffer.linesOf_append, List.map_append, List.append_assoc, Segments.opened_append]

namespace WsInbound

open LineBuffer

/-- The lines that are due from the calls to come. -/
inductive Due : WsInbound → List WsEvent → List Line → Prop
  | ended {i : WsInbound} (events : List WsEvent) (socket : i.socket = false) :
      Due i events (i.buffer.ready.map readLine ++ i.truncated.toList.map .error)
  | goesOn {i : WsInbound} {events : List WsEvent} {body : Bytes} {fin : WsEnd}
      (socket : i.socket = true) (truncated : i.truncated = none) (sound : i.buffer.Sound)
      (brings : incoming events = (body, fin))
      (short : ShortRuns (i.buffer.partialBytes ++ body)) :
      Due i events (i.buffer.ready.map readLine ++ wsLinesDue (i.buffer.partialBytes ++ body) fin)

variable {i : WsInbound} {events : List WsEvent} {items : List Line}

/-- A line that is ready is the first one due. -/
theorem Due.pop {line : Line} {buffer : LineBuffer} (h : Due i events items)
    (hpop : i.buffer.popLine = (some line, buffer)) :
    ∃ rest, items = line :: rest ∧ Due { i with buffer } events rest := by
  unfold popLine at hpop
  split at hpop
  · cases hpop
  · next hready =>
    cases hpop
    cases h with
    | ended hsocket =>
      rw [hready]
      exact ⟨_, rfl, .ended events hsocket⟩
    | goesOn hsocket htruncated hsound hbrings hshort =>
      rw [hready]
      exact ⟨_, rfl, .goesOn hsocket htruncated
        ⟨hsound.no_lf, hsound.bounded, hsound.scanned_eq⟩ hbrings hshort⟩

theorem ready_of_popLine {buffer : LineBuffer} (hpop : i.buffer.popLine = (none, buffer)) :
    i.buffer.ready = [] := by
  unfold popLine at hpop
  split at hpop
  · next hready => exact hready
  · cases hpop

/-- With nothing ready, what is due is what the socket brings. -/
theorem Due.of_socket (h : Due i events items) (hready : i.buffer.ready = [])
    (hsocket : i.socket = true) : ∃ body fin, i.buffer.Sound ∧
      incoming events = (body, fin) ∧ ShortRuns (i.buffer.partialBytes ++ body) ∧
      items = wsLinesDue (i.buffer.partialBytes ++ body) fin := by
  cases h with
  | ended hnone =>
    rw [hsocket] at hnone
    cases hnone
  | goesOn _ htruncated hsound hbrings hshort =>
    exact ⟨_, _, hsound, hbrings, hshort, by rw [hready]; rfl⟩

/-- After a failure there is nothing to give but the failure. -/
theorem wsLinesDue_failed (hsound : i.buffer.Sound) (e : TransportError) :
    wsLinesDue (i.buffer.partialBytes ++ []) (.failed e) = [.error e] := by
  rw [List.append_nil, wsLinesDue, linesOf_of_not_mem hsound.no_lf]
  rfl

/-- A text message: the lines that it closes become ready. -/
theorem due_pushMessage {text : String} {body : Bytes} {fin : WsEnd}
    (hready : i.buffer.ready = []) (hsocket : i.socket = true) (htruncated : i.truncated = none)
    (hsound : i.buffer.Sound) (hbrings : incoming events = (body, fin))
    (hshort : ShortRuns (i.buffer.partialBytes ++ (utf8Bytes text.toList ++ body))) :
    (i.buffer.pushMessage text).1 = .ok () ∧
      Due { i with buffer := (i.buffer.pushMessage text).2 } events
        (wsLinesDue (i.buffer.partialBytes ++ (utf8Bytes text.toList ++ body)) fin) := by
  obtain ⟨hle, hruns⟩ := hshort.opened_append
  have hpush := pushBytes_eq hsound (utf8Bytes text.toList)
  rw [if_pos hle, hready, List.nil_append] at hpush
  have hsound' := pushBytes_sound hsound (utf8Bytes text.toList)
  rw [hpush] at hsound'
  rw [pushMessage, hpush, ← List.append_assoc,
    wsLinesDue_append (i.buffer.partialBytes ++ utf8Bytes text.toList)]
  exact ⟨rfl, .goesOn hsocket htruncated hsound' hbrings hruns⟩

/-- The end of the socket: what is ready, and the complaint. -/
theorem due_truncatedLine (hready : i.buffer.ready = []) (hsound : i.buffer.Sound)
    (events : List WsEvent) :
    Due i.truncatedLine events (wsLinesDue (i.buffer.partialBytes ++ []) (.closed true)) := by
  have hdue := Due.ended (i := i.truncatedLine) events rfl
  have hitems : wsLinesDue (i.buffer.partialBytes ++ []) (.closed true) =
      i.truncatedLine.buffer.ready.map readLine ++ i.truncatedLine.truncated.toList.map .error := by
    rw [List.append_nil, wsLinesDue, linesOf_of_not_mem hsound.no_lf,
      Segments.opened_of_not_mem hsound.no_lf]
    simp only [truncatedLine, discardPartial, hready, List.map_nil, List.nil_append, true_and,
      List.length_pos_iff]
    split_ifs <;> rfl
  rwa [hitems]

/-- What one message does to what is due. -/
def Received (i : WsInbound) (events : List WsEvent) (cancelled : Bool) (body : Bytes)
    (fin : WsEnd) : Except TransportError Reception × LineBuffer → Prop
  | (.error e, _) => body = [] ∧ fin = .failed e
  | (.ok (.peerClosed _), buffer) => buffer = i.buffer ∧ body = [] ∧ fin = .closed !cancelled
  | (.ok _, buffer) =>
    Due { i with buffer } events (wsLinesDue (i.buffer.partialBytes ++ body) fin)

theorem received {message : WsMessage} {cancelled : Bool} {body : Bytes} {fin : WsEnd}
    (hready : i.buffer.ready = []) (hsocket : i.socket = true) (htruncated : i.truncated = none)
    (hsound : i.buffer.Sound)
    (hbrings : incoming (.received message cancelled :: events) = (body, fin))
    (hshort : ShortRuns (i.buffer.partialBytes ++ body)) :
    Received i events cancelled body fin (receive i.buffer message) := by
  cases message with
  | text text =>
    cases hbrings
    obtain ⟨hok, hdue⟩ := due_pushMessage hready hsocket htruncated hsound rfl hshort
    rw [receive, hok]
    exact hdue
  | ping | pong =>
    have hrest : incoming events = (body, fin) := hbrings
    have hdue := Due.goesOn hsocket htruncated hsound hrest hshort
    rw [hready] at hdue
    exact hdue
  | close description =>
    cases hbrings
    exact ⟨rfl, rfl, rfl⟩
  | binary payload | frame =>
    cases hbrings
    exact ⟨rfl, rfl⟩

theorem due_reset (events : List WsEvent) : Due reset events [] := .ended events rfl

/-- **One call of `next_line` keeps the lines that are due.** -/
theorem next_delivers : Delivers next Due := by
  intro i events later items hdue
  fun_induction next i events generalizing items with
  | case1 events i line buffer hpop =>
    obtain ⟨rest, rfl, hrest⟩ := hdue.pop hpop
    exact .inl ⟨_, _, rfl, hrest⟩
  | case2 events i buffer hpop e htruncated =>
    have hready := ready_of_popLine hpop
    cases hdue with
    | ended hsocket =>
      rw [hready, htruncated]
      refine .inl ⟨_, _, rfl, ?_⟩
      have hdue := @Due.ended { i with truncated := none } (events ++ later) hsocket
      rwa [hready] at hdue
    | goesOn _ hnone =>
      rw [htruncated] at hnone
      cases hnone
  | case3 i buffer hpop htruncated hsocket => exact .inr ⟨_, _, rfl, hdue⟩
  | case4 i buffer hpop htruncated hsocket message cancelled events e buffer' hreceive =>
    have hready := ready_of_popLine hpop
    obtain ⟨body, fin, hsound, hbrings, hshort, rfl⟩ := hdue.of_socket hready hsocket
    have hgot := received hready hsocket htruncated hsound hbrings hshort
    rw [hreceive] at hgot
    obtain ⟨rfl, rfl⟩ := hgot
    rw [wsLinesDue_failed hsound]
    exact .inl ⟨_, _, rfl, due_reset _⟩
  | case5 i buffer hpop htruncated hsocket message events description buffer' hreceive =>
    have hready := ready_of_popLine hpop
    obtain ⟨body, fin, hsound, hbrings, hshort, rfl⟩ := hdue.of_socket hready hsocket
    have hgot := received hready hsocket htruncated hsound hbrings hshort
    rw [hreceive] at hgot
    obtain ⟨rfl, rfl, rfl⟩ := hgot
    refine .inr ⟨_, _, rfl, ?_⟩
    have hdue := @Due.ended { i with socket := false } (events ++ later) rfl
    rw [hready, htruncated] at hdue
    simpa [wsLinesDue, linesOf_of_not_mem hsound.no_lf, htruncated] using hdue
  | case6 i buffer hpop htruncated hsocket message cancelled events description buffer' hreceive
      hcancelled ih =>
    have hready := ready_of_popLine hpop
    obtain ⟨body, fin, hsound, hbrings, hshort, rfl⟩ := hdue.of_socket hready hsocket
    have hgot := received hready hsocket htruncated hsound hbrings hshort
    rw [hreceive] at hgot
    obtain ⟨rfl, rfl, rfl⟩ := hgot
    rw [Bool.not_eq_true] at hcancelled
    rw [hcancelled]
    exact ih _ (due_truncatedLine hready hsound _)
  | case7 i buffer hpop htruncated hsocket message cancelled events reception buffer' hother
      hreceive ih =>
    have hready := ready_of_popLine hpop
    obtain ⟨body, fin, hsound, hbrings, hshort, rfl⟩ := hdue.of_socket hready hsocket
    have hgot := received hready hsocket htruncated hsound hbrings hshort
    rw [hreceive] at hgot
    cases reception with
    | buffered | ignored => exact ih _ hgot
    | peerClosed description => exact absurd rfl (hother description)
  | case8 i buffer hpop htruncated hsocket e events =>
    obtain ⟨body, fin, hsound, hbrings, hshort, rfl⟩ :=
      hdue.of_socket (ready_of_popLine hpop) hsocket
    cases hbrings
    rw [wsLinesDue_failed hsound]
    exact .inl ⟨_, _, rfl, due_reset _⟩
  | case9 i buffer hpop htruncated hsocket events ih =>
    have hready := ready_of_popLine hpop
    obtain ⟨body, fin, hsound, hbrings, hshort, rfl⟩ := hdue.of_socket hready hsocket
    cases hbrings
    exact ih _ (due_truncatedLine hready hsound _)
  | case10 events i buffer hpop htruncated hsocket =>
    have hready := ready_of_popLine hpop
    cases hdue with
    | ended hnone =>
      have hdue := Due.ended (events ++ later) hnone
      rw [hready, htruncated] at hdue ⊢
      exact .inl ⟨_, _, rfl, hdue⟩
    | goesOn hsome => exact absurd hsome hsocket

/-- When the socket is given up, the lines that are ready are what is left. -/
theorem Due.lose (h : Due i events items) (later : List WsEvent) :
    ∃ rest, rest <+: items ∧ Due { i with socket := false } later rest := by
  cases h with
  | ended hsocket => exact ⟨_, List.prefix_refl _, .ended later rfl⟩
  | goesOn _ htruncated =>
    refine ⟨_, ?_, .ended later rfl⟩
    rw [htruncated, Option.toList_none, List.map_nil, List.append_nil]
    exact List.prefix_append _ _

end WsInbound

/-! ## Any number of sockets -/

namespace WsTransport

/-- What the session layer does. -/
inductive Command
  | openStream (request : Session.StreamOpen) (answer : OpenAnswer)
  | nextLine (patience : ℕ)
  | sendControl (request : EncodedRequest) (sent : Sent)
  | setControlLink (host : Option (List Char))
  | close (failure : Option String)

/-- How many sockets have been dialled. -/
def dials (t : WsTransport) : ℕ :=
  t.log.countP fun
    | .connect _ => true
    | _ => false

/-- One command after the other, with what each socket brings: what the calls of `next_line` gave
that came to an end, each with the number of the socket it was called on; and the transport. -/
def run (bring : ℕ → List WsEvent) (t : WsTransport) (events : List WsEvent) :
    List Command → List (ℕ × Option Line) × WsTransport
  | [] => ([], t)
  | .openStream request answer :: commands =>
    let t' := (t.openStream request answer).2
    t'.run bring (if t'.dials = t.dials then events else bring t'.dials) commands
  | .nextLine n :: commands =>
    let call := t.nextLine (events.take n)
    let rest := call.2.1.run bring (call.2.2 ++ events.drop n) commands
    (call.1.toList.map (t.dials, ·) ++ rest.1, rest.2)
  | .sendControl request sent :: commands =>
    (t.sendControl request sent).2.run bring events commands
  | .setControlLink host :: commands => (t.setControlLink host).run bring events commands
  | .close failure :: commands => (t.close failure).2.run bring events commands

variable {t t' : WsTransport}

/-- The socket is kept, given up, or let go with everything that came on it. -/
def Keeps (t t' : WsTransport) : Prop :=
  t'.dials = t.dials ∧ (t'.toWsInbound = t.toWsInbound ∨
    t'.toWsInbound = { t.toWsInbound with socket := false } ∨ t'.toWsInbound = .reset)

/-- A new socket was dialled. -/
def Dials (t t' : WsTransport) : Prop :=
  t'.dials = t.dials + 1 ∧ (t'.toWsInbound = .reset ∨ t'.toWsInbound = ⟨true, .empty, none⟩)

theorem dials_send (t : WsTransport) (name message : String) :
    { t with log := t.log ++ [WsAction.send name message] }.dials = t.dials := by
  simp [dials]

/-- A send keeps the socket, or gives it up. -/
theorem sendMessage_cases (t : WsTransport) (name message : String) (sent : Sent) :
    (t.sendMessage name message sent).2.dials = t.dials ∧
      ((t.sendMessage name message sent).2.toWsInbound = t.toWsInbound ∨
        (t.sendMessage name message sent).2.toWsInbound =
          { t.toWsInbound with socket := false }) := by
  unfold sendMessage
  split_ifs with hsocket
  · cases sent with
    | done | abandoned => exact ⟨dials_send t name message, .inl rfl⟩
    | failed e =>
      dsimp only
      split_ifs
      · exact ⟨dials_send t name message, .inr rfl⟩
      · exact ⟨dials_send t name message, .inl rfl⟩
  · exact ⟨rfl, .inl rfl⟩

theorem sendMessage_keeps (t : WsTransport) (name message : String) (sent : Sent) :
    Keeps t (t.sendMessage name message sent).2 := by
  obtain ⟨hdials, hin | hin⟩ := sendMessage_cases t name message sent
  · exact ⟨hdials, .inl hin⟩
  · exact ⟨hdials, .inr (.inl hin)⟩

/-- A send on a socket that has brought nothing. -/
theorem Dials.sendMessage (h : Dials t t') (name message : String) (sent : Sent) :
    Dials t (t'.sendMessage name message sent).2 := by
  obtain ⟨hdials, hin⟩ := sendMessage_cases t' name message sent
  refine ⟨hdials.trans h.1, ?_⟩
  rcases h.2 with hreset | hnew
  · rw [hreset] at hin
    exact .inl (hin.elim id id)
  · rw [hnew] at hin
    exact hin.elim .inr .inl

theorem connect_cases (hreset : t.toWsInbound = .reset)
    (dialed : Option (Except String (Option Bytes))) (sent : Sent) :
    (t.connect dialed sent).2 = t ∨ Dials t (t.connect dialed sent).2 := by
  obtain ⟨inbound, address, link, log⟩ := t
  subst hreset
  unfold connect
  split
  · exact .inl rfl
  · next uri huri =>
    have hdial : ∀ i : WsInbound, i = .reset ∨ i = ⟨true, .empty, none⟩ →
        Dials ⟨.reset, address, link, log⟩ ⟨i, address, link, log ++ [.connect uri]⟩ :=
      fun i hi => ⟨by simp [dials], hi⟩
    right
    obtain _ | source | _ | value := dialed
    · exact hdial _ (.inl rfl)
    · exact hdial _ (.inl rfl)
    · exact hdial _ (.inl rfl)
    · dsimp only
      split_ifs
      · exact (hdial _ (.inr rfl)).sendMessage _ _ _
      · exact hdial _ (.inl rfl)

theorem dials_close (t : WsTransport) :
    { t with log := if t.socket then t.log ++ [WsAction.close] else t.log }.dials = t.dials := by
  simp only [dials]
  split_ifs
  · simp
  · rfl

/-- What an open does: on the socket there is, on a new one, or nothing. -/
theorem openStream_cases (t : WsTransport) (request : Session.StreamOpen) (answer : OpenAnswer) :
    Keeps t (t.openStream request answer).2 ∨ Dials t (t.openStream request answer).2 := by
  unfold openStream
  split
  · exact .inl ⟨rfl, .inl rfl⟩
  · next name message hencode =>
    by_cases hreuse : (t.socket && mayReuse request) = true
    · rw [if_pos hreuse]
      exact .inl (t.sendMessage_keeps name message answer.request)
    · rw [if_neg hreuse]
      dsimp only
      have hdials := dials_close t
      set log := if t.socket then t.log ++ [WsAction.close] else t.log with hlog
      by_cases hclosed : (t.socket && !answer.closed) = true
      · rw [if_pos hclosed]
        exact .inl ⟨hdials, .inr (.inl rfl)⟩
      · rw [if_neg hclosed]
        set cleared : WsTransport := { WsInbound.reset, t with log } with hcleared
        have hsame : cleared.dials = t.dials := hdials
        have hconnect := connect_cases (t := cleared) rfl answer.dialed answer.greeting
        split
        · next t' hresult =>
          rw [hresult] at hconnect
          rcases hconnect with rfl | h
          · obtain ⟨hkept, hin⟩ := sendMessage_cases cleared name message answer.request
            exact .inl ⟨hkept.trans hsame, .inr (.inr (hin.elim id id))⟩
          · have hsent := h.sendMessage name message answer.request
            exact .inr ⟨hsame ▸ hsent.1, hsent.2⟩
        · rcases hconnect with h | h
          · rw [h]
            exact .inl ⟨hsame, .inr (.inr rfl)⟩
          · exact .inr ⟨hsame ▸ h.1, h.2⟩

theorem sendControl_keeps (t : WsTransport) (request : EncodedRequest) (sent : Sent) :
    Keeps t (t.sendControl request sent).2 := by
  unfold sendControl
  split
  · exact ⟨rfl, .inl rfl⟩
  · exact t.sendMessage_keeps _ _ sent

theorem close_keeps (t : WsTransport) (failure : Option String) : Keeps t (t.close failure).2 := by
  unfold close
  split_ifs
  · exact ⟨by simp [dials], .inr (.inr rfl)⟩
  · exact ⟨rfl, .inr (.inr rfl)⟩

/-- What is due after the socket was kept, given up or let go. -/
theorem Keeps.due (h : Keeps t t') {events : List WsEvent} {items : List Line}
    (hdue : t.toWsInbound.Due events items) :
    ∃ rest, rest <+: items ∧ t'.toWsInbound.Due events rest := by
  obtain ⟨-, hin | hin | hin⟩ := h
  · exact ⟨items, List.prefix_refl _, hin ▸ hdue⟩
  · rw [hin]
    exact hdue.lose events
  · rw [hin]
    exact ⟨[], List.nil_prefix, WsInbound.due_reset events⟩

/-- The lines that a socket brings. -/
def linesOf (events : List WsEvent) : List Line :=
  wsLinesDue (incoming events).1 (incoming events).2

/-- What is due on a new socket. -/
theorem Dials.due (h : Dials t t') {events : List WsEvent}
    (hshort : LineBuffer.ShortRuns (incoming events).1) :
    ∃ rest, rest <+: linesOf events ∧ t'.toWsInbound.Due events rest := by
  obtain ⟨-, hin | hin⟩ := h
  · rw [hin]
    exact ⟨[], List.nil_prefix, WsInbound.due_reset events⟩
  · rw [hin]
    exact ⟨_, List.prefix_refl _, .goesOn rfl rfl LineBuffer.sound_empty rfl hshort⟩

/-- The results of the calls on one socket. -/
def resultsOn (k : ℕ) (results : List (ℕ × Option Line)) : List (Option Line) :=
  (results.filter (·.1 = k)).map Prod.snd

/-- What is told of the sockets from the current one on: first parts of what is due. -/
def Tells (bring : ℕ → List WsEvent) (current : ℕ) (items : List Line)
    (results : List (ℕ × Option Line)) : Prop :=
  Deals (resultsOn current results) items ∧
    (∀ k, current < k → Deals (resultsOn k results) (linesOf (bring k))) ∧
    ∀ k, k < current → resultsOn k results = []

variable {bring : ℕ → List WsEvent} {results : List (ℕ × Option Line)}

theorem Tells.dialled {current : ℕ} {items rest : List Line}
    (h : Tells bring (current + 1) rest results) (hrest : rest <+: linesOf (bring (current + 1))) :
    Tells bring current items results := by
  obtain ⟨hnew, hlater, hbefore⟩ := h
  refine ⟨?_, fun k hk => ?_, fun k hk => hbefore k (by omega)⟩
  · rw [hbefore current (Nat.lt_succ_self _)]
    exact deals_nil items
  · obtain rfl | hlt := Nat.eq_or_lt_of_le (Nat.succ_le_of_lt hk)
    · exact hnew.mono hrest
    · exact hlater k hlt

/-- A call that came to an end on the current socket. -/
theorem Tells.cons {current : ℕ} {items : List Line} (h : Tells bring current items.tail results) :
    Tells bring current items ((current, items.head?) :: results) := by
  obtain ⟨hnow, hlater, hbefore⟩ := h
  refine ⟨?_, fun k hk => ?_, fun k hk => ?_⟩
  · rw [resultsOn, List.filter_cons_of_pos (by simp), List.map_cons]
    exact hnow.cons
  · rw [resultsOn, List.filter_cons_of_neg (by simp; omega)]
    exact hlater k hk
  · rw [resultsOn, List.filter_cons_of_neg (by simp; omega)]
    exact hbefore k hk

/-- **The lines of every socket**: whatever the session layer does with the transport, and however
many of its calls are cancelled, the calls made on one socket give a first part of the lines of its
text messages, each once and in order, and then the end. -/
theorem run_tells (hshort : ∀ k, LineBuffer.ShortRuns (incoming (bring k)).1)
    {events : List WsEvent} {items : List Line} (hdue : t.toWsInbound.Due events items)
    (commands : List Command) : Tells bring t.dials items (t.run bring events commands).1 := by
  induction commands generalizing t events items with
  | nil => exact ⟨deals_nil items, fun k _ => deals_nil _, fun k _ => rfl⟩
  | cons command commands ih =>
    have hkeeps : ∀ t', Keeps t t' → Tells bring t.dials items (t'.run bring events commands).1 :=
      fun t' h => by
        obtain ⟨rest, hrest, hdue'⟩ := h.due hdue
        obtain ⟨hnow, hlater⟩ := h.1 ▸ ih hdue'
        exact ⟨hnow.mono hrest, hlater⟩
    cases command with
    | openStream request answer =>
      simp only [run]
      obtain h | h := openStream_cases t request answer
      · rw [if_pos h.1]
        exact hkeeps _ h
      · rw [if_neg (by rw [h.1]; omega)]
        obtain ⟨rest, hrest, hdue'⟩ := h.due (hshort (t.openStream request answer).2.dials)
        have htells := ih hdue'
        rw [h.1] at htells hrest ⊢
        exact htells.dialled hrest
    | nextLine n =>
      rw [← List.take_append_drop n events] at hdue
      obtain ⟨i, left, hcall, hdue'⟩ | ⟨i, left, hcall, hdue'⟩ :=
        WsInbound.next_delivers _ _ _ _ hdue
      · have htells := @ih { t with toWsInbound := i } _ _ hdue'
        simp only [run, nextLine, hcall]
        exact htells.cons
      · have htells := @ih { t with toWsInbound := i } _ _ hdue'
        simp only [run, nextLine, hcall]
        exact htells
    | sendControl request sent => exact hkeeps _ (t.sendControl_keeps request sent)
    | setControlLink host => exact hkeeps _ ⟨rfl, .inl rfl⟩
    | close failure => exact hkeeps _ (t.close_keeps failure)

theorem eq_of_tryNew {address : List Char} (hnew : tryNew address = .ok t) :
    t = { WsInbound.reset with address := address, controlLink := none, log := [] } := by
  unfold tryNew at hnew
  cases huri : streamUri address none with
  | error e =>
    rw [huri] at hnew
    cases hnew
  | ok uri =>
    rw [huri] at hnew
    cases hnew
    rfl

/-- The lines of every socket, from the first one on; before it there is only the end. -/
theorem run_lines {address : List Char} (hnew : tryNew address = .ok t)
    (hshort : ∀ k, LineBuffer.ShortRuns (incoming (bring k)).1) (commands : List Command) :
    (∀ result ∈ resultsOn 0 (t.run bring [] commands).1, result = none) ∧
      ∀ k, 0 < k → Deals (resultsOn k (t.run bring [] commands).1) (linesOf (bring k)) := by
  obtain rfl := eq_of_tryNew hnew
  obtain ⟨hnone, hlater, -⟩ := @run_tells
    { WsInbound.reset with address := address, controlLink := none, log := [] } bring hshort [] []
    (WsInbound.due_reset []) commands
  exact ⟨fun result hmem => hnone.eq_none_of_nil hmem, hlater⟩

/-- A handshake that agrees on the subprotocol, and two sends that go out. -/
def agreed : OpenAnswer := ⟨true, some (.ok (some (utf8Bytes subprotocol.toList))), .done, .done⟩

/-- A line end that two messages share, and a close that cuts a line. -/
def cutLines : List WsEvent :=
  [.received (.text "WSOK\r") false, .received .ping false, .received (.text "\nLOO") false,
    .received (.close none) false]

theorem run_lines_cut :
    (∀ result ∈ resultsOn 0 (run (fun _ => cutLines) ⟨.reset, "ws://h".toList, none, []⟩ []
        [.nextLine 1, .openStream (.bind ⟨some "S1", none, none, .streaming none none none, none⟩)
          agreed, .nextLine 1, .nextLine 2, .nextLine 1, .close none, .nextLine 1]).1,
      result = none) ∧
      ∀ k, 0 < k →
        Deals (resultsOn k (run (fun _ => cutLines) ⟨.reset, "ws://h".toList, none, []⟩ []
          [.nextLine 1, .openStream (.bind ⟨some "S1", none, none, .streaming none none none, none⟩)
            agreed, .nextLine 1, .nextLine 2, .nextLine 1, .close none, .nextLine 1]).1)
          (linesOf cutLines) :=
  @run_lines _ (fun _ => cutLines) "ws://h".toList rfl
    (fun _ _ hrun _ => hrun.length_le.trans (by decide)) _

/-! ## A socket that is left in peace -/

/-- Whether a send costs the socket. -/
def Sent.costs : Sent → Bool
  | .failed e => isFatal e
  | .done | .abandoned => false

/-- A command that keeps the socket. -/
inductive Mild : Command → Prop
  | nextLine (patience : ℕ) : Mild (.nextLine patience)
  | sendControl (request : EncodedRequest) {sent : Sent} (costs : Sent.costs sent = false) :
      Mild (.sendControl request sent)
  | setControlLink (host : Option (List Char)) : Mild (.setControlLink host)

theorem sendMessage_inbound (t : WsTransport) (name message : String) {sent : Sent}
    (hsent : Sent.costs sent = false) :
    (t.sendMessage name message sent).2.dials = t.dials ∧
      (t.sendMessage name message sent).2.toWsInbound = t.toWsInbound := by
  unfold sendMessage
  split_ifs
  · cases sent with
    | done | abandoned => exact ⟨dials_send t name message, rfl⟩
    | failed e =>
      have hmild : isFatal e = false := hsent
      dsimp only
      rw [if_neg (by simp [hmild])]
      exact ⟨dials_send t name message, rfl⟩
  · exact ⟨rfl, rfl⟩

theorem sendControl_inbound (t : WsTransport) (request : EncodedRequest) {sent : Sent}
    (hsent : Sent.costs sent = false) :
    (t.sendControl request sent).2.dials = t.dials ∧
      (t.sendControl request sent).2.toWsInbound = t.toWsInbound := by
  unfold sendControl
  split
  · exact ⟨rfl, rfl⟩
  · exact sendMessage_inbound t _ _ hsent

/-- Mild commands on a socket: the calls give what is due, one after the other, and then the end. -/
theorem run_mild {events : List WsEvent} {items : List Line} (hdue : t.toWsInbound.Due events items)
    {commands : List Command} (hmild : ∀ command ∈ commands, Mild command) (i : ℕ)
    {result : ℕ × Option Line} (h : (t.run bring events commands).1[i]? = some result) :
    result = (t.dials, items[i]?) := by
  induction commands generalizing t events items i with
  | nil => cases h
  | cons command commands ih =>
    have hrest : ∀ c ∈ commands, Mild c := fun c hc => hmild c (List.mem_cons_of_mem _ hc)
    have hkept : ∀ t' : WsTransport, t'.dials = t.dials → t'.toWsInbound = t.toWsInbound →
        (t'.run bring events commands).1[i]? = some result → result = (t.dials, items[i]?) :=
      fun t' hdials hin h => hdials ▸ ih (hin ▸ hdue) hrest i h
    cases hmild command List.mem_cons_self with
    | nextLine n =>
      rw [← List.take_append_drop n events] at hdue
      obtain ⟨inbound, left, hcall, hdue'⟩ | ⟨inbound, left, hcall, hdue'⟩ :=
        WsInbound.next_delivers _ _ _ _ hdue
      · simp only [run, nextLine, hcall, Option.toList_some, List.map_cons, List.map_nil,
          List.singleton_append] at h
        cases i with
        | zero =>
          rw [List.getElem?_cons_zero] at h
          cases h
          rw [List.head?_eq_getElem?]
        | succ i =>
          rw [List.getElem?_cons_succ] at h
          rw [@ih { t with toWsInbound := inbound } _ _ hdue' hrest i h, List.getElem?_tail]
          rfl
      · simp only [run, nextLine, hcall, Option.toList_none, List.map_nil, List.nil_append] at h
        exact @ih { t with toWsInbound := inbound } _ _ hdue' hrest i h
    | sendControl request hsent =>
      have hsame := sendControl_inbound t request hsent
      exact hkept _ hsame.1 hsame.2 h
    | setControlLink host => exact hkept (t.setControlLink host) rfl rfl h

/-- A message goes out on the socket there is. -/
theorem sendMessage_ok {name message : String} {sent : Sent}
    (h : t.sendMessage name message sent = (some (.ok ()), t')) :
    t.socket = true ∧ t'.dials = t.dials ∧ t'.toWsInbound = t.toWsInbound := by
  unfold sendMessage at h
  split_ifs at h with hsocket
  · cases sent with
    | done =>
      cases h
      exact ⟨hsocket, dials_send t name message, rfl⟩
    | failed e => cases h
    | abandoned => cases h
  · cases h

/-- A handshake that agrees leaves a new socket. -/
theorem connect_ok {dialed : Option (Except String (Option Bytes))} {sent : Sent}
    (h : t.connect dialed sent = (some (.ok ()), t')) :
    t'.dials = t.dials + 1 ∧ t'.toWsInbound = { t.toWsInbound with socket := true } := by
  unfold connect at h
  split at h
  · cases h
  · next uri huri =>
    obtain _ | source | _ | value := dialed
    · cases h
    · cases h
    · cases h
    · dsimp only at h
      split_ifs at h
      · obtain ⟨-, hdials, hin⟩ := sendMessage_ok h
        refine ⟨hdials.trans ?_, hin⟩
        simp [dials]
      · cases h

/-- An open that does not reuse the socket leaves a new one, on which nothing has come. -/
theorem openStream_ok {request : Session.StreamOpen} {answer : OpenAnswer}
    (h : t.openStream request answer = (some (.ok ()), t'))
    (hnew : t.socket = false ∨ mayReuse request = false) :
    t'.dials = t.dials + 1 ∧ t'.toWsInbound = ⟨true, .empty, none⟩ := by
  have hreuse : ¬(t.socket && mayReuse request) = true := by
    rcases hnew with h | h <;> simp [h]
  unfold openStream at h
  split at h
  · cases h
  · rw [if_neg hreuse] at h
    have hdials := dials_close t
    dsimp only at h
    set log := if t.socket then t.log ++ [WsAction.close] else t.log with hlog
    split_ifs at h with hclosed
    · cases h
    · split at h
      · next greeted hconnect =>
        obtain ⟨hdialled, hfresh⟩ := connect_ok hconnect
        obtain ⟨-, hsame, hin⟩ := sendMessage_ok h
        exact ⟨hsame.trans (hdialled.trans (congrArg (· + 1) hdials)), hin.trans hfresh⟩
      · next hother => exact absurd h (hother t')

/-- **The lines of a socket that is left in peace**: after an open on a new socket, and whatever is
sent on it, the calls give every line of its text messages, each once and in order, however the
octets are cut into messages and the calls are cancelled; and then the end. -/
theorem openStream_yields {request : Session.StreamOpen} {answer : OpenAnswer}
    (hopen : t.openStream request answer = (some (.ok ()), t'))
    (hnew : t.socket = false ∨ mayReuse request = false) {events : List WsEvent}
    (hshort : LineBuffer.ShortRuns (incoming events).1) {commands : List Command}
    (hmild : ∀ command ∈ commands, Mild command) (i : ℕ) {result : ℕ × Option Line}
    (h : (t'.run bring events commands).1[i]? = some result) :
    result = (t.dials + 1, (linesOf events)[i]?) := by
  obtain ⟨hdials, hfresh⟩ := openStream_ok hopen hnew
  have hdue : t'.toWsInbound.Due events (linesOf events) := by
    rw [hfresh]
    exact .goesOn rfl rfl LineBuffer.sound_empty rfl hshort
  rw [← hdials]
  exact run_mild hdue hmild i h

/-- Two lines, with a control request and a call that is cancelled between them. -/
theorem openStream_yields_cut :
    ((1, some (.error (WsInbound.midLine 3))) : ℕ × Option Line) =
      (1, (linesOf cutLines)[1]?) := by
  let opened := openStream ⟨.reset, "ws://h".toList, none, []⟩
    (.bind ⟨some "S1", none, none, .streaming none none none, none⟩) agreed
  have hopen : opened = (some (.ok ()), opened.2) := rfl
  exact @openStream_yields _ _ (fun _ => []) _ _ hopen (.inl rfl) cutLines
    (fun _ hrun _ => hrun.length_le.trans (by decide))
    [.nextLine 3, .sendControl ⟨"heartbeat", "/lightstreamer/heartbeat.txt", ""⟩ .done, .nextLine 0,
      .nextLine 1]
    (by simp only [List.forall_mem_cons, List.not_mem_nil, false_implies, implies_true, and_true]
        exact ⟨.nextLine 3, .sendControl _ rfl, .nextLine 0, .nextLine 1⟩)
    1 _ (by decide +kernel)

/-! ## The order of the messages -/

/-- How far the newest socket is: closed, or none yet; dialled; greeted; in use. -/
inductive Phase
  | closed
  | dialled
  | greeted
  | used
  deriving DecidableEq

/-- What may happen to the newest socket: `wsok` is its first message and never comes again, and a
session is created on it right behind or not at all. A socket that is lost is left behind. -/
def Phase.next : Phase → WsAction → Option Phase
  | _, .connect _ => some .dialled
  | .closed, .send _ _ => none
  | .dialled, .send name message =>
    if name = WsOk.name ∧ message = WsOk.name then some .greeted else none
  | .greeted, .send name _ => if name = WsOk.name then none else some .used
  | .used, .send name _ =>
    if name = WsOk.name ∨ name = CreateSession.name then none else some .used
  | .closed, .close | .dialled, .close => none
  | .greeted, .close | .used, .close => some .closed

/-- A live socket has been greeted. -/
def Stands (q : Phase) (t : WsTransport) : Prop := t.socket = true → q = .greeted ∨ q = .used

variable {q : Phase}

theorem stands_of_lost (q : Phase) (h : t.socket = false) : Stands q t := fun hsocket => by
  rw [h] at hsocket
  cases hsocket

theorem Stands.send (h : Stands q t) {name message : String} (hwsok : name ≠ WsOk.name)
    (hcreate : name = CreateSession.name → q = .greeted) (hsocket : t.socket = true) :
    q.next (.send name message) = some .used := by
  rcases h hsocket with rfl | rfl
  · simp [Phase.next, hwsok]
  · have hcreate' : name ≠ CreateSession.name := fun h => by cases hcreate h
    simp [Phase.next, hwsok, hcreate']

/-- A send, when the phase allows it on a live socket. -/
theorem reads_sendMessage {q' : Phase} {name message : String}
    (hnext : t.socket = true → q.next (.send name message) = some q')
    (hq' : q' = .greeted ∨ q' = .used) (sent : Sent) :
    ∃ q'', Stands q'' (t.sendMessage name message sent).2 ∧
      ((t.sendMessage name message sent).2.socket = true → q'' = q') ∧
      Reads Phase.next t.log q (t.sendMessage name message sent).2.log q'' := by
  unfold sendMessage
  split_ifs with hsocket
  · have hread := Reads.one (hnext hsocket) t.log
    cases sent with
    | done | abandoned => exact ⟨q', fun _ => hq', fun _ => rfl, hread⟩
    | failed e =>
      refine ⟨q', fun _ => hq', fun _ => rfl, ?_⟩
      dsimp only
      split_ifs
      · exact hread
      · exact hread
  · exact ⟨q, fun h => absurd h hsocket, fun h => absurd h hsocket, .refl _ _ _⟩

/-- Dialling leaves no socket, or one that has been greeted and nothing more. -/
theorem reads_connect (hsocket : t.socket = false)
    (dialed : Option (Except String (Option Bytes))) (sent : Sent) :
    ∃ q', ((t.connect dialed sent).2.socket = true → q' = .greeted) ∧
      Reads Phase.next t.log q (t.connect dialed sent).2.log q' := by
  have hnone : ¬t.socket = true := by simp [hsocket]
  unfold connect
  split
  · exact ⟨q, fun h => absurd h hnone, .refl _ _ _⟩
  · next uri huri =>
    have hdial : Reads Phase.next t.log q (t.log ++ [.connect uri]) .dialled :=
      .one (by cases q <;> rfl) t.log
    obtain _ | source | _ | value := dialed
    · exact ⟨.dialled, fun h => absurd h hnone, hdial⟩
    · exact ⟨.dialled, fun h => absurd h hnone, hdial⟩
    · exact ⟨.dialled, fun h => absurd h hnone, hdial⟩
    · dsimp only
      split_ifs
      · obtain ⟨q', -, hq', hread⟩ := @reads_sendMessage
          { t with socket := true, log := t.log ++ [WsAction.connect uri] } .dialled .greeted
          WsOk.name WsOk.name (fun _ => rfl) (.inl rfl) sent
        exact ⟨q', hq', hdial.trans hread⟩
      · exact ⟨.dialled, fun h => absurd h hnone, hdial⟩

/-- The request that opens a stream connection is no greeting, and creates no session where the
socket may be reused. -/
theorem encodeOpen_name {request : Session.StreamOpen} {name message : String}
    (h : encodeOpen request = .ok (name, message)) :
    name ≠ WsOk.name ∧ (mayReuse request = true → name ≠ CreateSession.name) := by
  cases request with
  | create r =>
    simp only [encodeOpen] at h
    split at h
    · cases h
    · cases h
      exact ⟨by decide, fun h => by cases h⟩
  | bind r =>
    simp only [encodeOpen] at h
    split at h
    · cases h
    · cases h
      exact ⟨by decide, fun _ => by decide⟩

theorem reads_openStream (h : Stands q t) (request : Session.StreamOpen) (answer : OpenAnswer) :
    ∃ q', Stands q' (t.openStream request answer).2 ∧
      Reads Phase.next t.log q (t.openStream request answer).2.log q' := by
  unfold openStream
  split
  · exact ⟨q, h, .refl _ _ _⟩
  · next name message hencode =>
    obtain ⟨hwsok, hcreate⟩ := encodeOpen_name hencode
    by_cases hreuse : (t.socket && mayReuse request) = true
    · rw [if_pos hreuse]
      rw [Bool.and_eq_true] at hreuse
      obtain ⟨q', hstands, -, hread⟩ := reads_sendMessage
        (h.send hwsok fun hname => absurd hname (hcreate hreuse.2)) (.inr rfl) answer.request
      exact ⟨q', hstands, hread⟩
    · rw [if_neg hreuse]
      dsimp only
      obtain ⟨cut, hcut⟩ : ∃ cut, Reads Phase.next t.log q
          (if t.socket then t.log ++ [WsAction.close] else t.log) cut := by
        split_ifs with hsocket
        · exact ⟨.closed, .one (by rcases h hsocket with rfl | rfl <;> rfl) t.log⟩
        · exact ⟨q, .refl _ _ _⟩
      set log := if t.socket then t.log ++ [WsAction.close] else t.log with hlog
      split_ifs with hclosed
      · exact ⟨cut, stands_of_lost cut rfl, hcut⟩
      · obtain ⟨q', hgreeted, hread⟩ := reads_connect (q := cut)
          (t := { WsInbound.reset, t with log }) rfl answer.dialed answer.greeting
        split
        · next t' hconnect =>
          rw [hconnect] at hgreeted hread
          have hstands : Stands q' t' := fun hsocket => .inl (hgreeted hsocket)
          obtain ⟨q'', hstands', -, hread'⟩ := reads_sendMessage
            (fun hsocket => hstands.send hwsok (fun _ => hgreeted hsocket) hsocket) (.inr rfl)
            answer.request
          exact ⟨q'', hstands', hcut.trans (hread.trans hread')⟩
        · exact ⟨q', fun hsocket => .inl (hgreeted hsocket), hcut.trans hread⟩

theorem reads_sendControl (h : Stands q t) {request : EncodedRequest}
    (hwsok : request.name ≠ WsOk.name) (hcreate : request.name ≠ CreateSession.name) (sent : Sent) :
    ∃ q', Stands q' (t.sendControl request sent).2 ∧
      Reads Phase.next t.log q (t.sendControl request sent).2.log q' := by
  unfold sendControl
  split
  · exact ⟨q, h, .refl _ _ _⟩
  · next message hencode =>
    obtain ⟨q', hstands, -, hread⟩ := reads_sendMessage
      (h.send hwsok fun hname => absurd hname hcreate) (.inr rfl) sent
    exact ⟨q', hstands, hread⟩

theorem reads_close (h : Stands q t) (failure : Option String) :
    ∃ q', Stands q' (t.close failure).2 ∧ Reads Phase.next t.log q (t.close failure).2.log q' := by
  unfold close
  split_ifs with hsocket
  · exact ⟨.closed, stands_of_lost _ rfl,
      .one (by rcases h hsocket with rfl | rfl <;> rfl) t.log⟩
  · exact ⟨q, stands_of_lost _ rfl, .refl _ _ _⟩

/-- A control request neither greets nor creates a session. -/
theorem controlRequest_name (r : ControlRequest) :
    r.name ≠ WsOk.name ∧ r.name ≠ CreateSession.name := by
  cases r <;> exact ⟨by simp only [ControlRequest.name]; decide,
    by simp only [ControlRequest.name]; decide⟩

/-- Reading takes no new socket. -/
theorem next_socket (i : WsInbound) (events : List WsEvent) (h : i.socket = false) :
    (i.next events).2.1.socket = false := by
  unfold WsInbound.next
  split
  · exact h
  · split
    · exact h
    · rw [if_neg (by simp [h])]
      exact h

/-- **The order of the messages**, over any run of the transport. -/
theorem run_reads {commands : List Command}
    (hnames : ∀ request sent, .sendControl request sent ∈ commands →
      ∃ r : ControlRequest, request.name = r.name)
    (h : Stands q t) (events : List WsEvent) :
    ∃ q', Reads Phase.next t.log q (t.run bring events commands).2.log q' := by
  induction commands generalizing t q events with
  | nil => exact ⟨q, .refl _ _ _⟩
  | cons command commands ih =>
    have hrest : ∀ request sent, .sendControl request sent ∈ commands →
        ∃ r : ControlRequest, request.name = r.name :=
      fun request sent hmem => hnames request sent (List.mem_cons_of_mem _ hmem)
    have hthen : ∀ (t' : WsTransport) (events : List WsEvent),
        (∃ q', Stands q' t' ∧ Reads Phase.next t.log q t'.log q') →
        ∃ q', Reads Phase.next t.log q (t'.run bring events commands).2.log q' :=
      fun t' events hstep => by
        obtain ⟨q', hstands, hread⟩ := hstep
        obtain ⟨q'', hread'⟩ := ih hrest hstands events
        exact ⟨q'', hread.trans hread'⟩
    cases command with
    | openStream request answer => exact hthen _ _ (reads_openStream h request answer)
    | nextLine n =>
      refine hthen (t.nextLine (events.take n)).2.1 _ ⟨q, fun hsocket => h ?_, .refl _ _ _⟩
      by_contra hlost
      rw [Bool.not_eq_true] at hlost
      rw [nextLine, next_socket _ _ hlost] at hsocket
      cases hsocket
    | sendControl request sent =>
      obtain ⟨r, hr⟩ := hnames request sent List.mem_cons_self
      obtain ⟨hwsok, hcreate⟩ := controlRequest_name r
      exact hthen _ _ (reads_sendControl h (hr ▸ hwsok) (hr ▸ hcreate) sent)
    | setControlLink host => exact hthen (t.setControlLink host) _ ⟨q, h, .refl _ _ _⟩
    | close failure => exact hthen _ _ (reads_close h failure)

/-- What a new transport does to its sockets, whatever it is told to do and however its calls are
cancelled: nothing is sent without a socket, `wsok` is the first message on each, and a session is
created on a new one only, as the second message. -/
theorem run_conforms {address : List Char} (hnew : tryNew address = .ok t)
    {commands : List Command} (hnames : ∀ request sent, .sendControl request sent ∈ commands →
      ∃ r : ControlRequest, request.name = r.name) :
    ∃ q, exec Phase.next .closed (t.run bring [] commands).2.log = some q := by
  obtain rfl := eq_of_tryNew hnew
  obtain ⟨q, log, hlog, haccept⟩ := @run_reads
    { WsInbound.reset with address := address, controlLink := none, log := [] } bring .closed
    commands hnames (stands_of_lost _ rfl) []
  rw [hlog]
  exact ⟨q, haccept⟩

/-- A session on one socket, a heartbeat, and the next session on another one. -/
theorem run_conforms_twice :
    ∃ q, exec Phase.next .closed (run (fun _ => cutLines) ⟨.reset, "ws://h".toList, none, []⟩ []
      [.openStream (.bind ⟨some "S1", none, none, .streaming none none none, none⟩) agreed,
        .nextLine 2, .sendControl ⟨"heartbeat", "/lightstreamer/heartbeat.txt", ""⟩ .done,
        .openStream (.create ⟨none, none, none, none, none, .streaming none none none, none, none⟩)
          agreed, .close none]).2.log = some q :=
  @run_conforms _ _ "ws://h".toList rfl _ fun request sent hmem => by
    simp only [List.mem_cons, reduceCtorEq, Command.sendControl.injEq, List.not_mem_nil, or_false,
      false_or] at hmem
    exact ⟨.heartbeat ⟨none⟩, by rw [hmem.1]; rfl⟩

end WsTransport

end Lightstreamer.Transport
