import Lightstreamer.Transport.Decoding
import Lightstreamer.Transport.Framing

/-!
# The response to a control request over HTTP

`controlRoundTrip` is what becomes of one control request once its response head has arrived: the
body is read to its end, and cut into lines. A connection that closes early ends the loop as well,
and the cut makes a line of what follows the last line end.

`readBody_of_cut` says what the loop has read when the connection closes inside the body;
`handed_whole_iff` when the lines handed on are lines the server sent whole.
-/

namespace Lightstreamer.Transport

open Foundations Protocol Marked

/-- The largest control-response body that is buffered. -/
def maxControlBodyBytes : ℕ := 1024 * 1024

/-- A parsed response head, with the octets of the body that came in the same read. -/
structure Head where
  code : ℕ
  framing : BodyFraming
  leftover : Bytes
  deriving DecidableEq

/-- Whether a status code is a success. -/
def isSuccess (code : ℕ) : Bool := 200 ≤ code && code < 300

/-- The lines of a fully read body. -/
def bodyLines (body : Bytes) : List Bytes := ((body.splitOn lf).map stripCr).filter (· ≠ [])

/-- Split a fully read body into its lines. -/
def splitBodyLines (body : Bytes) : Except TransportError (List String) :=
  (bodyLines body).mapM (decodeLine "a control response line was not valid UTF-8: ")

/-- The decoder does not make octets up. -/
theorem decodeChunks_length {state state' : ChunkState} {rest rest' out out' : Bytes}
    (h : decodeChunks state rest out = .ok (state', rest', out')) :
    rest'.length + out'.length ≤ rest.length + out.length := by
  fun_induction decodeChunks state rest out with
  | case1 rest out hnone =>
    cases hbound : checkHeaderBound rest.length with
    | error e => rw [hbound] at h; cases h
    | ok u => rw [hbound] at h; cases h; exact Nat.le_refl _
  | case2 => cases h
  | case3 rest out eol hsome size hsize ih =>
    have := ih h
    rw [List.length_drop] at this
    omega
  | case4 rest out remaining taken left hleft ih =>
    have := ih h
    rw [List.length_append, List.length_take, List.length_drop] at this
    omega
  | case5 rest out remaining taken left hleft =>
    cases h
    rw [List.length_append, List.length_take, List.length_drop]
    omega
  | case6 => cases h; exact Nat.le_refl _
  | case7 rest out hlen ih =>
    have := ih h
    rw [List.length_drop] at this
    omega
  | case8 rest out hnone =>
    cases hbound : checkHeaderBound rest.length with
    | error e => rw [hbound] at h; cases h
    | ok u => rw [hbound] at h; cases h; exact Nat.le_refl _
  | case9 rest out hsome =>
    cases h
    rw [List.length_drop]
    omega
  | case10 rest out eol hsome heol ih =>
    have := ih h
    rw [List.length_drop] at this
    omega
  | case11 => cases h; exact Nat.le_refl _

/-- What a call gives it takes off the octets held. -/
theorem decodeBody_length {framing : BodyFraming} {pending : Bytes} {d : Decoded}
    (h : decodeBody framing pending = .ok d) :
    d.pending.length + d.out.length ≤ pending.length := by
  cases framing with
  | length remaining =>
    cases h
    simp only [List.length_drop, List.length_take]
    omega
  | chunked state =>
    cases hrun : decodeChunks state pending [] with
    | error e => rw [decodeBody, hrun] at h; cases h
    | ok r =>
      obtain ⟨state', rest, out⟩ := r
      rw [decodeBody, hrun] at h
      cases h
      exact decodeChunks_length hrun
  | untilClose =>
    cases h
    exact Nat.le_of_eq (Nat.zero_add _)

/-- What a read of the socket gives: octets, none when the peer has closed, or a failure. -/
abbrev SocketRead := Except String Bytes

/-- The refusal of a body beyond the limit. -/
def controlTooLong (name : String) : TransportError :=
  .send name s!"control response exceeded this client's limit of {maxControlBodyBytes} bytes"

/-- The read loop of `control_round_trip`: the body, or a failure; none while it waits for a
read. -/
def readBody (name : String) (framing : BodyFraming) (pending body : Bytes)
    (reads : List SocketRead) : Option (Except TransportError Bytes) :=
  match _h : decodeBody framing pending with
  | .error e => some (.error (.send name e.display))
  | .ok d =>
    let body := body ++ d.out
    if body.length > maxControlBodyBytes then some (.error (controlTooLong name))
    else if d.complete then some (.ok body)
    else if d.out = [] then
      match reads with
      | [] => none
      | .error reason :: _ => some (.error (.send name reason))
      -- a close ends the body, at whatever point of it
      | .ok [] :: _ => some (.ok body)
      | .ok (byte :: read) :: reads =>
        readBody name d.framing (d.pending ++ byte :: read) body reads
    else readBody name d.framing d.pending body reads
termination_by (reads.length, pending.length)
decreasing_by
  · exact Prod.Lex.left _ _ (Nat.lt_succ_self _)
  · next hout =>
      have := decodeBody_length _h
      have := List.length_pos_iff.2 hout
      exact Prod.Lex.right _ (by omega)

/-- One control request, from the response head on: the lines of the response, or a failure. -/
def controlRoundTrip (name : String) (head : Except TransportError Head)
    (reads : List SocketRead) : Option (Except TransportError (List String)) :=
  match head with
  | .error e => some (.error (.send name e.display))
  | .ok head =>
    if isSuccess head.code then
      (readBody name head.framing head.leftover [] reads).map fun
        | .error e => .error e
        | .ok body => match splitBodyLines body with
          | .error e => .error (.send name e.display)
          | .ok lines => .ok lines
    else some (.error (.send name s!"server answered the control request with HTTP {head.code}"))

/-! ## A connection that closes inside the body -/

/-- A call that gives octets: the loop goes on with what it holds. -/
theorem readBody_of_out {name : String} {framing : BodyFraming} {pending body : Bytes} {d : Decoded}
    (hd : decodeBody framing pending = .ok d) (hcomplete : d.complete = false) (hout : d.out ≠ [])
    (reads : List SocketRead) :
    readBody name framing pending body reads =
      if maxControlBodyBytes < (body ++ d.out).length then some (.error (controlTooLong name))
      else readBody name d.framing d.pending (body ++ d.out) reads := by
  rw [readBody]
  split
  · next h => rw [hd] at h; cases h
  · next h =>
    rw [hd] at h
    cases h
    simp [hcomplete, hout]

/-- A call that gives nothing: the loop takes the next read. -/
theorem readBody_of_wait {name : String} {framing : BodyFraming} {pending body : Bytes}
    {d : Decoded} (hd : decodeBody framing pending = .ok d) (hcomplete : d.complete = false)
    (hout : d.out = [])
    (chunk : Bytes) (reads : List SocketRead) :
    readBody name framing pending body (.ok chunk :: reads) =
      if maxControlBodyBytes < body.length then some (.error (controlTooLong name))
      else if chunk = [] then some (.ok body)
      else readBody name d.framing (d.pending ++ chunk) body reads := by
  rw [readBody]
  split
  · next h => rw [hd] at h; cases h
  · next h =>
    rw [hd] at h
    cases h
    cases chunk <;> simp [hcomplete, hout]

/-- The loop takes what has come and waits for the next read. -/
theorem readBody_owes {framing : BodyFraming} {m : Marked} {p q : Bytes} (h : framing.Owes m)
    (hp : wire m = p ++ q) (hq : q ≠ []) :
    ∃ framing' taken rest held, m = taken ++ rest ∧ p = wire taken ++ held ∧ framing'.Owes rest ∧
      payload (rest.take held.length) = [] ∧
      ∀ name body chunk reads, readBody name framing p body (.ok chunk :: reads) =
        if maxControlBodyBytes < (body ++ payload taken).length then
          some (.error (controlTooLong name))
        else if chunk = [] then some (.ok (body ++ payload taken))
        else readBody name framing' (held ++ chunk) (body ++ payload taken) reads := by
  have hshort : ∀ {n : Marked} {r : Bytes}, wire n = r ++ q →
      decide (n.length ≤ r.length) = false := fun {n r} hn => by
      have hpos : 0 < q.length := List.length_pos_iff.2 hq
      have hlen := congrArg List.length hn
      rw [length_wire, List.length_append] at hlen
      exact decide_eq_false (by omega)
  obtain ⟨framing', taken, rest, held, hdecode, rfl, rfl, howes, hheld, -⟩ :=
    @decodeBody_owes framing m [] p q h (by rw [List.append_nil, hp])
  rw [hshort hp] at hdecode
  by_cases hout : payload taken = []
  · refine ⟨framing', taken, rest, held, rfl, rfl, howes, hheld, fun name body chunk reads => ?_⟩
    rw [readBody_of_wait hdecode rfl hout, hout, List.append_nil]
  · -- the octets held are decoded once more, which gives nothing
    rw [wire_append, List.append_assoc] at hp
    have hrest := List.append_cancel_left hp
    obtain ⟨framing'', taken', rest', held', hdecode', rfl, rfl, howes', hheld', -⟩ :=
      @decodeBody_owes framing' rest [] held q howes (by rw [List.append_nil, hrest])
    rw [hshort hrest] at hdecode'
    have hout' : payload taken' = [] := by
      rw [List.length_append, length_wire, List.take_length_add_append, payload_append] at hheld
      exact (List.append_eq_nil_iff.1 hheld).1
    refine ⟨framing'', taken ++ taken', rest', held', ?_, ?_, howes', hheld',
      fun name body chunk reads => ?_⟩
    · rw [List.append_assoc]
    · rw [wire_append, List.append_assoc]
    · rw [readBody_of_out hdecode rfl hout, readBody_of_wait hdecode' rfl hout', payload_append,
        hout', List.append_nil]
      split_ifs <;> rfl

/-- A body that has been read, within the limit. -/
def capped (name : String) (body : Bytes) : Except TransportError Bytes :=
  if maxControlBodyBytes < body.length then .error (controlTooLong name) else .ok body

/-- **What the loop has read when the connection closes inside the body**: the octets of the body
that have come. -/
theorem readBody_of_cut {framing : BodyFraming} {m : Marked} {pending missing : Bytes}
    {chunks : List Bytes} (h : framing.Owes m)
    (hcut : wire m = pending ++ chunks.flatten ++ missing) (hmissing : missing ≠ [])
    (hchunks : ∀ chunk ∈ chunks, chunk ≠ []) (name : String) (body : Bytes)
    (later : List SocketRead) :
    readBody name framing pending body (chunks.map .ok ++ .ok [] :: later) =
      some (capped name (body ++ payload (m.take (pending ++ chunks.flatten).length))) := by
  induction chunks generalizing framing m pending body with
  | nil =>
    rw [List.flatten_nil, List.append_nil] at hcut
    obtain ⟨framing', taken, rest, held, rfl, rfl, -, hheld, hread⟩ := readBody_owes h hcut hmissing
    have hgot : payload ((taken ++ rest).take (wire taken ++ held).length) = payload taken := by
      rw [List.length_append, length_wire, List.take_length_add_append, payload_append, hheld,
        List.append_nil]
    rw [List.map_nil, List.nil_append, hread, if_pos rfl, List.flatten_nil, List.append_nil, hgot,
      capped]
    split_ifs <;> rfl
  | cons chunk chunks ih =>
    obtain ⟨framing', taken, rest, held, rfl, rfl, howes, hheld, hread⟩ :=
      @readBody_owes framing m pending (chunk ++ chunks.flatten ++ missing) h
        (by rw [hcut, List.flatten_cons]; simp only [List.append_assoc]) (by simp [hmissing])
    have hrest : wire rest = held ++ chunk ++ chunks.flatten ++ missing := by
      rw [wire_append, List.flatten_cons] at hcut
      simp only [List.append_assoc] at hcut ⊢
      exact List.append_cancel_left hcut
    have hgot : payload ((taken ++ rest).take
          (wire taken ++ held ++ (chunk :: chunks).flatten).length) =
        payload taken ++ payload (rest.take (held ++ chunk ++ chunks.flatten).length) := by
      rw [List.flatten_cons, List.append_assoc, List.length_append, length_wire,
        List.take_length_add_append, payload_append, List.append_assoc]
    rw [List.map_cons, List.cons_append, hread, if_neg (hchunks chunk List.mem_cons_self),
      ih howes hrest (fun c hc => hchunks c (List.mem_cons_of_mem _ hc)), hgot, List.append_assoc]
    by_cases hlong : maxControlBodyBytes < (body ++ payload taken).length
    · have hlonger : maxControlBodyBytes < (body ++ (payload taken ++
          payload (rest.take (held ++ chunk ++ chunks.flatten).length))).length := by
        rw [← List.append_assoc, List.length_append]
        omega
      rw [if_pos hlong, capped, if_pos hlonger]
    · rw [if_neg hlong]

/-! ## The lines handed on -/

/-- The lines of the body that have come whole: those whose line end has come, and the last one when
the whole body has. -/
def wholeLines (body got : Bytes) : List Bytes :=
  LineBuffer.linesOf got ++ if got = body then bodyLines (Segments.opened lf got) else []

/-- The lines of a body are those its line ends close, and what follows the last one. -/
theorem bodyLines_eq (body : Bytes) :
    bodyLines body = LineBuffer.linesOf body ++ bodyLines (Segments.opened lf body) := by
  have hopened := Segments.not_mem_opened lf body
  rw [bodyLines, ← Segments.closed_append_opened, List.map_append, List.filter_append,
    LineBuffer.linesOf, bodyLines, List.splitOn_eq_singleton hopened]

theorem bodyLines_opened (body : Bytes) :
    bodyLines (Segments.opened lf body) =
      if stripCr (Segments.opened lf body) = [] then []
      else [stripCr (Segments.opened lf body)] := by
  rw [bodyLines, List.splitOn_eq_singleton (Segments.not_mem_opened lf body), List.map_singleton]
  split_ifs with h <;> simp [h]

/-- The lines that are read are the lines there are. -/
theorem mapM_decodeLine_eq_ok_iff {what : String} {rows : List Bytes} {lines : List String} :
    rows.mapM (decodeLine what) = .ok lines ↔
      lines.map (fun line => utf8Bytes line.toList) = rows := by
  induction rows generalizing lines with
  | nil =>
    rw [List.mapM_nil, List.map_eq_nil_iff]
    exact ⟨fun h => by cases h; rfl, fun h => by rw [h]; rfl⟩
  | cons row rows ih =>
    rw [List.mapM_cons]
    constructor
    · intro h
      cases hrow : decodeLine what row with
      | error e => rw [hrow] at h; cases h
      | ok line =>
        cases hrows : rows.mapM (decodeLine what) with
        | error e => rw [hrow, hrows] at h; cases h
        | ok rest =>
          rw [hrow, hrows] at h
          cases h
          rw [List.map_cons, decodeLine_eq_ok_iff.1 hrow, ih.1 hrows]
    · intro h
      cases lines with
      | nil => cases h
      | cons line lines =>
        rw [List.map_cons, List.cons.injEq] at h
        rw [decodeLine_eq_ok_iff.2 h.1, ih.2 h.2]
        rfl

theorem splitBodyLines_eq_ok_iff {body : Bytes} {lines : List String} :
    splitBodyLines body = .ok lines ↔
      lines.map (fun line => utf8Bytes line.toList) = bodyLines body := mapM_decodeLine_eq_ok_iff

/-- Every line is UTF-8. -/
def Readable (body : Bytes) : Prop :=
  ∀ line ∈ bodyLines body, ∃ text : String, utf8Bytes text.toList = line

theorem exists_splitBodyLines_iff (body : Bytes) :
    (∃ lines, splitBodyLines body = .ok lines) ↔ Readable body := by
  simp only [splitBodyLines_eq_ok_iff, Readable]
  generalize bodyLines body = rows
  induction rows with
  | nil => exact iff_of_true ⟨[], rfl⟩ (by simp)
  | cons row rows ih =>
    rw [List.forall_mem_cons, ← ih]
    constructor
    · rintro ⟨lines, h⟩
      obtain ⟨line, lines, rfl, hline, hlines⟩ := List.map_eq_cons_iff.1 h
      exact ⟨⟨line, hline⟩, lines, hlines⟩
    · rintro ⟨⟨line, hline⟩, lines, hlines⟩
      exact ⟨line :: lines, by rw [List.map_cons, hline, hlines]⟩

/-- What a round trip gives whose connection closes inside the body. -/
theorem controlRoundTrip_of_cut {framing : BodyFraming} {m : Marked} {leftover missing : Bytes}
    {chunks : List Bytes} (h : Encodes framing m)
    (hcut : wire m = leftover ++ chunks.flatten ++ missing) (hmissing : missing ≠ [])
    (hchunks : ∀ chunk ∈ chunks, chunk ≠ []) (name : String) (code : ℕ) (lines : List String) :
    controlRoundTrip name (.ok ⟨code, framing, leftover⟩) (chunks.map .ok ++ [.ok []]) =
        some (.ok lines) ↔
      isSuccess code = true ∧
        (payload (m.take (leftover ++ chunks.flatten).length)).length ≤ maxControlBodyBytes ∧
        lines.map (fun line => utf8Bytes line.toList) =
          bodyLines (payload (m.take (leftover ++ chunks.flatten).length)) := by
  rw [controlRoundTrip]
  by_cases hcode : isSuccess code = true
  · rw [if_pos hcode, readBody_of_cut h.owes hcut hmissing hchunks, List.nil_append, capped,
      Option.map_some, ← splitBodyLines_eq_ok_iff]
    generalize payload (m.take (leftover ++ chunks.flatten).length) = got
    by_cases hlong : maxControlBodyBytes < got.length
    · rw [if_pos hlong]
      simp [Nat.not_le.2 hlong]
    · rw [if_neg hlong]
      cases hsplit : splitBodyLines got with
      | error e => simp [hsplit]
      | ok ls => simp [hsplit, hcode, Nat.not_lt.1 hlong]
  · simp [hcode]

/-- **When the lines handed on came whole.** For a response of either framing whose connection
closes before its end has come, at any point and however the octets are cut into reads: the lines
are lines of the server's body received whole if and only if nothing follows the last line end that
came, or the body came whole, or the round trip fails for another reason. -/
theorem handed_whole_iff {framing : BodyFraming} {m : Marked} {leftover missing : Bytes}
    {chunks : List Bytes} (h : Encodes framing m)
    (hcut : wire m = leftover ++ chunks.flatten ++ missing) (hmissing : missing ≠ [])
    (hchunks : ∀ chunk ∈ chunks, chunk ≠ []) (name : String) (code : ℕ) {got : Bytes}
    (hgot : got = payload (m.take (leftover ++ chunks.flatten).length)) :
    (∀ lines, controlRoundTrip name (.ok ⟨code, framing, leftover⟩)
        (chunks.map .ok ++ [.ok []]) = some (.ok lines) →
      lines.map (fun line => utf8Bytes line.toList) <+: wholeLines (payload m) got) ↔
    stripCr (Segments.opened lf got) = [] ∨ got = payload m ∨ isSuccess code = false ∨
      maxControlBodyBytes < got.length ∨ ¬Readable got := by
  simp only [controlRoundTrip_of_cut h hcut hmissing hchunks, ← hgot]
  constructor
  · intro hwhole
    by_contra hnone
    simp only [not_or, not_not, Bool.not_eq_false, Nat.not_lt] at hnone
    obtain ⟨htail, hbody, hcode, hshort, hreadable⟩ := hnone
    obtain ⟨lines, hlines⟩ := (exists_splitBodyLines_iff got).2 hreadable
    rw [splitBodyLines_eq_ok_iff] at hlines
    -- the line made of the octets behind the last line end is one too many
    have hle := (hwhole lines ⟨hcode, hshort, hlines⟩).length_le
    rw [hlines, bodyLines_eq, wholeLines, if_neg hbody, bodyLines_opened, if_neg htail,
      List.length_append, List.length_append] at hle
    simp at hle
  · rintro hholds lines ⟨hcode, hshort, hlines⟩
    rw [hlines, bodyLines_eq, wholeLines]
    rcases hholds with htail | hbody | hfails | hlong | hunreadable
    · rw [bodyLines_opened, if_pos htail, List.append_nil]
      exact List.prefix_append _ _
    · rw [if_pos hbody]
    · rw [hfails] at hcode
      cases hcode
    · omega
    · exact absurd ((exists_splitBodyLines_iff got).1
        ⟨lines, splitBodyLines_eq_ok_iff.2 hlines⟩) hunreadable

/-- Two responses in a body of eighteen octets, of which nine come. -/
theorem handed_whole_iff_firstLine :
    controlRoundTrip "control" (.ok ⟨200, .length 18, utf8Bytes "REQ".toList⟩)
        ([utf8Bytes "OK,1\r\n".toList].map .ok ++ [.ok []]) = some (.ok ["REQOK,1"]) ∧
      ["REQOK,1"].map (fun line => utf8Bytes line.toList) <+:
        wholeLines (utf8Bytes "REQOK,1\r\nREQOK,2\r\n".toList)
          (utf8Bytes "REQOK,1\r\n".toList) := by
  have hframed : Encodes (.length 18) (content (utf8Bytes "REQOK,1\r\nREQOK,2\r\n".toList)) :=
    @Encodes.length (utf8Bytes "REQOK,1\r\nREQOK,2\r\n".toList) (by decide)
  have hcut : wire (content (utf8Bytes "REQOK,1\r\nREQOK,2\r\n".toList)) =
      utf8Bytes "REQ".toList ++ [utf8Bytes "OK,1\r\n".toList].flatten ++
        utf8Bytes "REQOK,2\r\n".toList := by decide
  have hhanded : controlRoundTrip "control" (.ok ⟨200, .length 18, utf8Bytes "REQ".toList⟩)
      ([utf8Bytes "OK,1\r\n".toList].map .ok ++ [.ok []]) = some (.ok ["REQOK,1"]) :=
    (controlRoundTrip_of_cut hframed hcut (by decide) (by decide) _ _ _).2
      ⟨by decide, by decide, by decide⟩
  have hgot : utf8Bytes "REQOK,1\r\n".toList =
      payload ((content (utf8Bytes "REQOK,1\r\nREQOK,2\r\n".toList)).take
        (utf8Bytes "REQ".toList ++ [utf8Bytes "OK,1\r\n".toList].flatten).length) := by decide
  have hwhole := handed_whole_iff hframed hcut (by decide) (by decide) "control" 200 hgot
  rw [payload_content] at hwhole
  exact ⟨hhanded, hwhole.2 (.inl (by decide)) _ hhanded⟩

/-- **A cut line is handed on.** Of a body of ten octets seven come, and the response to request 12
is taken for one to request 1. -/
theorem cut_line_handed :
    Encodes (.length 10) (content (utf8Bytes "REQOK,12\r\n".toList)) ∧
      wire (content (utf8Bytes "REQOK,12\r\n".toList)) =
        utf8Bytes "REQOK,1".toList ++ utf8Bytes "2\r\n".toList ∧
      controlRoundTrip "control" (.ok ⟨200, .length 10, utf8Bytes "REQOK,1".toList⟩) [.ok []] =
        some (.ok ["REQOK,1"]) ∧
      ¬["REQOK,1"].map (fun line => utf8Bytes line.toList) <+:
        wholeLines (utf8Bytes "REQOK,12\r\n".toList) (utf8Bytes "REQOK,1".toList) := by
  have hframed : Encodes (.length 10) (content (utf8Bytes "REQOK,12\r\n".toList)) :=
    @Encodes.length (utf8Bytes "REQOK,12\r\n".toList) (by decide)
  refine ⟨hframed, by decide, ?_, by decide⟩
  exact (@controlRoundTrip_of_cut _ _ (utf8Bytes "REQOK,1".toList) (utf8Bytes "2\r\n".toList) []
    hframed (by decide) (by decide) (by decide) "control" 200 _).2
      ⟨by decide, by decide, by decide⟩

end Lightstreamer.Transport
