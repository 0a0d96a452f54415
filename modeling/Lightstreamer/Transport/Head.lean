import Lightstreamer.Transport.Http

/-!
# The head of a response

`readHead` reads from the socket until the head of a response is complete; what came behind it is
the first part of the body. The parser of a head is a parameter, and `Heads` what is asked of it:
it waits for the whole of a head, and then does not look at what follows.

`readHead_of_heads`: the head that is read, and the octets of the body that are still to be taken,
do not depend on how the octets of the response are cut into reads. `framingFromHeaders_eq` is the
framing that the headers tell.
-/

namespace Lightstreamer.Transport

open Foundations Protocol

/-- The largest response head that is buffered. -/
def maxHeadBytes : ℕ := 64 * 1024

/-- A response head as the parser gives it. -/
structure ParsedHead where
  headLen : ℕ
  code : Option ℕ
  headers : List (List Char × Bytes)
  deriving DecidableEq

/-- The parser of a response head: none while the head is incomplete. -/
abbrev HeadParser := Bytes → Except String (Option ParsedHead)

/-! ## The framing -/

/-- Whether a header has the given name, in lower case. -/
def isNamed (name : String) (header : List Char × Bytes) : Bool :=
  header.1.map Char.toLower = name.toList

/-- Whether the value of a `Transfer-Encoding` lists the chunked coding. -/
def namesChunked (value : Bytes) : Bool :=
  (((fromUtf8Lossy value).map Char.toLower).splitOn ',').any (Text.trim · = "chunked".toList)

/-- The value of a `Content-Length`. -/
def contentLength (value : Bytes) : Except TransportError ℕ :=
  match decodeUtf8 value with
  | .error _ => .error (.malformedFrame "Content-Length was not ASCII")
  | .ok text =>
    match parseUnsigned u64Max (Text.trim text) with
    | some n => .ok n
    | none => .error (.malformedFrame s!"invalid Content-Length `{String.ofList text}`")

/-- The loop of `framing_from_headers`. -/
def framingLoop (chunked : Bool) (length : Option ℕ) :
    List (List Char × Bytes) → Except TransportError BodyFraming
  | [] => .ok (if chunked then .chunked .size else length.elim .untilClose .length)
  | header :: headers =>
    if isNamed "transfer-encoding" header then
      framingLoop (chunked || namesChunked header.2) length headers
    else if isNamed "content-length" header then
      match contentLength header.2 with
      | .error e => .error e
      | .ok n => framingLoop chunked (some n) headers
    else framingLoop chunked length headers

/-- The framing of the body. -/
def framingFromHeaders (headers : List (List Char × Bytes)) : Except TransportError BodyFraming :=
  framingLoop false none headers

/-! ## Reading the head -/

/-- Parse a response head, if it is complete. -/
def parseHead (parse : HeadParser) (buf : Bytes) : Except TransportError (Option Head) :=
  match parse buf with
  | .error e => .error (.malformedFrame s!"invalid HTTP response head: {e}")
  | .ok none => .ok none
  | .ok (some parsed) =>
    match parsed.code with
    | none => .error (.malformedFrame "HTTP response head had no status code")
    | some code => (framingFromHeaders parsed.headers).map fun framing =>
        some ⟨code, framing, buf.drop parsed.headLen⟩

/-- The loop of `read_head`: the head, or a failure, none while it waits for a read; and the reads
that it did not take. -/
def readHead (parse : HeadParser) (buffer : Bytes) (reads : List SocketRead) :
    Option (Except TransportError Head) × List SocketRead :=
  match parseHead parse buffer with
  | .error e => (some (.error e), reads)
  | .ok (some head) => (some (.ok head), reads)
  | .ok none =>
    if buffer.length > maxHeadBytes then
      (some (.error (.capacity maxHeadBytes
        s!"{buffer.length} bytes of an unterminated HTTP response head")), reads)
    else
      match reads with
      | [] => (none, [])
      | .error reason :: reads => (some (.error (.connectionLost reason)), reads)
      | .ok [] :: reads =>
        (some (.error (.connectionLost "connection closed before the HTTP response head")), reads)
      | .ok (byte :: read) :: reads => readHead parse (buffer ++ byte :: read) reads

/-! ## What the headers tell -/

/-- The values of the headers with the given name. -/
def valuesOf (name : String) (headers : List (List Char × Bytes)) : List Bytes :=
  (headers.filter (isNamed name)).map Prod.snd

theorem valuesOf_cons_of_isNamed {name : String} {header : List Char × Bytes}
    (h : isNamed name header = true) (headers : List (List Char × Bytes)) :
    valuesOf name (header :: headers) = header.2 :: valuesOf name headers := by
  rw [valuesOf, List.filter_cons_of_pos h, List.map_cons, valuesOf]

theorem valuesOf_cons_of_not_isNamed {name : String} {header : List Char × Bytes}
    (h : ¬isNamed name header = true) (headers : List (List Char × Bytes)) :
    valuesOf name (header :: headers) = valuesOf name headers := by
  rw [valuesOf, List.filter_cons_of_neg h, valuesOf]

/-- A header has one name. -/
theorem isNamed_inj {name name' : String} {header : List Char × Bytes}
    (h : isNamed name header = true) (h' : isNamed name' header = true) : name = name' := by
  simp only [isNamed, decide_eq_true_eq] at h h'
  exact String.toList_inj.1 (h.symm.trans h')

theorem framingLoop_eq (chunked : Bool) (length : Option ℕ) (headers : List (List Char × Bytes)) :
    framingLoop chunked length headers =
      ((valuesOf "content-length" headers).mapM contentLength).map fun lengths =>
        if chunked || (valuesOf "transfer-encoding" headers).any namesChunked then .chunked .size
        else (lengths.getLast?.or length).elim .untilClose .length := by
  induction headers generalizing chunked length with
  | nil =>
    simp only [framingLoop, valuesOf, List.filter_nil, List.map_nil, List.mapM_nil, List.any_nil,
      Bool.or_false]
    rfl
  | cons header headers ih =>
    rw [framingLoop]
    by_cases hcoding : isNamed "transfer-encoding" header = true
    · have hlength : ¬isNamed "content-length" header = true := fun h =>
        absurd (isNamed_inj h hcoding) (by decide)
      rw [if_pos hcoding, ih, valuesOf_cons_of_isNamed hcoding,
        valuesOf_cons_of_not_isNamed hlength, List.any_cons, Bool.or_assoc]
    · rw [if_neg hcoding, valuesOf_cons_of_not_isNamed hcoding]
      by_cases hlength : isNamed "content-length" header = true
      · rw [if_pos hlength, valuesOf_cons_of_isNamed hlength, List.mapM_cons]
        cases hvalue : contentLength header.2 with
        | error e => rfl
        | ok n =>
          simp only [ih]
          cases (valuesOf "content-length" headers).mapM contentLength with
          | error e => rfl
          | ok lengths =>
            have hlast : (n :: lengths).getLast?.or length = lengths.getLast?.or (some n) := by
              rw [List.getLast?_cons]
              cases lengths.getLast? <;> rfl
            exact congrArg Except.ok (by dsimp only; rw [hlast])
      · rw [if_neg hlength, ih, valuesOf_cons_of_not_isNamed hlength]

/-- **The framing that the headers tell.** A `Content-Length` that is not a number is refused. Else
the chunked coding is what counts, wherever it is listed; without it the last `Content-Length`; and
without that the body runs to the close. -/
theorem framingFromHeaders_eq (headers : List (List Char × Bytes)) :
    framingFromHeaders headers =
      ((valuesOf "content-length" headers).mapM contentLength).map fun lengths =>
        if (valuesOf "transfer-encoding" headers).any namesChunked then .chunked .size
        else lengths.getLast?.elim .untilClose .length := by
  simp only [framingFromHeaders, framingLoop_eq, Bool.false_or, Option.or_none]

/-! ## Any cut of the octets into reads -/

/-- The octets of a head, for a parser that waits for the whole of it, and then does not look at
what follows. -/
structure Heads (parse : HeadParser) (head : Bytes) (code : ℕ) (framing : BodyFraming) :
    Prop where
  waits : ∀ got missing, head = got ++ missing → missing ≠ [] → parse got = .ok none
  reads : ∃ parsed, (∀ more, parse (head ++ more) = .ok (some parsed)) ∧
    parsed.headLen = head.length ∧ parsed.code = some code ∧
    framingFromHeaders parsed.headers = .ok framing

/-- A parser of one head. -/
def parserOf (head : Bytes) (parsed : ParsedHead) : HeadParser := fun buf =>
  .ok (if head <+: buf then some parsed else none)

theorem heads_parserOf {head : Bytes} {parsed : ParsedHead} {code : ℕ} {framing : BodyFraming}
    (hlen : parsed.headLen = head.length) (hcode : parsed.code = some code)
    (hframing : framingFromHeaders parsed.headers = .ok framing) :
    Heads (parserOf head parsed) head code framing where
  waits got missing hhead hmissing := by
    have hpos := List.length_pos_iff.2 hmissing
    have hshort : ¬head <+: got := fun h => by
      have := h.length_le
      rw [hhead, List.length_append] at this
      omega
    rw [parserOf, if_neg hshort]
  reads := ⟨parsed, fun more => by rw [parserOf, if_pos (List.prefix_append _ _)], hlen, hcode,
    hframing⟩

theorem Heads.parseHead {parse : HeadParser} {head : Bytes} {code : ℕ} {framing : BodyFraming}
    (h : Heads parse head code framing) (more : Bytes) :
    parseHead parse (head ++ more) = .ok (some ⟨code, framing, more⟩) := by
  obtain ⟨parsed, hparse, hlen, hcode, hframing⟩ := h.reads
  rw [Transport.parseHead, hparse]
  simp only [hcode, hframing, hlen, List.drop_left]
  rfl

theorem readHead_of_complete {parse : HeadParser} {buffer : Bytes} {head : Head}
    (h : parseHead parse buffer = .ok (some head)) (reads : List SocketRead) :
    readHead parse buffer reads = (some (.ok head), reads) := by
  rw [readHead.eq_def, h]

theorem readHead_of_wait {parse : HeadParser} {buffer chunk : Bytes}
    (h : parseHead parse buffer = .ok none) (hheld : buffer.length ≤ maxHeadBytes)
    (hchunk : chunk ≠ []) (reads : List SocketRead) :
    readHead parse buffer (.ok chunk :: reads) = readHead parse (buffer ++ chunk) reads := by
  obtain ⟨byte, read, rfl⟩ := List.exists_cons_of_ne_nil hchunk
  conv_lhs => rw [readHead.eq_def, h]
  simp only [if_neg (Nat.not_lt.2 hheld)]

/-- **A head is read whole, and nothing behind it is lost.** -/
theorem readHead_of_heads {parse : HeadParser} {head buffer tail : Bytes} {code : ℕ}
    {framing : BodyFraming} {chunks : List Bytes} (h : Heads parse head code framing)
    (hshort : head.length ≤ maxHeadBytes) (hcut : buffer ++ chunks.flatten = head ++ tail)
    (hchunks : ∀ chunk ∈ chunks, chunk ≠ []) (later : List SocketRead) :
    ∃ (leftover : Bytes) (rest : List Bytes), readHead parse buffer (chunks.map .ok ++ later) =
        (some (.ok ⟨code, framing, leftover⟩), rest.map .ok ++ later) ∧
      leftover ++ rest.flatten = tail ∧ ∀ chunk ∈ rest, chunk ≠ [] := by
  induction chunks generalizing buffer with
  | nil =>
    rw [List.flatten_nil, List.append_nil] at hcut
    rw [hcut]
    exact ⟨tail, [], readHead_of_complete (h.parseHead tail) _, List.append_nil _, hchunks⟩
  | cons chunk chunks ih =>
    obtain ⟨leftover, rfl, htail⟩ | ⟨missing, rfl, htail⟩ := List.append_eq_append_iff.1 hcut.symm
    · exact ⟨leftover, chunk :: chunks, readHead_of_complete (h.parseHead leftover) _, htail.symm,
        hchunks⟩
    · by_cases hmissing : missing = []
      · subst hmissing
        have hparse := h.parseHead []
        rw [List.append_nil, List.append_nil] at hparse
        exact ⟨[], chunk :: chunks, readHead_of_complete hparse _, htail, hchunks⟩
      · have hwaits : Transport.parseHead parse buffer = .ok none := by
          rw [Transport.parseHead, h.waits buffer missing rfl hmissing]
        rw [List.length_append] at hshort
        rw [List.map_cons, List.cons_append, readHead_of_wait hwaits (by omega)
          (hchunks chunk List.mem_cons_self)]
        refine ih ?_ fun c hc => hchunks c (List.mem_cons_of_mem _ hc)
        rw [List.append_assoc, ← List.flatten_cons, hcut]

end Lightstreamer.Transport
