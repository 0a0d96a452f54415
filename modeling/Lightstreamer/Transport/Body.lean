import Lightstreamer.Foundations.Text
import Lightstreamer.Transport.Basic

/-!
# The body of an HTTP response

`Chunked` decodes a chunked body: it takes complete framing units from the front of the octets
received and leaves an incomplete one for the next read. `decodeBody` does the same for each way in
which a body can be framed.
-/

namespace Lightstreamer.Transport

open Foundations Protocol

/-- The largest size or trailer line held while de-framing a chunked body. -/
def maxChunkHeaderBytes : ℕ := 8 * 1024

/-- The octets of a line end. -/
abbrev crlf : Bytes := [cr, lf]

/-- The position of a chunked-body decoder between reads. -/
inductive ChunkState
  | size
  | data (remaining : ℕ)
  | dataCrlf
  | trailer
  | done
  deriving DecidableEq

/-- Refuse a framing line that has grown past its ceiling. -/
def checkHeaderBound (held : ℕ) : Except TransportError Unit :=
  if held > maxChunkHeaderBytes then
    .error (.capacity maxChunkHeaderBytes
      s!"{held} bytes of a chunk framing line with no terminator")
  else .ok ()

/-- The index of the first line end. -/
def findCrlf : Bytes → Option ℕ
  | a :: b :: rest => if a = cr ∧ b = lf then some 0 else (findCrlf (b :: rest)).map (· + 1)
  | _ => none

/-- The value of a non-empty run of hexadecimal digits. -/
def parseHexDigits : List Char → Option ℕ
  | [] => none
  | c :: cs => (c :: cs).foldl
      (fun acc c => acc.bind fun n => (hexDigitValue c).map (n * 16 + ·)) (some 0)

/-- `u64::from_str_radix` at radix 16: an optional plus sign, then digits, in range. -/
def parseHex (text : List Char) : Option ℕ :=
  let digits := match text with
    | '+' :: rest => rest
    | text => text
  (parseHexDigits digits).filter (· ≤ u64Max)

/-- A chunk size: hexadecimal digits, up to an optional chunk extension. -/
def parseChunkSize (line : Bytes) : Except TransportError ℕ :=
  match decodeUtf8 (line.takeWhile (· ≠ 59)) with
  | .error _ => .error (.malformedFrame "chunk size was not ASCII")
  | .ok text =>
    match parseHex (Text.trim text) with
    | some size => .ok size
    | none => .error (.malformedFrame s!"invalid chunk size `{String.ofList (Text.trim text)}`")

theorem findCrlf_lt {bytes : Bytes} {eol : ℕ} (h : findCrlf bytes = some eol) :
    eol + 2 ≤ bytes.length := by
  induction bytes using findCrlf.induct generalizing eol with
  | case1 a b rest hab =>
    rw [findCrlf, if_pos hab] at h
    cases h
    simp
  | case2 a b rest hab ih =>
    rw [findCrlf, if_neg hab] at h
    obtain ⟨eol, hrest, rfl⟩ := Option.map_eq_some_iff.1 h
    have := ih hrest
    simp only [List.length_cons] at this ⊢
    omega
  | case3 bytes hbytes =>
    cases bytes with
    | nil => cases h
    | cons a bytes =>
      cases bytes with
      | nil => cases h
      | cons b rest => exact absurd rfl (hbytes a b rest)

/-- How far a state is from the next one that takes octets. -/
def ChunkState.rank : ChunkState → ℕ
  | data _ => 1
  | _ => 0

/-- The loop of `Chunked::decode`: the state, the octets left over and the octets decoded. -/
def decodeChunks (state : ChunkState) (rest out : Bytes) :
    Except TransportError (ChunkState × Bytes × Bytes) :=
  match state with
  | .size =>
    match _h : findCrlf rest with
    | none => (checkHeaderBound rest.length).map fun _ => (.size, rest, out)
    | some eol =>
      match parseChunkSize (rest.take eol) with
      | .error e => .error e
      | .ok size =>
        decodeChunks (if size = 0 then .trailer else .data size) (rest.drop (eol + 2)) out
  | .data remaining =>
    let taken := min remaining rest.length
    let left := remaining - taken
    if left = 0 then decodeChunks .dataCrlf (rest.drop taken) (out ++ rest.take taken)
    else .ok (.data left, rest.drop taken, out ++ rest.take taken)
  | .dataCrlf =>
    -- whatever the two octets are: the length told where the data ended
    if rest.length < 2 then .ok (.dataCrlf, rest, out)
    else decodeChunks .size (rest.drop 2) out
  | .trailer =>
    match _h : findCrlf rest with
    | none => (checkHeaderBound rest.length).map fun _ => (.trailer, rest, out)
    | some eol =>
      if eol = 0 then .ok (.done, rest.drop 2, out)
      else decodeChunks .trailer (rest.drop (eol + 2)) out
  | .done => .ok (.done, rest, out)
termination_by 2 * rest.length + state.rank
decreasing_by
  · have := findCrlf_lt _h
    split <;> simp only [ChunkState.rank, List.length_drop] <;> omega
  · simp only [ChunkState.rank, List.length_drop]
    omega
  · simp only [ChunkState.rank, List.length_drop]
    omega
  · have := findCrlf_lt _h
    simp only [ChunkState.rank, List.length_drop]
    omega

/-- How the body of a response is framed. -/
inductive BodyFraming
  | length (remaining : ℕ)
  | chunked (state : ChunkState)
  | untilClose
  deriving DecidableEq

/-- What one call of `decode_body` leaves and gives. -/
structure Decoded where
  complete : Bool
  framing : BodyFraming
  pending : Bytes
  out : Bytes
  deriving DecidableEq

/-- Decode as much of the body as the octets received allow. -/
def decodeBody (framing : BodyFraming) (pending : Bytes) : Except TransportError Decoded :=
  match framing with
  | .length remaining =>
    let taken := min remaining pending.length
    .ok ⟨remaining - taken = 0, .length (remaining - taken), pending.drop taken,
      pending.take taken⟩
  | .untilClose => .ok ⟨false, .untilClose, [], pending⟩
  | .chunked state =>
    (decodeChunks state pending []).map fun (state, rest, out) =>
      ⟨state = .done, .chunked state, rest, out⟩

end Lightstreamer.Transport
