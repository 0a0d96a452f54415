import Lightstreamer.Protocol.Encoding

/-!
# What the transports rest on

Octets, the failures of a transport, and `String::from_utf8` with the text of its error. A failure
to connect carries the text of the error behind it.
-/

namespace Lightstreamer.Transport

open Protocol

/-- A run of octets. -/
abbrev Bytes := List UInt8

/-- The octet `\n`. -/
abbrev lf : UInt8 := 10

/-- The octet `\r`. -/
abbrev cr : UInt8 := 13

/-- A failure of a transport. -/
inductive TransportError
  | connect (target source : String)
  | connectionLost (reason : String)
  | send (name reason : String)
  | malformedFrame (reason : String)
  | capacity (limitBytes : ℕ) (reason : String)
  deriving DecidableEq

/-- The `Display` text of a failure. -/
def TransportError.display : TransportError → String
  | connect target source => s!"cannot connect to {target}: {source}"
  | connectionLost reason => s!"stream connection lost: {reason}"
  | send name reason => s!"cannot send control request `{name}`: {reason}"
  | malformedFrame reason => s!"malformed frame: {reason}"
  | capacity limitBytes reason =>
    s!"{reason}, exceeding this client's limit of {limitBytes} bytes"

/-! ## Octets as text -/

/-- Whether an octet continues a character. -/
def isContinuation (byte : UInt8) : Bool := 128 ≤ byte && byte ≤ 191

/-- The width that a first octet announces, and the range of the octet after it. -/
def utf8Lead (byte : UInt8) : Option (ℕ × UInt8 × UInt8) :=
  if 194 ≤ byte ∧ byte ≤ 223 then some (2, 128, 191)
  else if byte = 224 then some (3, 160, 191)
  else if byte = 237 then some (3, 128, 159)
  else if 225 ≤ byte ∧ byte ≤ 239 then some (3, 128, 191)
  else if byte = 240 then some (4, 144, 191)
  else if byte = 244 then some (4, 128, 143)
  else if 241 ≤ byte ∧ byte ≤ 243 then some (4, 128, 191)
  else none

/-- `Utf8Error::error_len`: the length of the ill-formed sequence at the start of the octets, none
when they end too early. -/
def utf8ErrorLen : Bytes → Option ℕ
  | [] => none
  | first :: rest =>
    match utf8Lead first, rest with
    | none, _ => some 1
    | some _, [] => none
    | some (width, low, high), second :: rest =>
      if ¬(low ≤ second ∧ second ≤ high) then some 1
      else if width = 2 then none
      else match rest with
        | [] => none
        | third :: rest =>
          if ¬isContinuation third then some 2
          else if width = 3 then none
          else match rest with
            | [] => none
            | fourth :: _ => if ¬isContinuation fourth then some 3 else none

/-- The `Display` text of a `Utf8Error`. -/
def utf8ErrorText (bytes : Bytes) (validUpTo : ℕ) : String :=
  match utf8ErrorLen (bytes.drop validUpTo) with
  | some len => s!"invalid utf-8 sequence of {len} bytes from index {validUpTo}"
  | none => s!"incomplete utf-8 byte sequence from index {validUpTo}"

/-- Decode a line; a failure is reported with `what` in front of its text. -/
def decodeLine (what : String) (bytes : Bytes) : Except TransportError String :=
  match decodeUtf8 bytes with
  | .ok text => .ok (String.ofList text)
  | .error validUpTo => .error (.malformedFrame (what ++ utf8ErrorText bytes validUpTo))

/-- The loop of `String::from_utf8_lossy`. -/
def decodeLossy : ℕ → Bytes → List Char
  | 0, _ => []
  | fuel + 1, bytes =>
    match decodeUtf8 bytes with
    | .ok text => text
    | .error validUpTo =>
      (decodeUtf8 (bytes.take validUpTo)).toOption.getD [] ++ '\uFFFD' ::
        match utf8ErrorLen (bytes.drop validUpTo) with
        | none => []
        | some len => decodeLossy fuel (bytes.drop (validUpTo + len))

/-- `String::from_utf8_lossy`: an ill-formed sequence becomes a replacement character. -/
def fromUtf8Lossy (bytes : Bytes) : List Char := decodeLossy (bytes.length + 1) bytes

/-- **A line is read exactly when it is the UTF-8 form of a text**, and gives that text. -/
theorem decodeLine_eq_ok_iff {what text : String} {bytes : Bytes} :
    decodeLine what bytes = .ok text ↔ utf8Bytes text.toList = bytes := by
  rw [← decodeUtf8_eq_ok_iff, decodeLine]
  cases decodeUtf8 bytes with
  | ok cs =>
    simp only [Except.ok.injEq]
    exact ⟨fun h => by rw [← h, String.toList_ofList], fun h => by rw [h, String.ofList_toList]⟩
  | error e => simp

end Lightstreamer.Transport
