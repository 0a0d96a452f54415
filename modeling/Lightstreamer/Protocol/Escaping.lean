import Lightstreamer.Protocol.Basic

/-!
# Percent-encoding and percent-decoding

`percentDecode` is the server-to-client direction, `encodeFormValue` the client-to-server one.
Both work on the UTF-8 bytes of the text. Decoding collects the bytes and validates them as
UTF-8 at the end, since a character outside ASCII arrives as a run of escapes.
-/

namespace Lightstreamer.Protocol

/-- The UTF-8 bytes of a text. -/
def utf8Bytes (cs : List Char) : List UInt8 := cs.flatMap String.utf8EncodeChar

/-- Read UTF-8 text, one character for each unit of fuel; on failure, the offset up to which the
bytes are valid. -/
def decodeUtf8Fuel : ℕ → ℕ → List UInt8 → Except ℕ (List Char)
  | _, _, [] => .ok []
  | 0, offset, _ :: _ => .error offset
  | fuel + 1, offset, b :: bs =>
    match (b :: bs).toByteArray.utf8DecodeChar? 0 with
    | none => .error offset
    | some c => (c :: ·) <$> decodeUtf8Fuel fuel (offset + c.utf8Size) ((b :: bs).drop c.utf8Size)

/-- `String::from_utf8`, with the offset `valid_up_to` on failure. -/
def decodeUtf8 (bytes : List UInt8) : Except ℕ (List Char) :=
  decodeUtf8Fuel bytes.length 0 bytes

def reasonTruncated : String := "`%` is not followed by two characters"

def reasonNotHex : String := "`%` is not followed by two hexadecimal digits"

def reasonNotUtf8 : String := "decoded bytes are not valid utf-8"

/-- The byte `%`. -/
abbrev percent : UInt8 := 37

/-- A hex digit's value, of either case. -/
def hexValue (byte : UInt8) : Option UInt8 :=
  if 48 ≤ byte ∧ byte ≤ 57 then some (byte - 48)
  else if 97 ≤ byte ∧ byte ≤ 102 then some (byte - 97 + 10)
  else if 65 ≤ byte ∧ byte ≤ 70 then some (byte - 65 + 10)
  else none

/-- The escape scan: `index` is the offset of the bytes within the input. -/
def decodeEscapes (index : ℕ) : List UInt8 → Except ProtocolError (List UInt8)
  | [] => .ok []
  | byte :: rest =>
    if byte ≠ percent then (byte :: ·) <$> decodeEscapes (index + 1) rest
    else match rest with
      | high :: low :: rest =>
        match hexValue high, hexValue low with
        | some high, some low => ((high <<< 4 ||| low) :: ·) <$> decodeEscapes (index + 3) rest
        | _, _ => .error (.escaping index reasonNotHex)
      | _ => .error (.escaping index reasonTruncated)

/-- The offset in the input of the byte that decodes to the given offset. -/
def inputOffsetOfDecodedByte : (index produced decodedOffset : ℕ) → List UInt8 → ℕ
  | index, _, _, [] => index
  | index, produced, decodedOffset, byte :: rest =>
    if produced = decodedOffset then index
    else if byte = percent then
      match rest with
      | _ :: _ :: rest => inputOffsetOfDecodedByte (index + 3) (produced + 1) decodedOffset rest
      | rest => index + 1 + rest.length
    else inputOffsetOfDecodedByte (index + 1) (produced + 1) decodedOffset rest

/-- Percent-decode a response or notification argument. -/
def percentDecode (input : String) : Except ProtocolError String :=
  let bytes := utf8Bytes input.toList
  if percent ∈ bytes then do
    let decoded ← decodeEscapes 0 bytes
    match decodeUtf8 decoded with
    | .ok text => .ok (String.ofList text)
    | .error validUpTo =>
      .error (.escaping (inputOffsetOfDecodedByte 0 0 validUpTo bytes) reasonNotUtf8)
  else .ok input

/-- A byte that is safe to emit literally. -/
def isUnreserved (byte : UInt8) : Bool :=
  (48 ≤ byte && byte ≤ 57) || (65 ≤ byte && byte ≤ 90) || (97 ≤ byte && byte ≤ 122) ||
    byte = 45 || byte = 46 || byte = 95 || byte = 126

/-- A nibble's uppercase hex digit. -/
def hexDigit (nibble : UInt8) : Char :=
  if nibble ≤ 9 then Char.ofNat (48 + nibble.toNat)
  else if nibble ≤ 15 then Char.ofNat (65 + nibble.toNat - 10)
  else '0'

/-- One byte of an encoded value. -/
def encodeByte (byte : UInt8) : List Char :=
  if isUnreserved byte then [Char.ofNat byte.toNat]
  else ['%', hexDigit (byte >>> 4), hexDigit (byte &&& 0x0F)]

/-- Percent-encode the value of a request parameter. -/
def encodeFormValue (input : String) : String :=
  String.ofList ((utf8Bytes input.toList).flatMap encodeByte)

end Lightstreamer.Protocol
