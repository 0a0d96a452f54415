import Lightstreamer.Protocol.Basic

/-!
# Diff encodings of field values

A field value may arrive as a difference against the previous value of the field, tagged by a
letter after a caret. `decoderFor` dispatches a tag through the registry `diffDecoders`, from which
the advertisement `supportedDiffs` is derived. The default build carries one format, TLCP-diff:
`parseTlcpDiff` reads the sections of a payload, `applyTlcpInstructions` runs them over the base,
and `applyTlcpDiff` is the whole decoder.
-/

namespace Lightstreamer.Protocol

/-- Whether a field value is the exact character sequence the server sent. -/
inductive LexicalForm
  | asSent
  | clientDerived
  deriving DecidableEq

/-- A TLCP-diff instruction. The count of an `ADD` is the length of its text. -/
inductive DiffInstruction
  | copy (count : ℕ)
  | add (text : List Char)
  | del (count : ℕ)
  deriving DecidableEq

/-! ## Reading a payload -/

/-- The position of a letter in the alphabet that starts at `first`. -/
def alphabetIndex (letter first : Char) : Except ProtocolError ℕ :=
  if first.toNat ≤ letter.toNat then .ok (letter.toNat - first.toNat)
  else .error (fieldValueError
    s!"TLCP-diff encoded integer contains `{letter}`, which is not an ASCII letter")

def integerOutOfRange : ProtocolError :=
  fieldValueError "TLCP-diff encoded integer is out of range"

/-- Read one encoded integer, and what follows it: capital letters weigh their index plus one, the
final small letter its index. -/
def decodeEncodedInteger (accumulator : ℕ) : List Char → Except ProtocolError (ℕ × List Char)
  | [] => .error (fieldValueError
      "TLCP-diff encoded integer is truncated: no terminating lowercase letter")
  | letter :: chars =>
    if letter.isUpper then do
      let value ← alphabetIndex letter 'A'
      match (checkedMul usizeMax accumulator 26).bind fun scaled =>
          (checkedAdd usizeMax value 1).bind (checkedAdd usizeMax scaled) with
      | some accumulator => decodeEncodedInteger accumulator chars
      | none => .error integerOutOfRange
    else if letter.isLower then do
      let value ← alphabetIndex letter 'a'
      match (checkedMul usizeMax accumulator 26).bind (checkedAdd usizeMax · value) with
      | some count => .ok (count, chars)
      | none => .error integerOutOfRange
    else .error (fieldValueError
      s!"TLCP-diff encoded integer contains `{letter}`, which is not an ASCII letter")

/-- The section types, in the fixed cycle of the format. -/
inductive Section
  | copy
  | add
  | del
  deriving DecidableEq

def Section.next : Section → Section
  | .copy => .add
  | .add => .del
  | .del => .copy

/-- One section: its instruction and the rest of the payload, whose whole length is `length`. -/
def parseSection (length : ℕ) (kind : Section) (chars : List Char) :
    Except ProtocolError (DiffInstruction × List Char) := do
  let (count, rest) ← decodeEncodedInteger 0 chars
  match kind with
  | .copy => .ok (.copy count, rest)
  | .del => .ok (.del count, rest)
  | .add =>
    let position := length - rest.length
    if (checkedAdd usizeMax position count).isNone then
      .error (fieldValueError "TLCP-diff ADD length overflows the payload cursor")
    else if rest.length < count then
      .error (fieldValueError (s!"TLCP-diff ADD at position {position} declares {count} " ++
        s!"characters but the payload is only {length} characters long"))
    else .ok (.add (rest.take count), rest.drop count)

/-- The sections from `kind` on, one for each unit of fuel. A section is not empty, so the length
of the payload is fuel enough. -/
def parseSections (length : ℕ) : ℕ → Section → List Char →
    Except ProtocolError (List DiffInstruction)
  | _, _, [] => .ok []
  | 0, _, _ :: _ => .ok []
  | fuel + 1, kind, c :: cs => do
    let (instruction, rest) ← parseSection length kind (c :: cs)
    (instruction :: ·) <$> parseSections length fuel kind.next rest

/-- Parse a TLCP-diff payload. -/
def parseTlcpDiff (payload : List Char) : Except ProtocolError (List DiffInstruction) :=
  if payload.isEmpty then .error (fieldValueError "TLCP-diff payload is empty")
  else parseSections payload.length payload.length .copy payload

/-! ## Running the instructions -/

/-- Run the instructions over the base from `basePos` on, and give the text they append. -/
def applyTlcpInstructions (base : List Char) : ℕ → List DiffInstruction →
    Except ProtocolError (List Char)
  | _, [] => .ok []
  | basePos, .copy count :: instructions =>
    match checkedAdd usizeMax basePos count with
    | none => .error (fieldValueError "TLCP-diff COPY overflows the base cursor")
    | some stop =>
      if base.length < stop then
        .error (fieldValueError (s!"TLCP-diff COPY({count}) at position {basePos} runs past the " ++
          s!"end of the {base.length}-character base value"))
      else ((base.drop basePos).take count ++ ·) <$> applyTlcpInstructions base stop instructions
  | basePos, .add text :: instructions =>
    (text ++ ·) <$> applyTlcpInstructions base basePos instructions
  | basePos, .del count :: instructions =>
    match checkedAdd usizeMax basePos count with
    | none => .error (fieldValueError "TLCP-diff DEL overflows the base cursor")
    | some stop => applyTlcpInstructions base stop instructions

/-- A character whose UTF-16 encoding is a surrogate pair. -/
def isAstral (c : Char) : Bool := 0x10000 ≤ c.toNat

/-- `{:04X}`. -/
def upperHex4 (n : ℕ) : String :=
  String.ofList ((((Nat.toDigits 16 n).map Char.toUpper).reverse.rightpad 4 '0').reverse)

/-- Refuse the text that a TLCP-diff does not apply to. -/
def rejectAstral (text : List Char) (role : String) : Except ProtocolError Unit :=
  match text.find? isAstral with
  | none => .ok ()
  | some character => .error (fieldValueError ("`^T` diff violates its own precondition: " ++
      s!"{role} contains `{character}` (U+{upperHex4 character.toNat}), whose UTF-16 encoding " ++
      "is a surrogate pair, so character positions cannot be counted the same way on both sides"))

/-- Apply a TLCP-diff payload to a base value. -/
def applyTlcpDiff (base payload : String) : Except ProtocolError String := do
  rejectAstral base.toList "the base value"
  rejectAstral payload.toList "the diff payload"
  let instructions ← parseTlcpDiff payload.toList
  String.ofList <$> applyTlcpInstructions base.toList 0 instructions

/-! ## The registry -/

/-- A compiled-in diff format. -/
structure DiffDecoder where
  tag : Char
  apply : String → String → Except ProtocolError String
  needsBaseAsSent : Bool
  resultForm : LexicalForm

def tlcpDiffDecoder : DiffDecoder := ⟨'T', applyTlcpDiff, true, .asSent⟩

/-- The decoders of the default build. -/
def diffDecoders : List DiffDecoder := [tlcpDiffDecoder]

/-- The value of `LS_supported_diffs`. -/
def supportedDiffs : String :=
  ",".intercalate (diffDecoders.map fun decoder => decoder.tag.toString)

/-- The decoder of a wire tag, if this build advertised it. -/
def decoderFor (tag : Char) : Option DiffDecoder := diffDecoders.find? (·.tag = tag)

end Lightstreamer.Protocol
