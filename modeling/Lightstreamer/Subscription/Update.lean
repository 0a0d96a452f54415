import Lightstreamer.Protocol.Diff
import Lightstreamer.Protocol.Escaping

/-!
# Decoding of an update's value list

The third argument of a `U` is a pipe-separated list of tokens, one or more fields to a token.
`ItemState` holds the field values of one item, and `ItemState.apply` runs the decoding algorithm:
a pointer moves over the schema, each token stages a value or skips fields (`applyToken`), and the
staged values are committed once the whole list has been read.
-/

namespace Lightstreamer.Subscription

open Lightstreamer.Protocol

/-- The value of one field: never set, null, or a text that may be empty. -/
inductive FieldSlot
  | unset
  | null
  | value (text : String) (form : LexicalForm)
  deriving DecidableEq

/-- A value that is exactly what the server sent. -/
def FieldSlot.asSent (text : String) : FieldSlot := .value text .asSent

/-- The state of one subscribed item: a slot for every field of the schema. -/
structure ItemState where
  fields : List FieldSlot
  deriving DecidableEq

/-- Which fields an update carried a token for, in ascending order. -/
structure UpdateOutcome where
  changed : List ℕ
  deriving DecidableEq

/-- Parse the count of a `^N` run. -/
def parseUnchangedRun (digits : List Char) : Except ProtocolError ℕ :=
  if digits.isEmpty || !digits.all Char.isDigit then
    .error (fieldValueError
      s!"unchanged-field count `{String.ofList digits}` is not a run of ASCII digits")
  else match parseUnsigned usizeMax digits with
    | some count => .ok count
    | none => .error (fieldValueError
        s!"unchanged-field count `{String.ofList digits}` is out of range")

/-- How far the value list has been read: the field the next token applies to, and the values and
changes staged so far. -/
structure Staging where
  pointer : ℕ
  staged : List (ℕ × FieldSlot)
  changed : List ℕ
  deriving DecidableEq

/-- Give the pointed field a value, and move on. -/
def Staging.stage (s : Staging) (slot : FieldSlot) : Staging :=
  ⟨s.pointer + 1, s.staged ++ [(s.pointer, slot)], s.changed ++ [s.pointer]⟩

namespace ItemState

/-- The state of an item whose schema has `fieldCount` fields. -/
def new (fieldCount : ℕ) : ItemState := ⟨List.replicate fieldCount .unset⟩

def fieldCount (state : ItemState) : ℕ := state.fields.length

/-- The value of a field: `none` when there is no such field, `some none` when it is null. -/
def field (state : ItemState) (index : ℕ) : Option (Option String) :=
  state.fields[index]?.map fun
    | .unset | .null => none
    | .value text _ => some text

/-- Whether a field has a value that an unchanged token could preserve. -/
def hasBaseline (state : ItemState) (index : ℕ) : Bool :=
  match state.fields[index]? with
  | some .null | some (.value _ _) => true
  | _ => false

def noBaselineError (token : String) (index : ℕ) : ProtocolError :=
  fieldValueError (s!"{token} leaves field {index} unchanged, but no update has ever set it; " ++
    "§2.3 states this never happens on the first update of a subscription")

/-- Check that the value of a field may be the base of a diff. -/
def diffableBase (decoder : DiffDecoder) (marker : Char) (index : ℕ) (text : String)
    (form : LexicalForm) : Except ProtocolError String :=
  match form with
  | .asSent => .ok text
  | .clientDerived =>
    if decoder.needsBaseAsSent then
      .error (fieldValueError (s!"`^{marker}` diff applies to field {index}, whose current " ++
        "value was rebuilt by this client from a `^P` patch; a character diff cannot be applied " ++
        "to a value whose spelling is not the server's"))
    else .ok text

/-- A `^N` token: the pointed field and the following ones are left unchanged. -/
def applyRun (state : ItemState) (s : Staging) (rest : List Char) :
    Except ProtocolError Staging := do
  let count ← parseUnchangedRun rest
  match checkedAdd usizeMax s.pointer count with
  | none => .error (fieldValueError
      s!"unchanged-field run `^{String.ofList rest}` overflows the field pointer")
  | some stop =>
    if state.fieldCount < stop then
      .error (fieldValueError (s!"unchanged-field run `^{String.ofList rest}` reaches field " ++
        s!"{stop} of a {state.fieldCount}-field schema"))
    else match (List.range' s.pointer count).find? fun index => !state.hasBaseline index with
      | some index => .error (noBaselineError s!"the run `^{String.ofList rest}`" index)
      | none => .ok { s with pointer := stop }

/-- A diff token: the payload is decoded, then applied to the value of the pointed field. -/
def applyDiff (state : ItemState) (s : Staging) (marker : Char) (payload : List Char) :
    Except ProtocolError Staging := do
  let payload ← percentDecode (String.ofList payload)
  match decoderFor marker with
  | none => .error (fieldValueError (s!"unsupported diff format `{marker}`; this client " ++
      s!"advertised `{supportedDiffs}`"))
  | some decoder =>
    let base ← match state.fields[s.pointer]? with
      | some (.value text form) => diffableBase decoder marker s.pointer text form
      | some .null => .error (fieldValueError
          s!"`^{marker}` diff applies to field {s.pointer}, which is null")
      | some .unset | none => .error (fieldValueError
          s!"`^{marker}` diff applies to field {s.pointer}, which has never been set")
    let text ← decoder.apply base payload
    .ok (s.stage (.value text decoder.resultForm))

/-- One token of the value list. -/
def applyToken (state : ItemState) (s : Staging) (token : List Char) :
    Except ProtocolError Staging :=
  if state.fieldCount ≤ s.pointer then
    .error (fieldValueError
      s!"value list carries more tokens than the {state.fieldCount} fields of the schema")
  else match token with
    | [] =>
      if state.hasBaseline s.pointer then .ok { s with pointer := s.pointer + 1 }
      else .error (noBaselineError "an empty token" s.pointer)
    | ['#'] => .ok (s.stage .null)
    | ['$'] => .ok (s.stage (.asSent ""))
    | '^' :: [] => .error (fieldValueError
        "value list token `^` has no directive after the caret")
    | '^' :: marker :: rest =>
      if marker.isDigit then state.applyRun s (marker :: rest)
      else if marker.isAlpha then state.applyDiff s marker rest
      else .error (fieldValueError (s!"value list token `{String.ofList token}` has `{marker}` " ++
        "after the caret, which is neither an ASCII digit nor a diff format tag"))
    | token => do
      let decoded ← percentDecode (String.ofList token)
      .ok (s.stage (.asSent decoded))

/-- Write the staged values. -/
def commit (state : ItemState) (staged : List (ℕ × FieldSlot)) : ItemState :=
  ⟨staged.foldl (fun fields p => fields.set p.1 p.2) state.fields⟩

/-- Apply the third argument of a `U`. A list that is refused changes no field. -/
def apply (state : ItemState) (rawValues : String) :
    Except ProtocolError (ItemState × UpdateOutcome) := do
  let s ← (rawValues.toList.splitOn '|').foldlM state.applyToken ⟨0, [], []⟩
  if s.pointer < state.fieldCount then
    .error (fieldValueError
      s!"value list ended after {s.pointer} of the {state.fieldCount} fields of the schema")
  else .ok (state.commit s.staged, ⟨s.changed⟩)

end ItemState

end Lightstreamer.Subscription
