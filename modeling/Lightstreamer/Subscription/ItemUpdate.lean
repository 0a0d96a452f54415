import Lightstreamer.Subscription.Update

/-!
# What the caller receives for an update

An `ItemUpdate` is the complete state of one item after an update, with the schema the server
announced and the positions that the update carried a token for. Null and the empty text stay
apart: a value is an `Option`, and its public view is a `FieldValue`.
-/

namespace Lightstreamer.Subscription

/-- Whether an update carries part of an item's initial state or a live change. -/
inductive UpdateKind
  | snapshot
  | realTime
  deriving DecidableEq

/-- The value of a field as the caller reads it. -/
inductive FieldValue
  | null
  | text (text : String)
  deriving DecidableEq

/-- An item or field name, and whether the caller declared it. -/
structure SchemaName where
  text : String
  declared : Bool
  deriving DecidableEq

/-- The shape of an activated subscription. -/
structure SubscriptionSchema where
  items : List SchemaName
  fields : List SchemaName
  keyField : Option ℕ
  commandField : Option ℕ
  deriving DecidableEq

namespace SubscriptionSchema

/-- Name `count` positions: those that were declared by their name, the others by their number. -/
def namePositions (count : ℕ) (declared : List String) : List SchemaName :=
  (List.range count).map fun index =>
    match declared[index]? with
    | some name => ⟨name, true⟩
    | none => ⟨(index + 1).repr, false⟩

/-- The schema announced by `SUBOK` or `SUBCMD`. -/
def new (itemCount fieldCount : ℕ) (declaredItems declaredFields : List String)
    (commandFields : Option (ℕ × ℕ)) : SubscriptionSchema where
  items := namePositions itemCount declaredItems
  fields := namePositions fieldCount declaredFields
  keyField := commandFields.map Prod.fst
  commandField := commandFields.map Prod.snd

theorem length_namePositions (count : ℕ) (declared : List String) :
    (namePositions count declared).length = count := by
  rw [namePositions, List.length_map, List.length_range]

end SubscriptionSchema

/-- One decoded update. The item and the changed positions are 0-based. -/
structure ItemUpdate where
  schema : SubscriptionSchema
  item : ℕ
  kind : UpdateKind
  values : List (Option String)
  changed : List ℕ
  deriving DecidableEq

namespace ItemUpdate

/-- The value at a 1-based position. -/
def field (update : ItemUpdate) (position : ℕ) : Option FieldValue :=
  if position = 0 then none
  else update.values[position - 1]?.map fun
    | none => .null
    | some text => .text text

end ItemUpdate

end Lightstreamer.Subscription
