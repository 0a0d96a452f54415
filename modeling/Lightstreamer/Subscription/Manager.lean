import Lightstreamer.Protocol.Response
import Lightstreamer.Subscription.ItemUpdate

/-!
# The state of one subscription

A `SubscriptionManager` starts with what the caller asked for. `SUBOK` or `SUBCMD` announces the
shape of the subscription and sizes the item states; every `U` is then decoded against the state of
its item (`applyUpdate`) and classified as snapshot or real time (`classifyUpdate`). `handle`
interprets one notification: it gives the outcome that goes to the caller and the state after it.
-/

namespace Lightstreamer.Subscription

open Lightstreamer.Protocol

/-- A notification that contradicts what the server said before. -/
inductive SubscriptionError
  | notActivated (tag : String)
  | ended (tag : String)
  | itemOutOfRange (tag : String) (itemIndex itemCount : ℕ)
  | commandFieldOutOfRange (role : String) (position fieldCount : ℕ)
  | value (error : ProtocolError)
  deriving DecidableEq

/-- Where the key and the command sit in a schema, as 1-based positions. -/
structure CommandFields where
  key : ℕ
  command : ℕ
  deriving DecidableEq

/-- What one subscription tells its caller. Item indices are 1-based. -/
inductive SubscriptionEvent
  | activated (itemCount fieldCount : ℕ) (commandFields : Option CommandFields)
  | update (update : ItemUpdate)
  | endOfSnapshot (itemIndex : ℕ)
  | snapshotCleared (itemIndex : ℕ)
  | overflow (itemIndex droppedCount : ℕ)
  | reconfigured (maxFrequency : MaxFrequency) (filtering : FilteringMode)
  | unsubscribed
  deriving DecidableEq

/-- What a notification meant to a subscription, or why it could not be reconciled. -/
abbrev SubscriptionOutcome := Except SubscriptionError SubscriptionEvent

/-- Whether a `U` carries snapshot content or a live change. -/
def classifyUpdate (snapshotRequested : Bool) (mode : SubscriptionMode)
    (eosReceived firstNotification : Bool) : UpdateKind :=
  if !snapshotRequested then .realTime
  else match mode with
    | .raw => .realTime
    | .merge => if firstNotification then .snapshot else .realTime
    | .distinct | .command => if eosReceived then .realTime else .snapshot

/-- One item: its field values, and the two flags the classification reads. -/
structure ItemTracker where
  state : ItemState
  seenUpdate : Bool
  endOfSnapshot : Bool
  deriving DecidableEq

def ItemTracker.new (fieldCount : ℕ) : ItemTracker := ⟨.new fieldCount, false, false⟩

/-- The shape and the items of an activated subscription. -/
structure Active where
  schema : SubscriptionSchema
  items : List ItemTracker
  deriving DecidableEq

/-- How far along a subscription is. -/
inductive Activation
  | pending
  | active (active : Active)
  | ended
  deriving DecidableEq

/-- The item a 1-based wire index names. -/
def itemPosition (itemCount : ℕ) (tag : String) (itemIndex : ℕ) : Except SubscriptionError ℕ :=
  if itemIndex = 0 ∨ itemCount ≤ itemIndex - 1 then .error (.itemOutOfRange tag itemIndex itemCount)
  else .ok (itemIndex - 1)

/-- The field a 1-based `SUBCMD` position names. -/
def commandFieldPosition (role : String) (position fieldCount : ℕ) :
    Except SubscriptionError ℕ :=
  if position = 0 ∨ fieldCount ≤ position - 1 then
    .error (.commandFieldOutOfRange role position fieldCount)
  else .ok (position - 1)

structure SubscriptionManager where
  mode : SubscriptionMode
  snapshotRequested : Bool
  declaredItems : List String
  declaredFields : List String
  activation : Activation
  deriving DecidableEq

namespace SubscriptionManager

def new (mode : SubscriptionMode) (snapshotRequested : Bool)
    (declaredItems declaredFields : List String) : SubscriptionManager :=
  ⟨mode, snapshotRequested, declaredItems, declaredFields, .pending⟩

/-- The item that an `EOS`, a `CS` or an `OV` names. -/
def itemPosition (m : SubscriptionManager) (tag : String) (itemIndex : ℕ) :
    Except SubscriptionError ℕ :=
  match m.activation with
  | .active active => Subscription.itemPosition active.items.length tag itemIndex
  | .pending => .error (.notActivated tag)
  | .ended => .error (.ended tag)

/-- Handle `SUBOK` or `SUBCMD`: the items start over with no field set. -/
def activate (m : SubscriptionManager) (items fields : ℕ) (commandFields : Option (ℕ × ℕ)) :
    SubscriptionOutcome × SubscriptionManager :=
  let zeroBased := match commandFields with
    | some (key, command) => do
      let keyIndex ← commandFieldPosition "key" key fields
      let commandIndex ← commandFieldPosition "command" command fields
      Except.ok (some (keyIndex, commandIndex))
    | none => .ok none
  match zeroBased with
  | .error e => (.error e, m)
  | .ok zeroBased =>
    let schema := SubscriptionSchema.new items fields m.declaredItems m.declaredFields zeroBased
    (.ok (.activated items fields (zeroBased.map fun p => ⟨p.1 + 1, p.2 + 1⟩)),
      { m with activation := .active ⟨schema, List.replicate items (.new fields)⟩ })

/-- Handle `U`. A value list that is refused leaves the item as it was. -/
def applyUpdate (m : SubscriptionManager) (itemIndex : ℕ) (rawValues : String) :
    SubscriptionOutcome × SubscriptionManager :=
  match m.activation with
  | .pending => (.error (.notActivated "U"), m)
  | .ended => (.error (.ended "U"), m)
  | .active active =>
    match Subscription.itemPosition active.items.length "U" itemIndex with
    | .error e => (.error e, m)
    | .ok index =>
      match active.items[index]? with
      | none => (.error (.itemOutOfRange "U" itemIndex active.items.length), m)
      | some tracker =>
        let kind := classifyUpdate m.snapshotRequested m.mode tracker.endOfSnapshot
          (!tracker.seenUpdate)
        match tracker.state.apply rawValues with
        | .error e => (.error (.value e), m)
        | .ok (state, outcome) =>
          let values := (List.range state.fieldCount).map fun position =>
            (state.field position).join
          let tracker := { tracker with state := state, seenUpdate := true }
          let items := active.items.set index tracker
          (.ok (.update ⟨active.schema, index, kind, values, outcome.changed⟩),
            { m with activation := .active ⟨active.schema, items⟩ })

/-- Note that the snapshot of an item is complete. -/
def markEndOfSnapshot (m : SubscriptionManager) (index : ℕ) : SubscriptionManager :=
  match m.activation with
  | .active active =>
    let items := active.items.modify index fun tracker => { tracker with endOfSnapshot := true }
    { m with activation := .active ⟨active.schema, items⟩ }
  | _ => m

/-- Interpret one notification: what it means to the caller, if it concerns a subscription at all,
and the state after it. -/
def handle (m : SubscriptionManager) :
    Notification → Option SubscriptionOutcome × SubscriptionManager
  | .subscriptionOk _ itemCount fieldCount =>
    (m.activate itemCount fieldCount none).map some id
  | .subscriptionCommandOk _ itemCount fieldCount keyFieldIndex commandFieldIndex =>
    (m.activate itemCount fieldCount (some (keyFieldIndex, commandFieldIndex))).map some id
  | .update _ itemIndex rawValues => (m.applyUpdate itemIndex rawValues).map some id
  | .endOfSnapshot _ itemIndex =>
    match m.itemPosition "EOS" itemIndex with
    | .error e => (some (.error e), m)
    | .ok index => (some (.ok (.endOfSnapshot (index + 1))), m.markEndOfSnapshot index)
  -- the field values that later updates are decoded against outlive a cleared snapshot
  | .clearSnapshot _ itemIndex =>
    (some ((m.itemPosition "CS" itemIndex).map fun index => .snapshotCleared (index + 1)), m)
  | .overflow _ itemIndex droppedCount =>
    (some ((m.itemPosition "OV" itemIndex).map fun index => .overflow (index + 1) droppedCount), m)
  | .subscriptionReconfigured _ maxFrequency filtering =>
    match m.activation with
    | .ended => (some (.error (.ended "CONF")), m)
    | _ => (some (.ok (.reconfigured maxFrequency filtering)), m)
  | .unsubscribed _ => (some (.ok .unsubscribed), { m with activation := .ended })
  | _ => (none, m)

end SubscriptionManager

end Lightstreamer.Subscription
