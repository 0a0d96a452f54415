import Lightstreamer.Subscription.Accepted
import Lightstreamer.Subscription.InPlace
import Mathlib.Data.List.Sort

/-!
# Keeping a table from the fields that changed

An `ItemUpdate` carries every value of its item and marks those that the update brought
(`changedFields`). A caller that keeps a table may write the marked ones only (`Table.write`): the
decoder keeps the other values as they are (`Applies`), so the table stays what the manager holds
(`Mirrors.of_accepted`), and after an update the row of its item is all of the update
(`Mirrors.row_of_accepted`).
-/

namespace Lightstreamer.Subscription

open Lightstreamer.Protocol

/-! ## Views of an update -/

def SubscriptionSchema.isCommandMode (schema : SubscriptionSchema) : Bool :=
  schema.keyField.isSome && schema.commandField.isSome

/-- The text, if the field is not null. -/
def FieldValue.asText : FieldValue → Option String
  | .null => none
  | .text value => some value

/-- Equality up to the case of ASCII letters. -/
def eqIgnoreAsciiCase (a b : String) : Bool :=
  a.toList.map Char.toLower = b.toList.map Char.toLower

/-- What the command field of an update asks for. -/
inductive ItemCommand
  | add
  | update
  | delete
  | unrecognized (literal : String)
  deriving DecidableEq

/-- The casing of the literals is not specified, so it is ignored. -/
def ItemCommand.fromWire (value : String) : ItemCommand :=
  if eqIgnoreAsciiCase value "ADD" then .add
  else if eqIgnoreAsciiCase value "UPDATE" then .update
  else if eqIgnoreAsciiCase value "DELETE" then .delete
  else .unrecognized value

/-- One field of an update. The index is 0-based. -/
structure Field where
  update : ItemUpdate
  index : ℕ
  deriving DecidableEq

namespace Field

/-- The 1-based position of the field in the schema. -/
def position (f : Field) : ℕ := f.index + 1

/-- The value of the field after the update. -/
def value (f : Field) : FieldValue :=
  match f.update.values[f.index]? with
  | some (some text) => .text text
  | some none | none => .null

end Field

namespace ItemUpdate

/-- The 1-based index of the item. -/
def itemIndex (update : ItemUpdate) : ℕ := update.item + 1

def fieldCount (update : ItemUpdate) : ℕ := update.schema.fields.length

/-- Every field, in the order of the schema. -/
def fields (update : ItemUpdate) : List Field :=
  (List.range update.values.length).map fun index => ⟨update, index⟩

/-- The fields that the update carried a token for. -/
def changedFields (update : ItemUpdate) : List Field :=
  update.changed.map fun index => ⟨update, index⟩

def isCommandMode (update : ItemUpdate) : Bool := update.schema.isCommandMode

/-- The value of the key field. -/
def key (update : ItemUpdate) : Option FieldValue :=
  update.schema.keyField.bind fun index => update.field (index + 1)

/-- The command, unless it is null. -/
def command (update : ItemUpdate) : Option ItemCommand := do
  let index ← update.schema.commandField
  let value ← update.field (index + 1)
  value.asText.map ItemCommand.fromWire

end ItemUpdate

/-! ## The fields that an update changes -/

theorem length_values (state : ItemState) : state.values.length = state.fieldCount := by
  rw [ItemState.values, List.length_map, List.length_range]

section apply

variable {state state' : ItemState} {raw : String} {outcome : UpdateOutcome}

/-- The fields that a value list changes are some of the schema, in order. -/
theorem changed_sublist (h : state.apply raw = .ok (state', outcome)) :
    outcome.changed.Sublist (List.range state'.fieldCount) := by
  have happlies := applies_of_apply h
  refine List.sublist_of_subperm_of_pairwise (List.subperm_of_subset happlies.ascending.nodup
    fun i hi => ?_) happlies.ascending List.pairwise_lt_range
  rw [List.mem_range, ItemState.fieldCount, happlies.length]
  exact happlies.inRange i hi

/-- The first value list of an item changes every field. -/
theorem changed_of_unset (h : state.apply raw = .ok (state', outcome))
    (hunset : ∀ slot ∈ state.fields, slot = .unset) :
    outcome.changed = List.range state'.fieldCount := by
  have happlies := applies_of_apply h
  have hsubset : List.range state'.fieldCount ⊆ outcome.changed := by
    intro i hi
    by_contra hkept
    rw [List.mem_range, ItemState.fieldCount, happlies.length] at hi
    -- a field that is kept was never set, and every field is set afterwards
    have hslot : state'.fields[i]? = some .unset := by
      rw [happlies.kept i hkept, List.getElem?_eq_getElem hi, hunset _ (List.getElem_mem hi)]
    exact set_of_apply h _ (List.mem_of_getElem? hslot) rfl
  exact (changed_sublist h).eq_of_length_le
    (List.subperm_of_subset List.nodup_range hsubset).length_le

end apply

/-! ## Tables -/

/-- The view of a value. -/
def FieldValue.of : Option String → FieldValue
  | none => .null
  | some value => .text value

theorem Field.value_eq (update : ItemUpdate) (index : ℕ) :
    (Field.mk update index).value = .of update.values[index]?.join := by
  unfold Field.value
  rcases update.values[index]? with _ | _ | _ <;> rfl

/-- What a caller keeps: a value for each item index and each position. -/
abbrev Table := ℕ → ℕ → FieldValue

namespace Table

/-- No field has a value. -/
def blank : Table := fun _ _ => .null

def set (t : Table) (item position : ℕ) (value : FieldValue) : Table := fun i p =>
  if i = item ∧ p = position then value else t i p

/-- Write the fields that an update changed. -/
def write (t : Table) (update : ItemUpdate) : Table :=
  update.changedFields.foldl (fun t f => t.set update.itemIndex f.position f.value) t

/-- What a caller does with an event of the subscription. -/
def hear (t : Table) : SubscriptionEvent → Table
  | .activated .. => blank
  | .update update => t.write update
  | _ => t

variable (t : Table) (update : ItemUpdate)

private theorem write_eq (changed : List ℕ) (i index : ℕ) :
    (changed.map (Field.mk update)).foldl
        (fun t f => t.set update.itemIndex f.position f.value) t i (index + 1) =
      if i = update.itemIndex ∧ index ∈ changed then (Field.mk update index).value
      else t i (index + 1) := by
  induction changed generalizing t with
  | nil => simp
  | cons j changed ih =>
    rw [List.map_cons, List.foldl_cons, ih]
    by_cases hi : i = update.itemIndex
    · by_cases hj : index = j
      · subst hj
        simp [hi, set, Field.position]
      · simp [hi, hj, set, Field.position]
    · simp [hi, set]

/-- What is written of an update: the changed fields of its item. -/
theorem write_apply (i index : ℕ) : t.write update i (index + 1) =
    if i = update.itemIndex ∧ index ∈ update.changed then (Field.mk update index).value
    else t i (index + 1) :=
  write_eq t update update.changed i index

/-- The rows of the other items stay. -/
theorem write_of_ne {i : ℕ} (hi : i ≠ update.itemIndex) (index : ℕ) :
    t.write update i (index + 1) = t i (index + 1) := by
  rw [write_apply, if_neg fun h => hi h.1]

end Table

/-! ## The table and the manager -/

/-- The value of a field of an item, as a view. -/
def ItemState.view (state : ItemState) (index : ℕ) : FieldValue := .of (state.field index).join

/-- The rows of the items of an activated manager hold the values of their states. -/
def Mirrors (t : Table) (m : SubscriptionManager) : Prop :=
  ∀ active, m.activation = .active active → ∀ index tracker,
    active.items[index]? = some tracker → ∀ i, t (index + 1) (i + 1) = tracker.state.view i

namespace Mirrors

variable {t : Table} {m : SubscriptionManager}

theorem of_not_active (h : ∀ active, m.activation ≠ .active active) : Mirrors t m :=
  fun active hactive => absurd hactive (h active)

/-- Items that start over have no value. -/
theorem blank {schema : SubscriptionSchema} {items fields : ℕ}
    (h : m.activation = .active ⟨schema, List.replicate items (.new fields)⟩) :
    Mirrors .blank m := by
  intro active hactive index tracker htracker i
  cases h.symm.trans hactive
  obtain rfl := List.eq_of_mem_replicate (List.mem_of_getElem? htracker)
  change FieldValue.null = .of (((List.replicate fields FieldSlot.unset)[i]?.map _).join)
  rw [List.getElem?_replicate]
  split_ifs <;> rfl

/-- The end of a snapshot changes no value. -/
theorem markEndOfSnapshot (h : Mirrors t m) (index : ℕ) :
    Mirrors t (m.markEndOfSnapshot index) := by
  by_cases hm : ∃ active, m.activation = .active active
  · obtain ⟨active, hm⟩ := hm
    rw [SubscriptionManager.markEndOfSnapshot_of_active hm]
    intro active' hactive j tracker htracker i
    cases Activation.active.inj hactive
    obtain ⟨old, hold, rfl⟩ := Option.map_eq_some_iff.1 (List.getElem?_modify .. ▸ htracker)
    rw [h active hm j old hold i]
    split_ifs <;> rfl
  · rwa [SubscriptionManager.markEndOfSnapshot_of_not_active fun active h => hm ⟨active, h⟩]

/-- The values of an update are those of the state that it leaves. -/
theorem value_of_state (schema : SubscriptionSchema) (item : ℕ) (kind : UpdateKind)
    (state : ItemState) (changed : List ℕ) (index : ℕ) :
    (Field.mk ⟨schema, item, kind, state.values, changed⟩ index).value = state.view index := by
  rw [Field.value_eq, ItemState.view, ItemState.values]
  congr 1
  dsimp only
  rw [List.getElem?_map]
  by_cases hlt : index < state.fieldCount
  · rw [List.getElem?_range hlt]
    rfl
  · rw [List.getElem?_eq_none (by simpa using hlt), ItemState.field,
      List.getElem?_eq_none (Nat.le_of_not_lt hlt)]
    rfl

/-- **The row after an update**: the changed fields are written, and the others are what they
were. -/
theorem row_of_accepted (h : Mirrors t m) {update : ItemUpdate} {m' : SubscriptionManager}
    (haccepted : Accepted m (.update update) m') (i : ℕ) :
    t.write update update.itemIndex (i + 1) = (Field.mk update i).value := by
  cases haccepted with
  | @update active index tracker state outcome _ kind hactive htracker happly =>
    rw [Table.write_apply]
    by_cases hi : i ∈ outcome.changed
    · rw [if_pos ⟨rfl, hi⟩]
    · rw [if_neg fun h => hi h.2, value_of_state]
      change t (index + 1) (i + 1) = _
      rw [h active hactive index tracker htracker i]
      exact congrArg (fun slot => FieldValue.of (Option.join (Option.map _ slot)))
        ((applies_of_apply happly).kept i hi).symm

/-- **A table kept from the changes is what the manager holds**, whatever is accepted. -/
theorem of_accepted (h : Mirrors t m) {event : SubscriptionEvent} {m' : SubscriptionManager}
    (haccepted : Accepted m event m') : Mirrors (t.hear event) m' := by
  have hrow := fun {update} (heq : event = .update update) =>
    h.row_of_accepted (heq ▸ haccepted : Accepted m (.update update) m')
  cases haccepted with
  | activated => exact blank rfl
  | @update active index tracker state outcome _ kind hactive htracker happly =>
    intro active' hactive' j tracker' htracker' i
    cases Activation.active.inj hactive'
    by_cases hj : j = index
    · subst hj
      rw [List.getElem?_set_self (List.getElem?_eq_some_iff.1 htracker).1] at htracker'
      cases htracker'
      exact (hrow rfl i).trans (value_of_state ..)
    · rw [List.getElem?_set_ne (Ne.symm hj)] at htracker'
      exact (t.write_of_ne _ (fun heq => hj (Nat.succ.inj heq)) i).trans
        (h active hactive j tracker' htracker' i)
  | endOfSnapshot => exact h.markEndOfSnapshot _
  | snapshotCleared | overflow | reconfigured => exact h
  | unsubscribed => exact of_not_active fun active hactive => by cases hactive

end Mirrors

end Lightstreamer.Subscription
