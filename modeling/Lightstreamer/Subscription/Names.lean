import Lightstreamer.Subscription.Replica

/-!
# The names of items and fields

The server sends no names. What the caller declared when it subscribed is matched with the positions
that the server announces, and a position that was not declared is named by its number. `Named` is
what the views of an update come to: which name an item or a field has, which field a name finds,
and which fields changed. It holds of every update that a subscription accepts (`update_named`).
-/

namespace Lightstreamer.Subscription

open Lightstreamer.Protocol

/-! ## Views -/

/-- The name of a position, if the caller declared it. -/
def SchemaName.declaredStr (name : SchemaName) : Option String :=
  if name.declared then some name.text else none

namespace Field

/-- The name of the field, or its position. -/
def name (f : Field) : String := f.update.schema.fields[f.index]?.elim "" SchemaName.text

def declaredName (f : Field) : Option String :=
  f.update.schema.fields[f.index]?.bind SchemaName.declaredStr

def isChanged (f : Field) : Bool := f.update.changed.contains f.index

end Field

namespace ItemUpdate

/-- The name of the item, or its index. -/
def itemName (update : ItemUpdate) : String :=
  update.schema.items[update.item]?.elim "" SchemaName.text

def declaredItemName (update : ItemUpdate) : Option String :=
  update.schema.items[update.item]?.bind SchemaName.declaredStr

/-- The name at a 1-based position. -/
def fieldName (update : ItemUpdate) (position : ℕ) : Option String :=
  if position = 0 then none else update.schema.fields[position - 1]?.map SchemaName.text

/-- The 1-based position of the first field that was declared by a name. -/
def fieldPosition (update : ItemUpdate) (name : String) : Option ℕ :=
  (update.schema.fields.findIdx? fun field => field.declaredStr = some name).map (· + 1)

def fieldByName (update : ItemUpdate) (name : String) : Option FieldValue :=
  (update.fieldPosition name).bind update.field

/-- Whether the update carried a token for a 1-based position. -/
def isFieldChanged (update : ItemUpdate) (position : ℕ) : Bool :=
  position ≠ 0 && update.changed.contains (position - 1)

def isFieldChangedByName (update : ItemUpdate) (name : String) : Bool :=
  (update.fieldPosition name).any update.isFieldChanged

def isKeyChanged (update : ItemUpdate) : Bool :=
  update.schema.keyField.any fun index => update.isFieldChanged (index + 1)

def isCommandChanged (update : ItemUpdate) : Bool :=
  update.schema.commandField.any fun index => update.isFieldChanged (index + 1)

end ItemUpdate

/-! ## What the views come to -/

/-- The first field that was declared by a name. -/
def ItemUpdate.firstNamed (update : ItemUpdate) (name : String) : Option Field :=
  update.fields.find? fun f => f.declaredName = some name

/-- The views of an update of a subscription with these declared names. -/
structure Named (items fields : List String) (update : ItemUpdate) : Prop where
  declaredItemName : update.declaredItemName = items[update.item]?
  itemName : update.itemName = update.declaredItemName.getD update.itemIndex.repr
  declaredName : ∀ f ∈ update.fields, f.declaredName = fields[f.index]?
  name : ∀ f ∈ update.fields, f.name = f.declaredName.getD f.position.repr
  fieldName : ∀ position name, update.fieldName position = some name ↔
    ∃ f ∈ update.fields, f.position = position ∧ f.name = name
  fieldPosition : ∀ name,
    update.fieldPosition name = (update.firstNamed name).map Field.position
  fieldByName : ∀ name, update.fieldByName name = (update.firstNamed name).map Field.value
  isChanged : ∀ f ∈ update.fields, f.isChanged = true ↔ f ∈ update.changedFields
  isFieldChanged : ∀ position, update.isFieldChanged position = true ↔
    ∃ f ∈ update.changedFields, f.position = position
  isFieldChangedByName : ∀ name, update.isFieldChangedByName name =
    (update.firstNamed name).any Field.isChanged
  isKeyChanged : update.isKeyChanged = true ↔
    ∃ f ∈ update.changedFields, update.schema.keyField = some f.index
  isCommandChanged : update.isCommandChanged = true ↔
    ∃ f ∈ update.changedFields, update.schema.commandField = some f.index

/-- The position that is found first. -/
theorem findIdx?_eq_find?_range {α : Type*} (p : α → Bool) (l : List α) :
    l.findIdx? p = (List.range l.length).find? fun i => l[i]?.any p := by
  ext i
  rw [List.findIdx?_eq_some_iff_getElem, List.find?_range_eq_some]
  constructor
  · rintro ⟨hi, hp, hbefore⟩
    refine ⟨by simpa [hi] using hp, List.mem_range.2 hi, fun j hj => ?_⟩
    simpa [hj.trans hi] using hbefore j hj
  · rintro ⟨hp, hi, hbefore⟩
    have hi := List.mem_range.1 hi
    refine ⟨hi, by simpa [hi] using hp, fun j hj => ?_⟩
    simpa [hj.trans hi] using hbefore j hj

namespace SubscriptionSchema

/-- The name at a position in range. -/
theorem namePositions_getElem? {count index : ℕ} (h : index < count) (declared : List String) :
    ∃ name, (namePositions count declared)[index]? = some name ∧
      name.declaredStr = declared[index]? ∧
      name.text = declared[index]?.getD (index + 1).repr := by
  rw [namePositions, List.getElem?_map, List.getElem?_range h]
  refine ⟨_, rfl, ?_⟩
  dsimp only
  cases declared[index]? <;> exact ⟨rfl, rfl⟩

end SubscriptionSchema

namespace ItemUpdate

variable {update : ItemUpdate} {f : Field}

theorem mem_fields : f ∈ update.fields ↔ f.update = update ∧ f.index < update.values.length := by
  rw [fields, List.mem_map]
  constructor
  · rintro ⟨index, hindex, rfl⟩
    exact ⟨rfl, List.mem_range.1 hindex⟩
  · rintro ⟨rfl, hindex⟩
    exact ⟨f.index, List.mem_range.2 hindex, rfl⟩

theorem mem_changedFields :
    f ∈ update.changedFields ↔ f.update = update ∧ f.index ∈ update.changed := by
  rw [changedFields, List.mem_map]
  constructor
  · rintro ⟨index, hindex, rfl⟩
    exact ⟨rfl, hindex⟩
  · rintro ⟨rfl, hindex⟩
    exact ⟨f.index, hindex, rfl⟩

theorem isFieldChanged_succ (index : ℕ) :
    update.isFieldChanged (index + 1) = true ↔ Field.mk update index ∈ update.changedFields := by
  rw [mem_changedFields, isFieldChanged]
  simp

/-- A position of the schema has changed when its field is one of those that changed. -/
theorem any_isFieldChanged_iff (o : Option ℕ) :
    (o.any fun index => update.isFieldChanged (index + 1)) = true ↔
      ∃ f ∈ update.changedFields, o = some f.index := by
  rw [Option.any_eq_true]
  constructor
  · rintro ⟨index, rfl, hchanged⟩
    exact ⟨_, isFieldChanged_succ index |>.1 hchanged, rfl⟩
  · rintro ⟨f, hf, rfl⟩
    obtain ⟨rfl, -⟩ := mem_changedFields.1 hf
    exact ⟨f.index, rfl, isFieldChanged_succ f.index |>.2 hf⟩

theorem field_succ {index : ℕ} (h : index < update.values.length) :
    update.field (index + 1) = some (Field.mk update index).value := by
  rw [field, if_neg (Nat.succ_ne_zero index), Field.value, Nat.add_sub_cancel,
    List.getElem?_eq_getElem h]
  cases update.values[index] <;> rfl

theorem isFieldChanged_iff (position : ℕ) :
    update.isFieldChanged position = true ↔ ∃ f ∈ update.changedFields, f.position = position := by
  cases position with
  | zero => simp [isFieldChanged, Field.position]
  | succ index =>
    rw [isFieldChanged_succ]
    constructor
    · exact fun h => ⟨_, h, rfl⟩
    · rintro ⟨f, hf, hposition⟩
      obtain ⟨rfl, -⟩ := mem_changedFields.1 hf
      obtain rfl := Nat.succ.inj hposition
      exact hf

theorem fieldName_eq_some_iff (h : update.schema.fields.length = update.values.length)
    (position : ℕ) (name : String) : update.fieldName position = some name ↔
      ∃ f ∈ update.fields, f.position = position ∧ f.name = name := by
  rw [fieldName]
  constructor
  · intro hname
    split_ifs at hname with hzero
    obtain ⟨declared, hdeclared, rfl⟩ := Option.map_eq_some_iff.1 hname
    have hlt := (List.getElem?_eq_some_iff.1 hdeclared).1
    refine ⟨⟨update, position - 1⟩, mem_fields.2 ⟨rfl, h ▸ hlt⟩, ?_, ?_⟩
    · exact Nat.succ_pred_eq_of_ne_zero hzero
    · rw [Field.name, hdeclared]
      rfl
  · rintro ⟨f, hf, rfl, rfl⟩
    obtain ⟨rfl, hindex⟩ := mem_fields.1 hf
    rw [Field.position, if_neg (Nat.succ_ne_zero f.index), Field.name, Nat.add_sub_cancel,
      List.getElem?_eq_getElem (h ▸ hindex)]
    rfl

/-- The first field of a name is where the name is found in the schema. -/
theorem firstNamed_eq (h : update.schema.fields.length = update.values.length) (name : String) :
    update.firstNamed name =
      (update.schema.fields.findIdx? fun field => field.declaredStr = some name).map
        (Field.mk update) := by
  have hnamed : ∀ o : Option SchemaName, decide (o.bind SchemaName.declaredStr = some name) =
      o.any fun field => field.declaredStr = some name := fun o => by
    cases o <;> simp
  rw [firstNamed, fields, List.find?_map, findIdx?_eq_find?_range, h]
  congr 2
  funext index
  exact hnamed update.schema.fields[index]?

end ItemUpdate

open SubscriptionSchema in
/-- The views of an update whose schema has the declared names. -/
theorem Named.of_schema {count : ℕ} {items fields : List String} {update : ItemUpdate}
    (hitems : update.schema.items = namePositions count items) (hitem : update.item < count)
    (hfields : update.schema.fields = namePositions update.values.length fields) :
    Named items fields update := by
  have hlength : update.schema.fields.length = update.values.length := by
    rw [hfields, length_namePositions]
  obtain ⟨item, hget, hdeclared, htext⟩ := namePositions_getElem? hitem items
  have hfield : ∀ f ∈ update.fields, ∃ name, f.update.schema.fields[f.index]? = some name ∧
      name.declaredStr = fields[f.index]? ∧ name.text = fields[f.index]?.getD f.position.repr := by
    intro f hf
    obtain ⟨rfl, hindex⟩ := ItemUpdate.mem_fields.1 hf
    rw [hfields]
    exact namePositions_getElem? hindex fields
  have hname : update.declaredItemName = items[update.item]? := by
    rw [ItemUpdate.declaredItemName, hitems, hget]
    exact hdeclared
  have hdeclaredName : ∀ f ∈ update.fields, f.declaredName = fields[f.index]? := fun f hf => by
    obtain ⟨name, hname, hdeclared, -⟩ := hfield f hf
    rw [Field.declaredName, hname]
    exact hdeclared
  constructor
  case declaredItemName => exact hname
  case itemName =>
    rw [hname, ItemUpdate.itemName, hitems, hget]
    exact htext
  case declaredName => exact hdeclaredName
  case name =>
    intro f hf
    obtain ⟨name, hname, -, htext⟩ := hfield f hf
    rw [hdeclaredName f hf, Field.name, hname]
    exact htext
  case fieldName => exact ItemUpdate.fieldName_eq_some_iff hlength
  case fieldPosition =>
    intro name
    rw [ItemUpdate.firstNamed_eq hlength, Option.map_map]
    rfl
  case fieldByName =>
    intro name
    rw [ItemUpdate.firstNamed_eq hlength, ItemUpdate.fieldByName, ItemUpdate.fieldPosition]
    cases hfound : update.schema.fields.findIdx? fun field => field.declaredStr = some name with
    | none => rfl
    | some index =>
      have hlt := (List.findIdx?_eq_some_iff_getElem.1 hfound).1
      exact ItemUpdate.field_succ (hlength ▸ hlt)
  case isChanged =>
    intro f hf
    obtain ⟨rfl, -⟩ := ItemUpdate.mem_fields.1 hf
    rw [ItemUpdate.mem_changedFields, Field.isChanged]
    simp
  case isFieldChanged => exact ItemUpdate.isFieldChanged_iff
  case isFieldChangedByName =>
    intro name
    rw [ItemUpdate.firstNamed_eq hlength, ItemUpdate.isFieldChangedByName,
      ItemUpdate.fieldPosition]
    cases update.schema.fields.findIdx? fun field => field.declaredStr = some name with
    | none => rfl
    | some index => rfl
  case isKeyChanged => exact ItemUpdate.any_isFieldChanged_iff _
  case isCommandChanged => exact ItemUpdate.any_isFieldChanged_iff _

/-! ## Managers -/

open SubscriptionSchema in
/-- A manager knows the declared names, and an activated one names its positions by them. -/
structure Names (items fields : List String) (m : SubscriptionManager) : Prop where
  declaredItems : m.declaredItems = items
  declaredFields : m.declaredFields = fields
  items : ∀ active, m.activation = .active active →
    active.schema.items = namePositions active.items.length items
  fields : ∀ active, m.activation = .active active → ∀ tracker ∈ active.items,
    active.schema.fields = namePositions tracker.state.fieldCount fields

namespace Names

variable {items fields : List String} {m m' : SubscriptionManager}

/-- What a manager accepts leaves the names as they are. -/
theorem of_accepted (h : Names items fields m) {event : SubscriptionEvent}
    (haccepted : Accepted m event m') : Names items fields m' := by
  cases haccepted with
  | activated itemCount fieldCount positions =>
    refine ⟨h.declaredItems, h.declaredFields, fun active hactive => ?_,
      fun active hactive tracker htracker => ?_⟩
    · cases hactive
      rw [List.length_replicate, ← h.declaredItems]
      rfl
    · cases hactive
      rw [List.eq_of_mem_replicate htracker, ← h.declaredFields]
      change _ = SubscriptionSchema.namePositions (List.replicate fieldCount _).length _
      rw [List.length_replicate]
      rfl
  | @update active index tracker state outcome _ kind hactive htracker happly =>
    refine ⟨h.declaredItems, h.declaredFields, fun active' hactive' => ?_,
      fun active' hactive' tracker' htracker' => ?_⟩
    · cases hactive'
      rw [List.length_set]
      exact h.items active hactive
    · cases hactive'
      rcases List.mem_or_eq_of_mem_set htracker' with hmem | rfl
      · exact h.fields active hactive tracker' hmem
      · have hcount := (applies_of_apply happly).length
        change _ = SubscriptionSchema.namePositions state.fields.length fields
        rw [hcount]
        exact h.fields active hactive tracker (List.mem_of_getElem? htracker)
  | endOfSnapshot hactive =>
    rename_i active index _
    rw [SubscriptionManager.markEndOfSnapshot_of_active hactive]
    refine ⟨h.declaredItems, h.declaredFields, fun active' hactive' => ?_,
      fun active' hactive' tracker' htracker' => ?_⟩
    · cases hactive'
      rw [List.length_modify]
      exact h.items active hactive
    · cases hactive'
      obtain ⟨j, hj⟩ := List.getElem?_of_mem htracker'
      obtain ⟨tracker, htracker, rfl⟩ := Option.map_eq_some_iff.1 (List.getElem?_modify .. ▸ hj)
      have hfields := h.fields active hactive tracker (List.mem_of_getElem? htracker)
      dsimp only
      split_ifs <;> exact hfields
  | snapshotCleared | overflow | reconfigured => exact h
  | unsubscribed => exact ⟨h.declaredItems, h.declaredFields, by simp, by simp⟩

/-- What a manager hears leaves the names as they are. -/
theorem handle (h : Names items fields m) (n : Notification) :
    Names items fields (m.handle n).2 := by
  cases houtcome : (m.handle n).1 with
  | none =>
    rw [SubscriptionManager.handle_of_none houtcome]
    exact h
  | some outcome =>
    cases outcome with
    | error e =>
      rw [SubscriptionManager.handle_eq_of_error houtcome]
      exact h
    | ok event => exact h.of_accepted (SubscriptionManager.accepted_of_handle houtcome)

theorem handleAll (h : Names items fields m) (ns : List Notification) :
    Names items fields (m.handleAll ns) := by
  induction ns generalizing m with
  | nil => exact h
  | cons n ns ih => exact ih (h.handle n)

/-- An update that is accepted has the names. -/
theorem named (h : Names items fields m) {update : ItemUpdate}
    (haccepted : Accepted m (.update update) m') : Named items fields update := by
  cases haccepted with
  | @update active index tracker state outcome _ kind hactive htracker happly =>
    have hcount := (applies_of_apply happly).length
    refine .of_schema (h.items active hactive) (List.getElem?_eq_some_iff.1 htracker).1 ?_
    dsimp only
    rw [length_values, ItemState.fieldCount, hcount]
    exact h.fields active hactive tracker (List.mem_of_getElem? htracker)

end Names

/-- **Updates are named as the caller declared.** Whatever a subscription was told, an update that
it accepts next has the names that were declared for its positions, and finds its fields by them. -/
theorem update_named (mode : SubscriptionMode) (snapshotRequested : Bool)
    (items fields : List String) (ns : List Notification) (n : Notification) {update : ItemUpdate}
    (h : (((SubscriptionManager.new mode snapshotRequested items fields).handleAll ns).handle n).1 =
      some (.ok (.update update))) : Named items fields update := by
  have hnew : Names items fields (.new mode snapshotRequested items fields) :=
    ⟨rfl, rfl, by simp [SubscriptionManager.new], by simp [SubscriptionManager.new]⟩
  exact (hnew.handleAll ns).named (SubscriptionManager.accepted_of_handle h)

end Lightstreamer.Subscription
