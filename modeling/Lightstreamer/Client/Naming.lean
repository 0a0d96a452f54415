import Lightstreamer.Foundations.Text

/-!
# What a subscription names

A subscription names its items and its fields in one text each. Either the text is a name that the
server resolves, or it lists names with single blanks between them, and then the client knows them
too: `names_fromNames` gives back what was listed, whatever the names are.
-/

namespace Lightstreamer.Client

open Lightstreamer.Foundations

/-- Why a configuration is refused, as far as subscriptions go. -/
inductive ConfigError
  | emptyItemGroup
  | itemGroupControlCharacter
  | itemNameHasWhitespace (name : String)
  | emptyFieldSchema
  | fieldSchemaControlCharacter
  | fieldNameHasWhitespace (name : String)
  | invalidFrequency (value : String)
  | snapshotLengthNeedsDistinct (mode : String)
  | snapshotNeedsAStatefulMode
  | frequencyNeedsAFilteredMode
  | bufferSizeNeedsMergeOrDistinct (mode : String)
  | bufferSizeWithUnfilteredFrequency
  deriving DecidableEq

/-- The `Display` text of a refusal. -/
def ConfigError.display : ConfigError → String
  | emptyItemGroup => "subscription names no items"
  | itemGroupControlCharacter => "item group contains a control character"
  | itemNameHasWhitespace name =>
    s!"item name `{name}` contains whitespace; item names are separated by spaces"
  | emptyFieldSchema => "subscription names no fields"
  | fieldSchemaControlCharacter => "field schema contains a control character"
  | fieldNameHasWhitespace name =>
    s!"field name `{name}` contains whitespace; field names are separated by spaces"
  | invalidFrequency value =>
    s!"`{value}` is not a frequency: expected a decimal number such as `2` or `0.5`"
  | snapshotLengthNeedsDistinct mode =>
    s!"a snapshot length is admitted only with SubscriptionMode::Distinct, not {mode}"
  | snapshotNeedsAStatefulMode => "a snapshot is not available with SubscriptionMode::Raw"
  | frequencyNeedsAFilteredMode => "a maximum frequency is not applied with SubscriptionMode::Raw"
  | bufferSizeNeedsMergeOrDistinct mode =>
    s!"a buffer size applies only to SubscriptionMode::Merge or ::Distinct, not {mode}"
  | bufferSizeWithUnfilteredFrequency =>
    "a buffer size is ignored with MaxFrequency::Unfiltered; set one or the other"

/-! ## Names in one text -/

/-- A text that names what is subscribed to: one name that the server resolves, or listed names
with single blanks between them. -/
structure Naming where
  text : String
  listed : Bool
  notBlank : (Text.trim text.toList).isEmpty = false
  noControl : text.toList.any Text.isControl = false
  spaced : listed = true → [' '].intercalate (Text.splitWhitespace text.toList) = text.toList
  deriving DecidableEq

/-- How a text that names nothing is refused, and what cannot be a name. -/
structure NamingErrors where
  empty : ConfigError
  controlCharacter : ConfigError
  whitespace : String → ConfigError

namespace Naming

/-- The names, when the caller spelled them out. -/
def names (naming : Naming) : List String :=
  if naming.listed then (Text.splitWhitespace naming.text.toList).map String.ofList else []

/-- Wrap a name that the server resolves. -/
def tryNew (errors : NamingErrors) (name : String) : Except ConfigError Naming :=
  if hblank : (Text.trim name.toList).isEmpty then .error errors.empty
  else if hcontrol : name.toList.any Text.isControl then .error errors.controlCharacter
  else .ok ⟨name, false, Bool.eq_false_iff.2 hblank, Bool.eq_false_iff.2 hcontrol,
    fun hlisted => absurd hlisted Bool.false_ne_true⟩

/-- What is wrong with a name in a list. -/
def complaint (errors : NamingErrors) (name : String) : Option ConfigError :=
  if name.toList.isEmpty || name.toList.any Text.isWhitespace then some (errors.whitespace name)
  else if name.toList.any Text.isControl then some errors.controlCharacter
  else none

/-- A name that may be listed. -/
structure Listable (name : String) : Prop where
  nonempty : name.toList.isEmpty = false
  solid : name.toList.any Text.isWhitespace = false
  noControl : name.toList.any Text.isControl = false

variable {errors : NamingErrors} {listed : List String} {name : String}

theorem complaint_eq_none_iff : complaint errors name = none ↔ Listable name := by
  unfold complaint
  constructor
  · intro h
    split_ifs at h with hspace hcontrol
    rw [Bool.or_eq_true, not_or] at hspace
    exact ⟨Bool.eq_false_iff.2 hspace.1, Bool.eq_false_iff.2 hspace.2, Bool.eq_false_iff.2 hcontrol⟩
  · intro h
    rw [h.nonempty, h.solid, h.noControl]
    rfl

theorem intercalate_toList (listed : List String) :
    (" ".intercalate listed).toList = [' '].intercalate (listed.map String.toList) :=
  String.toList_intercalate

theorem splitWhitespace_intercalate (h : ∀ name ∈ listed, Listable name) :
    Text.splitWhitespace (" ".intercalate listed).toList = listed.map String.toList := by
  rw [intercalate_toList]
  refine Text.splitWhitespace_intercalate fun word hword => ?_
  obtain ⟨name, hname, rfl⟩ := List.mem_map.1 hword
  exact ⟨List.isEmpty_eq_false_iff.1 (h name hname).nonempty,
    fun c hc => Bool.eq_false_iff.2 (List.any_eq_false.1 (h name hname).solid c hc)⟩

/-- The characters of a list of names are theirs, and the blanks between them. -/
theorem mem_intercalate {words : List (List Char)} {c : Char} :
    c ∈ [' '].intercalate words → c = ' ' ∨ ∃ word ∈ words, c ∈ word := by
  induction words with
  | nil => simp
  | cons word words ih =>
    cases words with
    | nil => exact fun hc => .inr ⟨word, List.mem_cons_self, by simpa using hc⟩
    | cons next words =>
      rw [List.intercalate_cons_cons, List.mem_append, List.mem_append]
      rintro ((hc | hc) | hc)
      · exact .inr ⟨word, List.mem_cons_self, hc⟩
      · exact .inl (List.mem_singleton.1 hc)
      · rcases ih hc with hc | ⟨w, hw, hc⟩
        · exact .inl hc
        · exact .inr ⟨w, List.mem_cons_of_mem _ hw, hc⟩

/-- Names with single blanks between them. -/
def join (listed : List String) (hne : listed ≠ []) (h : ∀ name ∈ listed, Listable name) :
    Naming where
  text := " ".intercalate listed
  listed := true
  notBlank := by
    obtain ⟨name, listed, rfl⟩ := List.exists_cons_of_ne_nil hne
    have hname := h name List.mem_cons_self
    obtain ⟨c, hc⟩ := List.exists_mem_of_ne_nil _ (List.isEmpty_eq_false_iff.1 hname.nonempty)
    rw [List.isEmpty_eq_false_iff]
    refine Text.trim_ne_nil (c := c) ?_ (List.any_eq_false.1 hname.solid c hc)
    rw [intercalate_toList]
    cases listed with
    | nil => simpa using hc
    | cons next listed =>
      rw [List.map_cons, List.map_cons, List.intercalate_cons_cons]
      exact List.mem_append_left _ (List.mem_append_left _ hc)
  noControl := by
    rw [List.any_eq_false, intercalate_toList]
    intro c hc
    rcases mem_intercalate hc with rfl | ⟨word, hword, hc⟩
    · decide
    · obtain ⟨name, hname, rfl⟩ := List.mem_map.1 hword
      exact List.any_eq_false.1 (h name hname).noControl c hc
  spaced := fun _ => by rw [splitWhitespace_intercalate h, intercalate_toList]

/-- Wrap a list of names. -/
def fromNames (errors : NamingErrors) (listed : List String) : Except ConfigError Naming :=
  if hne : listed = [] then .error errors.empty
  else match h : listed.findSome? (complaint errors) with
    | some e => .error e
    | none => .ok (join listed hne fun name hname =>
      complaint_eq_none_iff.1 (List.findSome?_eq_none_iff.1 h name hname))

/-- **Listed names come back**, in their order. -/
theorem names_fromNames {naming : Naming} (h : fromNames errors listed = .ok naming) :
    naming.names = listed := by
  unfold fromNames at h
  split_ifs at h with hne
  split at h
  · cases h
  · next hnone =>
    have hlistable : ∀ name ∈ listed, Listable name := fun name hname =>
      complaint_eq_none_iff.1 (List.findSome?_eq_none_iff.1 hnone name hname)
    cases h
    rw [names, join, if_pos rfl, splitWhitespace_intercalate hlistable, List.map_map]
    exact (List.map_congr_left fun name _ => String.ofList_toList).trans (List.map_id _)

/-- Names are refused when there are none, or when one of them cannot be listed. -/
theorem fromNames_isOk_iff :
    (fromNames errors listed).isOk = true ↔ listed ≠ [] ∧ ∀ name ∈ listed, Listable name := by
  have hnone : listed.findSome? (complaint errors) = none ↔ ∀ name ∈ listed, Listable name := by
    rw [List.findSome?_eq_none_iff]
    exact forall₂_congr fun name _ => complaint_eq_none_iff
  rw [← hnone]
  unfold fromNames
  split_ifs with hne
  · exact iff_of_false Bool.false_ne_true fun h => h.1 hne
  · split
    · next e he => exact iff_of_false Bool.false_ne_true fun h => by simp [he] at h
    · next hnone => exact iff_of_true rfl ⟨hne, hnone⟩

end Naming

/-! ## Items and fields -/

theorem exists_of_map_ok {ε α β : Type} {x : Except ε α} {f : α → β} {b : β}
    (h : x.map f = .ok b) : ∃ a, x = .ok a ∧ f a = b := by
  cases x with
  | error e => cases h
  | ok a => exact ⟨a, rfl, Except.ok.inj h⟩

/-- Which items a subscription covers. -/
structure ItemGroup extends Naming
  deriving DecidableEq

namespace ItemGroup

def errors : NamingErrors :=
  ⟨.emptyItemGroup, .itemGroupControlCharacter, .itemNameHasWhitespace⟩

/-- Wrap the name of a group. -/
def tryNew (group : String) : Except ConfigError ItemGroup :=
  (Naming.tryNew errors group).map ItemGroup.mk

/-- List the names of the items. -/
def fromItems (items : List String) : Except ConfigError ItemGroup :=
  (Naming.fromNames errors items).map ItemGroup.mk

theorem names_fromItems {items : List String} {group : ItemGroup}
    (h : fromItems items = .ok group) : group.names = items := by
  obtain ⟨naming, hnaming, rfl⟩ := exists_of_map_ok h
  exact Naming.names_fromNames hnaming

end ItemGroup

/-- Which fields a subscription asks for. -/
structure FieldSchema extends Naming
  deriving DecidableEq

namespace FieldSchema

def errors : NamingErrors :=
  ⟨.emptyFieldSchema, .fieldSchemaControlCharacter, .fieldNameHasWhitespace⟩

/-- Wrap the name of a schema. -/
def tryNew (schema : String) : Except ConfigError FieldSchema :=
  (Naming.tryNew errors schema).map FieldSchema.mk

/-- List the names of the fields. -/
def fromFields (fields : List String) : Except ConfigError FieldSchema :=
  (Naming.fromNames errors fields).map FieldSchema.mk

theorem names_fromFields {fields : List String} {schema : FieldSchema}
    (h : fromFields fields = .ok schema) : schema.names = fields := by
  obtain ⟨naming, hnaming, rfl⟩ := exists_of_map_ok h
  exact Naming.names_fromNames hnaming

end FieldSchema

end Lightstreamer.Client
