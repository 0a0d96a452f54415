import Lightstreamer.Client.Following
import Lightstreamer.Subscription.Replica

/-!
# The protocol of a stream

An activation announces the shape of a subscription: how many items and fields it has and where the
key and the command are. `Admits` is what that means for the events after it: they name items of the
announced range, an update shows the announced fields, the first update of an item brings all of
them, and the key and the command are the values at the announced positions. Every stream keeps to
that in every run of a client (`Tasks.inProtocol`), because an activated manager is as announced
(`Announced.Holds`).
-/

namespace Lightstreamer.Client

open Lightstreamer.Foundations Lightstreamer.Protocol Lightstreamer.Subscription
open Lightstreamer.Session hiding SessionEvent

/-! ## What is announced -/

/-- What the last activation announced, and the items that were updated since. -/
structure Announced where
  items : ℕ
  fields : ℕ
  command : Option CommandFields
  updated : List ℕ

/-- What is announced after an event. -/
def announce (last : Option Announced) : SubscriptionEvent → Option Announced
  | .fromWire (.activated items fields command) => some ⟨items, fields, command, []⟩
  | .fromWire (.update update) =>
    last.map fun a => { a with updated := update.itemIndex :: a.updated }
  | .fromWire .unsubscribed => none
  | _ => last

/-- What is announced after some events. -/
def announcedBy (events : List SubscriptionEvent) : Option Announced := events.foldl announce none

namespace Announced

/-- The index is that of an item. -/
def Names (a : Announced) (itemIndex : ℕ) : Prop := 0 < itemIndex ∧ itemIndex ≤ a.items

/-- The update shows what was announced: its fields are the announced ones in order, it brings them
all if it is the first of its item, and the key and the command are at their positions. -/
structure Shows (a : Announced) (update : ItemUpdate) : Prop where
  item : a.Names update.itemIndex
  fieldCount : update.fieldCount = a.fields
  positions : update.fields.map Field.position = (List.range a.fields).map (· + 1)
  changed : update.changedFields.Sublist update.fields
  first : update.itemIndex ∉ a.updated → update.changedFields = update.fields
  isCommandMode : update.isCommandMode = a.command.isSome
  key : update.key = a.command.bind fun c => update.field c.key
  command : update.command = a.command.bind fun c =>
    (update.field c.command).bind fun value => value.asText.map ItemCommand.fromWire
  keyed : a.command.isSome = true → update.key.isSome = true

end Announced

/-- What the protocol of a stream admits after what was announced. -/
def Admits (last : Option Announced) : SubscriptionEvent → Prop
  | .fromWire (.activated _ fields command) =>
    ∀ c ∈ command, (0 < c.key ∧ c.key ≤ fields) ∧ 0 < c.command ∧ c.command ≤ fields
  | .fromWire (.update update) => ∃ a ∈ last, a.Shows update
  | .fromWire (.endOfSnapshot itemIndex) | .fromWire (.snapshotCleared itemIndex)
  | .fromWire (.overflow itemIndex _) => ∃ a ∈ last, a.Names itemIndex
  | _ => True

/-- Each of the events is one that the protocol admits after those before it. -/
def InProtocol (events : List SubscriptionEvent) : Prop :=
  ∀ before event after, before ++ event :: after = events → Admits (announcedBy before) event

/-! ## The managers -/

/-- An activated manager is as announced, and an item that was not updated since has no value. -/
structure Announced.Holds (a : Announced) (active : Active) : Prop where
  items : active.items.length = a.items
  fieldCount : active.schema.fields.length = a.fields
  states : ∀ tracker ∈ active.items, tracker.state.fieldCount = a.fields
  positions : ∃ positions : Option (ℕ × ℕ), (∀ p ∈ positions, p.1 < a.fields ∧ p.2 < a.fields) ∧
    a.command = positions.map (fun p => ⟨p.1 + 1, p.2 + 1⟩) ∧
    active.schema.keyField = positions.map Prod.fst ∧
    active.schema.commandField = positions.map Prod.snd
  unset : ∀ index tracker, active.items[index]? = some tracker → index + 1 ∉ a.updated →
    ∀ slot ∈ tracker.state.fields, slot = .unset

/-- A manager that is activated is as announced. -/
def Announces (last : Option Announced) (m : SubscriptionManager) : Prop :=
  ∀ active, m.activation = .active active → ∃ a ∈ last, a.Holds active

namespace Announced.Holds

variable {a : Announced} {active : Active}

/-- An activation. -/
theorem new (items fields : ℕ) {positions : Option (ℕ × ℕ)}
    (declaredItems declaredFields : List String)
    (hpositions : ∀ p ∈ positions, p.1 < fields ∧ p.2 < fields) :
    Announced.Holds ⟨items, fields, positions.map fun p => ⟨p.1 + 1, p.2 + 1⟩, []⟩
      ⟨.new items fields declaredItems declaredFields positions,
        List.replicate items (.new fields)⟩ where
  items := List.length_replicate
  fieldCount := SubscriptionSchema.length_namePositions fields declaredFields
  states := fun tracker htracker => by
    rw [List.eq_of_mem_replicate htracker]
    exact List.length_replicate
  positions := ⟨positions, hpositions, rfl, rfl, rfl⟩
  unset := fun index tracker htracker _ slot hslot => by
    rw [List.eq_of_mem_replicate (List.mem_of_getElem? htracker)] at hslot
    exact List.eq_of_mem_replicate hslot

/-- An update that is accepted shows what was announced. -/
theorem shows (h : a.Holds active) {index : ℕ} {tracker : ItemTracker} {state : ItemState}
    {outcome : UpdateOutcome} {raw : String} (kind : UpdateKind)
    (htracker : active.items[index]? = some tracker)
    (happly : tracker.state.apply raw = .ok (state, outcome)) :
    a.Shows ⟨active.schema, index, kind, state.values, outcome.changed⟩ := by
  have hcount : state.fieldCount = a.fields := by
    rw [← h.states tracker (List.mem_of_getElem? htracker)]
    exact (applies_of_apply happly).length
  have hfield : ∀ i < a.fields,
      ((⟨active.schema, index, kind, state.values, outcome.changed⟩ : ItemUpdate).field
        (i + 1)).isSome = true := fun i hi => by
    have hlt : i < state.values.length := by rwa [length_values, hcount]
    simp [ItemUpdate.field, List.getElem?_eq_getElem hlt]
  obtain ⟨positions, hpositions, hannounced, hkey, hcommand⟩ := h.positions
  refine ⟨?_, h.fieldCount, ?_, ?_, fun hfirst => ?_, ?_, ?_, ?_, fun hkeyed => ?_⟩
  · have hlt : index < active.items.length := (List.getElem?_eq_some_iff.1 htracker).1
    exact ⟨Nat.succ_pos index, h.items ▸ hlt⟩
  · simp [ItemUpdate.fields, length_values, hcount, Field.position]
  · rw [ItemUpdate.changedFields, ItemUpdate.fields, length_values]
    exact (changed_sublist happly).map _
  · rw [ItemUpdate.changedFields, ItemUpdate.fields, length_values]
    dsimp only
    rw [changed_of_unset happly (h.unset index tracker htracker hfirst)]
  · rw [ItemUpdate.isCommandMode, SubscriptionSchema.isCommandMode, hkey, hcommand, hannounced]
    cases positions <;> rfl
  · rw [ItemUpdate.key, hkey, hannounced]
    cases positions <;> rfl
  · rw [ItemUpdate.command, hcommand, hannounced]
    cases positions <;> rfl
  · rw [ItemUpdate.key, hkey]
    rw [hannounced] at hkeyed
    cases positions with
    | none => cases hkeyed
    | some p => exact hfield p.1 (hpositions p rfl).1

/-- An update leaves the shape, and its item is updated. -/
theorem update (h : a.Holds active) {index : ℕ} {tracker : ItemTracker} {state : ItemState}
    {outcome : UpdateOutcome} {raw : String} (htracker : active.items[index]? = some tracker)
    (happly : tracker.state.apply raw = .ok (state, outcome)) :
    Announced.Holds { a with updated := (index + 1) :: a.updated } ⟨active.schema,
      active.items.set index { tracker with state := state, seenUpdate := true }⟩ where
  items := List.length_set.trans h.items
  fieldCount := h.fieldCount
  states := fun tracker' htracker' => by
    rcases List.mem_or_eq_of_mem_set htracker' with hmem | rfl
    · exact h.states tracker' hmem
    · rw [← h.states tracker (List.mem_of_getElem? htracker)]
      exact (applies_of_apply happly).length
  positions := h.positions
  unset := fun j tracker' htracker' hj => by
    rw [List.mem_cons, not_or] at hj
    have hne : index ≠ j := fun heq => hj.1 (heq ▸ rfl)
    rw [List.getElem?_set_ne hne] at htracker'
    exact h.unset j tracker' htracker' hj.2

end Announced.Holds

/-- The end of a snapshot changes no value. -/
theorem Announces.markEndOfSnapshot {last : Option Announced} {m : SubscriptionManager}
    (h : Announces last m) {active : Active} (hactive : m.activation = .active active) (index : ℕ) :
    Announces last (m.markEndOfSnapshot index) := by
  obtain ⟨a, ha, hholds⟩ := h active hactive
  rw [SubscriptionManager.markEndOfSnapshot_of_active hactive]
  intro active' hactive'
  cases Activation.active.inj hactive'
  have hsame : ∀ (j : ℕ) (tracker' : ItemTracker), (active.items.modify index fun tracker =>
      { tracker with endOfSnapshot := true })[j]? = some tracker' →
      ∃ tracker : ItemTracker, active.items[j]? = some tracker ∧
        tracker'.state = tracker.state := by
    intro j tracker' htracker'
    rw [List.getElem?_modify] at htracker'
    obtain ⟨tracker, htracker, rfl⟩ := Option.map_eq_some_iff.1 htracker'
    refine ⟨tracker, htracker, ?_⟩
    split_ifs <;> rfl
  refine ⟨a, ha, (List.length_modify ..).trans hholds.items, hholds.fieldCount,
    fun tracker' htracker' => ?_, hholds.positions, fun j tracker' htracker' hj => ?_⟩
  · obtain ⟨j, hj⟩ := List.getElem?_of_mem htracker'
    obtain ⟨tracker, htracker, hstate⟩ := hsame j tracker' hj
    rw [hstate]
    exact hholds.states tracker (List.mem_of_getElem? htracker)
  · obtain ⟨tracker, htracker, hstate⟩ := hsame j tracker' htracker'
    rw [hstate]
    exact hholds.unset j tracker htracker hj

/-! ## Streams -/

theorem announcedBy_concat (events : List SubscriptionEvent) (event : SubscriptionEvent) :
    announcedBy (events ++ [event]) = announce (announcedBy events) event := by
  rw [announcedBy, List.foldl_append]
  rfl

namespace InProtocol

variable {events events' : List SubscriptionEvent} {event : SubscriptionEvent}

theorem nil : InProtocol [] := fun before event after h => by simp at h

theorem concat (h : InProtocol events) (hevent : Admits (announcedBy events) event) :
    InProtocol (events ++ [event]) := by
  intro before e after heq
  rcases List.eq_nil_or_concat after with rfl | ⟨after, last, rfl⟩
  · obtain ⟨rfl, hlast⟩ := List.append_inj' heq rfl
    cases hlast
    exact hevent
  · rw [List.concat_eq_append, ← List.cons_append, ← List.append_assoc] at heq
    exact h before e after (List.append_inj' heq rfl).1

theorem of_initial (h : InProtocol events) (hinitial : events' <+: events) :
    InProtocol events' := by
  obtain ⟨rest, rfl⟩ := hinitial
  intro before event after heq
  exact h before event (after ++ rest) (by rw [← heq, List.append_assoc, List.cons_append])

end InProtocol

/-- What a manager accepts is in the protocol, and keeps it as announced. -/
theorem inProtocol_follows :
    Follows InProtocol fun events m => Announces (announcedBy events) m where
  start := .nil
  fresh hpending := fun active hactive => by cases hpending.symm.trans hactive
  aside := by
    intro events event hevent h
    have hsame : announce (announcedBy events) event = announcedBy events := by
      cases event with
      | fromWire => cases hevent
      | _ => rfl
    refine ⟨h.concat ?_, fun hm => ?_⟩
    · cases event with
      | fromWire => cases hevent
      | _ => trivial
    · rwa [announcedBy_concat, hsame]
  accepted := by
    intro events m m' event h hm haccepted
    rw [announcedBy_concat]
    cases haccepted with
    | activated items fields positions hpositions =>
      refine ⟨h.concat fun c hc => ?_, fun active hactive => ?_⟩
      · obtain ⟨p, hp, rfl⟩ := Option.map_eq_some_iff.1 hc
        obtain ⟨hkey, hcommand⟩ := hpositions p hp
        exact ⟨⟨Nat.succ_pos _, hkey⟩, Nat.succ_pos _, hcommand⟩
      · cases Activation.active.inj hactive
        exact ⟨_, rfl, .new items fields _ _ hpositions⟩
    | update kind hactive htracker happly =>
      obtain ⟨a, ha, hholds⟩ := hm _ hactive
      refine ⟨h.concat ⟨a, ha, hholds.shows kind htracker happly⟩, fun active' hactive' => ?_⟩
      cases Activation.active.inj hactive'
      rw [Option.mem_def.1 ha]
      exact ⟨_, rfl, hholds.update htracker happly⟩
    | endOfSnapshot hactive hlt =>
      obtain ⟨a, ha, hholds⟩ := hm _ hactive
      exact ⟨h.concat ⟨a, ha, Nat.succ_pos _, hholds.items ▸ hlt⟩, hm.markEndOfSnapshot hactive _⟩
    | snapshotCleared hactive hlt | overflow _ hactive hlt =>
      obtain ⟨a, ha, hholds⟩ := hm _ hactive
      exact ⟨h.concat ⟨a, ha, Nat.succ_pos _, hholds.items ▸ hlt⟩, hm⟩
    | reconfigured => exact ⟨h.concat trivial, hm⟩
    | unsubscribed => exact ⟨h.concat trivial, fun active hactive => by cases hactive⟩
  ofInitial hinitial h := h.of_initial hinitial

namespace Tasks

variable {key : SubscriptionKey} {w : Tasks} {properties : TransportProperties}
  {options : SessionOptions} {seed : UInt64} {now capacity : ℕ} {moves : List Move}

/-- **Every stream keeps to its protocol**, in every run of a client: an event about items comes
after an activation and names items of its range, an update shows the fields that were announced and
the key and the command at the positions that were, and the first update of an item since the
activation brings all of its fields. -/
theorem inProtocol (hrun : exec step (start properties options seed now capacity) moves = some w)
    {c : Channel SubscriptionEvent} (hstream : w.router.streams.get? key = some c) :
    InProtocol c.events :=
  stream_follows inProtocol_follows hrun hstream

/-- A subscription in `COMMAND` mode: a line that comes too early, the activation, a line that is
not complete, a row, its update and its end. -/
def commanded : List Move :=
  connects ++ asking ++ [.turn ⟨.line "U,1,1,a|ADD|1", {}⟩,
    .turn ⟨.line "SUBCMD,1,1,3,1,2", {}⟩, .turn ⟨.line "U,1,1,||1", {}⟩,
    .turn ⟨.line "U,1,1,a|ADD|1", {}⟩, .turn ⟨.line "U,1,1,|UPDATE|2", {}⟩,
    .turn ⟨.line "EOS,1,1", {}⟩, .turn ⟨.line "U,1,1,|DELETE|#", {}⟩] ++
    List.replicate 7 (.route false)

theorem inProtocol_commanded :
    ∃ w c, exec step (start ⟨true, false, false⟩ .default 1 0 8) commanded = some w ∧
      w.router.streams.get? 1 = some c ∧ InProtocol c.events := by
  have hsome : ((exec step (start ⟨true, false, false⟩ .default 1 0 8) commanded).bind fun w =>
      w.router.streams.get? 1).isSome = true := by decide +kernel
  obtain ⟨c, hc⟩ := Option.isSome_iff_exists.1 hsome
  obtain ⟨w, hrun, hstream⟩ := Option.bind_eq_some_iff.1 hc
  exact ⟨w, c, hrun, hstream, inProtocol hrun hstream⟩

end Tasks

end Lightstreamer.Client
