import Lightstreamer.Subscription.Classification

/-!
# What an accepted notification does

A notification is of no concern to a subscription, it is refused, or it is accepted. In the first
two cases the manager stays as it was (`handle_of_none`, `handle_eq_of_error`). `Accepted` lists
what the third case comes to: the event, and what the manager becomes (`accepted_of_handle`).
-/

namespace Lightstreamer.Subscription

open Lightstreamer.Protocol

/-- The value of each field of an item, as an update carries them. -/
def ItemState.values (state : ItemState) : List (Option String) :=
  (List.range state.fieldCount).map fun position => (state.field position).join

/-- What accepting a notification does: the event for the caller, and the manager after it. The
items that events name are those of the activation in force. -/
inductive Accepted (m : SubscriptionManager) : SubscriptionEvent → SubscriptionManager → Prop
  | activated (items fields : ℕ) (positions : Option (ℕ × ℕ))
      (inRange : ∀ p ∈ positions, p.1 < fields ∧ p.2 < fields) :
      Accepted m (.activated items fields (positions.map fun p => ⟨p.1 + 1, p.2 + 1⟩))
        { m with
          activation := .active ⟨.new items fields m.declaredItems m.declaredFields positions,
            List.replicate items (.new fields)⟩ }
  | update {active : Active} {index : ℕ} {tracker : ItemTracker} {state : ItemState}
      {outcome : UpdateOutcome} {rawValues : String} (kind : UpdateKind)
      (hactive : m.activation = .active active) (htracker : active.items[index]? = some tracker)
      (happly : tracker.state.apply rawValues = .ok (state, outcome)) :
      Accepted m (.update ⟨active.schema, index, kind, state.values, outcome.changed⟩)
        { m with activation := .active ⟨active.schema,
          active.items.set index { tracker with state := state, seenUpdate := true }⟩ }
  | endOfSnapshot {active : Active} {index : ℕ} (hactive : m.activation = .active active)
      (hlt : index < active.items.length) :
      Accepted m (.endOfSnapshot (index + 1)) (m.markEndOfSnapshot index)
  | snapshotCleared {active : Active} {index : ℕ} (hactive : m.activation = .active active)
      (hlt : index < active.items.length) : Accepted m (.snapshotCleared (index + 1)) m
  | overflow {active : Active} {index : ℕ} (droppedCount : ℕ)
      (hactive : m.activation = .active active) (hlt : index < active.items.length) :
      Accepted m (.overflow (index + 1) droppedCount) m
  | reconfigured (maxFrequency : MaxFrequency) (filtering : FilteringMode) :
      Accepted m (.reconfigured maxFrequency filtering) m
  | unsubscribed : Accepted m .unsubscribed { m with activation := .ended }

namespace SubscriptionManager

variable {m : SubscriptionManager} {n : Notification}

/-- A notification that is of no concern leaves the manager as it was. -/
theorem handle_of_none (h : (m.handle n).1 = none) : (m.handle n).2 = m := by
  cases n with
  | subscriptionOk | subscriptionCommandOk | update | clearSnapshot | overflow | unsubscribed =>
    cases h
  | endOfSnapshot _ itemIndex =>
    rw [handle] at h
    split at h <;> cases h
  | subscriptionReconfigured =>
    rw [handle] at h
    split at h <;> cases h
  | _ => rfl

/-- The item that an `EOS`, a `CS` or an `OV` names is one of the activation in force. -/
theorem lt_of_itemPosition {tag : String} {itemIndex index : ℕ}
    (h : m.itemPosition tag itemIndex = .ok index) :
    ∃ active, m.activation = .active active ∧ index < active.items.length := by
  unfold itemPosition at h
  split at h
  · rename_i active hactive
    exact ⟨active, hactive, (itemPosition_eq_ok h).2⟩
  · cases h
  · cases h

theorem lt_of_commandFieldPosition {role : String} {position fieldCount index : ℕ}
    (h : commandFieldPosition role position fieldCount = .ok index) : index < fieldCount := by
  unfold commandFieldPosition at h
  split_ifs at h with hbad
  cases h
  omega

theorem accepted_of_activate {items fields : ℕ} {commandFields : Option (ℕ × ℕ)}
    {event : SubscriptionEvent} (h : (m.activate items fields commandFields).1 = .ok event) :
    Accepted m event (m.activate items fields commandFields).2 := by
  unfold activate at h ⊢
  dsimp only at h ⊢
  split at h
  · cases h
  · rename_i positions hpositions
    cases h
    refine .activated items fields positions fun p hp => ?_
    cases commandFields with
    | none =>
      cases hpositions
      cases hp
    | some given =>
      obtain ⟨key, command⟩ := given
      obtain ⟨keyIndex, hkey, h⟩ := bind_eq_ok.1 hpositions
      obtain ⟨commandIndex, hcommand, h⟩ := bind_eq_ok.1 h
      cases h
      cases hp
      exact ⟨lt_of_commandFieldPosition hkey, lt_of_commandFieldPosition hcommand⟩

/-- **What is accepted.** -/
theorem accepted_of_handle {event : SubscriptionEvent} (h : (m.handle n).1 = some (.ok event)) :
    Accepted m event (m.handle n).2 := by
  cases n with
  | subscriptionOk _ items fields =>
    have hevent : (m.activate items fields none).1 = .ok event := Option.some.inj h
    exact accepted_of_activate hevent
  | subscriptionCommandOk _ items fields key command =>
    have hevent : (m.activate items fields (some (key, command))).1 = .ok event :=
      Option.some.inj h
    exact accepted_of_activate hevent
  | update _ itemIndex rawValues =>
    obtain ⟨e, he⟩ | ⟨active, index, tracker, state, outcome, hactive, -, htracker, happly, he⟩ :=
      m.applyUpdate_cases itemIndex rawValues
    · rw [handle, he] at h
      cases h
    · rw [handle, he] at h ⊢
      cases h
      exact .update _ hactive htracker happly
  | endOfSnapshot _ itemIndex =>
    rw [handle] at h ⊢
    split at h
    · cases h
    · rename_i index hindex
      cases h
      obtain ⟨active, hactive, hlt⟩ := lt_of_itemPosition hindex
      exact .endOfSnapshot hactive hlt
  | clearSnapshot _ itemIndex =>
    obtain ⟨index, hindex, rfl⟩ := map_eq_ok.1 (Option.some.inj h)
    obtain ⟨active, hactive, hlt⟩ := lt_of_itemPosition hindex
    exact .snapshotCleared hactive hlt
  | overflow _ itemIndex droppedCount =>
    obtain ⟨index, hindex, rfl⟩ := map_eq_ok.1 (Option.some.inj h)
    obtain ⟨active, hactive, hlt⟩ := lt_of_itemPosition hindex
    exact .overflow droppedCount hactive hlt
  | subscriptionReconfigured _ maxFrequency filtering =>
    rw [handle] at h ⊢
    split at h
    · cases h
    · cases h
      exact .reconfigured maxFrequency filtering
  | unsubscribed =>
    cases h
    exact .unsubscribed
  | _ => cases h

end SubscriptionManager

end Lightstreamer.Subscription
