import Lightstreamer.Subscription.Manager

/-!
# Snapshot or real time, over whole runs

A manager is given any notifications in any order. Some it refuses, and then it stays what it was
(`handle_eq_of_error`). Of those it accepts, the ones since the last activation are what the
classification of an update depends on: `sinceActivation` keeps them, and `Tracks` says that the two
flags of every item are read off them. From one step of that (`Tracks.handle`) follows what every
run satisfies (`tracks_handleAll`), and with it the table of the protocol (`classification_of_run`).
-/

namespace Lightstreamer.Subscription

open Lightstreamer.Protocol

/-! ## What was accepted -/

/-- An update of one item. Item indices are 1-based. -/
def isUpdateOf (item : ℕ) : Notification → Bool
  | .update _ itemIndex _ => itemIndex = item
  | _ => false

/-- The end of the snapshot of one item. -/
def isEndOfSnapshotOf (item : ℕ) : Notification → Bool
  | .endOfSnapshot _ itemIndex => itemIndex = item
  | _ => false

/-- A notification that only an activated subscription may be sent. -/
def needsActivation : Notification → Bool
  | .update .. | .endOfSnapshot .. | .clearSnapshot .. | .overflow .. => true
  | _ => false

/-- Whether a notification meant something to the caller. -/
def isAccepted : Option SubscriptionOutcome → Bool
  | some (.ok _) => true
  | _ => false

/-- What was accepted since the activation that is in force, one more notification on. -/
def advance (past : Option (List Notification)) : Notification → Option (List Notification)
  | .subscriptionOk .. => some []
  | .subscriptionCommandOk .. => some []
  | .unsubscribed _ => none
  | n => past.map (· ++ [n])

/-- Of some accepted notifications, those since the activation that is in force, if one is. -/
def sinceActivation (log : List Notification) : Option (List Notification) :=
  log.foldl advance none

/-- The table of the protocol: an update of the item is part of a snapshot, after what was accepted
since the activation. -/
def IsSnapshot (snapshotRequested : Bool) (mode : SubscriptionMode) (item : ℕ)
    (since : List Notification) : Prop :=
  snapshotRequested = true ∧
    match mode with
    | .raw => False
    | .merge => ∀ n ∈ since, isUpdateOf item n = false
    | .distinct => ∀ n ∈ since, isEndOfSnapshotOf item n = false
    | .command => ∀ n ∈ since, isEndOfSnapshotOf item n = false

namespace SubscriptionManager

variable {m : SubscriptionManager}

/-- The manager after some notifications. -/
def handleAll (m : SubscriptionManager) (ns : List Notification) : SubscriptionManager :=
  ns.foldl (fun m n => (m.handle n).2) m

/-- The notifications that a manager accepts, of those it is given. -/
def accepted (m : SubscriptionManager) : List Notification → List Notification
  | [] => []
  | n :: ns =>
    if isAccepted (m.handle n).1 then n :: accepted (m.handle n).2 ns
    else accepted (m.handle n).2 ns

/-! ## One notification -/

theorem itemPosition_eq_ok {itemCount itemIndex index : ℕ} {tag : String}
    (h : Subscription.itemPosition itemCount tag itemIndex = .ok index) :
    index + 1 = itemIndex ∧ index < itemCount := by
  unfold Subscription.itemPosition at h
  split_ifs at h with hbad
  cases h
  omega

/-- An update is refused, or it changes the tracker of its item. -/
theorem applyUpdate_cases (m : SubscriptionManager) (itemIndex : ℕ) (rawValues : String) :
    (∃ e, m.applyUpdate itemIndex rawValues = (.error e, m)) ∨
    ∃ active index tracker state outcome, m.activation = .active active ∧ index + 1 = itemIndex ∧
      active.items[index]? = some tracker ∧ tracker.state.apply rawValues = .ok (state, outcome) ∧
      m.applyUpdate itemIndex rawValues =
        (.ok (.update ⟨active.schema, index,
            classifyUpdate m.snapshotRequested m.mode tracker.endOfSnapshot (!tracker.seenUpdate),
            (List.range state.fieldCount).map fun position => (state.field position).join,
            outcome.changed⟩),
          { m with activation := .active ⟨active.schema,
              active.items.set index { tracker with state := state, seenUpdate := true }⟩ }) := by
  unfold applyUpdate
  split
  · exact .inl ⟨_, rfl⟩
  · exact .inl ⟨_, rfl⟩
  · next active hactive =>
    split
    · exact .inl ⟨_, rfl⟩
    next index hindex =>
    split
    · exact .inl ⟨_, rfl⟩
    next tracker htracker =>
    dsimp only
    split
    · exact .inl ⟨_, rfl⟩
    next state outcome happly =>
    exact .inr ⟨active, index, tracker, state, outcome, hactive, (itemPosition_eq_ok hindex).1,
      htracker, happly, rfl⟩

theorem activate_cases (m : SubscriptionManager) (items fields : ℕ)
    (commandFields : Option (ℕ × ℕ)) :
    (∃ e, m.activate items fields commandFields = (.error e, m)) ∨
    ∃ event schema, m.activate items fields commandFields = (.ok event,
      { m with activation := .active ⟨schema, List.replicate items (.new fields)⟩ }) := by
  unfold activate
  dsimp only
  split
  · exact .inl ⟨_, rfl⟩
  · exact .inr ⟨_, _, rfl⟩

/-- A notification that is refused leaves the manager as it was. -/
theorem handle_eq_of_error {n : Notification} {e : SubscriptionError}
    (h : (m.handle n).1 = some (.error e)) : (m.handle n).2 = m := by
  cases n with
  | subscriptionOk _ itemCount fieldCount =>
    rcases m.activate_cases itemCount fieldCount none with ⟨e', he⟩ | ⟨event, schema, he⟩
    · rw [handle, he]
      rfl
    · rw [handle, he] at h
      cases h
  | subscriptionCommandOk _ itemCount fieldCount key command =>
    rcases m.activate_cases itemCount fieldCount (some (key, command)) with
      ⟨e', he⟩ | ⟨event, schema, he⟩
    · rw [handle, he]
      rfl
    · rw [handle, he] at h
      cases h
  | update _ itemIndex rawValues =>
    rcases m.applyUpdate_cases itemIndex rawValues with ⟨e', he⟩ | ⟨_, _, _, _, _, _, _, _, _, he⟩
    · rw [handle, he]
      rfl
    · rw [handle, he] at h
      cases h
  | endOfSnapshot _ itemIndex =>
    rw [handle] at h ⊢
    split at h
    · rfl
    · cases h
  | subscriptionReconfigured =>
    rw [handle]
    split <;> rfl
  | unsubscribed => cases h
  | _ => rfl

/-! ## What the flags say -/

/-- The flags of every item are read off what was accepted since the activation. -/
def Tracks (m : SubscriptionManager) : Option (List Notification) → Prop
  | none => ∀ active, m.activation ≠ .active active
  | some since => ∃ active, m.activation = .active active ∧
      ∀ index tracker, active.items[index]? = some tracker →
        tracker.seenUpdate = since.any (isUpdateOf (index + 1)) ∧
        tracker.endOfSnapshot = since.any (isEndOfSnapshotOf (index + 1))

theorem tracks_replicate (m : SubscriptionManager) (schema : SubscriptionSchema)
    (items fields : ℕ) :
    Tracks { m with activation := .active ⟨schema, List.replicate items (.new fields)⟩ }
      (some []) := by
  refine ⟨_, rfl, fun index tracker htracker => ?_⟩
  rw [List.eq_of_mem_replicate (List.mem_of_getElem? htracker)]
  exact ⟨rfl, rfl⟩

namespace Tracks

variable {past : Option (List Notification)}

/-- A notification that is neither an update nor the end of a snapshot does not show. -/
theorem concat (h : Tracks m past) {n : Notification} (hupdate : ∀ item, isUpdateOf item n = false)
    (heos : ∀ item, isEndOfSnapshotOf item n = false) : Tracks m (past.map (· ++ [n])) := by
  cases past with
  | none => exact h
  | some since =>
    obtain ⟨active, hactive, hitems⟩ := h
    refine ⟨active, hactive, fun index tracker htracker => ?_⟩
    obtain ⟨hseen, hend⟩ := hitems index tracker htracker
    simp only [List.any_append, List.any_cons, List.any_nil, hupdate, heos, Bool.or_false]
    exact ⟨hseen, hend⟩

/-- The item of an update has seen one. -/
theorem update {since : List Notification} (h : Tracks m (some since)) {active : Active}
    (hactive : m.activation = .active active) {index : ℕ} {tracker : ItemTracker}
    (htracker : active.items[index]? = some tracker) (state : ItemState) (subscriptionId : ℕ)
    (rawValues : String) :
    Tracks { m with activation := .active ⟨active.schema,
        active.items.set index { tracker with state := state, seenUpdate := true }⟩ }
      (some (since ++ [.update subscriptionId (index + 1) rawValues])) := by
  obtain ⟨active', hactive', hitems⟩ := h
  cases hactive.symm.trans hactive'
  refine ⟨_, rfl, fun i t ht => ?_⟩
  simp only [List.any_append, List.any_cons, List.any_nil, Bool.or_false, isUpdateOf,
    isEndOfSnapshotOf]
  rw [List.getElem?_set] at ht
  split_ifs at ht with hi hlt
  · cases ht
    subst hi
    rw [decide_eq_true rfl, Bool.or_true]
    exact ⟨rfl, (hitems index tracker htracker).2⟩
  · rw [decide_eq_false (by omega), Bool.or_false]
    exact hitems i t ht

/-- The item whose snapshot ended knows it. -/
theorem markEndOfSnapshot (h : Tracks m past) (subscriptionId index : ℕ) :
    Tracks (m.markEndOfSnapshot index)
      (past.map (· ++ [.endOfSnapshot subscriptionId (index + 1)])) := by
  cases past with
  | none =>
    rw [SubscriptionManager.markEndOfSnapshot]
    split
    · next active hactive => exact absurd hactive (h active)
    · exact h
  | some since =>
    obtain ⟨active, hactive, hitems⟩ := h
    rw [SubscriptionManager.markEndOfSnapshot, hactive]
    refine ⟨_, rfl, fun i t ht => ?_⟩
    simp only [List.any_append, List.any_cons, List.any_nil, Bool.or_false, isUpdateOf,
      isEndOfSnapshotOf]
    rw [List.getElem?_modify] at ht
    obtain ⟨tracker, htracker, rfl⟩ := Option.map_eq_some_iff.mp ht
    obtain ⟨hseen, hend⟩ := hitems i tracker htracker
    by_cases hi : index = i
    · subst hi
      rw [if_pos rfl, decide_eq_true rfl, Bool.or_true]
      exact ⟨hseen, rfl⟩
    · rw [if_neg hi, decide_eq_false (by omega), Bool.or_false]
      exact ⟨hseen, hend⟩

/-- One notification: what was accepted goes on the record, what was refused does not. -/
theorem handle (h : Tracks m past) (n : Notification) :
    Tracks (m.handle n).2 (if isAccepted (m.handle n).1 then advance past n else past) := by
  cases n with
  | subscriptionOk _ itemCount fieldCount =>
    rw [SubscriptionManager.handle]
    rcases m.activate_cases itemCount fieldCount none with ⟨e, he⟩ | ⟨event, schema, he⟩
    · rw [he]
      exact h
    · rw [he]
      exact tracks_replicate m schema itemCount fieldCount
  | subscriptionCommandOk _ itemCount fieldCount key command =>
    rw [SubscriptionManager.handle]
    rcases m.activate_cases itemCount fieldCount (some (key, command)) with
      ⟨e, he⟩ | ⟨event, schema, he⟩
    · rw [he]
      exact h
    · rw [he]
      exact tracks_replicate m schema itemCount fieldCount
  | update id itemIndex rawValues =>
    rw [SubscriptionManager.handle]
    rcases m.applyUpdate_cases itemIndex rawValues with
      ⟨e, he⟩ | ⟨active, index, tracker, state, outcome, hactive, rfl, htracker, -, he⟩
    · rw [he]
      exact h
    · rw [he]
      cases past with
      | none => exact absurd hactive (h active)
      | some since => exact h.update hactive htracker state id rawValues
  | endOfSnapshot id itemIndex =>
    rw [SubscriptionManager.handle]
    split
    · exact h
    · next index hindex =>
      have hitem : index + 1 = itemIndex := by
        rw [SubscriptionManager.itemPosition] at hindex
        split at hindex
        · exact (itemPosition_eq_ok hindex).1
        · cases hindex
        · cases hindex
      subst hitem
      exact h.markEndOfSnapshot id index
  | clearSnapshot id itemIndex =>
    rw [SubscriptionManager.handle]
    cases m.itemPosition "CS" itemIndex with
    | error e => exact h
    | ok index => exact h.concat (n := .clearSnapshot id itemIndex) (fun _ => rfl) fun _ => rfl
  | overflow id itemIndex dropped =>
    rw [SubscriptionManager.handle]
    cases m.itemPosition "OV" itemIndex with
    | error e => exact h
    | ok index => exact h.concat (n := .overflow id itemIndex dropped) (fun _ => rfl) fun _ => rfl
  | subscriptionReconfigured =>
    rw [SubscriptionManager.handle]
    split
    · exact h
    · exact h.concat (fun _ => rfl) fun _ => rfl
  | unsubscribed => exact fun active => Activation.noConfusion
  | _ => exact h

end Tracks

/-- Along a run, the flags are read off the record of what was accepted. -/
theorem tracks_handleAll {past : Option (List Notification)} (h : Tracks m past)
    (ns : List Notification) : Tracks (m.handleAll ns) ((m.accepted ns).foldl advance past) := by
  induction ns generalizing m past with
  | nil => exact h
  | cons n ns ih =>
    have hstep := h.handle n
    rw [accepted]
    split_ifs at hstep ⊢ with hn
    · exact ih hstep
    · exact ih hstep

theorem handle_mode (m : SubscriptionManager) (n : Notification) :
    (m.handle n).2.mode = m.mode ∧ (m.handle n).2.snapshotRequested = m.snapshotRequested := by
  cases n with
  | subscriptionOk _ itemCount fieldCount =>
    rw [handle]
    rcases m.activate_cases itemCount fieldCount none with ⟨e, he⟩ | ⟨event, schema, he⟩ <;>
      rw [he] <;> exact ⟨rfl, rfl⟩
  | subscriptionCommandOk _ itemCount fieldCount key command =>
    rw [handle]
    rcases m.activate_cases itemCount fieldCount (some (key, command)) with
      ⟨e, he⟩ | ⟨event, schema, he⟩ <;> rw [he] <;> exact ⟨rfl, rfl⟩
  | update _ itemIndex rawValues =>
    rw [handle]
    rcases m.applyUpdate_cases itemIndex rawValues with
      ⟨e, he⟩ | ⟨_, _, _, _, _, _, _, _, _, he⟩ <;> rw [he] <;> exact ⟨rfl, rfl⟩
  | endOfSnapshot =>
    rw [handle]
    split
    · exact ⟨rfl, rfl⟩
    · rw [SubscriptionManager.markEndOfSnapshot]
      split <;> exact ⟨rfl, rfl⟩
  | subscriptionReconfigured =>
    rw [handle]
    split <;> exact ⟨rfl, rfl⟩
  | _ => exact ⟨rfl, rfl⟩

theorem handleAll_mode (m : SubscriptionManager) (ns : List Notification) :
    (m.handleAll ns).mode = m.mode ∧ (m.handleAll ns).snapshotRequested = m.snapshotRequested := by
  induction ns generalizing m with
  | nil => exact ⟨rfl, rfl⟩
  | cons n ns ih =>
    obtain ⟨hmode, hrequested⟩ := m.handle_mode n
    obtain ⟨hmode', hrequested'⟩ := ih (m.handle n).2
    exact ⟨hmode'.trans hmode, hrequested'.trans hrequested⟩

/-! ## One item apart from the others -/

theorem markEndOfSnapshot_of_active {active : Active} (h : m.activation = .active active)
    (index : ℕ) :
    m.markEndOfSnapshot index = { m with activation := .active ⟨active.schema,
      active.items.modify index fun tracker => { tracker with endOfSnapshot := true }⟩ } := by
  rw [markEndOfSnapshot, h]

theorem markEndOfSnapshot_of_not_active (h : ∀ active, m.activation ≠ .active active)
    (index : ℕ) : m.markEndOfSnapshot index = m := by
  rw [markEndOfSnapshot]
  split
  · next active hactive => exact absurd hactive (h active)
  · rfl

theorem itemPosition_markEndOfSnapshot (m : SubscriptionManager) (index : ℕ) (tag : String)
    (itemIndex : ℕ) :
    (m.markEndOfSnapshot index).itemPosition tag itemIndex = m.itemPosition tag itemIndex := by
  rw [markEndOfSnapshot]
  split
  · next active hactive =>
    dsimp only [itemPosition]
    rw [hactive, List.length_modify]
  · rfl

/-- The ends of two snapshots may come in either order. -/
theorem markEndOfSnapshot_comm (m : SubscriptionManager) (i j : ℕ) :
    (m.markEndOfSnapshot i).markEndOfSnapshot j = (m.markEndOfSnapshot j).markEndOfSnapshot i := by
  by_cases h : ∃ active, m.activation = .active active
  · obtain ⟨active, h⟩ := h
    rw [markEndOfSnapshot_of_active h, markEndOfSnapshot_of_active h,
      markEndOfSnapshot_of_active rfl, markEndOfSnapshot_of_active rfl]
    congr 3
    apply List.ext_getElem?
    intro k
    simp only [List.getElem?_modify, Option.map_eq_map, Option.map_map]
    congr 1
    funext tracker
    dsimp only [Function.comp_apply]
    split_ifs <;> rfl
  · have h := not_exists.mp h
    rw [markEndOfSnapshot_of_not_active h, markEndOfSnapshot_of_not_active h,
      markEndOfSnapshot_of_not_active h]

theorem activate_markEndOfSnapshot {active : Active} (h : m.activation = .active active)
    (index items fields : ℕ) (commandFields : Option (ℕ × ℕ)) :
    ((m.markEndOfSnapshot index).activate items fields commandFields).1 =
      (m.activate items fields commandFields).1 ∧
    (((m.markEndOfSnapshot index).activate items fields commandFields).2 =
        (m.activate items fields commandFields).2 ∨
      ((m.markEndOfSnapshot index).activate items fields commandFields).2 =
        (m.activate items fields commandFields).2.markEndOfSnapshot index) := by
  rw [markEndOfSnapshot_of_active h]
  unfold activate
  dsimp only
  split
  · exact ⟨rfl, .inr (markEndOfSnapshot_of_active h index).symm⟩
  · exact ⟨rfl, .inl rfl⟩

theorem set_modify {α : Type*} (l : List α) (i j : ℕ) (f : α → α) (a : α) :
    (l.modify i f).set j (if i = j then f a else a) = (l.set j a).modify i f := by
  apply List.ext_getElem?
  intro k
  rw [List.getElem?_set, List.getElem?_modify, List.getElem?_modify, List.getElem?_set,
    List.length_modify]
  by_cases hj : j = k
  · subst hj
    by_cases hk : j < l.length
    · simp only [if_pos hk, if_true, Option.map_eq_map, Option.map_some]
    · simp only [if_neg hk, if_true, Option.map_eq_map, Option.map_none]
  · simp only [if_neg hj]

/-- An update of one item after the end of the snapshot of another, or of the same. -/
theorem applyUpdate_markEndOfSnapshot {active : Active} (h : m.activation = .active active)
    (index itemIndex : ℕ) (rawValues : String) :
    (itemIndex ≠ index + 1 → ((m.markEndOfSnapshot index).applyUpdate itemIndex rawValues).1 =
      (m.applyUpdate itemIndex rawValues).1) ∧
    ((m.markEndOfSnapshot index).applyUpdate itemIndex rawValues).2 =
      (m.applyUpdate itemIndex rawValues).2.markEndOfSnapshot index := by
  rw [markEndOfSnapshot_of_active h]
  unfold applyUpdate
  rw [h]
  dsimp only
  rw [List.length_modify]
  cases hposition : Subscription.itemPosition active.items.length "U" itemIndex with
  | error e => exact ⟨fun _ => rfl, (markEndOfSnapshot_of_active h index).symm⟩
  | ok p =>
    obtain ⟨rfl, -⟩ := itemPosition_eq_ok hposition
    dsimp only
    rw [List.getElem?_modify]
    cases htracker : active.items[p]? with
    | none => exact ⟨fun _ => rfl, (markEndOfSnapshot_of_active h index).symm⟩
    | some tracker =>
      simp only [Option.map_eq_map, Option.map_some]
      by_cases hp : index = p
      · subst hp
        rw [if_pos rfl]
        cases happly : tracker.state.apply rawValues with
        | error e => exact ⟨fun _ => rfl, (markEndOfSnapshot_of_active h index).symm⟩
        | ok decoded =>
          refine ⟨fun hne => absurd rfl hne, ?_⟩
          rw [markEndOfSnapshot_of_active rfl]
          have hset := set_modify active.items index index
            (fun tracker => { tracker with endOfSnapshot := true })
            { tracker with state := decoded.1, seenUpdate := true }
          rw [if_pos rfl] at hset
          rw [← hset]
      · rw [if_neg hp]
        cases happly : tracker.state.apply rawValues with
        | error e => exact ⟨fun _ => rfl, (markEndOfSnapshot_of_active h index).symm⟩
        | ok decoded =>
          refine ⟨fun _ => rfl, ?_⟩
          rw [markEndOfSnapshot_of_active rfl]
          have hset := set_modify active.items index p
            (fun tracker => { tracker with endOfSnapshot := true })
            { tracker with state := decoded.1, seenUpdate := true }
          rw [if_neg hp] at hset
          dsimp only
          rw [← hset]

/-- Whether the snapshot of an item has ended shows in no outcome but that of its updates, and it
stays the only difference, if it stays one. -/
theorem handle_markEndOfSnapshot (m : SubscriptionManager) (index : ℕ) (n : Notification) :
    (isUpdateOf (index + 1) n = false →
      ((m.markEndOfSnapshot index).handle n).1 = (m.handle n).1) ∧
    (((m.markEndOfSnapshot index).handle n).2 = (m.handle n).2 ∨
      ((m.markEndOfSnapshot index).handle n).2 = (m.handle n).2.markEndOfSnapshot index) := by
  by_cases h : ∃ active, m.activation = .active active
  · obtain ⟨active, h⟩ := h
    cases n with
    | subscriptionOk _ itemCount fieldCount =>
      obtain ⟨houtcome, hstate⟩ := activate_markEndOfSnapshot h index itemCount fieldCount none
      exact ⟨fun _ => congrArg some houtcome, hstate⟩
    | subscriptionCommandOk _ itemCount fieldCount key command =>
      obtain ⟨houtcome, hstate⟩ :=
        activate_markEndOfSnapshot h index itemCount fieldCount (some (key, command))
      exact ⟨fun _ => congrArg some houtcome, hstate⟩
    | update _ itemIndex rawValues =>
      obtain ⟨houtcome, hstate⟩ := applyUpdate_markEndOfSnapshot h index itemIndex rawValues
      exact ⟨fun hn => congrArg some (houtcome (of_decide_eq_false hn)), .inr hstate⟩
    | endOfSnapshot _ itemIndex =>
      rw [handle, handle, itemPosition_markEndOfSnapshot]
      cases m.itemPosition "EOS" itemIndex with
      | error e => exact ⟨fun _ => rfl, .inr rfl⟩
      | ok p => exact ⟨fun _ => rfl, .inr (markEndOfSnapshot_comm m index p)⟩
    | clearSnapshot =>
      rw [handle, handle, itemPosition_markEndOfSnapshot]
      exact ⟨fun _ => rfl, .inr rfl⟩
    | overflow =>
      rw [handle, handle, itemPosition_markEndOfSnapshot]
      exact ⟨fun _ => rfl, .inr rfl⟩
    | subscriptionReconfigured =>
      rw [handle, handle, markEndOfSnapshot_of_active h, h]
      exact ⟨fun _ => rfl, .inr (markEndOfSnapshot_of_active h index).symm⟩
    | unsubscribed =>
      rw [markEndOfSnapshot_of_active h]
      exact ⟨fun _ => rfl, .inl rfl⟩
    | _ => exact ⟨fun _ => rfl, .inr rfl⟩
  · rw [markEndOfSnapshot_of_not_active (not_exists.mp h)]
    exact ⟨fun _ => rfl, .inl rfl⟩

/-- The same, along a run. -/
theorem handleAll_markEndOfSnapshot (m : SubscriptionManager) (index : ℕ)
    (ns : List Notification) :
    (m.markEndOfSnapshot index).handleAll ns = m.handleAll ns ∨
      (m.markEndOfSnapshot index).handleAll ns = (m.handleAll ns).markEndOfSnapshot index := by
  induction ns generalizing m with
  | nil => exact .inr rfl
  | cons n ns ih =>
    show handleAll ((m.markEndOfSnapshot index).handle n).2 ns = handleAll (m.handle n).2 ns ∨
      handleAll ((m.markEndOfSnapshot index).handle n).2 ns = _
    rcases (m.handle_markEndOfSnapshot index n).2 with h | h
    · rw [h]
      exact .inl rfl
    · rw [h]
      exact ih (m.handle n).2

/-- What an `EOS` leaves: the mark on its item, or what there was. -/
theorem handle_endOfSnapshot (m : SubscriptionManager) (subscriptionId item : ℕ) :
    (m.handle (.endOfSnapshot subscriptionId item)).2 = m ∨
      ∃ index, index + 1 = item ∧
        (m.handle (.endOfSnapshot subscriptionId item)).2 = m.markEndOfSnapshot index := by
  rw [handle]
  split
  · exact .inl rfl
  · next index hindex =>
    refine .inr ⟨index, ?_, rfl⟩
    rw [itemPosition] at hindex
    split at hindex
    · exact (itemPosition_eq_ok hindex).1
    · cases hindex
    · cases hindex

/-- The end and the clearing of a snapshot show in nothing but the updates of their item. -/
theorem handle_after_marker {item : ℕ} {n : Notification} (m : SubscriptionManager)
    (hn : ∃ id, n = .endOfSnapshot id item ∨ n = .clearSnapshot id item)
    (later : List Notification) {n' : Notification} (hn' : isUpdateOf item n' = false) :
    (((m.handle n).2.handleAll later).handle n').1 = ((m.handleAll later).handle n').1 := by
  obtain ⟨id, rfl | rfl⟩ := hn
  · rcases m.handle_endOfSnapshot id item with h | ⟨index, rfl, h⟩
    · rw [h]
    · rw [h]
      rcases m.handleAll_markEndOfSnapshot index later with hl | hl
      · rw [hl]
      · rw [hl]
        exact ((m.handleAll later).handle_markEndOfSnapshot index n').1 hn'
  · rfl

/-! ## The table -/

theorem classifyUpdate_eq_snapshot_iff (snapshotRequested : Bool) (mode : SubscriptionMode)
    (item : ℕ) (since : List Notification) :
    classifyUpdate snapshotRequested mode (since.any (isEndOfSnapshotOf item))
      (!since.any (isUpdateOf item)) = .snapshot ↔
      IsSnapshot snapshotRequested mode item since := by
  unfold classifyUpdate IsSnapshot
  cases snapshotRequested with
  | false => simp
  | true => cases mode <;> simp

/-- Without an activation in force, what needs one is refused. -/
theorem exists_error_of_not_active (h : ∀ active, m.activation ≠ .active active)
    {n : Notification} (hn : needsActivation n) : ∃ e, (m.handle n).1 = some (.error e) := by
  have hposition : ∀ tag itemIndex, ∃ e, m.itemPosition tag itemIndex = .error e := by
    intro tag itemIndex
    rw [itemPosition]
    split
    · next active hactive => exact absurd hactive (h active)
    · exact ⟨_, rfl⟩
    · exact ⟨_, rfl⟩
  cases n with
  | update _ itemIndex rawValues =>
    rcases m.applyUpdate_cases itemIndex rawValues with ⟨e, he⟩ | ⟨active, _, _, _, _, hactive, -⟩
    · rw [handle, he]
      exact ⟨e, rfl⟩
    · exact absurd hactive (h active)
  | endOfSnapshot _ itemIndex =>
    obtain ⟨e, he⟩ := hposition "EOS" itemIndex
    rw [handle, he]
    exact ⟨e, rfl⟩
  | clearSnapshot _ itemIndex =>
    obtain ⟨e, he⟩ := hposition "CS" itemIndex
    rw [handle, he]
    exact ⟨e, rfl⟩
  | overflow _ itemIndex =>
    obtain ⟨e, he⟩ := hposition "OV" itemIndex
    rw [handle, he]
    exact ⟨e, rfl⟩
  | _ => cases hn

/-- An update that is accepted is classified by the record of its item. -/
theorem Tracks.update_kind {past : Option (List Notification)} (h : Tracks m past)
    {subscriptionId item : ℕ} {rawValues : String} {event : SubscriptionEvent}
    (haccepted : (m.handle (.update subscriptionId item rawValues)).1 = some (.ok event)) :
    ∃ since update, past = some since ∧ event = .update update ∧ update.item + 1 = item ∧
      (update.kind = .snapshot ↔ IsSnapshot m.snapshotRequested m.mode item since) := by
  rw [SubscriptionManager.handle] at haccepted
  rcases m.applyUpdate_cases item rawValues with
    ⟨e, he⟩ | ⟨active, index, tracker, state, outcome, hactive, rfl, htracker, -, he⟩
  · rw [he] at haccepted
    cases haccepted
  · rw [he] at haccepted
    cases haccepted
    cases past with
    | none => exact absurd hactive (h active)
    | some since =>
      obtain ⟨active', hactive', hitems⟩ := h
      cases hactive.symm.trans hactive'
      obtain ⟨hseen, hend⟩ := hitems index tracker htracker
      refine ⟨since, _, rfl, rfl, rfl, ?_⟩
      dsimp only
      rw [hseen, hend]
      exact classifyUpdate_eq_snapshot_iff _ _ _ since

/-- After any notifications: an update that is accepted is part of a snapshot exactly when the table
says so for what was accepted of its item since the activation in force; what is refused changes
nothing; the end and the clearing of a snapshot show in nothing but the updates of their item; and
without an activation in force no update, end, clearing or overflow is accepted. -/
theorem classification_of_run (mode : SubscriptionMode) (snapshotRequested : Bool)
    (declaredItems declaredFields : List String) (ns : List Notification) :
    let start := new mode snapshotRequested declaredItems declaredFields
    let m := start.handleAll ns
    let past := sinceActivation (start.accepted ns)
    (∀ subscriptionId item rawValues event,
      (m.handle (.update subscriptionId item rawValues)).1 = some (.ok event) →
      ∃ since update, past = some since ∧ event = .update update ∧ update.item + 1 = item ∧
        (update.kind = .snapshot ↔ IsSnapshot snapshotRequested mode item since)) ∧
    (∀ n e, (m.handle n).1 = some (.error e) → (m.handle n).2 = m) ∧
    (∀ item n, (∃ id, n = .endOfSnapshot id item ∨ n = .clearSnapshot id item) →
      ∀ later n', isUpdateOf item n' = false →
        (((m.handle n).2.handleAll later).handle n').1 = ((m.handleAll later).handle n').1) ∧
    (past = none → ∀ n, needsActivation n → ∃ e, (m.handle n).1 = some (.error e)) := by
  intro start m past
  have hstart : Tracks start none := fun _ => Activation.noConfusion
  have htracks : Tracks m past := tracks_handleAll hstart ns
  obtain ⟨hmode, hrequested⟩ := start.handleAll_mode ns
  refine ⟨fun subscriptionId item rawValues event h => ?_, fun n e => handle_eq_of_error,
    fun item n hn later n' hn' => m.handle_after_marker hn later hn', fun hpast n hn => ?_⟩
  · obtain ⟨since, update, hpast, hevent, hitem, hkind⟩ := htracks.update_kind h
    rw [hmode, hrequested] at hkind
    exact ⟨since, update, hpast, hevent, hitem, hkind⟩
  · rw [hpast] at htracks
    exact exists_error_of_not_active htracks hn

end SubscriptionManager

end Lightstreamer.Subscription
