import Lightstreamer.Session.Coherence
import Lightstreamer.Session.Removal

/-!
# Entries and their managers

An entry of the registry that is active is to stand over a manager that accepted an activation since
the session was bound (`SessionDriver.Agreeing`). Two branches can break that: a `SUBCMD` makes an
entry active although its manager refuses it, and the refusal of a `delete` makes an entry active
again by a mark that outlives the session (`active_unactivated`). Unless one of them is taken, every
turn keeps it (`step_agreeing`).
-/

namespace Lightstreamer.Session

open Lightstreamer.Foundations Lightstreamer.Protocol Lightstreamer.Subscription

/-- The manager accepted an activation. -/
def isActivated (m : SubscriptionManager) : Bool := m.activation matches .active _

/-- The key that a request removes. -/
def PendingKind.removal : PendingKind → Option SubscriptionKey
  | .unsubscribe key => some key
  | _ => none

/-- An activation of the key was accepted since the session was bound. -/
def Accepted (key : SubscriptionKey) (trace : List Action) : Prop :=
  ∃ before progressive items fields command b after,
    trace = before ++ .event (.subscription progressive key
      (.ok (.activated items fields command))) b :: after ∧ ∀ a ∈ after, ¬a.BindsFresh

theorem Accepted.of_extends {key : SubscriptionKey} {trace trace' : List Action}
    (h : Accepted key trace) (ht : Extends (fun a => ¬a.BindsFresh) trace trace') :
    Accepted key trace' := by
  obtain ⟨before, progressive, items, fields, command, b, after, rfl, hafter⟩ := h
  obtain ⟨t, rfl, ht⟩ := ht
  refine ⟨before, progressive, items, fields, command, b, after ++ t, by simp, fun a ha => ?_⟩
  rcases List.mem_append.1 ha with ha | ha
  · exact hafter a ha
  · exact ht a ha

theorem accepted_concat (trace : List Action) (progressive : ℕ) (key : SubscriptionKey)
    (items fields : ℕ) (command : Option CommandFields) (b : Bool) :
    Accepted key (trace ++ [.event (.subscription progressive key
      (.ok (.activated items fields command))) b]) :=
  ⟨trace, progressive, items, fields, command, b, [], rfl, fun _ h => by cases h⟩

theorem Action.IsReport.not_bindsFresh {a : Action} (h : a.IsReport) : ¬a.BindsFresh := by
  cases a with
  | event e => cases e <;> first | exact id | cases h
  | _ => exact id

theorem Action.IsLoop.not_bindsFresh {a : Action} (h : a.IsLoop) : ¬a.BindsFresh := by
  cases a with
  | event e => cases e <;> first | exact id | cases h
  | _ => exact id

/-! ## Managers -/

/-- Only an activation and the end of the subscription change whether a manager is activated. -/
theorem isActivated_handle {n : Notification} (hn : confirmed n = none)
    (hunsub : ∀ id, n ≠ .unsubscribed id) (m : SubscriptionManager) :
    isActivated (m.handle n).2 = isActivated m := by
  have hupdate : ∀ item values, isActivated (m.applyUpdate item values).2 = isActivated m := by
    intro item values
    unfold SubscriptionManager.applyUpdate
    split
    · rfl
    · rfl
    · rename_i active hactive
      split
      · rfl
      · split
        · rfl
        · dsimp only
          split
          · rfl
          · unfold isActivated
            rw [hactive]
  cases n with
  | subscriptionOk | subscriptionCommandOk => cases hn
  | unsubscribed id => exact absurd rfl (hunsub id)
  | update id item values => exact hupdate item values
  | endOfSnapshot id item =>
    unfold SubscriptionManager.handle
    dsimp only
    split
    · rfl
    · unfold SubscriptionManager.markEndOfSnapshot
      split
      · rename_i active hactive
        unfold isActivated
        rw [hactive]
      · rfl
  | subscriptionReconfigured =>
    unfold SubscriptionManager.handle
    dsimp only
    split <;> rfl
  | _ => rfl

/-- A `SUBCMD` whose key or command lies outside the schema that it announces. -/
def misplaces : Notification → Bool
  | .subscriptionCommandOk _ _ fields key command =>
    key = 0 || fields < key || command = 0 || fields < command
  | _ => false

/-- A manager accepts an activation, or it is a misplaced one and the manager stays as it was. -/
theorem handle_confirmed {n : Notification} (hn : (confirmed n).isSome = true)
    (m : SubscriptionManager) :
    (isActivated (m.handle n).2 = true ∧ ∃ items fields command,
        (m.handle n).1 = some (.ok (.activated items fields command))) ∨
      misplaces n = true ∧ (m.handle n).2 = m := by
  cases n with
  | subscriptionOk => exact .inl ⟨rfl, _, _, _, rfl⟩
  | subscriptionCommandOk id items fields key command =>
    have hposition : ∀ role position, (∃ index, commandFieldPosition role position fields =
        .ok index) ∨ (position = 0 ∨ fields < position) ∧
        ∃ e, commandFieldPosition role position fields = .error e := by
      intro role position
      unfold commandFieldPosition
      split_ifs with hout
      · exact .inr ⟨by omega, _, rfl⟩
      · exact .inl ⟨_, rfl⟩
    unfold SubscriptionManager.handle SubscriptionManager.activate misplaces
    dsimp only
    obtain ⟨keyIndex, hkey⟩ | ⟨hkey, e, he⟩ := hposition "key" key
    · obtain ⟨commandIndex, hcommand⟩ | ⟨hcommand, e, he⟩ := hposition "command" command
      · rw [hkey, hcommand]
        exact .inl ⟨rfl, _, _, _, rfl⟩
      · rw [hkey, he]
        refine .inr ⟨?_, rfl⟩
        rcases hcommand with h | h <;> simp [h]
    · rw [he]
      refine .inr ⟨?_, rfl⟩
      rcases hkey with h | h <;> simp [h]
  | _ => cases hn

/-! ## The registry -/

/-- The entry is active over an activated manager only, and that was activated when `accepted`. -/
structure RegistryEntry.Agrees (entry : RegistryEntry) (accepted : Prop) : Prop where
  active : entry.state = .active → isActivated entry.manager = true
  accepted : isActivated entry.manager = true → accepted

/-- Every entry agrees with its manager. -/
def Registry.Agrees (r : Registry) (P : SubscriptionKey → Prop) : Prop :=
  ∀ key entry, r.entries.get? key = some entry → entry.Agrees (P key)

namespace Registry.Agrees

variable {r : Registry} {P Q : SubscriptionKey → Prop}

theorem mono (h : r.Agrees P) (hPQ : ∀ key, P key → Q key) : r.Agrees Q := fun key entry he =>
  ⟨(h key entry he).active, fun ha => hPQ key ((h key entry he).accepted ha)⟩

theorem modify (h : r.Agrees P) (key : SubscriptionKey) {f : RegistryEntry → RegistryEntry}
    (hf : ∀ entry, r.entries.get? key = some entry → entry.Agrees (P key) →
      (f entry).Agrees (P key)) :
    Agrees { r with entries := r.entries.modify key f } P := by
  intro k entry he
  rcases OrdMap.get?_of_modify he with ⟨rfl, e, hget, rfl⟩ | he
  · exact hf e hget (h k e hget)
  · exact h k entry he

theorem erase (h : r.Agrees P) (key : SubscriptionKey) (m : OrdMap ℕ SubscriptionKey) :
    Agrees { r with entries := r.entries.erase key, bySubId := m } P :=
  fun k entry he => h k entry (OrdMap.get?_of_erase he)

theorem want (h : r.Agrees P) (key : SubscriptionKey) (spec : SubscriptionSpec) :
    (r.want key spec).Agrees P := by
  intro k entry he
  simp only [Registry.want, OrdMap.get?_insert] at he
  split at he
  · cases he
    exact ⟨fun hstate => (by cases hstate), fun ha => by cases ha⟩
  · exact h k entry he

theorem markRemoving (h : r.Agrees P) (key : SubscriptionKey) : (r.markRemoving key).Agrees P :=
  h.modify key fun _ _ hentry => ⟨fun hstate => (by cases hstate), hentry.accepted⟩

theorem commitFrequency (h : r.Agrees P) (key : SubscriptionKey) (f : MaxFrequencyLimit) :
    (r.commitFrequency key f).Agrees P :=
  h.modify key fun _ _ hentry => ⟨hentry.active, hentry.accepted⟩

theorem bind (h : r.Agrees P) (key : SubscriptionKey) (id : NonZeroU32) :
    (r.bind key id).Agrees P :=
  h.modify key fun _ _ hentry => ⟨fun hstate => (by cases hstate), hentry.accepted⟩

theorem release (h : r.Agrees P) (key : SubscriptionKey) (id : NonZeroU32) :
    (r.release key id).Agrees P :=
  h.modify key fun _ _ hentry => ⟨hentry.active, hentry.accepted⟩

/-- The refusal of a `delete` makes an entry active when it was so in any session. -/
theorem keep (h : r.Agrees P) {key : SubscriptionKey}
    (hkey : ∀ entry, r.entries.get? key = some entry → entry.wasActive = true →
      isActivated entry.manager = true) : (r.keep key).Agrees P :=
  h.modify key fun entry he hentry => by
    refine ⟨fun hstate => ?_, hentry.accepted⟩
    dsimp only at hstate
    split at hstate
    · rename_i hwas
      exact hkey entry he hwas
    · cases hstate

/-- A new session starts over with every manager. -/
theorem resetForNewSession (r : Registry) : r.resetForNewSession.Agrees P := by
  intro key entry he
  simp only [Registry.resetForNewSession, OrdMap.get?_mapVal, Option.map_eq_some_iff] at he
  obtain ⟨e, -, rfl⟩ := he
  exact ⟨fun hstate => (by cases hstate), fun ha => by cases ha⟩

end Registry.Agrees

namespace SessionDriver

variable {d d' : SessionDriver}

/-- Every entry agrees with its manager and with the history. -/
def Agreeing (d : SessionDriver) : Prop := d.registry.Agrees fun key => Accepted key d.trace

private theorem report_not_bindsFresh (a : Action) (h : a.IsReport) : ¬a.BindsFresh :=
  h.not_bindsFresh

theorem Agreeing.of_eq (h : d.Agreeing) (hr : d'.registry = d.registry)
    (ht : Extends (fun a => ¬a.BindsFresh) d.trace d'.trace) : d'.Agreeing := by
  rw [Agreeing, hr]
  exact Registry.Agrees.mono h fun key ha => ha.of_extends ht

/-! ## Issuing and commands -/

theorem issueSubscription_agreeing (h : d.Agreeing) (key : SubscriptionKey) :
    (d.issueSubscription key).2.Agreeing := by
  have ht : Extends (fun a => ¬a.BindsFresh) d.trace (d.issueSubscription key).2.trace :=
    d.issueSubscription_extends report_not_bindsFresh fun _ _ _ => id
  have hr : (d.issueSubscription key).2.registry.Agrees fun k => Accepted k d.trace := by
    obtain hr | ⟨subId, r, ha, hr | hr | hr⟩ := d.issueSubscription_registry key
    · rw [hr]
      exact h
    all_goals
      obtain ⟨-, rfl⟩ := Registry.allocate_eq_some ha
      rw [hr]
      have hnext : Registry.Agrees { d.registry with nextSubId := d.registry.nextSubId + 1 }
        fun k => Accepted k d.trace := h
    · exact hnext
    · exact hnext.bind key subId
    · exact (hnext.bind key subId).release key subId
  exact hr.mono fun k ha => ha.of_extends ht

theorem issueAll_agreeing (h : d.Agreeing) (keys : List SubscriptionKey) :
    (d.issueAll keys).2.Agreeing := by
  induction keys generalizing d with
  | nil => exact h
  | cons key keys ih => exact ih (issueSubscription_agreeing h key)

theorem issueUnboundSubscriptions_agreeing (h : d.Agreeing) :
    d.issueUnboundSubscriptions.Agreeing := by
  have hall := issueAll_agreeing h d.registry.unboundKeys
  unfold issueUnboundSubscriptions
  dsimp only
  split
  · exact hall
  · exact hall.of_eq rfl (extends_emit _ fun _ => id)

theorem onCommand_agreeing (h : d.Agreeing) (c : SessionCommand) : (d.onCommand c).2.Agreeing := by
  cases c with
  | subscribe key spec =>
    have hwant : Agreeing { d with registry := d.registry.want key spec } :=
      Registry.Agrees.want h key spec
    change (d.subscribe key spec).Agreeing
    unfold subscribe
    dsimp only
    split
    · exact issueSubscription_agreeing hwant key
    · exact hwant
  | unsubscribe key =>
    have ht : Extends (fun a => ¬a.BindsFresh) d.trace (d.unsubscribe key).trace :=
      d.unsubscribe_extends report_not_bindsFresh key fun _ _ _ => id
    have hr : (d.unsubscribe key).registry.Agrees fun k => Accepted k d.trace := by
      rw [unsubscribe_registry]
      split
      · exact h
      · split_ifs
        · exact Registry.Agrees.erase h key _
        · exact Registry.Agrees.markRemoving h key
    exact hr.mono fun k ha => ha.of_extends ht
  | _ =>
    exact h.of_eq (d.onCommand_registry (fun _ _ h => by cases h) fun _ h => by cases h)
      (d.onCommand_extends report_not_bindsFresh _ (fun _ _ _ _ => id) fun _ _ _ _ => id)

/-! ## Lines -/

/-- A misplaced `SUBCMD` is counted over a manager that is not activated. -/
def Misconfirms (d : SessionDriver) (n : Notification) : Prop :=
  d.skipRemaining = 0 ∧ misplaces n = true ∧ ∃ p ∈ d.resolveSubscription n,
    ∃ entry ∈ d.registry.entries.get? p.2, isActivated entry.manager = false

/-- The refusal of a `delete` meets an entry that was active in an earlier session only. -/
def Revives (d : SessionDriver) (n : Notification) : Prop :=
  ∃ id ∈ refused n, ∃ p ∈ d.pending.get? id, p.generation = d.generation ∧
    ∃ key ∈ p.kind.removal, ∃ entry ∈ d.registry.entries.get? key,
      entry.wasActive = true ∧ isActivated entry.manager = false

instance (d : SessionDriver) : DecidablePred d.Misconfirms :=
  fun _ => inferInstanceAs (Decidable (_ ∧ _))

instance (d : SessionDriver) : DecidablePred d.Revives :=
  fun _ => inferInstanceAs (Decidable (∃ _ ∈ _, _))

/-- What a notification does to the entry it names, and what the caller is told. -/
theorem notifySubscription_cases (d : SessionDriver) (n : Notification) :
    ((d.notifySubscription n).registry = d.registry ∧
        Extends Action.IsReport d.trace (d.notifySubscription n).trace) ∨
      ∃ subId key entry, d.resolveSubscription n = some (subId, key) ∧
        d.registry.entries.get? key = some entry ∧
        (d.notifySubscription n).registry =
          registryAfter d.registry subId key (entry.manager.handle n).2 n ∧
        ((∃ outcome b, (entry.manager.handle n).1 = some outcome ∧
            (d.notifySubscription n).trace =
              d.trace ++ [.event (.subscription d.progressive key outcome) b]) ∨
          (entry.manager.handle n).1 = none ∧ (d.notifySubscription n).trace = d.trace) := by
  unfold notifySubscription interpretForSubscription
  dsimp only
  cases hres : d.resolveSubscription n with
  | none => exact .inl ⟨rfl, .refl _ _⟩
  | some p =>
    obtain ⟨subId, key⟩ := p
    dsimp only
    cases hentry : d.registry.entries.get? key with
    | none => exact .inl ⟨rfl, .refl _ _⟩
    | some entry =>
      refine .inr ⟨subId, key, entry, rfl, hentry, ?_⟩
      dsimp only
      cases hh : (entry.manager.handle n).1 with
      | none => exact ⟨rfl, .inr ⟨rfl, rfl⟩⟩
      | some outcome => exact ⟨rfl, .inl ⟨outcome, _, rfl, rfl⟩⟩

theorem notifySubscription_agreeing (h : d.Agreeing) {n : Notification}
    (hskip : d.skipRemaining = 0) (hn : ¬d.Misconfirms n) : (d.notifySubscription n).Agreeing := by
  have ht : Extends (fun a => ¬a.BindsFresh) d.trace (d.notifySubscription n).trace :=
    d.notifySubscription_extends n fun _ _ _ _ => id
  obtain ⟨hr, -⟩ | ⟨subId, key, entry, hres, hentry, hr, htold⟩ := d.notifySubscription_cases n
  · exact h.of_eq hr ht
  · have h' : d.registry.Agrees fun k => Accepted k (d.notifySubscription n).trace :=
      Registry.Agrees.mono h fun k ha => ha.of_extends ht
    rw [Agreeing, hr]
    by_cases hconfirmed : (confirmed n).isSome = true
    · obtain ⟨hactivated, haccepted⟩ : isActivated (entry.manager.handle n).2 = true ∧
          Accepted key (d.notifySubscription n).trace := by
        obtain ⟨hactivated, items, fields, command, hh⟩ | ⟨hmisplaced, hh⟩ :=
          handle_confirmed hconfirmed entry.manager
        · obtain ⟨outcome, b, ho, htrace⟩ | ⟨ho, -⟩ := htold
          · cases hh.symm.trans ho
            rw [htrace]
            exact ⟨hactivated, accepted_concat ..⟩
          · cases hh.symm.trans ho
        · have hearlier : isActivated entry.manager = true := by
            by_contra hnot
            exact hn ⟨hskip, hmisplaced, _, hres, entry, hentry, by simpa using hnot⟩
          rw [hh]
          exact ⟨hearlier, (h' key entry hentry).accepted hearlier⟩
      have hset : (d.registry.setManager key (entry.manager.handle n).2).Agrees
          fun k => Accepted k (d.notifySubscription n).trace :=
        h'.modify key fun _ _ _ => ⟨fun _ => hactivated, fun _ => haccepted⟩
      have hactive := hset.modify key (f := fun e => { e with state := .active, wasActive := true })
        fun e he _ => by
          simp only [Registry.setManager, OrdMap.get?_modify, if_true, hentry, Option.map_some,
            Option.some.injEq] at he
          subst he
          exact ⟨fun _ => hactivated, fun _ => haccepted⟩
      cases n with
      | subscriptionOk | subscriptionCommandOk => exact hactive
      | _ => cases hconfirmed
    · have hnone : confirmed n = none := by simpa using hconfirmed
      by_cases hunsub : ∃ id, n = .unsubscribed id
      · obtain ⟨id, rfl⟩ := hunsub
        exact h'.erase key _
      · have hsame := isActivated_handle hnone (fun id hid => hunsub ⟨id, hid⟩) entry.manager
        have hset : (d.registry.setManager key (entry.manager.handle n).2).Agrees
            fun k => Accepted k (d.notifySubscription n).trace :=
          h'.modify key fun e he hagrees => by
            cases hentry.symm.trans he
            exact ⟨fun hstate => hsame.trans (hagrees.active hstate),
              fun ha => hagrees.accepted (hsame.symm.trans ha)⟩
        cases n with
        | subscriptionOk | subscriptionCommandOk => cases hnone
        | unsubscribed id => exact absurd ⟨id, rfl⟩ hunsub
        | _ => exact hset

theorem onData_agreeing (h : d.Agreeing) {n : Notification} (hn : ¬d.Misconfirms n) :
    (d.onData n).Agreeing := by
  rcases Nat.eq_zero_or_pos d.skipRemaining with hskip | hskip
  · rw [onData_of_no_skip hskip]
    let e : SessionDriver := { d with refreshStreak := 0, progressive := bump d.progressive }
    have hpassed : (e.act (.data e.progressive n)).Agreeing := h.of_eq rfl (.one id _)
    change (e.deliver n).Agreeing
    unfold deliver
    dsimp only
    split
    · exact hpassed.of_eq rfl (extends_emit _ fun _ => id)
    · exact hpassed.of_eq rfl (extends_emit _ fun _ => id)
    · exact notifySubscription_agreeing hpassed hskip hn
  · rw [onData_of_skip hskip]
    exact h

theorem onRequestOk_agreeing (h : d.Agreeing) (id : Option String) :
    (d.onRequestOk id).Agreeing := by
  have ht : Extends (fun a => ¬a.BindsFresh) d.trace (d.onRequestOk id).trace :=
    d.onRequestOk_extends report_not_bindsFresh id
  have hr : (d.onRequestOk id).registry.Agrees fun k => Accepted k d.trace := by
    obtain hr | ⟨key, f, hr⟩ := d.onRequestOk_registry id
    · rw [hr]
      exact h
    · rw [hr]
      exact Registry.Agrees.commitFrequency h key f
  exact hr.mono fun k ha => ha.of_extends ht

theorem onRequestError_agreeing (h : d.Agreeing) {id : String} (cause : ServerCause)
    (hid : ∀ key, (d.takePending id).1 = some (.unsubscribe key) → ∀ entry,
      d.registry.entries.get? key = some entry → entry.wasActive = true →
        isActivated entry.manager = true) : (d.onRequestError id cause).Agreeing := by
  have ht : Extends (fun a => ¬a.BindsFresh) d.trace (d.onRequestError id cause).trace :=
    d.onRequestError_extends report_not_bindsFresh id cause fun _ _ _ _ h => h
  have hr : (d.onRequestError id cause).registry.Agrees fun k => Accepted k d.trace := by
    obtain hr | ⟨key, ⟨-, hr⟩ | ⟨hkey, hr⟩⟩ := d.onRequestError_registry id cause
    · rw [hr]
      exact h
    · rw [hr]
      exact Registry.Agrees.erase h key _
    · rw [hr]
      exact Registry.Agrees.keep h (hid key hkey)
  exact hr.mono fun k ha => ha.of_extends ht

theorem onConok_agreeing (h : d.Agreeing) (sid : SessionId) (limit keepAlive : ℕ)
    (link : Option String) : (d.onConok sid limit keepAlive link).Agreeing := by
  rw [onConok_eq]
  refine issueUnboundSubscriptions_agreeing ?_
  have hr := d.enterSession_registry sid keepAlive link (d.conokKind sid)
  have hregistry : (d.announced sid limit keepAlive link).registry =
      (d.enterSession sid keepAlive link (d.conokKind sid)).registry := by
    rw [announced, emit_toDesk]
  by_cases hfresh : (d.conokKind sid).isFresh = true
  · rw [if_pos hfresh] at hr
    rw [Agreeing, hregistry, hr]
    exact Registry.Agrees.resetForNewSession d.registry
  · rw [if_neg hfresh] at hr
    refine h.of_eq (hregistry.trans hr) ?_
    exact (d.enterSession_extends sid keepAlive link (d.conokKind sid) report_not_bindsFresh
      fun _ _ _ _ _ => id).trans (extends_emit _ fun _ => hfresh)

theorem onNotification_agreeing (h : d.Agreeing) {n : Notification}
    (hmisconfirms : ¬d.Misconfirms n) (hrevives : ¬d.Revives n) :
    (d.onNotification n).2.Agreeing := by
  induction n using onNotification_cases d with
  | conok sid limit millis link hn => exact hn ▸ onConok_agreeing h sid limit _ link
  | conerr code message hn => exact hn ▸ h.of_eq (by simp) (by simp)
  | ended code message hn => exact hn ▸ h.of_eq (by simp) (by simp)
  | loop millis hn => exact hn ▸ h.of_eq (by simp) (by simp)
  | prog n hn => exact hn ▸ h.of_eq (by simp) (onProg_extends _ report_not_bindsFresh n)
  | reqok id hn => exact hn ▸ onRequestOk_agreeing h id
  | reqerr id code message hn =>
    refine hn ▸ onRequestError_agreeing h _ fun key hkey entry hentry hwas => ?_
    by_contra hnot
    exact hrevives ⟨id, rfl, _, takePending_eq_some.1 hkey, rfl, key, rfl, entry, hentry, hwas,
      by simpa using hnot⟩
  | quiet n _ hn => exact hn ▸ h
  | report n e _ hn he => exact hn ▸ h.of_eq rfl (extends_report _ report_not_bindsFresh he)
  | data n _ hn => exact hn ▸ onData_agreeing h hmisconfirms

theorem onLine_agreeing (h : d.Agreeing) {text : String}
    (hn : ∀ n, parseLine text = .ok n → ¬d.Misconfirms n ∧ ¬d.Revives n) :
    (d.onLine text).2.Agreeing := by
  cases htext : parseLine text with
  | error e =>
    rw [onLine_of_error d htext]
    exact h.of_eq rfl (extends_report d.heard report_not_bindsFresh trivial)
  | ok n =>
    rw [onLine_of_ok d htext]
    obtain ⟨hmisconfirms, hrevives⟩ := hn n htext
    exact onNotification_agreeing (d := d.heard) h hmisconfirms hrevives

end SessionDriver

/-! ## Runs -/

namespace Drive

open SessionDriver

variable {s s' : Drive} {i : Input}

/-- Neither of the branches is taken that make an entry active over a manager that is not. -/
def Confirms (s : Drive) (i : Input) : Prop :=
  ∀ n ∈ i.notification, ¬s.driver.Misconfirms n ∧ ¬s.driver.Revives n

instance (s : Drive) (i : Input) : Decidable (Confirms s i) :=
  inferInstanceAs (Decidable (∀ _ ∈ _, _))

theorem step_agreeing (h : s.driver.Agreeing) (hi : Confirms s i) (hstep : step s i = some s') :
    s'.driver.Agreeing := by
  refine step_desk (R := fun d d' => d.Agreeing → d'.Agreeing) (fun hR hR' hd => hR' (hR hd))
    (fun hdesk ht hd => hd.of_eq hdesk.registry (ht.mono fun a ha => ha.not_bindsFresh))
    rfl (fun c _ hd => onCommand_agreeing hd c) (fun text hw hd => ?_) (fun hd => ?_) hstep h
  · exact onLine_agreeing hd fun n hn => hi n (Input.notification_of_line hw hn)
  · exact hd.of_eq (by simp) (onTimer_extends _ fun _ _ _ => id)

theorem start_agreeing (properties : TransportProperties) (options : SessionOptions)
    (seed : UInt64) (now : ℕ) : (start properties options seed now).driver.Agreeing := by
  intro key entry he
  cases he

/-- **Registry and decoder agree**, as long as no manager refuses the confirmation of its entry and
no refused `delete` revives an entry that the session has not confirmed. -/
theorem active_activated {properties : TransportProperties} {options : SessionOptions}
    {seed : UInt64} {now : ℕ} {inputs : List Input}
    (hconfirms : Guarded step Confirms (start properties options seed now) inputs)
    (hrun : exec step (start properties options seed now) inputs = some s) :
    ∀ key entry, s.driver.registry.entries.get? key = some entry → entry.state = .active →
      isActivated entry.manager = true ∧ Accepted key s.driver.trace := by
  intro key entry hentry hactive
  have hagrees : s.driver.Agreeing := exec_invariant (I := fun s => s.driver.Agreeing)
    (fun _ _ _ hs hG hstep => step_agreeing hs hG hstep)
    (start_agreeing properties options seed now) hconfirms hrun
  have hmanager := (hagrees key entry hentry).active hactive
  exact ⟨hmanager, (hagrees key entry hentry).accepted hmanager⟩

/-- A subscription that is confirmed, and confirmed again on a second session. -/
def confirmedTwice : List Input :=
  subscribing ++ [⟨.line "SUBOK,1,1,1", {}⟩, ⟨.line "END,48,expired", {}⟩, ⟨.opened, {}⟩,
    ⟨.line "CONOK,S2,50000,5000,*", {}⟩, ⟨.line "SUBCMD,1,1,2,1,2", {}⟩]

theorem active_activated_confirmedTwice :
    ∃ s entry, exec step (start ⟨true, false, false⟩ .default 1 0) confirmedTwice = some s ∧
      s.driver.registry.entries.get? 7 = some entry ∧ entry.state = .active ∧
      isActivated entry.manager = true ∧ Accepted 7 s.driver.trace := by
  obtain ⟨s, entry, hs, hentry, hactive, hconfirms⟩ : ∃ s entry,
      exec step (start ⟨true, false, false⟩ .default 1 0) confirmedTwice = some s ∧
      s.driver.registry.entries.get? 7 = some entry ∧ entry.state = .active ∧
      Guarded step Confirms (start ⟨true, false, false⟩ .default 1 0) confirmedTwice :=
    ⟨_, _, rfl, rfl, rfl, by decide⟩
  exact ⟨s, entry, hs, hentry, hactive, active_activated hconfirms hs 7 entry hentry hactive⟩

/-- **Active over a manager that is not.** A refused `delete` makes an entry active that only an
earlier session confirmed, and so does a `SUBCMD` that the manager refuses. -/
theorem active_unactivated :
    (∃ s entry, exec step (start ⟨true, false, false⟩ .default 1 0) (subscribing ++
        [⟨.line "SUBOK,1,1,1", {}⟩, ⟨.line "END,48,expired", {}⟩, ⟨.opened, {}⟩,
          ⟨.line "CONOK,S2,50000,5000,*", {}⟩, ⟨.command (.unsubscribe 7), {}⟩,
          ⟨.line "REQERR,3,19,unknown", {}⟩]) = some s ∧
      s.driver.registry.entries.get? 7 = some entry ∧ entry.state = .active ∧
      isActivated entry.manager = false) ∧
    ∃ s entry, exec step (start ⟨true, false, false⟩ .default 1 0) (subscribing ++
        [⟨.line "SUBCMD,1,1,2,5,1", {}⟩]) = some s ∧
      s.driver.registry.entries.get? 7 = some entry ∧ entry.state = .active ∧
      isActivated entry.manager = false :=
  ⟨⟨_, _, rfl, rfl, rfl, rfl⟩, _, _, rfl, rfl, rfl, rfl⟩

end Drive

end Lightstreamer.Session
