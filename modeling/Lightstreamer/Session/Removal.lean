import Lightstreamer.Session.Turns

/-!
# Removal

Once the caller unsubscribes a key, its entry is gone or marked as being removed, and the driver
issues no entry so marked. The mark lasts until the entry goes, unless the server refuses the
removal, or a confirmation that was under way when the removal was asked for overwrites the mark
(`Resurrects`): then a new session subscribes again. `removed_stays` is the rule for runs without
the two, `removed_returns` a run with the second. The mark is set before the removal is asked for,
and stays when asking fails (`stateOf_unsubscribe_of_fails`).
-/

namespace Lightstreamer.Session

open Lightstreamer.Foundations Lightstreamer.Protocol Lightstreamer.Subscription

/-- The key of the subscription that an action asks the server for. -/
def Action.addKey : Action → Option SubscriptionKey
  | .control (.subscribe _) (some (.subscribe key)) _ _ => some key
  | _ => none

theorem Action.IsReport.addKey {a : Action} (h : a.IsReport) : a.addKey = none := by
  cases a with
  | control => cases h
  | _ => rfl

theorem Action.IsLoop.addKey {a : Action} (h : a.IsLoop) : a.addKey = none := by
  cases a with
  | control => cases h
  | _ => rfl

/-- The entry of the key is gone, or it is being removed. -/
def Registry.Removed (r : Registry) (key : SubscriptionKey) : Prop :=
  ∀ entry, r.entries.get? key = some entry → entry.state = .removing

namespace Registry.Removed

variable {r : Registry} {key : SubscriptionKey}

/-- Changing entries without taking the mark off keeps a key removed. -/
theorem modify (h : r.Removed key) (k : SubscriptionKey) {f : RegistryEntry → RegistryEntry}
    (hf : k = key → ∀ entry, r.entries.get? key = some entry → (f entry).state = .removing) :
    Removed { r with entries := r.entries.modify k f } key := by
  intro entry he
  rcases OrdMap.get?_of_modify he with ⟨rfl, e, he', rfl⟩ | he
  · exact hf rfl e he'
  · exact h entry he

theorem erase (h : r.Removed key) (k : SubscriptionKey) (m : OrdMap ℕ SubscriptionKey) :
    Removed { r with entries := r.entries.erase k, bySubId := m } key :=
  fun entry he => h entry (OrdMap.get?_of_erase he)

theorem setManager (h : r.Removed key) (k : SubscriptionKey) (manager : SubscriptionManager) :
    Removed (r.setManager k manager) key :=
  h.modify k fun _ => h

theorem resetForNewSession (h : r.Removed key) : Removed r.resetForNewSession key := by
  intro entry he
  simp only [Registry.resetForNewSession, OrdMap.get?_mapVal, OrdMap.get?_filter,
    Option.map_eq_some_iff, Option.filter_eq_some_iff] at he
  obtain ⟨e, ⟨he, hstate⟩, -⟩ := he
  exact absurd (h e he) (by simpa using hstate)

end Registry.Removed

/-- The wire id that a notification confirms. -/
def confirmed : Notification → Option ℕ
  | .subscriptionOk id .. | .subscriptionCommandOk id .. => some id
  | _ => none

/-- The key of the subscription whose removal an action reports as not sent. -/
def Action.unsentRemoval : Action → Option SubscriptionKey
  | .event (.controlResponse _ (.subscription key .unsubscribe) (.notSent _)) _ => some key
  | _ => none

/-- The request id that a `REQERR` refuses. -/
def refused : Notification → Option String
  | .requestError id .. => some id
  | _ => none

namespace SessionDriver

variable {key : SubscriptionKey} {d d' d'' : SessionDriver}

/-- The key stays removed, and no subscription is asked for under it. -/
structure Withholds (key : SubscriptionKey) (d d' : SessionDriver) : Prop where
  removed : d'.registry.Removed key
  adds : Extends (fun a => a.addKey ≠ some key) d.trace d'.trace

theorem Withholds.trans (h : Withholds key d d') (h' : Withholds key d' d'') :
    Withholds key d d'' :=
  ⟨h'.removed, h.adds.trans h'.adds⟩

private theorem report_addKey (a : Action) (h : a.IsReport) : a.addKey ≠ some key := by
  simp [h.addKey]

/-- An operation that leaves the registry alone and asks for no subscription. -/
theorem Withholds.of_eq (h : d.registry.Removed key) (hr : d'.registry = d.registry)
    (ht : Extends (fun a => a.addKey ≠ some key) d.trace d'.trace) : Withholds key d d' :=
  ⟨hr ▸ h, ht⟩

/-! ## Issuing -/

theorem issueSubscription_withholds (h : d.registry.Removed key) {k : SubscriptionKey}
    (hk : k ≠ key) : Withholds key d (d.issueSubscription k).2 :=
  ⟨fun entry he => h entry ((issueSubscription_get? hk.symm).symm.trans he),
    d.issueSubscription_extends report_addKey fun r ps e => by simp [Action.addKey, hk]⟩

theorem issueAll_withholds (h : d.registry.Removed key) {keys : List SubscriptionKey}
    (hkeys : key ∉ keys) : Withholds key d (d.issueAll keys).2 := by
  induction keys generalizing d with
  | nil => exact .of_eq h rfl (.refl _ _)
  | cons k keys ih =>
    rw [List.mem_cons, not_or] at hkeys
    have hfirst := issueSubscription_withholds h (Ne.symm hkeys.1)
    exact hfirst.trans (ih hfirst.removed hkeys.2)

/-- A subscription that is being removed is not issued again. -/
theorem issueUnboundSubscriptions_withholds (h : d.registry.Removed key) :
    Withholds key d d.issueUnboundSubscriptions := by
  have hkey : key ∉ d.registry.unboundKeys := fun hmem => by
    obtain ⟨entry, he, -, hstate⟩ := Registry.mem_unboundKeys.1 hmem
    exact hstate (h entry he)
  have hall := issueAll_withholds h hkey
  refine ⟨d.issueUnboundSubscriptions_registry ▸ hall.removed, ?_⟩
  exact d.issueUnboundSubscriptions_extends report_addKey fun k hk r ps e => by
    have hne : k ≠ key := fun hkk => hkey (hkk ▸ hk)
    simp [Action.addKey, hne]

/-! ## Commands -/

theorem subscribe_withholds (h : d.registry.Removed key) {k : SubscriptionKey} (hk : k ≠ key)
    (spec : SubscriptionSpec) : Withholds key d (d.subscribe k spec) := by
  have hwant : Withholds key d { d with registry := d.registry.want k spec } :=
    ⟨fun entry he => h entry (by simpa [Registry.want, hk.symm] using he), .refl _ _⟩
  unfold subscribe
  dsimp only
  split
  · exact hwant.trans (issueSubscription_withholds hwant.removed hk)
  · exact hwant

/-- An `unsubscribe` removes its key, whatever becomes of the request. -/
theorem unsubscribe_removes (d : SessionDriver) (key : SubscriptionKey) :
    (d.unsubscribe key).registry.Removed key := by
  intro entry he
  rw [unsubscribe_registry] at he
  cases hd : d.registry.entries.get? key with
  | none => simp [hd] at he
  | some e =>
    simp only [hd] at he
    split_ifs at he
    · simp [Registry.forget] at he
    · simp only [Registry.markRemoving, OrdMap.get?_modify, if_true, hd, Option.map_some,
        Option.some.injEq] at he
      exact he ▸ rfl

theorem unsubscribe_withholds (h : d.registry.Removed key) (k : SubscriptionKey) :
    Withholds key d (d.unsubscribe k) := by
  refine ⟨?_, d.unsubscribe_extends report_addKey k fun _ _ _ => by simp [Action.addKey]⟩
  rw [unsubscribe_registry]
  cases d.registry.entries.get? k with
  | none => exact h
  | some e =>
    dsimp only
    split_ifs
    · exact h.erase k _
    · exact h.modify k fun _ _ _ => rfl

theorem onCommand_withholds (h : d.registry.Removed key) (c : SessionCommand)
    (hfresh : ∀ spec, c ≠ .subscribe key spec) : Withholds key d (d.onCommand c).2 := by
  cases c with
  | subscribe k spec =>
    exact subscribe_withholds h (fun hk => hfresh spec (by rw [hk])) spec
  | unsubscribe k => exact unsubscribe_withholds h k
  | reconfigure k f =>
    exact .of_eq h (d.reconfigure_registry k f)
      (d.reconfigure_extends report_addKey k f fun _ _ _ => by simp [Action.addKey])
  | sendMessage m =>
    exact .of_eq h (d.sendMessage_registry m) (d.sendMessage_extends report_addKey m
      (fun _ _ => by simp [Action.addKey]) fun _ _ _ => by simp [Action.addKey])
  | forceRebind b =>
    exact .of_eq h (d.forceRebind_registry b)
      (d.forceRebind_extends report_addKey b fun _ _ _ => by simp [Action.addKey])
  | destroy cause =>
    exact .of_eq h (d.destroy_registry cause)
      (d.destroy_extends report_addKey cause fun _ _ _ => by simp [Action.addKey])
  | shutdown => exact .of_eq h rfl (.refl _ _)

/-! ## Lines -/

/-- The server refuses the removal of the key. -/
def Refuses (d : SessionDriver) (key : SubscriptionKey) (n : Notification) : Prop :=
  ∃ id ∈ refused n, d.pending.get? id = some ⟨.unsubscribe key, d.generation⟩

/-- A confirmation of the subscription is counted while its removal is under way. -/
def Resurrects (d : SessionDriver) (key : SubscriptionKey) (n : Notification) : Prop :=
  d.skipRemaining = 0 ∧ (∃ id ∈ confirmed n, d.registry.bySubId.get? id = some key) ∧
    ∃ entry ∈ d.registry.entries.get? key, entry.state = .removing

instance (d : SessionDriver) (key : SubscriptionKey) : DecidablePred (d.Refuses key) :=
  fun _ => inferInstanceAs (Decidable (∃ _ ∈ _, _))

instance (d : SessionDriver) (key : SubscriptionKey) : DecidablePred (d.Resurrects key) :=
  fun _ => inferInstanceAs (Decidable (_ ∧ _))

theorem onRequestOk_withholds (h : d.registry.Removed key) (id : Option String) :
    Withholds key d (d.onRequestOk id) := by
  refine ⟨?_, d.onRequestOk_extends report_addKey id⟩
  obtain hr | ⟨k, f, hr⟩ := d.onRequestOk_registry id
  · rwa [hr]
  · rw [hr]
    exact h.modify k fun _ => h

theorem onRequestError_withholds (h : d.registry.Removed key) {id : String} (cause : ServerCause)
    (hid : (d.takePending id).1 ≠ some (.unsubscribe key)) :
    Withholds key d (d.onRequestError id cause) := by
  refine ⟨?_, d.onRequestError_extends report_addKey id cause fun _ _ _ _ => by
    simp [Action.addKey]⟩
  obtain hr | ⟨k, ⟨-, hr⟩ | ⟨hk, hr⟩⟩ := d.onRequestError_registry id cause
  · rwa [hr]
  · rw [hr]
    exact h.erase k _
  · rw [hr]
    exact h.modify k fun hkk => absurd (hk.trans (by rw [hkk])) hid

theorem onData_withholds (h : d.registry.Removed key) {n : Notification}
    (hn : ¬d.Resurrects key n) : Withholds key d (d.onData n) := by
  refine ⟨?_, d.onData_extends n (fun _ => by simp [Action.addKey])
    (fun _ _ _ _ _ => by simp [Action.addKey]) fun _ _ _ _ => by simp [Action.addKey]⟩
  obtain hr | ⟨hskip, subId, k, manager, hres, hr⟩ := d.onData_registry n
  · rwa [hr]
  · obtain ⟨hid, hkey⟩ := resolveSubscription_eq_some hres
    have hactive : confirmed n = some subId →
        ((d.registry.setManager k manager).activate k).Removed key := fun hc => by
      refine (h.setManager k manager).modify k fun hk entry he => ?_
      subst hk
      simp only [Registry.setManager, OrdMap.get?_modify, if_true, Option.map_eq_some_iff] at he
      obtain ⟨e, he, -⟩ := he
      exact absurd ⟨hskip, ⟨subId, hc, hkey⟩, e, he, h e he⟩ hn
    rw [hr]
    unfold registryAfter
    split
    · exact hactive hid
    · exact hactive hid
    · exact h.erase k _
    · exact h.setManager k manager

theorem onConok_withholds (h : d.registry.Removed key) (sid : SessionId) (limit keepAlive : ℕ)
    (link : Option String) : Withholds key d (d.onConok sid limit keepAlive link) := by
  have hannounced : Withholds key d (d.announced sid limit keepAlive link) := by
    refine ⟨?_, (d.enterSession_extends sid keepAlive link (d.conokKind sid) report_addKey
      fun _ _ _ _ _ => by simp [Action.addKey]).trans
        (extends_emit _ fun _ => by simp [Action.addKey])⟩
    rw [announced, emit_toDesk, enterSession_registry]
    split
    · exact h.resetForNewSession
    · exact h
  exact hannounced.trans (issueUnboundSubscriptions_withholds hannounced.removed)

theorem onNotification_withholds (h : d.registry.Removed key) {n : Notification}
    (hrefuses : ¬d.Refuses key n) (hresurrects : ¬d.Resurrects key n) :
    Withholds key d (d.onNotification n).2 := by
  induction n using onNotification_cases d with
  | conok sid limit millis link hn => exact hn ▸ onConok_withholds h sid limit _ link
  | conerr code message hn => exact hn ▸ .of_eq h (by simp) (by simp)
  | ended code message hn => exact hn ▸ .of_eq h (by simp) (by simp)
  | loop millis hn => exact hn ▸ .of_eq h (by simp) (by simp)
  | prog n hn => exact hn ▸ .of_eq h (by simp) (onProg_extends _ report_addKey n)
  | reqok id hn => exact hn ▸ onRequestOk_withholds h id
  | reqerr id code message hn =>
    exact hn ▸ onRequestError_withholds h _ fun hid =>
      hrefuses ⟨id, rfl, takePending_eq_some.1 hid⟩
  | quiet n _ hn => exact hn ▸ .of_eq h rfl (.refl _ _)
  | report n e _ hn he => exact hn ▸ .of_eq h rfl (extends_report _ report_addKey he)
  | data n _ hn => exact hn ▸ onData_withholds h hresurrects

theorem onLine_withholds (h : d.registry.Removed key) {text : String}
    (hn : ∀ n, parseLine text = .ok n → ¬d.Refuses key n ∧ ¬d.Resurrects key n) :
    Withholds key d (d.onLine text).2 := by
  cases htext : parseLine text with
  | error e =>
    rw [onLine_of_error d htext]
    exact .of_eq h rfl (extends_report d.heard report_addKey trivial)
  | ok n =>
    rw [onLine_of_ok d htext]
    obtain ⟨hrefuses, hresurrects⟩ := hn n htext
    have hheard : Withholds key d.heard (d.heard.onNotification n).2 :=
      onNotification_withholds (d := d.heard) h hrefuses hresurrects
    exact ⟨hheard.removed, hheard.adds⟩

end SessionDriver

/-! ## Runs -/

namespace Drive

open SessionDriver

variable {key : SubscriptionKey} {s s' : Drive} {i : Input}

theorem step_withholds (h : s.driver.registry.Removed key)
    (hfresh : ∀ spec, i.wake ≠ .command (.subscribe key spec))
    (hrefuses : ∀ n ∈ i.notification, ¬s.driver.Refuses key n)
    (hresurrects : ∀ n ∈ i.notification, ¬s.driver.Resurrects key n)
    (hstep : step s i = some s') : Withholds key s.driver s'.driver := by
  suffices Withholds key (s.driver.withTurn i.turn) s'.driver from ⟨this.removed, this.adds⟩
  refine step_desk (R := fun d d' => d.registry.Removed key → Withholds key d d')
    (fun hR hR' hd => (hR hd).trans (hR' (hR hd).removed))
    (fun hdesk ht hd => .of_eq hd hdesk.registry (ht.mono fun a ha => by simp [ha.addKey]))
    rfl (fun c hw hd => ?_) (fun text hw hd => ?_) (fun hd => ?_) hstep h
  · exact onCommand_withholds hd c fun spec hc => hfresh spec (by rw [hw, hc])
  · exact onLine_withholds hd fun n hn =>
      have hmem := Input.notification_of_line hw hn
      ⟨hrefuses n hmem, hresurrects n hmem⟩
  · exact .of_eq hd (by simp) (onTimer_extends _ fun _ _ _ => by simp [Action.addKey])

/-- The turn that takes an `unsubscribe`. -/
theorem unsubscribe_turn {turn : Turn} (h : step s ⟨.command (.unsubscribe key), turn⟩ = some s') :
    s'.driver.registry.Removed key := by
  have hd := (s.driver.withTurn turn).unsubscribe_removes key
  cases step_turns h with
  | waitCommand next c _ hw =>
    cases hw
    rwa [afterWait_toDesk]
  | command c _ hw =>
    cases hw
    rwa [(afterPump_sameDesk _).registry]
  | waitOver _ _ hw | opened _ hw | line _ _ hw | timer _ hw => cases hw
  | waitStop _ _ hw | openStop _ hw => rcases hw with hw | hw <;> cases hw
  | openFailed _ _ hw => rcases hw with hw | ⟨hw, -⟩ <;> cases hw
  | interrupted _ _ hw => rcases hw with ⟨_, hw, -⟩ | ⟨hw, -⟩ | ⟨hw | hw, -⟩ <;> cases hw

/-- **An unsubscribed key stays unsubscribed**, unless its removal is refused or a confirmation of
its subscription is counted while its removal is under way. -/
theorem removed_stays {s s₁ s₂ : Drive} {turn : Turn} {inputs : List Input}
    (hunsubscribe : step s ⟨.command (.unsubscribe key), turn⟩ = some s₁)
    (hfresh : ∀ i ∈ inputs, ∀ spec, i.wake ≠ .command (.subscribe key spec))
    (hrefuses : Guarded step
      (fun s i => ∀ n ∈ i.notification, ¬s.driver.Refuses key n) s₁ inputs)
    (hresurrects : Guarded step
      (fun s i => ∀ n ∈ i.notification, ¬s.driver.Resurrects key n) s₁ inputs)
    (hrun : exec step s₁ inputs = some s₂) :
    Extends (fun a => a.addKey ≠ some key) s₁.driver.trace s₂.driver.trace :=
  (exec_extends (I := fun s => s.driver.registry.Removed key) (fun s : Drive => s.driver.trace)
    (fun _ _ _ hs hG hstep =>
      have h := step_withholds hs hG.1 hG.2.1 hG.2.2 hstep
      ⟨h.removed, h.adds⟩)
    (unsubscribe_turn hunsubscribe)
    ((guarded_of_forall_mem hfresh).and (hrefuses.and hresurrects)) hrun).2

/-- A bound session with a subscription that the server has not confirmed yet. -/
def subscribing : List Input :=
  [⟨.opened, {}⟩, ⟨.line "CONOK,S1,50000,5000,*", {}⟩,
    ⟨.command (.subscribe 7 (.new "items" "fields" .merge)), {}⟩]

/-- The removal is answered, and a new session replaces the old one. -/
def removedThenReplaced : List Input :=
  [⟨.line "REQOK,2", {}⟩, ⟨.line "UNSUB,1", {}⟩, ⟨.line "END,48,expired", {}⟩, ⟨.opened, {}⟩,
    ⟨.line "CONOK,S2,50000,5000,*", {}⟩]

theorem removed_stays_removedThenReplaced :
    ∃ s s₁ s₂, exec step (start ⟨true, false, false⟩ .default 1 0) subscribing = some s ∧
      step s ⟨.command (.unsubscribe 7), {}⟩ = some s₁ ∧
      exec step s₁ removedThenReplaced = some s₂ ∧
      Extends (fun a => a.addKey ≠ some 7) s₁.driver.trace s₂.driver.trace := by
  have h : ∃ s s₁ s₂, exec step (start ⟨true, false, false⟩ .default 1 0) subscribing = some s ∧
      step s ⟨.command (.unsubscribe 7), {}⟩ = some s₁ ∧
      exec step s₁ removedThenReplaced = some s₂ := ⟨_, _, _, rfl, rfl, rfl⟩
  obtain ⟨s, s₁, s₂, h, h₁, h₂⟩ := h
  refine ⟨s, s₁, s₂, h, h₁, h₂, removed_stays h₁ ?_ ?_ ?_ h₂⟩
  · simp [removedThenReplaced]
  · cases h
    cases h₁
    decide
  · cases h
    cases h₁
    decide

/-- **An unsubscribed key that returns.** The server takes the removal, but the confirmation of the
subscription was under way: a new session subscribes again. -/
theorem removed_returns :
    ∃ s s₁ s₂, exec step (start ⟨true, false, false⟩ .default 1 0) subscribing = some s ∧
      step s ⟨.command (.unsubscribe 7), {}⟩ = some s₁ ∧
      (∃ r ps, s₁.driver.trace.getLast? = some (.control (.unsubscribe r) (some (.unsubscribe 7)) ps
        none)) ∧
      exec step s₁ [⟨.line "SUBOK,1,1,1", {}⟩, ⟨.line "END,48,expired", {}⟩, ⟨.opened, {}⟩,
        ⟨.line "CONOK,S2,50000,5000,*", {}⟩] = some s₂ ∧
      ¬Extends (fun a => a.addKey ≠ some 7) s₁.driver.trace s₂.driver.trace := by
  refine ⟨_, _, _, rfl, rfl, ⟨_, _, rfl⟩, rfl, fun h => ?_⟩
  have h' := fun a => h.of_mem_drop (a := a)
  revert h'
  decide

end Drive

/-! ## Removals that fail -/

namespace SessionDriver

variable {key : SubscriptionKey} {d : SessionDriver}

/-- Where the entry of a key stands. -/
def stateOf (d : SessionDriver) (key : SubscriptionKey) : Option SubscriptionState :=
  (d.registry.entries.get? key).map RegistryEntry.state

/-- The removal of the key fails: its entry has a binding to remove while no session is bound, or
the answer is that the request was not sent. -/
def RemovalFails (d : SessionDriver) (key : SubscriptionKey) : Prop :=
  ((d.registry.entries.get? key).bind RegistryEntry.wire).isSome ∧ d.session = none ∨
    ∃ a ∈ (d.unsubscribe key).trace.drop d.trace.length, a.unsentRemoval = some key

instance (d : SessionDriver) (key : SubscriptionKey) : Decidable (d.RemovalFails key) :=
  inferInstanceAs (Decidable (_ ∨ _))

/-- A removal that fails has a binding to remove. -/
theorem RemovalFails.bound (h : d.RemovalFails key) :
    ∃ entry, d.registry.entries.get? key = some entry ∧ entry.wire.isNone = false := by
  cases hget : d.registry.entries.get? key with
  | none =>
    rcases h with ⟨h, -⟩ | ⟨a, ha, -⟩
    · simp [hget] at h
    · simp [unsubscribe, hget] at ha
  | some entry =>
    refine ⟨entry, rfl, ?_⟩
    cases hwire : entry.wire with
    | some subId => rfl
    | none =>
      rcases h with ⟨h, -⟩ | ⟨a, ha, -⟩
      · simp [hget, hwire] at h
      · simp [unsubscribe, hget, hwire] at ha

/-- **A removal that fails leaves its mark**: the entry stands as it stood only where it was being
removed already. -/
theorem stateOf_unsubscribe_of_fails (h : d.RemovalFails key) :
    ((d.unsubscribe key).stateOf key = d.stateOf key ↔ d.stateOf key = some .removing) ∧
      (d.stateOf key = some .removing →
        (d.unsubscribe key).registry.entries.get? key = d.registry.entries.get? key) := by
  obtain ⟨entry, hget, hwire⟩ := h.bound
  have hafter : (d.unsubscribe key).registry.entries.get? key =
      some { entry with state := .removing } := by
    simp [unsubscribe_registry, hget, hwire, Registry.markRemoving]
  have hstate : d.stateOf key = some entry.state := by rw [stateOf, hget, Option.map_some]
  have hstate' : (d.unsubscribe key).stateOf key = some .removing := by
    rw [stateOf, hafter, Option.map_some]
  refine ⟨?_, fun hremoving => ?_⟩
  · rw [hstate']
    exact eq_comm
  · rw [hstate, Option.some.injEq] at hremoving
    rw [hafter, hget, ← hremoving]

end SessionDriver

namespace Drive

open SessionDriver

/-- A bound session with a subscription that the server has confirmed. -/
def confirming : List Input := subscribing ++ [⟨.line "SUBOK,1,1,1", {}⟩]

/-- A turn in which the transport refuses what it is given. -/
def refusing : Turn := { sends := [some "connection reset"] }

theorem stateOf_unsubscribe_of_fails_refusing :
    ∃ s, exec step (start ⟨true, false, false⟩ .default 1 0) confirming = some s ∧
      ((s.driver.withTurn refusing).RemovalFails 7 ∧
        (((s.driver.withTurn refusing).unsubscribe 7).stateOf 7 =
            (s.driver.withTurn refusing).stateOf 7 ↔
          (s.driver.withTurn refusing).stateOf 7 = some .removing)) := by
  have h : ∃ s, exec step (start ⟨true, false, false⟩ .default 1 0) confirming = some s :=
    ⟨_, rfl⟩
  obtain ⟨s, h⟩ := h
  have hfails : (s.driver.withTurn refusing).RemovalFails 7 := by
    cases h
    decide
  exact ⟨s, h, hfails, (stateOf_unsubscribe_of_fails hfails).1⟩

/-- **A subscription that a failed removal takes away.** The transport refuses the removal of an
active subscription: its entry is marked all the same, and the next session drops it. -/
theorem failed_removal_lost :
    ∃ s s₁ s₂, exec step (start ⟨true, false, false⟩ .default 1 0) confirming = some s ∧
      (s.driver.withTurn refusing).RemovalFails 7 ∧
      s.driver.stateOf 7 = some .active ∧
      step s ⟨.command (.unsubscribe 7), refusing⟩ = some s₁ ∧
      s₁.driver.stateOf 7 ≠ s.driver.stateOf 7 ∧
      exec step s₁ [⟨.line "END,48,expired", {}⟩, ⟨.opened, {}⟩,
        ⟨.line "CONOK,S2,50000,5000,*", {}⟩] = some s₂ ∧
      s₂.driver.stateOf 7 = none ∧
      ∀ a ∈ s₂.driver.trace.drop s₁.driver.trace.length, a.addKey ≠ some 7 :=
  ⟨_, _, _, rfl, by decide, rfl, rfl, by decide, rfl, rfl, by decide⟩

end Drive

end Lightstreamer.Session
