import Lightstreamer.Session.Step

/-!
# What the driver's functions leave alone

For each function of the driver, the fields it does not change (simp lemmas, one for a whole group
of fields where it leaves the group alone) and the actions it adds to the trace (`Extends` lemmas).
The actions fall into reports, which only tell the caller something (`Action.IsReport`), the ones of
the loop (`Action.IsLoop`), and the rest: requests, binds, message outcomes and what becomes of data
notifications.

The rules for whole turns are in `Session/Turns.lean`.
-/

namespace Lightstreamer.Session

open Lightstreamer.Foundations Lightstreamer.Protocol Lightstreamer.Subscription

/-- An event that only reports. -/
def SessionEvent.IsReport : SessionEvent → Prop
  | .controlResponse .. | .recovered _ | .resubscribed _ | .serverInfo _ | .unparsed .. => True
  | _ => False

/-- An action that only reports. -/
def Action.IsReport : Action → Prop
  | .event e _ => e.IsReport
  | .setControlLink _ => True
  | _ => False

/-- An event of the loop around the stream connections. -/
def SessionEvent.IsLoop : SessionEvent → Prop
  | .unbound .. | .closed _ => True
  | _ => False

/-- An action of the loop around the stream connections. -/
def Action.IsLoop : Action → Prop
  | .openStream _ | .close => True
  | .event e _ => e.IsLoop
  | _ => False

namespace SessionDriver

variable {P : Action → Prop} (d : SessionDriver)

/-! ## The surroundings -/

@[simp] theorem emit_toLifecycle (e : SessionEvent) : (d.emit e).toLifecycle = d.toLifecycle := rfl

@[simp] theorem emit_toDesk (e : SessionEvent) : (d.emit e).toDesk = d.toDesk := rfl

theorem extends_emit {e : SessionEvent} (h : ∀ b, P (.event e b)) :
    Extends P d.trace (d.emit e).trace :=
  .one (h _) _

theorem extends_report (hP : ∀ a, a.IsReport → P a) {e : SessionEvent} (he : e.IsReport) :
    Extends P d.trace (d.emit e).trace :=
  d.extends_emit fun _ => hP _ he

@[simp] theorem act_toLifecycle (a : Action) : (d.act a).toLifecycle = d.toLifecycle := rfl

@[simp] theorem act_toDesk (a : Action) : (d.act a).toDesk = d.toDesk := rfl

@[simp] theorem act_trace (a : Action) : (d.act a).trace = d.trace ++ [a] := rfl

@[simp] theorem clocked_toLifecycle (f : ℕ → Liveness) :
    (d.clocked f).toLifecycle = d.toLifecycle := rfl

@[simp] theorem clocked_registry (f : ℕ → Liveness) : (d.clocked f).registry = d.registry := rfl

@[simp] theorem clocked_pending (f : ℕ → Liveness) : (d.clocked f).pending = d.pending := rfl

@[simp] theorem clocked_nextRequestId (f : ℕ → Liveness) :
    (d.clocked f).nextRequestId = d.nextRequestId := rfl

@[simp] theorem clocked_trace (f : ℕ → Liveness) : (d.clocked f).trace = d.trace := rfl

@[simp] theorem send_toLifecycle (r : ControlRequest) (kind : Option PendingKind) (ps : String) :
    (d.send r kind ps).2.toLifecycle = d.toLifecycle := rfl

@[simp] theorem send_toDesk (r : ControlRequest) (kind : Option PendingKind) (ps : String) :
    (d.send r kind ps).2.toDesk = d.toDesk := rfl

@[simp] theorem send_trace (r : ControlRequest) (kind : Option PendingKind) (ps : String) :
    (d.send r kind ps).2.trace = d.trace ++ [.control r kind ps (d.send r kind ps).1] := rfl

/-! ## Sending -/

/-- What taking a request id does. -/
theorem takeRequestId_eq_some {d : SessionDriver} {id : RequestId} {d' : SessionDriver}
    (h : d.takeRequestId = some (id, d')) :
    d.nextRequestId < u64Max ∧ id = .fromProgressive d.nextRequestId ∧
      d' = { d with nextRequestId := d.nextRequestId + 1 } := by
  unfold takeRequestId checkedAdd at h
  split at h
  · rename_i hle
    simp only [Option.map_some, Option.some.injEq, Prod.mk.injEq] at h
    exact ⟨hle, h.1.symm, h.2.symm⟩
  · cases h

/-- **What a dispatch does.** Either the request could not be encoded; or it is sent, and pending
exactly when the transport took it. -/
theorem dispatch_cases (request : ControlRequest) (id : RequestId) (kind : PendingKind) :
    (∃ error d', d.dispatch request id kind = (false, d') ∧
      d' = d.emit (.controlResponse (some id) kind.target (.notSent error))) ∨
    (∃ parameters d', d.dispatch request id kind = (true, d') ∧
      d'.toLifecycle = d.toLifecycle ∧ d'.registry = d.registry ∧
      d'.pending = d.pending.insert id.text ⟨kind, d.generation⟩ ∧
      d'.nextRequestId = d.nextRequestId ∧
      d'.forceRebindOutstanding = d.forceRebindOutstanding ∧
      d'.trace = d.trace ++ [.control request (some kind) parameters none]) ∨
    (∃ parameters error b d', d.dispatch request id kind = (false, d') ∧
      d'.toLifecycle = d.toLifecycle ∧ d'.registry = d.registry ∧
      d'.pending = (d.pending.insert id.text ⟨kind, d.generation⟩).erase id.text ∧
      d'.nextRequestId = d.nextRequestId ∧
      d'.forceRebindOutstanding = d.forceRebindOutstanding ∧
      d'.trace = d.trace ++ [.control request (some kind) parameters (some error),
        .event (.controlResponse (some id) kind.target (.notSent error)) b]) := by
  unfold dispatch
  cases request.encodeParameters d.controlKind with
  | error error => exact .inl ⟨_, _, rfl, rfl⟩
  | ok parameters =>
    cases hsend : d.turn.sends.headD none with
    | none =>
      simp only [send, hsend]
      exact .inr (.inl ⟨parameters, _, rfl, rfl, rfl, rfl, rfl, rfl, rfl⟩)
    | some error =>
      simp only [send, hsend]
      exact .inr (.inr ⟨parameters, error, !d.turn.interrupts.headD false, _, rfl, rfl, rfl, rfl,
        rfl, rfl, by simp [emit]⟩)

/-- A request that has an encoding leaves when the transport takes it. -/
theorem dispatch_leaves {d : SessionDriver} {request : ControlRequest} {parameters : String}
    (hencode : request.encodeParameters d.controlKind = .ok parameters)
    (hhead : d.turn.sends.headD none = none) (id : RequestId) (kind : PendingKind) :
    (d.dispatch request id kind).1 = true ∧
      (d.dispatch request id kind).2.turn.sends = d.turn.sends.tail := by
  unfold dispatch
  rw [hencode]
  simp only [send, hhead]
  exact ⟨trivial, rfl⟩

@[simp] theorem dispatch_toLifecycle (request : ControlRequest) (id : RequestId)
    (kind : PendingKind) : (d.dispatch request id kind).2.toLifecycle = d.toLifecycle := by
  obtain ⟨_, _, h, rfl⟩ | ⟨_, _, h, h', -⟩ | ⟨_, _, _, _, h, h', -⟩ :=
    d.dispatch_cases request id kind <;> simp [*]

@[simp] theorem dispatch_registry (request : ControlRequest) (id : RequestId)
    (kind : PendingKind) : (d.dispatch request id kind).2.registry = d.registry := by
  obtain ⟨_, _, h, rfl⟩ | ⟨_, _, h, -, h', -⟩ | ⟨_, _, _, _, h, -, h', -⟩ :=
    d.dispatch_cases request id kind <;> simp [*]

@[simp] theorem dispatch_nextRequestId (request : ControlRequest) (id : RequestId)
    (kind : PendingKind) : (d.dispatch request id kind).2.nextRequestId = d.nextRequestId := by
  obtain ⟨_, _, h, rfl⟩ | ⟨_, _, h, -, -, -, h', -⟩ | ⟨_, _, _, _, h, -, -, -, h', -⟩ :=
    d.dispatch_cases request id kind <;> simp [*]

theorem dispatch_extends (hP : ∀ a, a.IsReport → P a) {request : ControlRequest} (id : RequestId)
    {kind : PendingKind} (hreq : ∀ ps e, P (.control request (some kind) ps e)) :
    Extends P d.trace (d.dispatch request id kind).2.trace := by
  obtain ⟨_, _, h, rfl⟩ | ⟨_, _, h, -, -, -, -, -, ht⟩ | ⟨_, _, _, _, h, -, -, -, -, -, ht⟩ :=
    d.dispatch_cases request id kind
  · rw [h]
    exact d.extends_report hP trivial
  · rw [h, ht]
    exact .one (hreq _ _) _
  · rw [h, ht, List.append_cons]
    exact (Extends.one (hreq _ _) _).concat (hP _ trivial)

@[simp] theorem reportIdExhaustion_toLifecycle (target : ControlTarget) :
    (d.reportIdExhaustion target).toLifecycle = d.toLifecycle := rfl

@[simp] theorem reportIdExhaustion_toDesk (target : ControlTarget) :
    (d.reportIdExhaustion target).toDesk = d.toDesk := rfl

theorem reportIdExhaustion_extends (hP : ∀ a, a.IsReport → P a) (target : ControlTarget) :
    Extends P d.trace (d.reportIdExhaustion target).trace :=
  d.extends_report hP trivial

@[simp] theorem attemptHeartbeat_toLifecycle :
    d.attemptHeartbeat.2.toLifecycle = d.toLifecycle := by
  unfold attemptHeartbeat
  split <;> rfl

@[simp] theorem attemptHeartbeat_toDesk : d.attemptHeartbeat.2.toDesk = d.toDesk := by
  unfold attemptHeartbeat
  split <;> rfl

@[simp] theorem settleHeartbeat_toDesk (failure : Option String) :
    (d.settleHeartbeat failure).2.toDesk = d.toDesk := by
  unfold settleHeartbeat
  split
  · rfl
  · dsimp only
    split <;> rfl

@[simp] theorem settleHeartbeat_toSurroundings (failure : Option String) :
    (d.settleHeartbeat failure).2.toSurroundings = d.toSurroundings := by
  unfold settleHeartbeat
  split
  · rfl
  · dsimp only
    split <;> rfl

/-- Settling a heartbeat changes the lifecycle in the count of failures only. -/
theorem settleHeartbeat_toLifecycle (failure : Option String) :
    ∃ failures, (d.settleHeartbeat failure).2.toLifecycle =
      { d.toLifecycle with heartbeatFailures := failures } := by
  unfold settleHeartbeat
  split
  · exact ⟨0, rfl⟩
  · dsimp only
    split
    · exact ⟨0, rfl⟩
    · exact ⟨_, rfl⟩

theorem settleHeartbeat_flow (failure : Option String) :
    (d.settleHeartbeat failure).1 = .continue ∨
      ∃ detail, (d.settleHeartbeat failure).1 = .unbind (.connectionFailed detail) := by
  unfold settleHeartbeat
  split
  · exact .inl rfl
  · dsimp only
    split
    · exact .inr ⟨_, rfl⟩
    · exact .inl rfl

theorem sendHeartbeat_toLifecycle :
    ∃ failures, d.sendHeartbeat.2.toLifecycle =
      { d.toLifecycle with heartbeatFailures := failures } := by
  obtain ⟨failures, h⟩ := settleHeartbeat_toLifecycle
    (d.attemptHeartbeat.2.clocked d.attemptHeartbeat.2.liveness.onOutbound) d.attemptHeartbeat.1
  exact ⟨failures, by rw [sendHeartbeat, h]; simp⟩

@[simp] theorem sendHeartbeat_registry : d.sendHeartbeat.2.registry = d.registry := by
  simp [sendHeartbeat]

@[simp] theorem sendHeartbeat_pending : d.sendHeartbeat.2.pending = d.pending := by
  simp [sendHeartbeat]

@[simp] theorem sendHeartbeat_nextRequestId :
    d.sendHeartbeat.2.nextRequestId = d.nextRequestId := by
  simp [sendHeartbeat]

theorem sendHeartbeat_extends (hreq : ∀ r ps e, P (.control (.heartbeat r) none ps e)) :
    Extends P d.trace d.sendHeartbeat.2.trace := by
  rw [sendHeartbeat, settleHeartbeat_toSurroundings, clocked_trace, attemptHeartbeat]
  split
  · exact .refl P _
  · exact .one (hreq _ _ _) _

/-! ## Subscriptions -/

@[simp] theorem sendSubscribe_toLifecycle (session : SessionId) (key : SubscriptionKey)
    (subId : NonZeroU32) (entry : RegistryEntry) :
    (d.sendSubscribe session key subId entry).2.toLifecycle = d.toLifecycle := by
  unfold sendSubscribe
  split
  · rfl
  · rename_i h
    obtain ⟨-, -, rfl⟩ := takeRequestId_eq_some h
    dsimp only
    split <;> simp

/-- The binding of an `add` that did not leave is released. -/
theorem sendSubscribe_registry (session : SessionId) (key : SubscriptionKey) (subId : NonZeroU32)
    (entry : RegistryEntry) :
    (d.sendSubscribe session key subId entry).2.registry = d.registry ∨
      (d.sendSubscribe session key subId entry).2.registry = d.registry.release key subId := by
  unfold sendSubscribe
  split
  · exact .inr rfl
  · rename_i h
    obtain ⟨-, -, rfl⟩ := takeRequestId_eq_some h
    dsimp only
    split
    · exact .inl (by simp)
    · exact .inr (by simp)

theorem sendSubscribe_extends (hP : ∀ a, a.IsReport → P a) {session : SessionId}
    {key : SubscriptionKey} {subId : NonZeroU32} {entry : RegistryEntry}
    (hreq : ∀ id ps e, P (.control (.subscribe (subscribeRequest session id subId entry.spec))
      (some (.subscribe key)) ps e)) :
    Extends P d.trace (d.sendSubscribe session key subId entry).2.trace := by
  unfold sendSubscribe
  split
  · exact d.extends_report hP trivial
  · rename_i id d₁ h
    obtain ⟨-, -, rfl⟩ := takeRequestId_eq_some h
    have ht := dispatch_extends { d with nextRequestId := d.nextRequestId + 1 } hP id (hreq id)
    dsimp only
    split <;> exact ht

@[simp] theorem issueSubscription_toLifecycle (key : SubscriptionKey) :
    (d.issueSubscription key).2.toLifecycle = d.toLifecycle := by
  unfold issueSubscription
  split
  · rfl
  · split
    · rfl
    · dsimp only
      split <;> simp

/-- What issuing a subscription does to the registry. -/
theorem issueSubscription_registry (key : SubscriptionKey) :
    (d.issueSubscription key).2.registry = d.registry ∨
      ∃ subId r, d.registry.allocate = some (subId, r) ∧
        ((d.issueSubscription key).2.registry = r ∨
          (d.issueSubscription key).2.registry = r.bind key subId ∨
          (d.issueSubscription key).2.registry = (r.bind key subId).release key subId) := by
  unfold issueSubscription
  split
  · exact .inl rfl
  · split
    · exact .inl rfl
    · rename_i subId r ha
      refine .inr ⟨subId, r, ha, ?_⟩
      dsimp only
      split
      · exact .inl rfl
      · exact .inr (sendSubscribe_registry _ _ key subId _)

/-- Issuing a subscription changes the entry of its key only. -/
theorem issueSubscription_get? {d : SessionDriver} {key k : SubscriptionKey} (hk : k ≠ key) :
    (d.issueSubscription key).2.registry.entries.get? k = d.registry.entries.get? k := by
  obtain h | ⟨subId, r, ha, h | h | h⟩ := d.issueSubscription_registry key
  · rw [h]
  all_goals
    obtain ⟨-, rfl⟩ := Registry.allocate_eq_some ha
    simp [h, Registry.bind, Registry.release, hk]

/-- Issuing a subscription adds no entry. -/
theorem issueSubscription_get?_eq_none {d : SessionDriver} {key k : SubscriptionKey}
    (hk : d.registry.entries.get? k = none) :
    (d.issueSubscription key).2.registry.entries.get? k = none := by
  obtain h | ⟨subId, r, ha, h | h | h⟩ := d.issueSubscription_registry key
  · rw [h, hk]
  all_goals
    obtain ⟨-, rfl⟩ := Registry.allocate_eq_some ha
    simp [h, Registry.bind, Registry.release, hk]

theorem issueSubscription_extends (hP : ∀ a, a.IsReport → P a) {key : SubscriptionKey}
    (hreq : ∀ r ps e, P (.control (.subscribe r) (some (.subscribe key)) ps e)) :
    Extends P d.trace (d.issueSubscription key).2.trace := by
  unfold issueSubscription
  split
  · exact .refl P _
  · split
    · exact .refl P _
    · dsimp only
      split
      · exact .refl P _
      · exact sendSubscribe_extends _ hP fun _ => hreq _

@[simp] theorem issueAll_toLifecycle (keys : List SubscriptionKey) :
    (d.issueAll keys).2.toLifecycle = d.toLifecycle := by
  induction keys generalizing d with
  | nil => rfl
  | cons key keys ih => simp [issueAll, ih]

theorem issueAll_extends (hP : ∀ a, a.IsReport → P a) {keys : List SubscriptionKey}
    (hreq : ∀ key ∈ keys, ∀ r ps e, P (.control (.subscribe r) (some (.subscribe key)) ps e)) :
    Extends P d.trace (d.issueAll keys).2.trace := by
  induction keys generalizing d with
  | nil => exact .refl P _
  | cons key keys ih =>
    exact (d.issueSubscription_extends hP (hreq key List.mem_cons_self)).trans
      (ih _ fun k hk => hreq k (List.mem_cons_of_mem _ hk))

/-- Issuing subscriptions changes the entries of their keys only. -/
theorem issueAll_get? {d : SessionDriver} {keys : List SubscriptionKey} {k : SubscriptionKey}
    (hk : k ∉ keys) :
    (d.issueAll keys).2.registry.entries.get? k = d.registry.entries.get? k := by
  induction keys generalizing d with
  | nil => rfl
  | cons key keys ih =>
    rw [List.mem_cons, not_or] at hk
    rw [issueAll, ih hk.2, issueSubscription_get? hk.1]

@[simp] theorem issueUnboundSubscriptions_toLifecycle :
    d.issueUnboundSubscriptions.toLifecycle = d.toLifecycle := by
  unfold issueUnboundSubscriptions
  dsimp only
  split <;> simp

theorem issueUnboundSubscriptions_registry :
    d.issueUnboundSubscriptions.registry = (d.issueAll d.registry.unboundKeys).2.registry := by
  unfold issueUnboundSubscriptions
  dsimp only
  split <;> simp

theorem issueUnboundSubscriptions_extends (hP : ∀ a, a.IsReport → P a)
    (hreq : ∀ key ∈ d.registry.unboundKeys, ∀ r ps e,
      P (.control (.subscribe r) (some (.subscribe key)) ps e)) :
    Extends P d.trace d.issueUnboundSubscriptions.trace := by
  have h := d.issueAll_extends hP hreq
  unfold issueUnboundSubscriptions
  dsimp only
  split
  · exact h
  · exact h.trans (extends_report _ hP trivial)

/-! ## Commands -/

@[simp] theorem subscribe_toLifecycle (key : SubscriptionKey) (spec : SubscriptionSpec) :
    (d.subscribe key spec).toLifecycle = d.toLifecycle := by
  unfold subscribe
  dsimp only
  split <;> simp

theorem subscribe_extends (hP : ∀ a, a.IsReport → P a) {key : SubscriptionKey}
    (spec : SubscriptionSpec)
    (hreq : ∀ r ps e, P (.control (.subscribe r) (some (.subscribe key)) ps e)) :
    Extends P d.trace (d.subscribe key spec).trace := by
  unfold subscribe
  dsimp only
  split
  · exact issueSubscription_extends _ hP hreq
  · exact .refl P _

@[simp] theorem unsubscribe_toLifecycle (key : SubscriptionKey) :
    (d.unsubscribe key).toLifecycle = d.toLifecycle := by
  unfold unsubscribe
  split
  · rfl
  · split
    · rfl
    · dsimp only
      split
      · rfl
      · split
        · rfl
        · rename_i h
          obtain ⟨-, -, rfl⟩ := takeRequestId_eq_some h
          simp

/-- What an `unsubscribe` leaves of the registry. -/
theorem unsubscribe_registry (key : SubscriptionKey) :
    (d.unsubscribe key).registry = match d.registry.entries.get? key with
      | none => d.registry
      | some entry => if entry.wire.isNone then d.registry.forget key
          else d.registry.markRemoving key := by
  unfold unsubscribe
  cases h : d.registry.entries.get? key with
  | none => rfl
  | some entry =>
    cases hw : entry.wire with
    | none => simp [hw]
    | some subId =>
      simp only [hw, Option.isNone_some, Bool.false_eq_true, if_false]
      split
      · rfl
      · split
        · rfl
        · rename_i h
          obtain ⟨-, -, rfl⟩ := takeRequestId_eq_some h
          simp

theorem unsubscribe_extends (hP : ∀ a, a.IsReport → P a) (key : SubscriptionKey)
    (hreq : ∀ r ps e, P (.control (.unsubscribe r) (some (.unsubscribe key)) ps e)) :
    Extends P d.trace (d.unsubscribe key).trace := by
  unfold unsubscribe
  split
  · exact .refl P _
  · split
    · exact .refl P _
    · dsimp only
      split
      · exact .refl P _
      · split
        · exact extends_report _ hP trivial
        · rename_i h
          obtain ⟨-, -, rfl⟩ := takeRequestId_eq_some h
          exact dispatch_extends { d with
            registry := d.registry.markRemoving key
            nextRequestId := d.nextRequestId + 1 } hP _ (hreq _)

@[simp] theorem reconfigure_toLifecycle (key : SubscriptionKey) (f : MaxFrequencyLimit) :
    (d.reconfigure key f).toLifecycle = d.toLifecycle := by
  unfold reconfigure
  split
  · split
    · rfl
    · rename_i h
      obtain ⟨-, -, rfl⟩ := takeRequestId_eq_some h
      simp
  · rfl

@[simp] theorem reconfigure_registry (key : SubscriptionKey) (f : MaxFrequencyLimit) :
    (d.reconfigure key f).registry = d.registry := by
  unfold reconfigure
  split
  · split
    · rfl
    · rename_i h
      obtain ⟨-, -, rfl⟩ := takeRequestId_eq_some h
      simp
  · rfl

theorem reconfigure_extends (hP : ∀ a, a.IsReport → P a) (key : SubscriptionKey)
    (f : MaxFrequencyLimit)
    (hreq : ∀ r ps e, P (.control (.reconfigure r) (some (.reconfigure key f)) ps e)) :
    Extends P d.trace (d.reconfigure key f).trace := by
  unfold reconfigure
  split
  · split
    · exact extends_report _ hP trivial
    · rename_i h
      obtain ⟨-, -, rfl⟩ := takeRequestId_eq_some h
      exact dispatch_extends { d with nextRequestId := d.nextRequestId + 1 } hP _ (hreq _)
  · exact .refl P _

@[simp] theorem sendMessage_toLifecycle (m : OutgoingMessage) :
    (d.sendMessage m).toLifecycle = d.toLifecycle := by
  unfold sendMessage
  dsimp only
  split
  · split
    · rfl
    · rename_i h
      obtain ⟨-, -, rfl⟩ := takeRequestId_eq_some h
      split <;> simp
  · rfl

@[simp] theorem sendMessage_registry (m : OutgoingMessage) :
    (d.sendMessage m).registry = d.registry := by
  unfold sendMessage
  dsimp only
  split
  · split
    · rfl
    · rename_i h
      obtain ⟨-, -, rfl⟩ := takeRequestId_eq_some h
      split <;> simp
  · rfl

theorem sendMessage_extends (hP : ∀ a, a.IsReport → P a) (m : OutgoingMessage)
    (hevent : ∀ reason b, P (.event (.message none m.identity.1 m.identity.2 (.notSent reason)) b))
    (hreq : ∀ r ps e,
      P (.control (.messageSend r) (some (.sendMessage m.identity.1 m.identity.2)) ps e)) :
    Extends P d.trace (d.sendMessage m).trace := by
  unfold sendMessage
  dsimp only
  split
  · split
    · exact (d.reportIdExhaustion_extends hP _).trans (extends_emit _ (hevent _))
    · rename_i id _ h
      obtain ⟨-, -, rfl⟩ := takeRequestId_eq_some h
      have ht := fun r => dispatch_extends { d with nextRequestId := d.nextRequestId + 1 } hP id
        (hreq r)
      split
      · exact ht _
      · exact (ht _).trans (extends_emit _ (hevent _))
  · exact extends_emit _ (hevent _)

@[simp] theorem forceRebind_toLifecycle (closeSocket : Option Bool) :
    (d.forceRebind closeSocket).toLifecycle = d.toLifecycle := by
  unfold forceRebind
  split
  · split
    · rfl
    · rename_i h
      obtain ⟨-, -, rfl⟩ := takeRequestId_eq_some h
      simp
  · rfl

@[simp] theorem forceRebind_registry (closeSocket : Option Bool) :
    (d.forceRebind closeSocket).registry = d.registry := by
  unfold forceRebind
  split
  · split
    · rfl
    · rename_i h
      obtain ⟨-, -, rfl⟩ := takeRequestId_eq_some h
      simp
  · rfl

theorem forceRebind_extends (hP : ∀ a, a.IsReport → P a) (closeSocket : Option Bool)
    (hreq : ∀ r ps e, P (.control (.forceRebind r) (some .forceRebind) ps e)) :
    Extends P d.trace (d.forceRebind closeSocket).trace := by
  unfold forceRebind
  split
  · split
    · exact extends_report _ hP trivial
    · rename_i h
      obtain ⟨-, -, rfl⟩ := takeRequestId_eq_some h
      exact dispatch_extends { d with
        nextRequestId := d.nextRequestId + 1
        forceRebindOutstanding := true } hP _ (hreq _)
  · exact .refl P _

/-- A `destroy` changes the lifecycle in the note that it was asked for only. -/
theorem destroy_toLifecycle (cause : Option DestroyCause) :
    ∃ b, (d.destroy cause).2.toLifecycle = { d.toLifecycle with destroyRequested := b } := by
  unfold destroy
  split
  · exact ⟨_, rfl⟩
  · split
    · exact ⟨_, rfl⟩
    · rename_i h
      obtain ⟨-, -, rfl⟩ := takeRequestId_eq_some h
      exact ⟨true, by simp⟩

@[simp] theorem destroy_registry (cause : Option DestroyCause) :
    (d.destroy cause).2.registry = d.registry := by
  unfold destroy
  split
  · rfl
  · split
    · rfl
    · rename_i h
      obtain ⟨-, -, rfl⟩ := takeRequestId_eq_some h
      simp

theorem destroy_extends (hP : ∀ a, a.IsReport → P a) (cause : Option DestroyCause)
    (hreq : ∀ r ps e, P (.control (.destroy r) (some .destroy) ps e)) :
    Extends P d.trace (d.destroy cause).2.trace := by
  unfold destroy
  split
  · exact .refl P _
  · split
    · exact extends_report _ hP trivial
    · rename_i h
      obtain ⟨-, -, rfl⟩ := takeRequestId_eq_some h
      exact dispatch_extends { d with
        nextRequestId := d.nextRequestId + 1
        destroyRequested := true } hP _ (hreq _)

/-- What a command adds to the trace. -/
theorem onCommand_extends (hP : ∀ a, a.IsReport → P a) (c : SessionCommand)
    (hreq : ∀ r kind ps e, P (.control r kind ps e))
    (hmessage : ∀ m reason b, c = .sendMessage m →
      P (.event (.message none m.identity.1 m.identity.2 (.notSent reason)) b)) :
    Extends P d.trace (d.onCommand c).2.trace := by
  cases c with
  | subscribe key spec => exact d.subscribe_extends hP spec fun _ _ _ => hreq _ _ _ _
  | unsubscribe key => exact d.unsubscribe_extends hP key fun _ _ _ => hreq _ _ _ _
  | reconfigure key f => exact d.reconfigure_extends hP key f fun _ _ _ => hreq _ _ _ _
  | sendMessage m =>
    exact d.sendMessage_extends hP m (fun _ _ => hmessage _ _ _ rfl) fun _ _ _ => hreq _ _ _ _
  | forceRebind b => exact d.forceRebind_extends hP b fun _ _ _ => hreq _ _ _ _
  | destroy cause => exact d.destroy_extends hP cause fun _ _ _ => hreq _ _ _ _
  | shutdown => exact .refl P _

/-- All commands but to subscribe and to unsubscribe leave the registry alone. -/
theorem onCommand_registry {c : SessionCommand} (hsubscribe : ∀ key spec, c ≠ .subscribe key spec)
    (hunsubscribe : ∀ key, c ≠ .unsubscribe key) : (d.onCommand c).2.registry = d.registry := by
  cases c with
  | subscribe key spec => exact absurd rfl (hsubscribe key spec)
  | unsubscribe key => exact absurd rfl (hunsubscribe key)
  | _ => simp [onCommand]

/-- The commands leave the lifecycle alone, but for the note that a destroy was asked for. -/
theorem onCommand_toLifecycle (c : SessionCommand) :
    ∃ b, (d.onCommand c).2.toLifecycle = { d.toLifecycle with destroyRequested := b } := by
  cases c with
  | destroy cause => exact d.destroy_toLifecycle cause
  | _ => exact ⟨d.destroyRequested, by simp [onCommand]⟩

/-- A command keeps the pump going or ends the run. -/
theorem onCommand_flow (c : SessionCommand) :
    (d.onCommand c).1 = .continue ∨ ∃ closed, (d.onCommand c).1 = .closed closed := by
  cases c with
  | destroy cause =>
    simp only [onCommand, destroy]
    split
    · exact .inr ⟨_, rfl⟩
    · split
      · exact .inr ⟨_, rfl⟩
      · dsimp only
        split
        · exact .inl rfl
        · exact .inr ⟨_, rfl⟩
  | shutdown => exact .inr ⟨_, rfl⟩
  | _ => exact .inl rfl

/-! ## Responses -/

@[simp] theorem takePending_toLifecycle (id : String) :
    (d.takePending id).2.toLifecycle = d.toLifecycle := by
  unfold takePending
  split <;> rfl

@[simp] theorem takePending_registry (id : String) :
    (d.takePending id).2.registry = d.registry := by
  unfold takePending
  split <;> rfl

@[simp] theorem takePending_nextRequestId (id : String) :
    (d.takePending id).2.nextRequestId = d.nextRequestId := by
  unfold takePending
  split <;> rfl

@[simp] theorem takePending_forceRebindOutstanding (id : String) :
    (d.takePending id).2.forceRebindOutstanding = d.forceRebindOutstanding := by
  unfold takePending
  split <;> rfl

@[simp] theorem takePending_toSurroundings (id : String) :
    (d.takePending id).2.toSurroundings = d.toSurroundings := by
  unfold takePending
  split <;> rfl

@[simp] theorem takePending_pending (id : String) :
    (d.takePending id).2.pending = d.pending.erase id := by
  unfold takePending
  split
  · rename_i h
    refine OrdMap.ext_get? fun k => ?_
    by_cases hk : k = id <;> simp [hk, h]
  · rfl

/-- What a response finds: the pending request it names, if the current session issued it. -/
theorem takePending_eq_some {d : SessionDriver} {id : String} {kind : PendingKind} :
    (d.takePending id).1 = some kind ↔ d.pending.get? id = some ⟨kind, d.generation⟩ := by
  unfold takePending
  cases h : d.pending.get? id with
  | none => simp
  | some pending =>
    obtain ⟨k, g⟩ := pending
    by_cases hg : g = d.generation <;> simp [hg]

@[simp] theorem acceptRequest_toLifecycle (kind : Option PendingKind) :
    (d.acceptRequest kind).toLifecycle = d.toLifecycle := by
  unfold acceptRequest
  split <;> rfl

@[simp] theorem acceptRequest_toSurroundings (kind : Option PendingKind) :
    (d.acceptRequest kind).toSurroundings = d.toSurroundings := by
  unfold acceptRequest
  split <;> rfl

@[simp] theorem acceptRequest_pending (kind : Option PendingKind) :
    (d.acceptRequest kind).pending = d.pending := by
  unfold acceptRequest
  split <;> rfl

@[simp] theorem acceptRequest_nextRequestId (kind : Option PendingKind) :
    (d.acceptRequest kind).nextRequestId = d.nextRequestId := by
  unfold acceptRequest
  split <;> rfl

@[simp] theorem respond_toLifecycle (id : String) (kind : Option PendingKind)
    (outcome : ControlOutcome) : (d.respond id kind outcome).toLifecycle = d.toLifecycle := rfl

@[simp] theorem respond_toDesk (id : String) (kind : Option PendingKind)
    (outcome : ControlOutcome) : (d.respond id kind outcome).toDesk = d.toDesk := rfl

@[simp] theorem onRequestOk_toLifecycle (id : Option String) :
    (d.onRequestOk id).toLifecycle = d.toLifecycle := by
  cases id <;> simp [onRequestOk]

/-- A `REQOK` commits a frequency at most. -/
theorem onRequestOk_registry (id : Option String) :
    (d.onRequestOk id).registry = d.registry ∨
      ∃ key f, (d.onRequestOk id).registry = d.registry.commitFrequency key f := by
  cases id with
  | none => exact .inl rfl
  | some id =>
    simp only [onRequestOk, respond_toDesk, acceptRequest]
    split
    · exact .inr ⟨_, _, by rw [takePending_registry]⟩
    · exact .inl (takePending_registry d id)

/-- What is pending after a `REQOK` was pending before it. -/
theorem pending_of_onRequestOk {id : Option String} {k : String} {p : Pending}
    (h : (d.onRequestOk id).pending.get? k = some p) : d.pending.get? k = some p := by
  cases id with
  | none => exact h
  | some id =>
    simp only [onRequestOk, respond_toDesk, acceptRequest_pending, takePending_pending] at h
    exact OrdMap.get?_of_erase h

theorem onRequestOk_extends (hP : ∀ a, a.IsReport → P a) (id : Option String) :
    Extends P d.trace (d.onRequestOk id).trace := by
  cases id with
  | none => exact .refl P _
  | some id =>
    have h := extends_report ((d.takePending id).2.acceptRequest (d.takePending id).1) hP
      (e := .controlResponse (RequestId.tryNew id).toOption
        (((d.takePending id).1.map PendingKind.target).getD .session) .accepted) trivial
    simpa [onRequestOk, respond] using h

/-- A refusal leaves the lifecycle alone, but for the note that a destroy was asked for. -/
theorem undoRequest_toLifecycle (cause : ServerCause) (kind : Option PendingKind) :
    (d.undoRequest cause kind).toLifecycle =
      { d.toLifecycle with
        destroyRequested := d.destroyRequested && kind ≠ some .destroy } := by
  unfold undoRequest
  split <;> simp [*]

@[simp] theorem undoRequest_pending (cause : ServerCause) (kind : Option PendingKind) :
    (d.undoRequest cause kind).pending = d.pending := by
  unfold undoRequest
  split <;> rfl

@[simp] theorem undoRequest_nextRequestId (cause : ServerCause) (kind : Option PendingKind) :
    (d.undoRequest cause kind).nextRequestId = d.nextRequestId := by
  unfold undoRequest
  split <;> rfl

theorem undoRequest_extends (cause : ServerCause) (kind : Option PendingKind)
    (hevent : ∀ s p b, kind = some (.sendMessage s p) →
      P (.event (.message none s p (.refused cause)) b)) :
    Extends P d.trace (d.undoRequest cause kind).trace := by
  unfold undoRequest
  split
  case h_3 s p => exact extends_emit _ fun b => hevent s p b rfl
  all_goals exact .refl P _

/-- A `REQERR` leaves the lifecycle alone, unless it refuses a destroy. -/
theorem onRequestError_toLifecycle (id : String) (cause : ServerCause) :
    (d.onRequestError id cause).toLifecycle =
      { d.toLifecycle with
        destroyRequested := d.destroyRequested && (d.takePending id).1 ≠ some .destroy } := by
  have h := undoRequest_toLifecycle (d.takePending id).2 cause (d.takePending id).1
  simpa [onRequestError] using h

/-- A `REQERR` drops the subscription that was refused, or keeps the one whose removal was. -/
theorem onRequestError_registry (id : String) (cause : ServerCause) :
    (d.onRequestError id cause).registry = d.registry ∨
      ∃ key, ((d.takePending id).1 = some (.subscribe key) ∧
          (d.onRequestError id cause).registry = d.registry.drop key) ∨
        ((d.takePending id).1 = some (.unsubscribe key) ∧
          (d.onRequestError id cause).registry = d.registry.keep key) := by
  simp only [onRequestError, respond_toDesk, undoRequest]
  split
  case h_1 key hkey => exact .inr ⟨key, .inl ⟨hkey, by rw [takePending_registry]⟩⟩
  case h_2 key hkey => exact .inr ⟨key, .inr ⟨hkey, by rw [takePending_registry]⟩⟩
  all_goals exact .inl (takePending_registry d id)

/-- What is pending after a `REQERR` was pending before it. -/
theorem pending_of_onRequestError {id : String} {cause : ServerCause} {k : String} {p : Pending}
    (h : (d.onRequestError id cause).pending.get? k = some p) : d.pending.get? k = some p := by
  simp only [onRequestError, respond_toDesk, undoRequest_pending, takePending_pending] at h
  exact OrdMap.get?_of_erase h

theorem onRequestError_extends (hP : ∀ a, a.IsReport → P a) (id : String) (cause : ServerCause)
    (hevent : ∀ s p b, (d.takePending id).1 = some (.sendMessage s p) →
      P (.event (.message none s p (.refused cause)) b)) :
    Extends P d.trace (d.onRequestError id cause).trace := by
  have h := undoRequest_extends (d.takePending id).2 cause _ hevent
  rw [takePending_toSurroundings] at h
  exact h.trans (extends_report _ hP trivial)

/-! ## Retirement -/

@[simp] theorem retireOne_toLifecycle (id : String) (kind : PendingKind) :
    (d.retireOne id kind).toLifecycle = d.toLifecycle := by
  unfold retireOne
  cases kind <;> rfl

@[simp] theorem retireOne_registry (id : String) (kind : PendingKind) :
    (d.retireOne id kind).registry = d.registry := by
  unfold retireOne
  cases kind <;> rfl

@[simp] theorem retireOne_pending (id : String) (kind : PendingKind) :
    (d.retireOne id kind).pending = d.pending := by
  unfold retireOne
  cases kind <;> rfl

@[simp] theorem retireOne_nextRequestId (id : String) (kind : PendingKind) :
    (d.retireOne id kind).nextRequestId = d.nextRequestId := by
  unfold retireOne
  cases kind <;> rfl

theorem retireOne_extends (hP : ∀ a, a.IsReport → P a) (id : String) (kind : PendingKind)
    (hevent : ∀ s p reason b, kind = .sendMessage s p →
      P (.event (.message none s p (.notSent reason)) b)) :
    Extends P d.trace (d.retireOne id kind).trace := by
  unfold retireOne
  cases kind with
  | sendMessage s p =>
    exact (d.extends_emit fun b => hevent s p _ b rfl).trans (extends_report _ hP trivial)
  | _ => exact extends_report _ hP trivial

section retire

variable (l : List (String × Pending))

@[simp] theorem retireAll_toLifecycle :
    (d.retireAll l).toLifecycle = d.toLifecycle := by
  induction l generalizing d with
  | nil => rfl
  | cons p l ih => simp [retireAll, ih]

@[simp] theorem retireAll_registry :
    (d.retireAll l).registry = d.registry := by
  induction l generalizing d with
  | nil => rfl
  | cons p l ih => simp [retireAll, ih]

@[simp] theorem retireAll_pending :
    (d.retireAll l).pending = d.pending := by
  induction l generalizing d with
  | nil => rfl
  | cons p l ih => simp [retireAll, ih]

@[simp] theorem retireAll_nextRequestId :
    (d.retireAll l).nextRequestId = d.nextRequestId := by
  induction l generalizing d with
  | nil => rfl
  | cons p l ih => simp [retireAll, ih]

theorem retireAll_extends (hP : ∀ a, a.IsReport → P a)
    (hevent : ∀ p ∈ l, ∀ s n reason b, p.2.kind = .sendMessage s n →
      P (.event (.message none s n (.notSent reason)) b)) :
    Extends P d.trace (d.retireAll l).trace := by
  induction l generalizing d with
  | nil => exact .refl P _
  | cons p l ih =>
    exact (d.retireOne_extends hP p.1 p.2.kind (hevent p List.mem_cons_self)).trans
      (ih _ fun q hq => hevent q (List.mem_cons_of_mem _ hq))

end retire

@[simp] theorem retireStalePending_toLifecycle :
    d.retireStalePending.toLifecycle = d.toLifecycle := by
  simp [retireStalePending]

@[simp] theorem retireStalePending_registry : d.retireStalePending.registry = d.registry := by
  simp [retireStalePending]

@[simp] theorem retireStalePending_pending :
    d.retireStalePending.pending =
      d.pending.filter fun _ pending => pending.generation = d.generation := by
  simp [retireStalePending]

@[simp] theorem retireStalePending_nextRequestId :
    d.retireStalePending.nextRequestId = d.nextRequestId := by
  simp [retireStalePending]

theorem retireStalePending_extends (hP : ∀ a, a.IsReport → P a)
    (hevent : ∀ s p reason b, P (.event (.message none s p (.notSent reason)) b)) :
    Extends P d.trace d.retireStalePending.trace :=
  retireAll_extends { d with pending := _ } _ hP fun _ _ s p reason b _ => hevent s p reason b

/-! ## Data notifications -/

@[simp] theorem interpretForSubscription_toLifecycle (n : ℕ) (notification : Notification) :
    (d.interpretForSubscription n notification).2.toLifecycle = d.toLifecycle := by
  unfold interpretForSubscription
  split
  · rfl
  · split <;> rfl

@[simp] theorem interpretForSubscription_toSurroundings (n : ℕ) (notification : Notification) :
    (d.interpretForSubscription n notification).2.toSurroundings = d.toSurroundings := by
  unfold interpretForSubscription
  split
  · rfl
  · split <;> rfl

@[simp] theorem interpretForSubscription_pending (n : ℕ) (notification : Notification) :
    (d.interpretForSubscription n notification).2.pending = d.pending := by
  unfold interpretForSubscription
  split
  · rfl
  · split <;> rfl

@[simp] theorem interpretForSubscription_nextRequestId (n : ℕ) (notification : Notification) :
    (d.interpretForSubscription n notification).2.nextRequestId = d.nextRequestId := by
  unfold interpretForSubscription
  split
  · rfl
  · split <;> rfl

theorem resolveSubscription_eq_some {d : SessionDriver} {notification : Notification} {subId : ℕ}
    {key : SubscriptionKey} (h : d.resolveSubscription notification = some (subId, key)) :
    subscriptionId notification = some subId ∧ d.registry.bySubId.get? subId = some key := by
  simp only [resolveSubscription, Option.bind_eq_bind, Option.bind_eq_some_iff, Option.pure_def,
    Option.some.injEq, Prod.mk.injEq] at h
  obtain ⟨id, hid, k, hk, rfl, rfl⟩ := h
  exact ⟨hid, hk⟩

/-- What interpreting a notification does to the registry. -/
theorem interpretForSubscription_registry (n : ℕ) (notification : Notification) :
    (d.interpretForSubscription n notification).2.registry = d.registry ∨
      ∃ subId key manager, d.resolveSubscription notification = some (subId, key) ∧
        (d.interpretForSubscription n notification).2.registry =
          registryAfter d.registry subId key manager notification := by
  unfold interpretForSubscription
  split
  · exact .inl rfl
  · rename_i subId key h
    split
    · exact .inl rfl
    · exact .inr ⟨subId, key, _, h, rfl⟩

/-- The event of a subscription carries the position of the notification. -/
theorem interpretForSubscription_position {d : SessionDriver} {k : ℕ} {notification : Notification}
    {e : SessionEvent} (h : (d.interpretForSubscription k notification).1 = some e) :
    ∃ key outcome, e = .subscription k key outcome := by
  unfold interpretForSubscription at h
  split at h
  · cases h
  · split at h
    · cases h
    · obtain ⟨outcome, -, rfl⟩ := Option.map_eq_some_iff.1 h
      exact ⟨_, outcome, rfl⟩

@[simp] theorem notifySubscription_toLifecycle (notification : Notification) :
    (d.notifySubscription notification).toLifecycle = d.toLifecycle := by
  unfold notifySubscription
  dsimp only
  split <;> simp

@[simp] theorem notifySubscription_pending (notification : Notification) :
    (d.notifySubscription notification).pending = d.pending := by
  unfold notifySubscription
  dsimp only
  split <;> simp

@[simp] theorem notifySubscription_nextRequestId (notification : Notification) :
    (d.notifySubscription notification).nextRequestId = d.nextRequestId := by
  unfold notifySubscription
  dsimp only
  split <;> simp

theorem notifySubscription_registry (notification : Notification) :
    (d.notifySubscription notification).registry =
      (d.interpretForSubscription d.progressive notification).2.registry := by
  unfold notifySubscription
  dsimp only
  split <;> simp

theorem notifySubscription_extends (notification : Notification)
    (hsubscription : ∀ k key outcome b, P (.event (.subscription k key outcome) b)) :
    Extends P d.trace (d.notifySubscription notification).trace := by
  unfold notifySubscription
  dsimp only
  split
  · rename_i e he
    obtain ⟨key, outcome, rfl⟩ := interpretForSubscription_position he
    simpa using extends_emit (d.interpretForSubscription d.progressive notification).2
      (hsubscription d.progressive key outcome)
  · simp

@[simp] theorem deliver_toLifecycle (notification : Notification) :
    (d.deliver notification).toLifecycle = d.toLifecycle := by
  unfold deliver
  dsimp only
  split <;> simp

@[simp] theorem deliver_pending (notification : Notification) :
    (d.deliver notification).pending = d.pending := by
  unfold deliver
  dsimp only
  split <;> simp

@[simp] theorem deliver_nextRequestId (notification : Notification) :
    (d.deliver notification).nextRequestId = d.nextRequestId := by
  unfold deliver
  dsimp only
  split <;> simp

/-- What passing a notification on does to the registry. -/
theorem deliver_registry (notification : Notification) :
    (d.deliver notification).registry = d.registry ∨
      ∃ subId key manager, d.resolveSubscription notification = some (subId, key) ∧
        (d.deliver notification).registry =
          registryAfter d.registry subId key manager notification := by
  unfold deliver
  dsimp only
  split
  · exact .inl rfl
  · exact .inl rfl
  · rw [notifySubscription_registry]
    exact interpretForSubscription_registry (d.act _) _ _

theorem deliver_extends (notification : Notification)
    (hdata : P (.data d.progressive notification))
    (hmessage : ∀ k s p result b, P (.event (.message (some k) s p result) b))
    (hsubscription : ∀ k key outcome b, P (.event (.subscription k key outcome) b)) :
    Extends P d.trace (d.deliver notification).trace := by
  have ht : Extends P d.trace (d.act (.data d.progressive notification)).trace := .one hdata _
  unfold deliver
  dsimp only
  split
  · exact ht.trans (extends_emit _ (hmessage _ _ _ _))
  · exact ht.trans (extends_emit _ (hmessage _ _ _ _))
  · exact ht.trans (notifySubscription_extends _ _ hsubscription)

/-- The count of data notifications after one more. -/
def bump (progressive : ℕ) : ℕ := (checkedAdd u64Max progressive 1).getD progressive

theorem onData_of_skip {d : SessionDriver} (h : 0 < d.skipRemaining) (n : Notification) :
    d.onData n = { d with refreshStreak := 0, skipRemaining := d.skipRemaining - 1 } := by
  simp [onData, h]

theorem onData_of_no_skip {d : SessionDriver} (h : d.skipRemaining = 0) (n : Notification) :
    d.onData n =
      deliver { d with refreshStreak := 0, progressive := bump d.progressive } n := by
  simp [onData, h, bump]

theorem onData_toLifecycle (n : Notification) :
    (d.onData n).toLifecycle = { d.toLifecycle with
      refreshStreak := 0
      skipRemaining := d.skipRemaining - 1
      progressive := if d.skipRemaining = 0 then bump d.progressive else d.progressive } := by
  rcases Nat.eq_zero_or_pos d.skipRemaining with h | h
  · rw [onData_of_no_skip h]
    simp [h]
  · rw [onData_of_skip h]
    simp [h.ne']

@[simp] theorem onData_pending (n : Notification) : (d.onData n).pending = d.pending := by
  unfold onData
  dsimp only
  split <;> simp

@[simp] theorem onData_nextRequestId (n : Notification) :
    (d.onData n).nextRequestId = d.nextRequestId := by
  unfold onData
  dsimp only
  split <;> simp

/-- What a data notification does to the registry, unless it is discarded. -/
theorem onData_registry (n : Notification) :
    (d.onData n).registry = d.registry ∨
      d.skipRemaining = 0 ∧ ∃ subId key manager, d.resolveSubscription n = some (subId, key) ∧
        (d.onData n).registry = registryAfter d.registry subId key manager n := by
  rcases Nat.eq_zero_or_pos d.skipRemaining with h | h
  · rw [onData_of_no_skip h]
    exact (deliver_registry _ n).imp_right fun h' => ⟨h, h'⟩
  · rw [onData_of_skip h]
    exact .inl rfl

theorem onData_extends (n : Notification) (hdata : ∀ k, P (.data k n))
    (hmessage : ∀ k s p result b, P (.event (.message (some k) s p result) b))
    (hsubscription : ∀ k key outcome b, P (.event (.subscription k key outcome) b)) :
    Extends P d.trace (d.onData n).trace := by
  rcases Nat.eq_zero_or_pos d.skipRemaining with h | h
  · rw [onData_of_no_skip h]
    exact deliver_extends { d with refreshStreak := 0, progressive := bump d.progressive } n
      (hdata _) hmessage hsubscription
  · rw [onData_of_skip h]

/-! ## Session notifications -/

@[simp] theorem freshSession_toLifecycle :
    d.freshSession.toLifecycle = { d.toLifecycle with
      progressive := 0
      skipRemaining := 0
      generation := saturatingAdd u64Max d.generation 1 } := by
  simp [freshSession]

@[simp] theorem freshSession_registry :
    d.freshSession.registry = d.registry.resetForNewSession := by
  simp [freshSession]

@[simp] theorem freshSession_nextRequestId : d.freshSession.nextRequestId = d.nextRequestId := by
  simp [freshSession]

theorem freshSession_extends (hP : ∀ a, a.IsReport → P a)
    (hevent : ∀ s p reason b, P (.event (.message none s p (.notSent reason)) b)) :
    Extends P d.trace d.freshSession.trace :=
  retireStalePending_extends { d with
    progressive := 0
    skipRemaining := 0
    registry := d.registry.resetForNewSession
    generation := saturatingAdd u64Max d.generation 1 } hP hevent

variable (sid : SessionId) (keepAlive : ℕ) (link : Option String) (kind : BindKind)

theorem enterSession_toLifecycle :
    (d.enterSession sid keepAlive link kind).toLifecycle = { d.toLifecycle with
      streamState := .bound
      negotiatedKeepAlive := some keepAlive
      backoff := d.backoff.reset
      session := some sid
      previousSession := none
      progressive := if kind.isFresh then 0 else d.progressive
      skipRemaining := if kind.isFresh then 0 else d.skipRemaining
      generation := if kind.isFresh then saturatingAdd u64Max d.generation 1
        else d.generation } := by
  unfold enterSession
  dsimp only
  split <;> simp [*]

theorem enterSession_registry :
    (d.enterSession sid keepAlive link kind).registry =
      if kind.isFresh then d.registry.resetForNewSession else d.registry := by
  unfold enterSession
  dsimp only
  split <;> simp

@[simp] theorem enterSession_nextRequestId :
    (d.enterSession sid keepAlive link kind).nextRequestId = d.nextRequestId := by
  unfold enterSession
  dsimp only
  split <;> simp

theorem enterSession_extends (hP : ∀ a, a.IsReport → P a)
    (hevent : ∀ s p reason b, kind.isFresh → P (.event (.message none s p (.notSent reason)) b)) :
    Extends P d.trace (d.enterSession sid keepAlive link kind).trace := by
  have hlink : Extends P d.trace (d.trace ++ [.setControlLink link]) :=
    .one (hP (.setControlLink link) trivial) _
  unfold enterSession
  dsimp only
  split
  · rename_i h
    exact hlink.trans (freshSession_extends _ hP fun s p reason b => hevent s p reason b h)
  · exact hlink

variable (limit : ℕ)

/-- The kind that a `CONOK` naming `sid` would be reported as. -/
def conokKind (d : SessionDriver) (sid : SessionId) : BindKind :=
  bindKind d.intent (d.session <|> d.previousSession) sid

/-- The driver just before the subscriptions without a binding are issued. -/
def announced (d : SessionDriver) (sid : SessionId) (limit keepAlive : ℕ) (link : Option String) :
    SessionDriver :=
  (d.enterSession sid keepAlive link (d.conokKind sid)).emit
    (.bound ⟨sid, d.conokKind sid, keepAlive, limit, link⟩)

theorem onConok_eq :
    d.onConok sid limit keepAlive link =
      (d.announced sid limit keepAlive link).issueUnboundSubscriptions := rfl

theorem onConok_toLifecycle :
    (d.onConok sid limit keepAlive link).toLifecycle =
      (d.enterSession sid keepAlive link (d.conokKind sid)).toLifecycle := by
  rw [onConok_eq]
  simp [announced]

theorem onConok_extends (hP : ∀ a, a.IsReport → P a)
    (hreq : ∀ r kind ps e, P (.control r kind ps e))
    (hmessage : ∀ s p result b, P (.event (.message none s p result) b))
    (hbound : ∀ b, P (.event (.bound ⟨sid, d.conokKind sid, keepAlive, limit, link⟩) b)) :
    Extends P d.trace (d.onConok sid limit keepAlive link).trace := by
  have henter := d.enterSession_extends sid keepAlive link (d.conokKind sid) hP
    fun s p reason b _ => hmessage s p (.notSent reason) b
  exact (henter.trans (extends_emit _ hbound)).trans
    (issueUnboundSubscriptions_extends (d.announced sid limit keepAlive link) hP
      fun _ _ _ _ _ => hreq _ _ _ _)

end SessionDriver

end Lightstreamer.Session
