import Lightstreamer.Session.Correlation
import Lightstreamer.Session.Removal
import Mathlib.Data.List.Forall2
import Mathlib.Data.List.Nodup

/-!
# Re-execution after a new session

An `Attempt` is one try to add a subscription: the entry, the ids it goes out under, and what went
wrong, if anything did. `Issued` is what a list of attempts does to the driver: it holds of one call
of `issueSubscription` (`issueSubscription_issued`), and composes (`Issued.append`), so it holds of
the loop over the keys. A key whose attempt failed is `Idle`, and stays so until the next `CONOK`,
which tries it again.
-/

namespace Lightstreamer.Session

open Lightstreamer.Foundations Lightstreamer.Protocol Lightstreamer.Subscription

/-- The list of a `Resubscribed` event. -/
def Action.resubscribed : Action → Option (List ResubscribedEntry)
  | .event (.resubscribed entries) _ => some entries
  | _ => none

/-- An action that neither asks for a subscription nor lists any. -/
def Action.Aside (a : Action) : Prop := a.addKey = none ∧ a.resubscribed = none

theorem Action.IsLoop.aside {a : Action} (h : a.IsLoop) : a.Aside := by
  cases a with
  | event e b => cases e with
    | unbound | closed => exact ⟨rfl, rfl⟩
    | _ => cases h
  | openStream | close => exact ⟨rfl, rfl⟩
  | _ => cases h

/-- The event that tells the caller which requests left, if any did. -/
def announcement (reports : List ResubscribedEntry) (delivered : Bool) : List Action :=
  if reports.isEmpty then [] else [.event (.resubscribed reports) delivered]

/-! ## Attempts -/

/-- One try to add a subscription. -/
structure Attempt where
  key : SubscriptionKey
  entry : RegistryEntry
  subId : NonZeroU32
  requestId : RequestId
  error : Option String

namespace Attempt

/-- The `add` that is asked for: under the ids of the try, everything else as the specification of
the entry has it, with the acknowledgement that the protocol has by default. -/
def request (a : Attempt) (session : SessionId) : ControlRequest :=
  .subscribe {
    session := some session
    requestId := a.requestId
    subscriptionId := a.subId
    group := a.entry.spec.group
    schema := a.entry.spec.schema
    mode := a.entry.spec.mode
    dataAdapter := a.entry.spec.dataAdapter
    selector := a.entry.spec.selector
    requestedBufferSize := a.entry.spec.requestedBufferSize
    requestedMaxFrequency := a.entry.spec.requestedMaxFrequency
    snapshot := a.entry.spec.snapshot
    ack := none }

/-- What the caller is told when the request did not leave. -/
def unsent (a : Attempt) (error : String) (delivered : Bool) : Action :=
  .event (.controlResponse (some a.requestId) (.subscription a.key .subscribe) (.notSent error))
    delivered

/-- The entry after the try: bound when the transport took the request. -/
def after (a : Attempt) : RegistryEntry :=
  { a.entry with wire := if a.error.isNone then some a.subId else none, state := .pending }

/-- The line of the `Resubscribed` event about a request that was handed to the transport. -/
def report (a : Attempt) : Option ResubscribedEntry :=
  if a.error.isNone then some ⟨a.key, a.subId, a.entry.wasActive, a.entry.spec.wantsSnapshot⟩
  else none

/-- What one try adds to the trace: the transport takes the request, or refuses it, or the request
has no encoding. -/
inductive Shows (kind : TransportKind) (session : SessionId) (a : Attempt) : List Action → Prop
  | taken {parameters : String}
      (hencode : (a.request session).encodeParameters kind = .ok parameters)
      (herror : a.error = none) :
      Shows kind session a [.control (a.request session) (some (.subscribe a.key)) parameters none]
  | refused {parameters error : String} {b : Bool}
      (hencode : (a.request session).encodeParameters kind = .ok parameters)
      (herror : a.error = some error) :
      Shows kind session a
        [.control (a.request session) (some (.subscribe a.key)) parameters (some error),
          a.unsent error b]
  | unencoded {error : RequestError} {b : Bool}
      (hencode : (a.request session).encodeParameters kind = .error error)
      (herror : a.error = some error.display) :
      Shows kind session a [a.unsent error.display b]

end Attempt

namespace SessionDriver

/-- What the attempts do to the driver, one after the other. -/
structure Issued (session : SessionId) (d d' : SessionDriver) (attempts : List Attempt) : Prop where
  entries : ∀ a ∈ attempts, d.registry.entries.get? a.key = some a.entry
  subIds : attempts.map (fun a => a.subId.val) =
    List.range' d.registry.nextSubId attempts.length
  requestIds : attempts.map Attempt.requestId =
    (List.range' d.nextRequestId attempts.length).map .fromProgressive
  trace : ∃ blocks, List.Forall₂ (Attempt.Shows d.controlKind session) attempts blocks ∧
    d'.trace = d.trace ++ blocks.flatten
  lifecycle : d'.toLifecycle = d.toLifecycle
  tried : ∀ a ∈ attempts, d'.registry.entries.get? a.key = some a.after
  others : ∀ key, (∀ a ∈ attempts, a.key ≠ key) →
    d'.registry.entries.get? key = d.registry.entries.get? key
  bound : ∀ a ∈ attempts, d'.registry.bySubId.get? a.subId.val =
    if a.error.isNone then some a.key else none
  unbound : ∀ id, (∀ a ∈ attempts, a.subId.val ≠ id) →
    d'.registry.bySubId.get? id = d.registry.bySubId.get? id
  nextSubId : d'.registry.nextSubId = d.registry.nextSubId + attempts.length
  nextRequestId : d'.nextRequestId = d.nextRequestId + attempts.length
  pending : ∀ id p, d'.pending.get? id = some p → d.pending.get? id = some p ∨
    ∃ a ∈ attempts, a.error = none ∧ p.kind = .subscribe a.key

variable {session : SessionId} {d d' d'' : SessionDriver}

namespace Issued

theorem nil (session : SessionId) (d : SessionDriver) : Issued session d d [] where
  entries := by simp
  subIds := by simp
  requestIds := by simp
  trace := ⟨[], .nil, by simp⟩
  lifecycle := rfl
  tried := by simp
  others := fun _ _ => rfl
  bound := by simp
  unbound := fun _ _ => rfl
  nextSubId := by simp
  nextRequestId := by simp
  pending := fun _ _ h => .inl h

/-- The ids of the attempts lie from the next id on. -/
theorem subId_mem {attempts : List Attempt} (h : Issued session d d' attempts) {a : Attempt}
    (ha : a ∈ attempts) : d.registry.nextSubId ≤ a.subId.val ∧
      a.subId.val < d.registry.nextSubId + attempts.length := by
  have hmem : a.subId.val ∈ attempts.map (fun a => a.subId.val) := List.mem_map_of_mem ha
  rw [h.subIds, List.mem_range'_1] at hmem
  exact hmem

/-- Attempts with different keys compose. -/
theorem append {first second : List Attempt} (h : Issued session d d' first)
    (h' : Issued session d' d'' second) (hne : ∀ a ∈ first, ∀ b ∈ second, a.key ≠ b.key) :
    Issued session d d'' (first ++ second) := by
  have hids : ∀ a ∈ first, ∀ b ∈ second, a.subId.val ≠ b.subId.val := by
    intro a ha b hb
    have hlt := (h.subId_mem ha).2
    have hle := (h'.subId_mem hb).1
    rw [h.nextSubId] at hle
    omega
  obtain ⟨blocks, hblocks, htrace⟩ := h.trace
  obtain ⟨blocks', hblocks', htrace'⟩ := h'.trace
  refine ⟨?_, ?_, ?_, ⟨blocks ++ blocks', ?_, ?_⟩, h'.lifecycle.trans h.lifecycle, ?_, ?_, ?_, ?_,
    ?_, ?_, ?_⟩
  · intro a ha
    rcases List.mem_append.1 ha with ha | ha
    · exact h.entries a ha
    · rw [← h.others a.key fun b hb => hne b hb a ha]
      exact h'.entries a ha
  · rw [List.map_append, h.subIds, h'.subIds, h.nextSubId, List.length_append,
      List.range'_append_1]
  · rw [List.map_append, h.requestIds, h'.requestIds, h.nextRequestId, ← List.map_append,
      List.length_append, List.range'_append_1]
  · have hkind : d'.controlKind = d.controlKind := by
      rw [controlKind, controlKind, h.lifecycle]
    exact List.rel_append hblocks (hkind ▸ hblocks')
  · rw [htrace', htrace, List.flatten_append, List.append_assoc]
  · intro a ha
    rcases List.mem_append.1 ha with ha | ha
    · rw [h'.others a.key fun b hb => (hne a ha b hb).symm]
      exact h.tried a ha
    · exact h'.tried a ha
  · intro key hkey
    rw [h'.others key fun a ha => hkey a (List.mem_append_right _ ha),
      h.others key fun a ha => hkey a (List.mem_append_left _ ha)]
  · intro a ha
    rcases List.mem_append.1 ha with ha | ha
    · rw [h'.unbound a.subId.val fun b hb => (hids a ha b hb).symm]
      exact h.bound a ha
    · exact h'.bound a ha
  · intro id hid
    rw [h'.unbound id fun a ha => hid a (List.mem_append_right _ ha),
      h.unbound id fun a ha => hid a (List.mem_append_left _ ha)]
  · rw [h'.nextSubId, h.nextSubId, List.length_append, Nat.add_assoc]
  · rw [h'.nextRequestId, h.nextRequestId, List.length_append, Nat.add_assoc]
  · intro id p hp
    rcases h'.pending id p hp with hp | ⟨a, ha, hkind⟩
    · rcases h.pending id p hp with hp | ⟨a, ha, hkind⟩
      · exact .inl hp
      · exact .inr ⟨a, List.mem_append_left _ ha, hkind⟩
    · exact .inr ⟨a, List.mem_append_right _ ha, hkind⟩

/-- An attempt that failed and one that did not have different keys. -/
theorem key_ne {attempts : List Attempt} (h : Issued session d d' attempts) {a b : Attempt}
    (ha : a ∈ attempts) (herror : a.error ≠ none) (hb : b ∈ attempts) (hnone : b.error = none) :
    b.key ≠ a.key := fun hkey => by
  have hafter : a.after = b.after := by
    rw [← Option.some.injEq, ← h.tried a ha, ← h.tried b hb, hkey]
  have hwire := congrArg RegistryEntry.wire hafter
  simp [Attempt.after, hnone, herror] at hwire

end Issued

/-- The dispatch of an `add`, as an attempt. -/
theorem dispatch_shows (d : SessionDriver) (session : SessionId) (key : SubscriptionKey)
    (entry : RegistryEntry) (subId : NonZeroU32) (requestId : RequestId) :
    ∃ a : Attempt, ∃ error, a = ⟨key, entry, subId, requestId, error⟩ ∧
      (d.dispatch (a.request session) requestId (.subscribe key)).1 = error.isNone ∧
      (∃ block, a.Shows d.controlKind session block ∧
        (d.dispatch (a.request session) requestId (.subscribe key)).2.trace = d.trace ++ block) ∧
      ∀ id p, (d.dispatch (a.request session) requestId (.subscribe key)).2.pending.get? id =
        some p → d.pending.get? id = some p ∨ error = none ∧ p.kind = .subscribe key := by
  unfold dispatch
  cases hencode : (Attempt.request ⟨key, entry, subId, requestId, none⟩ session).encodeParameters
    d.controlKind with
  | error error =>
    have hencode' : (Attempt.request ⟨key, entry, subId, requestId, some error.display⟩
        session).encodeParameters d.controlKind = .error error := hencode
    refine ⟨_, some error.display, rfl, ?_⟩
    rw [hencode']
    exact ⟨rfl, ⟨_, .unencoded hencode' rfl, rfl⟩, fun id p hp => .inl hp⟩
  | ok parameters =>
    cases hsend : d.turn.sends.headD none with
    | none =>
      refine ⟨_, none, rfl, ?_⟩
      rw [hencode]
      simp only [send, hsend]
      refine ⟨rfl, ⟨_, .taken hencode rfl, rfl⟩, fun id p hp => ?_⟩
      simp only [clocked_pending, OrdMap.get?_insert] at hp
      split at hp
      · cases hp
        exact .inr ⟨trivial, rfl⟩
      · exact .inl hp
    | some error =>
      have hencode' : (Attempt.request ⟨key, entry, subId, requestId, some error⟩
          session).encodeParameters d.controlKind = .ok parameters := hencode
      refine ⟨_, some error, rfl, ?_⟩
      rw [hencode']
      simp only [send, hsend]
      refine ⟨rfl, ⟨_, .refused (b := !d.turn.interrupts.headD false) hencode' rfl, ?_⟩,
        fun id p hp => ?_⟩
      · simp [emit, Attempt.unsent, PendingKind.target]
      · simp only [emit_toDesk, OrdMap.get?_erase, OrdMap.get?_insert] at hp
        split at hp
        · cases hp
        · exact .inl hp

/-- The driver as it hands over the request of an attempt. -/
def sender (d : SessionDriver) (key : SubscriptionKey) (subId : NonZeroU32) : SessionDriver :=
  { d with
    registry := Registry.bind { d.registry with nextSubId := d.registry.nextSubId + 1 } key subId
    nextRequestId := d.nextRequestId + 1 }

theorem issueSubscription_eq {key : SubscriptionKey} {entry : RegistryEntry} {subId : NonZeroU32}
    (hsession : d.session = some session) (hentry : d.registry.entries.get? key = some entry)
    (hsubId : subId.val = d.registry.nextSubId) (hlt : d.registry.nextSubId < u32Max)
    (hrequestIds : d.nextRequestId < u64Max) :
    d.issueSubscription key =
      let sent := (d.sender key subId).dispatch (.subscribe (subscribeRequest session
        (.fromProgressive d.nextRequestId) subId entry.spec)) (.fromProgressive d.nextRequestId)
        (.subscribe key)
      if sent.1 then (some ⟨key, subId, entry.wasActive, entry.spec.wantsSnapshot⟩, sent.2)
      else (none, { sent.2 with registry := sent.2.registry.release key subId }) := by
  have hallocate : d.registry.allocate =
      some (subId, { d.registry with nextSubId := d.registry.nextSubId + 1 }) := by
    have hid : NonZeroU32.new? d.registry.nextSubId = some subId := by
      rw [← hsubId, NonZeroU32.new?, dif_pos ⟨subId.pos, subId.le⟩]
    simp [Registry.allocate, hid, checkedAdd, Nat.succ_le_of_lt hlt]
  have htake : ∀ registry, takeRequestId { d with registry := registry } =
      some (.fromProgressive d.nextRequestId,
        { d with registry := registry, nextRequestId := d.nextRequestId + 1 }) := fun registry => by
    simp [takeRequestId, checkedAdd, Nat.succ_le_of_lt hrequestIds]
  unfold issueSubscription
  simp only [hsession, hallocate, hentry, sendSubscribe, htake]
  rfl

/-- One attempt, from what it leaves of the registry: the binding, or the binding released. -/
theorem Issued.one {a : Attempt} (hentry : d.registry.entries.get? a.key = some a.entry)
    (hsubId : a.subId.val = d.registry.nextSubId)
    (hrequestId : a.requestId = .fromProgressive d.nextRequestId)
    (htrace : ∃ block, a.Shows d.controlKind session block ∧ d'.trace = d.trace ++ block)
    (hlifecycle : d'.toLifecycle = d.toLifecycle)
    (hregistry : d'.registry = if a.error.isNone then (d.sender a.key a.subId).registry
      else (d.sender a.key a.subId).registry.release a.key a.subId)
    (hnext : d'.nextRequestId = d.nextRequestId + 1)
    (hpending : ∀ id p, d'.pending.get? id = some p → d.pending.get? id = some p ∨
      a.error = none ∧ p.kind = .subscribe a.key) :
    Issued session d d' [a] := by
  obtain ⟨block, hshows, htrace⟩ := htrace
  refine ⟨?_, ?_, ?_, ⟨[block], .cons hshows .nil, by simpa using htrace⟩, hlifecycle, ?_, ?_, ?_,
    ?_, ?_, hnext, ?_⟩
  · simpa using hentry
  · simpa using hsubId
  · simpa using hrequestId
  · intro b hb
    rw [List.mem_singleton.1 hb, hregistry]
    cases herror : a.error <;>
      simp [sender, Registry.bind, Registry.release, Attempt.after, hentry, herror]
  · intro key hkey
    have hne : key ≠ a.key := (hkey a List.mem_cons_self).symm
    rw [hregistry]
    split <;> simp [sender, Registry.bind, Registry.release, hne]
  · intro b hb
    rw [List.mem_singleton.1 hb, hregistry]
    split <;> simp [sender, Registry.bind, Registry.release]
  · intro id hid
    have hne : id ≠ a.subId.val := (hid a List.mem_cons_self).symm
    rw [hregistry]
    split <;> simp [sender, Registry.bind, Registry.release, hne]
  · rw [hregistry]
    split <;> rfl
  · intro id p hp
    exact (hpending id p hp).imp_right fun h => ⟨a, List.mem_cons_self, h⟩

/-- **One attempt.** With a session bound and an id of each kind left, a subscription in the
registry is tried once. -/
theorem issueSubscription_issued {key : SubscriptionKey} {entry : RegistryEntry}
    (hsession : d.session = some session) (hentry : d.registry.entries.get? key = some entry)
    (hpos : 0 < d.registry.nextSubId) (hlt : d.registry.nextSubId < u32Max)
    (hrequestIds : d.nextRequestId < u64Max) :
    ∃ a : Attempt, a.key = key ∧ (d.issueSubscription key).1 = a.report ∧
      Issued session d (d.issueSubscription key).2 [a] := by
  obtain ⟨subId, hsubId⟩ : ∃ subId : NonZeroU32, subId.val = d.registry.nextSubId :=
    ⟨⟨_, hpos, hlt.le⟩, rfl⟩
  obtain ⟨a, error, rfl, hsent, ⟨block, hshows, htrace⟩, hpending⟩ :=
    (d.sender key subId).dispatch_shows session key entry subId (.fromProgressive d.nextRequestId)
  refine ⟨⟨key, entry, subId, .fromProgressive d.nextRequestId, error⟩, rfl, ?_⟩
  rw [issueSubscription_eq hsession hentry hsubId hlt hrequestIds]
  have hregistry := (d.sender key subId).dispatch_registry (.subscribe (subscribeRequest session
    (.fromProgressive d.nextRequestId) subId entry.spec)) (.fromProgressive d.nextRequestId)
    (.subscribe key)
  have hlifecycle := (d.sender key subId).dispatch_toLifecycle (.subscribe (subscribeRequest
    session (.fromProgressive d.nextRequestId) subId entry.spec))
    (.fromProgressive d.nextRequestId) (.subscribe key)
  have hnext := (d.sender key subId).dispatch_nextRequestId (.subscribe (subscribeRequest
    session (.fromProgressive d.nextRequestId) subId entry.spec))
    (.fromProgressive d.nextRequestId) (.subscribe key)
  have hrequest : Attempt.request ⟨key, entry, subId, .fromProgressive d.nextRequestId, error⟩
      session = .subscribe (subscribeRequest session (.fromProgressive d.nextRequestId) subId
        entry.spec) := rfl
  revert hsent htrace hpending hregistry hlifecycle hnext
  rw [hrequest]
  dsimp only
  generalize (d.sender key subId).dispatch (.subscribe (subscribeRequest session
    (.fromProgressive d.nextRequestId) subId entry.spec)) (.fromProgressive d.nextRequestId)
    (.subscribe key) = sent
  intro hsent hpending htrace hregistry hlifecycle hnext
  rw [hsent]
  cases error with
  | none =>
    exact ⟨rfl, .one hentry hsubId rfl ⟨block, hshows, htrace⟩ hlifecycle hregistry hnext hpending⟩
  | some error =>
    exact ⟨rfl, .one hentry hsubId rfl ⟨block, hshows, htrace⟩ hlifecycle
      (congrArg (Registry.release · key subId) hregistry) hnext hpending⟩

/-- **The loop over the keys.** Every key is tried once, in order. -/
theorem issueAll_issued {keys : List SubscriptionKey} (hsession : d.session = some session)
    (hnodup : keys.Nodup) (hkeys : ∀ key ∈ keys, ∃ entry, d.registry.entries.get? key = some entry)
    (hpos : 0 < d.registry.nextSubId) (hsubIds : d.registry.nextSubId + keys.length ≤ u32Max)
    (hrequestIds : d.nextRequestId + keys.length ≤ u64Max) :
    ∃ attempts : List Attempt, attempts.map Attempt.key = keys ∧
      (d.issueAll keys).1 = attempts.filterMap Attempt.report ∧
      Issued session d (d.issueAll keys).2 attempts := by
  induction keys generalizing d with
  | nil => exact ⟨[], rfl, rfl, .nil session d⟩
  | cons key keys ih =>
    rw [List.length_cons] at hsubIds hrequestIds
    obtain ⟨hkey, htail⟩ := List.nodup_cons.1 hnodup
    obtain ⟨entry, hentry⟩ := hkeys key List.mem_cons_self
    obtain ⟨a, rfl, hreport, hfirst⟩ := issueSubscription_issued hsession hentry hpos
      (by omega) (by omega)
    have hnextSubId := hfirst.nextSubId
    have hnextRequestId := hfirst.nextRequestId
    rw [List.length_singleton] at hnextSubId hnextRequestId
    obtain ⟨attempts, hmap, hreports, hrest⟩ := ih
      (d := (d.issueSubscription a.key).2) (by rw [hfirst.lifecycle, hsession]) htail
      (fun k hk => by
        rw [issueSubscription_get? fun heq : k = a.key => hkey (heq ▸ hk)]
        exact hkeys k (List.mem_cons_of_mem _ hk))
      (by omega) (by omega) (by omega)
    refine ⟨a :: attempts, by rw [List.map_cons, hmap], ?_, ?_⟩
    · rw [issueAll, hreports, hreport]
      cases h : a.report <;> simp [h]
    · refine hfirst.append hrest fun b hb c hc heq => hkey ?_
      rw [List.mem_singleton.1 hb] at heq
      rw [heq, ← hmap]
      exact List.mem_map_of_mem hc

/-- Tell the caller which requests left, if any did. -/
def announce (d : SessionDriver) (reports : List ResubscribedEntry) : SessionDriver :=
  if reports.isEmpty then d else d.emit (.resubscribed reports)

/-- The registry that a `CONOK` naming `sid` issues from. -/
def due (d : SessionDriver) (sid : SessionId) : Registry :=
  if (d.conokKind sid).isFresh then d.registry.resetForNewSession else d.registry

/-- The ids left are enough for what a `CONOK` naming `sid` issues. -/
structure Ample (d : SessionDriver) (sid : SessionId) : Prop where
  subIds : (d.due sid).nextSubId + (d.due sid).unboundKeys.length ≤ u32Max
  requestIds : d.nextRequestId + (d.due sid).unboundKeys.length ≤ u64Max

theorem announce_trace (d : SessionDriver) (reports : List ResubscribedEntry) :
    ∃ delivered, (d.announce reports).trace = d.trace ++ announcement reports delivered := by
  unfold announce announcement
  split
  · exact ⟨true, (List.append_nil _).symm⟩
  · exact ⟨_, rfl⟩

@[simp] theorem announce_toDesk (d : SessionDriver) (reports : List ResubscribedEntry) :
    (d.announce reports).toDesk = d.toDesk := by
  unfold announce
  split <;> rfl

theorem retireOne_aside (d : SessionDriver) (id : String) (kind : PendingKind) :
    Extends Action.Aside d.trace (d.retireOne id kind).trace := by
  have hresponse : ∀ (d : SessionDriver) id target outcome, Extends Action.Aside d.trace
      (d.emit (.controlResponse id target outcome)).trace := fun d _ _ _ =>
    d.extends_emit fun _ => ⟨rfl, rfl⟩
  unfold retireOne
  cases kind with
  | sendMessage sequence prog =>
    exact (d.extends_emit fun _ => ⟨rfl, rfl⟩).trans (hresponse _ _ _ _)
  | _ => exact hresponse _ _ _ _

theorem retireAll_aside (d : SessionDriver) (stale : List (String × Pending)) :
    Extends Action.Aside d.trace (d.retireAll stale).trace := by
  induction stale generalizing d with
  | nil => exact .refl _ _
  | cons p stale ih => exact (d.retireOne_aside p.1 p.2.kind).trans (ih _)

/-- Nothing is asked for before the session is reported. -/
theorem announced_aside (d : SessionDriver) (sid : SessionId) (limit keepAlive : ℕ)
    (link : Option String) :
    Extends Action.Aside d.trace (d.announced sid limit keepAlive link).trace := by
  obtain ⟨e, he, -, -, -, -, -, htrace⟩ := d.enterSession_cases sid keepAlive link (d.conokKind sid)
  have hlink : Extends Action.Aside d.trace e.trace := htrace ▸ .one ⟨rfl, rfl⟩ _
  have hentered : Extends Action.Aside d.trace
      (d.enterSession sid keepAlive link (d.conokKind sid)).trace := by
    rw [he]
    split
    · exact hlink.trans (retireAll_aside { e with pending := _ } _)
    · exact hlink
  exact hentered.trans (extends_emit _ fun _ => ⟨rfl, rfl⟩)

theorem announced_registry (d : SessionDriver) (sid : SessionId) (limit keepAlive : ℕ)
    (link : Option String) : (d.announced sid limit keepAlive link).registry = d.due sid := by
  rw [announced, emit_toDesk, enterSession_registry, due]

/-- A `CONOK` tries every subscription that is due, once, in the order of the keys. -/
theorem onConok_issued {sid : SessionId} (limit keepAlive : ℕ) (link : Option String)
    (hpos : 0 < (d.due sid).nextSubId) (hample : d.Ample sid) :
    ∃ attempts d', attempts.map Attempt.key = (d.due sid).unboundKeys ∧
      Issued sid (d.announced sid limit keepAlive link) d' attempts ∧
      d.onConok sid limit keepAlive link = d'.announce (attempts.filterMap Attempt.report) := by
  have hregistry := d.announced_registry sid limit keepAlive link
  have hnext : (d.announced sid limit keepAlive link).nextRequestId = d.nextRequestId := by
    rw [announced, emit_toDesk, enterSession_nextRequestId]
  have hsession : (d.announced sid limit keepAlive link).session = some sid := by
    rw [announced, emit_toLifecycle, enterSession_toLifecycle]
  rw [← hregistry] at hpos ⊢
  have hnodup : (d.announced sid limit keepAlive link).registry.unboundKeys.Nodup :=
    OrdMap.nodup_keys _
  obtain ⟨attempts, hkeys, hreports, hissued⟩ := issueAll_issued hsession hnodup
    (fun key hkey => (Registry.mem_unboundKeys.1 hkey).imp fun _ h => h.1) hpos
    (by rw [hregistry]; exact hample.subIds) (by rw [hregistry, hnext]; exact hample.requestIds)
  refine ⟨attempts, _, hkeys, hissued, ?_⟩
  rw [onConok_eq, issueUnboundSubscriptions, hreports]
  rfl

end SessionDriver

/-! ## Keys that wait for the next bind -/

namespace Registry

/-- The entry of the key, if it has one, has no binding and is not being removed, and no wire id
leads to it. -/
structure Idle (r : Registry) (key : SubscriptionKey) : Prop where
  entry : ∀ entry, r.entries.get? key = some entry → entry.wire = none ∧ entry.state ≠ .removing
  unmapped : ∀ id, r.bySubId.get? id ≠ some key
  pos : 0 < r.nextSubId

/-- A new session starts with every entry unbound. -/
theorem unboundKeys_resetForNewSession (r : Registry) :
    r.resetForNewSession.unboundKeys = r.resetForNewSession.entries.keys := by
  rw [unboundKeys, OrdMap.keys, OrdMap.keys, OrdMap.filter]
  dsimp only
  rw [List.filter_eq_self.2]
  rintro ⟨k, entry⟩ hmem
  obtain ⟨⟨k', entry'⟩, -, hp⟩ := List.mem_map.1 hmem
  cases hp
  rfl

namespace Idle

variable {r : Registry} {key : SubscriptionKey}

theorem modify (h : r.Idle key) (k : SubscriptionKey) {f : RegistryEntry → RegistryEntry}
    (hf : k = key → ∀ entry, entry.wire = none ∧ entry.state ≠ .removing →
      (f entry).wire = none ∧ (f entry).state ≠ .removing) :
    Idle { r with entries := r.entries.modify k f } key := by
  refine ⟨fun entry he => ?_, h.unmapped, h.pos⟩
  rcases OrdMap.get?_of_modify he with ⟨rfl, e, he', rfl⟩ | he
  · exact hf rfl e (h.entry e he')
  · exact h.entry entry he

theorem erase (h : r.Idle key) (k : SubscriptionKey) {m : OrdMap ℕ SubscriptionKey}
    (hm : ∀ id, m.get? id = some key → r.bySubId.get? id = some key) :
    Idle { r with entries := r.entries.erase k, bySubId := m } key := by
  exact ⟨fun entry he => h.entry entry (OrdMap.get?_of_erase he),
    fun id hid => h.unmapped id (hm id hid), h.pos⟩

theorem want (h : r.Idle key) (k : SubscriptionKey) (spec : SubscriptionSpec) :
    Idle (r.want k spec) key := by
  refine ⟨fun entry he => ?_, h.unmapped, h.pos⟩
  simp only [Registry.want, OrdMap.get?_insert] at he
  split_ifs at he
  · cases he
    exact ⟨rfl, fun hs => SubscriptionState.noConfusion hs⟩
  · exact h.entry entry he

theorem commitFrequency (h : r.Idle key) (k : SubscriptionKey) (f : MaxFrequencyLimit) :
    Idle (r.commitFrequency k f) key :=
  h.modify k fun _ _ he => he

theorem setManager (h : r.Idle key) (k : SubscriptionKey) (manager : SubscriptionManager) :
    Idle (r.setManager k manager) key :=
  h.modify k fun _ _ he => he

theorem activate (h : r.Idle key) (k : SubscriptionKey) : Idle (r.activate k) key :=
  h.modify k fun _ _ he => ⟨he.1, nofun⟩

theorem keep (h : r.Idle key) (k : SubscriptionKey) : Idle (r.keep k) key := by
  refine h.modify k fun _ entry he => ⟨he.1, ?_⟩
  dsimp only
  split_ifs <;> nofun

theorem drop (h : r.Idle key) (k : SubscriptionKey) : Idle (r.drop k) key := by
  refine h.erase k fun id hid => ?_
  split at hid
  · exact OrdMap.get?_of_erase hid
  · exact hid

theorem remove (h : r.Idle key) (k : SubscriptionKey) (subId : ℕ) :
    Idle (r.remove k subId) key :=
  h.erase k fun _ hid => OrdMap.get?_of_erase hid

/-- Another key takes an id. -/
theorem bind (h : r.Idle key) {k : SubscriptionKey} (hk : k ≠ key) (subId : NonZeroU32)
    (next : ℕ) (hnext : 0 < next) :
    Idle (Registry.bind { r with nextSubId := next } k subId) key := by
  refine ⟨fun entry he => ?_, fun id hid => ?_, hnext⟩
  · simp only [Registry.bind, OrdMap.get?_modify, if_neg hk.symm] at he
    exact h.entry entry he
  · simp only [Registry.bind, OrdMap.get?_insert] at hid
    split_ifs at hid
    · exact hk (Option.some.inj hid)
    · exact h.unmapped id hid

theorem release (h : r.Idle key) {k : SubscriptionKey} (hk : k ≠ key) (subId : NonZeroU32) :
    Idle (r.release k subId) key := by
  refine ⟨fun entry he => ?_, fun id hid => ?_, h.pos⟩
  · simp only [Registry.release, OrdMap.get?_modify, if_neg hk.symm] at he
    exact h.entry entry he
  · exact h.unmapped id (OrdMap.get?_of_erase hid)

end Idle

end Registry

namespace SessionDriver

variable {d d' : SessionDriver} {key : SubscriptionKey}

theorem issueSubscription_idle (h : d.registry.Idle key) {k : SubscriptionKey} (hk : k ≠ key) :
    (d.issueSubscription k).2.registry.Idle key := by
  obtain hr | ⟨subId, r, hallocate, hr⟩ := d.issueSubscription_registry k
  · rwa [hr]
  · obtain ⟨-, rfl⟩ := Registry.allocate_eq_some hallocate
    have hbind := h.bind hk subId (d.registry.nextSubId + 1) (Nat.succ_pos _)
    rcases hr with hr | hr | hr
    · rw [hr]
      exact ⟨h.entry, h.unmapped, Nat.succ_pos _⟩
    · rwa [hr]
    · rw [hr]
      exact hbind.release hk subId

theorem unsubscribe_idle (h : d.registry.Idle key) (k : SubscriptionKey) :
    (d.unsubscribe k).registry.Idle key := by
  rw [unsubscribe_registry]
  cases hget : d.registry.entries.get? k with
  | none => exact h
  | some entry =>
    dsimp only
    split_ifs with hwire
    · exact h.erase k fun _ hid => hid
    · refine h.modify k fun hk => absurd ?_ hwire
      rw [(h.entry entry (hk ▸ hget)).1]
      rfl

/-- A command leaves a key idle, unless it subscribes the key. -/
theorem onCommand_idle (h : d.registry.Idle key) (c : SessionCommand)
    (hfresh : ∀ spec, c ≠ .subscribe key spec) : (d.onCommand c).2.registry.Idle key := by
  cases c with
  | subscribe k spec =>
    change (d.subscribe k spec).registry.Idle key
    unfold subscribe
    dsimp only
    split_ifs
    · have hwant := h.want k spec
      exact issueSubscription_idle (d := { d with registry := d.registry.want k spec }) hwant
        fun hk => hfresh spec (by rw [hk])
    · exact h.want k spec
  | unsubscribe k => exact unsubscribe_idle h k
  | _ =>
    rw [d.onCommand_registry (fun _ _ h => by cases h) fun _ h => by cases h]
    exact h

theorem onData_idle (h : d.registry.Idle key) (n : Notification) :
    (d.onData n).registry.Idle key := by
  obtain hr | ⟨-, subId, k, manager, -, hr⟩ := d.onData_registry n
  · rwa [hr]
  · rw [hr]
    unfold registryAfter
    split
    · exact (h.setManager k manager).activate k
    · exact (h.setManager k manager).activate k
    · exact h.remove k subId
    · exact h.setManager k manager

theorem onRequestOk_idle (h : d.registry.Idle key) (id : Option String) :
    (d.onRequestOk id).registry.Idle key := by
  obtain hr | ⟨k, f, hr⟩ := d.onRequestOk_registry id
  · rwa [hr]
  · rw [hr]
    exact h.commitFrequency k f

theorem onRequestError_idle (h : d.registry.Idle key) (id : String) (cause : ServerCause) :
    (d.onRequestError id cause).registry.Idle key := by
  obtain hr | ⟨k, ⟨-, hr⟩ | ⟨-, hr⟩⟩ := d.onRequestError_registry id cause
  · rwa [hr]
  · rw [hr]
    exact h.drop k
  · rw [hr]
    exact h.keep k

/-- A notification leaves a key idle, unless it binds a session. -/
theorem onNotification_idle (h : d.registry.Idle key) {n : Notification} (hn : isBind n = false) :
    (d.onNotification n).2.registry.Idle key := by
  induction n using onNotification_cases d with
  | conok => cases hn
  | conerr code message hd => exact hd ▸ (onConerr_toDesk d _).symm ▸ h
  | ended code message hd => rw [hd, onEnd_toDesk]; exact h
  | loop millis hd => rw [hd]; simpa using h
  | prog n hd => rw [hd, onProg_toDesk]; exact h
  | reqok id hd => rw [hd]; exact onRequestOk_idle h id
  | reqerr id code message hd => rw [hd]; exact onRequestError_idle h id _
  | quiet n _ hd => rwa [hd]
  | report n e _ hd => rwa [hd]
  | data n _ hd => rw [hd]; exact onData_idle h n

/-- The key waits for the next bind: its entry is there, and no `add` of it is pending. -/
structure Awaiting (d : SessionDriver) (key : SubscriptionKey) : Prop where
  idle : d.registry.Idle key
  entry : ∃ entry, d.registry.entries.get? key = some entry
  unasked : ∀ id p, d.pending.get? id = some p → p.kind ≠ .subscribe key

/-- What leaves the registry alone and files nothing keeps a key waiting. -/
theorem Awaiting.of_sub (h : d.Awaiting key) (hregistry : d'.registry = d.registry)
    (hpending : ∀ id p, d'.pending.get? id = some p → d.pending.get? id = some p) :
    d'.Awaiting key :=
  ⟨hregistry ▸ h.idle, hregistry ▸ h.entry, fun id p hp => h.unasked id p (hpending id p hp)⟩

theorem entry_issueSubscription {k : SubscriptionKey} (hk : k ≠ key)
    (h : ∃ entry, d.registry.entries.get? key = some entry) :
    ∃ entry, (d.issueSubscription k).2.registry.entries.get? key = some entry := by
  rwa [issueSubscription_get? hk.symm]

/-- A change of the entries keeps them. -/
theorem entry_modify {r : Registry} (k : SubscriptionKey) (f : RegistryEntry → RegistryEntry)
    (h : ∃ entry, r.entries.get? key = some entry) :
    ∃ entry, (r.entries.modify k f).get? key = some entry := by
  obtain ⟨entry, h⟩ := h
  rw [OrdMap.get?_modify, h]
  split_ifs
  · exact ⟨f entry, rfl⟩
  · exact ⟨entry, rfl⟩

theorem entry_erase {r : Registry} {k : SubscriptionKey} (hk : k ≠ key)
    (h : ∃ entry, r.entries.get? key = some entry) :
    ∃ entry, (r.entries.erase k).get? key = some entry := by
  rwa [OrdMap.get?_erase, if_neg hk.symm]

/-- A command keeps a key waiting, unless it is about the subscription of the key. -/
theorem onCommand_awaiting (h : d.Awaiting key) (c : SessionCommand)
    (hfresh : ∀ spec, c ≠ .subscribe key spec) (hkept : c ≠ .unsubscribe key) :
    (d.onCommand c).2.Awaiting key := by
  have hkind : ∀ kind, c.kind = some kind → kind ≠ .subscribe key := by
    rintro kind hkind rfl
    cases c with
    | subscribe k spec =>
      cases hkind
      exact hfresh spec rfl
    | _ => cases hkind
  refine ⟨onCommand_idle h.idle c hfresh, ?_, fun id p hp => ?_⟩
  · cases c with
    | subscribe k spec =>
      have hk : k ≠ key := fun hk => hfresh spec (by rw [hk])
      have hwant : ∃ entry, (d.registry.want k spec).entries.get? key = some entry := by
        rw [Registry.want, OrdMap.get?_insert, if_neg hk.symm]
        exact h.entry
      change ∃ entry, (d.subscribe k spec).registry.entries.get? key = some entry
      unfold subscribe
      dsimp only
      split_ifs
      · exact entry_issueSubscription (d := { d with registry := d.registry.want k spec }) hk hwant
      · exact hwant
    | unsubscribe k =>
      have hk : k ≠ key := fun hk => hkept (by rw [hk])
      change ∃ entry, (d.unsubscribe k).registry.entries.get? key = some entry
      rw [unsubscribe_registry]
      cases d.registry.entries.get? k with
      | none => exact h.entry
      | some entry =>
        dsimp only
        split_ifs
        · exact entry_erase hk h.entry
        · exact entry_modify k _ h.entry
    | _ =>
      rw [d.onCommand_registry (fun _ _ h => by cases h) fun _ h => by cases h]
      exact h.entry
  · rcases (onCommand_files d c hkind).filed id p hp with hp | ⟨-, hp⟩
    · exact h.unasked id p hp
    · exact hp

/-- Taking a request from the table keeps a key waiting. -/
theorem onRequestOk_awaiting (h : d.Awaiting key) (id : Option String) :
    (d.onRequestOk id).Awaiting key := by
  refine ⟨onRequestOk_idle h.idle id, ?_, fun k p hp => h.unasked k p (d.pending_of_onRequestOk hp)⟩
  obtain hr | ⟨k, f, hr⟩ := d.onRequestOk_registry id
  · rw [hr]
    exact h.entry
  · rw [hr]
    exact entry_modify k _ h.entry

theorem onRequestError_awaiting (h : d.Awaiting key) (id : String) (cause : ServerCause) :
    (d.onRequestError id cause).Awaiting key := by
  refine ⟨onRequestError_idle h.idle id cause, ?_,
    fun k p hp => h.unasked k p (d.pending_of_onRequestError hp)⟩
  obtain hr | ⟨k, ⟨hk, hr⟩ | ⟨-, hr⟩⟩ := d.onRequestError_registry id cause
  · rw [hr]
    exact h.entry
  · -- the refused request is an `add` of another key
    have hne : k ≠ key := fun heq =>
      h.unasked id _ (takePending_eq_some.1 hk) (by rw [heq])
    rw [hr]
    exact entry_erase hne h.entry
  · rw [hr]
    exact entry_modify k _ h.entry

theorem onData_awaiting (h : d.Awaiting key) (n : Notification) : (d.onData n).Awaiting key := by
  refine ⟨onData_idle h.idle n, ?_, fun id p hp => h.unasked id p (by rwa [onData_pending] at hp)⟩
  obtain hr | ⟨-, subId, k, manager, hresolve, hr⟩ := d.onData_registry n
  · rw [hr]
    exact h.entry
  · have hne : k ≠ key := fun heq =>
      h.idle.unmapped subId (heq ▸ (resolveSubscription_eq_some hresolve).2)
    have hmanager := entry_modify k (fun entry => { entry with manager := manager }) h.entry
    rw [hr]
    unfold registryAfter
    split
    · exact entry_modify (r := d.registry.setManager k manager) k _ hmanager
    · exact entry_modify (r := d.registry.setManager k manager) k _ hmanager
    · exact entry_erase hne h.entry
    · exact hmanager

/-- A notification keeps a key waiting, unless it binds a session. -/
theorem onNotification_awaiting (h : d.Awaiting key) {n : Notification} (hn : isBind n = false) :
    (d.onNotification n).2.Awaiting key := by
  induction n using onNotification_cases d with
  | conok => cases hn
  | conerr code message hd =>
    rw [hd]
    exact h.of_sub (by simp) fun id p hp => by simpa using hp
  | ended code message hd =>
    rw [hd]
    exact h.of_sub (by simp) fun id p hp => by simpa using hp
  | loop millis hd =>
    rw [hd]
    exact h.of_sub (by simp) fun id p hp => by simpa using hp
  | prog n hd =>
    rw [hd]
    exact h.of_sub (by simp) fun id p hp => by simpa using hp
  | reqok id hd => rw [hd]; exact onRequestOk_awaiting h id
  | reqerr id code message hd => rw [hd]; exact onRequestError_awaiting h id _
  | quiet n _ hd => rwa [hd]
  | report n e _ hd =>
    rw [hd]
    exact h.of_sub rfl fun id p hp => hp
  | data n _ hd => rw [hd]; exact onData_awaiting h n

theorem onLine_idle (h : d.registry.Idle key) {text : String}
    (hn : ∀ n, parseLine text = .ok n → isBind n = false) :
    (d.onLine text).2.registry.Idle key := by
  cases htext : parseLine text with
  | error e =>
    rw [onLine_of_error d htext]
    exact h
  | ok n =>
    rw [onLine_of_ok d htext]
    exact onNotification_idle (d := d.heard) h (hn n htext)

theorem onLine_awaiting (h : d.Awaiting key) {text : String}
    (hn : ∀ n, parseLine text = .ok n → isBind n = false) : (d.onLine text).2.Awaiting key := by
  have hheard : d.heard.Awaiting key := h.of_sub rfl fun _ _ hp => hp
  cases htext : parseLine text with
  | error e =>
    rw [onLine_of_error d htext]
    exact hheard.of_sub rfl fun id p hp => hp
  | ok n =>
    rw [onLine_of_ok d htext]
    exact onNotification_awaiting hheard (hn n htext)

end SessionDriver

namespace Drive

open SessionDriver

variable {key : SubscriptionKey} {s s' : Drive} {i : Input}

/-- The input brings no `CONOK`. -/
def Unbinding (i : Input) : Prop := ∀ n ∈ i.notification, isBind n = false

instance : DecidablePred Unbinding := fun i =>
  inferInstanceAs (Decidable (∀ n ∈ i.notification, isBind n = false))

theorem step_idle (h : s.driver.registry.Idle key) (hquiet : Unbinding i)
    (hfresh : ∀ spec, i.wake ≠ .command (.subscribe key spec)) (hstep : step s i = some s') :
    s'.driver.registry.Idle key := by
  refine step_desk (R := fun d d' => d.registry.Idle key → d'.registry.Idle key)
    (fun hR hR' hd => hR' (hR hd)) (fun hdesk _ hd => hdesk.registry ▸ hd) rfl
    (fun c hw hd => onCommand_idle hd c fun spec hc => hfresh spec (by rw [hw, hc]))
    (fun text hw hd => onLine_idle hd fun n hn => hquiet n (Input.notification_of_line hw hn))
    (fun hd => by simpa using hd) hstep h

theorem step_awaiting (h : s.driver.Awaiting key) (hquiet : Unbinding i)
    (hfresh : ∀ spec, i.wake ≠ .command (.subscribe key spec))
    (hkept : i.wake ≠ .command (.unsubscribe key)) (hstep : step s i = some s') :
    s'.driver.Awaiting key := by
  refine step_desk (R := fun d d' => d.Awaiting key → d'.Awaiting key)
    (fun hR hR' hd => hR' (hR hd))
    (fun hdesk _ hd => hd.of_sub hdesk.registry fun id p hp => hdesk.pending ▸ hp) rfl
    (fun c hw hd => onCommand_awaiting hd c (fun spec hc => hfresh spec (by rw [hw, hc]))
      fun hc => hkept (by rw [hw, hc]))
    (fun text hw hd => onLine_awaiting hd fun n hn =>
      hquiet n (Input.notification_of_line hw hn))
    (fun hd => hd.of_sub (by simp) fun id p hp => by simpa using hp) hstep ?_
  exact h.of_sub rfl fun id p hp => hp

/-! ## The turn of a `CONOK` -/

/-- What the turn of a `CONOK` naming `sid` does for the subscriptions that are due: each is tried
once, in the order of the keys and under an id of its own, and one event lists those whose request
the transport took. -/
structure Executes (s s' : Drive) (sid : SessionId) (attempts : List Attempt) : Prop where
  keys : attempts.map Attempt.key = (s.driver.due sid).unboundKeys
  entries : ∀ a ∈ attempts, (s.driver.due sid).entries.get? a.key = some a.entry
  subIds : (attempts.map Attempt.subId).Nodup
  trace : ∃ opening blocks delivered closing, s'.driver.trace = s.driver.trace ++ (opening ++
      blocks.flatten ++ announcement (attempts.filterMap Attempt.report) delivered ++ closing) ∧
    (∀ a ∈ opening ++ closing, a.Aside) ∧
    List.Forall₂ (Attempt.Shows s.driver.controlKind sid) attempts blocks
  tried : ∀ a ∈ attempts, s'.driver.registry.entries.get? a.key = some a.after

/-- The turn of a `CONOK`, from what its attempts do. -/
theorem conok_turn {sid : SessionId} {limit millis : ℕ} {link : Option String}
    (hn : i.notification = some (.connectionOk sid limit millis link))
    (hstep : step s i = some s') (hpos : 0 < (s.driver.due sid).nextSubId)
    (hample : s.driver.Ample sid) :
    ∃ attempts d', Executes s s' sid attempts ∧
      Issued sid ((s.driver.withTurn i.turn).heard.announced sid limit (ofMillis millis) link) d'
        attempts ∧ SameDesk d' s' := by
  set d := (s.driver.withTurn i.turn).heard with hd
  have hdue : d.due sid = s.driver.due sid := rfl
  have hample' : d.Ample sid := ⟨hample.subIds, hample.requestIds⟩
  obtain ⟨attempts, d', hkeys, hissued, honConok⟩ :=
    onConok_issued limit (ofMillis millis) link (hdue ▸ hpos) hample'
  have hafter : s' = afterPump (.continue, d'.announce (attempts.filterMap Attempt.report)) := by
    rw [step_notification hn hstep, ← honConok]
    rfl
  have hdesk : SameDesk d' s' := by
    have hpump := afterPump_sameDesk (.continue, d'.announce (attempts.filterMap Attempt.report))
    rw [← hafter] at hpump
    exact ⟨by simp [hpump.registry], by simp [hpump.pending], by simp [hpump.nextRequestId],
      by simp [hpump.forceRebindOutstanding]⟩
  obtain ⟨opening, hopening, haside⟩ := d.announced_aside sid limit (ofMillis millis) link
  obtain ⟨closing, hclosing, hloop⟩ := afterPump_extends (P := Action.IsLoop) (fun _ h => h)
    (.continue, d'.announce (attempts.filterMap Attempt.report))
  obtain ⟨blocks, hblocks, htrace⟩ := hissued.trace
  obtain ⟨delivered, htold⟩ := d'.announce_trace (attempts.filterMap Attempt.report)
  refine ⟨attempts, d', ⟨hkeys, fun a ha => ?_, ?_, ?_, fun a ha => ?_⟩, hissued, hdesk⟩
  · rw [← hdue, ← d.announced_registry sid limit (ofMillis millis) link]
    exact hissued.entries a ha
  · refine List.Nodup.of_map NonZeroU32.val ?_
    rw [List.map_map]
    exact hissued.subIds ▸ List.nodup_range'
  · refine ⟨opening, blocks, delivered, closing, ?_, fun a ha => ?_, ?_⟩
    · rw [hafter, hclosing, htold, htrace, hopening]
      simp [hd]
    · rcases List.mem_append.1 ha with ha | ha
      · exact haside a ha
      · exact (hloop a ha).aside
    · have hkind : (d.announced sid limit (ofMillis millis) link).controlKind =
          s.driver.controlKind := by
        simp [controlKind, announced, enterSession_toLifecycle, hd]
      exact hkind ▸ hblocks
  · rw [hdesk.registry]
    exact hissued.tried a ha

/-- An idle key is due at every `CONOK`. -/
theorem mem_due_of_idle {d : SessionDriver} (h : d.registry.Idle key)
    (hentry : ∃ entry, d.registry.entries.get? key = some entry) (sid : SessionId) :
    key ∈ (d.due sid).unboundKeys ∧ 0 < (d.due sid).nextSubId := by
  obtain ⟨entry, hentry⟩ := hentry
  obtain ⟨hwire, hstate⟩ := h.entry entry hentry
  rw [Registry.mem_unboundKeys, due]
  split
  · refine ⟨⟨entry.reset, ?_, rfl, nofun⟩, Nat.one_pos⟩
    simp [Registry.resetForNewSession, hentry, hstate]
  · exact ⟨⟨entry, hentry, hwire, hstate⟩, h.pos⟩

/-- When no wire id was in use, the key of an attempt that failed is idle. -/
theorem idle_of_failed {d d' : SessionDriver} {session : SessionId} {attempts : List Attempt}
    (h : Issued session d d' attempts) (hempty : ∀ id, d.registry.bySubId.get? id = none)
    (hpos : 0 < d.registry.nextSubId) {a : Attempt} (ha : a ∈ attempts) (herror : a.error ≠ none) :
    d'.registry.Idle a.key := by
  refine ⟨fun entry hget => ?_, fun id hid => ?_, ?_⟩
  · rw [h.tried a ha] at hget
    cases hget
    simp [Attempt.after, herror]
  · by_cases hbound : ∃ b ∈ attempts, b.subId.val = id
    · obtain ⟨b, hb, rfl⟩ := hbound
      rw [h.bound b hb] at hid
      split at hid
      · rename_i hnone
        exact h.key_ne ha herror hb (Option.isNone_iff_eq_none.1 hnone) (Option.some.inj hid)
      · cases hid
    · rw [h.unbound id fun b hb heq => hbound ⟨b, hb, heq⟩, hempty] at hid
      cases hid
  · rw [h.nextSubId]
    exact Nat.lt_of_lt_of_le hpos (Nat.le_add_right _ _)

/-- The first `CONOK` that the driver handles tries the key once, if the registry still has it and
it was not subscribed anew. -/
def Retries (s : Drive) (key : SubscriptionKey) : Prop :=
  ∀ inputs s₁, (∀ i ∈ inputs, Unbinding i) →
    (∀ i ∈ inputs, ∀ spec, i.wake ≠ .command (.subscribe key spec)) →
    exec step s inputs = some s₁ → (∃ entry, s₁.driver.registry.entries.get? key = some entry) →
    ∀ i s₂ sid limit millis link, i.notification = some (.connectionOk sid limit millis link) →
      step s₁ i = some s₂ → s₁.driver.Ample sid →
      ∃ attempts, Executes s₁ s₂ sid attempts ∧ (attempts.map Attempt.key).count key = 1

/-- Until a `CONOK`, the registry has the key as long as the caller does not give it up. -/
def KeepsEntry (s : Drive) (key : SubscriptionKey) : Prop :=
  ∀ inputs s₁, (∀ i ∈ inputs, Unbinding i) →
    (∀ i ∈ inputs, ∀ spec, i.wake ≠ .command (.subscribe key spec)) →
    (∀ i ∈ inputs, i.wake ≠ .command (.unsubscribe key)) →
    exec step s inputs = some s₁ → ∃ entry, s₁.driver.registry.entries.get? key = some entry

theorem retries_of_idle (h : s.driver.registry.Idle key) : Retries s key := by
  intro inputs s₁ hquiet hfresh hrun hentry i s₂ sid limit millis link hn hstep hample
  have hidle : s₁.driver.registry.Idle key :=
    exec_invariant (I := fun s => s.driver.registry.Idle key)
      (fun _ _ _ hs hG hstep => step_idle hs hG.1 hG.2 hstep) h
      ((guarded_of_forall_mem hquiet).and (guarded_of_forall_mem hfresh)) hrun
  obtain ⟨hmem, hpos⟩ := mem_due_of_idle hidle hentry sid
  obtain ⟨attempts, -, hexecutes, -, -⟩ := conok_turn hn hstep hpos hample
  refine ⟨attempts, hexecutes, ?_⟩
  rw [hexecutes.keys]
  exact List.count_eq_one_of_mem (OrdMap.nodup_keys _) hmem

theorem keepsEntry_of_awaiting (h : s.driver.Awaiting key) : KeepsEntry s key := by
  intro inputs s₁ hquiet hfresh hkept hrun
  have hawaiting : s₁.driver.Awaiting key :=
    exec_invariant (I := fun s => s.driver.Awaiting key)
      (fun _ _ _ hs hG hstep => step_awaiting hs hG.1 hG.2.1 hG.2.2 hstep) h
      ((guarded_of_forall_mem hquiet).and
        ((guarded_of_forall_mem hfresh).and (guarded_of_forall_mem hkept))) hrun
  exact hawaiting.entry

/-- **Re-execution is complete.** When a new session is bound, every subscription that is not being
removed is tried once, in the order of the keys, with its own specification and under an id of its
own; the others are dropped. One that did not leave has no binding, and the next `CONOK` tries it
again. -/
theorem reexecution_complete {sid : SessionId} {limit millis : ℕ} {link : Option String}
    (hn : i.notification = some (.connectionOk sid limit millis link))
    (hfresh : (s.driver.conokKind sid).isFresh = true) (hstep : step s i = some s')
    (hample : s.driver.Ample sid) :
    ∃ attempts, Executes s s' sid attempts ∧
      attempts.map (fun a => (a.key, a.entry)) =
        (s.driver.registry.entries.toList.filter fun p => p.2.state ≠ .removing).map
          (fun p => (p.1, p.2.reset)) ∧
      (∀ key, key ∉ attempts.map Attempt.key → s'.driver.registry.entries.get? key = none) ∧
      ∀ a ∈ attempts, a.error ≠ none →
        s'.driver.registry.Idle a.key ∧ Retries s' a.key ∧
        (s.driver.Tidy → s.driver.generation < u64Max → KeepsEntry s' a.key) := by
  have hdue : s.driver.due sid = s.driver.registry.resetForNewSession := by rw [due, if_pos hfresh]
  obtain ⟨attempts, d', hexecutes, hissued, hdesk⟩ :=
    conok_turn hn hstep (by rw [hdue]; exact Nat.one_pos) hample
  have hannounced : ((s.driver.withTurn i.turn).heard.announced sid limit (ofMillis millis)
      link).registry = s.driver.registry.resetForNewSession := by
    rw [announced_registry]
    exact hdue
  have hkeys : attempts.map Attempt.key = s.driver.registry.resetForNewSession.entries.keys := by
    rw [hexecutes.keys, hdue, Registry.unboundKeys_resetForNewSession]
  refine ⟨attempts, hexecutes, ?_, fun key hkey => ?_, fun a ha herror => ?_⟩
  · refine OrdMap.eq_toList (m := s.driver.registry.resetForNewSession.entries) ?_ fun p hp => ?_
    · rw [List.map_map]
      exact hkeys
    · obtain ⟨a, ha, rfl⟩ := List.mem_map.1 hp
      rw [← hdue]
      exact hexecutes.entries a ha
  · rw [hdesk.registry, hissued.others key fun a ha heq => hkey (heq ▸ List.mem_map_of_mem ha),
      hannounced]
    cases hget : s.driver.registry.resetForNewSession.entries.get? key with
    | none => rfl
    | some entry => exact absurd (hkeys ▸ OrdMap.mem_keys_iff.2 ⟨entry, hget⟩) hkey
  · have hidle : s'.driver.registry.Idle a.key := by
      rw [hdesk.registry]
      refine idle_of_failed hissued (fun id => ?_) ?_ ha herror
      · rw [hannounced]
        rfl
      · rw [hannounced]
        exact Nat.one_pos
    refine ⟨hidle, retries_of_idle hidle, fun htidy hgeneration => keepsEntry_of_awaiting
      ⟨hidle, ⟨_, hexecutes.tried a ha⟩, fun id p hp hkind => ?_⟩⟩
    rw [hdesk.pending] at hp
    rcases hissued.pending id p hp with hp | ⟨b, hb, hnone, hkind'⟩
    · have hheard : ((s.driver.withTurn i.turn).heard.conokKind sid).isFresh = true := hfresh
      rw [announced_pending, if_pos hheard, OrdMap.get?_filter, Option.filter_eq_some_iff] at hp
      have hle := htidy id p hp.1
      have heq : p.generation = saturatingAdd u64Max s.driver.generation 1 :=
        of_decide_eq_true hp.2
      rw [saturatingAdd] at heq
      omega
    · rw [hkind, PendingKind.subscribe.injEq] at hkind'
      exact hissued.key_ne ha herror hb hnone hkind'.symm

/-- Two subscriptions wait for the first session. -/
def askedTwice : List Input :=
  [⟨.opened, {}⟩, ⟨.command (.subscribe 7 (.new "items" "fields" .merge)), {}⟩,
    ⟨.command (.subscribe 8 (.new "items" "fields" .raw)), {}⟩]

/-- The session is bound, and the transport refuses the first request. -/
def boundRefusing : Input := ⟨.line "CONOK,S1,50000,5000,*", { sends := [some "refused"] }⟩

theorem reexecution_complete_refused :
    ∃ s s', exec step (start ⟨true, false, false⟩ .default 1 0) askedTwice = some s ∧
      step s boundRefusing = some s' ∧
      ∃ attempts, Executes s s' "S1" attempts ∧
        (∀ a ∈ attempts, a.error ≠ none → Retries s' a.key) ∧
        s'.driver.trace.getLast?.bind Action.resubscribed = some [⟨8, ⟨2, by decide, by decide⟩,
          false, false⟩] := by
  have h : ∃ s s', exec step (start ⟨true, false, false⟩ .default 1 0) askedTwice = some s ∧
      step s boundRefusing = some s' := ⟨_, _, rfl, rfl⟩
  obtain ⟨s, s', h, hstep⟩ := h
  have hn : boundRefusing.notification = some (.connectionOk "S1" 50000 5000 none) := rfl
  have hfresh : (s.driver.conokKind "S1").isFresh = true := by
    cases h
    rfl
  have hample : s.driver.Ample "S1" := by
    cases h
    exact ⟨by decide, by decide⟩
  obtain ⟨attempts, hexecutes, -, -, hfailed⟩ := reexecution_complete hn hfresh hstep hample
  refine ⟨s, s', h, hstep, attempts, hexecutes, fun a ha herror => (hfailed a ha herror).2.1, ?_⟩
  cases h
  cases hstep
  decide

end Drive

end Lightstreamer.Session
