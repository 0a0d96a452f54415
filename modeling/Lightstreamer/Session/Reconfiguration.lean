import Lightstreamer.Session.Unsettled
import Lightstreamer.Session.Recovery

/-!
# The specs of the subscriptions, and what a `reconf` makes of them

A spec enters the registry with its `subscribe` command, and the only thing that rewrites one is the
`REQOK` of a `reconf`, in the turn in which it arrives. `specified` is the registry with that one
change made, and no turn holds another spec than `specified` does, nor sends another one in an `add`
(`step_follows`).

So the frequency held is the one that was granted last. Responses may come in any order, and the
request that was answered last need not be the one that was issued last (`last_granted_stands`).
-/

namespace Lightstreamer.Session

open Lightstreamer.Foundations Lightstreamer.Protocol Lightstreamer.Subscription

/-! ## Requests for a frequency -/

/-- A request for another frequency ceiling, with the id it carries. -/
structure FrequencyRequest where
  id : String
  key : SubscriptionKey
  maxFrequency : MaxFrequencyLimit
  deriving DecidableEq

/-- The request for another ceiling that an action hands to the transport. -/
def Action.frequencyRequest : Action → Option FrequencyRequest
  | .control request (some (.reconfigure key f)) _ none =>
    (requestIdOf request).map fun id => ⟨id.text, key, f⟩
  | _ => none

/-- The requests for another ceiling of a subscription that the transport took, in the order in
which they were issued. -/
def frequencyRequests (key : SubscriptionKey) (trace : List Action) : List FrequencyRequest :=
  (trace.filterMap Action.frequencyRequest).filter fun g => g.key = key

/-- The spec under the ceiling that was granted, if one was. -/
def SubscriptionSpec.granted (spec : SubscriptionSpec) : Option FrequencyRequest → SubscriptionSpec
  | some g => { spec with requestedMaxFrequency := some (asRequestedFrequency g.maxFrequency) }
  | none => spec

/-- What a `REQOK` for the id grants, if the request is one for another ceiling. -/
def Asked.granted (id : String) : Asked → Option FrequencyRequest
  | (id', .reconfigure key f) => if id' = id then some ⟨id, key, f⟩ else none
  | _ => none

/-- The request that a notification grants: a `REQOK` for a `reconf` that awaits a response. -/
def grantedBy (asked : List Asked) : Notification → Option FrequencyRequest
  | .requestOk (some id) => asked.findSome? (Asked.granted id)
  | _ => none

/-- The request whose ceiling the driver commits on a notification. -/
def SessionDriver.grants (d : SessionDriver) : Notification → Option FrequencyRequest
  | .requestOk (some id) =>
    match (d.takePending id).1 with
    | some (.reconfigure key f) => some ⟨id, key, f⟩
    | _ => none
  | _ => none

/-- An `add` asks for what a spec says. -/
structure SubscriptionSpec.AskedBy (spec : SubscriptionSpec) (request : Subscribe) : Prop where
  group : request.group = spec.group
  schema : request.schema = spec.schema
  mode : request.mode = spec.mode
  dataAdapter : request.dataAdapter = spec.dataAdapter
  selector : request.selector = spec.selector
  requestedBufferSize : request.requestedBufferSize = spec.requestedBufferSize
  requestedMaxFrequency : request.requestedMaxFrequency = spec.requestedMaxFrequency
  snapshot : request.snapshot = spec.snapshot

/-- An `add` asks for the spec that the registry holds. -/
def Action.CarriesSpec (r : Registry) : Action → Prop
  | .control (.subscribe request) (some (.subscribe key)) _ _ =>
    ∃ entry, r.entries.get? key = some entry ∧ entry.spec.AskedBy request
  | _ => True

theorem asRequestedFrequency_injective {f g : MaxFrequencyLimit}
    (h : asRequestedFrequency f = asRequestedFrequency g) : f = g := by
  cases f <;> cases g <;> cases h <;> rfl

/-- What was granted last is in force, whatever was granted before. -/
theorem SubscriptionSpec.granted_or (spec : SubscriptionSpec) (o o' : Option FrequencyRequest) :
    spec.granted (o.or o') = (spec.granted o').granted o := by
  cases o with
  | none => rfl
  | some g => cases o' <;> rfl

/-- Two ceilings that were granted are one in the spec only if they are one. -/
theorem SubscriptionSpec.granted_eq_granted_iff {spec : SubscriptionSpec}
    {o o' : Option FrequencyRequest} (h : o.isSome = o'.isSome) :
    spec.granted o = spec.granted o' ↔
      o.map FrequencyRequest.maxFrequency = o'.map FrequencyRequest.maxFrequency := by
  cases o with
  | none =>
    cases o' with
    | none => simp
    | some g' => cases h
  | some g =>
    cases o' with
    | none => cases h
    | some g' =>
      refine ⟨fun heq => ?_, fun heq => ?_⟩
      · have hf := Option.some.inj (congrArg SubscriptionSpec.requestedMaxFrequency heq)
        exact congrArg some (asRequestedFrequency_injective hf)
      · have hf : g.maxFrequency = g'.maxFrequency := Option.some.inj heq
        simp [granted, hf]

theorem mem_frequencyRequests {key : SubscriptionKey} {trace : List Action} {g : FrequencyRequest} :
    g ∈ frequencyRequests key trace ↔
      (∃ a ∈ trace, a.frequencyRequest = some g) ∧ g.key = key := by
  simp [frequencyRequests]

/-! ## The specs held -/

namespace Registry

/-- No spec is held that was not held before. -/
def Retains (r r' : Registry) : Prop :=
  ∀ key entry', r'.entries.get? key = some entry' → ∃ entry,
    r.entries.get? key = some entry ∧ entry'.spec = entry.spec

/-- Commit what was granted, if anything was. -/
def grant (r : Registry) : Option FrequencyRequest → Registry
  | some g => r.commitFrequency g.key g.maxFrequency
  | none => r

namespace Retains

variable {r r' r'' : Registry}

theorem refl (r : Registry) : r.Retains r := fun _ entry h => ⟨entry, h, rfl⟩

theorem of_eq (h : r' = r) : r.Retains r' := h ▸ refl r

theorem trans (h : r.Retains r') (h' : r'.Retains r'') : r.Retains r'' := by
  intro key entry'' he
  obtain ⟨entry', he', hspec'⟩ := h' key entry'' he
  obtain ⟨entry, he, hspec⟩ := h key entry' he'
  exact ⟨entry, he, hspec'.trans hspec⟩

/-- Only the entries matter. -/
theorem of_entries (h : r'.entries = r.entries) : r.Retains r' := fun _ entry' he =>
  ⟨entry', h ▸ he, rfl⟩

theorem modify (r : Registry) (key : SubscriptionKey) {f : RegistryEntry → RegistryEntry}
    (hf : ∀ entry, (f entry).spec = entry.spec) (m : OrdMap ℕ SubscriptionKey) :
    r.Retains { r with entries := r.entries.modify key f, bySubId := m } := by
  intro k entry' he
  rcases OrdMap.get?_of_modify he with ⟨rfl, entry, hentry, rfl⟩ | he
  · exact ⟨entry, hentry, hf entry⟩
  · exact ⟨entry', he, rfl⟩

theorem erase (r : Registry) (key : SubscriptionKey) (m : OrdMap ℕ SubscriptionKey) :
    r.Retains { r with entries := r.entries.erase key, bySubId := m } :=
  fun _ entry' he => ⟨entry', OrdMap.get?_of_erase he, rfl⟩

theorem resetForNewSession (r : Registry) : r.Retains r.resetForNewSession := by
  intro k entry' he
  simp only [Registry.resetForNewSession, OrdMap.get?_mapVal, OrdMap.get?_filter,
    Option.map_eq_some_iff, Option.filter_eq_some_iff] at he
  obtain ⟨entry, ⟨he, -⟩, rfl⟩ := he
  exact ⟨entry, he, rfl⟩

theorem registryAfter (r : Registry) (subId : ℕ) (key : SubscriptionKey)
    (manager : SubscriptionManager) (n : Notification) :
    r.Retains (SessionDriver.registryAfter r subId key manager n) := by
  have hmanager : r.Retains (r.setManager key manager) :=
    modify r key (f := fun entry => { entry with manager := manager }) (fun _ => rfl) _
  have hactive : r.Retains ((r.setManager key manager).activate key) :=
    hmanager.trans (modify (r.setManager key manager) key
      (f := fun entry => { entry with state := .active, wasActive := true }) (fun _ => rfl) _)
  unfold SessionDriver.registryAfter
  split
  · exact hactive
  · exact hactive
  · exact erase r key _
  · exact hmanager

end Retains

end Registry

theorem Action.IsReport.carriesSpec {a : Action} (h : a.IsReport) (r : Registry) :
    a.CarriesSpec r := by
  cases a with
  | control => cases h
  | _ => trivial

theorem Action.carriesSpec_of_asks {a : Action} (h : a.asks = none) (r : Registry) :
    a.CarriesSpec r := by
  unfold CarriesSpec
  split
  · cases h
  · trivial

theorem Action.CarriesSpec.of_retains {r r' : Registry} {a : Action} (h : a.CarriesSpec r')
    (hr : r.Retains r') : a.CarriesSpec r := by
  unfold CarriesSpec at h ⊢
  split
  · obtain ⟨entry', he, hasked⟩ := h
    obtain ⟨entry, he, hspec⟩ := hr _ entry' he
    exact ⟨entry, he, hspec ▸ hasked⟩
  · trivial

namespace SessionDriver

variable {d d' : SessionDriver} {key : SubscriptionKey}

/-! ## Issuing -/

theorem issueSubscription_retains (d : SessionDriver) (key : SubscriptionKey) :
    d.registry.Retains (d.issueSubscription key).2.registry := by
  have hallocate : ∀ {subId r}, d.registry.allocate = some (subId, r) →
      d.registry.Retains (r.bind key subId) := by
    intro subId r ha
    obtain ⟨-, rfl⟩ := Registry.allocate_eq_some ha
    exact .modify _ key (f := fun entry => { entry with wire := some subId, state := .pending })
      (fun _ => rfl) _
  obtain h | ⟨subId, r, ha, h | h | h⟩ := d.issueSubscription_registry key
  · exact .of_eq h
  · obtain ⟨-, rfl⟩ := Registry.allocate_eq_some ha
    exact h ▸ .of_entries rfl
  · exact h ▸ hallocate ha
  · exact h ▸ (hallocate ha).trans (.modify _ key
      (f := fun entry => { entry with wire := none }) (fun _ => rfl) _)

theorem issueAll_retains (d : SessionDriver) (keys : List SubscriptionKey) :
    d.registry.Retains (d.issueAll keys).2.registry := by
  induction keys generalizing d with
  | nil => exact .refl _
  | cons key keys ih => exact (d.issueSubscription_retains key).trans (ih _)

/-- An `add` carries the spec of its key. -/
theorem issueSubscription_carries (d : SessionDriver) (key : SubscriptionKey) :
    Extends (Action.CarriesSpec d.registry) d.trace (d.issueSubscription key).2.trace := by
  unfold issueSubscription
  split
  · exact .refl _ _
  · split
    · exact .refl _ _
    · rename_i session hsession _ subId r ha
      obtain ⟨-, rfl⟩ := Registry.allocate_eq_some ha
      dsimp only
      split
      · exact .refl _ _
      · rename_i entry he
        exact sendSubscribe_extends _ (fun _ h => h.carriesSpec _) fun id _ _ =>
          ⟨entry, he, rfl, rfl, rfl, rfl, rfl, rfl, rfl, rfl⟩

theorem issueAll_carries (d : SessionDriver) (keys : List SubscriptionKey) :
    Extends (Action.CarriesSpec d.registry) d.trace (d.issueAll keys).2.trace := by
  induction keys generalizing d with
  | nil => exact .refl _ _
  | cons key keys ih =>
    exact (d.issueSubscription_carries key).trans
      ((ih _).mono fun _ h => h.of_retains (d.issueSubscription_retains key))

theorem issueUnboundSubscriptions_carries (d : SessionDriver) :
    Extends (Action.CarriesSpec d.registry) d.trace d.issueUnboundSubscriptions.trace := by
  have h := d.issueAll_carries d.registry.unboundKeys
  unfold issueUnboundSubscriptions
  dsimp only
  split
  · exact h
  · exact h.trans (extends_report _ (fun _ ha => ha.carriesSpec _) trivial)

/-! ## Commands -/

/-- What asks for no subscription sends no other spec. -/
theorem Stands.carries (h : Stands d d') (r : Registry) :
    Extends (Action.CarriesSpec r) d.trace d'.trace := by
  obtain ⟨t, ht, hall, -⟩ := h.deals
  refine ⟨t, ht, fun a ha => Action.carriesSpec_of_asks ?_ r⟩
  exact Option.eq_none_iff_forall_ne_some.mpr fun g hg => (hall a ha).2 g hg

theorem subscribe_retains (d : SessionDriver) (key : SubscriptionKey) (spec : SubscriptionSpec) :
    (d.registry.want key spec).Retains (d.subscribe key spec).registry := by
  unfold subscribe
  dsimp only
  split
  · exact issueSubscription_retains { d with registry := d.registry.want key spec } key
  · exact .refl _

theorem subscribe_carries (d : SessionDriver) (key : SubscriptionKey) (spec : SubscriptionSpec) :
    Extends (Action.CarriesSpec (d.registry.want key spec)) d.trace
      (d.subscribe key spec).trace := by
  unfold subscribe
  dsimp only
  split
  · exact issueSubscription_carries { d with registry := d.registry.want key spec } key
  · exact .refl _ _

theorem onCommand_retains {c : SessionCommand} (hc : ∀ key spec, c ≠ .subscribe key spec) :
    d.registry.Retains (d.onCommand c).2.registry := by
  cases c with
  | subscribe key spec => exact absurd rfl (hc key spec)
  | unsubscribe key =>
    change d.registry.Retains (d.unsubscribe key).registry
    rw [unsubscribe_registry]
    split
    · exact .refl _
    · split
      · exact .erase _ key _
      · exact .modify _ key (f := fun entry => { entry with state := .removing }) (fun _ => rfl) _
  | _ => exact .of_eq (d.onCommand_registry hc fun _ h => by cases h)

/-! ## Lines -/

theorem announced_retains (d : SessionDriver) (sid : SessionId) (limit keepAlive : ℕ)
    (link : Option String) :
    d.registry.Retains (d.announced sid limit keepAlive link).registry := by
  have h : (d.announced sid limit keepAlive link).registry =
      if (d.conokKind sid).isFresh then d.registry.resetForNewSession else d.registry :=
    d.enterSession_registry sid keepAlive link (d.conokKind sid)
  rw [h]
  split
  · exact .resetForNewSession _
  · exact .refl _

/-- A `REQOK` commits the ceiling that it grants, and nothing else. -/
theorem onRequestOk_registry_eq (d : SessionDriver) (id : Option String) :
    (d.onRequestOk id).registry = d.registry.grant (d.grants (.requestOk id)) := by
  cases id with
  | none => rfl
  | some id =>
    simp only [onRequestOk, respond_toDesk, grants]
    cases (d.takePending id).1 with
    | none => exact d.takePending_registry id
    | some kind => cases kind <;> simp [acceptRequest, Registry.grant]

/-- The driver commits what a response grants. -/
theorem grants_eq (h : d.Pends) (n : Notification) :
    d.grants n = grantedBy (unsettled d.trace) n := by
  cases n with
  | requestOk id =>
    cases id with
    | none => rfl
    | some id =>
      have hmem : ∀ kind, (id, kind) ∈ unsettled d.trace ↔ (d.takePending id).1 = some kind :=
        fun kind => (h.mem_iff (id, kind)).trans takePending_eq_some.symm
      change _ = (unsettled d.trace).findSome? (Asked.granted id)
      cases hfound : (unsettled d.trace).findSome? (Asked.granted id) with
      | none =>
        rw [List.findSome?_eq_none_iff] at hfound
        unfold grants
        dsimp only
        split
        · next key f hkind =>
          have := hfound _ ((hmem _).2 hkind)
          simp [Asked.granted] at this
        · rfl
      | some g =>
        obtain ⟨r, hr, hg⟩ := List.exists_of_findSome?_eq_some hfound
        unfold Asked.granted at hg
        split at hg
        · split_ifs at hg with hid
          cases hg
          subst hid
          simp only [grants, (hmem _).1 hr]
        · cases hg
  | _ => rfl

/-- What is granted depends on the table of pending requests only. -/
theorem grants_congr (hpending : d'.pending = d.pending)
    (hgeneration : d'.generation = d.generation) (n : Notification) :
    d'.grants n = d.grants n := by
  unfold grants takePending
  rw [hpending, hgeneration]
  split
  · cases d.pending.get? _ <;> rfl
  · rfl

/-- A notification leaves the specs alone, but for the ceiling that it grants. -/
theorem onNotification_retains (d : SessionDriver) (n : Notification) :
    (d.registry.grant (d.grants n)).Retains (d.onNotification n).2.registry := by
  have hsame : ∀ {r}, r = d.registry → d.registry.Retains r := fun h => .of_eq h
  cases n with
  | connectionOk sid limit millis link =>
    refine Registry.Retains.trans (d.announced_retains sid limit (ofMillis millis) link) ?_
    change (d.announced sid limit (ofMillis millis) link).registry.Retains
      (d.announced sid limit (ofMillis millis) link).issueUnboundSubscriptions.registry
    rw [issueUnboundSubscriptions_registry]
    exact issueAll_retains _ _
  | requestOk id => exact .of_eq (d.onRequestOk_registry_eq id)
  | requestError id code message =>
    change d.registry.Retains (d.onRequestError id ⟨code, message⟩).registry
    obtain hr | ⟨key, ⟨-, hr⟩ | ⟨-, hr⟩⟩ := d.onRequestError_registry id ⟨code, message⟩
    · exact .of_eq hr
    · exact hr ▸ .erase _ key _
    · exact hr ▸ .modify d.registry key (f := fun entry =>
        { entry with state := if entry.wasActive then .active else .pending }) (fun _ => rfl) _
  | connectionError | «end» | loop | progressive => exact hsame (by simp [onNotification])
  | probe | noOp | wsOk | error | sync | clientIp | serverName | constraintsChanged =>
    exact hsame rfl
  | _ =>
    obtain hr | ⟨-, subId, key, manager, -, hr⟩ := d.onData_registry _
    · exact hsame hr
    · exact hr ▸ .registryAfter _ subId key manager _

/-- What a `CONOK` sends carries the specs that are held. -/
theorem onConok_carries (d : SessionDriver) (sid : SessionId) (limit keepAlive : ℕ)
    (link : Option String) :
    Extends (Action.CarriesSpec d.registry) d.trace (d.onConok sid limit keepAlive link).trace := by
  have henter := d.enterSession_extends sid keepAlive link (d.conokKind sid)
    (P := Action.CarriesSpec d.registry) (fun _ h => h.carriesSpec _) fun _ _ _ _ _ => trivial
  have hannounced : Extends (Action.CarriesSpec d.registry) d.trace
      (d.announced sid limit keepAlive link).trace :=
    henter.trans (extends_emit _ fun _ => trivial)
  rw [onConok_eq]
  exact hannounced.trans ((issueUnboundSubscriptions_carries _).mono fun _ h =>
    h.of_retains (d.announced_retains sid limit keepAlive link))

theorem onNotification_carries (d : SessionDriver) (n : Notification) :
    Extends (Action.CarriesSpec (d.registry.grant (d.grants n))) d.trace
      (d.onNotification n).2.trace := by
  cases hbind : isBind n with
  | false => exact (onNotification_stands hbind).carries _
  | true =>
    cases n with
    | connectionOk sid limit millis link => exact d.onConok_carries sid limit (ofMillis millis) link
    | _ => cases hbind

end SessionDriver

theorem Action.IsLoop.carriesSpec {a : Action} (h : a.IsLoop) (r : Registry) :
    a.CarriesSpec r := by
  cases a with
  | control => cases h
  | _ => trivial

namespace Drive

open SessionDriver

variable {properties : TransportProperties} {options : SessionOptions} {key : SubscriptionKey}
  {s s' t : Drive} {i : Input}

/-! ## Turns -/

/-- The registry with what the input does to the specs: one is subscribed, or the ceiling of one is
granted. -/
def specified (s : Drive) (i : Input) : Registry :=
  match i.wake with
  | .command (.subscribe key spec) => s.driver.registry.want key spec
  | _ => s.driver.registry.grant (i.notification.bind s.driver.grants)

/-- The driver holds and sends the specs of the registry only. -/
structure Follows (r : Registry) (d d' : SessionDriver) : Prop where
  retains : r.Retains d'.registry
  carries : Extends (Action.CarriesSpec r) d.trace d'.trace

theorem Follows.loop {r : Registry} {d d' : SessionDriver} (h : Follows r d d')
    (hdesk : SameDesk d' t) (ht : Extends Action.IsLoop d'.trace t.driver.trace) :
    Follows r d t.driver where
  retains := hdesk.registry ▸ h.retains
  carries := h.carries.trans (ht.mono fun _ ha => ha.carriesSpec r)

theorem Follows.afterPump {r : Registry} {d : SessionDriver} {p : Flow × SessionDriver}
    (h : Follows r d p.2) : Follows r d (Drive.afterPump p).driver :=
  h.loop (afterPump_sameDesk p) (afterPump_extends (fun _ ha => ha) p)

theorem Follows.afterWait {r : Registry} {d : SessionDriver} {p : Flow × SessionDriver}
    (h : Follows r d p.2) (next : Reopen) : Follows r d (Drive.afterWait next p).driver :=
  h.loop (.of_toDesk (afterWait_toDesk next p)) (afterWait_extends (fun _ ha => ha) next p)

/-- What a command does to the specs. -/
theorem onCommand_follows {c : SessionCommand} (hw : i.wake = .command c) :
    Follows (specified s i) s.driver ((s.driver.withTurn i.turn).onCommand c).2 := by
  by_cases hc : ∃ key spec, c = .subscribe key spec
  · obtain ⟨key, spec, rfl⟩ := hc
    simp only [specified, hw]
    exact ⟨subscribe_retains (s.driver.withTurn i.turn) key spec,
      subscribe_carries (s.driver.withTurn i.turn) key spec⟩
  · have hne : ∀ key spec, c ≠ .subscribe key spec := fun key spec heq => hc ⟨key, spec, heq⟩
    have hspecified : specified s i = s.driver.registry := by
      unfold specified
      split
      · rename_i key spec hw'
        rw [hw] at hw'
        cases hw'
        exact absurd rfl (hne key spec)
      · simp [Input.notification, hw, Registry.grant]
    rw [hspecified]
    exact ⟨onCommand_retains (d := s.driver.withTurn i.turn) hne,
      (onCommand_stands (d := s.driver.withTurn i.turn) hne).carries _⟩

/-- What a line does to the specs. -/
theorem onLine_follows {text : String} (hw : i.wake = .line text) :
    Follows (specified s i) s.driver ((s.driver.withTurn i.turn).onLine text).2 := by
  cases hp : parseLine text with
  | ok n =>
    have hspecified : specified s i = (s.driver.withTurn i.turn).heard.registry.grant
        ((s.driver.withTurn i.turn).heard.grants n) := by
      have hgrants : (s.driver.withTurn i.turn).heard.grants n = s.driver.grants n := by
        apply grants_congr <;> rfl
      rw [hgrants]
      simp [specified, hw, Input.notification_of_line hw hp]
    rw [onLine_of_ok _ hp, hspecified]
    exact ⟨onNotification_retains _ n, onNotification_carries (s.driver.withTurn i.turn).heard n⟩
  | error e =>
    have hspecified : specified s i = s.driver.registry := by
      simp [specified, hw, Input.notification, hp, Except.toOption, Registry.grant]
    rw [onLine_of_error _ hp, hspecified]
    exact ⟨.refl _, extends_emit (s.driver.withTurn i.turn).heard fun _ => trivial⟩

/-- **No turn holds or sends another spec** than the ones that were held, the one that it
subscribes and the one that it grants. -/
theorem step_follows (hstep : step s i = some s') : Follows (specified s i) s.driver s'.driver := by
  have hquiet : ∀ {d' : SessionDriver}, (∀ c, i.wake ≠ .command c) → (∀ text, i.wake ≠ .line text) →
      Follows s.driver.registry s.driver d' → Follows (specified s i) s.driver d' := by
    intro d' hcommand hline h
    have hspecified : specified s i = s.driver.registry := by
      unfold specified
      split
      · rename_i key spec hw
        exact absurd hw (hcommand _)
      · have hn : i.notification = none := by
          unfold Input.notification
          split
          · rename_i text hw
            exact absurd hw (hline text)
          · rfl
        rw [hn]
        rfl
    exact hspecified ▸ h
  have hself : Follows s.driver.registry s.driver (s.driver.withTurn i.turn) :=
    ⟨.refl _, .refl _ _⟩
  cases step_turns hstep with
  | waitCommand next c _ hw => exact (onCommand_follows hw).afterWait next
  | command c _ hw => exact (onCommand_follows hw).afterPump
  | line text _ hw => exact (onLine_follows hw).afterPump
  | waitOver next _ hw =>
    refine hquiet (by simp [hw]) (by simp [hw]) (hself.loop (.of_toDesk (by simp)) ?_)
    exact ⟨_, openNext_trace _ next, by simp [Action.IsLoop]⟩
  | waitStop next _ hw =>
    exact hquiet (by rcases hw with hw | hw <;> simp [hw]) (by rcases hw with hw | hw <;> simp [hw])
      (hself.loop (.of_toDesk (by simp)) (finish_extends _ (fun _ ha => ha) stopped))
  | openStop _ hw =>
    exact hquiet (by rcases hw with hw | hw <;> simp [hw]) (by rcases hw with hw | hw <;> simp [hw])
      (hself.loop (.of_toDesk (by simp)) (finish_extends _ (fun _ ha => ha) stopped))
  | opened _ hw =>
    exact hquiet (by simp [hw]) (by simp [hw])
      (hself.loop (t := established _) ⟨rfl, rfl, rfl, rfl⟩ (.refl _ _))
  | openFailed detail _ hw =>
    exact hquiet (by rcases hw with hw | ⟨hw, -⟩ <;> simp [hw])
      (by rcases hw with hw | ⟨hw, -⟩ <;> simp [hw])
      (hself.loop (unbind_sameDesk _ _) (unbind_extends _ (fun _ ha => ha) _))
  | timer _ hw =>
    refine hquiet (by simp [hw]) (by simp [hw]) (Follows.afterPump ⟨?_, ?_⟩)
    · exact .of_eq (onTimer_registry _)
    · exact onTimer_extends _ fun _ _ _ => trivial
  | interrupted flow _ hw =>
    refine hquiet ?_ ?_ (Follows.afterPump (p := (flow, _)) hself)
    · rcases hw with ⟨_, hw, -⟩ | ⟨hw, -⟩ | ⟨hw | hw, -⟩ <;> simp [hw]
    · rcases hw with ⟨_, hw, -⟩ | ⟨hw, -⟩ | ⟨hw | hw, -⟩ <;> simp [hw]

/-! ## Runs -/

/-- The request for another ceiling of the subscription that the input grants. -/
def grantOf (key : SubscriptionKey) (s : Drive) (i : Input) : Option FrequencyRequest :=
  (i.notification.bind (grantedBy (unsettled s.driver.trace))).filter fun g => g.key = key

/-- The request for another ceiling of the subscription that the driver commits. -/
def committed (key : SubscriptionKey) (s : Drive) (i : Input) : Option FrequencyRequest :=
  (i.notification.bind s.driver.grants).filter fun g => g.key = key

/-- What is committed is what was granted. -/
theorem committed_eq (h : s.driver.Pends) (key : SubscriptionKey) (i : Input) :
    committed key s i = grantOf key s i := by
  rw [committed, grantOf, funext (grants_eq h)]

/-- The requests granted for the subscription, in the order of their responses. -/
def grantsOf (key : SubscriptionKey) (s : Drive) (i : Input) (granted : List FrequencyRequest) :
    List FrequencyRequest :=
  granted ++ (grantOf key s i).toList

/-- The request issued last among the ones that were granted. -/
def lastIssued (granted issued : List FrequencyRequest) : Option FrequencyRequest :=
  (issued.filter fun g => g ∈ granted).getLast?

theorem isSome_lastIssued {granted issued : List FrequencyRequest}
    (h : ∀ g ∈ granted, g ∈ issued) :
    granted.getLast?.isSome = (lastIssued granted issued).isSome := by
  rw [lastIssued, Bool.eq_iff_iff, List.getLast?_isSome, List.getLast?_isSome, ne_eq, ne_eq,
    List.filter_eq_nil_iff, not_iff_not]
  constructor
  · rintro rfl g -
    simp
  · intro hnone
    refine List.eq_nil_iff_forall_not_mem.mpr fun g hg => ?_
    simpa [hg] using hnone g (h g hg)

/-- What the input does to the spec of one subscription. -/
theorem specified_get? (hi : ∀ spec, i.wake ≠ .command (.subscribe key spec)) {e : RegistryEntry}
    (he : (specified s i).entries.get? key = some e) :
    ∃ entry, s.driver.registry.entries.get? key = some entry ∧
      e.spec = entry.spec.granted (committed key s i) := by
  unfold specified at he
  split at he
  · rename_i k spec hw
    have hne : key ≠ k := fun heq => hi spec (heq ▸ hw)
    simp only [Registry.want, OrdMap.get?_insert, if_neg hne] at he
    exact ⟨e, he, by simp [committed, Input.notification, hw, SubscriptionSpec.granted]⟩
  · unfold committed
    cases hg : i.notification.bind s.driver.grants with
    | none =>
      rw [hg] at he
      exact ⟨e, he, rfl⟩
    | some g =>
      simp only [hg, Registry.grant, Registry.commitFrequency, OrdMap.get?_modify] at he
      split_ifs at he with hk
      · obtain ⟨entry, hentry, rfl⟩ := Option.map_eq_some_iff.mp he
        exact ⟨entry, hentry, by simp [Option.filter, hk, SubscriptionSpec.granted]⟩
      · exact ⟨e, he, by simp [Option.filter, Ne.symm hk, SubscriptionSpec.granted]⟩

/-- The subscription is held under the ceiling that was granted last, and every grant answers a
request that was issued. -/
structure Held (key : SubscriptionKey) (spec : SubscriptionSpec)
    (p : Drive × List FrequencyRequest) : Prop where
  spec : ∀ entry, p.1.driver.registry.entries.get? key = some entry →
    entry.spec = spec.granted p.2.getLast?
  issued : ∀ g ∈ p.2, g ∈ frequencyRequests key p.1.driver.trace
  logged : p.1.driver.Logged
  pends : p.1.driver.Pends

theorem frequencyRequests_mono {P : Action → Prop} {l l' : List Action} {g : FrequencyRequest}
    (h : g ∈ frequencyRequests key l) (ht : Extends P l l') : g ∈ frequencyRequests key l' := by
  obtain ⟨⟨a, ha, hg⟩, hkey⟩ := mem_frequencyRequests.mp h
  exact mem_frequencyRequests.mpr ⟨⟨a, ht.mem ha, hg⟩, hkey⟩

/-- A grant answers a request that was issued. -/
theorem mem_frequencyRequests_of_grants {d : SessionDriver} (h : d.Logged) {n : Notification}
    {g : FrequencyRequest} (hg : d.grants n = some g) : g ∈ frequencyRequests g.key d.trace := by
  unfold grants at hg
  split at hg
  · split at hg
    · rename_i id _ key f hp
      cases hg
      obtain ⟨request, ps, hrequest, hin⟩ := h.sent _ _ (takePending_eq_some.mp hp)
      refine mem_frequencyRequests.mpr ⟨⟨_, hin, ?_⟩, rfl⟩
      obtain ⟨id', hid', rfl⟩ := Option.map_eq_some_iff.mp hrequest
      simp [Action.frequencyRequest, hid']
    · cases hg
  · cases hg

theorem getLast?_append_toList {α : Type*} (l : List α) (o : Option α) :
    (l ++ o.toList).getLast? = o.or l.getLast? := by
  cases o <;> simp

/-- **Every turn keeps it so.** -/
theorem step_held {spec : SubscriptionSpec} {granted : List FrequencyRequest}
    (h : Held key spec (s, granted)) (hi : ∀ spec, i.wake ≠ .command (.subscribe key spec))
    (hstep : step s i = some s') : Held key spec (s', grantsOf key s i granted) := by
  have hfollows := step_follows hstep
  refine ⟨fun entry' he => ?_, fun g hg => ?_, step_logged h.logged hstep,
    step_pends h.pends h.logged hstep⟩
  · obtain ⟨e, he, hspec⟩ := hfollows.retains key entry' he
    obtain ⟨entry, hentry, hgrant⟩ := specified_get? hi he
    rw [hspec, hgrant, committed_eq h.pends, h.spec entry hentry, grantsOf, getLast?_append_toList,
      SubscriptionSpec.granted_or]
  · rcases List.mem_append.mp hg with hg | hg
    · exact frequencyRequests_mono (h.issued g hg) hfollows.carries
    · obtain ⟨hg, hkey⟩ := Option.filter_eq_some_iff.mp (Option.mem_toList.mp hg)
      obtain ⟨n, -, hg⟩ := Option.bind_eq_some_iff.mp hg
      have hmem := mem_frequencyRequests_of_grants h.logged ((grants_eq h.pends n).trans hg)
      rw [of_decide_eq_true hkey] at hmem
      exact frequencyRequests_mono hmem hfollows.carries

theorem exec_held {spec : SubscriptionSpec} {inputs : List Input} {granted : List FrequencyRequest}
    {p : Drive × List FrequencyRequest} (h : Held key spec p)
    (hinputs : ∀ i ∈ inputs, ∀ spec, i.wake ≠ .command (.subscribe key spec))
    (hrun : exec (watch step (grantsOf key)) p inputs = some (t, granted)) :
    Held key spec (t, granted) := by
  refine exec_invariant (I := Held key spec) ?_ h (guarded_of_forall_mem hinputs) hrun
  rintro ⟨s, granted⟩ i p' hs hi hwatch
  obtain ⟨s', hstep, rfl⟩ := Option.map_eq_some_iff.mp hwatch
  exact step_held hs hi hstep

/-- What a bind sends carries the specs that are held. -/
theorem carries_of_isBind {n : Notification} (hn : i.notification = some n)
    (hbind : isBind n = true) (hstep : step s i = some s') :
    Extends (Action.CarriesSpec s.driver.registry) s.driver.trace s'.driver.trace := by
  have hspecified : specified s i = s.driver.registry := by
    obtain ⟨text, hw, -⟩ := Input.notification_eq_some hn
    simp only [specified, hw, hn]
    cases n with
    | connectionOk => rfl
    | _ => cases hbind
  exact hspecified ▸ (step_follows hstep).carries

/-- **The ceiling granted last stands.** Along every run, a subscription is held as it was, but for
the ceiling of the request whose `REQOK` arrived last, and each request that was granted was issued.
That is the ceiling of the granted request that was issued last exactly when the two asked for the
same. The next bind asks for what is held. -/
theorem last_granted_stands {entry entry' : RegistryEntry} {inputs : List Input}
    {granted : List FrequencyRequest} (h : Reachable properties options s)
    (hentry : s.driver.registry.entries.get? key = some entry)
    (hinputs : ∀ i ∈ inputs, ∀ spec, i.wake ≠ .command (.subscribe key spec))
    (hrun : exec (watch step (grantsOf key)) (s, []) inputs = some (t, granted))
    (hentry' : t.driver.registry.entries.get? key = some entry') :
    entry'.spec = entry.spec.granted granted.getLast? ∧
    (∀ g ∈ granted, g ∈ frequencyRequests key t.driver.trace) ∧
    (entry'.spec = entry.spec.granted
        (lastIssued granted (frequencyRequests key t.driver.trace)) ↔
      granted.getLast?.map FrequencyRequest.maxFrequency =
        (lastIssued granted (frequencyRequests key t.driver.trace)).map
          FrequencyRequest.maxFrequency) ∧
    ∀ i n t', i.notification = some n → isBind n = true → step t i = some t' →
      ∀ request parameters error, .control (.subscribe request) (some (.subscribe key)) parameters
        error ∈ t'.driver.trace.drop t.driver.trace.length →
          request.requestedMaxFrequency = entry'.spec.requestedMaxFrequency := by
  have hstart : Held key entry.spec (s, []) := by
    refine ⟨fun e he => ?_, fun g hg => absurd hg List.not_mem_nil, h.logged, h.pends⟩
    rw [hentry] at he
    cases he
    rfl
  have hheld := exec_held hstart hinputs hrun
  have hspec := hheld.spec entry' hentry'
  refine ⟨hspec, hheld.issued, ?_, fun i n t' hn hbind hstep request ps error hin => ?_⟩
  · rw [hspec]
    exact SubscriptionSpec.granted_eq_granted_iff (isSome_lastIssued hheld.issued)
  · obtain ⟨e, he, hasked⟩ := (carries_of_isBind hn hbind hstep).of_mem_drop hin
    rw [hentry'] at he
    cases he
    exact hasked.requestedMaxFrequency

/-- A subscription that the server confirmed. -/
def confirmed : List Input :=
  [⟨.opened, {}⟩, binding "S1", ⟨.command (.subscribe 7 (.new "items" "fields" .merge)), {}⟩,
    ⟨.line "REQOK,1", {}⟩, ⟨.line "SUBOK,1,1,1", {}⟩]

/-- Ceilings of one and of two updates a second. -/
def onePerSecond : DecimalNumber := ⟨"1.0", rfl⟩

def twoPerSecond : DecimalNumber := ⟨"2.0", rfl⟩

/-- The caller asks for one, then for two updates a second. -/
def twoCeilings : List Input :=
  [⟨.command (.reconfigure 7 (.limited onePerSecond)), {}⟩,
    ⟨.command (.reconfigure 7 (.limited twoPerSecond)), {}⟩]

theorem last_granted_stands_in_order :
    ∃ s t entry', exec step (start ⟨true, false, false⟩ .default 1 0) confirmed = some s ∧
      exec (watch step (grantsOf 7)) (s, []) (twoCeilings ++ [⟨.line "REQOK,2", {}⟩,
        ⟨.line "REQOK,3", {}⟩]) = some (t, [⟨"2", 7, .limited onePerSecond⟩,
          ⟨"3", 7, .limited twoPerSecond⟩]) ∧
      t.driver.registry.entries.get? 7 = some entry' ∧
      entry'.spec.requestedMaxFrequency = some (.limited twoPerSecond) := by
  obtain ⟨s, t, entry, entry', hs, hentry, hrun, hentry'⟩ : ∃ s t entry entry',
      exec step (start ⟨true, false, false⟩ .default 1 0) confirmed = some s ∧
      s.driver.registry.entries.get? 7 = some entry ∧
      exec (watch step (grantsOf 7)) (s, []) (twoCeilings ++ [⟨.line "REQOK,2", {}⟩,
        ⟨.line "REQOK,3", {}⟩]) = some (t, [⟨"2", 7, .limited onePerSecond⟩,
          ⟨"3", 7, .limited twoPerSecond⟩]) ∧
      t.driver.registry.entries.get? 7 = some entry' :=
    ⟨_, _, _, _, rfl, rfl, rfl, rfl⟩
  have hstands := last_granted_stands ⟨1, 0, confirmed, hs⟩ hentry (by simp [twoCeilings]) hrun
    hentry'
  exact ⟨s, t, entry', hs, hrun, hentry', by rw [hstands.1]; rfl⟩

/-- **The ceiling issued last is superseded.** Two ceilings are granted, and the responses cross:
with every request answered, the subscription is held under the first, and the next session asks for
it, though the one issued last was granted. -/
theorem last_issued_superseded :
    ∃ s t granted entry' t',
      exec step (start ⟨true, false, false⟩ .default 1 0) confirmed = some s ∧
      exec (watch step (grantsOf 7)) (s, []) (twoCeilings ++ [⟨.line "REQOK,3", {}⟩,
        ⟨.line "REQOK,2", {}⟩]) = some (t, granted) ∧
      t.driver.pending.toList = [] ∧
      lastIssued granted (frequencyRequests 7 t.driver.trace) =
        some ⟨"3", 7, .limited twoPerSecond⟩ ∧
      t.driver.registry.entries.get? 7 = some entry' ∧
      entry'.spec.requestedMaxFrequency = some (.limited onePerSecond) ∧
      exec step t [⟨.line "END,48,expired", {}⟩, ⟨.opened, {}⟩, binding "S2"] = some t' ∧
      ∃ request parameters, Action.control (.subscribe request) (some (.subscribe 7)) parameters
        none ∈ t'.driver.trace.drop t.driver.trace.length ∧
          request.requestedMaxFrequency = some (.limited onePerSecond) := by
  refine ⟨_, _, _, _, _, rfl, rfl, by decide, by decide, rfl, rfl, rfl, ?_⟩
  exact ⟨_, _, List.mem_of_getElem? (i := 5) rfl, rfl⟩

end Drive

end Lightstreamer.Session
