import Lightstreamer.Client.Router
import Lightstreamer.Session.Correlation

/-!
# What the driver tells a stream

A key is in the driver's registry exactly while its stream was told nothing terminal (`Told`, from
the turn that takes its `Subscribe` on), and is told nothing before that turn (`Unasked`).
`step_minds` carries both through a turn, unless the turn is one of the two that drop an entry and
tell nobody: an `Unsubscribe` of an entry without a binding (`Forgets`), and a new session while the
removal of the entry is under way (`Lapses`).
-/

namespace Lightstreamer.Client

open Lightstreamer.Foundations Lightstreamer.Protocol Lightstreamer.Subscription
open Lightstreamer.Session hiding SessionEvent

/-! ## What a trace tells -/

/-- The event that an action publishes, whether or not the channel took it. -/
def emittedEvent : Action → Option Session.SessionEvent
  | .event event _ => some event
  | _ => none

/-- The event that an action puts into the channel. -/
def channelledEvent : Action → Option Session.SessionEvent
  | .event event true => some event
  | _ => none

/-- The events that the driver emitted. -/
def emitted (trace : List Action) : List Session.SessionEvent := trace.filterMap emittedEvent

/-- The events that the router receives. -/
def channelled (trace : List Action) : List Session.SessionEvent :=
  trace.filterMap channelledEvent

/-- What events tell the stream of `key`. -/
def told (key : SubscriptionKey) (events : List Session.SessionEvent) : List SubscriptionEvent :=
  events.filterMap (tells key)

/-- What an action tells the stream of `key`. -/
def actionTells (key : SubscriptionKey) (a : Action) : Option SubscriptionEvent :=
  (emittedEvent a).bind (tells key)

/-- An action that tells the stream of `key` nothing. -/
def Silent (key : SubscriptionKey) (a : Action) : Prop := actionTells key a = none

/-- An action that does not end the stream of `key`. -/
def Mild (key : SubscriptionKey) (a : Action) : Prop :=
  ∀ event, actionTells key a = some event → event.isTerminal = false

variable {key : SubscriptionKey} {trace trace' : List Action}

theorem Silent.mild {a : Action} (h : Silent key a) : Mild key a := by
  intro event hevent
  rw [h] at hevent
  cases hevent

theorem told_emitted : told key (emitted trace) = trace.filterMap (actionTells key) :=
  List.filterMap_filterMap

theorem channelled_sublist (trace : List Action) :
    (channelled trace).Sublist (emitted trace) := by
  induction trace with
  | nil => exact .slnil
  | cons a trace ih =>
    cases a with
    | event event delivered =>
      cases delivered with
      | true => exact ih.cons_cons event
      | false => exact ih.cons event
    | _ => exact ih

theorem told_of_silent (h : Extends (Silent key) trace trace') :
    told key (emitted trace') = told key (emitted trace) := by
  rw [told_emitted, told_emitted]
  exact h.filterMap_eq fun _ => id

theorem unended_of_mild (h : Extends (Mild key) trace trace') :
    Unended (told key (emitted trace')) ↔ Unended (told key (emitted trace)) := by
  obtain ⟨t, rfl, ht⟩ := h
  rw [told_emitted, told_emitted, List.filterMap_append, unended_append]
  refine and_iff_left fun event hevent => ?_
  obtain ⟨a, ha, htells⟩ := List.mem_filterMap.1 hevent
  exact ht a ha event htells

/-- A terminal event is never taken back. -/
theorem not_unended_of_mem {event : SubscriptionEvent} {a : Action} (ha : a ∈ trace)
    (htells : actionTells key a = some event) (hevent : event.isTerminal = true) :
    ¬Unended (told key (emitted trace)) := fun h => by
  rw [told_emitted] at h
  have hmild := h event (List.mem_filterMap.2 ⟨a, ha, htells⟩)
  rw [hevent] at hmild
  cases hmild

theorem silent_of_isLoop {a : Action} (h : a.IsLoop) : Silent key a := by
  cases a with
  | event event b =>
    cases event with
    | unbound | closed => rfl
    | _ => cases h
  | _ => rfl

/-- A request that was not sent concerns a stream only when it is its `add`, and puts that off. -/
theorem actionTells_notSent (id : Option RequestId) (kind : PendingKind) (reason : String)
    (b : Bool) : actionTells key (.event (.controlResponse id kind.target (.notSent reason)) b) =
      if kind = .subscribe key then some (.deferred reason) else none := by
  cases kind with
  | subscribe k => simp [actionTells, emittedEvent, tells, PendingKind.target]
  | _ => rfl

theorem mild_notSent (id : Option RequestId) (kind : PendingKind) (reason : String) (b : Bool) :
    Mild key (.event (.controlResponse id kind.target (.notSent reason)) b) := by
  intro event hevent
  rw [actionTells_notSent] at hevent
  split_ifs at hevent
  cases hevent
  rfl

theorem silent_notSent {kind : PendingKind} (hkind : kind ≠ .subscribe key) (id : Option RequestId)
    (reason : String) (b : Bool) :
    Silent key (.event (.controlResponse id kind.target (.notSent reason)) b) := by
  rw [Silent, actionTells_notSent, if_neg hkind]

/-- What holds of the news about requests of kinds in `K` holds of a notice. -/
theorem notice_of_notSent {K : PendingKind → Prop} {P : Action → Prop} {a : Action}
    (h : a.Notice K) (hnotSent : ∀ id kind reason b, K kind →
      P (.event (.controlResponse id kind.target (.notSent reason)) b))
    (hsilent : ∀ a, (∀ key, Silent key a) → P a) : P a := by
  cases a with
  | event event b =>
    cases event with
    | controlResponse id target outcome =>
      cases id with
      | none =>
        cases outcome with
        | notSent reason =>
          obtain ⟨kind, hK, rfl⟩ := h
          exact hnotSent none kind reason b hK
        | _ => cases h
      | some id => cases h
    | resubscribed | message => exact hsilent _ fun _ => rfl
    | _ => cases h
  | _ => cases h

/-- What issuing requests of kinds in `K` says. -/
theorem issues_extends {K : PendingKind → Prop} {P : Action → Prop} {d d' : SessionDriver}
    (h : SessionDriver.Issues K d d') (hnotSent : ∀ id kind reason b, K kind →
      P (.event (.controlResponse id kind.target (.notSent reason)) b))
    (hsilent : ∀ a, (∀ key, Silent key a) → P a) : Extends P d.trace d'.trace := by
  have hcontrol : ∀ r kind ps e, P (.control r kind ps e) := fun _ _ _ _ => hsilent _ fun _ => rfl
  induction h with
  | plain _ _ _ htrace =>
    exact htrace.mono fun a ha => notice_of_notSent ha hnotSent hsilent
  | trans _ _ ih ih' => exact ih.trans ih'
  | @dispatch d d' d₁ id request kind _ _ _ _ htrace _ hK =>
    rw [← htrace]
    obtain ⟨error, e, hd, rfl⟩ | ⟨ps, e, hd, -, -, -, -, -, ht⟩ |
        ⟨ps, error, b, e, hd, -, -, -, -, -, ht⟩ := d₁.dispatch_cases request id kind
    · rw [hd]
      exact d₁.extends_emit fun _ => hnotSent _ _ _ _ hK
    · rw [hd, ht]
      exact .one (hcontrol _ _ _ _) _
    · rw [hd, ht, List.append_cons]
      exact (Extends.one (hcontrol _ _ _ _) _).concat (hnotSent _ _ _ _ hK)

/-! ## The registry and the stream -/

section registry

variable (r : Registry) {k : SubscriptionKey}

/-- The key is in the registry. -/
def wants (r : Registry) (key : SubscriptionKey) : Bool := (r.entries.get? key).isSome

theorem wants_modify (k : SubscriptionKey) (f : RegistryEntry → RegistryEntry)
    (m : OrdMap ℕ SubscriptionKey) (n : ℕ) :
    wants ⟨r.entries.modify k f, m, n⟩ key = wants r key := by
  by_cases hk : key = k <;> simp [wants, hk]

theorem wants_erase_of_ne (hk : k ≠ key) (m : OrdMap ℕ SubscriptionKey) (n : ℕ) :
    wants ⟨r.entries.erase k, m, n⟩ key = wants r key := by
  simp [wants, hk.symm]

theorem wants_want_of_ne (hk : k ≠ key) (spec : SubscriptionSpec) :
    wants (r.want k spec) key = wants r key := by
  simp [wants, Registry.want, hk.symm]

/-- A new session keeps what is not being removed. -/
theorem wants_resetForNewSession
    (h : ∀ entry, r.entries.get? key = some entry → entry.state ≠ .removing) :
    wants r.resetForNewSession key = wants r key := by
  cases he : r.entries.get? key with
  | none => simp [wants, Registry.resetForNewSession, he]
  | some entry => simp [wants, Registry.resetForNewSession, he, h entry he]

theorem wants_issueSubscription (d : SessionDriver) (k : SubscriptionKey) :
    wants (d.issueSubscription k).2.registry key = wants d.registry key := by
  obtain h | ⟨subId, r, ha, h | h | h⟩ := d.issueSubscription_registry k
  · rw [h]
  all_goals
    obtain ⟨-, rfl⟩ := Registry.allocate_eq_some ha
    rw [h]
  · rfl
  · exact wants_modify _ k _ _ _
  · exact (wants_modify _ k _ _ _).trans (wants_modify _ k _ _ _)

theorem wants_issueUnboundSubscriptions (d : SessionDriver) :
    wants d.issueUnboundSubscriptions.registry key = wants d.registry key := by
  have hall : ∀ (keys : List SubscriptionKey) (d : SessionDriver),
      wants (d.issueAll keys).2.registry key = wants d.registry key := by
    intro keys
    induction keys with
    | nil => exact fun d => rfl
    | cons k keys ih => exact fun d => (ih _).trans (wants_issueSubscription d k)
  rw [SessionDriver.issueUnboundSubscriptions_registry, hall]

end registry

/-- The key is in the registry exactly while its stream was told nothing terminal. -/
def Told (key : SubscriptionKey) (d : SessionDriver) : Prop :=
  wants d.registry key = true ↔ Unended (told key (emitted d.trace))

/-- The driver has not heard of the key. -/
structure Unasked (key : SubscriptionKey) (d : SessionDriver) : Prop where
  registry : wants d.registry key = false
  trace : told key (emitted d.trace) = []
  pending : ∀ id p, d.pending.get? id = some p → p.kind ≠ .subscribe key

/-- The stream and the registry stay in step, and a key that was not asked for stays so. -/
structure Minds (key : SubscriptionKey) (d d' : SessionDriver) : Prop where
  told : Told key d → Told key d'
  unasked : Unasked key d → Unasked key d'

namespace Minds

variable {d d' d'' : SessionDriver}

theorem trans (h : Minds key d d') (h' : Minds key d' d'') : Minds key d d'' :=
  ⟨fun hd => h'.told (h.told hd), fun hd => h'.unasked (h.unasked hd)⟩

/-- The key stays where it is, and its stream is not ended. -/
theorem of_mild (hwants : wants d'.registry key = wants d.registry key)
    (htrace : Extends (Mild key) d.trace d'.trace)
    (hunasked : Unasked key d → Extends (Silent key) d.trace d'.trace ∧
      ∀ id p, d'.pending.get? id = some p → p.kind ≠ .subscribe key) : Minds key d d' where
  told h := by
    rw [Told, hwants, unended_of_mild htrace]
    exact h
  unasked h := by
    obtain ⟨hsilent, hpending⟩ := hunasked h
    exact ⟨hwants.trans h.registry, (told_of_silent hsilent).trans h.trace, hpending⟩

theorem of_silent (hwants : wants d'.registry key = wants d.registry key)
    (htrace : Extends (Silent key) d.trace d'.trace)
    (hpending : ∀ id p, d'.pending.get? id = some p → d.pending.get? id = some p) :
    Minds key d d' :=
  .of_mild hwants (htrace.mono fun _ => Silent.mild) fun h =>
    ⟨htrace, fun id p hp => h.pending id p (hpending id p hp)⟩

/-- The key goes, and its stream is told that it ended. -/
theorem of_ended (hwants : wants d'.registry key = false) {event : SubscriptionEvent} {a : Action}
    (ha : a ∈ d'.trace) (htells : actionTells key a = some event)
    (hevent : event.isTerminal = true) (hasked : ¬Unasked key d) : Minds key d d' where
  told _ := by simp [Told, hwants, not_unended_of_mem ha htells hevent]
  unasked h := absurd h hasked

/-- Requests are issued, and none of them for a key that was not asked for. -/
theorem of_issues {K : PendingKind → Prop} (h : SessionDriver.Issues K d d')
    (hwants : wants d'.registry key = wants d.registry key)
    (hK : Unasked key d → ∀ kind, K kind → kind ≠ .subscribe key) : Minds key d d' := by
  refine .of_mild hwants (issues_extends h (fun _ _ _ _ _ => mild_notSent _ _ _ _) fun a ha =>
    (ha key).mild) fun hd => ⟨issues_extends h (fun id kind reason b hkind =>
      silent_notSent (hK hd kind hkind) id reason b) fun a ha => ha key, fun id p hp => ?_⟩
  obtain hp | hp := h.files.filed id p hp
  · exact hd.pending id p hp
  · exact hK hd _ hp.2

/-- What the loop does is about no stream. -/
theorem of_loop {s : Drive} (h : Drive.SameDesk d s)
    (ht : Extends Action.IsLoop d.trace s.driver.trace) : Minds key d s.driver :=
  .of_silent (by rw [h.registry]) (ht.mono fun _ => silent_of_isLoop)
    fun _ _ hp => h.pending ▸ hp

end Minds

/-! ## Commands -/

theorem onCommand_minds {d : SessionDriver} {c : SessionCommand}
    (hfresh : ∀ spec, c ≠ .subscribe key spec)
    (hforgets : c = .unsubscribe key →
      ∀ entry, d.registry.entries.get? key = some entry → entry.wire ≠ none) :
    Minds key d (d.onCommand c).2 := by
  refine .of_issues (K := fun kind => c.kind = some kind)
    (d.onCommand_issues c fun _ hkind => hkind) ?_ fun _ kind hkind hsubscribe => ?_
  · cases c with
    | subscribe k spec =>
      have hk : k ≠ key := fun hk => hfresh spec (by rw [hk])
      have hwant : wants (d.registry.want k spec) key = wants d.registry key :=
        wants_want_of_ne d.registry hk spec
      change wants (d.subscribe k spec).registry key = _
      unfold SessionDriver.subscribe
      dsimp only
      split
      · exact (wants_issueSubscription _ k).trans hwant
      · exact hwant
    | unsubscribe k =>
      change wants (d.unsubscribe k).registry key = _
      rw [SessionDriver.unsubscribe_registry]
      cases he : d.registry.entries.get? k with
      | none => rfl
      | some entry =>
        dsimp only
        split_ifs with hwire
        · refine wants_erase_of_ne _ (fun hk => ?_) _ _
          subst hk
          exact hforgets rfl entry he (Option.isNone_iff_eq_none.1 hwire)
        · exact wants_modify _ k _ _ _
    | reconfigure k f => exact congrArg (wants · key) (d.reconfigure_registry k f)
    | sendMessage m => exact congrArg (wants · key) (d.sendMessage_registry m)
    | forceRebind b => exact congrArg (wants · key) (d.forceRebind_registry b)
    | destroy cause => exact congrArg (wants · key) (d.destroy_registry cause)
    | shutdown => rfl
  · subst hsubscribe
    cases c with
    | subscribe k spec =>
      cases hkind
      exact hfresh spec rfl
    | _ => cases hkind

/-- The turn that takes the `Subscribe` of a key puts the registry and the stream in step. -/
theorem subscribe_told {d : SessionDriver} (h : Unasked key d) (spec : SubscriptionSpec) :
    Told key (d.subscribe key spec) := by
  have hwant : Told key { d with registry := d.registry.want key spec } := by
    simp [Told, wants, Registry.want, h.trace, Unended]
  unfold SessionDriver.subscribe
  dsimp only
  split
  · exact (Minds.of_issues (SessionDriver.issueSubscription_issues (K := fun _ => True) _ trivial)
      (wants_issueSubscription _ key) fun hd => absurd hd.registry (by
        simp [wants, Registry.want])).told hwant
  · exact hwant

/-! ## Lines -/

theorem activate_terminal (m : SubscriptionManager) (items fields : ℕ)
    (commandFields : Option (ℕ × ℕ)) :
    (Router.streamEvent (m.activate items fields commandFields).1).isTerminal = false := by
  unfold SubscriptionManager.activate
  dsimp only
  split <;> rfl

theorem applyUpdate_terminal (m : SubscriptionManager) (itemIndex : ℕ) (rawValues : String) :
    (Router.streamEvent (m.applyUpdate itemIndex rawValues).1).isTerminal = false := by
  unfold SubscriptionManager.applyUpdate
  split
  · rfl
  · rfl
  · split
    · rfl
    · split
      · rfl
      · dsimp only
        split <;> rfl

/-- Only an `UNSUB` ends a subscription. -/
theorem handle_terminal {m : SubscriptionManager} {n : Notification} {outcome : SubscriptionOutcome}
    (h : (m.handle n).1 = some outcome) (hn : ∀ id, n ≠ .unsubscribed id) :
    (Router.streamEvent outcome).isTerminal = false := by
  have hposition : ∀ {tag : String} {item : ℕ} {f : ℕ → Subscription.SubscriptionEvent},
      (∀ index, f index ≠ .unsubscribed) →
      (Router.streamEvent ((m.itemPosition tag item).map f)).isTerminal = false := by
    intro tag item f hf
    cases m.itemPosition tag item with
    | error e => rfl
    | ok index =>
      have hindex := hf index
      simp only [Except.map, Router.streamEvent]
      unfold SubscriptionEvent.isTerminal
      split <;> simp_all
  cases n with
  | subscriptionOk id items fields =>
    have hactivate := activate_terminal m items fields none
    exact Option.some.inj h ▸ hactivate
  | subscriptionCommandOk id items fields key command =>
    have hactivate := activate_terminal m items fields (some (key, command))
    exact Option.some.inj h ▸ hactivate
  | update id item values =>
    have happly := applyUpdate_terminal m item values
    exact Option.some.inj h ▸ happly
  | endOfSnapshot id item =>
    unfold SubscriptionManager.handle at h
    dsimp only at h
    split at h <;> cases h <;> rfl
  | clearSnapshot => exact Option.some.inj h ▸ hposition nofun
  | overflow => exact Option.some.inj h ▸ hposition nofun
  | subscriptionReconfigured =>
    unfold SubscriptionManager.handle at h
    dsimp only at h
    split at h <;> cases h <;> rfl
  | unsubscribed id => exact absurd rfl (hn id)
  | _ => cases h

theorem wants_registryAfter (r : Registry) (subId : ℕ) {k : SubscriptionKey}
    (manager : SubscriptionManager) {n : Notification}
    (hn : k = key → ∀ id, n ≠ .unsubscribed id) :
    wants (SessionDriver.registryAfter r subId k manager n) key = wants r key := by
  have hset : wants (r.setManager k manager) key = wants r key := wants_modify r k _ _ _
  have hactivate : wants ((r.setManager k manager).activate k) key = wants r key :=
    (wants_modify _ k _ _ _).trans hset
  unfold SessionDriver.registryAfter
  split
  · exact hactivate
  · exact hactivate
  · rename_i id
    exact wants_erase_of_ne r (fun hk => hn hk id rfl) _ _
  · exact hset

/-- A notification ends the stream it is for when it is an `UNSUB`, which removes the key. -/
theorem notifySubscription_minds (d : SessionDriver) (n : Notification) :
    Minds key d (d.notifySubscription n) := by
  have hrefl : Minds key d d := .of_silent rfl (.refl _ _) fun _ _ hp => hp
  unfold SessionDriver.notifySubscription SessionDriver.interpretForSubscription
  cases d.resolveSubscription n with
  | none => exact hrefl
  | some p =>
    obtain ⟨subId, k⟩ := p
    cases he : d.registry.entries.get? k with
    | none => simpa only [he] using hrefl
    | some entry =>
      simp only [he]
      cases hh : (entry.manager.handle n).1 with
      | none =>
        refine .of_silent (wants_registryAfter _ _ _ fun _ id hn => ?_) (.refl _ _) fun _ _ hp => hp
        subst hn
        cases hh
      | some outcome =>
        by_cases hk : k = key
        · subst hk
          have hasked : ¬Unasked k d := fun hd => by
            have := hd.registry
            simp [wants, he] at this
          have htells : ∀ b, actionTells k (.event (.subscription d.progressive k outcome) b) =
              some (Router.streamEvent outcome) := fun b => by
            simp [actionTells, emittedEvent, tells]
          by_cases hn : ∃ id, n = .unsubscribed id
          · obtain ⟨id, rfl⟩ := hn
            cases hh
            refine .of_ended ?_ List.mem_concat_self (htells _) rfl hasked
            simp [wants, SessionDriver.registryAfter, Registry.remove]
          · have hn' : ∀ id, n ≠ .unsubscribed id := fun id h => hn ⟨id, h⟩
            refine .of_mild (wants_registryAfter _ _ _ fun _ => hn')
              (.one (fun event hevent => ?_) _) fun hd => absurd hd hasked
            rw [htells] at hevent
            cases hevent
            exact handle_terminal hh hn'
        · refine .of_silent (wants_registryAfter _ _ _ fun h => absurd h hk) (.one ?_ _)
            fun _ _ hp => hp
          simp [Silent, actionTells, emittedEvent, tells, hk]

theorem onData_minds (d : SessionDriver) (n : Notification) : Minds key d (d.onData n) := by
  have hsilent : Silent key (.data (SessionDriver.bump d.progressive) n) := rfl
  have hact : ∀ d' : SessionDriver, d'.progressive = SessionDriver.bump d.progressive →
      Minds key d' (d'.act (.data d'.progressive n)) := fun d' hp =>
    .of_silent rfl (.one (hp ▸ hsilent) _) fun _ _ hp => hp
  have hmessage : ∀ (d : SessionDriver) p s prog result,
      Minds key d (d.emit (.message p s prog result)) := fun d _ _ _ _ =>
    .of_silent rfl (d.extends_emit fun _ => rfl) fun _ _ hp => hp
  rcases Nat.eq_zero_or_pos d.skipRemaining with h | h
  · rw [SessionDriver.onData_of_no_skip h]
    have hcount : Minds key d { d with
        refreshStreak := 0, progressive := SessionDriver.bump d.progressive } :=
      .of_silent rfl (.refl _ _) fun _ _ hp => hp
    unfold SessionDriver.deliver
    dsimp only
    split
    · exact hcount.trans ((hact _ rfl).trans (hmessage _ _ _ _ _))
    · exact hcount.trans ((hact _ rfl).trans (hmessage _ _ _ _ _))
    · exact hcount.trans ((hact _ rfl).trans (notifySubscription_minds _ _))
  · rw [SessionDriver.onData_of_skip h]
    exact .of_silent rfl (.refl _ _) fun _ _ hp => hp

/-- A response that is no refusal of the key's `add` says nothing to its stream. -/
theorem respond_minds (d : SessionDriver) (id : String) {kind : Option PendingKind}
    {outcome : ControlOutcome}
    (h : kind ≠ some (.subscribe key) ∨ outcome = .accepted) :
    Minds key d (d.respond id kind outcome) := by
  refine .of_silent rfl (d.extends_emit fun b => ?_) fun _ _ hp => hp
  cases kind with
  | none => cases outcome <;> rfl
  | some kind =>
    cases kind with
    | subscribe k =>
      cases outcome with
      | accepted => rfl
      | _ =>
        have hk : k ≠ key := fun hk => by
          rcases h with h | h
          · exact h (by rw [hk])
          · cases h
        simp [Silent, actionTells, emittedEvent, tells, PendingKind.target, hk]
    | _ => cases outcome <;> rfl

theorem takePending_minds (d : SessionDriver) (id : String) :
    Minds key d (d.takePending id).2 := by
  refine .of_silent (by simp) (by simp) fun k p hp => ?_
  rw [SessionDriver.takePending_pending] at hp
  exact OrdMap.get?_of_erase hp

theorem onRequestOk_minds (d : SessionDriver) (id : Option String) :
    Minds key d (d.onRequestOk id) := by
  have haccept : ∀ (d : SessionDriver) kind, Minds key d (d.acceptRequest kind) := fun d kind => by
    refine .of_silent ?_ (by simp) fun _ _ hp => by simpa using hp
    unfold SessionDriver.acceptRequest
    split
    · exact wants_modify _ _ _ _ _
    · rfl
  cases id with
  | none => exact .of_silent rfl (.refl _ _) fun _ _ hp => hp
  | some id =>
    exact (takePending_minds d id).trans ((haccept _ _).trans (respond_minds _ _ (.inr rfl)))

/-- The refusal of an `add` ends its stream and removes its key. -/
theorem onRequestError_minds (d : SessionDriver) (id : String) (cause : ServerCause) :
    Minds key d (d.onRequestError id cause) := by
  by_cases hkind : (d.takePending id).1 = some (.subscribe key)
  · have hasked : ¬Unasked key d := fun hd =>
      hd.pending id _ (SessionDriver.takePending_eq_some.1 hkind) rfl
    unfold SessionDriver.onRequestError
    dsimp only
    rw [hkind]
    have htells : ∀ b, actionTells key (.event (.controlResponse (RequestId.tryNew id).toOption
        (.subscription key .subscribe) (.rejected cause)) b) = some (.rejected cause) := fun b => by
      simp [actionTells, emittedEvent, tells]
    refine .of_ended ?_ List.mem_concat_self (htells _) rfl hasked
    simp [wants, SessionDriver.respond, SessionDriver.undoRequest, Registry.drop]
  · have hundo : ∀ d' : SessionDriver,
        Minds key d' (d'.undoRequest cause (d.takePending id).1) := by
      intro d'
      refine .of_silent ?_ (d'.undoRequest_extends cause _ fun _ _ _ _ => rfl) fun _ _ hp => by
        simpa using hp
      unfold SessionDriver.undoRequest
      split
      · rename_i k hk
        exact wants_erase_of_ne _ (fun h => hkind (by rw [hk, h])) _ _
      · exact wants_modify _ _ _ _ _
      all_goals rfl
    exact (takePending_minds d id).trans ((hundo _).trans (respond_minds _ _ (.inl hkind)))

/-! ## A new session -/

/-- What the retirement of requests says: an answer to each. -/
theorem retireAll_tells {P : Action → Prop} (hsilent : ∀ a, (∀ key, Silent key a) → P a)
    (d : SessionDriver) {l : List (String × Pending)}
    (hP : ∀ q ∈ l, ∀ b, P (SessionDriver.retirement q.1 q.2.kind b)) :
    Extends P d.trace (d.retireAll l).trace := by
  induction l generalizing d with
  | nil => exact .refl _ _
  | cons q l ih =>
    refine Extends.trans ?_ (ih (d.retireOne q.1 q.2.kind) fun p hp =>
      hP p (List.mem_cons_of_mem _ hp))
    rw [SessionDriver.retireOne_trace]
    refine Extends.concat ?_ (hP q List.mem_cons_self _)
    cases q.2.kind with
    | sendMessage => exact d.extends_emit fun _ => hsilent _ fun _ => rfl
    | _ => exact .refl _ _

/-- The registry of a driver that enters a session: a new one drops what is being removed. -/
theorem wants_announced (key : SubscriptionKey) (d : SessionDriver) (sid : SessionId)
    (limit keepAlive : ℕ) (link : Option String) :
    wants (d.announced sid limit keepAlive link).registry key =
      wants (if (d.conokKind sid).isFresh then d.registry.resetForNewSession else d.registry)
        key := by
  rw [SessionDriver.announced, SessionDriver.emit_toDesk, SessionDriver.enterSession_registry]

/-- Nothing is issued for a key that was not asked for. -/
theorem Unasked.notMem_unboundKeys {d : SessionDriver} (h : Unasked key d) (sid : SessionId)
    (limit keepAlive : ℕ) (link : Option String) :
    key ∉ (d.announced sid limit keepAlive link).registry.unboundKeys := fun hk => by
  obtain ⟨entry, hentry, -⟩ := Registry.mem_unboundKeys.1 hk
  have hwants := wants_announced key d sid limit keepAlive link
  have hnone := h.registry
  rw [wants, hentry, wants] at hwants
  rw [wants, Option.isSome_eq_false_iff, Option.isNone_iff_eq_none] at hnone
  split_ifs at hwants <;> simp [Registry.resetForNewSession, hnone] at hwants

/-- What entering a session says: an answer to each request that is retired, and one to each `add`
that does not leave. -/
theorem onConok_tells (key : SubscriptionKey) {P : Action → Prop} (d : SessionDriver)
    (sid : SessionId) (limit keepAlive : ℕ) (link : Option String)
    (hsilent : ∀ a, (∀ key, Silent key a) → P a)
    (hnotSent : ∀ id (kind : PendingKind) reason b, (Unasked key d → kind ≠ .subscribe key) →
      P (.event (.controlResponse id kind.target (.notSent reason)) b)) :
    Extends P d.trace (d.onConok sid limit keepAlive link).trace := by
  obtain ⟨e, he, -, -, hpending, -, -, ht⟩ :=
    d.enterSession_cases sid keepAlive link (d.conokKind sid)
  have hlink : P (.setControlLink link) := hsilent _ fun _ => rfl
  have hentered : Extends P d.trace e.trace := ht ▸ .one hlink _
  have hretired : Extends P d.trace e.retireStalePending.trace :=
    hentered.trans (retireAll_tells hsilent _ fun q hq b => hnotSent _ _ _ b fun hd => by
      obtain ⟨hp, -⟩ := SessionDriver.mem_arrange_stale e.turn.drain hq
      exact hd.pending q.1 q.2 (hpending ▸ hp))
  have hannounced : Extends P d.trace (d.announced sid limit keepAlive link).trace := by
    rw [SessionDriver.announced, he]
    split_ifs
    · exact hretired.concat (hsilent _ fun _ => rfl)
    · exact hentered.concat (hsilent _ fun _ => rfl)
  refine hannounced.trans (issues_extends (K := fun kind => Unasked key d → kind ≠ .subscribe key)
    (SessionDriver.issueUnboundSubscriptions_issues _ fun k hk hd hkey => ?_) hnotSent hsilent)
  cases hkey
  exact hd.notMem_unboundKeys sid limit keepAlive link hk

theorem onConok_mild (d : SessionDriver) (sid : SessionId) (limit keepAlive : ℕ)
    (link : Option String) :
    Extends (Mild key) d.trace (d.onConok sid limit keepAlive link).trace :=
  onConok_tells key d sid limit keepAlive link (fun _ ha => (ha key).mild)
    fun _ _ _ _ _ => mild_notSent _ _ _ _

theorem onConok_minds (d : SessionDriver) (sid : SessionId) (limit keepAlive : ℕ)
    (link : Option String) (hlapses : (d.conokKind sid).isFresh = true →
      ∀ entry, d.registry.entries.get? key = some entry → entry.state ≠ .removing) :
    Minds key d (d.onConok sid limit keepAlive link) := by
  refine .of_mild ?_ (onConok_mild d sid limit keepAlive link) fun hd =>
    ⟨onConok_tells key d sid limit keepAlive link (fun _ ha => ha key)
      fun _ _ _ _ hkind => silent_notSent (hkind hd) _ _ _, fun id p hp => ?_⟩
  · rw [SessionDriver.onConok_eq, wants_issueUnboundSubscriptions, wants_announced]
    split_ifs with hfresh
    · exact wants_resetForNewSession _ (hlapses hfresh)
    · rfl
  · have hfiles := SessionDriver.issueUnboundSubscriptions_files
      (K := fun kind => kind ≠ .subscribe key) (d.announced sid limit keepAlive link)
      fun k hk hkey => by
        cases hkey
        exact hd.notMem_unboundKeys sid limit keepAlive link hk
    obtain hp | ⟨-, hkind⟩ := hfiles.filed id p hp
    · rw [SessionDriver.announced_pending] at hp
      split_ifs at hp
      · rw [OrdMap.get?_filter, Option.filter_eq_some_iff] at hp
        exact hd.pending id p hp.1
      · exact hd.pending id p hp
    · exact hkind

theorem onNotification_minds (d : SessionDriver) {n : Notification}
    (hlapses : ∀ sid limit millis link, n = .connectionOk sid limit millis link →
      (d.conokKind sid).isFresh = true →
      ∀ entry, d.registry.entries.get? key = some entry → entry.state ≠ .removing) :
    Minds key d (d.onNotification n).2 := by
  have hreport : ∀ {event}, tells key event = none → Minds key d (d.emit event) := fun hevent =>
    .of_silent rfl (d.extends_emit fun _ => hevent) fun _ _ hp => hp
  have hquiet : ∀ {d' : SessionDriver}, d'.registry = d.registry → d'.pending = d.pending →
      d'.trace = d.trace → Minds key d d' := fun hr hp ht =>
    .of_silent (by rw [hr]) (ht ▸ .refl _ _) fun _ _ h => hp ▸ h
  cases n with
  | connectionOk sid limit millis link =>
    exact onConok_minds d sid limit _ link (hlapses sid limit millis link rfl)
  | connectionError | «end» | loop =>
    refine hquiet ?_ ?_ ?_ <;> simp [SessionDriver.onNotification]
  | requestOk id => exact onRequestOk_minds d id
  | requestError id code message => exact onRequestError_minds d id _
  | progressive n =>
    refine .of_silent (by simp [SessionDriver.onNotification]) ?_ fun _ _ hp => by
      simpa [SessionDriver.onNotification] using hp
    change Extends (Silent key) d.trace (d.onProg n).trace
    unfold SessionDriver.onProg
    split
    · split_ifs
      · exact .refl _ _
      all_goals exact SessionDriver.extends_emit _ fun _ => rfl
    · exact .refl _ _
  | probe | noOp | wsOk => exact hquiet rfl rfl rfl
  | error | sync | clientIp | serverName | constraintsChanged => exact hreport rfl
  | _ => exact onData_minds d _

/-! ## Turns -/

/-- The caller gives up a subscription that has no binding. The entry goes, and nobody is told. -/
def Forgets (key : SubscriptionKey) (s : Drive) (i : Input) : Prop :=
  i.wake = .command (.unsubscribe key) ∧
    ∃ entry ∈ s.driver.registry.entries.get? key, entry.wire = none

/-- A session is replaced while the removal of a subscription is under way. The entry goes, and
nobody is told. -/
def Lapses (key : SubscriptionKey) (s : Drive) (i : Input) : Prop :=
  s.renews i = true ∧ ∃ entry ∈ s.driver.registry.entries.get? key, entry.state = .removing

instance (key : SubscriptionKey) (s : Drive) (i : Input) : Decidable (Forgets key s i) :=
  inferInstanceAs (Decidable (_ ∧ _))

instance (key : SubscriptionKey) (s : Drive) (i : Input) : Decidable (Lapses key s i) :=
  inferInstanceAs (Decidable (_ ∧ _))

variable {s s' : Drive} {i : Input}

/-- **A turn keeps the registry and the stream in step.** -/
theorem step_minds (hsubscribe : ∀ spec, i.wake ≠ .command (.subscribe key spec))
    (hforgets : ¬Forgets key s i) (hlapses : ¬Lapses key s i) (hstep : Drive.step s i = some s') :
    Minds key s.driver s'.driver := by
  suffices h : Minds key (s.driver.withTurn i.turn) s'.driver from
    ⟨fun hd => h.told hd, fun hd => h.unasked ⟨hd.registry, hd.trace, hd.pending⟩⟩
  refine Drive.step_desk (R := Minds key) Minds.trans Minds.of_loop rfl (fun c hw => ?_)
    (fun text hw => ?_) ?_ hstep
  · refine onCommand_minds (fun spec hc => hsubscribe spec (by rw [hw, hc]))
      fun hc entry he hwire => hforgets ⟨by rw [hw, hc], entry, he, hwire⟩
  · have hheard : Minds key (s.driver.withTurn i.turn) (s.driver.withTurn i.turn).heard :=
      .of_silent rfl (.refl _ _) fun _ _ hp => hp
    cases hp : parseLine text with
    | error e =>
      rw [SessionDriver.onLine_of_error _ hp]
      exact hheard.trans (.of_silent rfl (SessionDriver.extends_emit _ fun _ => rfl)
        fun _ _ hq => hq)
    | ok n =>
      rw [SessionDriver.onLine_of_ok _ hp]
      refine hheard.trans (onNotification_minds _ ?_)
      intro sid limit millis link hn hfresh entry he hstate
      subst hn
      refine hlapses ⟨?_, entry, he, hstate⟩
      rw [Drive.renews, Input.notification_of_line hw hp]
      exact hfresh
  · have hheartbeat : ∀ r ps e, Silent key (.control (.heartbeat r) none ps e) := fun _ _ _ => rfl
    exact .of_silent (by simp) (SessionDriver.onTimer_extends _ hheartbeat) fun _ _ hp => by
      simpa using hp

/-- The turn that takes the `Subscribe` of a key. -/
theorem step_told {spec : SubscriptionSpec} (h : Unasked key s.driver)
    (hw : i.wake = .command (.subscribe key spec)) (hstep : Drive.step s i = some s') :
    Told key s'.driver := by
  have hunasked : Unasked key (s.driver.withTurn i.turn) := ⟨h.registry, h.trace, h.pending⟩
  have htold := subscribe_told hunasked spec
  cases Drive.step_turns hstep with
  | waitCommand next c _ hw' =>
    cases hw.symm.trans hw'
    refine (Minds.of_loop (.of_toDesk (Drive.afterWait_toDesk next _))
      (Drive.afterWait_extends (fun _ h => h) next _)).told htold
  | command c _ hw' =>
    cases hw.symm.trans hw'
    exact (Minds.of_loop (Drive.afterPump_sameDesk _)
      (Drive.afterPump_extends (fun _ h => h) _)).told htold
  | waitOver _ _ hw' | opened _ hw' | line _ _ hw' | timer _ hw' => cases hw.symm.trans hw'
  | waitStop _ _ hw' | openStop _ hw' => rcases hw' with hw' | hw' <;> cases hw.symm.trans hw'
  | openFailed _ _ hw' => rcases hw' with hw' | ⟨hw', -⟩ <;> cases hw.symm.trans hw'
  | interrupted _ _ hw' =>
    rcases hw' with ⟨_, hw', -⟩ | ⟨hw', -⟩ | ⟨hw' | hw', -⟩ <;> cases hw.symm.trans hw'

/-- The trace only grows. -/
theorem step_grows (hstep : Drive.step s i = some s') :
    Extends (fun _ => True) s.driver.trace s'.driver.trace := by
  change Extends (fun _ => True) (s.driver.withTurn i.turn).trace s'.driver.trace
  refine Drive.step_desk (R := fun d d' => Extends (fun _ => True) d.trace d'.trace)
    Extends.trans (fun _ ht => ht.mono fun _ _ => trivial) rfl (fun c _ => ?_) (fun text _ => ?_)
    ?_ hstep
  · exact SessionDriver.onCommand_extends _ (fun _ _ => trivial) c (fun _ _ _ _ => trivial)
      fun _ _ _ _ => trivial
  · cases hp : parseLine text with
    | error e =>
      rw [SessionDriver.onLine_of_error _ hp]
      exact SessionDriver.extends_emit (SessionDriver.heard _) fun _ => trivial
    | ok n =>
      rw [SessionDriver.onLine_of_ok _ hp]
      exact SessionDriver.onNotification_extends (SessionDriver.heard _) (fun _ _ => trivial) n
        (fun _ _ _ _ => trivial) (fun _ _ _ _ _ => trivial) (fun _ => trivial)
        (fun _ _ _ _ => trivial) fun _ _ _ _ _ _ => trivial
  · exact SessionDriver.onTimer_extends _ fun _ _ _ => trivial

end Lightstreamer.Client
