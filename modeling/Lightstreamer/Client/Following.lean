import Lightstreamer.Client.Streams
import Lightstreamer.Subscription.Accepted

/-!
# What follows from the managers for a stream

A stream is told what the managers of its subscription accept, one manager after the other when
sessions are replaced, and what they refuse. `Follows` collects what one event has to keep for a
property of the events of a stream to hold; then it holds of every stream in every run of a client
(`Tasks.stream_follows`). An ordered stop may abandon an event, and then the driver ends before the
next one (`Follows.step`).
-/

namespace Lightstreamer.Client

open Lightstreamer.Foundations Lightstreamer.Protocol Lightstreamer.Subscription
open Lightstreamer.Session hiding SessionEvent

/-! ## Events of a manager -/

/-- The event is one that a manager accepted. -/
def isFromWire : SubscriptionEvent → Bool
  | .fromWire _ => true
  | _ => false

/-- What one event has to keep: `Q` is a property of the events of a stream, and `R` relates them to
the manager in force. -/
structure Follows (Q : List SubscriptionEvent → Prop)
    (R : List SubscriptionEvent → SubscriptionManager → Prop) : Prop where
  start : Q []
  fresh : ∀ {events m}, m.activation = .pending → R events m
  aside : ∀ {events event}, isFromWire event = false → Q events →
    Q (events ++ [event]) ∧ ∀ {m}, R events m → R (events ++ [event]) m
  accepted : ∀ {events m m' event}, Q events → R events m → Accepted m event m' →
    Q (events ++ [.fromWire event]) ∧ R (events ++ [.fromWire event]) m'
  ofInitial : ∀ {events events'}, events' <+: events → Q events → Q events'

/-- An action that tells the stream of `key` nothing that its manager accepted. -/
def Idle (key : SubscriptionKey) (a : Action) : Prop :=
  ∀ event, actionTells key a = some event → isFromWire event = false

variable {key : SubscriptionKey} {trace trace' : List Action}

theorem Silent.idle {a : Action} (h : Silent key a) : Idle key a := by
  intro event hevent
  rw [h] at hevent
  cases hevent

/-- A response tells a stream that its `add` was refused or put off, if anything. -/
theorem idle_response (id : Option RequestId) (target : ControlTarget) (outcome : ControlOutcome)
    (b : Bool) : Idle key (.event (.controlResponse id target outcome) b) := by
  intro event hevent
  change tells key (.controlResponse id target outcome) = some event at hevent
  unfold tells at hevent
  split at hevent
  · rename_i heq
    cases heq
  · split_ifs at hevent
    cases hevent
    rfl
  · split_ifs at hevent
    cases hevent
    rfl
  · cases hevent

/-- What the router hears about a key. -/
def shown (key : SubscriptionKey) (trace : List Action) : List SubscriptionEvent :=
  told key (channelled trace)

theorem shown_concat (trace : List Action) (a : Action) :
    shown key (trace ++ [a]) = shown key trace ++
      ((channelledEvent a).bind (tells key)).toList := by
  rw [shown, channelled, told, List.filterMap_filterMap, List.filterMap_append, shown, channelled,
    told, List.filterMap_filterMap]
  cases h : (channelledEvent a).bind (tells key) <;> simp [h]

variable {Q : List SubscriptionEvent → Prop}
  {R : List SubscriptionEvent → SubscriptionManager → Prop}

/-- What is no event of a manager changes nothing. -/
theorem Follows.of_idle (hQR : Follows Q R) (h : Extends (Idle key) trace trace')
    (hQ : Q (shown key trace)) :
    Q (shown key trace') ∧ ∀ {m}, R (shown key trace) m → R (shown key trace') m := by
  refine h.invariant (I := fun l => Q (shown key l) ∧ ∀ {m}, R (shown key trace) m →
    R (shown key l) m) ⟨hQ, id⟩ fun l a ha hl => ?_
  rw [shown_concat]
  cases htells : (channelledEvent a).bind (tells key) with
  | none => simpa using hl
  | some event =>
    have hidle : isFromWire event = false := ha event <| by
      cases a with
      | event e b =>
        cases b with
        | true => exact htells
        | false => cases htells
      | _ => cases htells
    obtain ⟨hQ', hR⟩ := hQR.aside hidle hl.1
    exact ⟨hQ', fun hm => hR (hl.2 hm)⟩

/-! ## The registry -/

/-- The manager of the key in the registry is a new one, or the one it was. -/
def Inherits (key : SubscriptionKey) (r r' : Registry) : Prop :=
  ∀ entry', r'.entries.get? key = some entry' → entry'.manager.activation = .pending ∨
    ∃ entry, r.entries.get? key = some entry ∧ entry'.manager = entry.manager

namespace Inherits

variable {r r' r'' : Registry}

theorem of_eq (h : r'.entries = r.entries) : Inherits key r r' := fun entry' he =>
  .inr ⟨entry', h ▸ he, rfl⟩

theorem trans (h : Inherits key r r') (h' : Inherits key r' r'') : Inherits key r r'' := by
  intro entry'' he
  rcases h' entry'' he with hpending | ⟨entry', he', heq⟩
  · exact .inl hpending
  · rw [heq]
    exact h entry' he'

theorem modify (r : Registry) (k : SubscriptionKey) {f : RegistryEntry → RegistryEntry}
    (hf : ∀ entry, (f entry).manager = entry.manager) (m : OrdMap ℕ SubscriptionKey) (n : ℕ) :
    Inherits key r ⟨r.entries.modify k f, m, n⟩ := by
  intro entry' he
  rcases OrdMap.get?_of_modify he with ⟨rfl, entry, hget, rfl⟩ | he
  · exact .inr ⟨entry, hget, hf entry⟩
  · exact .inr ⟨entry', he, rfl⟩

theorem erase (r : Registry) (k : SubscriptionKey) (m : OrdMap ℕ SubscriptionKey) (n : ℕ) :
    Inherits key r ⟨r.entries.erase k, m, n⟩ := fun entry' he =>
  .inr ⟨entry', OrdMap.get?_of_erase he, rfl⟩

theorem want (r : Registry) (k : SubscriptionKey) (spec : SubscriptionSpec) :
    Inherits key r (r.want k spec) := by
  intro entry' he
  simp only [Registry.want, OrdMap.get?_insert] at he
  split at he
  · cases he
    exact .inl rfl
  · exact .inr ⟨entry', he, rfl⟩

theorem resetForNewSession (r : Registry) : Inherits key r r.resetForNewSession := by
  intro entry' he
  simp only [Registry.resetForNewSession, OrdMap.get?_mapVal, Option.map_eq_some_iff] at he
  obtain ⟨entry, -, rfl⟩ := he
  exact .inl rfl

theorem issueSubscription (d : SessionDriver) (k : SubscriptionKey) :
    Inherits key d.registry (d.issueSubscription k).2.registry := by
  obtain h | ⟨subId, r, ha, h | h | h⟩ := d.issueSubscription_registry k
  · exact .of_eq (by rw [h])
  all_goals
    obtain ⟨-, rfl⟩ := Registry.allocate_eq_some ha
    rw [h]
  · exact .of_eq rfl
  · refine modify _ k ?_ _ _
    exact fun _ => rfl
  · refine Inherits.trans (modify _ k ?_ (d.registry.bySubId.insert subId.val k) _)
      (modify _ k ?_ _ _)
    all_goals exact fun _ => rfl

theorem issueUnboundSubscriptions (d : SessionDriver) :
    Inherits key d.registry d.issueUnboundSubscriptions.registry := by
  have hall : ∀ (keys : List SubscriptionKey) (d : SessionDriver),
      Inherits key d.registry (d.issueAll keys).2.registry := by
    intro keys
    induction keys with
    | nil => exact fun d => .of_eq rfl
    | cons k keys ih => exact fun d => (issueSubscription d k).trans (ih _)
  rw [SessionDriver.issueUnboundSubscriptions_registry]
  exact hall _ d

theorem onCommand (d : SessionDriver) (c : SessionCommand) :
    Inherits key d.registry (d.onCommand c).2.registry := by
  cases c with
  | subscribe k spec =>
    change Inherits key d.registry (d.subscribe k spec).registry
    unfold SessionDriver.subscribe
    dsimp only
    split
    · exact (want d.registry k spec).trans (issueSubscription _ k)
    · exact want d.registry k spec
  | unsubscribe k =>
    change Inherits key d.registry (d.unsubscribe k).registry
    rw [SessionDriver.unsubscribe_registry]
    split
    · exact .of_eq rfl
    · split_ifs
      · exact erase _ k _ _
      · refine modify _ k ?_ _ _
        exact fun _ => rfl
  | _ =>
    exact .of_eq (congrArg _ (d.onCommand_registry (fun _ _ h => by cases h)
      fun _ h => by cases h))

end Inherits

/-! ## The driver -/

/-- The property holds of what the router hears about the key, and the manager of the key is related
to that. -/
structure Kept (Q : List SubscriptionEvent → Prop)
    (R : List SubscriptionEvent → SubscriptionManager → Prop) (key : SubscriptionKey)
    (d : SessionDriver) : Prop where
  follows : Follows Q R
  heard : Q (shown key d.trace)
  manager : ∀ entry, d.registry.entries.get? key = some entry →
    R (shown key d.trace) entry.manager

namespace Kept

variable {d d' : SessionDriver}

/-- An operation that keeps the manager or makes a new one, and tells nothing of a manager. -/
theorem of_idle (h : Kept Q R key d) (hr : Inherits key d.registry d'.registry)
    (ht : Extends (Idle key) d.trace d'.trace) : Kept Q R key d' := by
  obtain ⟨hQ, hR⟩ := h.follows.of_idle ht h.heard
  refine ⟨h.follows, hQ, fun entry' he => ?_⟩
  rcases hr entry' he with hpending | ⟨entry, hentry, hmanager⟩
  · exact h.follows.fresh hpending
  · exact hmanager ▸ hR (h.manager entry hentry)

theorem of_silent (h : Kept Q R key d) (hr : d'.registry = d.registry)
    (ht : Extends (Silent key) d.trace d'.trace) : Kept Q R key d' :=
  h.of_idle (.of_eq (by rw [hr])) (ht.mono fun _ => Silent.idle)

theorem of_eq (h : Kept Q R key d) (hr : d'.registry = d.registry) (ht : d'.trace = d.trace) :
    Kept Q R key d' :=
  h.of_silent hr (ht ▸ .refl _ _)

theorem emit (h : Kept Q R key d) {e : Session.SessionEvent} (he : tells key e = none) :
    Kept Q R key (d.emit e) :=
  h.of_silent rfl (d.extends_emit fun _ => he)

theorem of_loop (h : Kept Q R key d) {s : Drive} (hdesk : Drive.SameDesk d s)
    (ht : Extends Action.IsLoop d.trace s.driver.trace) : Kept Q R key s.driver :=
  h.of_silent hdesk.registry (ht.mono fun _ => silent_of_isLoop)

theorem of_issues (h : Kept Q R key d) {K : PendingKind → Prop}
    (hissues : SessionDriver.Issues K d d') (hr : Inherits key d.registry d'.registry) :
    Kept Q R key d' :=
  h.of_idle hr (issues_extends hissues (fun _ _ _ _ _ => idle_response _ _ _ _)
    fun _ ha => (ha key).idle)

theorem onCommand (h : Kept Q R key d) (c : SessionCommand) : Kept Q R key (d.onCommand c).2 :=
  h.of_issues (d.onCommand_issues (K := fun kind => c.kind = some kind) c fun _ hkind => hkind)
    (.onCommand d c)

theorem onConok (h : Kept Q R key d) (sid : SessionId) (limit keepAlive : ℕ)
    (link : Option String) : Kept Q R key (d.onConok sid limit keepAlive link) := by
  refine h.of_idle ?_ (onConok_tells key d sid limit keepAlive link (fun _ ha => (ha key).idle)
    fun _ _ _ _ _ => idle_response _ _ _ _)
  rw [SessionDriver.onConok_eq]
  refine Inherits.trans ?_ (.issueUnboundSubscriptions _)
  rw [SessionDriver.announced, SessionDriver.emit_toDesk, SessionDriver.enterSession_registry]
  split_ifs
  · exact .resetForNewSession d.registry
  · exact .of_eq rfl

theorem onRequestOk (h : Kept Q R key d) (id : Option String) :
    Kept Q R key (d.onRequestOk id) := by
  refine h.of_idle ?_ ?_
  · obtain hr | ⟨k, f, hr⟩ := d.onRequestOk_registry id
    · exact .of_eq (by rw [hr])
    · rw [hr]
      refine .modify _ k ?_ _ _
      exact fun _ => rfl
  · cases id with
    | none => exact .refl _ _
    | some id =>
      refine Extends.trans ?_ (SessionDriver.extends_emit _ fun _ => idle_response _ _ _ _)
      simp

theorem onRequestError (h : Kept Q R key d) (id : String) (cause : ServerCause) :
    Kept Q R key (d.onRequestError id cause) := by
  refine h.of_idle ?_ ?_
  · obtain hr | ⟨k, ⟨-, hr⟩ | ⟨-, hr⟩⟩ := d.onRequestError_registry id cause
    · exact .of_eq (by rw [hr])
    · rw [hr]
      exact .erase _ k _ _
    · rw [hr]
      refine .modify _ k ?_ _ _
      exact fun _ => rfl
  · have hundo : Extends (Idle key) d.trace
        ((d.takePending id).2.undoRequest cause (d.takePending id).1).trace := by
      have h := SessionDriver.undoRequest_extends (P := Idle key) (d.takePending id).2 cause
        (d.takePending id).1 fun _ _ _ _ => Silent.idle rfl
      rwa [SessionDriver.takePending_toSurroundings] at h
    exact hundo.trans (SessionDriver.extends_emit _ fun _ => idle_response _ _ _ _)

end Kept

/-- The registry after a notification holds what the manager of the key became. -/
theorem manager_registryAfter {r : Registry} {subId : ℕ} {manager : SubscriptionManager}
    {n : Notification} {entry' : RegistryEntry}
    (h : (SessionDriver.registryAfter r subId key manager n).entries.get? key = some entry') :
    entry'.manager = manager := by
  have hset : ∀ {entry'}, (r.setManager key manager).entries.get? key = some entry' →
      entry'.manager = manager := fun {entry'} h => by
    rw [Registry.setManager, OrdMap.get?_modify, if_pos rfl] at h
    obtain ⟨entry, -, rfl⟩ := Option.map_eq_some_iff.1 h
    rfl
  have hactivate : ∀ {entry'},
      ((r.setManager key manager).activate key).entries.get? key = some entry' →
      entry'.manager = manager := fun {entry'} h => by
    rw [Registry.activate, OrdMap.get?_modify, if_pos rfl] at h
    obtain ⟨entry, hentry, rfl⟩ := Option.map_eq_some_iff.1 h
    have hmanager := hset hentry
    exact hmanager
  unfold SessionDriver.registryAfter at h
  split at h
  · exact hactivate h
  · exact hactivate h
  · rw [Registry.remove, OrdMap.get?_erase, if_pos rfl] at h
    cases h
  · exact hset h

theorem inherits_registryAfter (r : Registry) (subId : ℕ) {k : SubscriptionKey} (hk : k ≠ key)
    (manager : SubscriptionManager) (n : Notification) :
    Inherits key r (SessionDriver.registryAfter r subId k manager n) := by
  intro entry' he
  refine .inr ⟨entry', ?_, rfl⟩
  unfold SessionDriver.registryAfter at he
  split at he <;>
    simpa [Registry.setManager, Registry.activate, Registry.remove, hk.symm] using he

/-- What is known of a driver that may have abandoned an event. -/
structure KeptOrStopping (Q : List SubscriptionEvent → Prop)
    (R : List SubscriptionEvent → SubscriptionManager → Prop) (key : SubscriptionKey)
    (d : SessionDriver) : Prop where
  heard : Q (shown key d.trace)
  kept : d.stopping = false → Kept Q R key d

theorem Kept.orStopping {d : SessionDriver} (h : Kept Q R key d) : KeptOrStopping Q R key d :=
  ⟨h.heard, fun _ => h⟩

/-- An event is told to the stream of the key, or it is abandoned and the driver stops. -/
theorem emit_shown (d : SessionDriver) (position : ℕ) (outcome : SubscriptionOutcome) :
    (shown key (d.emit (.subscription position key outcome)).trace = shown key d.trace ∧
        (d.emit (.subscription position key outcome)).stopping = true) ∨
      shown key (d.emit (.subscription position key outcome)).trace =
        shown key d.trace ++ [Router.streamEvent outcome] := by
  cases hinterrupted : d.turn.interrupts.headD false with
  | true =>
    refine .inl ⟨?_, ?_⟩
    · simp only [SessionDriver.emit, shown_concat, hinterrupted]
      exact List.append_nil _
    · simp only [SessionDriver.emit, hinterrupted, Bool.or_true]
  | false =>
    have htells : tells key (.subscription position key outcome) =
        some (Router.streamEvent outcome) := if_pos rfl
    refine .inr ?_
    simp only [SessionDriver.emit, shown_concat, hinterrupted]
    change shown key d.trace ++ (tells key (.subscription position key outcome)).toList = _
    rw [htells]
    rfl

/-- An outcome of the manager `m`, which `e` holds for the key as what it became. -/
theorem emit_kept {e : SessionDriver} {m : SubscriptionManager} {n : Notification}
    {outcome : SubscriptionOutcome} (hQR : Follows Q R) (hQ : Q (shown key e.trace))
    (hR : R (shown key e.trace) m) (houtcome : (m.handle n).1 = some outcome)
    (hmanager : ∀ entry, e.registry.entries.get? key = some entry →
      entry.manager = (m.handle n).2) (position : ℕ) :
    KeptOrStopping Q R key (e.emit (.subscription position key outcome)) := by
  obtain ⟨hshown, hstopping⟩ | hshown := emit_shown e position outcome
  · refine ⟨hshown ▸ hQ, fun h => ?_⟩
    cases hstopping.symm.trans h
  · have hnext : Q (shown key e.trace ++ [Router.streamEvent outcome]) ∧
        R (shown key e.trace ++ [Router.streamEvent outcome]) (m.handle n).2 := by
      cases outcome with
      | ok event => exact hQR.accepted hQ hR (SubscriptionManager.accepted_of_handle houtcome)
      | error error =>
        have hidle : isFromWire (.undecodable error) = false := rfl
        obtain ⟨hQ', hR'⟩ := hQR.aside hidle hQ
        rw [SubscriptionManager.handle_eq_of_error houtcome]
        exact ⟨hQ', hR' hR⟩
    refine Kept.orStopping ⟨hQR, hshown ▸ hnext.1, fun entry hentry => ?_⟩
    rw [hmanager entry hentry, hshown]
    exact hnext.2

/-- **A notification for a subscription**: the caller is told what its manager made of it, or the
event is abandoned, and the driver stops. -/
theorem notifySubscription_kept {d : SessionDriver} (h : Kept Q R key d) (n : Notification) :
    KeptOrStopping Q R key (d.notifySubscription n) := by
  unfold SessionDriver.notifySubscription SessionDriver.interpretForSubscription
  cases d.resolveSubscription n with
  | none => exact h.orStopping
  | some p =>
    obtain ⟨subId, k⟩ := p
    dsimp only
    cases he : d.registry.entries.get? k with
    | none => exact h.orStopping
    | some entry =>
      dsimp only
      let e : SessionDriver := { d with
        registry := SessionDriver.registryAfter d.registry subId k (entry.manager.handle n).2 n }
      by_cases hk : k = key
      · subst hk
        have hmanager := h.manager entry he
        cases houtcome : (entry.manager.handle n).1 with
        | none =>
          refine Kept.orStopping ⟨h.follows, h.heard, fun entry' he' => ?_⟩
          rw [manager_registryAfter he', SubscriptionManager.handle_of_none houtcome]
          exact hmanager
        | some outcome =>
          exact emit_kept (e := e) h.follows h.heard hmanager houtcome
            (fun entry' he' => manager_registryAfter he') d.progressive
      · have hkept : Kept Q R key e :=
          h.of_idle (inherits_registryAfter _ subId hk _ n) (.refl _ _)
        cases (entry.manager.handle n).1 with
        | none => exact hkept.orStopping
        | some outcome =>
          change KeptOrStopping Q R key (e.emit (.subscription d.progressive k outcome))
          exact Kept.orStopping (hkept.emit (if_neg hk))

theorem onData_kept {d : SessionDriver} (h : Kept Q R key d) (n : Notification) :
    KeptOrStopping Q R key (d.onData n) := by
  rcases Nat.eq_zero_or_pos d.skipRemaining with hskip | hskip
  · rw [SessionDriver.onData_of_no_skip hskip]
    let e : SessionDriver := { d with
      refreshStreak := 0, progressive := SessionDriver.bump d.progressive }
    have hpassed : Kept Q R key (e.act (.data e.progressive n)) := by
      refine h.of_silent rfl (.one ?_ _)
      exact (rfl : Silent key (.data e.progressive n))
    change KeptOrStopping Q R key (e.deliver n)
    unfold SessionDriver.deliver
    dsimp only
    split
    · exact Kept.orStopping (hpassed.emit rfl)
    · exact Kept.orStopping (hpassed.emit rfl)
    · exact notifySubscription_kept hpassed n
  · rw [SessionDriver.onData_of_skip hskip]
    exact Kept.orStopping (h.of_eq rfl rfl)

theorem onNotification_kept {d : SessionDriver} (h : Kept Q R key d) (n : Notification) :
    KeptOrStopping Q R key (d.onNotification n).2 := by
  have hquiet : ∀ {d' : SessionDriver}, d'.registry = d.registry → d'.trace = d.trace →
      KeptOrStopping Q R key d' := fun hr ht => Kept.orStopping (h.of_eq hr ht)
  cases n with
  | connectionOk sid limit millis link => exact (h.onConok sid limit _ link).orStopping
  | connectionError | «end» | loop =>
    refine hquiet ?_ ?_ <;> simp [SessionDriver.onNotification]
  | requestOk id => exact (h.onRequestOk id).orStopping
  | requestError id code message => exact (h.onRequestError id _).orStopping
  | progressive n =>
    refine Kept.orStopping (h.of_silent (by simp [SessionDriver.onNotification]) ?_)
    change Extends (Silent key) d.trace (d.onProg n).trace
    unfold SessionDriver.onProg
    split
    · split_ifs
      · exact .refl _ _
      all_goals exact SessionDriver.extends_emit _ fun _ => rfl
    · exact .refl _ _
  | probe | noOp | wsOk => exact hquiet rfl rfl
  | error | sync | clientIp | serverName | constraintsChanged =>
    exact Kept.orStopping (h.emit rfl)
  | _ => exact onData_kept h _

theorem onLine_kept {d : SessionDriver} (h : Kept Q R key d) (text : String) :
    KeptOrStopping Q R key (d.onLine text).2 := by
  have hheard : Kept Q R key d.heard := h.of_eq rfl rfl
  cases hp : parseLine text with
  | error e =>
    rw [SessionDriver.onLine_of_error _ hp]
    exact Kept.orStopping (hheard.emit rfl)
  | ok n =>
    rw [SessionDriver.onLine_of_ok _ hp]
    exact onNotification_kept hheard n

/-! ## Runs -/

/-- The property holds, and it goes on to hold, or the driver has ended. -/
def Settles (Q : List SubscriptionEvent → Prop)
    (R : List SubscriptionEvent → SubscriptionManager → Prop) (key : SubscriptionKey) (s : Drive) :
    Prop :=
  Q (shown key s.driver.trace) ∧ (Kept Q R key s.driver ∨ ∃ closed, s.phase = .closed closed)

theorem Kept.settles {s : Drive} (h : Kept Q R key s.driver) : Settles Q R key s :=
  ⟨h.heard, .inl h⟩

/-- After a turn of the pump: an event that was abandoned is the last that mattered. -/
theorem KeptOrStopping.afterPump {r : Flow × SessionDriver} (hQR : Follows Q R)
    (h : KeptOrStopping Q R key r.2) : Settles Q R key (Drive.afterPump r) := by
  have hloop := Drive.afterPump_extends (fun _ h => h) r
  cases hstopping : r.2.stopping with
  | false =>
    exact ((h.kept hstopping).of_loop (Drive.afterPump_sameDesk r) hloop).settles
  | true =>
    have hidle : Extends (Idle key) r.2.trace (Drive.afterPump r).driver.trace :=
      hloop.mono fun _ ha => (silent_of_isLoop ha).idle
    refine ⟨(hQR.of_idle hidle h.heard).1, .inr ⟨SessionDriver.stopped, ?_⟩⟩
    obtain ⟨flow, d⟩ := r
    dsimp only [Drive.afterPump]
    rw [if_pos hstopping]
    rfl

/-- **A turn of the driver** keeps the property, and what it takes to go on. -/
theorem Follows.step (hQR : Follows Q R) {s s' : Drive} {i : Input} (h : Settles Q R key s)
    (hstep : Drive.step s i = some s') : Settles Q R key s' := by
  have hkept : Kept Q R key (s.driver.withTurn i.turn) := by
    obtain ⟨-, hkept | ⟨closed, hclosed⟩⟩ := h
    · exact hkept.of_eq rfl rfl
    · rw [Drive.step, hclosed] at hstep
      cases hstep
  have hheartbeat : ∀ r ps e, Silent key (.control (.heartbeat r) none ps e) := fun _ _ _ => rfl
  have hdone : Kept Q R key (Drive.finish (s.driver.withTurn i.turn)
      SessionDriver.stopped).driver :=
    hkept.of_loop (.of_toDesk (by simp)) (Drive.finish_extends _ (fun _ h => h) _)
  cases Drive.step_turns hstep with
  | waitCommand next c =>
    exact Kept.settles ((hkept.onCommand c).of_loop (.of_toDesk (Drive.afterWait_toDesk next _))
      (Drive.afterWait_extends (fun _ h => h) next _))
  | waitOver next =>
    refine Kept.settles (hkept.of_silent rfl (.one ?_ _))
    exact (rfl : Silent key (.openStream _))
  | waitStop | openStop => exact hdone.settles
  | opened => exact Kept.settles (hkept.of_eq rfl rfl)
  | openFailed detail =>
    exact Kept.settles (hkept.of_loop (Drive.unbind_sameDesk _ _)
      (Drive.unbind_extends _ (fun _ h => h) _))
  | line text => exact (onLine_kept hkept text).afterPump hQR
  | command c => exact (hkept.onCommand c).orStopping.afterPump hQR
  | timer =>
    exact KeptOrStopping.afterPump hQR (Kept.orStopping (hkept.of_silent (by simp)
      (SessionDriver.onTimer_extends _ hheartbeat)))
  | interrupted flow => exact KeptOrStopping.afterPump (r := (flow, _)) hQR hkept.orStopping

theorem start_settles (hQR : Follows Q R) (properties : TransportProperties)
    (options : SessionOptions) (seed : UInt64) (now : ℕ) :
    Settles Q R key (Drive.start properties options seed now) :=
  Kept.settles ⟨hQR, hQR.start, fun entry hentry => by cases hentry⟩

namespace Tasks

variable {w : Tasks} {properties : TransportProperties} {options : SessionOptions} {seed : UInt64}
  {now capacity : ℕ} {moves : List Move}

/-- Only a turn of the driver changes the driver. -/
theorem step_drive {w' : Tasks} {move : Move} (h : step w move = some w') :
    w'.drive = w.drive ∨ ∃ i, Drive.step w.drive i = some w'.drive := by
  have hask : ∀ (w : Tasks) c, (w.ask c).drive = w.drive := fun w c => by
    obtain ⟨commands, hask, -⟩ := ask_eq 0 w c
    rw [hask]
  cases step_does h with
  | takes _ _ hdrive | turns _ hdrive => exact .inr ⟨_, hdrive⟩
  | rollsBack | drops => exact .inl (hask _ _)
  | ready | findsClosed =>
    obtain ⟨session, hfinish⟩ := w.finish_eq _
    exact .inl (by rw [hfinish])
  | _ => exact .inl rfl

/-- What turns of the driver keep, the moves of a client keep. -/
theorem exec_drive {I : Drive → Prop}
    (hI : ∀ {s s' i}, I s → Drive.step s i = some s' → I s')
    (hstart : I (.start properties options seed now))
    (hrun : exec step (start properties options seed now capacity) moves = some w) :
    I w.drive := by
  refine exec_invariant (G := fun _ _ => True) (I := fun w => I w.drive)
    (fun w move w' h _ hstep => ?_) hstart (guarded_true _ _ moves) hrun
  rcases step_drive hstep with heq | ⟨i, hi⟩
  · rw [heq]
    exact h
  · exact hI h hi

theorem untilTerminal_isInitial (events : List SubscriptionEvent) :
    untilTerminal events <+: events := by
  induction events with
  | nil => exact List.prefix_refl _
  | cons event events ih =>
    rw [untilTerminal]
    split_ifs
    · exact ⟨events, rfl⟩
    · exact (List.prefix_cons_inj event).2 ih

/-- **What the managers keep holds of every stream**, in every run of a client. -/
theorem stream_follows (hQR : Follows Q R)
    (hrun : exec step (start properties options seed now capacity) moves = some w)
    {c : Channel SubscriptionEvent} (hstream : w.router.streams.get? key = some c) :
    Q c.events := by
  have hshown : Q (shown key w.drive.driver.trace) :=
    (exec_drive hQR.step (start_settles hQR properties options seed now) hrun).1
  have hheard : told key w.delivered <+: shown key w.drive.driver.trace :=
    (w.delivered_isInitial.trans (List.take_prefix _ _)).filterMap _
  have hgiven := (exec_streamed hrun).given c hstream
  exact hQR.ofInitial ((hgiven.trans (untilTerminal_isInitial _)).trans hheard) hshown

end Tasks

end Lightstreamer.Client
