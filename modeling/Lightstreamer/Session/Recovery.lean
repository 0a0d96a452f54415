import Lightstreamer.Session.Exchange

/-!
# Subscriptions across a recovery

An entry counts as issued once the transport took its `add`, and as not issued once the send
reported an error; the table of pending requests is cleared for a new session only. So an `add` that
was left on a connection that broke is not sent again when the same session is recovered, and one
that the server received though its send reported an error is sent twice
(`recovery_lost_or_doubled`).

`Tied` is what holds all the same: every binding is accounted for on the network, under one id, and
every pending request was made in this session. Each step keeps it (`Exchange.step_agrees`), and a
`CONOK` makes it `Restored`, as long as the faults leave the entries of the registry alone
(`SessionDriver.Binds`).
-/

namespace Lightstreamer.Session

open Lightstreamer.Foundations Lightstreamer.Protocol Lightstreamer.Subscription

/-! ## The registry -/

namespace Registry

/-- Entries were dropped, or lost their binding; none was added or bound. -/
structure Narrows (r r' : Registry) : Prop where
  entries : ∀ key entry', r'.entries.get? key = some entry' → ∃ entry,
    r.entries.get? key = some entry ∧ (entry'.wire = none ∨ entry'.wire = entry.wire)
  pos : 0 < r.nextSubId → 0 < r'.nextSubId

namespace Narrows

variable {r r' : Registry}

theorem refl (r : Registry) : Narrows r r := ⟨fun _ entry h => ⟨entry, h, .inr rfl⟩, id⟩

theorem of_eq (h : r' = r) : Narrows r r' := h ▸ refl r

theorem modify (r : Registry) (key : SubscriptionKey) {f : RegistryEntry → RegistryEntry}
    (hf : ∀ entry, (f entry).wire = entry.wire) :
    Narrows r { r with entries := r.entries.modify key f } := by
  refine ⟨fun k entry' he => ?_, id⟩
  rcases OrdMap.get?_of_modify he with ⟨rfl, entry, hentry, rfl⟩ | he
  · exact ⟨entry, hentry, .inr (hf entry)⟩
  · exact ⟨entry', he, .inr rfl⟩

theorem erase (r : Registry) (key : SubscriptionKey) (m : OrdMap ℕ SubscriptionKey) :
    Narrows r { r with entries := r.entries.erase key, bySubId := m } :=
  ⟨fun _ entry' he => ⟨entry', OrdMap.get?_of_erase he, .inr rfl⟩, id⟩

theorem resetForNewSession (r : Registry) : Narrows r r.resetForNewSession := by
  refine ⟨fun k entry' he => ?_, fun _ => Nat.one_pos⟩
  simp only [Registry.resetForNewSession, OrdMap.get?_mapVal, OrdMap.get?_filter,
    Option.map_eq_some_iff, Option.filter_eq_some_iff] at he
  obtain ⟨entry, ⟨he, -⟩, rfl⟩ := he
  exact ⟨entry, he, .inl rfl⟩

theorem registryAfter (r : Registry) (subId : ℕ) (key : SubscriptionKey)
    (manager : SubscriptionManager) (n : Notification) :
    Narrows r (SessionDriver.registryAfter r subId key manager n) := by
  have hactive : Narrows r ((r.setManager key manager).activate key) := by
    have hfirst := modify r key (f := fun entry => { entry with manager := manager }) fun _ => rfl
    have hsecond := modify (r.setManager key manager) key
      (f := fun entry => { entry with state := .active, wasActive := true }) fun _ => rfl
    refine ⟨fun k entry' he => ?_, id⟩
    obtain ⟨entry, he, hwire⟩ := hsecond.entries k entry' he
    obtain ⟨entry₀, he₀, hwire₀⟩ := hfirst.entries k entry he
    refine ⟨entry₀, he₀, ?_⟩
    rcases hwire with hwire | hwire
    · exact .inl hwire
    · rw [hwire]
      exact hwire₀
  unfold SessionDriver.registryAfter
  split
  · exact hactive
  · exact hactive
  · exact erase r key _
  · exact modify r key fun _ => rfl

end Narrows

end Registry

namespace SessionDriver

variable {new : Grant → Prop} {K : PendingKind → Prop} {d d' d'' : SessionDriver}

/-! ## Requests -/

/-- No bind is reported, what is asked for is in `new`, and what is pending was pending before or
taken by the transport since. -/
def Deals (new : Grant → Prop) (d d' : SessionDriver) : Prop :=
  ∃ t, d'.trace = d.trace ++ t ∧
    (∀ a ∈ t, a.boundId = none ∧ ∀ g, a.asks = some g → new g) ∧
    ∀ id p, d'.pending.get? id = some p → d.pending.get? id = some p ∨ Sent t id p.kind

theorem Deals.trans (h : Deals new d d') (h' : Deals new d' d'') : Deals new d d'' := by
  obtain ⟨t, ht, hall, hp⟩ := h
  obtain ⟨t', ht', hall', hp'⟩ := h'
  refine ⟨t ++ t', by rw [ht', ht, List.append_assoc], fun a ha => ?_, fun id p hq => ?_⟩
  · rcases List.mem_append.mp ha with ha | ha
    · exact hall a ha
    · exact hall' a ha
  · rcases hp' id p hq with hq | ⟨request, ps, hrequest, hin⟩
    · rcases hp id p hq with hq | ⟨request, ps, hrequest, hin⟩
      · exact .inl hq
      · exact .inr ⟨request, ps, hrequest, List.mem_append_left t' hin⟩
    · exact .inr ⟨request, ps, hrequest, List.mem_append_right t hin⟩

/-- Requests may leave the table, and what concerns no request may be done. -/
theorem Deals.of_passes (ht : Extends Action.Passes d.trace d'.trace)
    (hp : ∀ id p, d'.pending.get? id = some p → d.pending.get? id = some p) : Deals new d d' := by
  obtain ⟨t, ht, hall⟩ := ht
  refine ⟨t, ht, fun a ha => ⟨(hall a ha).1, fun g hg => ?_⟩, fun id p hq => .inl (hp id p hq)⟩
  rw [(hall a ha).2] at hg
  cases hg

/-- Issuing requests files the ones that the transport took. -/
theorem Issues.deals (h : Issues K d d') : Deals (fun _ => True) d d' := by
  induction h with
  | plain _ hpending _ htrace =>
    obtain ⟨t, ht, hall⟩ := htrace
    exact ⟨t, ht, fun a ha => ⟨(hall a ha).boundId, fun _ _ => trivial⟩,
      fun id p hp => .inl (hpending ▸ hp)⟩
  | @dispatch d d' d₁ id request kind _ _ hpending _ htrace hid _ =>
    have hquiet : Extends (fun a => a.boundId = none) d.trace
        (d₁.dispatch request id kind).2.trace :=
      htrace ▸ dispatch_extends d₁ (fun _ ha => ha.isQuiet.boundId) id fun _ _ => rfl
    obtain ⟨t, ht, hall⟩ := hquiet
    refine ⟨t, ht, fun a ha => ⟨hall a ha, fun _ _ => trivial⟩, fun k p hq => ?_⟩
    obtain ⟨error, e, hd, rfl⟩ | ⟨ps, e, hd, -, -, hp, -, -, htr⟩ |
        ⟨ps, error, b, e, hd, -, -, hp, -, -, htr⟩ := d₁.dispatch_cases request id kind
    · rw [hd] at hq
      exact .inl (hpending ▸ hq)
    · rw [hd] at hq ht
      rw [htr, htrace] at ht
      rw [hp, OrdMap.get?_insert, hpending] at hq
      split_ifs at hq with hk
      · cases hq
        refine .inr ⟨request, ps, by rw [hid, hk]; rfl, ?_⟩
        rw [← List.append_cancel_left ht]
        exact List.mem_cons_self
      · exact .inl hq
    · rw [hd, hp, OrdMap.get?_erase, OrdMap.get?_insert, hpending] at hq
      split_ifs at hq
      exact .inl hq
  | trans _ _ ih ih' => exact ih.trans ih'

theorem Deals.of_extends (h : Deals (fun _ => True) d d')
    (ht : Extends (fun a => ∀ g, a.asks = some g → new g) d.trace d'.trace) : Deals new d d' := by
  obtain ⟨t, ht, hall⟩ := ht
  obtain ⟨t', ht', hall', hp⟩ := h
  obtain rfl : t = t' := List.append_cancel_left (ht.symm.trans ht')
  exact ⟨t, ht, fun a ha => ⟨(hall' a ha).1, hall a ha⟩, hp⟩

/-! ## What asks for no subscription -/

/-- The driver deals with its requests, asks for no subscription and binds none. -/
structure Stands (d d' : SessionDriver) : Prop where
  deals : Deals (fun _ => False) d d'
  narrows : d.registry.Narrows d'.registry

theorem onCommand_stands {c : SessionCommand} (hc : ∀ key spec, c ≠ .subscribe key spec) :
    Stands d (d.onCommand c).2 := by
  have hreport : ∀ a : Action, a.IsReport → ∀ g, a.asks = some g → False := fun a ha g hg => by
    rw [ha.passes.2] at hg
    cases hg
  have hdeals := (onCommand_issues (K := fun _ => True) d c fun _ _ => trivial).deals
  cases c with
  | subscribe key spec => exact absurd rfl (hc key spec)
  | unsubscribe key =>
    refine ⟨hdeals.of_extends (d.unsubscribe_extends hreport key fun _ _ _ => nofun), ?_⟩
    change d.registry.Narrows (d.unsubscribe key).registry
    rw [unsubscribe_registry]
    split
    · exact .refl _
    · split
      · exact .erase _ key _
      · exact .modify _ key fun _ => rfl
  | reconfigure key f =>
    exact ⟨hdeals.of_extends (d.reconfigure_extends hreport key f fun _ _ _ => nofun),
      .of_eq (d.reconfigure_registry key f)⟩
  | sendMessage m =>
    exact ⟨hdeals.of_extends
        (d.sendMessage_extends hreport m (fun _ _ => nofun) fun _ _ _ => nofun),
      .of_eq (d.sendMessage_registry m)⟩
  | forceRebind b =>
    exact ⟨hdeals.of_extends (d.forceRebind_extends hreport b fun _ _ _ => nofun),
      .of_eq (d.forceRebind_registry b)⟩
  | destroy cause =>
    exact ⟨hdeals.of_extends (d.destroy_extends hreport cause fun _ _ _ => nofun),
      .of_eq (d.destroy_registry cause)⟩
  | shutdown => exact ⟨hdeals.of_extends (.refl _ _), .refl _⟩

/-- Reports leave the requests and the registry alone. -/
theorem Stands.of_eq (ht : Extends Action.Passes d.trace d'.trace)
    (hp : ∀ id p, d'.pending.get? id = some p → d.pending.get? id = some p)
    (hr : d'.registry = d.registry) : Stands d d' :=
  ⟨.of_passes ht hp, .of_eq hr⟩

theorem onRequestOk_stands (d : SessionDriver) (id : Option String) :
    Stands d (d.onRequestOk id) := by
  have ht := d.onRequestOk_extends (fun _ ha => ha.passes) id
  refine ⟨.of_passes ht fun _ _ => d.pending_of_onRequestOk, ?_⟩
  obtain hr | ⟨key, f, hr⟩ := d.onRequestOk_registry id
  · exact .of_eq hr
  · exact hr ▸ .modify _ key fun _ => rfl

theorem onRequestError_stands (d : SessionDriver) (id : String) (cause : ServerCause) :
    Stands d (d.onRequestError id cause) := by
  have ht := d.onRequestError_extends (P := Action.Passes) (fun _ ha => ha.passes) id cause
    fun _ _ _ _ => ⟨rfl, rfl⟩
  refine ⟨.of_passes ht fun _ _ => d.pending_of_onRequestError, ?_⟩
  obtain hr | ⟨key, ⟨-, hr⟩ | ⟨-, hr⟩⟩ := d.onRequestError_registry id cause
  · exact .of_eq hr
  · exact hr ▸ .erase _ key _
  · exact hr ▸ .modify _ key fun _ => rfl

theorem onData_stands (d : SessionDriver) (n : Notification) : Stands d (d.onData n) := by
  have ht := d.onData_extends (P := Action.Passes) n (fun _ => ⟨rfl, rfl⟩)
    (fun _ _ _ _ _ => ⟨rfl, rfl⟩) fun _ _ _ _ => ⟨rfl, rfl⟩
  refine ⟨.of_passes ht fun k p hq => by rwa [onData_pending] at hq, ?_⟩
  obtain hr | ⟨-, subId, key, manager, -, hr⟩ := d.onData_registry n
  · exact .of_eq hr
  · exact hr ▸ .registryAfter _ subId key manager n

/-- Every notification but a `CONOK`. -/
theorem onNotification_stands {n : Notification} (hn : isBind n = false) :
    Stands d (d.onNotification n).2 := by
  induction n using onNotification_cases d with
  | conok => cases hn
  | conerr code message hd =>
    exact hd ▸ .of_eq (by simp) (fun _ _ h => by simpa using h) (by simp)
  | ended code message hd =>
    exact hd ▸ .of_eq (by simp) (fun _ _ h => by simpa using h) (by simp)
  | loop millis hd => exact hd ▸ .of_eq (by simp) (fun _ _ h => by simpa using h) (by simp)
  | prog n hd =>
    exact hd ▸ .of_eq (d.onProg_extends (fun _ ha => ha.passes) n) (fun _ _ h => by simpa using h)
      (by simp)
  | reqok id hd => exact hd ▸ onRequestOk_stands d id
  | reqerr id code message hd => exact hd ▸ onRequestError_stands d id _
  | quiet n _ hd => exact hd ▸ .of_eq (.refl _ _) (fun _ _ h => h) rfl
  | report n e _ hd he =>
    exact hd ▸ .of_eq (d.extends_report (fun _ ha => ha.passes) he) (fun _ _ h => h) rfl
  | data n _ hd => exact hd ▸ onData_stands d n

theorem onTimer_stands (d : SessionDriver) : Stands d d.onTimer.2 :=
  .of_eq (d.onTimer_extends fun _ _ _ => ⟨rfl, rfl⟩) (fun _ _ h => by rwa [onTimer_pending] at h)
    d.onTimer_registry

/-! ## What the driver and the network agree on -/

/-- Every binding is accounted for, no subscription is afoot under two ids, and every pending
request was made in this session. The keys in use are among the ones in `asked`. -/
structure Tied (asked : List SubscriptionKey) (r : Remote) (d : SessionDriver) : Prop where
  wires : ∀ key entry id, d.registry.entries.get? key = some entry → entry.wire = some id →
    r.Accounts ⟨id.val, key⟩
  single : ∀ g ∈ r.afoot, ∀ g' ∈ r.afoot, g.key = g'.key → g = g'
  made : ∀ id p, d.pending.get? id = some p →
    ∃ parcel, r.Made parcel ∧ parcel.id = some id ∧ parcel.kind = p.kind
  afoot : ∀ g ∈ r.afoot, g.key ∈ asked
  entries : ∀ key entry, d.registry.entries.get? key = some entry → key ∈ asked
  pos : 0 < d.registry.nextSubId

namespace Tied

variable {asked : List SubscriptionKey} {r r' : Remote} {heard : List Parcel}

/-- The network may go on by itself. -/
theorem of_grows (h : Tied asked r d) (hgrows : r.Grows (fun _ => False) r') : Tied asked r' d where
  wires := fun key entry id he hid => hgrows.accounts _ (h.wires key entry id he hid)
  single := fun g hg g' hg' =>
    h.single g ((hgrows.afoot g hg).resolve_right id) g' ((hgrows.afoot g' hg').resolve_right id)
  made := fun id p hp => by
    obtain ⟨parcel, hmade, hparcel⟩ := h.made id p hp
    exact ⟨parcel, hgrows.made parcel hmade, hparcel⟩
  afoot := fun g hg => h.afoot g ((hgrows.afoot g hg).resolve_right id)
  entries := h.entries
  pos := h.pos

/-- Nothing but the registry and the table matters. -/
theorem of_eq (h : Tied asked r d) (hr : d'.registry = d.registry) (hp : d'.pending = d.pending) :
    Tied asked r d' :=
  ⟨hr ▸ h.wires, h.single, hp ▸ h.made, h.afoot, hr ▸ h.entries, hr ▸ h.pos⟩

theorem mono (h : Tied asked r d) {asked' : List SubscriptionKey} (hsub : asked ⊆ asked') :
    Tied asked' r d :=
  ⟨h.wires, h.single, h.made, fun g hg => hsub (h.afoot g hg),
    fun key entry he => hsub (h.entries key entry he), h.pos⟩

/-- Every pending request was made in this session. -/
theorem made_of_deals (h : Tied asked r d) {new : Grant → Prop} {t : List Action}
    (ht : ∀ a ∈ t, a.boundId = none ∧ ∀ g, a.asks = some g → new g)
    (hp : ∀ id p, d'.pending.get? id = some p → d.pending.get? id = some p ∨ Sent t id p.kind)
    (id : String) (p : Pending) (hq : d'.pending.get? id = some p) :
    ∃ parcel, (r.follow heard t).Made parcel ∧ parcel.id = some id ∧ parcel.kind = p.kind := by
  rcases hp id p hq with hq | ⟨request, ps, hrequest, hin⟩
  · obtain ⟨parcel, hmade, hparcel⟩ := h.made id p hq
    exact ⟨parcel, (Remote.follow_grows heard ht r).made parcel hmade, hparcel⟩
  · have htaken := Remote.follow_taken heard (fun a ha => (ht a ha).1) hin r
    exact ⟨⟨request, p.kind⟩, htaken.1, hrequest, rfl⟩

/-- An operation that asks for no subscription. -/
theorem of_stands (h : Tied asked r d) (hstands : Stands d d') :
    Tied asked (r.after heard d d') d' := by
  obtain ⟨t, ht, hall, hp⟩ := hstands.deals
  rw [Remote.after_eq ht]
  have hgrows := Remote.follow_grows heard hall r
  have hrest := h.of_grows hgrows
  refine ⟨fun key entry' id he hid => ?_, hrest.single, h.made_of_deals hall hp, hrest.afoot,
    fun key entry' he => ?_, hstands.narrows.pos h.pos⟩
  · obtain ⟨entry, he, hwire | hwire⟩ := hstands.narrows.entries key entry' he
    · rw [hwire] at hid
      cases hid
    · exact hrest.wires key entry id he (hwire ▸ hid)
  · obtain ⟨entry, he, -⟩ := hstands.narrows.entries key entry' he
    exact h.entries key entry he

end Tied

/-! ## Issuing -/

/-- An action that binds no session and asks for one subscription at most. -/
def Asking (g : Grant) (a : Action) : Prop := a.boundId = none ∧ ∀ g', a.asks = some g' → g' = g

theorem asking_report {g : Grant} {a : Action} (h : a.IsReport) : Asking g a :=
  ⟨h.passes.1, fun g' hg' => by rw [h.passes.2] at hg'; cases hg'⟩

/-- The transport took an `add` for the subscription. -/
def Took (g : Grant) (d d' : SessionDriver) : Prop :=
  ∃ t request parameters, d'.trace = d.trace ++ t ∧
    .control request (some (.subscribe g.key)) parameters none ∈ t ∧
    Parcel.asks ⟨request, .subscribe g.key⟩ = some g

/-- Sending an `add` leaves the binding if the transport took it, and none otherwise. -/
theorem sendSubscribe_asks (d : SessionDriver) (session : SessionId) (key : SubscriptionKey)
    (subId : NonZeroU32) (entry : RegistryEntry) :
    Extends (Asking ⟨subId.val, key⟩) d.trace (d.sendSubscribe session key subId entry).2.trace ∧
      ((d.sendSubscribe session key subId entry).2.registry.Unbound key ∨
        (d.sendSubscribe session key subId entry).2.registry = d.registry ∧
          Took ⟨subId.val, key⟩ d (d.sendSubscribe session key subId entry).2) := by
  have hrelease : ∀ r : Registry, (r.release key subId).Unbound key := by
    intro r entry' he
    simp only [Registry.release, OrdMap.get?_modify, if_true] at he
    obtain ⟨e, -, rfl⟩ := Option.map_eq_some_iff.mp he
    rfl
  unfold sendSubscribe
  split
  · exact ⟨extends_report _ (fun _ => asking_report) trivial, .inl (hrelease _)⟩
  · rename_i id d₁ htake
    obtain ⟨-, -, rfl⟩ := takeRequestId_eq_some htake
    obtain ⟨error, e, hd, rfl⟩ | ⟨ps, e, hd, -, hr, -, -, -, ht⟩ |
        ⟨ps, error, b, e, hd, -, hr, -, -, -, ht⟩ := dispatch_cases
          { d with nextRequestId := d.nextRequestId + 1 }
          (.subscribe (subscribeRequest session id subId entry.spec)) id (.subscribe key)
    · rw [hd]
      exact ⟨extends_report _ (fun _ => asking_report) trivial, .inl (hrelease _)⟩
    · rw [hd]
      dsimp only
      rw [if_pos rfl]
      refine ⟨⟨_, ht, fun a ha => ?_⟩, .inr ⟨hr, _, _, ps, ht, List.mem_cons_self, rfl⟩⟩
      rw [List.mem_singleton.mp ha]
      exact ⟨rfl, fun g' hg' => (Option.some.inj hg').symm⟩
    · rw [hd]
      refine ⟨⟨_, ht, fun a ha => ?_⟩, .inl (hrelease _)⟩
      rcases List.mem_cons.mp ha with rfl | ha
      · exact ⟨rfl, fun g' hg' => (Option.some.inj hg').symm⟩
      · rw [List.mem_singleton.mp ha]
        exact ⟨rfl, fun g' hg' => by cases hg'⟩

/-- Issuing a subscription without a binding. -/
theorem issueSubscription_asks {key : SubscriptionKey} (hkey : d.registry.Unbound key) :
    Extends (Asking ⟨d.registry.nextSubId, key⟩) d.trace (d.issueSubscription key).2.trace ∧
      ∀ entry' id, (d.issueSubscription key).2.registry.entries.get? key = some entry' →
        entry'.wire = some id → id.val = d.registry.nextSubId ∧
          Took ⟨id.val, key⟩ d (d.issueSubscription key).2 := by
  have hnone : ∀ {r : Registry}, r.Unbound key → ∀ {P : NonZeroU32 → Prop} entry' id,
      r.entries.get? key = some entry' → entry'.wire = some id → P id := by
    intro r hr P entry' id he hid
    rw [hr entry' he] at hid
    cases hid
  unfold issueSubscription
  split
  · exact ⟨.refl _ _, hnone hkey⟩
  · split
    · exact ⟨.refl _ _, hnone hkey⟩
    · rename_i session _ _ subId r hallocate
      obtain ⟨hsubId, rfl⟩ := Registry.allocate_eq_some hallocate
      split
      · exact ⟨.refl _ _, hnone hkey⟩
      · rename_i entry hentry
        obtain ⟨hext, hwire⟩ := sendSubscribe_asks { d with
          registry := Registry.bind { d.registry with nextSubId := d.registry.nextSubId + 1 } key
            subId } session key subId entry
        rw [hsubId] at hext
        refine ⟨hext, ?_⟩
        rcases hwire with hwire | ⟨hr, htook⟩
        · exact hnone hwire
        · intro entry' id he hid
          rw [hr] at he
          simp only [Registry.bind, OrdMap.get?_modify, if_true] at he
          obtain ⟨e, -, rfl⟩ := Option.map_eq_some_iff.mp he
          cases hid
          exact ⟨hsubId, htook⟩

namespace Tied

variable {asked : List SubscriptionKey} {r : Remote} (heard : List Parcel) {key : SubscriptionKey}

theorem issueSubscription_grows (r : Remote) (heard : List Parcel)
    (hkey : d.registry.Unbound key) :
    r.Grows (fun g => g = ⟨d.registry.nextSubId, key⟩)
      (r.after heard d (d.issueSubscription key).2) := by
  obtain ⟨t, ht, hall⟩ := (issueSubscription_asks hkey).1
  rw [Remote.after_eq ht]
  exact Remote.follow_grows heard hall r

/-- Issuing a subscription that nobody knows yet. -/
theorem issueSubscription (h : Tied asked r d) (hkey : d.registry.Unbound key)
    (hafoot : ∀ g ∈ r.afoot, g.key ≠ key) (hasked : key ∈ asked) :
    Tied asked (r.after heard d (d.issueSubscription key).2) (d.issueSubscription key).2 := by
  obtain ⟨hext, hwire⟩ := issueSubscription_asks hkey
  have hgrows := issueSubscription_grows r heard hkey
  have hissues : Issues (fun _ => True) d (d.issueSubscription key).2 :=
    issueSubscription_issues d trivial
  obtain ⟨t, ht, hall, hp⟩ := hissues.deals.of_extends (hext.mono fun _ ha => ha.2)
  rw [Remote.after_eq ht] at hgrows ⊢
  refine ⟨fun k entry' id he hid => ?_, fun g hg g' hg' hsame => ?_, h.made_of_deals hall hp,
    fun g hg => ?_, fun k entry' he => ?_, h.pos.trans_le (d.le_issueSubscription_nextSubId key)⟩
  · by_cases hk : k = key
    · subst hk
      obtain ⟨-, t', request, ps, ht', hin, hasks⟩ := hwire entry' id he hid
      obtain rfl : t = t' := List.append_cancel_left (ht.symm.trans ht')
      exact (Remote.follow_taken heard (fun a ha => (hall a ha).1) hin r).2 _ hasks
    · rw [issueSubscription_get? hk] at he
      exact hgrows.accounts _ (h.wires k entry' id he hid)
  · rcases hgrows.afoot g hg with hg | rfl
    · rcases hgrows.afoot g' hg' with hg' | rfl
      · exact h.single g hg g' hg' hsame
      · exact absurd hsame (hafoot g hg)
    · rcases hgrows.afoot g' hg' with hg' | rfl
      · exact absurd hsame.symm (hafoot g' hg')
      · rfl
  · rcases hgrows.afoot g hg with hg | rfl
    · exact h.afoot g hg
    · exact hasked
  · by_cases hk : k = key
    · exact hk ▸ hasked
    · rw [issueSubscription_get? hk] at he
      exact h.entries k entry' he

/-- Issuing subscriptions that nobody knows yet, one after the other. -/
theorem issueAll (h : Tied asked r d) {keys : List SubscriptionKey} (hnodup : keys.Nodup)
    (hkeys : ∀ key ∈ keys, d.registry.Unbound key ∧ (∀ g ∈ r.afoot, g.key ≠ key) ∧ key ∈ asked) :
    Tied asked (r.after heard d (d.issueAll keys).2) (d.issueAll keys).2 := by
  induction keys generalizing d r with
  | nil =>
    rw [SessionDriver.issueAll, Remote.after_self]
    exact h
  | cons key keys ih =>
    obtain ⟨hkey, hnodup⟩ := List.nodup_cons.mp hnodup
    obtain ⟨hunbound, hafoot, hasked⟩ := hkeys key List.mem_cons_self
    have hfirst := h.issueSubscription heard hunbound hafoot hasked
    have hgrows := issueSubscription_grows r heard hunbound
    have hrest := ih hfirst hnodup fun k hk => by
      have hne : k ≠ key := fun heq => hkey (heq ▸ hk)
      obtain ⟨hunbound, hafoot, hasked⟩ := hkeys k (List.mem_cons_of_mem key hk)
      refine ⟨fun entry he => ?_, fun g hg => ?_, hasked⟩
      · rw [issueSubscription_get? hne] at he
        exact hunbound entry he
      · rcases hgrows.afoot g hg with hg | rfl
        · exact hafoot g hg
        · exact hne.symm
    have hfirstTrace : Extends (fun _ => True) d.trace (d.issueSubscription key).2.trace :=
      d.issueSubscription_extends (fun _ _ => trivial) fun _ _ _ => trivial
    have hrestTrace : Extends (fun _ => True) (d.issueSubscription key).2.trace
        ((d.issueSubscription key).2.issueAll keys).2.trace :=
      issueAll_extends _ (fun _ _ => trivial) fun _ _ _ _ _ => trivial
    rw [SessionDriver.issueAll, Remote.after_trans hfirstTrace hrestTrace]
    exact hrest

/-- A `subscribe` with a key of its own. -/
theorem subscribe (h : Tied asked r d) (hfresh : key ∉ asked) (spec : SubscriptionSpec) :
    Tied (key :: asked) (r.after heard d (d.subscribe key spec)) (d.subscribe key spec) := by
  have hget : ∀ k entry, (d.registry.want key spec).entries.get? k = some entry →
      k = key ∧ entry = .new spec ∨ d.registry.entries.get? k = some entry := by
    intro k entry he
    simp only [Registry.want, OrdMap.get?_insert] at he
    split_ifs at he with hk
    · exact .inl ⟨hk, (Option.some.inj he).symm⟩
    · exact .inr he
  have hwant : Tied (key :: asked) r { d with registry := d.registry.want key spec } := by
    refine ⟨fun k entry id he hid => ?_, h.single, h.made,
      fun g hg => List.mem_cons_of_mem key (h.afoot g hg), fun k entry he => ?_, h.pos⟩
    · rcases hget k entry he with ⟨-, rfl⟩ | he
      · cases hid
      · exact h.wires k entry id he hid
    · rcases hget k entry he with ⟨rfl, -⟩ | he
      · exact List.mem_cons_self
      · exact List.mem_cons_of_mem key (h.entries k entry he)
  unfold SessionDriver.subscribe
  dsimp only
  split
  · refine hwant.issueSubscription heard (fun entry he => ?_) (fun g hg hkey => ?_)
      List.mem_cons_self
    · rcases hget key entry he with ⟨-, rfl⟩ | he
      · rfl
      · exact absurd (h.entries key entry he) hfresh
    · exact hfresh (hkey ▸ h.afoot g hg)
  · have hself := Remote.after_self heard r { d with registry := d.registry.want key spec }
    exact hself.symm ▸ hwant

/-- Every command, when a `subscribe` brings a key of its own. -/
theorem onCommand (h : Tied asked r d) (c : SessionCommand)
    (hfresh : ∀ key ∈ c.subscribed, key ∉ asked) :
    Tied (c.subscribed ++ asked) (r.after heard d (d.onCommand c).2) (d.onCommand c).2 := by
  by_cases hc : ∃ key spec, c = .subscribe key spec
  · obtain ⟨key, spec, rfl⟩ := hc
    exact h.subscribe heard (hfresh key List.mem_cons_self) spec
  · have hstands : Stands d (d.onCommand c).2 :=
      onCommand_stands fun key spec heq => hc ⟨key, spec, heq⟩
    exact (h.of_stands hstands).mono (List.subset_append_right _ _)

end Tied

/-! ## Requests that leave -/

/-- The `add` of the subscription has an encoding. -/
def Encodes (session : SessionId) (kind : TransportKind) (spec : SubscriptionSpec) : Prop :=
  ∀ requestId subId, ∃ parameters, ControlRequest.encodeParameters
    (.subscribe (subscribeRequest session requestId subId spec)) kind = .ok parameters

/-- An `add` that leaves keeps its binding. -/
theorem issueSubscription_leaves {session : SessionId} {key : SubscriptionKey}
    {entry : RegistryEntry} (hsession : d.session = some session)
    (hentry : d.registry.entries.get? key = some entry) (hpos : 0 < d.registry.nextSubId)
    (hlt : d.registry.nextSubId < u32Max) (hrequestIds : d.nextRequestId < u64Max)
    (hencodes : Encodes session d.controlKind entry.spec)
    (hhead : d.turn.sends.headD none = none) :
    (∃ entry', (d.issueSubscription key).2.registry.entries.get? key = some entry' ∧
        entry'.wire ≠ none) ∧
      (d.issueSubscription key).2.registry.nextSubId = d.registry.nextSubId + 1 ∧
      (d.issueSubscription key).2.nextRequestId = d.nextRequestId + 1 ∧
      (d.issueSubscription key).2.turn.sends = d.turn.sends.tail := by
  obtain ⟨subId, hsubId⟩ : ∃ subId : NonZeroU32, subId.val = d.registry.nextSubId :=
    ⟨⟨_, hpos, hlt.le⟩, rfl⟩
  obtain ⟨parameters, hencode⟩ := hencodes (.fromProgressive d.nextRequestId) subId
  obtain ⟨hsent, hsends⟩ := dispatch_leaves (d := d.sender key subId) hencode hhead
    (.fromProgressive d.nextRequestId) (.subscribe key)
  have hregistry := (d.sender key subId).dispatch_registry (.subscribe (subscribeRequest session
    (.fromProgressive d.nextRequestId) subId entry.spec)) (.fromProgressive d.nextRequestId)
    (.subscribe key)
  have hnext := (d.sender key subId).dispatch_nextRequestId (.subscribe (subscribeRequest session
    (.fromProgressive d.nextRequestId) subId entry.spec)) (.fromProgressive d.nextRequestId)
    (.subscribe key)
  rw [issueSubscription_eq hsession hentry hsubId hlt hrequestIds]
  dsimp only
  rw [if_pos hsent]
  refine ⟨⟨{ entry with wire := some subId, state := .pending }, ?_, Option.some_ne_none subId⟩,
    ?_, hnext, hsends⟩
  · rw [hregistry]
    simp [sender, Registry.bind, hentry]
  · rw [hregistry]
    rfl

/-- **When every `add` leaves**, every subscription that was due has a binding. -/
theorem issueAll_leaves {session : SessionId} {keys : List SubscriptionKey}
    (hsession : d.session = some session) (hnodup : keys.Nodup) (hpos : 0 < d.registry.nextSubId)
    (hsubIds : d.registry.nextSubId + keys.length ≤ u32Max)
    (hrequestIds : d.nextRequestId + keys.length ≤ u64Max)
    (hkeys : ∀ key ∈ keys, ∃ entry, d.registry.entries.get? key = some entry ∧
      Encodes session d.controlKind entry.spec)
    (hsends : ∀ e ∈ d.turn.sends.take keys.length, e = none) :
    ∀ key ∈ keys, ∃ entry', (d.issueAll keys).2.registry.entries.get? key = some entry' ∧
      entry'.wire ≠ none := by
  induction keys generalizing d with
  | nil => exact fun key hkey => absurd hkey List.not_mem_nil
  | cons key keys ih =>
    rw [List.length_cons] at hsubIds hrequestIds hsends
    obtain ⟨hkey, hnodup⟩ := List.nodup_cons.mp hnodup
    obtain ⟨entry, hentry, hencodes⟩ := hkeys key List.mem_cons_self
    have hhead : d.turn.sends.headD none = none ∧
        ∀ e ∈ d.turn.sends.tail.take keys.length, e = none := by
      cases hlist : d.turn.sends with
      | nil => exact ⟨rfl, fun e he => by simp at he⟩
      | cons e sends =>
        rw [hlist, List.take_succ_cons] at hsends
        exact ⟨hsends e List.mem_cons_self, fun e' he' => hsends e' (List.mem_cons_of_mem e he')⟩
    obtain ⟨⟨entry', hentry', hwire⟩, hnextSubId, hnextRequestId, htail⟩ :=
      issueSubscription_leaves hsession hentry hpos (by omega) (by omega) hencodes hhead.1
    have hlifecycle := d.issueSubscription_toLifecycle key
    have hrest := ih (d := (d.issueSubscription key).2) (by rw [hlifecycle, hsession]) hnodup
      (by omega) (by omega) (by omega) (fun k hk => by
        have hne : k ≠ key := fun heq => hkey (heq ▸ hk)
        rw [issueSubscription_get? hne, controlKind, hlifecycle]
        exact hkeys k (List.mem_cons_of_mem key hk)) (htail ▸ hhead.2)
    intro k hk
    rcases List.mem_cons.mp hk with rfl | hk
    · refine ⟨entry', ?_, hwire⟩
      rw [issueAll, issueAll_get? hkey]
      exact hentry'
    · exact hrest k hk

/-! ## What a bind restores -/

/-- **What a recovery is to bring about.** Every subscription that is not being removed has a
binding, and the server has it or a request in flight asks for it, under that id and no other; every
request that awaits its answer for a subscription is in flight or reached the server; and the server
has no subscription under two ids. -/
structure Restored (r : Remote) (d : SessionDriver) : Prop where
  known : ∀ key entry, d.registry.entries.get? key = some entry → entry.state ≠ .removing →
    ∃ id, entry.wire = some id ∧ ⟨id.val, key⟩ ∈ r.known ∧
      ∀ g ∈ r.afoot, g.key = key → g.subId = id.val
  answered : ∀ id p key entry, d.pending.get? id = some p → p.kind.about = some key →
    d.registry.entries.get? key = some entry → ∃ parcel, parcel.id = some id ∧
      parcel.kind = p.kind ∧ (parcel ∈ r.inFlight ∨ parcel ∈ r.received)
  single : ∀ g ∈ r.held, ∀ g' ∈ r.held, g.key = g'.key → g = g'

/-- Nothing that was lost, left on a connection that is gone, or ended is still wanted. -/
structure Unharmed (r : Remote) (d : SessionDriver) : Prop where
  lost : ∀ parcel ∈ r.lost, ∀ key, parcel.kind.about = some key →
    d.registry.entries.get? key = none
  left : ∀ f ∈ r.flying, r.isLive f = false → ∀ key, f.parcel.kind.about = some key →
    d.registry.entries.get? key = none
  ended : ∀ g ∈ r.ended, d.registry.Removed g.key

/-- What is due under the ids that are left, and can be sent. -/
structure Sendable (session : SessionId) (d : SessionDriver) : Prop where
  subIds : d.registry.nextSubId + d.registry.unboundKeys.length ≤ u32Max
  requestIds : d.nextRequestId + d.registry.unboundKeys.length ≤ u64Max
  encodes : ∀ key ∈ d.registry.unboundKeys, ∀ entry, d.registry.entries.get? key = some entry →
    Encodes session d.controlKind entry.spec
  sends : ∀ e ∈ d.turn.sends.take d.registry.unboundKeys.length, e = none

theorem issueUnboundSubscriptions_tied {asked : List SubscriptionKey} {r : Remote}
    (heard : List Parcel) (h : Tied asked r d)
    (hunknown : ∀ g ∈ r.afoot, g.key ∉ d.registry.unboundKeys) :
    Tied asked (r.after heard d d.issueUnboundSubscriptions) d.issueUnboundSubscriptions := by
  have hall : Tied asked (r.after heard d (d.issueAll d.registry.unboundKeys).2)
      (d.issueAll d.registry.unboundKeys).2 :=
    h.issueAll heard (OrdMap.nodup_keys _) fun key hkey => by
      obtain ⟨entry, hentry, hwire, -⟩ := Registry.mem_unboundKeys.mp hkey
      refine ⟨fun entry' he => ?_, fun g hg heq => hunknown g hg (heq ▸ hkey),
        h.entries key entry hentry⟩
      rw [hentry] at he
      exact Option.some.inj he ▸ hwire
  unfold issueUnboundSubscriptions
  dsimp only
  split
  · exact hall
  · have htrace : Extends (fun _ => True) d.trace (d.issueAll d.registry.unboundKeys).2.trace :=
      d.issueAll_extends (fun _ _ => trivial) fun _ _ _ _ _ => trivial
    have hreport : Extends Action.Passes (d.issueAll d.registry.unboundKeys).2.trace
        ((d.issueAll d.registry.unboundKeys).2.emit
          (.resubscribed (d.issueAll d.registry.unboundKeys).1)).trace :=
      extends_emit _ fun _ => ⟨rfl, rfl⟩
    rw [Remote.after_trans htrace hreport]
    exact hall.of_stands (.of_eq hreport (fun _ _ hp => hp) rfl)

/-- **Issuing what is due** restores every subscription. -/
theorem issueUnboundSubscriptions_restored {asked : List SubscriptionKey} {r : Remote}
    (heard : List Parcel) {session : SessionId} (h : Tied asked r d)
    (hunknown : ∀ g ∈ r.afoot, g.key ∉ d.registry.unboundKeys) (hunharmed : Unharmed r d)
    (hsession : d.session = some session) (hsendable : Sendable session d) :
    Restored (r.after heard d d.issueUnboundSubscriptions) d.issueUnboundSubscriptions := by
  have htied := issueUnboundSubscriptions_tied heard h hunknown
  have hregistry := d.issueUnboundSubscriptions_registry
  have hbound : ∀ key ∈ d.registry.unboundKeys, ∃ entry,
      (d.issueAll d.registry.unboundKeys).2.registry.entries.get? key = some entry ∧
        entry.wire ≠ none :=
    issueAll_leaves hsession (OrdMap.nodup_keys _) h.pos hsendable.subIds hsendable.requestIds
      (fun key hkey => by
        obtain ⟨entry, hentry, -⟩ := Registry.mem_unboundKeys.mp hkey
        exact ⟨entry, hentry, hsendable.encodes key hkey entry hentry⟩) hsendable.sends
  obtain ⟨t, ht, hall⟩ := d.issueUnboundSubscriptions_extends (P := Action.OnlyAsks)
    (fun a ha => ⟨ha.passes.1, Action.IsReport.not_isLoop ha,
      fun _ _ _ _ heq => by subst heq; cases ha⟩)
    fun key _ r ps e => ⟨rfl, id, fun _ _ _ _ heq => by cases heq; rfl⟩
  have hholds := Remote.follow_asking heard hall r
  rw [← Remote.after_eq ht] at hholds
  -- what the registry has now, it had before, and wanted if it is wanted
  have hbefore : ∀ key entry, d.issueUnboundSubscriptions.registry.entries.get? key = some entry →
      ∃ entry₀, d.registry.entries.get? key = some entry₀ ∧
        (entry.state ≠ .removing → entry₀.state ≠ .removing ∧ entry.wire ≠ none) := by
    intro key entry he
    rw [hregistry] at he
    by_cases hkey : key ∈ d.registry.unboundKeys
    · obtain ⟨entry₀, hentry₀, -, hstate⟩ := Registry.mem_unboundKeys.mp hkey
      obtain ⟨entry', he', hwire⟩ := hbound key hkey
      rw [he] at he'
      exact ⟨entry₀, hentry₀, fun _ => ⟨hstate, Option.some.inj he' ▸ hwire⟩⟩
    · rw [issueAll_get? hkey] at he
      refine ⟨entry, he, fun hstate => ⟨hstate, fun hwire => hkey ?_⟩⟩
      exact Registry.mem_unboundKeys.mpr ⟨entry, he, hwire, hstate⟩
  refine ⟨fun key entry he hstate => ?_, fun id p key entry hp habout he => ?_,
    fun g hg g' hg' => htied.single g (Remote.mem_afoot.mpr (.inl hg)) g'
      (Remote.mem_afoot.mpr (.inl hg'))⟩
  · obtain ⟨entry₀, hentry₀, hwanted⟩ := hbefore key entry he
    obtain ⟨hstate₀, hwire⟩ := hwanted hstate
    obtain ⟨id, hid⟩ := Option.ne_none_iff_exists'.mp hwire
    rcases htied.wires key entry id he hid with hafoot | hin | ⟨parcel, hin, hasks⟩
    · refine ⟨id, hid, ?_, fun g hg hkey => by rw [htied.single g hg _ hafoot hkey]⟩
      rcases Remote.mem_afoot.mp hafoot with hheld | ⟨f, hf, hasks⟩
      · exact Remote.mem_known.mpr (.inl hheld)
      · rcases hholds.isLive hf with hlive | ⟨hf, hleft⟩
        · exact Remote.mem_known.mpr (.inr ⟨f, hf, hlive, hasks⟩)
        · have hnone := hunharmed.left f hf hleft key (by rw [f.parcel.kind_of_asks hasks]; rfl)
          rw [hentry₀] at hnone
          cases hnone
    · exact absurd (hunharmed.ended _ (hholds.ended ▸ hin) entry₀ hentry₀) hstate₀
    · have hnone := hunharmed.lost parcel (hholds.lost ▸ hin) key
        (by rw [parcel.kind_of_asks hasks]; rfl)
      rw [hentry₀] at hnone
      cases hnone
  · obtain ⟨parcel, hmade, hid, hkind⟩ := htied.made id p hp
    obtain ⟨entry₀, hentry₀, -⟩ := hbefore key entry he
    refine ⟨parcel, hid, hkind, ?_⟩
    rcases hmade with ⟨f, hf, rfl⟩ | hin | hin
    · rcases hholds.isLive hf with hlive | ⟨hf, hleft⟩
      · exact .inl (Remote.mem_inFlight.mpr ⟨f, hf, hlive, rfl⟩)
      · have hnone := hunharmed.left f hf hleft key (by rw [hkind, habout])
        rw [hentry₀] at hnone
        cases hnone
    · exact .inr hin
    · have hnone := hunharmed.lost parcel (hholds.lost ▸ hin) key (by rw [hkind, habout])
      rw [hentry₀] at hnone
      cases hnone

/-! ## The turn of a `CONOK` -/

/-- The session that the driver has in mind is the one bound last. -/
def Remembers (r : Remote) (d : SessionDriver) : Prop :=
  ∀ sid, (d.session <|> d.previousSession) = some sid → r.session = some sid

/-- A bind that is not taken for a new session names the session that the driver has in mind. -/
theorem eq_of_not_isFresh {sid : SessionId} (h : (d.conokKind sid).isFresh = false) :
    (d.session <|> d.previousSession) = some sid := by
  unfold conokKind bindKind at h
  split at h
  · split at h
    · assumption
    · cases h
  · split at h
    · assumption
    · cases h
  · split at h <;> cases h

/-- What a `CONOK` that names `sid` meets when the faults spared the entries of the registry. A new
session is one that was not bound before. In the same session, nothing that was lost, left on a
connection that is gone, or ended is still wanted, and the server neither has nor is to receive a
subscription that is going to be asked for again. -/
structure Binds (r : Remote) (d : SessionDriver) (sid : SessionId) : Prop where
  fresh : (d.conokKind sid).isFresh = true → r.session ≠ some sid ∧ d.generation < u64Max
  unharmed : (d.conokKind sid).isFresh = false → Unharmed r d
  unknown : (d.conokKind sid).isFresh = false → ∀ g ∈ r.afoot, g.key ∉ d.registry.unboundKeys
  ample : d.Ample sid
  encodes : ∀ key ∈ (d.due sid).unboundKeys, ∀ entry, (d.due sid).entries.get? key = some entry →
    Encodes sid d.controlKind entry.spec
  sends : ∀ e ∈ d.turn.sends.take (d.due sid).unboundKeys.length, e = none

theorem Binds.heard {r : Remote} {sid : SessionId} (h : Binds r d sid) : Binds r d.heard sid where
  fresh := h.fresh
  unharmed := fun hf => ⟨(h.unharmed hf).lost, (h.unharmed hf).left, (h.unharmed hf).ended⟩
  unknown := h.unknown
  ample := ⟨h.ample.subIds, h.ample.requestIds⟩
  encodes := h.encodes
  sends := h.sends

/-- The network takes note of the bind only. -/
theorem announced_after (r : Remote) (heard : List Parcel) (d : SessionDriver) (sid : SessionId)
    (limit keepAlive : ℕ) (link : Option String) :
    r.after heard d (d.announced sid limit keepAlive link) =
      if r.session = some sid then r else .new r.shares (some sid) := by
  have henter := d.enterSession_extends sid keepAlive link (d.conokKind sid)
    (P := fun a => ∀ r : Remote, r.observe heard a = r) (fun _ ha => ha.observe heard)
    fun _ _ _ _ _ _ => rfl
  obtain ⟨t, ht, hall⟩ := henter
  have htrace : (d.announced sid limit keepAlive link).trace = d.trace ++ (t ++
      [.event (.bound ⟨sid, d.conokKind sid, keepAlive, limit, link⟩)
        (!(d.enterSession sid keepAlive link (d.conokKind sid)).turn.interrupts.headD false)]) := by
    rw [announced, emit, ht, List.append_assoc]
  rw [Remote.after_eq htrace, Remote.follow_append, Remote.follow_eq_self hall]
  rfl

theorem announced_sends (d : SessionDriver) (sid : SessionId) (limit keepAlive : ℕ)
    (link : Option String) :
    (d.announced sid limit keepAlive link).turn.sends = d.turn.sends := by
  have hone : ∀ (d : SessionDriver) id kind, (d.retireOne id kind).turn.sends = d.turn.sends :=
    fun d id kind => by cases kind <;> rfl
  have hall : ∀ (stale : List (String × Pending)) (d : SessionDriver),
      (d.retireAll stale).turn.sends = d.turn.sends := by
    intro stale
    induction stale with
    | nil => exact fun _ => rfl
    | cons p stale ih => exact fun d => (ih _).trans (hone d p.1 p.2.kind)
  unfold announced enterSession
  dsimp only [emit]
  split
  · exact hall _ _
  · rfl

/-- The driver and the network agree, nothing that was lost, left behind or ended is still wanted,
and nothing that is afoot is going to be asked for again. -/
structure Poised (asked : List SubscriptionKey) (r : Remote) (d : SessionDriver) : Prop where
  tied : Tied asked r d
  unharmed : Unharmed r d
  unknown : ∀ g ∈ r.afoot, g.key ∉ d.registry.unboundKeys

/-- A new session knows nothing, and the driver starts over. -/
theorem Poised.of_new {asked : List SubscriptionKey} {r : Remote} {d₁ : SessionDriver}
    (h : Tied asked r d) (shares : Bool)
    (session : Option SessionId) (hregistry : d₁.registry = d.registry.resetForNewSession)
    (hpending : ∀ id p, d₁.pending.get? id ≠ some p) :
    Poised asked (.new shares session) d₁ := by
  have hnarrows := Registry.Narrows.resetForNewSession d.registry
  have hnone : ∀ g, g ∉ (Remote.new shares session).afoot := fun _ => List.not_mem_nil
  refine ⟨⟨fun key entry id he hid => ?_, fun g hg => absurd hg (hnone g),
    fun id p hp => absurd hp (hpending id p), fun g hg => absurd hg (hnone g),
    fun key entry he => ?_, ?_⟩, ⟨fun _ hin => absurd hin List.not_mem_nil,
    fun _ hin => absurd hin List.not_mem_nil, fun _ hin => absurd hin List.not_mem_nil⟩,
    fun g hg => absurd hg (hnone g)⟩
  · rw [hregistry] at he
    simp only [Registry.resetForNewSession, OrdMap.get?_mapVal, Option.map_eq_some_iff] at he
    obtain ⟨e, -, rfl⟩ := he
    cases hid
  · rw [hregistry] at he
    obtain ⟨entry₀, he₀, -⟩ := hnarrows.entries key entry he
    exact h.entries key entry₀ he₀
  · rw [hregistry]
    exact Nat.one_pos

/-- Nothing but the registry and the table matters. -/
theorem Poised.of_eq {asked : List SubscriptionKey} {r : Remote} {d₁ : SessionDriver}
    (h : Poised asked r d)
    (hregistry : d₁.registry = d.registry) (hpending : d₁.pending = d.pending) :
    Poised asked r d₁ where
  tied := h.tied.of_eq hregistry hpending
  unharmed :=
    ⟨hregistry ▸ h.unharmed.lost, hregistry ▸ h.unharmed.left, hregistry ▸ h.unharmed.ended⟩
  unknown := hregistry ▸ h.unknown

/-- The driver and the network as the bind is reported. -/
theorem announced_poised {asked : List SubscriptionKey} {r : Remote} (heard : List Parcel)
    (h : Tied asked r d) (htidy : d.Tidy) (hremembers : Remembers r d) {sid : SessionId}
    (hbinds : Binds r d sid) (limit keepAlive : ℕ) (link : Option String) :
    Poised asked (r.after heard d (d.announced sid limit keepAlive link))
      (d.announced sid limit keepAlive link) := by
  have hregistry := d.announced_registry sid limit keepAlive link
  have hpending := d.announced_pending sid limit keepAlive link
  rw [announced_after]
  cases hfresh : (d.conokKind sid).isFresh
  · rw [hfresh, if_neg Bool.false_ne_true] at hpending
    rw [due, hfresh, if_neg Bool.false_ne_true] at hregistry
    rw [if_pos (hremembers sid (eq_of_not_isFresh hfresh))]
    exact Poised.of_eq ⟨h, hbinds.unharmed hfresh, hbinds.unknown hfresh⟩ hregistry hpending
  · obtain ⟨hnew, hgeneration⟩ := hbinds.fresh hfresh
    rw [hfresh, if_pos rfl] at hpending
    rw [due, hfresh, if_pos rfl] at hregistry
    rw [if_neg hnew]
    refine Poised.of_new h r.shares (some sid) hregistry fun id p hp => ?_
    rw [hpending, OrdMap.get?_filter, Option.filter_eq_some_iff] at hp
    have hle := htidy id p hp.1
    have heq : p.generation = saturatingAdd u64Max d.generation 1 := of_decide_eq_true hp.2
    rw [saturatingAdd] at heq
    omega

/-- **A `CONOK`** restores every subscription. -/
theorem onConok_restored {asked : List SubscriptionKey} {r : Remote} (heard : List Parcel)
    (h : Tied asked r d) (htidy : d.Tidy) (hremembers : Remembers r d) {sid : SessionId}
    (hbinds : Binds r d sid) (limit keepAlive : ℕ) (link : Option String) :
    let d' := d.onConok sid limit keepAlive link
    Tied asked (r.after heard d d') d' ∧ Restored (r.after heard d d') d' := by
  obtain ⟨htied, hunharmed, hunknown⟩ := announced_poised heard h htidy hremembers hbinds
    limit keepAlive link
  have hregistry := d.announced_registry sid limit keepAlive link
  have hlifecycle : (d.announced sid limit keepAlive link).toLifecycle =
      (d.enterSession sid keepAlive link (d.conokKind sid)).toLifecycle := rfl
  have hsession : (d.announced sid limit keepAlive link).session = some sid := by
    rw [hlifecycle, enterSession_toLifecycle]
  have hkind : (d.announced sid limit keepAlive link).controlKind = d.controlKind := by
    rw [controlKind, controlKind, hlifecycle, enterSession_toLifecycle]
  have hnext : (d.announced sid limit keepAlive link).nextRequestId = d.nextRequestId := by
    rw [announced, emit_toDesk, enterSession_nextRequestId]
  have hsendable : Sendable sid (d.announced sid limit keepAlive link) := by
    refine ⟨?_, ?_, ?_, ?_⟩
    · rw [hregistry]
      exact hbinds.ample.subIds
    · rw [hregistry, hnext]
      exact hbinds.ample.requestIds
    · rw [hregistry, hkind]
      exact hbinds.encodes
    · rw [hregistry, announced_sends]
      exact hbinds.sends
  obtain ⟨t, ht, -⟩ := d.announced_aside sid limit keepAlive link
  have hfirst : Extends (fun _ => True) d.trace (d.announced sid limit keepAlive link).trace :=
    ⟨t, ht, fun _ _ => trivial⟩
  have hsecond := (d.announced sid limit keepAlive link).issueUnboundSubscriptions_extends
    (P := fun _ => True) (fun _ _ => trivial) fun _ _ _ _ _ => trivial
  dsimp only
  rw [onConok_eq, Remote.after_trans hfirst hsecond]
  exact ⟨issueUnboundSubscriptions_tied heard htied hunknown,
    issueUnboundSubscriptions_restored heard htied hunknown hunharmed hsession hsendable⟩

/-! ## What every operation keeps -/

/-- What the driver and the network agree on between two turns. -/
structure Agrees (asked : List SubscriptionKey) (r : Remote) (d : SessionDriver) : Prop where
  tied : Tied asked r d
  remembers : Remembers r d
  tidy : d.Tidy

/-- The driver has the same session in mind, or none. -/
def Forgets (d d' : SessionDriver) : Prop :=
  ∀ sid, (d'.session <|> d'.previousSession) = some sid →
    (d.session <|> d.previousSession) = some sid

theorem Forgets.of_eq (hs : d'.session = d.session) (hp : d'.previousSession = d.previousSession) :
    Forgets d d' := fun sid h => by rwa [hs, hp] at h

theorem abandonSession_forgets (d : SessionDriver) : Forgets d d.abandonSession := by
  intro sid h
  have hsession : d.session = some sid := h
  rw [hsession]
  rfl

theorem onCommand_forgets (d : SessionDriver) (c : SessionCommand) :
    Forgets d (d.onCommand c).2 := by
  obtain ⟨b, hl⟩ := d.onCommand_toLifecycle c
  exact .of_eq (by rw [hl]) (by rw [hl])

theorem onTimer_forgets (d : SessionDriver) : Forgets d d.onTimer.2 := by
  obtain ⟨failures, hl⟩ := d.onTimer_toLifecycle
  exact .of_eq (by rw [hl]) (by rw [hl])

theorem onNotification_forgets {n : Notification} (hn : isBind n = false) :
    Forgets d (d.onNotification n).2 := by
  have hsame : Forgets d d := .of_eq rfl rfl
  induction n using onNotification_cases d with
  | conok => cases hn
  | conerr code message hd =>
    rw [hd]
    unfold onConerr
    split
    · exact hsame
    · exact abandonSession_forgets d
    · exact abandonSession_forgets d
  | ended code message hd =>
    rw [hd]
    unfold onEnd
    split_ifs
    · exact hsame
    · split
      · exact abandonSession_forgets d
      · exact abandonSession_forgets d
      · exact hsame
  | loop millis hd => exact hd ▸ .of_eq (by simp) (by simp)
  | prog n hd =>
    obtain ⟨progressive, skip, honoured, hl⟩ := d.onProg_toLifecycle n
    exact hd ▸ .of_eq (by rw [hl]) (by rw [hl])
  | reqok id hd => exact hd ▸ .of_eq (by simp) (by simp)
  | reqerr id code message hd =>
    rw [hd]
    exact .of_eq (by rw [onRequestError_toLifecycle]) (by rw [onRequestError_toLifecycle])
  | quiet n _ hd => exact hd ▸ hsame
  | report n e _ hd => exact hd ▸ .of_eq rfl rfl
  | data n _ hd =>
    rw [hd]
    exact .of_eq (by rw [onData_toLifecycle]) (by rw [onData_toLifecycle])

namespace Agrees

variable {asked : List SubscriptionKey} {r : Remote} (heard : List Parcel)

/-- The network follows a driver that reports no bind. -/
theorem remembers_of_extends (h : Remembers r d) (hforgets : Forgets d d')
    (ht : Extends (fun a => a.boundId = none) d.trace d'.trace) :
    Remembers (r.after heard d d') d' := by
  obtain ⟨t, ht, hall⟩ := ht
  rw [Remote.after_eq ht]
  have hgrows := Remote.follow_grows heard (N := fun _ => True)
    (fun a ha => ⟨hall a ha, fun _ _ => trivial⟩) r
  intro sid hsid
  rw [hgrows.session]
  exact h sid (hforgets sid hsid)

/-- An operation that asks for no subscription and binds none. -/
theorem of_stands (h : Agrees asked r d) (hstands : Stands d d') (hforgets : Forgets d d')
    (htidy : d'.Tidy) : Agrees asked (r.after heard d d') d' := by
  obtain ⟨t, ht, hall, -⟩ := hstands.deals
  exact ⟨h.tied.of_stands hstands,
    remembers_of_extends heard h.remembers hforgets ⟨t, ht, fun a ha => (hall a ha).1⟩, htidy⟩

theorem onCommand (h : Agrees asked r d) (c : SessionCommand)
    (hfresh : ∀ key ∈ c.subscribed, key ∉ asked) :
    Agrees (c.subscribed ++ asked) (r.after heard d (d.onCommand c).2) (d.onCommand c).2 where
  tied := h.tied.onCommand heard c hfresh
  remembers := remembers_of_extends heard h.remembers (onCommand_forgets d c)
    (d.onCommand_extends (fun _ ha => ha.passes.1) c (fun _ _ _ _ => rfl) fun _ _ _ _ => rfl)
  tidy := h.tidy.of_files (onCommand_files d c fun _ _ => trivial)

theorem onConok (h : Agrees asked r d) {sid : SessionId} (hbinds : Binds r d sid)
    (limit keepAlive : ℕ) (link : Option String) :
    Agrees asked (r.after heard d (d.onConok sid limit keepAlive link))
        (d.onConok sid limit keepAlive link) ∧
      (r.after heard d (d.onConok sid limit keepAlive link)).session = some sid ∧
      Restored (r.after heard d (d.onConok sid limit keepAlive link))
        (d.onConok sid limit keepAlive link) := by
  obtain ⟨htied, hrestored⟩ :=
    onConok_restored heard h.tied h.tidy h.remembers hbinds limit keepAlive link
  have hbound : (r.after heard d (d.onConok sid limit keepAlive link)).session = some sid := by
    obtain ⟨t, ht, -⟩ := d.announced_aside sid limit keepAlive link
    have hissue := issueUnboundSubscriptions_extends (P := fun a : Action => a.boundId = none)
      (d.announced sid limit keepAlive link) (fun _ ha => ha.passes.1) fun _ _ _ _ _ => rfl
    have hfirst : Extends (fun _ => True) d.trace (d.announced sid limit keepAlive link).trace :=
      ⟨t, ht, fun _ _ => trivial⟩
    rw [onConok_eq, Remote.after_trans hfirst hissue, announced_after]
    obtain ⟨t, ht, hall⟩ := hissue
    rw [Remote.after_eq ht]
    have hgrows := fun r : Remote => Remote.follow_grows heard (N := fun _ => True)
      (fun a ha => ⟨hall a ha, fun _ _ => trivial⟩) r
    rw [(hgrows _).session]
    split
    · assumption
    · rfl
  refine ⟨⟨htied, fun sid' hsid' => ?_, onConok_tidy h.tidy sid limit keepAlive link⟩, hbound,
    hrestored⟩
  have hsession : (d.onConok sid limit keepAlive link).session = some sid := by
    rw [onConok_toLifecycle, enterSession_toLifecycle]
  rw [hsession] at hsid'
  rw [hbound]
  exact hsid'

/-- Which connection is live matters to none of what the two agree on. -/
theorem reconnect (h : Agrees asked r d) (connection : ℕ) (down : Bool) :
    Agrees asked { r with connection := connection, down := down } d :=
  ⟨h.tied.of_grows (r.connection_grows connection down), h.remembers, h.tidy⟩

end Agrees

end SessionDriver

/-! ## Runs -/

namespace Exchange

open SessionDriver

variable {w w' : Exchange}

/-- Every `subscribe` brings a key of its own, and the faults spare what each `CONOK` meets. -/
def Fair (w : Exchange) : Happening → Prop
  | .turn input _ => (∀ key ∈ subscribedKeys [input], key ∉ w.asked) ∧
      ∀ sid limit millis link, input.notification = some (.connectionOk sid limit millis link) →
        Binds w.remote (w.drive.driver.withTurn input.turn) sid
  | .arrive _ | .lose _ | .sever => True

/-- What the loop does goes unnoticed, but that it closes a connection and opens the next one. -/
theorem after_loop (heard : List Parcel) (r : Remote) {d : SessionDriver} {s : Drive}
    (ht : Extends Action.IsLoop d.trace s.driver.trace) :
    ∃ connection down,
      r.after heard d s.driver = { r with connection := connection, down := down } := by
  obtain ⟨t, ht, hall⟩ := ht
  rw [Remote.after_eq ht]
  exact Remote.follow_loop heard hall r

theorem agrees_loop {asked : List SubscriptionKey} {r : Remote} {d : SessionDriver} {s : Drive}
    (h : Agrees asked r d) (hdesk : Drive.SameDesk d s) (hsession : Drive.SameSession d s) :
    Agrees asked r s.driver where
  tied := h.tied.of_eq hdesk.registry hdesk.pending
  remembers := by
    intro sid hsid
    rw [hsession.session, hsession.previousSession] at hsid
    exact h.remembers sid hsid
  tidy := h.tidy.of_sub hsession.generation.ge fun id p hp => hdesk.pending ▸ hp

/-- A line, in what the network makes of it. -/
theorem onLine_agrees {asked : List SubscriptionKey} {r : Remote} {heard : List Parcel}
    {d : SessionDriver} (h : Agrees asked r d) {text : String}
    (hbinds : ∀ sid limit millis link, parseLine text = .ok (.connectionOk sid limit millis link) →
      Binds r d sid) : Agrees asked (r.after heard d (d.onLine text).2) (d.onLine text).2 := by
  have hheard : Agrees asked r d.heard := ⟨h.tied.of_eq rfl rfl, h.remembers, h.tidy⟩
  cases hp : parseLine text with
  | error e =>
    rw [onLine_of_error d hp]
    have hreport : Extends Action.Passes d.heard.trace (d.heard.emit (.unparsed text e)).trace :=
      extends_report _ (fun _ ha => ha.passes) trivial
    exact hheard.of_stands heard (.of_eq hreport (fun _ _ hq => hq) rfl) (.of_eq rfl rfl)
      hheard.tidy
  | ok n =>
    rw [onLine_of_ok d hp]
    cases n with
    | connectionOk sid limit millis link =>
      exact (hheard.onConok heard (hbinds sid limit millis link hp).heard limit _ link).1
    | _ =>
      refine hheard.of_stands heard (onNotification_stands ?_) (onNotification_forgets ?_)
        (onNotification_tidy hheard.tidy _) <;> rfl

/-- **Every step keeps the agreement.** -/
theorem step_agrees {happening : Happening} (h : Agrees w.asked w.remote w.drive.driver)
    (hfair : w.Fair happening) (hstep : step w happening = some w') :
    Agrees w'.asked w'.remote w'.drive.driver := by
  cases happening with
  | turn input heard =>
    obtain ⟨drive, hdrive, rfl⟩ := Option.map_eq_some_iff.mp hstep
    set d := w.drive.driver.withTurn input.turn with hd
    set asked := subscribedKeys [input] ++ w.asked with hasked
    have hturn : Agrees w.asked w.remote d := ⟨h.tied.of_eq rfl rfl, h.remembers, h.tidy⟩
    have hmore : Agrees asked w.remote d :=
      ⟨hturn.tied.mono (List.subset_append_right _ _), hturn.remembers, hturn.tidy⟩
    -- what the turn did so far is counted from the driver that took it
    have hkept := Drive.step_kept (R := fun a b => Extends (fun _ => True) a.trace b.trace ∧
        (Extends (fun _ => True) d.trace a.trace → Agrees asked (w.remote.after heard d a) a →
          Agrees asked (w.remote.after heard d b) b))
      (fun hR hR' => ⟨hR.1.trans hR'.1, fun hfrom ha => hR'.2 (hfrom.trans hR.1) (hR.2 hfrom ha)⟩)
      (fun {a s} hdesk hsession ht => ⟨ht.mono fun _ _ => trivial, fun hfrom ha => by
        obtain ⟨connection, down, hloop⟩ := after_loop heard (w.remote.after heard d a) ht
        rw [Remote.after_trans hfrom ht, hloop]
        exact agrees_loop (ha.reconnect connection down) hdesk hsession⟩) hd
      (fun c hw => ⟨d.onCommand_extends (fun _ _ => trivial) c (fun _ _ _ _ => trivial)
        fun _ _ _ _ => trivial, fun _ _ => ?_⟩)
      (fun text hw => ⟨?_, fun _ _ => ?_⟩)
      ⟨d.onTimer_extends fun _ _ _ => trivial, fun _ _ => ?_⟩ hdrive
    · exact hkept.2 (.refl _ _) ((Remote.after_self heard w.remote d).symm ▸ hmore)
    · have hkeys : subscribedKeys [input] = c.subscribed := by simp [subscribedKeys, hw]
      rw [hasked, hkeys]
      exact hturn.onCommand heard c fun key hkey => hfair.1 key (hkeys ▸ hkey)
    · cases hp : parseLine text with
      | error e => exact onLine_of_error d hp ▸ extends_report _ (fun _ _ => trivial) trivial
      | ok n =>
        exact onLine_of_ok d hp ▸ d.heard.onNotification_extends (fun _ _ => trivial) n
          (fun _ _ _ _ => trivial) (fun _ _ _ _ _ => trivial) (fun _ => trivial)
          (fun _ _ _ _ => trivial) fun _ _ _ _ _ _ => trivial
    · exact onLine_agrees hmore fun sid limit millis link hp =>
        hfair.2 sid limit millis link (Input.notification_of_line hw hp)
    · exact hmore.of_stands heard (onTimer_stands d) (onTimer_forgets d)
        (h.tidy.of_sub (by obtain ⟨failures, hl⟩ := d.onTimer_toLifecycle; rw [hl]; exact le_rfl)
          fun id p hp => by rwa [onTimer_pending] at hp)
  | arrive f =>
    simp only [step] at hstep
    split_ifs at hstep with hf
    cases hstep
    exact ⟨h.tied.of_grows (Remote.arrive_grows hf), h.remembers, h.tidy⟩
  | lose f =>
    simp only [step] at hstep
    split_ifs at hstep with hf
    cases hstep
    exact ⟨h.tied.of_grows (Remote.lose_grows _ f), h.remembers, h.tidy⟩
  | sever =>
    cases hstep
    exact h.reconnect _ _

theorem start_agrees (properties : TransportProperties) (options : SessionOptions) (seed : UInt64)
    (now : ℕ) : Agrees [] (start properties options seed now).remote
      (start properties options seed now).drive.driver where
  tied := by
    have hnone : ∀ g, g ∉ (start properties options seed now).remote.afoot :=
      fun _ => List.not_mem_nil
    refine ⟨fun _ _ _ he => ?_, fun g hg => absurd hg (hnone g), fun _ _ hp => ?_,
      fun g hg => absurd hg (hnone g), fun _ _ he => ?_, ?_⟩
    · cases he
    · cases hp
    · cases he
    · exact Nat.one_pos
  remembers := nofun
  tidy := nofun

/-- **A recovery restores every subscription**, as long as the faults leave the entries of the
registry alone: when a `CONOK` was handled, the server that is bound has what is wanted, or a
request in flight on the live connection asks for it, under one id. The loop goes on with that,
unless an ordered stop ends it in the same turn. -/
theorem recovery_restores {properties : TransportProperties} {options : SessionOptions}
    {seed : UInt64} {now : ℕ} {happenings : List Happening} {input : Input} {heard : List Parcel}
    {sid : SessionId} {limit millis : ℕ} {link : Option String}
    (hrun : exec step (start properties options seed now) happenings = some w)
    (hfair : Guarded step Fair (start properties options seed now) happenings)
    (hlast : w.Fair (.turn input heard)) (hstep : step w (.turn input heard) = some w')
    (hconok : input.notification = some (.connectionOk sid limit millis link)) :
    ∃ handled : Exchange,
      handled.drive = ⟨(w.drive.driver.withTurn input.turn).heard.onConok sid limit
        (ofMillis millis) link, .pumping⟩ ∧
      handled.remote = w.remote.after heard w.drive.driver handled.drive.driver ∧
      handled.asked = w.asked ∧ handled.remote.session = some sid ∧
      Restored handled.remote handled.drive.driver ∧
      (w' = handled ∨ ∃ closed, w'.drive.phase = .closed closed) := by
  have hagrees : Agrees w.asked w.remote w.drive.driver :=
    exec_invariant (I := fun w => Agrees w.asked w.remote w.drive.driver)
      (fun _ _ _ h hG hstep => step_agrees h hG hstep) (start_agrees properties options seed now)
      hfair hrun
  obtain ⟨drive, hdrive, rfl⟩ := Option.map_eq_some_iff.mp hstep
  have hturn : Agrees w.asked w.remote (w.drive.driver.withTurn input.turn).heard :=
    ⟨hagrees.tied.of_eq rfl rfl, hagrees.remembers, hagrees.tidy⟩
  obtain ⟨-, hsession, hrestored⟩ := hturn.onConok heard
    (hlast.2 sid limit millis link hconok).heard limit (ofMillis millis) link
  have hafter : drive = Drive.afterPump (.continue,
      (w.drive.driver.withTurn input.turn).heard.onConok sid limit (ofMillis millis) link) :=
    Drive.step_notification hconok hdrive
  obtain ⟨text, hwake, -⟩ := Input.notification_eq_some hconok
  have hkeys : subscribedKeys [input] = [] := by simp [subscribedKeys, hwake]
  refine ⟨⟨_, _, w.asked⟩, rfl, rfl, rfl, hsession, hrestored, ?_⟩
  obtain h | ⟨-, -, h⟩ | ⟨reason, hr, -⟩ | ⟨closed, hr, -⟩ := Drive.afterPump_cases (.continue,
    (w.drive.driver.withTurn input.turn).heard.onConok sid limit (ofMillis millis) link)
  · exact .inr ⟨_, by rw [hafter, h, Drive.finish_phase]⟩
  · refine .inl ?_
    rw [hafter, h, hkeys]
    rfl
  · cases hr
  · cases hr

/-- Nothing was lost or ended, and nothing is on its way or due. -/
def Spared (r : Remote) (d : SessionDriver) (sid : SessionId) : Prop :=
  (r.lost = [] ∧ r.flying = [] ∧ r.ended = [] ∧ (d.due sid).unboundKeys = []) ∧
    ((d.conokKind sid).isFresh = true → r.session ≠ some sid ∧ d.generation < u64Max) ∧
    (d.due sid).nextSubId ≤ u32Max ∧ d.nextRequestId ≤ u64Max

instance (r : Remote) (d : SessionDriver) (sid : SessionId) : Decidable (Spared r d sid) :=
  inferInstanceAs (Decidable (_ ∧ _))

theorem Spared.binds {r : Remote} {d : SessionDriver} {sid : SessionId} (h : Spared r d sid) :
    Binds r d sid := by
  obtain ⟨⟨hlost, hflying, hended, hdue⟩, hfresh, hsubIds, hrequestIds⟩ := h
  refine ⟨hfresh, fun _ => ⟨fun p hp => ?_, fun f hf => ?_, fun g hg => ?_⟩, fun hsame g _ => ?_,
    ⟨?_, ?_⟩, fun key hkey => ?_, fun e he => ?_⟩
  · exact absurd (hlost ▸ hp) List.not_mem_nil
  · exact absurd (hflying ▸ hf) List.not_mem_nil
  · exact absurd (hended ▸ hg) List.not_mem_nil
  · rw [due, hsame, if_neg Bool.false_ne_true] at hdue
    exact hdue ▸ List.not_mem_nil
  · rw [hdue]
    exact hsubIds
  · rw [hdue]
    exact hrequestIds
  · exact absurd (hdue ▸ hkey) List.not_mem_nil
  · rw [hdue] at he
    exact absurd he List.not_mem_nil

/-- The session that a notification binds. -/
def bindsTo : Notification → Option SessionId
  | .connectionOk sid .. => some sid
  | _ => none

/-- Every `subscribe` brings a key of its own, and every `CONOK` is spared. -/
def Peaceful (w : Exchange) : Happening → Prop
  | .turn input _ => (∀ key ∈ subscribedKeys [input], key ∉ w.asked) ∧
      ∀ sid ∈ input.notification.bind bindsTo,
        Spared w.remote (w.drive.driver.withTurn input.turn) sid
  | .arrive _ | .lose _ | .sever => True

instance (w : Exchange) : (happening : Happening) → Decidable (w.Peaceful happening)
  | .turn _ _ => inferInstanceAs (Decidable (_ ∧ ∀ _ ∈ _, _))
  | .arrive _ | .lose _ | .sever => inferInstanceAs (Decidable True)

theorem Peaceful.fair {happening : Happening} (h : w.Peaceful happening) : w.Fair happening := by
  cases happening with
  | turn input heard =>
    refine ⟨h.1, fun sid limit millis link hn => (h.2 sid ?_).binds⟩
    rw [hn]
    rfl
  | arrive | lose | sever => trivial

theorem one_le_u32Max : 1 ≤ u32Max := by decide

/-- The `add` of the first subscription of session `S1`. -/
def firstAdd : Parcel :=
  ⟨.subscribe (subscribeRequest "S1" (.fromProgressive 1) ⟨1, Nat.one_pos, one_le_u32Max⟩
    (.new "items" "fields" .merge)), .subscribe 7⟩

/-- A session is bound, and a subscription made in it. -/
def subscribed (turn : Turn) (heard : List Parcel) : List Happening :=
  [.turn ⟨.opened, {}⟩ [], .turn ⟨.line "CONOK,S1,50000,5000,*", {}⟩ [],
    .turn ⟨.command (.subscribe 7 (.new "items" "fields" .merge)), turn⟩ heard]

/-- The connection is lost, and the next one is established. -/
def reconnected : List Happening :=
  [.turn ⟨.lineFailed "reset", {}⟩ [], .turn ⟨.timer, {}⟩ [], .turn ⟨.opened, {}⟩ []]

/-- The server confirms the session. -/
def recovered : Input := ⟨.line "CONOK,S1,50000,5000,*", {}⟩

theorem recovery_restores_arrived :
    ∃ w handled, exec step (start ⟨true, false, false⟩ .default 1 0)
        (subscribed {} [] ++ [.arrive ⟨firstAdd, 0⟩] ++ reconnected) = some w ∧
      step w (.turn recovered []) = some handled ∧ handled.remote.session = some "S1" ∧
      Restored handled.remote handled.drive.driver := by
  obtain ⟨w, hrun, hlast, w', hstep, hphase⟩ : ∃ w,
      exec step (start ⟨true, false, false⟩ .default 1 0)
        (subscribed {} [] ++ [.arrive ⟨firstAdd, 0⟩] ++ reconnected) = some w ∧
      w.Peaceful (.turn recovered []) ∧ ∃ w', step w (.turn recovered []) = some w' ∧
        w'.drive.phase = .pumping :=
    ⟨_, rfl, by decide, _, rfl, rfl⟩
  have hconok : recovered.notification = some (.connectionOk "S1" 50000 5000 none) := rfl
  have hpeace : Guarded step Peaceful (start ⟨true, false, false⟩ .default 1 0)
    (subscribed {} [] ++ [.arrive ⟨firstAdd, 0⟩] ++ reconnected) := by decide
  obtain ⟨handled, -, -, -, hsession, hrestored, rfl | ⟨closed, hclosed⟩⟩ :=
    recovery_restores hrun (hpeace.mono fun _ _ h => h.fair) hlast.fair hstep hconok
  · exact ⟨w, w', hrun, hstep, hsession, hrestored⟩
  · cases hphase.symm.trans hclosed

/-- **A recovery that does not restore.** An `add` that was left on a connection that broke is never
sent again in the same session, whether it is lost or on its way for ever; one that arrived though
its send reported an error is sent twice. -/
theorem recovery_lost_or_doubled :
    (∃ w, exec step (start ⟨true, false, false⟩ .default 1 0)
        (subscribed {} [] ++ reconnected ++ [.turn recovered []]) = some w ∧
      ¬Restored w.remote w.drive.driver) ∧
    (∃ w, exec step (start ⟨true, false, false⟩ .default 1 0)
        (subscribed {} [] ++ reconnected ++ [.turn recovered [], .lose ⟨firstAdd, 0⟩]) = some w ∧
      ¬Restored w.remote w.drive.driver) ∧
    ∃ w, exec step (start ⟨true, false, false⟩ .default 1 0)
        (subscribed { sends := [some "reset"] } [firstAdd] ++ reconnected ++
          [.turn recovered []]) = some w ∧
      ¬Restored w.remote w.drive.driver := by
  have hleft : exec step (start ⟨true, false, false⟩ .default 1 0)
    (subscribed {} [] ++ reconnected ++ [.turn recovered []]) = some _ := rfl
  have hlost : exec step (start ⟨true, false, false⟩ .default 1 0)
    (subscribed {} [] ++ reconnected ++ [.turn recovered [], .lose ⟨firstAdd, 0⟩]) = some _ := rfl
  have hdoubled : exec step (start ⟨true, false, false⟩ .default 1 0)
    (subscribed { sends := [some "reset"] } [firstAdd] ++ reconnected ++
      [.turn recovered []]) = some _ := rfl
  refine ⟨⟨_, hleft, fun h => ?_⟩, ⟨_, hlost, fun h => ?_⟩, _, hdoubled, fun h => ?_⟩
  · obtain ⟨id, -, hknown, -⟩ := h.known 7 _ rfl (by decide)
    exact absurd hknown List.not_mem_nil
  · obtain ⟨id, -, hknown, -⟩ := h.known 7 _ rfl (by decide)
    exact absurd hknown List.not_mem_nil
  · obtain ⟨id, hid, -, honly⟩ := h.known 7 _ rfl (by decide)
    have hfirst := honly ⟨1, 7⟩ (by decide) rfl
    cases hid
    exact absurd hfirst (by decide)

end Exchange

end Lightstreamer.Session
