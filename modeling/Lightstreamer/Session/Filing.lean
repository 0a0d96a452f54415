import Lightstreamer.Session.Turns

/-!
# The table of pending requests

`Issues` is what the commands do to the table and to the trace: they dispatch requests, each under
the id that was just taken, and tell the caller about them. So requests are filed under ids that
were never used before, and with the generation of the session that issues them (`Files`), no
pending request is of a later session than the current one (`Tidy`, kept by every turn), and a
request is found under its id until a response takes it or its session is replaced.
-/

namespace Lightstreamer.Session

open Lightstreamer.Foundations Lightstreamer.Protocol Lightstreamer.Subscription

/-- What a command files its request as. -/
def SessionCommand.kind : SessionCommand → Option PendingKind
  | subscribe key _ => some (.subscribe key)
  | unsubscribe key => some (.unsubscribe key)
  | reconfigure key maxFrequency => some (.reconfigure key maxFrequency)
  | sendMessage m => some (.sendMessage m.identity.1 m.identity.2)
  | forceRebind _ => some .forceRebind
  | destroy _ => some .destroy
  | shutdown => none

/-- The id that a request carries: all but a heartbeat do. -/
def requestIdOf : ControlRequest → Option RequestId
  | .subscribe r => some r.requestId
  | .unsubscribe r => some r.requestId
  | .reconfigure r => some r.requestId
  | .forceRebind r => some r.requestId
  | .destroy r => some r.requestId
  | .messageSend r => some r.requestId
  | .heartbeat _ => none

/-- The id of the request that an action hands to the transport. -/
def Action.dispatchedId : Action → Option String
  | .control request _ _ _ => (requestIdOf request).map RequestId.text
  | _ => none

/-- The id of the request that an action reports as not sent. -/
def Action.unsentId : Action → Option String
  | .event (.controlResponse (some id) _ (.notSent _)) _ => some id.text
  | _ => none

/-- The id of the request that an action reports the outcome of. -/
def Action.settledId : Action → Option String
  | .event (.controlResponse (some id) _ _) _ => some id.text
  | _ => none

/-- An action that neither dispatches a request nor reports one as not sent. -/
def Action.Plain (a : Action) : Prop := a.dispatchedId = none ∧ a.unsentId = none

/-- An action that neither dispatches a request nor reports the outcome of one. -/
def Action.Still (a : Action) : Prop := a.dispatchedId = none ∧ a.settledId = none

theorem Action.Still.plain {a : Action} (h : a.Still) : a.Plain := by
  refine ⟨h.1, ?_⟩
  cases a with
  | event e b =>
    cases e with
    | controlResponse id target outcome =>
      cases id with
      | none => rfl
      | some id => cases h.2
    | _ => rfl
  | _ => rfl

/-- An event about requests of kinds in `K` that got no id, about messages, or about what was
issued. -/
def SessionEvent.Notice (K : PendingKind → Prop) : SessionEvent → Prop
  | controlResponse none target (.notSent _) => ∃ kind, K kind ∧ target = kind.target
  | resubscribed _ | message .. => True
  | _ => False

def Action.Notice (K : PendingKind → Prop) : Action → Prop
  | .event e _ => e.Notice K
  | _ => False

theorem Action.Notice.still {K : PendingKind → Prop} {a : Action} (h : a.Notice K) : a.Still := by
  cases a with
  | event e b =>
    cases e with
    | controlResponse id target outcome =>
      cases id with
      | none => exact ⟨rfl, rfl⟩
      | some id => cases h
    | resubscribed | message => exact ⟨rfl, rfl⟩
    | _ => cases h
  | _ => cases h

namespace SessionDriver

/-- What issuing requests does: requests are dispatched, each under the id just taken, and for the
rest nothing happens to the table. -/
inductive Issues (K : PendingKind → Prop) : SessionDriver → SessionDriver → Prop
  | plain {d d' : SessionDriver} (hgeneration : d'.generation = d.generation)
      (hpending : d'.pending = d.pending) (hnext : d'.nextRequestId = d.nextRequestId)
      (htrace : Extends (Action.Notice K) d.trace d'.trace) : Issues K d d'
  | dispatch {d d' d₁ : SessionDriver} {id : RequestId} {request : ControlRequest}
      {kind : PendingKind} (htake : d.takeRequestId = some (id, d'))
      (hgeneration : d₁.generation = d.generation) (hpending : d₁.pending = d.pending)
      (hnext : d₁.nextRequestId = d'.nextRequestId) (htrace : d₁.trace = d.trace)
      (hid : requestIdOf request = some id) (hK : K kind) :
      Issues K d (d₁.dispatch request id kind).2
  | trans {d d' d'' : SessionDriver} (h : Issues K d d') (h' : Issues K d' d'') : Issues K d d''

/-- What issuing requests does to the table: new entries, of kinds in `K` and of the current
session, under ids that were not yet taken. -/
structure Files (K : PendingKind → Prop) (d d' : SessionDriver) : Prop where
  generation : d'.generation = d.generation
  le : d.nextRequestId ≤ d'.nextRequestId
  kept : ∀ id, (∀ n, d.nextRequestId ≤ n → id ≠ (RequestId.fromProgressive n).text) →
    d'.pending.get? id = d.pending.get? id
  filed : ∀ id p, d'.pending.get? id = some p →
    d.pending.get? id = some p ∨ p.generation = d.generation ∧ K p.kind

namespace Files

variable {K : PendingKind → Prop} {d d' d'' : SessionDriver}

theorem trans (h : Files K d d') (h' : Files K d' d'') : Files K d d'' where
  generation := h'.generation.trans h.generation
  le := h.le.trans h'.le
  kept := fun id hid => by
    rw [h'.kept id fun n hn => hid n (h.le.trans hn), h.kept id hid]
  filed := fun id p hp => by
    rcases h'.filed id p hp with hp | hp
    · exact h.filed id p hp
    · exact .inr ⟨hp.1.trans h.generation, hp.2⟩

theorem of_eq (hgeneration : d'.generation = d.generation) (hpending : d'.pending = d.pending)
    (hnext : d'.nextRequestId = d.nextRequestId) : Files K d d' where
  generation := hgeneration
  le := hnext.ge
  kept := fun id _ => by rw [hpending]
  filed := fun id p hp => .inl (hpending ▸ hp)

end Files

variable {K : PendingKind → Prop} {d d' : SessionDriver}

/-- A request that is dispatched is filed under the id just taken. -/
theorem dispatch_files {id : RequestId} (h : d.takeRequestId = some (id, d'))
    {d₁ : SessionDriver} (hgeneration : d₁.generation = d.generation)
    (hpending : d₁.pending = d.pending) (hnext : d₁.nextRequestId = d'.nextRequestId)
    (request : ControlRequest) {kind : PendingKind} (hK : K kind) :
    Files K d (d₁.dispatch request id kind).2 := by
  obtain ⟨-, rfl, rfl⟩ := takeRequestId_eq_some h
  have hkept : ∀ (p : Pending) (id : String),
      (∀ n, d.nextRequestId ≤ n → id ≠ (RequestId.fromProgressive n).text) →
      (d₁.pending.insert (RequestId.fromProgressive d.nextRequestId).text p).get? id =
        d.pending.get? id := fun p id hid => by
    rw [OrdMap.get?_insert, if_neg (hid _ (Nat.le_refl _)), hpending]
  obtain ⟨error, e, hd, rfl⟩ | ⟨ps, e, hd, hl, -, hp, hn, -⟩ |
      ⟨ps, error, b, e, hd, hl, -, hp, hn, -⟩ :=
    d₁.dispatch_cases request (.fromProgressive d.nextRequestId) kind
  · rw [hd]
    exact ⟨hgeneration, by simp [hnext], fun id _ => by simp [hpending], fun id p hq => .inl (by
      simpa [hpending] using hq)⟩
  · rw [hd]
    refine ⟨by rw [hl, hgeneration], by simp [hn, hnext], fun id hid => ?_, fun id p hq => ?_⟩
    · rw [hp, hkept _ id hid]
    · rw [hp, OrdMap.get?_insert] at hq
      split at hq
      · cases hq
        exact .inr ⟨hgeneration, hK⟩
      · exact .inl (hpending ▸ hq)
  · rw [hd]
    refine ⟨by rw [hl, hgeneration], by simp [hn, hnext], fun id hid => ?_, fun id p hq => ?_⟩
    · rw [hp, OrdMap.get?_erase, if_neg (hid _ (Nat.le_refl _)), hkept _ id hid]
    · rw [hp, OrdMap.get?_erase, OrdMap.get?_insert] at hq
      split at hq
      · cases hq
      · exact .inl (hpending ▸ hq)

theorem Issues.files (h : Issues K d d') : Files K d d' := by
  induction h with
  | plain hgeneration hpending hnext _ => exact .of_eq hgeneration hpending hnext
  | dispatch htake hgeneration hpending hnext _ _ hK =>
    exact dispatch_files htake hgeneration hpending hnext _ hK
  | trans _ _ ih ih' => exact ih.trans ih'

/-! ## The commands -/

namespace Issues

/-- What changes nothing of the table but tells the caller something. -/
theorem of_eq (hgeneration : d'.generation = d.generation) (hpending : d'.pending = d.pending)
    (hnext : d'.nextRequestId = d.nextRequestId) (htrace : d'.trace = d.trace) :
    Issues K d d' :=
  .plain hgeneration hpending hnext (htrace ▸ .refl _ _)

@[refl] theorem refl (K : PendingKind → Prop) (d : SessionDriver) : Issues K d d :=
  .of_eq rfl rfl rfl rfl

theorem emit (d : SessionDriver) {e : SessionEvent} (he : e.Notice K) : Issues K d (d.emit e) :=
  .plain rfl rfl rfl (d.extends_emit fun _ => he)

end Issues

theorem reportIdExhaustion_issues (kind : PendingKind) (hK : K kind) :
    Issues K d (d.reportIdExhaustion kind.target) :=
  .emit d ⟨kind, hK, rfl⟩

theorem sendSubscribe_issues (session : SessionId) (key : SubscriptionKey) (subId : NonZeroU32)
    (entry : RegistryEntry) (hK : K (.subscribe key)) :
    Issues K d (d.sendSubscribe session key subId entry).2 := by
  unfold sendSubscribe
  split
  · have hrelease : Issues K d { d with registry := d.registry.release key subId } :=
      .of_eq rfl rfl rfl rfl
    exact hrelease.trans (reportIdExhaustion_issues (.subscribe key) hK)
  · rename_i id d' h
    have hissues : Issues K d (d'.dispatch
        (.subscribe (subscribeRequest session id subId entry.spec)) id (.subscribe key)).2 := by
      obtain ⟨-, -, rfl⟩ := takeRequestId_eq_some h
      exact .dispatch h rfl rfl rfl rfl rfl hK
    dsimp only
    split
    · exact hissues
    · exact hissues.trans (.of_eq rfl rfl rfl rfl)

theorem issueSubscription_issues (d : SessionDriver) {key : SubscriptionKey}
    (hK : K (.subscribe key)) : Issues K d (d.issueSubscription key).2 := by
  unfold issueSubscription
  split
  · exact .refl K d
  · split
    · exact .refl K d
    · rename_i subId registry _
      split
      · exact .of_eq rfl rfl rfl rfl
      · have hbind : Issues K d { d with registry := registry.bind key subId } :=
          .of_eq rfl rfl rfl rfl
        exact hbind.trans (sendSubscribe_issues _ key subId _ hK)

theorem issueAll_issues (d : SessionDriver) {keys : List SubscriptionKey}
    (hK : ∀ key ∈ keys, K (.subscribe key)) : Issues K d (d.issueAll keys).2 := by
  induction keys generalizing d with
  | nil => exact .refl K d
  | cons key keys ih =>
    exact (issueSubscription_issues d (hK key List.mem_cons_self)).trans
      (ih _ fun k hk => hK k (List.mem_cons_of_mem _ hk))

theorem issueUnboundSubscriptions_issues (d : SessionDriver)
    (hK : ∀ key ∈ d.registry.unboundKeys, K (.subscribe key)) :
    Issues K d d.issueUnboundSubscriptions := by
  unfold issueUnboundSubscriptions
  dsimp only
  split
  · exact issueAll_issues d hK
  · exact (issueAll_issues d hK).trans (.emit _ trivial)

/-- Every command dispatches its request as what it is. -/
theorem onCommand_issues (d : SessionDriver) (c : SessionCommand)
    (hK : ∀ kind, c.kind = some kind → K kind) : Issues K d (d.onCommand c).2 := by
  cases c with
  | subscribe key spec =>
    have hwant : Issues K d { d with registry := d.registry.want key spec } :=
      .of_eq rfl rfl rfl rfl
    change Issues K d (d.subscribe key spec)
    unfold subscribe
    dsimp only
    split
    · exact hwant.trans (issueSubscription_issues _ (hK _ rfl))
    · exact hwant
  | unsubscribe key =>
    change Issues K d (d.unsubscribe key)
    unfold unsubscribe
    split
    · exact .refl K d
    · split
      · exact .of_eq rfl rfl rfl rfl
      · have hmark : Issues K d { d with registry := d.registry.markRemoving key } :=
          .of_eq rfl rfl rfl rfl
        dsimp only
        split
        · exact hmark
        · split
          · exact hmark.trans (reportIdExhaustion_issues (.unsubscribe key) (hK _ rfl))
          · rename_i h
            refine hmark.trans ?_
            obtain ⟨-, rfl, rfl⟩ := takeRequestId_eq_some h
            exact .dispatch h rfl rfl rfl rfl rfl (hK _ rfl)
  | reconfigure key f =>
    change Issues K d (d.reconfigure key f)
    unfold reconfigure
    split
    · split
      · exact reportIdExhaustion_issues (.reconfigure key f) (hK _ rfl)
      · rename_i h
        obtain ⟨-, rfl, rfl⟩ := takeRequestId_eq_some h
        exact .dispatch h rfl rfl rfl rfl rfl (hK _ rfl)
    · exact .refl K d
  | sendMessage m =>
    change Issues K d (d.sendMessage m)
    unfold sendMessage
    dsimp only
    split
    · split
      · exact (reportIdExhaustion_issues (.sendMessage _ _) (hK _ rfl)).trans (.emit _ trivial)
      · rename_i id d' h
        have hissues : ∀ request, requestIdOf request = some id →
            Issues K d (d'.dispatch request id (.sendMessage m.identity.1 m.identity.2)).2 := by
          obtain ⟨-, -, rfl⟩ := takeRequestId_eq_some h
          exact fun request hid => .dispatch h rfl rfl rfl rfl hid (hK _ rfl)
        split
        · exact hissues _ rfl
        · exact (hissues _ rfl).trans (.emit _ trivial)
    · exact .emit _ trivial
  | forceRebind closeSocket =>
    change Issues K d (d.forceRebind closeSocket)
    unfold forceRebind
    split
    · split
      · exact reportIdExhaustion_issues .forceRebind (hK _ rfl)
      · rename_i h
        dsimp only
        obtain ⟨-, rfl, rfl⟩ := takeRequestId_eq_some h
        exact .dispatch h rfl rfl rfl rfl rfl (hK _ rfl)
    · exact .refl K d
  | destroy cause =>
    change Issues K d (d.destroy cause).2
    unfold destroy
    split
    · exact .refl K d
    · split
      · exact reportIdExhaustion_issues .destroy (hK _ rfl)
      · rename_i h
        dsimp only
        obtain ⟨-, rfl, rfl⟩ := takeRequestId_eq_some h
        exact .dispatch h rfl rfl rfl rfl rfl (hK _ rfl)
  | shutdown => exact .refl K d

theorem issueUnboundSubscriptions_files (d : SessionDriver)
    (hK : ∀ key ∈ d.registry.unboundKeys, K (.subscribe key)) :
    Files K d d.issueUnboundSubscriptions :=
  (issueUnboundSubscriptions_issues d hK).files

theorem onCommand_files (d : SessionDriver) (c : SessionCommand)
    (hK : ∀ kind, c.kind = some kind → K kind) : Files K d (d.onCommand c).2 :=
  (onCommand_issues d c hK).files

/-! ## No request of a later session -/

/-- No pending request is of a later session than the current one. -/
def Tidy (d : SessionDriver) : Prop :=
  ∀ id p, d.pending.get? id = some p → p.generation ≤ d.generation

theorem Tidy.of_files (h : d.Tidy) (hf : Files (fun _ => True) d d') : d'.Tidy := fun id p hp => by
  rw [hf.generation]
  rcases hf.filed id p hp with hp | hp
  · exact h id p hp
  · exact hp.1.le

/-- The table lost entries at most, and the generation did not go back. -/
theorem Tidy.of_sub (h : d.Tidy) (hgeneration : d.generation ≤ d'.generation)
    (hpending : ∀ id p, d'.pending.get? id = some p → d.pending.get? id = some p) : d'.Tidy :=
  fun id p hp => (h id p (hpending id p hp)).trans hgeneration

/-- Binding a session keeps the requests it issued. -/
theorem announced_pending (d : SessionDriver) (sid : SessionId) (limit keepAlive : ℕ)
    (link : Option String) :
    (d.announced sid limit keepAlive link).pending =
      if (d.conokKind sid).isFresh then
        d.pending.filter fun _ p => p.generation = saturatingAdd u64Max d.generation 1
      else d.pending := by
  unfold announced enterSession
  dsimp only [emit]
  split
  · simp only [freshSession, retireStalePending_pending]
    rfl
  · rfl

theorem announced_generation (d : SessionDriver) (sid : SessionId) (limit keepAlive : ℕ)
    (link : Option String) :
    (d.announced sid limit keepAlive link).generation =
      if (d.conokKind sid).isFresh then saturatingAdd u64Max d.generation 1 else d.generation := by
  simp [announced, enterSession_toLifecycle]

theorem onConok_tidy (h : d.Tidy) (sid : SessionId) (limit keepAlive : ℕ) (link : Option String) :
    (d.onConok sid limit keepAlive link).Tidy := by
  have hannounced : (d.announced sid limit keepAlive link).Tidy := by
    intro id p hp
    rw [announced_pending] at hp
    rw [announced_generation]
    split at hp
    · rename_i hfresh
      rw [OrdMap.get?_filter, Option.filter_eq_some_iff] at hp
      rw [if_pos hfresh]
      exact (of_decide_eq_true hp.2).le
    · rename_i hfresh
      rw [if_neg hfresh]
      exact h id p hp
  exact hannounced.of_files (issueUnboundSubscriptions_files _ fun _ _ => trivial)

theorem onRequestOk_tidy (h : d.Tidy) (id : Option String) : (d.onRequestOk id).Tidy := by
  have hgeneration : (d.onRequestOk id).generation = d.generation := by
    rw [onRequestOk_toLifecycle]
  exact h.of_sub hgeneration.ge fun _ _ => d.pending_of_onRequestOk

theorem onRequestError_tidy (h : d.Tidy) (id : String) (cause : ServerCause) :
    (d.onRequestError id cause).Tidy := by
  have hgeneration : (d.onRequestError id cause).generation = d.generation := by
    rw [onRequestError_toLifecycle]
  exact h.of_sub hgeneration.ge fun _ _ => d.pending_of_onRequestError

theorem onNotification_tidy (h : d.Tidy) (n : Notification) : (d.onNotification n).2.Tidy := by
  have hquiet : ∀ {d' : SessionDriver}, d'.generation = d.generation → d'.pending = d.pending →
      d'.Tidy := fun hg hp => h.of_sub hg.ge fun id p hq => hp ▸ hq
  induction n using onNotification_cases d with
  | conok sid limit millis link hn => exact hn ▸ onConok_tidy h sid limit _ link
  | conerr code message hn =>
    exact hquiet (onNotification_steady rfl).generation (by rw [hn, onConerr_toDesk])
  | ended code message hn =>
    exact hquiet (onNotification_steady rfl).generation (by rw [hn, onEnd_toDesk])
  | loop millis hn => exact hn ▸ hquiet (by simp) (by simp)
  | prog n hn => exact hquiet (onNotification_steady rfl).generation (by rw [hn, onProg_toDesk])
  | reqok id hn => exact hn ▸ onRequestOk_tidy h id
  | reqerr id code message hn => exact hn ▸ onRequestError_tidy h id _
  | quiet n _ hn => exact hn ▸ h
  | report n e _ hn _ => exact hn ▸ hquiet rfl rfl
  | data n _ hn => exact hn ▸ hquiet (by rw [onData_toLifecycle]) (onData_pending _ n)

theorem onLine_tidy (h : d.Tidy) (text : String) : (d.onLine text).2.Tidy := by
  have hheard : d.heard.Tidy := h
  cases hp : parseLine text with
  | ok n => exact onLine_of_ok d hp ▸ onNotification_tidy hheard n
  | error e => exact onLine_of_error d hp ▸ hheard

end SessionDriver

namespace Drive

open SessionDriver

/-- **Every turn keeps the table tidy.** -/
theorem step_tidy {s s' : Drive} {i : Input} (h : s.driver.Tidy) (hstep : step s i = some s') :
    s'.driver.Tidy := by
  refine step_kept (R := fun d d' => d.Tidy → d'.Tidy) (fun hR hR' hd => hR' (hR hd))
    (fun hdesk hsession _ hd => hd.of_sub hsession.generation.ge fun id p hp => hdesk.pending ▸ hp)
    rfl (fun c _ hd => hd.of_files (onCommand_files _ c fun _ _ => trivial))
    (fun text _ hd => onLine_tidy hd text) (fun hd => ?_) hstep h
  obtain ⟨failures, hl⟩ := onTimer_toLifecycle (s.driver.withTurn i.turn)
  refine hd.of_sub (by rw [hl]) fun id p hp => ?_
  rw [onTimer_pending] at hp
  exact hp

theorem Reachable.tidy {properties : TransportProperties} {options : SessionOptions} {s : Drive}
    (h : Reachable properties options s) : s.driver.Tidy := by
  obtain ⟨seed, now, inputs, h⟩ := h
  have hstart : (start properties options seed now).driver.Tidy := nofun
  exact exec_invariant (fun _ _ _ hs _ hstep => step_tidy hs hstep) hstart
    (guarded_true _ _ inputs) h

end Drive

end Lightstreamer.Session
