import Lightstreamer.Session.Filing

/-!
# Who is blamed for a `LOOP`

The driver keeps one flag for all the rebinds it forces, and reads it when a `LOOP` arrives. What
the flag stands for is read off a run by a monitor: the `force_rebind` requests that were sent on
the stream connection and were not refused (`Drive.follow`). `SessionDriver.Blames` is their
agreement, kept by every turn that is `Attributable`; `loopReason_forced_iff` is what it gives.
-/

namespace Lightstreamer.Session

open Lightstreamer.Foundations Lightstreamer.Protocol Lightstreamer.Subscription

/-! ## The requests that stand -/

/-- The `force_rebind` requests that stand after an action: one more once it was sent, and none on
the next stream connection or in another session. -/
def Action.follow (standing : List String) : Action → List String
  | .control request (some .forceRebind) _ none =>
    standing ++ ((requestIdOf request).map RequestId.text).toList
  | .event (.bound info) _ => if info.kind.isFresh then [] else standing
  | .event (.unbound ..) _ => []
  | _ => standing

/-- An action that leaves alone what stands. -/
def Action.Passive (a : Action) : Prop := ∀ standing, a.follow standing = standing

theorem Action.IsReport.passive {a : Action} (h : a.IsReport) : a.Passive := fun standing => by
  cases a with
  | event e b =>
    cases e with
    | bound | unbound => cases h
    | _ => rfl
  | setControlLink => rfl
  | _ => cases h

theorem Action.passive_control {request : ControlRequest} {kind : Option PendingKind}
    (hkind : kind ≠ some .forceRebind) (ps : String) (error : Option String) :
    (Action.control request kind ps error).Passive := fun standing => by
  cases kind with
  | none => rfl
  | some kind =>
    cases kind with
    | forceRebind => exact absurd rfl hkind
    | _ => rfl

namespace SessionDriver

variable {d d' d'' : SessionDriver} {standing standing' standing'' : List String}

/-- What stands once `d` has become `d'`. -/
def Moves (d : SessionDriver) (standing : List String) (d' : SessionDriver)
    (standing' : List String) : Prop :=
  ∃ added, d'.trace = d.trace ++ added ∧ added.foldl Action.follow standing = standing'

namespace Moves

theorem of_passive (h : Extends Action.Passive d.trace d'.trace) (standing : List String) :
    d.Moves standing d' standing := by
  obtain ⟨added, ht, hadded⟩ := h
  refine ⟨added, ht, ?_⟩
  clear ht
  induction added with
  | nil => rfl
  | cons a added ih =>
    rw [List.foldl_cons, hadded a List.mem_cons_self]
    exact ih fun b hb => hadded b (List.mem_cons_of_mem a hb)

theorem trans (h : d.Moves standing d' standing') (h' : d'.Moves standing' d'' standing'') :
    d.Moves standing d'' standing'' := by
  obtain ⟨added, ht, rfl⟩ := h
  obtain ⟨added', ht', rfl⟩ := h'
  exact ⟨added ++ added', by rw [ht', ht, List.append_assoc], List.foldl_append⟩

theorem one {a : Action} (ht : d'.trace = d.trace ++ [a]) (standing : List String) :
    d.Moves standing d' (a.follow standing) := ⟨[a], ht, rfl⟩

end Moves

/-- The flag is set exactly while a request stands on a bound stream connection. -/
structure Blames (d : SessionDriver) (standing : List String) : Prop where
  bound : d.streamState = .bound → (d.forceRebindOutstanding = true ↔ standing ≠ [])
  establishing : d.streamState = .establishing → standing = []

theorem Blames.of_eq (h : d.Blames standing) (hstate : d'.streamState = d.streamState)
    (hflag : d'.forceRebindOutstanding = d.forceRebindOutstanding) : d'.Blames standing :=
  ⟨fun hs => hflag ▸ h.bound (hstate ▸ hs), fun hs => h.establishing (hstate ▸ hs)⟩

/-! ## The flag -/

section flag

variable (d)

@[simp] theorem dispatch_forceRebindOutstanding (request : ControlRequest) (id : RequestId)
    (kind : PendingKind) :
    (d.dispatch request id kind).2.forceRebindOutstanding = d.forceRebindOutstanding := by
  obtain ⟨_, _, h, rfl⟩ | ⟨_, _, h, -, -, -, -, h', -⟩ | ⟨_, _, _, _, h, -, -, -, -, h', -⟩ :=
    d.dispatch_cases request id kind <;> simp [*]

@[simp] theorem sendSubscribe_forceRebindOutstanding (session : SessionId) (key : SubscriptionKey)
    (subId : NonZeroU32) (entry : RegistryEntry) :
    (d.sendSubscribe session key subId entry).2.forceRebindOutstanding =
      d.forceRebindOutstanding := by
  unfold sendSubscribe
  split
  · rfl
  · rename_i h
    obtain ⟨-, -, rfl⟩ := takeRequestId_eq_some h
    dsimp only
    split <;> simp

@[simp] theorem issueSubscription_forceRebindOutstanding (key : SubscriptionKey) :
    (d.issueSubscription key).2.forceRebindOutstanding = d.forceRebindOutstanding := by
  unfold issueSubscription
  split
  · rfl
  · split
    · rfl
    · dsimp only
      split <;> simp

@[simp] theorem issueAll_forceRebindOutstanding (keys : List SubscriptionKey) :
    (d.issueAll keys).2.forceRebindOutstanding = d.forceRebindOutstanding := by
  induction keys generalizing d with
  | nil => rfl
  | cons key keys ih => simp [issueAll, ih]

@[simp] theorem issueUnboundSubscriptions_forceRebindOutstanding :
    d.issueUnboundSubscriptions.forceRebindOutstanding = d.forceRebindOutstanding := by
  unfold issueUnboundSubscriptions
  dsimp only
  split <;> simp

/-- Only a command to force a rebind touches the flag. -/
theorem onCommand_forceRebindOutstanding {c : SessionCommand}
    (hc : c.kind ≠ some .forceRebind) :
    (d.onCommand c).2.forceRebindOutstanding = d.forceRebindOutstanding := by
  cases c with
  | subscribe key spec =>
    simp only [onCommand, subscribe]
    split <;> simp
  | unsubscribe key =>
    simp only [onCommand, unsubscribe]
    split
    · rfl
    · split
      · rfl
      · split
        · rfl
        · split
          · rfl
          · rename_i h
            obtain ⟨-, -, rfl⟩ := takeRequestId_eq_some h
            simp
  | reconfigure key f =>
    simp only [onCommand, reconfigure]
    split
    · split
      · rfl
      · rename_i h
        obtain ⟨-, -, rfl⟩ := takeRequestId_eq_some h
        simp
    · rfl
  | sendMessage m =>
    simp only [onCommand, sendMessage]
    split
    · split
      · rfl
      · rename_i h
        obtain ⟨-, -, rfl⟩ := takeRequestId_eq_some h
        split <;> simp
    · rfl
  | forceRebind => exact absurd rfl hc
  | destroy cause =>
    simp only [onCommand, destroy]
    split
    · rfl
    · split
      · rfl
      · rename_i h
        obtain ⟨-, -, rfl⟩ := takeRequestId_eq_some h
        simp
  | shutdown => rfl

@[simp] theorem onRequestOk_forceRebindOutstanding (id : Option String) :
    (d.onRequestOk id).forceRebindOutstanding = d.forceRebindOutstanding := by
  cases id with
  | none => rfl
  | some id =>
    have haccept : ∀ (e : SessionDriver) (kind : Option PendingKind),
        (e.acceptRequest kind).forceRebindOutstanding = e.forceRebindOutstanding :=
      fun e kind => by
        unfold acceptRequest
        split <;> rfl
    simp [onRequestOk, haccept]

/-- A refusal of a pending `force_rebind` clears the flag. -/
theorem onRequestError_forceRebindOutstanding (id : String) (cause : ServerCause) :
    (d.onRequestError id cause).forceRebindOutstanding =
      if d.pending.get? id = some ⟨.forceRebind, d.generation⟩ then false
      else d.forceRebindOutstanding := by
  have hundo : ∀ (e : SessionDriver) (kind : Option PendingKind),
      (e.undoRequest cause kind).forceRebindOutstanding =
        if kind = some .forceRebind then false else e.forceRebindOutstanding := fun e kind => by
    unfold undoRequest
    split <;> simp
  simp only [onRequestError, respond_toDesk, hundo, takePending_eq_some,
    takePending_forceRebindOutstanding]

theorem retireOne_forceRebindOutstanding (id : String) (kind : PendingKind) :
    (d.retireOne id kind).forceRebindOutstanding =
      if kind = .forceRebind then false else d.forceRebindOutstanding := by
  cases kind <;> rfl

theorem retireAll_forceRebindOutstanding (l : List (String × Pending)) :
    (d.retireAll l).forceRebindOutstanding =
      if ∃ p ∈ l, p.2.kind = .forceRebind then false else d.forceRebindOutstanding := by
  induction l generalizing d with
  | nil => simp [retireAll]
  | cons p l ih =>
    rw [retireAll, ih, retireOne_forceRebindOutstanding]
    by_cases hl : ∃ q ∈ l, q.2.kind = .forceRebind
    · rw [if_pos hl, if_pos (hl.imp fun q hq => ⟨List.mem_cons_of_mem p hq.1, hq.2⟩)]
    · rw [if_neg hl]
      refine if_congr ⟨fun hp => ⟨p, List.mem_cons_self, hp⟩, ?_⟩ rfl rfl
      rintro ⟨q, hq, hkind⟩
      rcases List.mem_cons.mp hq with rfl | hq
      · exact hkind
      · exact absurd ⟨q, hq, hkind⟩ hl

/-- A request of the session before that is retired clears the flag if it is a `force_rebind`. -/
theorem freshSession_forceRebindOutstanding :
    d.freshSession.forceRebindOutstanding =
      if ∃ p ∈ d.pending.toList, p.2.generation ≠ saturatingAdd u64Max d.generation 1 ∧
        p.2.kind = .forceRebind then false else d.forceRebindOutstanding := by
  rw [freshSession, retireStalePending, retireAll_forceRebindOutstanding]
  refine if_congr (exists_congr fun p => ?_) rfl rfl
  rw [(arrange_perm _ _).mem_iff, OrdMap.filter, List.mem_filter, decide_eq_true_iff, and_assoc]

theorem enterSession_forceRebindOutstanding (sid : SessionId) (keepAlive : ℕ)
    (link : Option String) (kind : BindKind) :
    (d.enterSession sid keepAlive link kind).forceRebindOutstanding =
      if kind.isFresh ∧ ∃ p ∈ d.pending.toList,
        p.2.generation ≠ saturatingAdd u64Max d.generation 1 ∧ p.2.kind = .forceRebind then false
      else d.forceRebindOutstanding := by
  unfold enterSession
  dsimp only
  split
  · next hfresh =>
    rw [freshSession_forceRebindOutstanding]
    exact if_congr (by simp [hfresh]) rfl rfl
  · next hfresh =>
    rw [if_neg fun h => hfresh h.1]
    rfl

@[simp] theorem onData_forceRebindOutstanding (n : Notification) :
    (d.onData n).forceRebindOutstanding = d.forceRebindOutstanding := by
  have hinterpret : ∀ (e : SessionDriver) (k : ℕ),
      (e.interpretForSubscription k n).2.forceRebindOutstanding = e.forceRebindOutstanding :=
    fun e k => by
      unfold interpretForSubscription
      split
      · rfl
      · split <;> rfl
  have hnotify : ∀ e : SessionDriver,
      (e.notifySubscription n).forceRebindOutstanding = e.forceRebindOutstanding := fun e => by
    unfold notifySubscription
    dsimp only
    split <;> simp [hinterpret]
  have hdeliver : ∀ e : SessionDriver,
      (e.deliver n).forceRebindOutstanding = e.forceRebindOutstanding := fun e => by
    unfold deliver
    dsimp only
    split
    · rfl
    · rfl
    · exact hnotify _
  unfold onData
  dsimp only
  split
  · rfl
  · exact hdeliver _

@[simp] theorem onTimer_forceRebindOutstanding :
    d.onTimer.2.forceRebindOutstanding = d.forceRebindOutstanding := by
  have hbeat : ∀ e : SessionDriver,
      e.sendHeartbeat.2.forceRebindOutstanding = e.forceRebindOutstanding := fun e => by
    have hattempt := congrArg Desk.forceRebindOutstanding e.attemptHeartbeat_toDesk
    rw [sendHeartbeat, settleHeartbeat_toDesk]
    exact hattempt
  obtain ⟨f, flow, h, -⟩ | ⟨f, h, -⟩ := d.onTimer_cases
  · rw [h]
    rfl
  · rw [h, hbeat]
    rfl

end flag

/-! ## The commands -/

/-- Requests of other kinds leave alone what stands. -/
theorem Issues.passive {K : PendingKind → Prop} (hK : ∀ kind, K kind → kind ≠ .forceRebind)
    (h : Issues K d d') : Extends Action.Passive d.trace d'.trace := by
  induction h with
  | plain _ _ _ htrace =>
    refine htrace.mono fun a ha standing => ?_
    cases a with
    | event e b =>
      cases e with
      | bound | unbound => cases ha
      | _ => rfl
    | _ => cases ha
  | trans _ _ ih ih' => exact ih.trans ih'
  | @dispatch d d' d₁ id request kind htake _ _ _ htrace hid hkind =>
    exact htrace ▸ d₁.dispatch_extends (fun _ => Action.IsReport.passive) id
      (Action.passive_control fun h => hK kind hkind (Option.some.inj h))

theorem encode_forceRebind (session : SessionId) (id : RequestId) (polling : Option ℕ)
    (closeSocket : Option Bool) (transport : TransportKind) :
    ∃ parameters, (ControlRequest.forceRebind
      ⟨some session, id, polling, closeSocket⟩).encodeParameters transport = .ok parameters :=
  ⟨_, rfl⟩

/-- A rebind that is acted on is taken by the transport, unless another one is outstanding. -/
def RebindLeaves (d : SessionDriver) : Prop :=
  d.streamState = .bound ∧ d.session.isSome ∧ d.nextRequestId < u64Max →
    d.forceRebindOutstanding ∨ d.turn.sends.headD none = none

instance (d : SessionDriver) : Decidable d.RebindLeaves :=
  inferInstanceAs (Decidable (_ ∧ _ ∧ _ → _ ∨ _))

theorem forceRebind_blames (h : d.Blames standing) (hleaves : d.RebindLeaves)
    (closeSocket : Option Bool) :
    ∃ standing', d.Moves standing (d.forceRebind closeSocket) standing' ∧
      (d.forceRebind closeSocket).Blames standing' := by
  unfold forceRebind
  split
  · next session hstate hsession =>
    split
    · exact ⟨standing, .of_passive (d.reportIdExhaustion_extends
        (fun _ => Action.IsReport.passive) _) _, h.of_eq rfl rfl⟩
    · next id d' htake =>
      obtain ⟨hid, -, rfl⟩ := takeRequestId_eq_some htake
      have hleaves := hleaves ⟨hstate, by rw [hsession]; rfl, hid⟩
      let e : SessionDriver :=
        { d with nextRequestId := d.nextRequestId + 1, forceRebindOutstanding := true }
      let request := ControlRequest.forceRebind ⟨some session, id, none, closeSocket⟩
      have hflag : (e.dispatch request id .forceRebind).2.forceRebindOutstanding = true :=
        e.dispatch_forceRebindOutstanding request id .forceRebind
      have hbound : (e.dispatch request id .forceRebind).2.streamState = .bound := by
        rw [dispatch_toLifecycle]
        exact hstate
      have hblames : ∀ standing', standing' ≠ [] →
          (e.dispatch request id .forceRebind).2.Blames standing' := fun standing' hne =>
        ⟨fun _ => iff_of_true hflag hne, fun hest => by rw [hbound] at hest; cases hest⟩
      -- only a request that another one covers may fail to leave
      have hstays : (e.dispatch request id .forceRebind).1 = false → standing ≠ [] := fun hf => by
        rcases hleaves with hold | hsend
        · exact (h.bound hstate).mp hold
        · obtain ⟨ps, hps⟩ := encode_forceRebind session id none closeSocket e.controlKind
          have htrue := (dispatch_leaves (d := e) hps hsend id .forceRebind).1
          exact absurd (htrue.symm.trans hf) (by simp)
      change ∃ standing', e.Moves standing (e.dispatch request id .forceRebind).2 standing' ∧ _
      obtain ⟨error, e', hd, he⟩ | ⟨ps, e', hd, -, -, -, -, -, ht⟩ |
          ⟨ps, error, b, e', hd, -, -, -, -, -, ht⟩ := e.dispatch_cases request id .forceRebind
      · refine ⟨standing, ?_, hblames _ (hstays (by rw [hd]))⟩
        rw [hd, he]
        exact .of_passive (e.extends_emit fun _ _ => rfl) _
      · refine ⟨standing ++ [id.text], ?_, hblames _ (by simp)⟩
        rw [hd]
        exact .one ht standing
      · refine ⟨standing, ?_, hblames _ (hstays (by rw [hd]))⟩
        rw [hd]
        exact .of_passive ⟨_, ht, by
          rintro a (_ | ⟨_, _ | ⟨_, ⟨⟩⟩⟩) standing <;> rfl⟩ _
  · exact ⟨standing, .of_passive (.refl _ _) _, h⟩

/-- **The commands keep the flag honest**, if a rebind leaves. -/
theorem onCommand_blames (h : d.Blames standing) (c : SessionCommand)
    (hleaves : c.kind = some .forceRebind → d.RebindLeaves) :
    ∃ standing', d.Moves standing (d.onCommand c).2 standing' ∧
      (d.onCommand c).2.Blames standing' := by
  by_cases hc : c.kind = some .forceRebind
  · cases c with
    | forceRebind closeSocket => exact forceRebind_blames h (hleaves rfl) closeSocket
    | _ => cases hc
  · have hissues : Issues (fun kind => c.kind = some kind) d (d.onCommand c).2 :=
      onCommand_issues d c fun _ hk => hk
    have hpassive := hissues.passive fun kind hk hforce => hc (hforce ▸ hk)
    exact ⟨standing, .of_passive hpassive _,
      h.of_eq (d.onCommand_steady c).streamState (d.onCommand_forceRebindOutstanding hc)⟩

/-! ## The lines -/

/-- What stands once a line was heard: a refusal names what no longer does. -/
def struck (standing : List String) : Notification → List String
  | .requestError id _ _ => standing.filter (· ≠ id)
  | _ => standing

/-- The flag does not outlive what it stands for: a new stream connection, or another session, is
bound with the flag unset, unless it is unset by what the session before never answered; a `LOOP`
does not come before the bind; and a refusal is of the one request that stands. -/
def Clears (d : SessionDriver) (standing : List String) : Notification → Prop
  | .connectionOk sid .. =>
    d.streamState = .establishing ∨ (d.conokKind sid).isFresh → d.forceRebindOutstanding →
      (d.conokKind sid).isFresh ∧ ∃ p ∈ d.pending.toList,
        p.2.generation ≠ saturatingAdd u64Max d.generation 1 ∧ p.2.kind = .forceRebind
  | .loop _ => d.streamState = .establishing → d.forceRebindOutstanding = false
  | .requestError id _ _ => d.streamState = .bound →
    (d.pending.get? id = some ⟨.forceRebind, d.generation⟩ → ∀ other ∈ standing, other = id) ∧
      (id ∈ standing → d.pending.get? id = some ⟨.forceRebind, d.generation⟩)
  | _ => True

instance (d : SessionDriver) (standing : List String) : DecidablePred (d.Clears standing)
  | .connectionOk .. => inferInstanceAs (Decidable (_ ∨ _ → _ → _ ∧ _))
  | .loop _ => inferInstanceAs (Decidable (_ → _))
  | .requestError .. => inferInstanceAs (Decidable (_ → (_ → _) ∧ (_ → _)))
  | .connectionError .. | .end .. | .progressive _ | .requestOk _ | .probe | .noOp _ | .wsOk
  | .error .. | .sync _ | .clientIp _ | .serverName _ | .constraintsChanged _ | .update ..
  | .subscriptionOk .. | .subscriptionCommandOk .. | .unsubscribed _ | .endOfSnapshot ..
  | .clearSnapshot .. | .overflow .. | .subscriptionReconfigured .. | .messageDone ..
  | .messageFailed .. => inferInstanceAs (Decidable True)

theorem onConok_blames (h : d.Blames standing) {sid : SessionId} (limit keepAlive : ℕ)
    (link : Option String) (hn : d.streamState = .establishing ∨ (d.conokKind sid).isFresh →
      d.forceRebindOutstanding → (d.conokKind sid).isFresh ∧ ∃ p ∈ d.pending.toList,
        p.2.generation ≠ saturatingAdd u64Max d.generation 1 ∧ p.2.kind = .forceRebind) :
    ∃ standing', d.Moves standing (d.onConok sid limit keepAlive link) standing' ∧
      (d.onConok sid limit keepAlive link).Blames standing' := by
  have henter : Extends Action.Passive d.trace
      (d.enterSession sid keepAlive link (d.conokKind sid)).trace :=
    d.enterSession_extends sid keepAlive link _ (fun _ => Action.IsReport.passive)
      fun _ _ _ _ _ _ => rfl
  have hissues : Extends Action.Passive (d.announced sid limit keepAlive link).trace
      (d.onConok sid limit keepAlive link).trace :=
    (issueUnboundSubscriptions_issues (K := fun kind => kind ≠ .forceRebind) _
      fun _ _ => PendingKind.noConfusion).passive fun _ hk => hk
  have hflag : (d.onConok sid limit keepAlive link).forceRebindOutstanding =
      (d.enterSession sid keepAlive link (d.conokKind sid)).forceRebindOutstanding := by
    rw [onConok_eq, issueUnboundSubscriptions_forceRebindOutstanding]
    rfl
  have hstate : (d.onConok sid limit keepAlive link).streamState = .bound := by
    rw [onConok_toLifecycle, enterSession_toLifecycle]
  refine ⟨_, ((Moves.of_passive henter standing).trans (.one rfl _)).trans (.of_passive hissues _),
    fun _ => ?_, fun hest => ?_⟩
  · rw [hflag, enterSession_forceRebindOutstanding]
    dsimp only [Action.follow]
    cases hfresh : (d.conokKind sid).isFresh with
    | true =>
      rw [if_pos rfl]
      refine iff_of_false ?_ (not_not.mpr rfl)
      split_ifs with hstale
      · exact not_false
      · exact fun hset => hstale ⟨rfl, (hn (.inr hfresh) hset).2⟩
    | false =>
      rw [if_neg fun hstale => Bool.false_ne_true hstale.1, if_neg Bool.false_ne_true]
      cases hbound : d.streamState with
      | bound => exact h.bound hbound
      | establishing =>
        refine iff_of_false (fun hset => ?_) (not_not.mpr (h.establishing hbound))
        exact Bool.false_ne_true (hfresh.symm.trans (hn (.inl hbound) hset).1)
  · rw [hstate] at hest
    cases hest

theorem onRequestError_blames (h : d.Blames standing) {id : String} (cause : ServerCause)
    (hn : d.streamState = .bound →
      (d.pending.get? id = some ⟨.forceRebind, d.generation⟩ → ∀ other ∈ standing, other = id) ∧
        (id ∈ standing → d.pending.get? id = some ⟨.forceRebind, d.generation⟩)) :
    (d.onRequestError id cause).Blames (standing.filter (· ≠ id)) := by
  have hstate : (d.onRequestError id cause).streamState = d.streamState := by
    rw [onRequestError_toLifecycle]
  refine ⟨fun hbound => ?_, fun hest => ?_⟩
  · obtain ⟨halone, hstands⟩ := hn (hstate ▸ hbound)
    rw [onRequestError_forceRebindOutstanding]
    split_ifs with hpending
    · have hnone : standing.filter (· ≠ id) = [] :=
        List.filter_eq_nil_iff.mpr fun other hother => by simp [halone hpending other hother]
      exact iff_of_false not_false (not_not.mpr hnone)
    · have hall : standing.filter (· ≠ id) = standing :=
        List.filter_eq_self.mpr fun other hother => decide_eq_true fun hid =>
          hpending (hstands (hid ▸ hother))
      rw [hall]
      exact h.bound (hstate ▸ hbound)
  · rw [h.establishing (hstate ▸ hest)]
    rfl

/-- A line that neither binds nor refuses leaves alone what stands, and the flag unless it ends the
stream connection. -/
theorem onNotification_passive {n : Notification} (hbind : isBind n = false)
    (hrefusal : ∀ id code message, n ≠ .requestError id code message) :
    Extends Action.Passive d.trace (d.onNotification n).2.trace ∧
      ((d.onNotification n).1 = .continue →
        (d.onNotification n).2.forceRebindOutstanding = d.forceRebindOutstanding) := by
  have hreport : ∀ a : Action, a.IsReport → a.Passive := fun _ => Action.IsReport.passive
  induction n using onNotification_cases d with
  | conok sid limit millis link hd => cases hbind
  | conerr code message hd => exact hd ▸ ⟨by simp, fun _ => by simp⟩
  | ended code message hd => exact hd ▸ ⟨by simp, fun _ => by simp⟩
  | loop millis hd => exact hd ▸ ⟨by simp, nofun⟩
  | prog k hd => exact hd ▸ ⟨d.onProg_extends hreport k, fun _ => by simp⟩
  | reqok id hd => exact hd ▸ ⟨d.onRequestOk_extends hreport id, fun _ => by simp⟩
  | reqerr id code message hd => exact absurd rfl (hrefusal id code message)
  | quiet n _ hd => exact hd ▸ ⟨.refl _ _, fun _ => rfl⟩
  | report n e _ hd he => exact hd ▸ ⟨d.extends_report hreport he, fun _ => rfl⟩
  | data n _ hd =>
    have ht := d.onData_extends (P := Action.Passive) n (fun _ _ => rfl) (fun _ _ _ _ _ _ => rfl)
      fun _ _ _ _ _ => rfl
    exact hd ▸ ⟨ht, fun _ => by simp⟩

/-- **The lines keep the flag honest**, when the turn is attributable. -/
theorem onNotification_blames (h : d.Blames standing) {n : Notification}
    (hn : d.Clears standing n) :
    ∃ standing', d.Moves (struck standing n) (d.onNotification n).2 standing' ∧
      ((d.onNotification n).1 = .continue → (d.onNotification n).2.Blames standing') := by
  have hother : isBind n = false → (∀ id code message, n ≠ .requestError id code message) →
      struck standing n = standing → ∃ standing', d.Moves (struck standing n)
        (d.onNotification n).2 standing' ∧
        ((d.onNotification n).1 = .continue → (d.onNotification n).2.Blames standing') :=
    fun hbind hrefusal hstruck => by
      obtain ⟨hpassive, hflag⟩ := onNotification_passive (d := d) hbind hrefusal
      refine ⟨standing, by rw [hstruck]; exact .of_passive hpassive standing, fun hflow => ?_⟩
      exact h.of_eq (onNotification_steady hbind).streamState (hflag hflow)
  cases n with
  | connectionOk sid limit millis link =>
    obtain ⟨standing', hmoves, hblames⟩ := onConok_blames h limit (ofMillis millis) link hn
    exact ⟨standing', hmoves, fun _ => hblames⟩
  | requestError id code message =>
    have hpassive := d.onRequestError_extends (P := Action.Passive)
      (fun _ => Action.IsReport.passive) id ⟨code, message⟩ fun _ _ _ _ _ => rfl
    exact ⟨_, .of_passive hpassive _, fun _ => onRequestError_blames h _ hn⟩
  | _ => exact hother rfl (fun _ _ _ => Notification.noConfusion) rfl

theorem onLine_blames (h : d.Blames standing) {text : String}
    (hn : ∀ n, parseLine text = .ok n → d.Clears standing n) :
    ∃ standing', d.Moves (((parseLine text).toOption.map (struck standing)).getD standing)
      (d.onLine text).2 standing' ∧
      ((d.onLine text).1 = .continue → (d.onLine text).2.Blames standing') := by
  have hheard : d.heard.Blames standing := h.of_eq rfl rfl
  cases hp : parseLine text with
  | ok n =>
    have hn' : d.heard.Clears standing n := by
      cases n <;> exact hn _ hp
    exact onLine_of_ok d hp ▸ onNotification_blames hheard hn'
  | error e =>
    refine onLine_of_error d hp ▸ ⟨standing, .of_passive ?_ standing, fun _ => h.of_eq rfl rfl⟩
    exact d.heard.extends_report (fun _ => Action.IsReport.passive) trivial

theorem onTimer_blames (h : d.Blames standing) :
    d.Moves standing d.onTimer.2 standing ∧ d.onTimer.2.Blames standing := by
  obtain ⟨failures, hl⟩ := d.onTimer_toLifecycle
  exact ⟨.of_passive (d.onTimer_extends fun _ _ _ => Action.passive_control (by simp) _ _) _,
    h.of_eq (by rw [hl]) (by simp)⟩

end SessionDriver

/-- The input forces a rebind. -/
def Input.forcesRebind (i : Input) : Bool :=
  match i.wake with
  | .command c => c.kind = some .forceRebind
  | _ => false

/-- What stands once the input was taken in. -/
def Input.struck (i : Input) (standing : List String) : List String :=
  (i.notification.map (SessionDriver.struck standing)).getD standing

namespace Drive

open SessionDriver

variable {s s' : Drive} {i : Input} {standing standing' : List String}

/-- The `force_rebind` requests that stand after a turn: sent on the stream connection, in the
session it is bound to, and not refused. -/
def follow (s : Drive) (i : Input) (standing : List String) : List String :=
  match step s i with
  | some s' => (s'.driver.trace.drop s.driver.trace.length).foldl Action.follow (i.struck standing)
  | none => standing

theorem follow_of_leads (hstep : step s i = some s')
    (h : s.driver.Moves (i.struck standing) s'.driver standing') :
    s.follow i standing = standing' := by
  obtain ⟨added, ht, rfl⟩ := h
  simp [follow, hstep, ht]

/-- The turn accounts for the flag. -/
def Attributable (p : Drive × List String) (i : Input) : Prop :=
  (i.forcesRebind = true → (p.1.driver.withTurn i.turn).RebindLeaves) ∧
    ∀ n ∈ i.notification, p.1.driver.Clears p.2 n

instance (p : Drive × List String) (i : Input) : Decidable (Attributable p i) :=
  inferInstanceAs (Decidable (_ ∧ _))

/-- The loop leaves alone what stands until it reports that the stream connection is gone. -/
theorem unbind_blames (d : SessionDriver) (reason : UnbindReason) (standing : List String) :
    (∃ closed, (unbind d reason).phase = .closed closed) ∨
      ∃ standing', d.Moves standing (unbind d reason).driver standing' ∧
        (unbind d reason).driver.Blames standing' := by
  obtain ⟨next, d', hp, hu | hu⟩ | ⟨d', hp, hu⟩ := unbind_cases d reason
  · exact .inl ⟨_, by rw [hu, finish_phase]⟩
  · right
    have ht : Extends Action.Passive d.trace d'.trace := by
      have hplan := planAfter_toSurroundings (unbound d reason) reason
      rw [hp] at hplan
      rw [show d'.trace = (unbound d reason).trace from congrArg Surroundings.trace hplan]
      exact unbound_extends d (fun _ => rfl) reason
    have hreport : d.Moves standing (d'.emit (.unbound reason (some next.delay))) [] :=
      (Moves.of_passive ht standing).trans ⟨_, rfl, rfl⟩
    have hstate : d'.streamState = .establishing := by
      obtain ⟨backoff, streak, hl⟩ := planAfter_toLifecycle (unbound d reason) reason
      rw [hp, unbound_toLifecycle] at hl
      exact congrArg Lifecycle.streamState hl
    refine ⟨[], hu ▸ hreport.trans (.of_passive ?_ _), hu ▸ ⟨fun hbound => ?_, fun _ => rfl⟩⟩
    · unfold reopen
      split_ifs
      · exact .one (fun _ => rfl) _
      · exact .refl _ _
    · unfold reopen at hbound
      split_ifs at hbound
      · cases hbound
      · rw [show (d'.emit _).streamState = d'.streamState from rfl, hstate] at hbound
        cases hbound
  · exact .inl ⟨_, by rw [hu, finish_phase]⟩

theorem afterPump_blames {d : SessionDriver} {r : Flow × SessionDriver}
    (h : ∃ standing', d.Moves standing r.2 standing' ∧
      (r.1 = .continue → r.2.Blames standing')) :
    (∃ closed, (afterPump r).phase = .closed closed) ∨
      ∃ standing', d.Moves standing (afterPump r).driver standing' ∧
        (afterPump r).driver.Blames standing' := by
  obtain ⟨standing', hmoves, hblames⟩ := h
  obtain hp | ⟨hflow, -, hp⟩ | ⟨reason, -, -, hp⟩ | ⟨closed, -, hp⟩ := afterPump_cases r
  · exact .inl ⟨_, by rw [hp, finish_phase]⟩
  · exact .inr (hp ▸ ⟨standing', hmoves, hblames hflow⟩)
  · obtain hclosed | ⟨standing'', hmoves', hblames'⟩ := unbind_blames r.2 reason standing'
    · exact .inl (hp ▸ hclosed)
    · exact .inr (hp ▸ ⟨standing'', hmoves.trans hmoves', hblames'⟩)
  · exact .inl ⟨_, by rw [hp, finish_phase]⟩

/-- **A turn keeps the flag honest**, when the turn is attributable. -/
theorem step_blames (hsettled : s.Settled) (h : s.driver.Blames standing)
    (hi : Attributable (s, standing) i) (hstep : step s i = some s') :
    (∃ closed, s'.phase = .closed closed) ∨
      ∃ standing', s.driver.Moves (i.struck standing) s'.driver standing' ∧
        s'.driver.Blames standing' := by
  let d := s.driver.withTurn i.turn
  have hd : d.Blames standing := h.of_eq rfl rfl
  have hstruck : (∀ text, i.wake ≠ .line text) → i.struck standing = standing := fun hne => by
    unfold Input.struck Input.notification
    split
    · next text hw => exact absurd hw (hne text)
    · rfl
  have hcommand : ∀ c, i.wake = .command c → ∃ standing',
      d.Moves standing (d.onCommand c).2 standing' ∧ (d.onCommand c).2.Blames standing' :=
    fun c hw => onCommand_blames hd c fun hc => hi.1 (by simp [Input.forcesRebind, hw, hc])
  change (∃ closed, s'.phase = .closed closed) ∨
    ∃ standing', d.Moves (i.struck standing) s'.driver standing' ∧ s'.driver.Blames standing'
  cases step_turns hstep with
  | waitCommand next c _ hw =>
    rw [hstruck (by simp [hw])]
    obtain ⟨closed, -, hp⟩ | hp | ⟨-, -, hp⟩ := afterWait_cases next (d.onCommand c)
    · exact .inl ⟨_, by rw [hp, finish_phase]⟩
    · exact .inl ⟨_, by rw [hp, finish_phase]⟩
    · exact .inr (hp ▸ hcommand c hw)
  | waitOver next hphase hw =>
    rw [hstruck (by simp [hw])]
    have hstate : s.driver.streamState = .establishing := by simpa [Settled, hphase] using hsettled
    have hopening : (openNext d next).driver.streamState = .establishing := rfl
    exact .inr ⟨standing, .of_passive (.one (fun _ => rfl) _) _,
      fun hbound => absurd (hopening.symm.trans hbound) (by simp), fun _ => h.establishing hstate⟩
  | waitStop | openStop => exact .inl ⟨stopped, finish_phase _ _⟩
  | opened _ hw =>
    rw [hstruck (by simp [hw])]
    exact .inr ⟨standing, .of_passive (.refl _ _) _, hd.of_eq rfl rfl⟩
  | openFailed detail _ hw =>
    rw [hstruck fun text hline => by
      rcases hw with hw | ⟨hw, -⟩ <;> rw [hw] at hline <;> cases hline]
    exact unbind_blames d _ standing
  | line text _ hw =>
    refine afterPump_blames ?_
    have hnotification : i.notification = (parseLine text).toOption := by
      rw [Input.notification, hw]
    rw [Input.struck, hnotification]
    refine onLine_blames hd fun n hn => ?_
    have hclears := hi.2 n (by rw [hnotification, hn]; rfl)
    cases n <;> exact hclears
  | command c _ hw =>
    rw [hstruck (by simp [hw])]
    obtain ⟨standing', hmoves, hblames⟩ := hcommand c hw
    exact afterPump_blames ⟨standing', hmoves, fun _ => hblames⟩
  | timer _ hw =>
    rw [hstruck (by simp [hw])]
    exact afterPump_blames ⟨standing, (onTimer_blames hd).1, fun _ => (onTimer_blames hd).2⟩
  | interrupted flow _ hw =>
    rw [hstruck fun text hline => by
      rcases hw with ⟨_, hw, -⟩ | ⟨hw, -⟩ | ⟨hw | hw, -⟩ <;> rw [hw] at hline <;> cases hline]
    exact afterPump_blames (r := (flow, d)) ⟨standing, .of_passive (.refl _ _) _, fun _ => hd⟩

/-- **The flag is honest along a run** whose turns account for it. -/
theorem exec_blames {inputs : List Input} {p p' : Drive × List String}
    (h : p.1.Settled ∧ ((∃ closed, p.1.phase = .closed closed) ∨ p.1.driver.Blames p.2))
    (hguard : Guarded (watch step follow) Attributable p inputs)
    (hrun : exec (watch step follow) p inputs = some p') :
    p'.1.Settled ∧ ((∃ closed, p'.1.phase = .closed closed) ∨ p'.1.driver.Blames p'.2) := by
  refine exec_invariant (I := fun p : Drive × List String => p.1.Settled ∧
    ((∃ closed, p.1.phase = .closed closed) ∨ p.1.driver.Blames p.2)) ?_ h hguard hrun
  rintro ⟨s, standing⟩ i p' ⟨hsettled, hs⟩ hi hwatch
  obtain ⟨s', hstep, rfl⟩ := Option.map_eq_some_iff.mp hwatch
  refine ⟨step_settled hsettled hstep, ?_⟩
  obtain ⟨closed, hclosed⟩ | hblames := hs
  · rw [step, hclosed] at hstep
    cases hstep
  · obtain hclosed | ⟨standing', hmoves, hblames'⟩ := step_blames hsettled hblames hi hstep
    · exact .inl hclosed
    · exact .inr (follow_of_leads hstep hmoves ▸ hblames')

/-- A report that the stream connection is gone names the reason it went for. -/
def Names (reason : UnbindReason) (a : Action) : Prop :=
  ∀ reported retry b, a = .event (.unbound reported retry) b → reported = reason

theorem names_of_not_unbound {reason : UnbindReason} {a : Action}
    (h : ∀ reported retry b, a ≠ .event (.unbound reported retry) b) : Names reason a :=
  fun reported retry b ha => absurd ha (h reported retry b)

theorem finish_names (d : SessionDriver) (closed : SessionClosed) (reason : UnbindReason) :
    Extends (Names reason) d.trace (finish d closed).driver.trace := by
  obtain ⟨b, ht⟩ := finish_trace d closed
  rw [ht, List.append_cons]
  exact (Extends.one (names_of_not_unbound (by simp)) _).concat (names_of_not_unbound (by simp))

theorem unbind_names (d : SessionDriver) (reason : UnbindReason) :
    Extends (Names reason) d.trace (unbind d reason).driver.trace := by
  have hclose : Names reason .close := names_of_not_unbound (by simp)
  have hreport : ∀ retry b, Names reason (.event (.unbound reason retry) b) :=
    fun _ _ _ _ _ h => by
      cases h
      rfl
  obtain ⟨next, d', hp, hu | hu⟩ | ⟨d', hp, hu⟩ := unbind_cases d reason
  · exact hu ▸ (planned_extends hp hclose _ (hreport _)).trans (finish_names _ _ reason)
  · have hreopen : Extends (Names reason) (d'.emit (.unbound reason (some next.delay))).trace
        (reopen (d'.emit (.unbound reason (some next.delay))) next).driver.trace := by
      unfold reopen
      split_ifs
      · exact .one (names_of_not_unbound (by simp)) _
      · exact .refl _ _
    exact hu ▸ (planned_extends hp hclose _ (hreport _)).trans hreopen
  · exact hu ▸ (planned_extends hp hclose _ (hreport _)).trans (finish_names _ _ reason)

/-- A `LOOP` is attributed by the flag and the transport. -/
theorem loopReason_congr {d e : SessionDriver}
    (hflag : d.forceRebindOutstanding = e.forceRebindOutstanding)
    (hproperties : d.properties = e.properties) (delay : ℕ) :
    (d.loopReason delay).1 = (e.loopReason delay).1 := by
  unfold loopReason
  rw [hflag, hproperties]
  split_ifs <;> rfl

/-- A `LOOP` is reported with the reason it was attributed to. -/
theorem step_loop_names {millis : ℕ} (hloop : i.notification = some (.loop millis))
    (hstep : step s i = some s') {reason : UnbindReason} {retry : Option ℕ} {b : Bool}
    (hreport : .event (.unbound reason retry) b ∈
      s'.driver.trace.drop s.driver.trace.length) :
    reason = (s.driver.loopReason (ofMillis millis)).1 := by
  let d := (s.driver.withTurn i.turn).heard
  let looped := d.loopReason (ofMillis millis)
  have hattributed : looped.1 = (s.driver.loopReason (ofMillis millis)).1 :=
    loopReason_congr (d := d) (e := s.driver) rfl rfl _
  have htrace : looped.2.trace = d.trace :=
    congrArg Surroundings.trace (d.loopReason_toSurroundings _)
  have hs' : s' = afterPump (.unbind looped.1, looped.2) := step_notification hloop hstep
  suffices Extends (Names looped.1) looped.2.trace s'.driver.trace by
    have hadded : Extends (Names looped.1) s.driver.trace s'.driver.trace := htrace ▸ this
    exact hattributed ▸ hadded.of_mem_drop hreport reason retry b rfl
  obtain hp | ⟨hflow, -⟩ | ⟨reason', hflow, -, hp⟩ | ⟨closed, hflow, -⟩ :=
    afterPump_cases (.unbind looped.1, looped.2)
  · rw [hs', hp]
    exact finish_names _ _ _
  · cases hflow
  · cases hflow
    rw [hs', hp]
    exact unbind_names _ _
  · cases hflow

theorem loopReason_isForced (d : SessionDriver) (delay : ℕ) :
    (∃ delay', (d.loopReason delay).1 = .forcedByClient delay') ↔
      d.forceRebindOutstanding = true := by
  unfold loopReason
  split_ifs with hflag <;> simp [hflag]

/-- **Who is blamed for a `LOOP`**: the client, exactly if a rebind that it forced on the stream
connection stands. -/
theorem loopReason_forced_iff {properties : TransportProperties} {options : SessionOptions}
    {seed : UInt64} {now millis : ℕ} {inputs : List Input}
    (hguard : Guarded (watch step follow) Attributable (start properties options seed now, [])
      (inputs ++ [i]))
    (hrun : exec (watch step follow) (start properties options seed now, []) inputs =
      some (s, standing))
    (hloop : i.notification = some (.loop millis)) (hstep : step s i = some s')
    {reason : UnbindReason} {retry : Option ℕ} {b : Bool}
    (hreport : .event (.unbound reason retry) b ∈
      s'.driver.trace.drop s.driver.trace.length) :
    (∃ delay, reason = .forcedByClient delay) ↔ standing ≠ [] := by
  obtain ⟨hinputs, hi⟩ := guarded_append_singleton hguard hrun
  have hstate : (start properties options seed now).driver.streamState = .establishing := rfl
  have hstart : (start properties options seed now).driver.Blames [] :=
    ⟨fun hbound => absurd (hstate.symm.trans hbound) (by simp), fun _ => rfl⟩
  have hsettled : (start properties options seed now).Settled := reopen_settled rfl _
  obtain ⟨-, hblames⟩ := exec_blames ⟨hsettled, .inr hstart⟩ hinputs hrun
  rcases hblames with ⟨closed, hclosed⟩ | hblames
  · rw [step, hclosed] at hstep
    cases hstep
  · rw [step_loop_names hloop hstep hreport, loopReason_isForced]
    cases hstate : s.driver.streamState with
    | bound => exact hblames.bound hstate
    | establishing =>
      have hflag : s.driver.forceRebindOutstanding = false := hi.2 _ hloop hstate
      rw [hflag]
      exact iff_of_false Bool.false_ne_true (not_not.mpr (hblames.establishing hstate))

/-- A session whose caller forces a rebind, with what the transport answers to the request. -/
def rebinding (error : Option String) : List Input :=
  [⟨.opened, {}⟩, ⟨.line "CONOK,S1,50000,5000,*", {}⟩,
    ⟨.command (.forceRebind none), { sends := [error] }⟩]

theorem loopReason_forced_iff_rebinding :
    ∃ s standing s', exec (watch step follow) (start ⟨true, false, false⟩ .default 1 0, [])
        (rebinding none) = some (s, standing) ∧
      step s ⟨.line "LOOP,0", {}⟩ = some s' ∧ standing = ["1"] ∧
      ((∃ delay, UnbindReason.forcedByClient 0 = .forcedByClient delay) ↔ standing ≠ []) := by
  obtain ⟨s, s', h, h', hreport⟩ : ∃ s s',
      exec (watch step follow) (start ⟨true, false, false⟩ .default 1 0, []) (rebinding none) =
        some (s, ["1"]) ∧
      step s ⟨.line "LOOP,0", {}⟩ = some s' ∧
      .event (.unbound (.forcedByClient 0) (some 0)) true ∈
        s'.driver.trace.drop s.driver.trace.length := ⟨_, _, rfl, rfl, by decide⟩
  have hloop : Input.notification ⟨.line "LOOP,0", {}⟩ = some (.loop 0) := rfl
  exact ⟨s, ["1"], s', h, h', rfl,
    loopReason_forced_iff (by decide +kernel) h hloop h' hreport⟩

/-- **A `LOOP` blamed on the client** that asked for nothing the server heard of: the request could
not be sent, and nothing stands. -/
theorem loop_misattributed :
    ∃ s s', exec (watch step follow) (start ⟨true, false, false⟩ .default 1 0, [])
        (rebinding (some "broken pipe")) = some (s, []) ∧
      step s ⟨.line "LOOP,0", {}⟩ = some s' ∧
      .event (.unbound (.forcedByClient 0) (some 0)) true ∈
        s'.driver.trace.drop s.driver.trace.length :=
  ⟨_, _, rfl, rfl, by decide⟩

end Drive

end Lightstreamer.Session
