import Lightstreamer.Session.Correlation

/-!
# The requests that await a response

Which requests await a response is read off the trace: a request does from when the transport takes
it until the caller is told its outcome (`unsettled`). The table of pending requests holds these and
no others, all of the current session (`Pends`), and every turn keeps it so.
-/

namespace Lightstreamer.Session

open Lightstreamer.Foundations Lightstreamer.Protocol Lightstreamer.Subscription

/-- A request by its id, with what it asks for. -/
abbrev Asked := String × PendingKind

/-- The requests that await a response after an action: one more when the transport took it, one
less when its outcome was reported. -/
def Action.account (asked : List Asked) : Action → List Asked
  | .control request (some kind) _ none =>
    asked ++ ((requestIdOf request).map fun id => (id.text, kind)).toList
  | .event (.controlResponse (some id) _ _) _ => asked.filter fun r => r.1 ≠ id.text
  | _ => asked

/-- The requests that were sent and of which no outcome was reported. -/
def unsettled (trace : List Action) : List Asked := trace.foldl Action.account []

section unsettled

variable {l l' : List Action} {a : Action} {id : String} {r : Asked}

theorem unsettled_concat (l : List Action) (a : Action) :
    unsettled (l ++ [a]) = a.account (unsettled l) := by
  rw [unsettled, List.foldl_append]
  rfl

theorem Action.Still.account (h : a.Still) (asked : List Asked) : a.account asked = asked := by
  obtain ⟨hdispatched, hsettled⟩ := h
  cases a with
  | control request kind parameters error =>
    have hid : requestIdOf request = none := Option.map_eq_none_iff.1 hdispatched
    cases kind <;> cases error <;> simp [Action.account, hid]
  | event e b =>
    cases e with
    | controlResponse id target outcome =>
      cases id with
      | none => rfl
      | some id => cases hsettled
    | _ => rfl
  | _ => rfl

theorem unsettled_of_still (h : Extends Action.Still l l') : unsettled l' = unsettled l := by
  obtain ⟨t, rfl, ht⟩ := h
  induction t generalizing l with
  | nil => rw [List.append_nil]
  | cons a t ih =>
    rw [List.append_cons, ih fun b hb => ht b (List.mem_cons_of_mem a hb), unsettled_concat,
      (ht a List.mem_cons_self).account]

/-- A report of an outcome settles its request, if it has one. -/
theorem mem_account_of_settled (h : a.settledId = some id) {asked : List Asked} :
    r ∈ a.account asked ↔ r ∈ asked ∧ r.1 ≠ id := by
  cases a with
  | event e b =>
    cases e with
    | controlResponse i target outcome =>
      cases i with
      | none => cases h
      | some i =>
        cases h
        simp [Action.account]
    | _ => cases h
  | _ => cases h

end unsettled

namespace SessionDriver

variable {d d' : SessionDriver} {id : String}

/-- The table of pending requests holds those that await a response, and each was issued in the
current session. -/
structure Pends (d : SessionDriver) : Prop where
  current : ∀ id p, d.pending.get? id = some p → p.generation = d.generation
  mem_iff : ∀ r, r ∈ unsettled d.trace ↔ d.pending.get? r.1 = some ⟨r.2, d.generation⟩

namespace Pends

/-- What neither dispatches a request nor settles one. -/
theorem of_still (h : d.Pends) (hgeneration : d'.generation = d.generation)
    (hpending : d'.pending = d.pending) (ht : Extends Action.Still d.trace d'.trace) :
    d'.Pends where
  current := fun id p hp => hgeneration ▸ h.current id p (hpending ▸ hp)
  mem_iff := fun r => by rw [unsettled_of_still ht, hpending, hgeneration, h.mem_iff]

/-- Reporting the outcome of a request that is not pending. -/
theorem of_settled (h : d.Pends) {k : String} (hnone : d.pending.get? k = none)
    (hgeneration : d'.generation = d.generation) (hpending : d'.pending = d.pending) {a : Action}
    (ha : a.settledId = some k) (ht : d'.trace = d.trace ++ [a]) : d'.Pends where
  current := fun id p hp => hgeneration ▸ h.current id p (hpending ▸ hp)
  mem_iff := fun r => by
    rw [ht, unsettled_concat, mem_account_of_settled ha, h.mem_iff, hpending, hgeneration,
      and_iff_left_iff_imp]
    rintro hr rfl
    rw [hnone] at hr
    cases hr

/-- A response: the request leaves the table, and its outcome is reported. -/
theorem of_response (h : d.Pends) (hlog : d.Logged) {k : String}
    (hgeneration : d'.generation = d.generation) (hpending : d'.pending = d.pending.erase k)
    {l : List Action} (hl : Extends Action.Still d.trace l) {target : ControlTarget}
    {outcome : ControlOutcome} {b : Bool} (ht : d'.trace =
      l ++ [.event (.controlResponse (RequestId.tryNew k).toOption target outcome) b]) :
    d'.Pends where
  current := fun id p hp => hgeneration ▸ h.current id p (OrdMap.get?_of_erase (hpending ▸ hp))
  mem_iff := fun r => by
    rw [ht, unsettled_concat, unsettled_of_still hl, hpending, OrdMap.get?_erase, hgeneration]
    cases htry : RequestId.tryNew k with
    | ok id =>
      obtain rfl := RequestId.text_of_tryNew htry
      have hid : (Action.event (.controlResponse (some id) target outcome) b).settledId =
          some id.text := rfl
      rw [Except.toOption, mem_account_of_settled hid, h.mem_iff]
      split_ifs with hr <;> simp [hr]
    | error e =>
      -- nothing is pending under what is no request id
      have hnone : d.pending.get? k = none := Option.eq_none_iff_forall_ne_some.2 fun p hp => by
        obtain ⟨id, -, hok⟩ := (hlog.drawn_of_pending hp).tryNew
        cases htry.symm.trans hok
      change r ∈ unsettled d.trace ↔ _
      rw [h.mem_iff]
      split_ifs with hr
      · rw [hr, hnone]
        exact iff_of_false (Option.some_ne_none _).symm not_false
      · rfl

/-- Handing a request to the transport, which takes it, under an id of its own. -/
theorem of_sent (h : d.Pends) {request : ControlRequest} {kind : PendingKind}
    {requestId : RequestId} (hrequest : requestIdOf request = some requestId)
    (hnone : d.pending.get? requestId.text = none) (hgeneration : d'.generation = d.generation)
    (hpending : d'.pending = d.pending.insert requestId.text ⟨kind, d.generation⟩)
    {parameters : String}
    (ht : d'.trace = d.trace ++ [.control request (some kind) parameters none]) : d'.Pends where
  current := fun id p hp => by
    rw [hpending, OrdMap.get?_insert] at hp
    rw [hgeneration]
    split_ifs at hp with hid
    · cases hp
      rfl
    · exact h.current id p hp
  mem_iff := fun r => by
    rw [ht, unsettled_concat, Action.account, hrequest, List.mem_append, h.mem_iff, hpending,
      OrdMap.get?_insert, hgeneration]
    obtain ⟨id, asked⟩ := r
    split_ifs with hid
    · obtain rfl : id = requestId.text := hid
      simp [hnone, eq_comm]
    · simp [hid]

/-- Issuing requests. -/
theorem of_issues {K : PendingKind → Prop} (h : d.Pends) (hlog : d.Logged) (hi : Issues K d d') :
    d'.Pends := by
  induction hi with
  | plain hgeneration hpending _ htrace =>
    exact h.of_still hgeneration hpending (htrace.mono fun _ => Action.Notice.still)
  | trans h₁ _ ih ih' => exact ih' (ih h hlog) (hlog.of_issues h₁)
  | @dispatch d d' d₁ id request kind htake hgeneration hpending hnext htrace hid _ =>
    have hnone : d.pending.get? id.text = none := by
      obtain ⟨-, rfl, -⟩ := takeRequestId_eq_some htake
      exact Option.eq_none_iff_forall_ne_some.2 fun p hp =>
        not_drawn_next d (hlog.drawn_of_pending hp)
    have hstart : d₁.Pends := h.of_still hgeneration hpending (htrace ▸ .refl _ _)
    have hnone : d₁.pending.get? id.text = none := hpending ▸ hnone
    obtain ⟨error, e, hd, rfl⟩ | ⟨ps, e, hd, hl, -, hp, -, -, ht⟩ |
        ⟨ps, error, b, e, hd, hl, -, hp, -, -, ht⟩ := d₁.dispatch_cases request id kind
    · rw [hd]
      exact hstart.of_settled hnone rfl rfl rfl rfl
    · rw [hd]
      exact hstart.of_sent hid hnone (congrArg Lifecycle.generation hl) hp ht
    · rw [hd]
      have hrefused : Pends { d₁ with
          trace := d₁.trace ++ [.control request (some kind) ps (some error)] } :=
        ⟨hstart.current, fun r => by rw [unsettled_concat]; exact hstart.mem_iff r⟩
      refine hrefused.of_settled hnone (congrArg Lifecycle.generation hl) ?_ rfl
        (ht.trans (List.append_cons ..))
      rw [hp, OrdMap.erase_insert _ hnone]

end Pends

/-! ## Retirement -/

theorem Drawn.settledId_retirement (h : d.Drawn id) (kind : PendingKind) (b : Bool) :
    (retirement id kind b).settledId = some id := by
  obtain ⟨requestId, rfl, htry⟩ := h.tryNew
  rw [retirement, htry]
  rfl

/-- The requests that are retired await no response any more. -/
theorem mem_unsettled_retireAll {l : List (String × Pending)} (hl : ∀ q ∈ l, d.Drawn q.1)
    {r : Asked} : r ∈ unsettled (d.retireAll l).trace ↔
      r ∈ unsettled d.trace ∧ r.1 ∉ l.map Prod.fst := by
  induction l generalizing d with
  | nil => simp [retireAll]
  | cons q l ih =>
    have hone : r ∈ unsettled (d.retireOne q.1 q.2.kind).trace ↔
        r ∈ unsettled d.trace ∧ r.1 ≠ q.1 := by
      rw [retireOne_trace, unsettled_concat,
        mem_account_of_settled ((hl q List.mem_cons_self).settledId_retirement _ _),
        unsettled_of_still (d.retiring_extends q.2.kind)]
    have hrest : ∀ p ∈ l, (d.retireOne q.1 q.2.kind).Drawn p.1 := fun p hp =>
      (hl p (List.mem_cons_of_mem _ hp)).mono (by simp)
    rw [retireAll, ih hrest, hone, List.map_cons, List.mem_cons, not_or, and_assoc]

/-- A new session retires the requests of the one before. -/
theorem retireStalePending_pends {g : ℕ} (hlog : d.Logged)
    (hcurrent : ∀ id p, d.pending.get? id = some p → p.generation = g)
    (hunsettled : ∀ r, r ∈ unsettled d.trace ↔ d.pending.get? r.1 = some ⟨r.2, g⟩) :
    d.retireStalePending.Pends := by
  have hpending : d.retireStalePending.pending =
      d.pending.filter fun _ p => p.generation = d.generation := d.retireStalePending_pending
  have hkept : ∀ id p, d.retireStalePending.pending.get? id = some p ↔
      d.pending.get? id = some p ∧ p.generation = d.generation := fun id p => by
    rw [hpending, OrdMap.get?_filter, Option.filter_eq_some_iff, decide_eq_true_iff]
  refine ⟨fun id p hp => ?_, fun r => ?_⟩
  · rw [retireStalePending_toLifecycle]
    exact ((hkept id p).1 hp).2
  · have hmem := mem_unsettled_retireAll (r := r) (d := { d with
        pending := d.pending.filter fun _ p => p.generation = d.generation })
      (l := arrange d.turn.drain (d.pending.filter fun _ p => p.generation ≠ d.generation).toList)
      fun q hq => hlog.drawn_of_pending (mem_arrange_stale d.turn.drain hq).1
    have hstale : r.1 ∈ (arrange d.turn.drain
        (d.pending.filter fun _ p => p.generation ≠ d.generation).toList).map Prod.fst ↔
        ∃ p, d.pending.get? r.1 = some p ∧ p.generation ≠ d.generation := by
      rw [List.mem_map]
      constructor
      · rintro ⟨q, hq, heq⟩
        exact ⟨q.2, heq ▸ mem_arrange_stale d.turn.drain hq⟩
      · rintro ⟨p, hp, hne⟩
        refine ⟨(r.1, p), ?_, rfl⟩
        rw [(arrange_perm d.turn.drain _).mem_iff, OrdMap.mem_toList_iff, OrdMap.get?_filter, hp]
        simp [hne]
    refine hmem.trans ?_
    rw [hkept, retireStalePending_toLifecycle, and_iff_left rfl, hstale]
    change r ∈ unsettled d.trace ∧ _ ↔ _
    rw [hunsettled]
    constructor
    · rintro ⟨hr, hfresh⟩
      have hg : g = d.generation := by
        by_contra hne
        exact hfresh ⟨_, hr, hne⟩
      exact hg ▸ hr
    · intro hr
      have hg : d.generation = g := hcurrent _ _ hr
      refine ⟨hg ▸ hr, ?_⟩
      rintro ⟨p, hp, hne⟩
      exact hne ((hcurrent _ p hp).trans hg.symm)

theorem announced_pends (h : d.Pends) (hlog : d.Logged) (sid : SessionId) (limit keepAlive : ℕ)
    (link : Option String) : (d.announced sid limit keepAlive link).Pends := by
  obtain ⟨e, he, hgeneration, -, hpending, hnext, -, ht⟩ :=
    d.enterSession_cases sid keepAlive link (d.conokKind sid)
  have hlink : Extends Action.Still d.trace e.trace := ht ▸ .one ⟨rfl, rfl⟩ _
  have hentered : e.Logged := hlog.of_sub hnext (fun _ _ hp => hpending ▸ hp)
    (hlink.mono fun _ => Action.Still.plain)
  have hbound : ∀ {d' : SessionDriver}, d'.Pends → (d'.emit (.bound
      ⟨sid, d.conokKind sid, keepAlive, limit, link⟩)).Pends := fun {d'} hd' =>
    hd'.of_still rfl rfl (d'.extends_emit fun _ => ⟨rfl, rfl⟩)
  rw [announced, he]
  split_ifs with hfresh
  · refine hbound (retireStalePending_pends hentered (g := d.generation) ?_ fun r => ?_)
    · exact fun id p hp => h.current id p (hpending ▸ hp)
    · rw [unsettled_of_still hlink, hpending, h.mem_iff]
  · rw [if_neg hfresh] at hgeneration
    exact hbound (h.of_still hgeneration hpending hlink)

/-! ## Lines -/

theorem onRequestOk_pends (h : d.Pends) (hlog : d.Logged) (id : String) :
    (d.onRequestOk (some id)).Pends := by
  have haccepted : Extends Action.Still d.trace
      ((d.takePending id).2.acceptRequest (d.takePending id).1).trace := by
    rw [acceptRequest_toSurroundings, takePending_toSurroundings]
  exact h.of_response hlog (by rw [onRequestOk_toLifecycle]) (by simp [onRequestOk]) haccepted rfl

theorem onRequestError_pends (h : d.Pends) (hlog : d.Logged) (id : String) (cause : ServerCause) :
    (d.onRequestError id cause).Pends := by
  have hundone := undoRequest_extends (P := Action.Still) (d.takePending id).2 cause
    (d.takePending id).1 fun _ _ _ _ => ⟨rfl, rfl⟩
  rw [takePending_toSurroundings] at hundone
  exact h.of_response hlog (by rw [onRequestError_toLifecycle]) (by simp [onRequestError])
    hundone rfl

theorem onNotification_pends (h : d.Pends) (hlog : d.Logged) (n : Notification) :
    (d.onNotification n).2.Pends := by
  cases n with
  | connectionOk sid limit millis link =>
    exact (announced_pends h hlog sid limit _ link).of_issues
      (announced_logged hlog sid limit _ link)
      (issueUnboundSubscriptions_issues (K := fun _ => True) _ fun _ _ => trivial)
  | requestOk id =>
    cases id with
    | none => exact h
    | some id => exact onRequestOk_pends h hlog id
  | requestError id code message => exact onRequestError_pends h hlog id _
  | connectionError | «end» | loop =>
    exact h.of_still (onNotification_steady rfl).generation (by simp [onNotification])
      (by simp [onNotification])
  | progressive n =>
    exact h.of_still (onNotification_steady rfl).generation (by simp [onNotification])
      (d.onProg_still n)
  | probe | noOp | wsOk => exact h
  | error | sync | clientIp | serverName | constraintsChanged =>
    exact h.of_still rfl rfl (d.extends_emit fun _ => ⟨rfl, rfl⟩)
  | _ =>
    exact h.of_still (onNotification_steady rfl).generation (by simp [onNotification])
      (d.onData_still _)

theorem onLine_pends (h : d.Pends) (hlog : d.Logged) (text : String) :
    (d.onLine text).2.Pends := by
  have hheard : d.heard.Pends := h.of_still rfl rfl (.refl _ _)
  have hlogged : d.heard.Logged := hlog.of_sub rfl (fun _ _ hq => hq) (.refl _ _)
  cases hp : parseLine text with
  | ok n => exact onLine_of_ok d hp ▸ onNotification_pends hheard hlogged n
  | error e =>
    rw [onLine_of_error d hp]
    exact hheard.of_still rfl rfl (d.heard.extends_emit fun _ => ⟨rfl, rfl⟩)

end SessionDriver

namespace Drive

open SessionDriver

variable {properties : TransportProperties} {options : SessionOptions} {s s' : Drive} {i : Input}

/-- **Every turn keeps the account.** -/
theorem step_pends (h : s.driver.Pends) (hlog : s.driver.Logged) (hstep : step s i = some s') :
    s'.driver.Pends := by
  have hturn : (s.driver.withTurn i.turn).Logged := hlog.of_sub rfl (fun _ _ hp => hp) (.refl _ _)
  refine (step_kept (R := fun d d' => d.Pends ∧ d.Logged → d'.Pends ∧ d'.Logged)
    (fun h h' hd => h' (h hd)) (fun hdesk hsession ht hd => ⟨?_, ?_⟩) rfl
    (fun c _ hd => ?_) (fun text _ hd => ⟨onLine_pends hd.1 hd.2 text, onLine_logged hd.2 text⟩)
    (fun hd => ⟨?_, ?_⟩) hstep ⟨h.of_still rfl rfl (.refl _ _), hturn⟩).1
  · exact hd.1.of_still hsession.generation hdesk.pending (ht.mono fun _ => Action.IsLoop.still)
  · exact hd.2.of_sub hdesk.nextRequestId (fun _ _ hp => hdesk.pending ▸ hp)
      (ht.mono fun _ ha => ha.still.plain)
  · have hissues := onCommand_issues (K := fun _ => True) (s.driver.withTurn i.turn) c
      fun _ _ => trivial
    exact ⟨hd.1.of_issues hd.2 hissues, hd.2.of_issues hissues⟩
  · obtain ⟨failures, hl⟩ := onTimer_toLifecycle (s.driver.withTurn i.turn)
    exact hd.1.of_still (by rw [hl]) (by simp) (onTimer_extends _ fun _ _ _ => ⟨rfl, rfl⟩)
  · exact hd.2.of_sub (by simp) (fun _ _ hp => by rwa [onTimer_pending] at hp)
      (onTimer_extends _ fun _ _ _ => ⟨rfl, rfl⟩)

theorem Reachable.pends (h : Reachable properties options s) : s.driver.Pends := by
  obtain ⟨seed, now, inputs, h⟩ := h
  have hlogged : (start properties options seed now).driver.Logged :=
    Reachable.logged ⟨seed, now, [], rfl⟩
  have hpends : (start properties options seed now).driver.Pends :=
    ⟨fun _ _ hp => (by cases hp), fun r =>
      iff_of_false List.not_mem_nil fun hp => by cases hp⟩
  refine (exec_invariant (I := fun s => s.driver.Pends ∧ s.driver.Logged)
    (fun _ _ _ hs _ hstep => ⟨step_pends hs.1 hs.2 hstep, step_logged hs.2 hstep⟩)
    ⟨hpends, hlogged⟩ (guarded_true _ _ inputs) h).1

end Drive

end Lightstreamer.Session
