import Lightstreamer.Protocol.Reading
import Lightstreamer.Session.Messages

/-!
# Requests and their responses

`Logged` ties the table of pending requests to what was dispatched: every request carries an id of
its own, a pending request was handed to the transport under its id, and nobody was told yet that
it was not sent. A response takes the request off the table that carried its id. When a new session
replaces the one before, every request that is still pending is retired, each with one response of
its own, and no later response to it finds anything (`Gone`).
-/

namespace Lightstreamer.Session

open Lightstreamer.Foundations Lightstreamer.Protocol Lightstreamer.Subscription

/-- The ids of the requests that were handed to the transport, in order. -/
def requestIds (trace : List Action) : List String := trace.filterMap Action.dispatchedId

/-- The reports that the request `id` was not sent, in order. -/
def unsent (id : String) (trace : List Action) : List Action :=
  trace.filter fun a => a.unsentId = some id

/-- The notification is a response to a control request. -/
def isResponse : Notification → Bool
  | .requestOk _ | .requestError .. => true
  | _ => false

/-- The notification is a response to the request `id`. -/
def answers (id : String) : Notification → Bool
  | .requestOk (some id') | .requestError id' _ _ => id' = id
  | _ => false

/-! ## What the trace says about requests -/

section trace

variable {id : String} {l l' : List Action}

@[simp] theorem requestIds_append (l l' : List Action) :
    requestIds (l ++ l') = requestIds l ++ requestIds l' :=
  List.filterMap_append

@[simp] theorem unsent_append (l l' : List Action) :
    unsent id (l ++ l') = unsent id l ++ unsent id l' :=
  List.filter_append ..

theorem requestIds_of_plain (h : Extends Action.Plain l l') : requestIds l' = requestIds l :=
  h.filterMap_eq fun _ ha => ha.1

theorem unsent_of_extends (h : Extends (fun a => a.unsentId ≠ some id) l l') :
    unsent id l' = unsent id l :=
  (h.mono fun _ ha => by simpa using ha).filter_eq

theorem Action.Plain.unsentId_ne {a : Action} (h : a.Plain) : a.unsentId ≠ some id := by
  rw [h.2]
  exact nofun

theorem unsent_of_plain (h : Extends Action.Plain l l') : unsent id l' = unsent id l :=
  unsent_of_extends (h.mono fun _ => Action.Plain.unsentId_ne)

/-- The actions of the loop around the stream connections neither dispatch nor report. -/
theorem Action.IsLoop.still {a : Action} (h : a.IsLoop) : a.Still := by
  cases a with
  | event e b =>
    cases e with
    | controlResponse => cases h
    | _ => exact ⟨rfl, rfl⟩
  | control => cases h
  | _ => exact ⟨rfl, rfl⟩

end trace

namespace SessionDriver

variable {K : PendingKind → Prop} {id : String} {d d' d'' : SessionDriver}

/-- The id was given to a request. -/
def Drawn (d : SessionDriver) (id : String) : Prop :=
  ∃ n < d.nextRequestId, id = (RequestId.fromProgressive n).text

theorem Drawn.mono (h : d.Drawn id) (hle : d.nextRequestId ≤ d'.nextRequestId) : d'.Drawn id := by
  obtain ⟨n, hn, hid⟩ := h
  exact ⟨n, hn.trans_le hle, hid⟩

/-- The next id is a new one. -/
theorem not_drawn_next (d : SessionDriver) :
    ¬d.Drawn (RequestId.fromProgressive d.nextRequestId).text := fun ⟨_, hn, hid⟩ =>
  hn.ne' (RequestId.fromProgressive_text_inj hid)

/-- The request was handed to the transport under the id `id`, and the transport took it. -/
def Sent (trace : List Action) (id : String) (kind : PendingKind) : Prop :=
  ∃ request parameters, (requestIdOf request).map RequestId.text = some id ∧
    .control request (some kind) parameters none ∈ trace

theorem Sent.mono {P : Action → Prop} {l l' : List Action} {kind : PendingKind}
    (h : Sent l id kind) (ht : Extends P l l') : Sent l' id kind := by
  obtain ⟨request, ps, hrequest, hin⟩ := h
  exact ⟨request, ps, hrequest, ht.mem hin⟩

/-- The table of pending requests agrees with what was dispatched and reported. -/
structure Logged (d : SessionDriver) : Prop where
  drawn : ∀ id ∈ requestIds d.trace, d.Drawn id
  nodup : (requestIds d.trace).Nodup
  untold : ∀ id, ¬d.Drawn id → unsent id d.trace = []
  sent : ∀ id p, d.pending.get? id = some p → Sent d.trace id p.kind
  pending : ∀ id p, d.pending.get? id = some p → unsent id d.trace = []

namespace Logged

/-- Entries may leave the table, and what concerns no request may be reported. -/
theorem of_sub (h : d.Logged) (hnext : d'.nextRequestId = d.nextRequestId)
    (hpending : ∀ id p, d'.pending.get? id = some p → d.pending.get? id = some p)
    (ht : Extends Action.Plain d.trace d'.trace) : d'.Logged where
  drawn := fun id hid => (h.drawn id (requestIds_of_plain ht ▸ hid)).mono hnext.ge
  nodup := requestIds_of_plain ht ▸ h.nodup
  untold := fun id hid => by
    rw [unsent_of_plain ht]
    exact h.untold id fun hd => hid (hd.mono hnext.ge)
  sent := fun id p hp => (h.sent id p (hpending id p hp)).mono ht
  pending := fun id p hp => by
    rw [unsent_of_plain ht]
    exact h.pending id p (hpending id p hp)

/-- A pending request carries an id that was drawn. -/
theorem drawn_of_pending (h : d.Logged) {p : Pending} (hp : d.pending.get? id = some p) :
    d.Drawn id := by
  obtain ⟨request, ps, hrequest, hin⟩ := h.sent id p hp
  exact h.drawn id (List.mem_filterMap.2 ⟨_, hin, hrequest⟩)

/-- Handing a request to the transport under the next id. -/
theorem of_dispatched (h : d.Logged) {id : RequestId} (htake : d.takeRequestId = some (id, d''))
    (hnext : d'.nextRequestId = d''.nextRequestId) {request : ControlRequest} {kind : PendingKind}
    (hrequest : requestIdOf request = some id) {parameters : String} {error : Option String}
    (ht : d'.trace = d.trace ++ [.control request (some kind) parameters error])
    (hpending : ∀ k p, d'.pending.get? k = some p → d.pending.get? k = some p ∨
      k = id.text ∧ error = none ∧ p.kind = kind) : d'.Logged := by
  obtain ⟨-, rfl, rfl⟩ := takeRequestId_eq_some htake
  have hids : requestIds d'.trace = requestIds d.trace ++
      [(RequestId.fromProgressive d.nextRequestId).text] := by
    rw [ht, requestIds_append]
    simp [requestIds, Action.dispatchedId, hrequest]
  have hunsent : ∀ id, unsent id d'.trace = unsent id d.trace := fun id => by
    rw [ht, unsent_append]
    simp [unsent, Action.unsentId]
  have hle : d.nextRequestId ≤ d'.nextRequestId := hnext ▸ Nat.le_succ _
  have hext : Extends (fun _ => True) d.trace d'.trace := ⟨_, ht, fun _ _ => trivial⟩
  refine ⟨fun id hid => ?_, ?_, fun id hid => ?_, fun k p hp => ?_, fun k p hp => ?_⟩
  · rw [hids, List.mem_append, List.mem_singleton] at hid
    rcases hid with hid | rfl
    · exact (h.drawn id hid).mono hle
    · exact ⟨d.nextRequestId, hnext ▸ Nat.lt_succ_self _, rfl⟩
  · rw [hids]
    refine List.nodup_append.2 ⟨h.nodup, List.pairwise_singleton _ _, fun id hid k hk => ?_⟩
    rintro rfl
    rw [List.mem_singleton.1 hk] at hid
    exact not_drawn_next d (h.drawn _ hid)
  · rw [hunsent]
    exact h.untold id fun hd => hid (hd.mono hle)
  · rcases hpending k p hp with hp | ⟨rfl, rfl, rfl⟩
    · exact (h.sent k p hp).mono hext
    · exact ⟨request, parameters, by rw [hrequest]; rfl, by simp [ht]⟩
  · rw [hunsent]
    rcases hpending k p hp with hp | ⟨rfl, -⟩
    · exact h.pending k p hp
    · exact h.untold _ (not_drawn_next d)

/-- Taking an id. -/
theorem of_take (h : d.Logged) {id : RequestId} (htake : d.takeRequestId = some (id, d')) :
    d'.Logged := by
  obtain ⟨-, -, rfl⟩ := takeRequestId_eq_some htake
  have hle : d.nextRequestId ≤ d.nextRequestId + 1 := Nat.le_succ _
  exact ⟨fun id hid => (h.drawn id hid).mono hle, h.nodup,
    fun id hid => h.untold id fun hd => hid (hd.mono hle), h.sent, h.pending⟩

/-- Reporting that a request which is not pending was not sent. -/
theorem of_unsent (h : d.Logged) {k : String} (hk : d.Drawn k) (hnone : d.pending.get? k = none)
    (hnext : d'.nextRequestId = d.nextRequestId) (hpending : d'.pending = d.pending) {a : Action}
    (ha : a.unsentId = some k) (ht : d'.trace = d.trace ++ [a]) : d'.Logged := by
  have hdispatched : a.dispatchedId = none := by
    cases a with
    | control => cases ha
    | _ => rfl
  have hids : requestIds d'.trace = requestIds d.trace := by
    rw [ht, requestIds_append]
    simp [requestIds, hdispatched]
  have hunsent : ∀ id, id ≠ k → unsent id d'.trace = unsent id d.trace := fun id hid => by
    rw [ht, unsent_append]
    simp [unsent, ha, Ne.symm hid]
  have hext : Extends (fun _ => True) d.trace d'.trace := ⟨_, ht, fun _ _ => trivial⟩
  refine ⟨fun id hid => (h.drawn id (hids ▸ hid)).mono hnext.ge, hids ▸ h.nodup,
    fun id hid => ?_, fun id p hp => ?_, fun id p hp => ?_⟩
  · have hd : ¬d.Drawn id := fun hd => hid (hd.mono hnext.ge)
    rw [hunsent id fun hk' => hd (hk' ▸ hk)]
    exact h.untold id hd
  · exact (h.sent id p (hpending ▸ hp)).mono hext
  · rw [hpending] at hp
    rw [hunsent id fun hk' => ?_]
    · exact h.pending id p hp
    · rw [hk', hnone] at hp
      cases hp

/-- **Issuing requests** keeps the log. -/
theorem of_issues (h : d.Logged) (hi : Issues K d d') : d'.Logged := by
  induction hi with
  | plain _ hpending hnext htrace =>
    exact h.of_sub hnext (fun _ _ hp => hpending ▸ hp) (htrace.mono fun _ ha => ha.still.plain)
  | trans _ _ ih ih' => exact ih' (ih h)
  | @dispatch d d' d₁ id request kind htake hgeneration hpending hnext htrace hid _ =>
    have hnone : d.pending.get? id.text = none := by
      obtain ⟨-, rfl, -⟩ := takeRequestId_eq_some htake
      refine Option.eq_none_iff_forall_ne_some.2 fun p hp => ?_
      exact not_drawn_next d (h.drawn_of_pending hp)
    have hdrawn : d'.Drawn id.text := by
      obtain ⟨-, rfl, rfl⟩ := takeRequestId_eq_some htake
      exact ⟨d.nextRequestId, Nat.lt_succ_self _, rfl⟩
    have hd' : d'.pending = d.pending ∧ d'.trace = d.trace := by
      obtain ⟨-, -, rfl⟩ := takeRequestId_eq_some htake
      exact ⟨rfl, rfl⟩
    obtain ⟨error, e, hd, rfl⟩ | ⟨ps, e, hd, -, -, hp, hn, -, ht⟩ |
        ⟨ps, error, b, e, hd, -, -, hp, hn, -, ht⟩ := d₁.dispatch_cases request id kind
    · rw [hd]
      exact (h.of_take htake).of_unsent hdrawn (by rw [hd'.1, hnone]) hnext
        (hpending.trans hd'.1.symm) rfl (by rw [emit, htrace, hd'.2])
    · rw [hd]
      refine h.of_dispatched htake (hn.trans hnext) hid (by rw [ht, htrace]) fun k p hq => ?_
      rw [hp, OrdMap.get?_insert, hpending] at hq
      split_ifs at hq with hk
      · cases hq
        exact .inr ⟨hk, rfl, rfl⟩
      · exact .inl hq
    · rw [hd]
      have hsame : e.pending = d.pending := by
        rw [hp, hpending, OrdMap.erase_insert _ hnone]
      have hsent : Logged { e with trace := d.trace ++ [.control request (some kind) ps
          (some error)] } :=
        h.of_dispatched htake (hn.trans hnext) hid rfl fun k p hq => .inl (hsame ▸ hq)
      have hlast : e.trace = (d.trace ++ [.control request (some kind) ps (some error)]) ++
          [.event (.controlResponse (some id) kind.target (.notSent error)) b] := by
        rw [ht, htrace, List.append_cons]
      exact hsent.of_unsent (hdrawn.mono (hn.trans hnext).ge) (hsame ▸ hnone) rfl rfl rfl hlast

end Logged

/-! ## Retirement -/

/-- The response that a retired request is given. -/
def retirement (id : String) (kind : PendingKind) (delivered : Bool) : Action :=
  .event (.controlResponse (RequestId.tryNew id).toOption kind.target
    (.notSent "the session the request was issued on was replaced")) delivered

theorem Drawn.tryNew (h : d.Drawn id) :
    ∃ requestId : RequestId, requestId.text = id ∧ RequestId.tryNew id = .ok requestId := by
  obtain ⟨n, -, rfl⟩ := h
  exact ⟨.fromProgressive n, rfl, RequestId.tryNew_text _⟩

theorem Drawn.unsentId_retirement (h : d.Drawn id) (kind : PendingKind) (b : Bool) :
    (retirement id kind b).unsentId = some id := by
  obtain ⟨requestId, rfl, htry⟩ := h.tryNew
  rw [retirement, htry]
  rfl

/-- The driver that is about to answer a retired request. -/
def retiring (d : SessionDriver) : PendingKind → SessionDriver
  | .forceRebind => { d with forceRebindOutstanding := false }
  | .sendMessage sequence prog =>
    d.emit (.message none sequence prog
      (.notSent "the session the message was sent on was replaced"))
  | _ => d

theorem retireOne_trace (d : SessionDriver) (id : String) (kind : PendingKind) :
    (d.retireOne id kind).trace = (d.retiring kind).trace ++
      [retirement id kind (!(d.retiring kind).turn.interrupts.headD false)] := by
  cases kind <;> rfl

theorem retiring_extends (d : SessionDriver) (kind : PendingKind) :
    Extends Action.Still d.trace (d.retiring kind).trace := by
  cases kind with
  | sendMessage => exact d.extends_emit fun _ => ⟨rfl, rfl⟩
  | _ => exact .refl _ _

theorem retiring_plain (d : SessionDriver) (kind : PendingKind) :
    Extends Action.Plain d.trace (d.retiring kind).trace :=
  (d.retiring_extends kind).mono fun _ => Action.Still.plain

theorem retiring_pending (d : SessionDriver) (kind : PendingKind) :
    (d.retiring kind).pending = d.pending := by
  cases kind <;> rfl

theorem retiring_nextRequestId (d : SessionDriver) (kind : PendingKind) :
    (d.retiring kind).nextRequestId = d.nextRequestId := by
  cases kind <;> rfl

/-- Emissions that no stop interrupts stay so. -/
theorem retiring_quiet (h : true ∉ d.turn.interrupts) (kind : PendingKind) :
    true ∉ (d.retiring kind).turn.interrupts := by
  cases kind with
  | sendMessage => exact fun hin => h (List.mem_of_mem_tail hin)
  | _ => exact h

theorem retireOne_quiet (h : true ∉ d.turn.interrupts) (id : String) (kind : PendingKind) :
    true ∉ (d.retireOne id kind).turn.interrupts := by
  have hquiet := retiring_quiet h kind
  cases kind <;> exact fun hin => hquiet (List.mem_of_mem_tail hin)

/-- A retired request is answered once. -/
theorem unsent_retireOne_self (hk : d.Drawn id) (kind : PendingKind) :
    ∃ b, unsent id (d.retireOne id kind).trace = unsent id d.trace ++ [retirement id kind b] ∧
      (true ∉ d.turn.interrupts → b = true) := by
  refine ⟨!(d.retiring kind).turn.interrupts.headD false, ?_, fun hquiet => ?_⟩
  · rw [retireOne_trace, unsent_append, unsent_of_plain (d.retiring_plain kind)]
    simp [unsent, hk.unsentId_retirement]
  · have := retiring_quiet hquiet kind
    cases hi : (d.retiring kind).turn.interrupts with
    | nil => rfl
    | cons b bs =>
      rw [hi] at this
      cases b with
      | false => rfl
      | true => exact absurd List.mem_cons_self this

/-- The answer to a retired request is no answer to another. -/
theorem unsent_retireOne_of_ne {k : String} (hk : d.Drawn k) (hne : k ≠ id) (kind : PendingKind) :
    unsent id (d.retireOne k kind).trace = unsent id d.trace := by
  rw [retireOne_trace, unsent_append, unsent_of_plain (d.retiring_plain kind)]
  simp [unsent, hk.unsentId_retirement, hne]

theorem retireOne_logged (h : d.Logged) (hk : d.Drawn id) (hnone : d.pending.get? id = none)
    (kind : PendingKind) : (d.retireOne id kind).Logged := by
  have hretiring : (d.retiring kind).Logged := h.of_sub (d.retiring_nextRequestId kind)
    (fun _ _ hp => d.retiring_pending kind ▸ hp) (d.retiring_plain kind)
  refine hretiring.of_unsent (hk.mono (d.retiring_nextRequestId kind).ge) ?_ ?_ ?_
    (hk.unsentId_retirement kind _) (d.retireOne_trace id kind)
  · rw [retiring_pending, hnone]
  · rw [retireOne_nextRequestId, retiring_nextRequestId]
  · rw [retireOne_pending, retiring_pending]

/-- Retiring requests that left the table keeps the log. -/
theorem retireAll_logged (h : d.Logged) {l : List (String × Pending)}
    (hl : ∀ q ∈ l, d.Drawn q.1 ∧ d.pending.get? q.1 = none) : (d.retireAll l).Logged := by
  induction l generalizing d with
  | nil => exact h
  | cons q l ih =>
    obtain ⟨hdrawn, hnone⟩ := hl q List.mem_cons_self
    refine ih (retireOne_logged h hdrawn hnone q.2.kind) fun r hr => ?_
    obtain ⟨hdrawn, hnone⟩ := hl r (List.mem_cons_of_mem _ hr)
    exact ⟨hdrawn.mono (by simp), by simpa using hnone⟩

theorem unsent_retireAll_of_notMem {l : List (String × Pending)} (hl : ∀ q ∈ l, d.Drawn q.1)
    (hid : id ∉ l.map Prod.fst) : unsent id (d.retireAll l).trace = unsent id d.trace := by
  induction l generalizing d with
  | nil => rfl
  | cons q l ih =>
    rw [List.map_cons, List.mem_cons, not_or] at hid
    rw [retireAll, ih (fun r hr => (hl r (List.mem_cons_of_mem _ hr)).mono (by simp)) hid.2]
    exact unsent_retireOne_of_ne (hl q List.mem_cons_self) (Ne.symm hid.1) q.2.kind

/-- **Every retired request is answered once.** -/
theorem unsent_retireAll {l : List (String × Pending)} (hl : ∀ q ∈ l, d.Drawn q.1)
    (hnodup : (l.map Prod.fst).Nodup) {p : Pending} (hin : (id, p) ∈ l) :
    ∃ b, unsent id (d.retireAll l).trace = unsent id d.trace ++ [retirement id p.kind b] ∧
      (true ∉ d.turn.interrupts → b = true) := by
  induction l generalizing d with
  | nil => cases hin
  | cons q l ih =>
    have hdrawn := hl q List.mem_cons_self
    have hrest : ∀ r ∈ l, (d.retireOne q.1 q.2.kind).Drawn r.1 := fun r hr =>
      (hl r (List.mem_cons_of_mem _ hr)).mono (by simp)
    rw [List.map_cons, List.nodup_cons] at hnodup
    rw [retireAll]
    rcases List.mem_cons.1 hin with rfl | hin
    · rw [unsent_retireAll_of_notMem hrest hnodup.1]
      exact unsent_retireOne_self hdrawn p.kind
    · have hne : q.1 ≠ id := fun heq => hnodup.1 (heq ▸ List.mem_map_of_mem hin)
      obtain ⟨b, hb, hquiet⟩ := ih hrest hnodup.2 hin
      rw [unsent_retireOne_of_ne hdrawn hne] at hb
      exact ⟨b, hb, fun hi => hquiet (retireOne_quiet hi q.1 q.2.kind)⟩

/-- What the retirement works on: the stale entries, each under an id of its own, taken off the
table. -/
theorem mem_arrange_stale {d : SessionDriver} {q : String × Pending} (drain : List ℕ)
    (hq : q ∈ arrange drain (d.pending.filter fun _ p => p.generation ≠ d.generation).toList) :
    d.pending.get? q.1 = some q.2 ∧ q.2.generation ≠ d.generation := by
  have hin := OrdMap.mem_toList_iff.1 ((arrange_perm drain _).mem_iff.1 hq)
  rw [OrdMap.get?_filter, Option.filter_eq_some_iff] at hin
  exact ⟨hin.1, of_decide_eq_true hin.2⟩

theorem retireStalePending_logged (h : d.Logged) : d.retireStalePending.Logged := by
  have hkept : Logged { d with
      pending := d.pending.filter fun _ p => p.generation = d.generation } :=
    h.of_sub rfl (fun k p hp => by
      rw [OrdMap.get?_filter, Option.filter_eq_some_iff] at hp
      exact hp.1) (.refl _ _)
  refine retireAll_logged hkept fun q hq => ?_
  obtain ⟨hin, hstale⟩ := mem_arrange_stale d.turn.drain hq
  refine ⟨h.drawn_of_pending hin, ?_⟩
  simp [hin, hstale]

/-- Every request of an earlier session is answered once. -/
theorem unsent_retireStalePending (h : d.Logged) {p : Pending}
    (hp : d.pending.get? id = some p) (hstale : p.generation ≠ d.generation) :
    ∃ b, unsent id d.retireStalePending.trace = [retirement id p.kind b] ∧
      (true ∉ d.turn.interrupts → b = true) := by
  let l := arrange d.turn.drain (d.pending.filter fun _ p => p.generation ≠ d.generation).toList
  have hnodup : (l.map Prod.fst).Nodup :=
    ((arrange_perm d.turn.drain _).map Prod.fst).nodup_iff.2 (OrdMap.nodup_keys _)
  have hin : (id, p) ∈ l := by
    rw [(arrange_perm d.turn.drain _).mem_iff, OrdMap.mem_toList_iff, OrdMap.get?_filter, hp]
    simp [hstale]
  have hdrawn : ∀ q ∈ l, Drawn { d with
      pending := d.pending.filter fun _ p => p.generation = d.generation } q.1 := fun q hq =>
    h.drawn_of_pending (mem_arrange_stale d.turn.drain hq).1
  obtain ⟨b, hb, hquiet⟩ := unsent_retireAll hdrawn hnodup hin
  refine ⟨b, ?_, hquiet⟩
  have hnone : unsent id d.trace = [] := h.pending id p hp
  have hall : unsent id d.retireStalePending.trace =
      unsent id d.trace ++ [retirement id p.kind b] := hb
  rw [hall, hnone, List.nil_append]

/-! ## Lines -/

theorem onProg_still (d : SessionDriver) (n : ℕ) :
    Extends Action.Still d.trace (d.onProg n).trace := by
  have hrecovered : ∀ (d : SessionDriver) outcome,
      Extends Action.Still d.trace (d.emit (.recovered outcome)).trace := fun d _ =>
    d.extends_emit fun _ => ⟨rfl, rfl⟩
  unfold onProg
  split
  · split_ifs
    · exact .refl _ _
    · exact hrecovered _ _
    · exact hrecovered _ _
    · exact hrecovered _ _
  · exact .refl _ _

/-- An event about a subscription is about no request. -/
theorem interpretForSubscription_still {n : ℕ} {notification : Notification} {e : SessionEvent}
    (h : (d.interpretForSubscription n notification).1 = some e) (b : Bool) :
    (Action.event e b).Still := by
  unfold interpretForSubscription at h
  split at h
  · cases h
  · split at h
    · cases h
    · simp only [Option.map_eq_some_iff] at h
      obtain ⟨_, _, rfl⟩ := h
      exact ⟨rfl, rfl⟩

theorem deliver_still (d : SessionDriver) (n : Notification) :
    Extends Action.Still d.trace (d.deliver n).trace := by
  have hdata : Extends Action.Still d.trace (d.act (.data d.progressive n)).trace :=
    .one ⟨rfl, rfl⟩ _
  have hmessage : ∀ progressive sequence prog result, Extends Action.Still d.trace
      ((d.act (.data d.progressive n)).emit (.message progressive sequence prog result)).trace :=
    fun _ _ _ _ => hdata.trans (extends_emit _ fun _ => ⟨rfl, rfl⟩)
  unfold deliver
  dsimp only
  split
  · exact hmessage _ _ _ _
  · exact hmessage _ _ _ _
  · refine hdata.trans ?_
    unfold notifySubscription
    dsimp only
    split
    · rename_i e he
      have hemit := extends_emit ((d.act (.data d.progressive n)).interpretForSubscription
        d.progressive n).2 (interpretForSubscription_still he)
      rwa [interpretForSubscription_toSurroundings] at hemit
    · rw [interpretForSubscription_toSurroundings]

theorem onData_still (d : SessionDriver) (n : Notification) :
    Extends Action.Still d.trace (d.onData n).trace := by
  unfold onData
  dsimp only
  split_ifs
  · exact .refl _ _
  · exact deliver_still { d with refreshStreak := 0, progressive := _ } n

theorem onRequestOk_plain (d : SessionDriver) (id : String) :
    Extends Action.Plain d.trace (d.onRequestOk (some id)).trace := by
  have hrespond := extends_emit ((d.takePending id).2.acceptRequest (d.takePending id).1)
    (P := Action.Plain) (e := .controlResponse (RequestId.tryNew id).toOption
      (((d.takePending id).1.map PendingKind.target).getD .session) .accepted)
    fun _ => ⟨rfl, by cases (RequestId.tryNew id).toOption <;> rfl⟩
  rw [acceptRequest_toSurroundings, takePending_toSurroundings] at hrespond
  exact hrespond

theorem onRequestError_plain (d : SessionDriver) (id : String) (cause : ServerCause) :
    Extends Action.Plain d.trace (d.onRequestError id cause).trace := by
  have hundo := undoRequest_extends (P := Action.Plain) (d.takePending id).2 cause
    (d.takePending id).1 fun _ _ _ _ => ⟨rfl, rfl⟩
  rw [takePending_toSurroundings] at hundo
  exact hundo.trans (extends_emit _ fun _ =>
    ⟨rfl, by cases (RequestId.tryNew id).toOption <;> rfl⟩)

/-- Entering a session touches neither the table nor the caller, but for the retirement. -/
theorem enterSession_cases (d : SessionDriver) (sid : SessionId) (keepAlive : ℕ)
    (link : Option String) (kind : BindKind) :
    ∃ e : SessionDriver, d.enterSession sid keepAlive link kind =
        (if kind.isFresh then e.retireStalePending else e) ∧
      e.generation = (if kind.isFresh then saturatingAdd u64Max d.generation 1
        else d.generation) ∧
      e.registry = (if kind.isFresh then d.registry.resetForNewSession else d.registry) ∧
      e.pending = d.pending ∧ e.nextRequestId = d.nextRequestId ∧
      e.turn.interrupts = d.turn.interrupts ∧ e.trace = d.trace ++ [.setControlLink link] := by
  unfold enterSession freshSession
  dsimp only
  split
  · exact ⟨_, rfl, rfl, rfl, rfl, rfl, rfl, rfl⟩
  · exact ⟨_, rfl, rfl, rfl, rfl, rfl, rfl, rfl⟩

theorem announced_logged (h : d.Logged) (sid : SessionId) (limit keepAlive : ℕ)
    (link : Option String) : (d.announced sid limit keepAlive link).Logged := by
  obtain ⟨e, he, -, -, hpending, hnext, -, ht⟩ :=
    d.enterSession_cases sid keepAlive link (d.conokKind sid)
  have hlink : Action.Plain (.setControlLink link) := ⟨rfl, rfl⟩
  have hentered : e.Logged := h.of_sub hnext (fun _ _ hp => hpending ▸ hp) (ht ▸ .one hlink _)
  have hbound : ∀ {d' : SessionDriver}, d'.Logged → (d'.emit (.bound
      ⟨sid, d.conokKind sid, keepAlive, limit, link⟩)).Logged := fun {d'} hd' =>
    hd'.of_sub rfl (fun _ _ hp => hp) (d'.extends_emit fun _ => ⟨rfl, rfl⟩)
  rw [announced, he]
  split
  · exact hbound (retireStalePending_logged hentered)
  · exact hbound hentered

/-- A new session answers every request of the sessions before it once. -/
theorem unsent_announced (h : d.Logged) {sid : SessionId} (hfresh : (d.conokKind sid).isFresh)
    {p : Pending} (hp : d.pending.get? id = some p)
    (hstale : p.generation ≠ saturatingAdd u64Max d.generation 1) (limit keepAlive : ℕ)
    (link : Option String) :
    ∃ b, unsent id (d.announced sid limit keepAlive link).trace = [retirement id p.kind b] ∧
      (true ∉ d.turn.interrupts → b = true) := by
  obtain ⟨e, he, hgeneration, -, hpending, hnext, hinterrupts, ht⟩ :=
    d.enterSession_cases sid keepAlive link (d.conokKind sid)
  have hlink : Action.Plain (.setControlLink link) := ⟨rfl, rfl⟩
  have hentered : e.Logged := h.of_sub hnext (fun _ _ hp => hpending ▸ hp) (ht ▸ .one hlink _)
  rw [if_pos hfresh] at he hgeneration
  obtain ⟨b, hb, hquiet⟩ := unsent_retireStalePending hentered (hpending ▸ hp)
    (hgeneration ▸ hstale)
  refine ⟨b, ?_, fun hi => hquiet (hinterrupts ▸ hi)⟩
  rw [announced, he, unsent_of_plain (extends_emit _ fun _ => ⟨rfl, rfl⟩), hb]

/-- Issuing requests says nothing about those issued before. -/
theorem Issues.unsent (hi : Issues K d d') (hid : d.Drawn id) :
    Session.unsent id d'.trace = Session.unsent id d.trace := by
  induction hi with
  | plain _ _ _ htrace => exact unsent_of_plain (htrace.mono fun _ ha => ha.still.plain)
  | trans h _ ih ih' => rw [ih' (hid.mono h.files.le), ih hid]
  | @dispatch d d' d₁ rid request kind htake _ _ _ htrace _ _ =>
    have hne : rid.text ≠ id := by
      obtain ⟨-, rfl, -⟩ := takeRequestId_eq_some htake
      rintro rfl
      exact not_drawn_next d hid
    have hcontrol : ∀ ps error, (Action.control request (some kind) ps error).unsentId ≠ some id :=
      fun _ _ => nofun
    have hreport : ∀ error b, (Action.event (.controlResponse (some rid) kind.target
        (.notSent error)) b).unsentId ≠ some id := fun _ _ h => hne (Option.some.inj h)
    obtain ⟨error, e, hd, rfl⟩ | ⟨ps, e, hd, -, -, -, -, -, ht⟩ |
        ⟨ps, error, b, e, hd, -, -, -, -, -, ht⟩ := d₁.dispatch_cases request rid kind
    · rw [hd, ← htrace]
      exact unsent_of_extends (d₁.extends_emit (hreport error))
    · rw [hd, ht, htrace]
      exact unsent_of_extends ⟨_, rfl, by simpa using hcontrol ps none⟩
    · rw [hd, ht, htrace]
      exact unsent_of_extends ⟨_, rfl, by simpa using ⟨hcontrol ps (some error), hreport error b⟩⟩

theorem onNotification_logged (h : d.Logged) (n : Notification) :
    (d.onNotification n).2.Logged := by
  have hsame : ∀ {d' : SessionDriver}, d'.nextRequestId = d.nextRequestId →
      d'.pending = d.pending → Extends Action.Plain d.trace d'.trace → d'.Logged :=
    fun hnext hp ht => h.of_sub hnext (fun _ _ hq => hp ▸ hq) ht
  have herase : ∀ (id : String) {d' : SessionDriver}, d'.nextRequestId = d.nextRequestId →
      d'.pending = d.pending.erase id → Extends Action.Plain d.trace d'.trace → d'.Logged :=
    fun id d' hnext hp ht => h.of_sub hnext (fun k p hq => by
      rw [hp] at hq
      exact OrdMap.get?_of_erase hq) ht
  cases n with
  | connectionOk sid limit millis link =>
    exact (announced_logged h sid limit _ link).of_issues
      (issueUnboundSubscriptions_issues (K := fun _ => True) _ fun _ _ => trivial)
  | requestOk id =>
    cases id with
    | none => exact h
    | some id =>
      exact herase id (by simp [onNotification, onRequestOk])
        (by simp [onNotification, onRequestOk]) (d.onRequestOk_plain id)
  | requestError id code message =>
    exact herase id (by simp [onNotification, onRequestError])
      (by simp [onNotification, onRequestError]) (d.onRequestError_plain id _)
  | connectionError | «end» | loop =>
    refine hsame ?_ ?_ ?_ <;> simp [onNotification]
  | progressive n =>
    exact hsame (by simp [onNotification]) (by simp [onNotification])
      ((d.onProg_still n).mono fun _ => Action.Still.plain)
  | probe | noOp | wsOk => exact h
  | error | sync | clientIp | serverName | constraintsChanged =>
    exact hsame rfl rfl (d.extends_emit fun _ => ⟨rfl, rfl⟩)
  | _ =>
    exact hsame (by simp [onNotification]) (by simp [onNotification])
      ((d.onData_still _).mono fun _ => Action.Still.plain)

theorem onLine_logged (h : d.Logged) (text : String) : (d.onLine text).2.Logged := by
  have hheard : d.heard.Logged := h.of_sub rfl (fun _ _ hq => hq) (.refl _ _)
  cases hp : parseLine text with
  | ok n => exact onLine_of_ok d hp ▸ onNotification_logged hheard n
  | error e =>
    rw [onLine_of_error d hp]
    exact hheard.of_sub rfl (fun _ _ hq => hq) (d.heard.extends_emit fun _ => ⟨rfl, rfl⟩)

/-! ## Requests that are settled -/

/-- The id was given to a request that is not pending, or no longer. -/
structure Spent (id : String) (d : SessionDriver) : Prop where
  drawn : d.Drawn id
  none : d.pending.get? id = none

namespace Spent

theorem of_files (h : Spent id d) (hf : Files K d d') : Spent id d' where
  drawn := h.drawn.mono hf.le
  none := by
    obtain ⟨m, hm, rfl⟩ := h.drawn
    rw [hf.kept _ fun n hn hid => ?_, h.none]
    have := RequestId.fromProgressive_text_inj hid
    omega

theorem of_sub (h : Spent id d) (hnext : d.nextRequestId ≤ d'.nextRequestId)
    (hpending : ∀ k p, d'.pending.get? k = some p → d.pending.get? k = some p) : Spent id d' where
  drawn := h.drawn.mono hnext
  none := Option.eq_none_iff_forall_ne_some.2 fun p hp => by
    have := hpending id p hp
    rw [h.none] at this
    cases this

/-- A settled request stays settled, whatever the server says. -/
theorem onNotification (h : Spent id d) (n : Notification) : Spent id (d.onNotification n).2 := by
  have hsame : ∀ {d' : SessionDriver}, d'.nextRequestId = d.nextRequestId →
      d'.pending = d.pending → Spent id d' :=
    fun hnext hp => h.of_sub hnext.ge fun _ _ hq => hp ▸ hq
  have herase : ∀ (k : String) {d' : SessionDriver}, d'.nextRequestId = d.nextRequestId →
      d'.pending = d.pending.erase k → Spent id d' :=
    fun k d' hnext hp => h.of_sub hnext.ge fun _ _ hq => by
      rw [hp] at hq
      exact OrdMap.get?_of_erase hq
  induction n using onNotification_cases d with
  | conok sid limit millis link hn =>
    rw [hn, onConok_eq]
    refine Spent.of_files (K := fun _ => True) (h.of_sub ?_ fun k p hq => ?_)
      (issueUnboundSubscriptions_files _ fun _ _ => trivial)
    · simp [announced]
    · rw [announced_pending] at hq
      split_ifs at hq
      · rw [OrdMap.get?_filter, Option.filter_eq_some_iff] at hq
        exact hq.1
      · exact hq
  | conerr code message hn => exact hsame (by simp [hn]) (by simp [hn])
  | ended code message hn => exact hsame (by simp [hn]) (by simp [hn])
  | loop millis hn => exact hsame (by simp [hn]) (by simp [hn])
  | prog n hn => exact hsame (by simp [hn]) (by simp [hn])
  | reqok k hn =>
    cases k with
    | none => exact hn ▸ h
    | some k => exact herase k (by simp [hn, onRequestOk]) (by simp [hn, onRequestOk])
  | reqerr k code message hn =>
    exact herase k (by simp [hn, onRequestError]) (by simp [hn, onRequestError])
  | quiet n _ hn => exact hn ▸ h
  | report n e _ hn => exact hsame (by simp [hn]) (by simp [hn])
  | data n _ hn => exact hsame (by simp [hn]) (by simp [hn])

theorem onLine (h : Spent id d) (text : String) : Spent id (d.onLine text).2 := by
  have hheard : Spent id d.heard := h.of_sub le_rfl fun _ _ hp => hp
  cases hp : parseLine text with
  | ok n => exact onLine_of_ok d hp ▸ hheard.onNotification n
  | error e => exact onLine_of_error d hp ▸ hheard.of_sub le_rfl fun _ _ hp => hp

end Spent

/-- **A response to a request that is settled changes nothing**: no entry of the registry, no spec
and neither of the flags. -/
theorem onNotification_of_spent (h : Spent id d) {n : Notification} (hn : answers id n = true) :
    (d.onNotification n).1 = .continue ∧
      (d.onNotification n).2.registry = d.registry ∧
      (d.onNotification n).2.destroyRequested = d.destroyRequested ∧
      (d.onNotification n).2.forceRebindOutstanding = d.forceRebindOutstanding := by
  have htake : d.takePending id = (none, d) := by
    rw [takePending, h.none]
  unfold answers at hn
  split at hn
  · obtain rfl := of_decide_eq_true hn
    simp [SessionDriver.onNotification, onRequestOk, htake, acceptRequest, respond]
  · obtain rfl := of_decide_eq_true hn
    simp [SessionDriver.onNotification, onRequestError, htake, undoRequest, respond]
  · cases hn

end SessionDriver

namespace Drive

open SessionDriver

variable {properties : TransportProperties} {options : SessionOptions} {id : String}
  {s s' t : Drive} {i : Input}

/-- **Every turn keeps the log.** -/
theorem step_logged (h : s.driver.Logged) (hstep : step s i = some s') : s'.driver.Logged := by
  have hturn : (s.driver.withTurn i.turn).Logged :=
    h.of_sub rfl (fun _ _ hp => hp) (.refl _ _)
  refine step_desk (R := fun d d' => d.Logged → d'.Logged) (fun h h' hd => h' (h hd))
    (fun hs ht hd => hd.of_sub hs.nextRequestId (fun _ _ hp => hs.pending ▸ hp)
      (ht.mono fun _ ha => ha.still.plain)) rfl
    (fun c _ hd => hd.of_issues (onCommand_issues (K := fun _ => True) _ c fun _ _ => trivial))
    (fun text _ hd => onLine_logged hd text)
    (fun hd => hd.of_sub ?_ (fun _ _ hp => ?_) (onTimer_extends _ ?_)) hstep hturn
  · simp
  · rwa [onTimer_pending] at hp
  · exact fun _ _ _ => ⟨rfl, rfl⟩

/-- A settled request stays settled along a run. -/
theorem step_spent (h : Spent id s.driver) (hstep : step s i = some s') : Spent id s'.driver := by
  have hturn : Spent id (s.driver.withTurn i.turn) := h.of_sub le_rfl fun _ _ hp => hp
  refine step_desk (R := fun d d' => Spent id d → Spent id d') (fun h h' hd => h' (h hd))
    (fun hs _ hd => hd.of_sub hs.nextRequestId.ge fun _ _ hp => hs.pending ▸ hp) rfl
    (fun c _ hd => hd.of_files (onCommand_files (K := fun _ => True) _ c fun _ _ => trivial))
    (fun text _ hd => hd.onLine text) (fun hd => hd.of_sub ?_ fun _ _ hp => ?_) hstep hturn
  · simp
  · rwa [onTimer_pending] at hp

theorem exec_spent {inputs : List Input} (h : Spent id s.driver)
    (hrun : exec step s inputs = some t) : Spent id t.driver :=
  exec_invariant (I := fun s => Spent id s.driver) (fun _ _ _ hs _ hstep => step_spent hs hstep) h
    (guarded_true _ _ inputs) hrun

theorem Reachable.logged (h : Reachable properties options s) : s.driver.Logged := by
  obtain ⟨seed, now, inputs, h⟩ := h
  have hstart : (start properties options seed now).driver.Logged :=
    ⟨nofun, List.nodup_nil, fun _ _ => rfl, nofun, nofun⟩
  exact exec_invariant (I := fun s => s.driver.Logged)
    (fun _ _ _ hs _ hstep => step_logged hs hstep) hstart (guarded_true _ _ inputs) h

/-- A response takes the request off the table that carried its id, and no other. -/
theorem step_response {n : Notification} (hn : i.notification = some n) (hresponse : isResponse n)
    (hstep : step s i = some s') (k : String) :
    s'.driver.pending.get? k = if answers k n then none else s.driver.pending.get? k := by
  rw [step_notification hn hstep, (afterPump_sameDesk _).pending]
  cases n with
  | requestOk id =>
    cases id with
    | none => rfl
    | some id => simp [onNotification, onRequestOk, answers, eq_comm]
  | requestError id code message => simp [onNotification, onRequestError, answers, eq_comm]
  | _ => cases hresponse

/-- A response to a settled request changes nothing, whatever the turn does next. -/
theorem step_of_spent {n : Notification} (h : Spent id s.driver) (hn : i.notification = some n)
    (hanswers : answers id n = true) (hstep : step s i = some s') :
    s'.driver.registry = s.driver.registry ∧
      s'.driver.destroyRequested = s.driver.destroyRequested ∧
      s'.driver.forceRebindOutstanding = s.driver.forceRebindOutstanding := by
  have hheard : Spent id (s.driver.withTurn i.turn).heard := h.of_sub le_rfl fun _ _ hp => hp
  obtain ⟨hflow, hregistry, hdestroy, hforce⟩ := onNotification_of_spent hheard hanswers
  have hsame := afterPump_sameDesk ((s.driver.withTurn i.turn).heard.onNotification n)
  rw [step_notification hn hstep]
  refine ⟨hsame.registry.trans hregistry, ?_, hsame.forceRebindOutstanding.trans hforce⟩
  obtain hp | ⟨-, -, hp⟩ | ⟨_, hp, -⟩ | ⟨_, hp, -⟩ :=
    afterPump_cases ((s.driver.withTurn i.turn).heard.onNotification n)
  · rw [hp, finish_toLifecycle]
    exact hdestroy
  · rw [hp]
    exact hdestroy
  · rw [hflow] at hp
    cases hp
  · rw [hflow] at hp
    cases hp

theorem renews_eq_true (h : s.renews i = true) :
    ∃ sid limit millis link, i.notification = some (.connectionOk sid limit millis link) ∧
      (s.driver.conokKind sid).isFresh = true := by
  rw [renews, Option.any_eq_true] at h
  obtain ⟨n, hn, h⟩ := h
  cases n with
  | connectionOk sid limit millis link => exact ⟨sid, limit, millis, link, hn, h⟩
  | _ => cases h

/-- Once a new session is bound, every request of the sessions before it is settled. -/
theorem spent_of_renews (hlogged : s.driver.Logged) (htidy : s.driver.Tidy)
    (hrenews : s.renews i = true) (hgeneration : s.driver.generation < u64Max)
    (hstep : step s i = some s') (hid : id ∈ requestIds s.driver.trace) : Spent id s'.driver := by
  obtain ⟨sid, limit, millis, link, hn, hfresh⟩ := renews_eq_true hrenews
  have hannounced : Spent id ((s.driver.withTurn i.turn).heard.announced sid limit
      (ofMillis millis) link) := by
    refine ⟨(hlogged.drawn id hid).mono (by simp [announced]), ?_⟩
    have hheard : ((s.driver.withTurn i.turn).heard.conokKind sid).isFresh = true := hfresh
    rw [announced_pending, if_pos hheard, OrdMap.get?_filter]
    cases hp : s.driver.pending.get? id with
    | none => simp [hp]
    | some p =>
      have hle := htidy id p hp
      have hne : p.generation ≠ saturatingAdd u64Max s.driver.generation 1 := by
        rw [saturatingAdd]
        omega
      simp [hp, hne]
  rw [step_notification hn hstep]
  have hbound : Spent id ((s.driver.withTurn i.turn).heard.onNotification
      (.connectionOk sid limit millis link)).2 :=
    hannounced.of_files (issueUnboundSubscriptions_files (K := fun _ => True) _ fun _ _ => trivial)
  exact hbound.of_sub (afterPump_sameDesk _).nextRequestId.ge
    fun _ _ hp => (afterPump_sameDesk _).pending ▸ hp

/-- A new session answers every request that is still pending, once. -/
theorem unsent_of_renews (hlogged : s.driver.Logged) (htidy : s.driver.Tidy)
    (hrenews : s.renews i = true) (hgeneration : s.driver.generation < u64Max)
    (hstep : step s i = some s') {p : Pending} (hp : s.driver.pending.get? id = some p) :
    ∃ b, unsent id s'.driver.trace = [retirement id p.kind b] ∧
      (true ∉ i.turn.interrupts → b = true) := by
  obtain ⟨sid, limit, millis, link, hn, hfresh⟩ := renews_eq_true hrenews
  have hheard : (s.driver.withTurn i.turn).heard.Logged :=
    hlogged.of_sub rfl (fun _ _ hp => hp) (.refl _ _)
  have hstale : p.generation ≠ saturatingAdd u64Max s.driver.generation 1 := by
    have hle := htidy id p hp
    rw [saturatingAdd]
    omega
  obtain ⟨b, hb, hquiet⟩ := unsent_announced hheard hfresh hp hstale limit (ofMillis millis) link
  have hdrawn : Drawn ((s.driver.withTurn i.turn).heard.announced sid limit (ofMillis millis)
      link) id :=
    (hlogged.drawn_of_pending hp).mono (by simp [announced])
  have hissues := (issueUnboundSubscriptions_issues (K := fun _ => True) _
    fun _ _ => trivial).unsent hdrawn
  refine ⟨b, ?_, hquiet⟩
  rw [step_notification hn hstep,
    unsent_of_plain (afterPump_extends (fun _ ha => ha.still.plain) _)]
  exact hissues.trans hb

/-- **Responses are correlated.** In every run, no two requests are dispatched under one id; a
pending request is one that the transport took under its id, and a response takes off the table the
one that carried its id and no other; and a session that replaces another leaves none of its
requests pending, answers each that was with one response of its own, which is delivered unless a
stop interrupts it, and from then on a response to one of them changes nothing. -/
theorem responses_correlated (h : Reachable properties options s) :
    (requestIds s.driver.trace).Nodup ∧
    (∀ id p, s.driver.pending.get? id = some p → Sent s.driver.trace id p.kind) ∧
    (∀ i n s', i.notification = some n → isResponse n = true → step s i = some s' → ∀ id,
      s'.driver.pending.get? id = if answers id n then none else s.driver.pending.get? id) ∧
    ∀ i s', s.renews i = true → s.driver.generation < u64Max → step s i = some s' →
      (∀ id ∈ requestIds s.driver.trace, s'.driver.pending.get? id = none) ∧
      (∀ id p, s.driver.pending.get? id = some p →
        ∃ b, unsent id s'.driver.trace = [retirement id p.kind b] ∧
          (true ∉ i.turn.interrupts → b = true)) ∧
      ∀ inputs t, exec step s' inputs = some t → ∀ id ∈ requestIds s.driver.trace, ∀ j n t',
        j.notification = some n → answers id n = true → step t j = some t' →
          t'.driver.registry = t.driver.registry ∧
          t'.driver.destroyRequested = t.driver.destroyRequested ∧
          t'.driver.forceRebindOutstanding = t.driver.forceRebindOutstanding := by
  have hlogged := h.logged
  have htidy := h.tidy
  refine ⟨hlogged.nodup, hlogged.sent, fun i n s' hn hresponse hstep =>
    step_response hn hresponse hstep, fun i s' hrenews hgeneration hstep => ?_⟩
  have hspent : ∀ id ∈ requestIds s.driver.trace, Spent id s'.driver := fun id hid =>
    spent_of_renews hlogged htidy hrenews hgeneration hstep hid
  exact ⟨fun id hid => (hspent id hid).none,
    fun id p hp => unsent_of_renews hlogged htidy hrenews hgeneration hstep hp,
    fun inputs t hrun id hid j n t' hn hanswers hlate =>
      step_of_spent (exec_spent (hspent id hid) hrun) hn hanswers hlate⟩

/-- The server binds a session. -/
def binding (sid : SessionId) : Input := ⟨.line s!"CONOK,{sid},50000,5000,*", {}⟩

/-- A session whose request for a rebind is pending when it expires. -/
def expired : List Input :=
  [⟨.opened, {}⟩, binding "S1", ⟨.command (.forceRebind none), {}⟩, ⟨.line "END,48,expired", {}⟩,
    ⟨.opened, {}⟩]

theorem responses_correlated_expired :
    ∃ s s', exec step (start ⟨true, false, false⟩ .default 1 0) expired = some s ∧
      step s (binding "S2") = some s' ∧ s'.driver.pending.get? "1" = none ∧
      unsent "1" s'.driver.trace = [retirement "1" .forceRebind true] := by
  obtain ⟨s, s', hs, hstep, hrenews, hgeneration, hid, hp⟩ : ∃ s s',
      exec step (start ⟨true, false, false⟩ .default 1 0) expired = some s ∧
      step s (binding "S2") = some s' ∧ s.renews (binding "S2") = true ∧
      s.driver.generation < u64Max ∧ "1" ∈ requestIds s.driver.trace ∧
      s.driver.pending.get? "1" = some ⟨.forceRebind, 2⟩ :=
    ⟨_, _, rfl, rfl, by decide, by decide, by decide, by decide⟩
  have hcorrelated := responses_correlated (s := s) ⟨1, 0, expired, hs⟩
  obtain ⟨hnone, hanswered, -⟩ := hcorrelated.2.2.2 _ s' hrenews hgeneration hstep
  obtain ⟨b, hb, hquiet⟩ := hanswered "1" _ hp
  rw [hquiet (by decide)] at hb
  exact ⟨s, s', hs, hstep, hnone "1" hid, hb⟩

/-- A session that was bound in place of another, by the same connection. -/
def rebound (sid : SessionId) (generation : ℕ) (trace : List Action) : Drive where
  driver :=
    { SessionDriver.new ⟨true, false, false⟩ .default 1 0 with
      streamState := .bound
      intent := .rebind
      session := some sid
      generation := generation
      negotiatedKeepAlive := some (ofMillis 5000)
      liveness := Liveness.onBound (.new (ofMillis 3000) none 0) (ofMillis 5000) 0
      trace := trace }
  phase := .pumping

/-- The next connection of a session is open, and no session is bound on it yet. -/
def reopened (s : Drive) (trace : List Action) : Drive where
  driver :=
    { s.driver with
      streamState := .establishing
      liveness := s.driver.liveness.onStreamClosed.onStreamOpened (ofMillis 10000) 0
      trace := trace }
  phase := .pumping

/-- The server asks for the next connection. -/
def reopening : List Input := [⟨.line "LOOP,0", {}⟩, ⟨.opened, {}⟩]

/-- The count of sessions reaches its last value. -/
theorem reachable_rebound {generation : ℕ} (hle : 3 ≤ generation) (h : generation ≤ u64Max) :
    ∃ sid trace, (sid = "S1" ∨ sid = "S2") ∧
      Reachable ⟨true, false, false⟩ .default (rebound sid generation trace) := by
  induction generation, hle using Nat.le_induction with
  | base =>
    exact ⟨"S2", _, .inr rfl, 1, 0, [⟨.opened, {}⟩, binding "S1"] ++ reopening ++ [binding "S2"],
      rfl⟩
  | succ generation _ ih =>
    obtain ⟨sid, trace, hsid, seed, now, inputs, hrun⟩ := ih (Nat.le_of_succ_le h)
    have hnext : saturatingAdd u64Max generation 1 = generation + 1 := by
      rw [saturatingAdd]
      omega
    have hreach : ∀ {other : SessionId} {trace₁ trace₂ : List Action},
        exec step (rebound sid generation trace) reopening =
          some (reopened (rebound sid generation trace) trace₁) →
        step (reopened (rebound sid generation trace) trace₁) (binding other) =
          some (rebound other (saturatingAdd u64Max generation 1) trace₂) →
        Reachable ⟨true, false, false⟩ .default (rebound other (generation + 1) trace₂) :=
      fun hloop hbind => hnext ▸ ⟨seed, now, inputs ++ (reopening ++ [_]), exec_append_eq_some.2
        ⟨_, hrun, exec_append_eq_some.2 ⟨_, hloop, exec_cons_eq_some.2 ⟨_, hbind, rfl⟩⟩⟩⟩
    rcases hsid with rfl | rfl
    · exact ⟨"S2", _, .inr rfl, hreach rfl rfl⟩
    · exact ⟨"S1", _, .inl rfl, hreach rfl rfl⟩

/-- A session of the last count whose destruction was requested, and on which a new session may be
bound. -/
def destroying (sid : SessionId) (trace : List Action) : Drive where
  driver :=
    { (rebound sid u64Max trace).driver with
      destroyRequested := true
      pending := OrdMap.empty.insert "1" ⟨.destroy, u64Max⟩
      nextRequestId := 2 }
  phase := .pumping

theorem reachable_destroying :
    ∃ sid trace, (sid = "S1" ∨ sid = "S2") ∧
      Reachable ⟨true, false, false⟩ .default (destroying sid trace) := by
  obtain ⟨sid, trace, hsid, seed, now, inputs, hrun⟩ := @reachable_rebound u64Max (by decide) le_rfl
  have hreach : ∀ {trace' : List Action},
      step (rebound sid u64Max trace) ⟨.command (.destroy none), {}⟩ =
        some (destroying sid trace') →
      Reachable ⟨true, false, false⟩ .default (destroying sid trace') := fun hstep =>
    ⟨seed, now, inputs ++ [_], exec_append_eq_some.2
      ⟨_, hrun, exec_cons_eq_some.2 ⟨_, hstep, rfl⟩⟩⟩
  rcases hsid with rfl | rfl
  · exact ⟨"S1", _, .inl rfl, hreach (by with_unfolding_all rfl)⟩
  · exact ⟨"S2", _, .inr rfl, hreach (by with_unfolding_all rfl)⟩

/-- **Responses miscorrelated.** A stop that is ordered while a new session is bound loses the
response to a retired request. Once the count of sessions has reached its last value, a request
outlives its session, and its late refusal clears the destroy flag of the session after it. -/
theorem responses_miscorrelated :
    (∃ s s', exec step (start ⟨true, false, false⟩ .default 1 0) expired = some s ∧
      s.driver.pending.get? "1" = some ⟨.forceRebind, 2⟩ ∧
      s.renews (binding "S2") = true ∧
      step s ⟨(binding "S2").wake, { interrupts := [true] }⟩ = some s' ∧
      unsent "1" s'.driver.trace = [retirement "1" .forceRebind false]) ∧
    ∃ s s' t sid, Reachable ⟨true, false, false⟩ .default s ∧
      s.driver.pending.get? "1" = some ⟨.destroy, u64Max⟩ ∧
      s.renews (binding sid) = true ∧ step s (binding sid) = some s' ∧
      s'.driver.pending.get? "1" = some ⟨.destroy, u64Max⟩ ∧
      step s' ⟨.line "REQERR,1,20,refused", {}⟩ = some t ∧
      s'.driver.destroyRequested = true ∧ t.driver.destroyRequested = false := by
  refine ⟨⟨_, _, rfl, by decide, by decide, rfl, by decide⟩, ?_⟩
  obtain ⟨sid, trace, hsid, seed, now, inputs, hrun⟩ := reachable_destroying
  have hreach : ∀ {trace' : List Action}, exec step (destroying sid trace) reopening =
        some (reopened (destroying sid trace) trace') →
      Reachable ⟨true, false, false⟩ .default (reopened (destroying sid trace) trace') :=
    fun hs => ⟨seed, now, _, exec_append_eq_some.2 ⟨_, hrun, hs⟩⟩
  rcases hsid with rfl | rfl
  · exact ⟨_, destroying "S2" _, _, "S2", hreach rfl, rfl, rfl, rfl, rfl, rfl, rfl, rfl⟩
  · exact ⟨_, destroying "S1" _, _, "S1", hreach rfl, rfl, rfl, rfl, rfl, rfl, rfl, rfl⟩

end Drive

end Lightstreamer.Session
