import Lightstreamer.Session.Filing

/-!
# One outcome for each message

Four places report what became of a message: `sendMessage` when its request did not leave,
`undoRequest` when the server refuses it, `deliver` when the server tells the outcome, and
`retireOne` when the session it was sent on is replaced. `Owed` follows what the server still owes
for a message, the response to its request and its outcome, and `Accounted` ties it to the driver:
the request is pending as long as the response is due, and one report was made once the outcome is
not. A session that is replaced while only one of the two is due breaks the account: it is reported
twice or never (`message_reported_twice`, `message_unreported`). Without that every message is
reported once (`one_outcome_each`).
-/

namespace Lightstreamer.Session

open Lightstreamer.Foundations Lightstreamer.Protocol

/-- The notification tells the outcome of the message that identifies itself as `who`. -/
def tellsOutcome (who : MessageSequence × Option ℕ) : Notification → Bool
  | .messageDone sequence prog _ | .messageFailed sequence prog _ _ => (sequence, some prog) = who
  | _ => false

/-- The action reports an outcome of the message. -/
def Action.reportsOutcome (who : MessageSequence × Option ℕ) : Action → Bool
  | .event (.message _ sequence prog _) _ => (sequence, prog) = who
  | _ => false

/-- How often an outcome of the message was reported. -/
def reports (who : MessageSequence × Option ℕ) (trace : List Action) : ℕ :=
  trace.countP (Action.reportsOutcome who)

/-! ## What the server owes -/

/-- What the server still owes for a message that was sent. -/
structure Owed where
  response : Bool
  outcome : Bool
  deriving DecidableEq

/-- A message that identifies itself as `who` is sent. -/
def Input.sendsMessage (i : Input) (who : MessageSequence × Option ℕ) : Bool :=
  match i.wake with
  | .command (.sendMessage m) => m.identity = who
  | _ => false

/-- The server refuses the request `id`. -/
def Input.refuses (i : Input) (id : String) : Bool :=
  i.notification.any fun
    | .requestError id' _ _ => id' = id
    | _ => false

/-- The server tells the outcome of the message, in a notification that is counted. -/
def Drive.hearsOutcome (s : Drive) (i : Input) (who : MessageSequence × Option ℕ) : Bool :=
  s.driver.skipRemaining = 0 && i.notification.any (tellsOutcome who)

/-- The server binds a new session. -/
def Drive.renews (s : Drive) (i : Input) : Bool :=
  i.notification.any fun
    | .connectionOk sid .. => (s.driver.conokKind sid).isFresh
    | _ => false

/-- What is owed after an input: a refusal settles both, and a replaced session owes nothing. -/
def owedAfter (id : String) (who : MessageSequence × Option ℕ) (s : Drive) (i : Input) (o : Owed) :
    Owed :=
  match i.notification with
  | some (.requestOk (some id')) => ⟨o.response && id' ≠ id, o.outcome⟩
  | some (.requestError id' _ _) =>
    ⟨o.response && id' ≠ id, o.outcome && !(o.response && id' = id)⟩
  | some (.connectionOk sid ..) =>
    let stays := !(s.driver.conokKind sid).isFresh
    ⟨o.response && stays, o.outcome && stays⟩
  | some n => ⟨o.response, o.outcome && !(s.driver.skipRemaining = 0 && tellsOutcome who n)⟩
  | none => o

/-- What is owed once the command was taken: nothing for a message that was not handed over. -/
def owedFor (d : SessionDriver) (id : String) (who : MessageSequence × Option ℕ) : Owed :=
  let handed : Bool := d.pending.get? id = some ⟨.sendMessage who.1 who.2, d.generation⟩
  ⟨handed, handed⟩

/-- The server tells an outcome, or refuses the request, only while the outcome is due; the caller
does not give the same identity to another message; and no session is replaced while only one of
the two is due. -/
structure Regular (id : String) (who : MessageSequence × Option ℕ) (w : Drive × Owed) (i : Input) :
    Prop where
  unique : i.sendsMessage who = false
  told : w.1.hearsOutcome i who = true → w.2.outcome = true
  refused : i.refuses id = true → w.2.response = true → w.2.outcome = true
  replaced : w.1.renews i = true →
    w.2.response = w.2.outcome ∧ w.1.driver.generation < u64Max

instance (id : String) (who : MessageSequence × Option ℕ) (w : Drive × Owed) (i : Input) :
    Decidable (Regular id who w i) :=
  decidable_of_iff (i.sendsMessage who = false ∧
      (w.1.hearsOutcome i who = true → w.2.outcome = true) ∧
      (i.refuses id = true → w.2.response = true → w.2.outcome = true) ∧
      (w.1.renews i = true → w.2.response = w.2.outcome ∧ w.1.driver.generation < u64Max))
    ⟨fun h => ⟨h.1, h.2.1, h.2.2.1, h.2.2.2⟩,
      fun h => ⟨h.unique, h.told, h.refused, h.replaced⟩⟩

/-! ## Counting reports -/

section reports

variable {who : MessageSequence × Option ℕ} {l l' : List Action}

@[simp] theorem reports_append (l l' : List Action) :
    reports who (l ++ l') = reports who l + reports who l' :=
  List.countP_append

@[simp] theorem reports_singleton (a : Action) :
    reports who [a] = if a.reportsOutcome who then 1 else 0 :=
  List.countP_singleton

theorem reports_of_extends (h : Extends (fun a => a.reportsOutcome who = false) l l') :
    reports who l' = reports who l :=
  h.countP_eq

theorem Action.IsReport.reportsOutcome {a : Action} (h : a.IsReport) :
    a.reportsOutcome who = false := by
  cases a with
  | event e b =>
    cases e with
    | message => cases h
    | _ => rfl
  | _ => rfl

theorem Action.IsLoop.reportsOutcome {a : Action} (h : a.IsLoop) :
    a.reportsOutcome who = false := by
  cases a with
  | event e b =>
    cases e with
    | message => cases h
    | _ => rfl
  | _ => rfl

end reports

namespace SessionDriver

variable {who : MessageSequence × Option ℕ} {id : String} {g base : ℕ} {o : Owed}
  {d d' : SessionDriver}

/-- Retiring a request reports on a message if it is the request of one. -/
theorem reports_retireOne (d : SessionDriver) (id : String) (kind : PendingKind) :
    reports who (d.retireOne id kind).trace =
      reports who d.trace + if kind = .sendMessage who.1 who.2 then 1 else 0 := by
  have hrest : ∀ d : SessionDriver, reports who (d.emit (.controlResponse
      (RequestId.tryNew id).toOption kind.target
      (.notSent "the session the request was issued on was replaced"))).trace =
      reports who d.trace := fun d =>
    reports_of_extends (d.extends_report (fun _ => Action.IsReport.reportsOutcome) trivial)
  unfold retireOne
  rw [hrest]
  cases kind with
  | sendMessage sequence prog =>
    simp [emit, Action.reportsOutcome, Prod.ext_iff]
  | forceRebind => simp
  | _ => simp

theorem reports_retireAll (d : SessionDriver) (l : List (String × Pending)) :
    reports who (d.retireAll l).trace =
      reports who d.trace + l.countP fun p => p.2.kind = .sendMessage who.1 who.2 := by
  induction l generalizing d with
  | nil => rfl
  | cons p l ih =>
    rw [retireAll, ih, reports_retireOne, List.countP_cons]
    simp only [decide_eq_true_eq]
    omega

theorem reports_emit (d : SessionDriver) (e : SessionEvent) :
    reports who (d.emit e).trace =
      reports who d.trace + if (Action.event e true).reportsOutcome who then 1 else 0 := by
  rw [emit, reports_append, reports_singleton]
  cases e <;> rfl

/-- A notification that is passed on reports on a message if it tells its outcome. -/
theorem reports_deliver (d : SessionDriver) (n : Notification) :
    reports who (d.deliver n).trace =
      reports who d.trace + if tellsOutcome who n then 1 else 0 := by
  have hdata : reports who (d.act (.data d.progressive n)).trace = reports who d.trace := by
    simp [Action.reportsOutcome]
  rw [← hdata]
  unfold deliver
  dsimp only
  split
  · exact reports_emit _ _
  · exact reports_emit _ _
  · rename_i hdone hfailed
    have htells : tellsOutcome who n = false := by
      unfold tellsOutcome
      split
      · exact absurd rfl (hdone _ _ _)
      · exact absurd rfl (hfailed _ _ _ _)
      · rfl
    rw [htells, reports_of_extends (notifySubscription_extends _ _ fun _ _ _ _ => rfl)]
    rfl

/-- A data notification reports on a message if it is counted and tells its outcome. -/
theorem reports_onData (d : SessionDriver) (n : Notification) :
    reports who (d.onData n).trace = reports who d.trace +
      if d.skipRemaining = 0 ∧ tellsOutcome who n = true then 1 else 0 := by
  rcases Nat.eq_zero_or_pos d.skipRemaining with hskip | hskip
  · rw [onData_of_no_skip hskip, reports_deliver]
    simp [hskip]
  · rw [onData_of_skip hskip]
    simp [hskip.ne']

/-- The requests that the sessions before the next one leave pending. -/
def stale (d : SessionDriver) : OrdMap String Pending :=
  d.pending.filter fun _ p => p.generation ≠ saturatingAdd u64Max d.generation 1

/-- A new session reports on the messages whose requests are still pending. -/
theorem reports_announced (d : SessionDriver) (sid : SessionId) (limit keepAlive : ℕ)
    (link : Option String) :
    reports who (d.announced sid limit keepAlive link).trace = reports who d.trace +
      if (d.conokKind sid).isFresh then
        d.stale.toList.countP fun p => p.2.kind = .sendMessage who.1 who.2
      else 0 := by
  unfold announced enterSession
  dsimp only
  have hlink : reports who (d.trace ++ [.setControlLink link]) = reports who d.trace := by
    simp [Action.reportsOutcome]
  have hbound : ∀ d' : SessionDriver, reports who (d'.emit (.bound
      ⟨sid, d.conokKind sid, keepAlive, limit, link⟩)).trace = reports who d'.trace := fun d' =>
    reports_emit d' _
  rw [hbound]
  split
  · rw [freshSession, retireStalePending, reports_retireAll, (arrange_perm _ _).countP_eq]
    exact congrArg (· + d.stale.toList.countP _) hlink
  · exact hlink

/-! ## The account of a message -/

/-- The account of a message that was sent under `id` by the session of generation `g`, when `base`
reports had been made for its identity. -/
structure Accounted (id : String) (who : MessageSequence × Option ℕ) (g base : ℕ) (o : Owed)
    (d : SessionDriver) : Prop where
  held : o.response = true → d.pending.get? id = some ⟨.sendMessage who.1 who.2, g⟩
  drawn : o.response = true →
    ∃ k < d.nextRequestId, id = (RequestId.fromProgressive k).text
  only : ∀ id' p, d.pending.get? id' = some p → p.kind = .sendMessage who.1 who.2 →
    id' = id ∧ o.response = true
  current : o.response = true ∨ o.outcome = true → d.generation = g
  count : reports who d.trace + (if o.outcome then 1 else 0) = base + 1

namespace Accounted

/-- Other requests leave the account as it is. -/
theorem of_files {K : PendingKind → Prop} (h : Accounted id who g base o d) (hf : Files K d d')
    (hK : ¬K (.sendMessage who.1 who.2))
    (ht : Extends (fun a => a.reportsOutcome who = false) d.trace d'.trace) :
    Accounted id who g base o d' where
  held := fun hr => by
    obtain ⟨k, hk, rfl⟩ := h.drawn hr
    rw [hf.kept _ fun n hn hid => ?_]
    · exact h.held hr
    · have := RequestId.fromProgressive_text_inj hid
      omega
  drawn := fun hr => by
    obtain ⟨k, hk, hid⟩ := h.drawn hr
    exact ⟨k, hk.trans_le hf.le, hid⟩
  only := fun id' p hp hkind => by
    rcases hf.filed id' p hp with hp | ⟨-, hp⟩
    · exact h.only id' p hp hkind
    · exact absurd (hkind ▸ hp) hK
  current := fun ho => hf.generation.trans (h.current ho)
  count := by rw [reports_of_extends ht, h.count]

/-- What touches neither the table nor the generation leaves the account as it is. -/
theorem of_extends (h : Accounted id who g base o d) (hgeneration : d'.generation = d.generation)
    (hpending : d'.pending = d.pending) (hnext : d'.nextRequestId = d.nextRequestId)
    (ht : Extends (fun a => a.reportsOutcome who = false) d.trace d'.trace) :
    Accounted id who g base o d' :=
  h.of_files (Files.of_eq (K := fun _ => False) hgeneration hpending hnext) (fun h => h) ht

/-- A response takes its request off the table. -/
theorem of_erase (h : Accounted id who g base o d) {id' : String}
    (hgeneration : d'.generation = d.generation) (hpending : d'.pending = d.pending.erase id')
    (hnext : d'.nextRequestId = d.nextRequestId)
    (ht : Extends (fun a => a.reportsOutcome who = false) d.trace d'.trace) :
    Accounted id who g base ⟨o.response && id' ≠ id, o.outcome⟩ d' where
  held := fun hr => by
    simp only [Bool.and_eq_true, decide_eq_true_eq] at hr
    rw [hpending, OrdMap.get?_erase, if_neg (Ne.symm hr.2), h.held hr.1]
  drawn := fun hr => by
    rw [hnext]
    exact h.drawn (Bool.and_elim_left hr)
  only := fun k p hp hkind => by
    rw [hpending, OrdMap.get?_erase] at hp
    split_ifs at hp with hk
    obtain ⟨rfl, hr⟩ := h.only k p hp hkind
    exact ⟨rfl, by simp [hr, Ne.symm hk]⟩
  current := fun ho => hgeneration.trans (h.current (ho.imp_left Bool.and_elim_left))
  count := by rw [reports_of_extends ht, h.count]

/-- The report that was due. -/
theorem of_report (h : Accounted id who g base o d) (ho : o.outcome = true)
    (progressive : Option ℕ) (result : MessageResult) :
    Accounted id who g base ⟨o.response, false⟩
      (d.emit (.message progressive who.1 who.2 result)) where
  held := h.held
  drawn := h.drawn
  only := h.only
  current := fun _ => h.current (.inr ho)
  count := by
    have hcount := h.count
    rw [if_pos ho] at hcount
    rw [reports_emit]
    simpa [Action.reportsOutcome] using hcount

theorem onRequestOk (h : Accounted id who g base o d) (id' : String) :
    Accounted id who g base ⟨o.response && id' ≠ id, o.outcome⟩ (d.onRequestOk (some id')) :=
  h.of_erase (by simp) (by simp [SessionDriver.onRequestOk])
    (by simp [SessionDriver.onRequestOk])
    (d.onRequestOk_extends (fun _ => Action.IsReport.reportsOutcome) _)

/-- A refusal reports on the message whose request it names. -/
theorem onRequestError (h : Accounted id who g base o d) (id' : String) (cause : ServerCause)
    (hdue : id' = id → o.response = true → o.outcome = true) :
    Accounted id who g base
      ⟨o.response && id' ≠ id, o.outcome && !(o.response && id' = id)⟩
      (d.onRequestError id' cause) := by
  have hgeneration : (d.onRequestError id' cause).generation = d.generation := by
    rw [onRequestError_toLifecycle]
  by_cases hown : id' = id ∧ o.response = true
  · obtain ⟨rfl, hr⟩ := hown
    have htaken : (d.takePending id').1 = some (.sendMessage who.1 who.2) := by
      rw [takePending_eq_some, h.current (.inl hr), h.held hr]
    have htake : Accounted id' who g base ⟨o.response && id' ≠ id', o.outcome⟩
        (d.takePending id').2 :=
      h.of_erase (by simp) (by simp) (by simp) (by simp)
    have hreport := htake.of_report (hdue rfl hr) none (.refused cause)
    have heq : (⟨o.response && id' ≠ id', o.outcome && !(o.response && id' = id')⟩ : Owed) =
        ⟨o.response && id' ≠ id', false⟩ := by simp [hr]
    rw [heq, SessionDriver.onRequestError, htaken]
    exact hreport.of_extends rfl rfl rfl
      (extends_report _ (fun _ => Action.IsReport.reportsOutcome) trivial)
  · have hother : (o.outcome && !(o.response && id' = id)) = o.outcome := by
      have hfalse : (o.response && decide (id' = id)) = false := by
        rw [Bool.eq_false_iff]
        intro hand
        simp only [Bool.and_eq_true, decide_eq_true_eq] at hand
        exact hown ⟨hand.2, hand.1⟩
      rw [hfalse, Bool.not_false, Bool.and_true]
    rw [hother]
    refine h.of_erase hgeneration (by simp [SessionDriver.onRequestError])
      (by simp [SessionDriver.onRequestError])
      (d.onRequestError_extends (fun _ => Action.IsReport.reportsOutcome) _ _
        fun sequence prog b hkind => ?_)
    have hne : (sequence, prog) ≠ who := by
      rintro rfl
      exact hown (h.only _ _ (takePending_eq_some.1 hkind) rfl)
    simp [Action.reportsOutcome, hne]

/-- A counted notification of the outcome is the report that was due. -/
theorem onData (h : Accounted id who g base o d) (n : Notification)
    (hdue : d.skipRemaining = 0 → tellsOutcome who n = true → o.outcome = true) :
    Accounted id who g base
      ⟨o.response, o.outcome && !(d.skipRemaining = 0 && tellsOutcome who n)⟩ (d.onData n) where
  held := fun hr => by rw [onData_pending, h.held hr]
  drawn := fun hr => by
    rw [onData_nextRequestId]
    exact h.drawn hr
  only := fun k p hp => by
    rw [onData_pending] at hp
    exact h.only k p hp
  current := fun ho => by
    rw [onData_toLifecycle]
    exact h.current (ho.imp_right Bool.and_elim_left)
  count := by
    have hcount := h.count
    rw [reports_onData]
    by_cases htold : d.skipRemaining = 0 ∧ tellsOutcome who n = true
    · rw [hdue htold.1 htold.2] at hcount
      simpa [htold] using hcount
    · have hfalse : (decide (d.skipRemaining = 0) && tellsOutcome who n) = false := by
        rw [Bool.eq_false_iff]
        simpa using htold
      rw [if_neg htold, hfalse]
      simpa using hcount

/-- A new session reports on the message if its request is pending. -/
theorem announced (h : Accounted id who g base o d) (sid : SessionId) (limit keepAlive : ℕ)
    (link : Option String) (hdue : (d.conokKind sid).isFresh = true →
      o.response = o.outcome ∧ d.generation < u64Max) :
    Accounted id who g base
      ⟨o.response && !(d.conokKind sid).isFresh, o.outcome && !(d.conokKind sid).isFresh⟩
      (d.announced sid limit keepAlive link) := by
  have hpending := announced_pending d sid limit keepAlive link
  have hgeneration := announced_generation d sid limit keepAlive link
  have hreports := @reports_announced who d sid limit keepAlive link
  by_cases hfresh : (d.conokKind sid).isFresh = true
  · obtain ⟨hsame, hlt⟩ := hdue hfresh
    rw [if_pos hfresh] at hpending hgeneration hreports
    have hnext : saturatingAdd u64Max d.generation 1 = d.generation + 1 := by
      unfold saturatingAdd
      omega
    have hnone : ∀ k p, (d.announced sid limit keepAlive link).pending.get? k = some p →
        p.kind ≠ .sendMessage who.1 who.2 := by
      -- the request was issued by the session before, so it did not stay
      intro k p hp hkind
      rw [hpending, OrdMap.get?_filter, Option.filter_eq_some_iff, hnext] at hp
      obtain ⟨rfl, hr⟩ := h.only k p hp.1 hkind
      have hg := h.current (.inl hr)
      obtain rfl := Option.some.inj (hp.1.symm.trans (h.held hr))
      have hp2 := of_decide_eq_true hp.2
      dsimp only at hp2
      omega
    have hstale : (d.stale.toList.countP fun p => p.2.kind = .sendMessage who.1 who.2) =
        if o.outcome then 1 else 0 := by
      rw [← hsame]
      split_ifs with hr
      · refine OrdMap.countP_toList_eq_one (k := id) (v := ⟨.sendMessage who.1 who.2, g⟩) ?_
          (by simp) fun k p hp hkind => ?_
        · have hg := h.current (.inl hr)
          rw [stale, OrdMap.get?_filter, h.held hr, hnext, ← hg]
          simp
        · rw [stale, OrdMap.get?_filter, Option.filter_eq_some_iff] at hp
          exact (h.only k p hp.1 (of_decide_eq_true hkind)).1
      · rw [List.countP_eq_zero]
        rintro ⟨k, p⟩ hp hkind
        rw [OrdMap.mem_toList_iff, stale, OrdMap.get?_filter, Option.filter_eq_some_iff] at hp
        exact hr (h.only k p hp.1 (of_decide_eq_true hkind)).2
    rw [hfresh]
    refine ⟨by simp, by simp, fun k p hp hkind => absurd hkind (hnone k p hp), by simp, ?_⟩
    rw [hreports, hstale, h.count]
    simp
  · rw [if_neg hfresh] at hpending hgeneration hreports
    rw [Bool.not_eq_true] at hfresh
    rw [hfresh]
    simp only [Bool.not_false, Bool.and_true]
    refine ⟨fun hr => ?_, fun hr => ?_, fun k p hp => ?_, fun ho => ?_, ?_⟩
    · rw [hpending, h.held hr]
    · rw [SessionDriver.announced, emit_toDesk, enterSession_nextRequestId]
      exact h.drawn hr
    · rw [hpending] at hp
      exact h.only k p hp
    · rw [hgeneration, h.current ho]
    · rw [hreports, Nat.add_zero, h.count]

theorem onConok (h : Accounted id who g base o d) (sid : SessionId) (limit keepAlive : ℕ)
    (link : Option String) (hdue : (d.conokKind sid).isFresh = true →
      o.response = o.outcome ∧ d.generation < u64Max) :
    Accounted id who g base
      ⟨o.response && !(d.conokKind sid).isFresh, o.outcome && !(d.conokKind sid).isFresh⟩
      (d.onConok sid limit keepAlive link) := by
  refine (h.announced sid limit keepAlive link hdue).of_files
    (issueUnboundSubscriptions_files (K := fun kind => ∃ key, kind = .subscribe key) _
      fun key _ => ⟨key, rfl⟩) (by rintro ⟨key, hkey⟩; cases hkey)
    (issueUnboundSubscriptions_extends _ (fun _ => Action.IsReport.reportsOutcome)
      fun _ _ _ _ _ => rfl)

end Accounted

namespace Accounted

/-- A command that sends another message, or none, leaves the account as it is. -/
theorem onCommand (h : Accounted id who g base o d) {c : SessionCommand}
    (hc : ∀ m, c = .sendMessage m → m.identity ≠ who) :
    Accounted id who g base o (d.onCommand c).2 := by
  refine h.of_files (onCommand_files (K := fun kind => kind ≠ .sendMessage who.1 who.2) d c ?_)
    (fun hK => hK rfl) (d.onCommand_extends (fun _ => Action.IsReport.reportsOutcome) c
      (fun _ _ _ _ => rfl) fun m reason b hm => ?_)
  · rintro kind hkind rfl
    cases c with
    | sendMessage m =>
      simp only [SessionCommand.kind, Option.some.injEq, PendingKind.sendMessage.injEq] at hkind
      exact hc m rfl (Prod.ext hkind.1 hkind.2)
    | _ => cases hkind
  · simpa [Action.reportsOutcome] using hc m hm

/-- The loop around the stream connections leaves the account as it is. -/
theorem loop (h : Accounted id who g base o d) {s : Drive} (hs : Drive.SameDesk d s)
    (hgeneration : s.driver.generation = d.generation)
    (ht : Extends Action.IsLoop d.trace s.driver.trace) :
    Accounted id who g base o s.driver :=
  h.of_extends hgeneration hs.pending hs.nextRequestId
    (ht.mono fun _ => Action.IsLoop.reportsOutcome)

theorem onTimer (h : Accounted id who g base o d) : Accounted id who g base o d.onTimer.2 := by
  obtain ⟨failures, hl⟩ := d.onTimer_toLifecycle
  exact h.of_extends (by rw [hl]) (by simp) (by simp) (d.onTimer_extends fun _ _ _ => rfl)

end Accounted

/-! ## The account opens -/

/-- A message that was not handed over was reported at once. -/
theorem Accounted.of_unsent (hnew : ∀ k p, d.pending.get? k = some p →
      p.kind ≠ .sendMessage who.1 who.2)
    (hsub : ∀ k p, d'.pending.get? k = some p → d.pending.get? k = some p)
    (hreports : reports who d'.trace = reports who d.trace + 1) :
    Accounted id who g (reports who d.trace) (owedFor d' id who) d' := by
  have howed : owedFor d' id who = ⟨false, false⟩ := by
    have hne : d'.pending.get? id ≠ some ⟨.sendMessage who.1 who.2, d'.generation⟩ :=
      fun h => hnew _ _ (hsub _ _ h) rfl
    simp [owedFor, hne]
  rw [howed]
  exact ⟨by simp, by simp, fun k p hp hkind => absurd hkind (hnew k p (hsub k p hp)), by simp,
    hreports⟩

/-- A message that was handed over is owed a response and an outcome. -/
theorem Accounted.of_sent (hnew : ∀ k p, d.pending.get? k = some p →
      p.kind ≠ .sendMessage who.1 who.2)
    (hgeneration : d'.generation = d.generation)
    (hpending : d'.pending = d.pending.insert id ⟨.sendMessage who.1 who.2, d.generation⟩)
    (hdrawn : ∃ k < d'.nextRequestId, id = (RequestId.fromProgressive k).text)
    (hreports : reports who d'.trace = reports who d.trace) :
    Accounted id who d.generation (reports who d.trace) (owedFor d' id who) d' := by
  have hheld : d'.pending.get? id = some ⟨.sendMessage who.1 who.2, d'.generation⟩ := by
    rw [hpending, hgeneration, OrdMap.get?_insert, if_pos rfl]
  have howed : owedFor d' id who = ⟨true, true⟩ := by simp [owedFor, hheld]
  rw [howed]
  refine ⟨fun _ => hgeneration ▸ hheld, fun _ => hdrawn, fun k p hp hkind => ?_,
    fun _ => hgeneration, by simp [hreports]⟩
  rw [hpending, OrdMap.get?_insert] at hp
  split_ifs at hp with hk
  · exact ⟨hk, rfl⟩
  · exact absurd hkind (hnew k p hp)

/-- Sending a message opens its account. -/
theorem sendMessage_accounted {m : OutgoingMessage} (hnew : ∀ k p, d.pending.get? k = some p →
      p.kind ≠ .sendMessage m.identity.1 m.identity.2) :
    Accounted (RequestId.fromProgressive d.nextRequestId).text m.identity d.generation
      (reports m.identity d.trace)
      (owedFor (d.sendMessage m) (RequestId.fromProgressive d.nextRequestId).text m.identity)
      (d.sendMessage m) := by
  have hnotSent : ∀ (d' : SessionDriver) (reason : String),
      reports m.identity d'.trace = reports m.identity d.trace →
      reports m.identity (d'.emit
        (.message none m.identity.1 m.identity.2 (.notSent reason))).trace =
        reports m.identity d.trace + 1 := fun d' reason hd' => by
    simp [reports_emit, Action.reportsOutcome, hd']
  have hreport : ∀ (d' : SessionDriver) (e : SessionEvent), e.IsReport →
      reports m.identity (d'.emit e).trace = reports m.identity d'.trace := fun d' e he =>
    reports_of_extends (d'.extends_report (fun _ => Action.IsReport.reportsOutcome) he)
  unfold sendMessage
  dsimp only
  split
  · cases htake : d.takeRequestId with
    | none =>
      exact .of_unsent hnew (fun _ _ h => h) (hnotSent _ _ (hreport d _ trivial))
    | some taken =>
      obtain ⟨rid, d₁⟩ := taken
      obtain ⟨-, rfl, rfl⟩ := takeRequestId_eq_some htake
      dsimp only
      obtain ⟨error, d', hd, rfl⟩ | ⟨ps, d', hd, hl, -, hp, hn, -, ht⟩ |
          ⟨ps, error, b, d', hd, hl, -, hp, hn, -, ht⟩ :=
        dispatch_cases { d with nextRequestId := d.nextRequestId + 1 } _
          (.fromProgressive d.nextRequestId) (.sendMessage m.identity.1 m.identity.2) <;>
        rw [hd]
      · rw [if_neg Bool.false_ne_true]
        exact .of_unsent hnew (fun _ _ h => h) (hnotSent _ _ (hreport _ _ trivial))
      · rw [if_pos rfl]
        refine .of_sent hnew (by rw [hl]) hp ⟨d.nextRequestId, ?_, rfl⟩ ?_
        · rw [hn]
          exact Nat.lt_succ_self _
        · rw [ht]
          simp [Action.reportsOutcome]
      · rw [if_neg Bool.false_ne_true]
        refine .of_unsent hnew (fun k p h => ?_) (hnotSent _ _ ?_)
        · rw [emit_toDesk, hp, OrdMap.get?_erase, OrdMap.get?_insert] at h
          split_ifs at h
          exact h
        · rw [ht, reports_append]
          rfl
  · exact .of_unsent hnew (fun _ _ h => h) (hnotSent d _ rfl)

end SessionDriver

namespace Drive

open SessionDriver

variable {who : MessageSequence × Option ℕ} {id : String} {g base : ℕ} {o : Owed}
  {s s' : Drive} {i : Input}

theorem owedAfter_of_none (hn : i.notification = none) : owedAfter id who s i o = o := by
  rw [owedAfter, hn]

/-- What a line changes in what is owed, it changes in the account. -/
theorem onNotification_accounted {n : Notification}
    (h : Accounted id who g base o (s.driver.withTurn i.turn).heard)
    (hn : i.notification = some n) (hreg : Regular id who (s, o) i) :
    Accounted id who g base (owedAfter id who s i o)
      ((s.driver.withTurn i.turn).heard.onNotification n).2 := by
  let d := (s.driver.withTurn i.turn).heard
  have hP : ∀ a : Action, a.IsReport → a.reportsOutcome who = false :=
    fun _ => Action.IsReport.reportsOutcome
  have hquiet : ∀ {d' : SessionDriver}, owedAfter id who s i o = o →
      d'.generation = d.generation → d'.pending = d.pending →
      d'.nextRequestId = d.nextRequestId →
      Extends (fun a => a.reportsOutcome who = false) d.trace d'.trace →
      Accounted id who g base (owedAfter id who s i o) d' := fun ho hg hp hnext ht =>
    ho.symm ▸ h.of_extends hg hp hnext ht
  cases n with
  | connectionOk sid limit millis link =>
    rw [owedAfter, hn]
    refine h.onConok sid limit _ link fun hfresh => hreg.replaced ?_
    rw [renews, hn]
    exact hfresh
  | requestOk id' =>
    cases id' with
    | none => exact hquiet (by simp [owedAfter, hn, tellsOutcome]) rfl rfl rfl (.refl _ _)
    | some id' =>
      rw [owedAfter, hn]
      exact h.onRequestOk id'
  | requestError id' code message =>
    rw [owedAfter, hn]
    exact h.onRequestError id' _ fun hid => hreg.refused (by simp [Input.refuses, hn, hid])
  | connectionError code message =>
    refine hquiet (by simp [owedAfter, hn, tellsOutcome]) (onNotification_steady rfl).generation
      ?_ ?_ ?_ <;> simp [onNotification, d]
  | «end» code message =>
    refine hquiet (by simp [owedAfter, hn, tellsOutcome]) (onNotification_steady rfl).generation
      ?_ ?_ ?_ <;> simp [onNotification, d]
  | loop millis =>
    refine hquiet (by simp [owedAfter, hn, tellsOutcome]) (onNotification_steady rfl).generation
      ?_ ?_ ?_ <;> simp [onNotification, d]
  | progressive n =>
    refine hquiet (by simp [owedAfter, hn, tellsOutcome]) (onNotification_steady rfl).generation
      ?_ ?_ (d.onProg_extends hP n) <;> simp [onNotification, d]
  | probe | noOp | wsOk =>
    exact hquiet (by simp [owedAfter, hn, tellsOutcome]) rfl rfl rfl (.refl _ _)
  | error | sync | clientIp | serverName | constraintsChanged =>
    exact hquiet (by simp [owedAfter, hn, tellsOutcome]) rfl rfl rfl (d.extends_report hP trivial)
  | _ =>
    rw [owedAfter, hn]
    refine h.onData _ fun hskip htells => hreg.told ?_
    have hzero : s.driver.skipRemaining = 0 := hskip
    rw [hearsOutcome, hn, hzero]
    exact htells

/-- **A turn keeps the account of a message** when it is regular for it. -/
theorem step_accounted (h : Accounted id who g base o s.driver) (hreg : Regular id who (s, o) i)
    (hstep : step s i = some s') :
    Accounted id who g base (owedAfter id who s i o) s'.driver := by
  have hturn : Accounted id who g base o (s.driver.withTurn i.turn) :=
    h.of_extends rfl rfl rfl (.refl _ _)
  have hpump : ∀ {o : Owed} {r : Flow × SessionDriver}, Accounted id who g base o r.2 →
      Accounted id who g base o (afterPump r).driver := fun {o r} hr =>
    hr.loop (afterPump_sameDesk r) (afterPump_sameSession r).generation
      (afterPump_extends (fun _ h => h) r)
  have hsilent : ∀ {d : SessionDriver}, (∀ text, i.wake ≠ .line text) →
      Accounted id who g base o d → Accounted id who g base (owedAfter id who s i o) d :=
    fun {d} hw hd => by
      have hn : i.notification = none := by
        unfold Input.notification
        split
        · rename_i text htext
          exact absurd htext (hw text)
        · rfl
      rwa [owedAfter_of_none hn]
  have hcommand : ∀ c, i.wake = .command c →
      Accounted id who g base o ((s.driver.withTurn i.turn).onCommand c).2 := fun c hw =>
    hturn.onCommand fun m hm => by
      have := hreg.unique
      simpa [Input.sendsMessage, hw, hm] using this
  cases step_turns hstep with
  | waitCommand next c _ hw =>
    refine hsilent (by simp [hw]) ((hcommand c hw).loop (.of_toDesk (afterWait_toDesk next _))
      (afterWait_sameSession next _).generation (afterWait_extends (fun _ h => h) next _))
  | waitOver next _ hw =>
    exact hsilent (by simp [hw]) (hturn.loop (.of_toDesk rfl) rfl (.one trivial _))
  | waitStop _ _ hw | openStop _ hw =>
    refine hsilent (by rcases hw with hw | hw <;> simp [hw])
      (hturn.loop (.of_toDesk rfl) rfl (finish_extends _ (fun _ h => h) _))
  | opened _ hw => exact hsilent (by simp [hw]) (hturn.of_extends rfl rfl rfl (.refl _ _))
  | openFailed detail _ hw =>
    refine hsilent (by rcases hw with hw | ⟨hw, -⟩ <;> simp [hw])
      (hturn.loop (unbind_sameDesk _ _) (unbind_sameSession _ _).generation
        (unbind_extends _ (fun _ h => h) _))
  | line text _ hw =>
    cases hp : parseLine text with
    | error e =>
      have hn : i.notification = none := by simp [Input.notification, hw, hp, Except.toOption]
      rw [onLine_of_error _ hp, owedAfter_of_none hn]
      exact hpump (hturn.of_extends rfl rfl rfl
        (extends_report _ (fun _ => Action.IsReport.reportsOutcome) trivial))
    | ok n =>
      rw [onLine_of_ok _ hp]
      exact hpump (onNotification_accounted (hturn.of_extends rfl rfl rfl (.refl _ _))
        (Input.notification_of_line hw hp) hreg)
  | command c _ hw => exact hsilent (by simp [hw]) (hpump (hcommand c hw))
  | timer _ hw => exact hsilent (by simp [hw]) (hpump hturn.onTimer)
  | interrupted flow _ hw =>
    refine hsilent (fun text htext => ?_) (hpump hturn)
    simp [Interrupted, htext] at hw

/-- The turn that takes a message. -/
theorem sendMessage_turn {m : OutgoingMessage} {turn : Turn}
    (hnew : ∀ k p, s.driver.pending.get? k = some p →
      p.kind ≠ .sendMessage m.identity.1 m.identity.2)
    (hstep : step s ⟨.command (.sendMessage m), turn⟩ = some s') :
    Accounted (RequestId.fromProgressive s.driver.nextRequestId).text m.identity
      s.driver.generation (reports m.identity s.driver.trace)
      (owedFor s'.driver (RequestId.fromProgressive s.driver.nextRequestId).text m.identity)
      s'.driver := by
  have hsent := sendMessage_accounted (d := s.driver.withTurn turn) hnew
  have hloop : ∀ {t : Drive}, SameDesk ((s.driver.withTurn turn).sendMessage m) t →
      t.driver.generation = ((s.driver.withTurn turn).sendMessage m).generation →
      Extends Action.IsLoop ((s.driver.withTurn turn).sendMessage m).trace t.driver.trace →
      Accounted (RequestId.fromProgressive s.driver.nextRequestId).text m.identity
        s.driver.generation (reports m.identity s.driver.trace)
        (owedFor t.driver (RequestId.fromProgressive s.driver.nextRequestId).text m.identity)
        t.driver := fun {t} hs hg ht => by
    rw [owedFor, hs.pending, hg]
    exact hsent.loop hs hg ht
  cases step_turns hstep with
  | waitCommand next c _ hw =>
    cases hw
    exact hloop (.of_toDesk (afterWait_toDesk next _)) (afterWait_sameSession next _).generation
      (afterWait_extends (fun _ h => h) next _)
  | command c _ hw =>
    cases hw
    let r : Flow × SessionDriver := (s.driver.withTurn turn).onCommand (.sendMessage m)
    exact hloop (afterPump_sameDesk r) (afterPump_sameSession r).generation
      (afterPump_extends (fun _ h => h) r)
  | waitOver _ _ hw | opened _ hw | line _ _ hw | timer _ hw => cases hw
  | waitStop _ _ hw | openStop _ hw => rcases hw with hw | hw <;> cases hw
  | openFailed _ _ hw => rcases hw with hw | ⟨hw, -⟩ <;> cases hw
  | interrupted _ _ hw => rcases hw with ⟨_, hw, -⟩ | ⟨hw, -⟩ | ⟨hw | hw, -⟩ <;> cases hw

/-- **One outcome for each message.** After a message was sent, at most one outcome is reported for
it, and exactly one once the session that carried it has been replaced. -/
theorem one_outcome_each {s s' t : Drive} {m : OutgoingMessage} {turn : Turn}
    {inputs : List Input} {id : String}
    (hid : id = (RequestId.fromProgressive s.driver.nextRequestId).text)
    (hnew : ∀ k p, s.driver.pending.get? k = some p →
      p.kind ≠ .sendMessage m.identity.1 m.identity.2)
    (hsend : step s ⟨.command (.sendMessage m), turn⟩ = some s')
    (hregular : Guarded (watch step (owedAfter id m.identity)) (Regular id m.identity)
      (s', owedFor s'.driver id m.identity) inputs)
    (hrun : exec step s' inputs = some t) :
    reports m.identity t.driver.trace ≤ reports m.identity s.driver.trace + 1 ∧
      (t.driver.generation ≠ s.driver.generation →
        reports m.identity t.driver.trace = reports m.identity s.driver.trace + 1) := by
  subst hid
  obtain ⟨o, hwatch⟩ := exec_watch (owedAfter _ m.identity) (owedFor s'.driver _ m.identity) hrun
  have haccount := exec_invariant
    (I := fun w => Accounted _ m.identity s.driver.generation (reports m.identity s.driver.trace)
      w.2 w.1.driver)
    (fun w i w' hw hG hstep => by
      obtain ⟨s, o⟩ := w
      obtain ⟨u, hu, rfl⟩ := Option.map_eq_some_iff.1 hstep
      exact step_accounted hw hG hu)
    (sendMessage_turn hnew hsend) hregular hwatch
  have hcount := haccount.count
  refine ⟨by dsimp only at hcount; omega, fun hreplaced => ?_⟩
  have hsettled : o.outcome ≠ true := fun ho => hreplaced (haccount.current (.inr ho))
  rwa [if_neg hsettled, Nat.add_zero] at hcount

/-- A message that asks for its outcome. -/
def greeting : OutgoingMessage := ⟨"hello", none, some ⟨1, by decide, by decide⟩, none, none⟩

/-- A bound session. -/
def greetable : List Input := [⟨.opened, {}⟩, ⟨.line "CONOK,S1,50000,5000,*", {}⟩]

/-- The session expires, and a new one replaces it. -/
def expiring : List Input :=
  [⟨.line "END,48,expired", {}⟩, ⟨.opened, {}⟩, ⟨.line "CONOK,S2,50000,5000,*", {}⟩]

theorem one_outcome_each_greeting :
    ∃ s s' t, exec step (start ⟨true, false, false⟩ .default 1 0) greetable = some s ∧
      step s ⟨.command (.sendMessage greeting), {}⟩ = some s' ∧
      exec step s' (⟨.line "MSGDONE,*,1,", {}⟩ :: ⟨.line "REQOK,1", {}⟩ :: expiring) = some t ∧
      t.driver.generation ≠ s.driver.generation ∧
      reports greeting.identity t.driver.trace = reports greeting.identity s.driver.trace + 1 := by
  obtain ⟨s, s', t, hs, hsend, hrun, hid, hpending, hregular, hreplaced⟩ : ∃ s s' t,
      exec step (start ⟨true, false, false⟩ .default 1 0) greetable = some s ∧
      step s ⟨.command (.sendMessage greeting), {}⟩ = some s' ∧
      exec step s' (⟨.line "MSGDONE,*,1,", {}⟩ :: ⟨.line "REQOK,1", {}⟩ :: expiring) = some t ∧
      "1" = (RequestId.fromProgressive s.driver.nextRequestId).text ∧
      s.driver.pending = .empty ∧
      Guarded (watch step (owedAfter "1" greeting.identity)) (Regular "1" greeting.identity)
        (s', owedFor s'.driver "1" greeting.identity)
        (⟨.line "MSGDONE,*,1,", {}⟩ :: ⟨.line "REQOK,1", {}⟩ :: expiring) ∧
      t.driver.generation ≠ s.driver.generation :=
    ⟨_, _, _, rfl, rfl, rfl, by decide, rfl, by decide, by decide⟩
  refine ⟨s, s', t, hs, hsend, hrun, hreplaced, (one_outcome_each hid (fun k p hp => ?_) hsend
    hregular hrun).2 hreplaced⟩
  rw [hpending] at hp
  cases hp

/-- **Messages misreported.** A message whose response is lost with the session that told its
outcome is reported twice; one whose request was accepted, and whose outcome is lost with its
session, is never reported; and one that the server received although the send failed is reported
twice. -/
theorem message_misreported :
    ∃ s, exec step (start ⟨true, false, false⟩ .default 1 0) greetable = some s ∧
      (∃ t, exec step s (⟨.command (.sendMessage greeting), {}⟩ :: ⟨.line "MSGDONE,*,1,", {}⟩ ::
        expiring) = some t ∧ reports greeting.identity t.driver.trace = 2) ∧
      (∃ t, exec step s (⟨.command (.sendMessage greeting), {}⟩ :: ⟨.line "REQOK,1", {}⟩ ::
        expiring) = some t ∧ t.driver.generation ≠ s.driver.generation ∧
        reports greeting.identity t.driver.trace = 0) ∧
      ∃ t, exec step s [⟨.command (.sendMessage greeting), { sends := [some "timed out"] }⟩,
        ⟨.line "MSGDONE,*,1,", {}⟩] = some t ∧ reports greeting.identity t.driver.trace = 2 :=
  ⟨_, rfl, ⟨_, rfl, by decide⟩, ⟨_, rfl, by decide, by decide⟩, _, rfl, by decide⟩

end Drive

end Lightstreamer.Session
