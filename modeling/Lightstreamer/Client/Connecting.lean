import Lightstreamer.Client.Streams
import Mathlib.Data.List.TakeWhile

/-!
# What `connect` and the stream of the session are told

Over any run of a client's tasks, `connect` is told the first bind or the end, whichever the router
takes first, and the stream of the session has been given what the events that the router delivered
announce. Until `connect` has returned nobody holds that stream, so `connect` takes events off it
and stages as many as the stream may hold: what it takes beyond that is lost to the caller, and all
that it takes, but the last, came before the first bind or the end (`session_events`).
-/

namespace Lightstreamer.Client

open Lightstreamer.Foundations Lightstreamer.Protocol Lightstreamer.Subscription
open Lightstreamer.Session hiding SessionEvent

namespace Tasks

variable {w w' : Tasks} {move : Move}

/-- What an event of the session says to the stream of the session, apart from the refusal of a
subscription that has no stream any more. -/
def announces : Session.SessionEvent → Option SessionEvent
  | .bound info => some (.connected info)
  | .recovered outcome => some (.recovered outcome)
  | .resubscribed entries => some (.resubscribed entries)
  | .unbound reason retryIn => some (.disconnected reason retryIn)
  | .message _ sequence prog result => some (.message sequence prog result)
  | .subscription .. => none
  | .controlResponse _ .session outcome => Router.controlFailure outcome
  | .controlResponse _ (.subscription _ .subscribe) _ => none
  | .controlResponse _ (.subscription _ _) outcome => Router.controlFailure outcome
  | .serverInfo announcement => some (.serverInfo announcement)
  | .unparsed line _ => some (.unrecognized line)
  | .closed closed => some (.closed closed)

/-- What an event of the session says to the caller of `connect`. -/
def settles : Session.SessionEvent → Option (Except ConnectError BoundInfo)
  | .bound info => some (.ok info)
  | .closed closed => some (.error (.closed closed))
  | _ => none

/-- Everything but refusals. -/
def notRefusal : SessionEvent → Bool
  | .requestRejected _ => false
  | _ => true

/-- What was announced, without the refusals. -/
def announced (events : List Session.SessionEvent) : List SessionEvent :=
  (events.filterMap announces).filter notRefusal

/-- The events before the one that settles what `connect` is told. -/
def unsettled (events : List Session.SessionEvent) : List Session.SessionEvent :=
  events.takeWhile fun event => (settles event).isNone

theorem announced_isInitial {heard more : List Session.SessionEvent} (h : heard <+: more) :
    announced heard <+: announced more :=
  (h.filterMap _).filter _

theorem unsettled_isInitial (heard more : List Session.SessionEvent) :
    unsettled heard <+: unsettled (heard ++ more) := by
  unfold unsettled
  rw [List.takeWhile_append]
  split_ifs
  · exact (List.takeWhile_prefix _).trans (List.prefix_append _ _)
  · exact List.prefix_refl _

theorem unsettled_of_unsettled {heard : List Session.SessionEvent}
    (h : (heard.filterMap settles).head? = none) : unsettled heard = heard := by
  refine List.takeWhile_eq_self_iff.2 fun event hevent => ?_
  rw [List.head?_eq_none_iff, List.filterMap_eq_nil_iff] at h
  rw [h event hevent]
  rfl

/-! ## The router's part -/

/-- What the callers of `connect` and the stream of the session see of the router. -/
def front (r : Router) :
    Bool × Channel SessionEvent × Bool × Option (Except ConnectError BoundInfo) :=
  (r.sessionOut, r.session, r.ready, r.outcome)

/-- What the front shows after a history of events and what was delivered of it. -/
structure Shows (r : Router) (routing : Bool) (heard delivered : List Session.SessionEvent) :
    Prop where
  outcome : r.outcome = (heard.filterMap settles).head?.or
    (if routing then none else some (.error .disconnected))
  ready : r.ready = r.outcome.isNone
  forwards : r.session.dropped = false → r.sessionOut = true
  given : r.session.events.filter notRefusal <+: announced delivered
  exact : r.session.dropped = false →
    r.session.events.filter notRefusal = announced delivered

theorem Shows.of_front {r r' : Router} {routing : Bool}
    {heard delivered : List Session.SessionEvent} (h : Shows r routing heard delivered)
    (hfront : front r' = front r) : Shows r' routing heard delivered := by
  simp only [front, Prod.mk.injEq] at hfront
  obtain ⟨hout, hsession, hready, houtcome⟩ := hfront
  exact ⟨houtcome ▸ h.outcome, hready ▸ houtcome ▸ h.ready, hsession ▸ hout ▸ h.forwards,
    hsession ▸ h.given, hsession ▸ h.exact⟩

/-- Nobody holds the stream of the session any more. -/
theorem Shows.close {r : Router} {routing : Bool} {heard delivered : List Session.SessionEvent}
    (h : Shows r routing heard delivered) :
    Shows { r with session := { r.session with dropped := true } } routing heard delivered :=
  ⟨h.outcome, h.ready, (by cases ·), h.given, (by cases ·)⟩

/-- The stream of the session after it was told something, or nothing. -/
def saidTo (r : Router) : Option SessionEvent → Bool × Channel SessionEvent
  | none => (r.sessionOut, r.session)
  | some event => ((r.emit event).sessionOut, (r.emit event).session)

theorem saidTo_of_dropped {r : Router} (h : r.session.dropped = true) (said : Option SessionEvent) :
    (saidTo r said).2 = r.session := by
  cases said with
  | none => rfl
  | some event =>
    simp only [saidTo, Router.emit, Channel.deliver, h, if_true]
    split_ifs <;> rfl

theorem saidTo_of_held {r : Router} (h : r.session.dropped = false) (hout : r.sessionOut = true)
    (said : Option SessionEvent) : saidTo r said =
      (true, ⟨r.session.events ++ if r.stop then [] else said.toList, false⟩) := by
  have hsession : r.session = ⟨r.session.events, false⟩ := congrArg (Channel.mk _) h
  cases said with
  | none => cases r.stop <;> simp [saidTo, hout, ← hsession]
  | some event =>
    cases hstop : r.stop <;>
      simp [saidTo, Router.emit, Channel.deliver, h, hout, hstop, ← hsession]

/-- What the router's turn does to the stream of the session. -/
theorem onSessionEvent_session (r : Router) (event : Session.SessionEvent) :
    ∃ said, ((r.onSessionEvent event).2.sessionOut, (r.onSessionEvent event).2.session) =
        saidTo r said ∧
      said.toList.filter notRefusal = (announces event).toList.filter notRefusal := by
  cases event with
  | subscription p k outcome =>
    refine ⟨none, ?_, rfl⟩
    simp only [Router.onSessionEvent, Router.route, saidTo]
    split
    · rfl
    · split_ifs <;> rfl
  | controlResponse id target outcome =>
    cases target with
    | session =>
      refine ⟨Router.controlFailure outcome, ?_, rfl⟩
      cases outcome <;> rfl
    | subscription k operation =>
      cases operation with
      | subscribe =>
        cases outcome with
        | accepted => exact ⟨none, rfl, rfl⟩
        | notSent reason =>
          refine ⟨none, ?_, rfl⟩
          simp only [Router.onSessionEvent, Router.onControlResponse, Router.notify, saidTo]
          split <;> rfl
        | rejected cause =>
          simp only [Router.onSessionEvent, Router.onControlResponse]
          split
          · exact ⟨none, rfl, rfl⟩
          · exact ⟨some (.requestRejected cause), rfl, rfl⟩
      | unsubscribe | reconfigure =>
        refine ⟨Router.controlFailure outcome, ?_, rfl⟩
        cases outcome <;> rfl
  | bound info =>
    refine ⟨some (.connected info), ?_, rfl⟩
    simp only [Router.onSessionEvent, saidTo, Router.signalReady]
    split_ifs
    · simp only [Router.emit]
      split_ifs <;> rfl
    · rfl
  | closed closed =>
    refine ⟨some (.closed closed), ?_, rfl⟩
    simp only [Router.onSessionEvent, saidTo, Router.failReady]
    split_ifs
    · simp only [Router.emit]
      split_ifs <;> rfl
    · rfl
  | recovered outcome => exact ⟨_, rfl, rfl⟩
  | resubscribed entries => exact ⟨_, rfl, rfl⟩
  | unbound reason retryIn => exact ⟨_, rfl, rfl⟩
  | message id sequence prog result => exact ⟨some _, rfl, rfl⟩
  | serverInfo announcement => exact ⟨_, rfl, rfl⟩
  | unparsed line error => exact ⟨_, rfl, rfl⟩

/-- The outcome of `connect`, and whether it is still to come. -/
def settled (r : Router) : Option (Except ConnectError BoundInfo) × Bool := (r.outcome, r.ready)

@[simp] theorem emit_settled (r : Router) (event : SessionEvent) :
    settled (r.emit event) = settled r := by
  unfold Router.emit
  split_ifs <;> rfl

/-- What the router's turn does to the outcome of `connect`: it is told once. -/
theorem onSessionEvent_settled {r : Router} (hready : r.ready = r.outcome.isNone)
    (event : Session.SessionEvent) : settled (r.onSessionEvent event).2 =
      (r.outcome.or (settles event), (r.outcome.or (settles event)).isNone) := by
  have hsame : settled r = (r.outcome.or none, (r.outcome.or none).isNone) := by
    rw [Option.or_none, settled, hready]
  cases event with
  | subscription p k outcome =>
    refine Eq.trans ?_ hsame
    simp only [Router.onSessionEvent, Router.route]
    split
    · rfl
    · split_ifs <;> rfl
  | controlResponse id target outcome =>
    refine Eq.trans ?_ hsame
    cases target with
    | session => cases outcome <;> simp [Router.onSessionEvent, Router.onControlResponse,
        Router.controlFailure]
    | subscription k operation =>
      cases operation with
      | subscribe =>
        cases outcome with
        | accepted => rfl
        | notSent reason =>
          simp only [Router.onSessionEvent, Router.onControlResponse, Router.notify]
          split <;> rfl
        | rejected cause =>
          simp only [Router.onSessionEvent, Router.onControlResponse]
          split
          · rfl
          · exact emit_settled r _
      | unsubscribe | reconfigure =>
        cases outcome <;> simp [Router.onSessionEvent, Router.onControlResponse]
  | bound info =>
    simp only [Router.onSessionEvent, emit_settled, Router.signalReady, settles]
    cases ho : r.outcome <;> simp [settled, hready, ho]
  | closed closed =>
    simp only [Router.onSessionEvent, emit_settled, Router.failReady, settles]
    cases ho : r.outcome <;> simp [settled, hready, ho]
  | recovered | resubscribed | unbound | message | serverInfo | unparsed =>
    exact (emit_settled r _).trans hsame

/-- The router is done when the session has closed. -/
theorem settles_of_done {r : Router} {event : Session.SessionEvent}
    (h : (r.onSessionEvent event).1 = true) : ∃ outcome, settles event = some outcome := by
  cases event with
  | closed closed => exact ⟨_, rfl⟩
  | _ => cases h

theorem announced_concat (heard : List Session.SessionEvent) (event : Session.SessionEvent) :
    announced (heard ++ [event]) =
      announced heard ++ (announces event).toList.filter notRefusal := by
  rw [announced, List.filterMap_append, List.filter_append, announced]
  cases h : announces event <;> simp [h]

/-- The router's turn shows one more event, and delivers it unless a stop discards it. -/
theorem Shows.onSessionEvent {r : Router} {heard : List Session.SessionEvent}
    (h : Shows r true heard heard) (event : Session.SessionEvent) :
    Shows (r.onSessionEvent event).2 (!(r.onSessionEvent event).1) (heard ++ [event])
      (heard ++ if r.stop then [] else [event]) := by
  have hsettled := onSessionEvent_settled h.ready event
  simp only [settled, Prod.mk.injEq] at hsettled
  obtain ⟨houtcome, hready⟩ := hsettled
  obtain ⟨said, hsession, hsaid⟩ := onSessionEvent_session r event
  have hbefore := h.outcome
  rw [if_pos rfl, Option.or_none] at hbefore
  have hhead : ((heard ++ [event]).filterMap settles).head? = r.outcome.or (settles event) := by
    rw [List.filterMap_append, List.head?_append, hbefore]
    cases hs : settles event <;> simp [hs]
  have houtcome' : (r.onSessionEvent event).2.outcome =
      ((heard ++ [event]).filterMap settles).head?.or
        (if !(r.onSessionEvent event).1 then none else some (.error .disconnected)) := by
    rw [houtcome, hhead]
    cases hdone : (r.onSessionEvent event).1 with
    | false => simp
    | true =>
      obtain ⟨outcome, hs⟩ := settles_of_done hdone
      cases r.outcome <;> simp [hs]
  have hready' := hready.trans (congrArg Option.isNone houtcome).symm
  have hannounced : announced (heard ++ if r.stop then [] else [event]) =
      announced heard ++ (if r.stop then [] else said.toList).filter notRefusal := by
    cases r.stop
    · exact (announced_concat heard event).trans (congrArg _ hsaid.symm)
    · simp
  cases hdropped : r.session.dropped with
  | true =>
    have hsame := (congrArg Prod.snd hsession).trans (saidTo_of_dropped hdropped said)
    dsimp only at hsame
    refine ⟨houtcome', hready', fun hheld => ?_, ?_, fun hheld => ?_⟩
    · rw [hsame, hdropped] at hheld
      cases hheld
    · rw [hsame, hannounced]
      exact h.given.trans (List.prefix_append _ _)
    · rw [hsame, hdropped] at hheld
      cases hheld
  | false =>
    rw [saidTo_of_held hdropped (h.forwards hdropped), Prod.mk.injEq] at hsession
    obtain ⟨hout, hmore⟩ := hsession
    have hevents : (r.onSessionEvent event).2.session.events.filter notRefusal =
        announced (heard ++ if r.stop then [] else [event]) := by
      rw [hmore, hannounced, ← h.exact hdropped, List.filter_append]
    exact ⟨houtcome', hready', fun _ => hout, hevents ▸ List.prefix_refl _, fun _ => hevents⟩

/-- The stream of the session is only added to. -/
theorem onSessionEvent_grows (r : Router) (event : Session.SessionEvent) :
    r.session.events <+: (r.onSessionEvent event).2.session.events := by
  obtain ⟨said, hsession, -⟩ := onSessionEvent_session r event
  have hmore : (r.onSessionEvent event).2.session = (saidTo r said).2 := congrArg Prod.snd hsession
  rw [hmore]
  cases said with
  | none => exact List.prefix_refl _
  | some event =>
    simp only [saidTo, Router.emit, Channel.deliver]
    split_ifs
    · exact List.prefix_refl _
    · exact List.prefix_refl _
    · exact List.prefix_append _ _
    · exact List.prefix_refl _

/-! ## The part of `connect` -/

/-- What the caller of `connect` finds in the stream of the session: what was staged, and then what
`connect` left in the channel. -/
def readable (w : Tasks) : List SessionEvent :=
  w.staged ++ w.router.session.events.drop w.drained

/-- What holds in every state of the stream of the session and of `connect`. -/
structure Fronted (w : Tasks) : Prop where
  shows : Shows w.router w.routing w.heard w.delivered
  handled : w.handled ≤ (channelled w.drive.driver.trace).length
  staged : w.staged = (w.router.session.events.take w.drained).take w.capacity
  drained : w.drained ≤ w.router.session.events.length
  early : (w.router.session.events.take (w.drained - 1)).filter notRefusal <+:
    announced (unsettled w.heard)
  receiving : w.connecting = .receiving →
    (w.router.session.events.take w.drained).filter notRefusal <+: announced (unsettled w.heard)
  returned : ∀ result, w.connecting = .returned result →
    w.router.outcome = some result ∨ result = .error .disconnected ∧ w.routing = false

theorem stage_take (events : List SessionEvent) (event : SessionEvent) (limit : ℕ) :
    stage (events.take limit) event limit = (events ++ [event]).take limit := by
  unfold stage
  rw [List.length_take]
  split_ifs with h
  · have hlt : events.length < limit := by omega
    have hmore : (events ++ [event]).length ≤ limit := by
      rw [List.length_append]
      exact hlt
    rw [List.take_of_length_le hlt.le, List.take_of_length_le hmore]
  · rw [List.take_append_of_le_length (by omega)]

namespace Fronted

/-- A move that leaves the front, what was heard and `connect` alone. -/
theorem of_eq (h : Fronted w) (hfront : front w'.router = front w.router)
    (hrouting : w'.routing = w.routing) (hheard : w'.heard = w.heard)
    (hdelivered : w'.delivered = w.delivered)
    (hhandled : w'.handled ≤ (channelled w'.drive.driver.trace).length)
    (hconnect : (w'.connecting, w'.capacity, w'.staged, w'.drained) =
      (w.connecting, w.capacity, w.staged, w.drained)) : Fronted w' := by
  have hshows := h.shows.of_front hfront
  simp only [front, Prod.mk.injEq] at hfront hconnect
  obtain ⟨-, hsession, -, houtcome⟩ := hfront
  obtain ⟨hconnecting, hcapacity, hstaged, hdrained⟩ := hconnect
  refine ⟨?_, hhandled, ?_, ?_, ?_, ?_, ?_⟩
  · rw [hrouting, hheard, hdelivered]
    exact hshows
  · rw [hstaged, hsession, hdrained, hcapacity]
    exact h.staged
  · rw [hsession, hdrained]
    exact h.drained
  · rw [hsession, hdrained, hheard]
    exact h.early
  · rw [hsession, hdrained, hheard, hconnecting]
    exact h.receiving
  · rw [houtcome, hconnecting, hrouting]
    exact h.returned

theorem of_aside (h : Fronted w) (haside : Aside w w') (hfront : front w'.router = front w.router)
    (hrouting : w'.routing = w.routing)
    (hconnect : (w'.connecting, w'.capacity, w'.staged, w'.drained) =
      (w.connecting, w.capacity, w.staged, w.drained)) : Fronted w' :=
  h.of_eq hfront hrouting haside.heard haside.delivered
    (by rw [haside.handled, haside.drive]; exact h.handled) hconnect

/-- Asking the router changes nothing of its front. -/
theorem ask (h : Fronted w) (c : RouterCommand) : Fronted (w.ask c) := by
  unfold Tasks.ask
  split_ifs
  · exact h.of_aside ⟨rfl, rfl, rfl, rfl⟩ rfl rfl rfl
  · exact h

/-- The caller, or `connect` when it fails, drops the stream of the session. -/
theorem closeSession (h : Fronted w) : Fronted w.closeSession :=
  ⟨h.shows.close, h.handled, h.staged, h.drained, h.early, h.receiving, h.returned⟩

theorem finish (h : Fronted w) {result : Except ConnectError BoundInfo}
    (hresult : w.router.outcome = some result ∨
      result = .error .disconnected ∧ w.routing = false) : Fronted (w.finish result) := by
  have hreturned : ∀ result', Connecting.returned result = .returned result' →
      w.router.outcome = some result' ∨ result' = .error .disconnected ∧ w.routing = false := by
    intro result' heq
    cases heq
    exact hresult
  cases result with
  | ok info =>
    exact ⟨h.shows, h.handled, h.staged, h.drained, h.early, (by cases ·), hreturned⟩
  | error error =>
    exact ⟨h.shows.close, h.handled, h.staged, h.drained, h.early, (by cases ·),
      hreturned⟩

/-- `connect` finds that the router is not ready: all that the stream was given came early. -/
theorem waits (h : Fronted w) (houtcome : w.router.outcome = none) :
    Fronted { w with connecting := .receiving } := by
  have hnone : (w.heard.filterMap settles).head? = none := by
    have hshows := h.shows.outcome
    rw [houtcome] at hshows
    exact (Option.or_eq_none_iff.1 hshows.symm).1
  refine ⟨h.shows, h.handled, h.staged, h.drained, h.early, fun _ => ?_, fun _ => (by cases ·)⟩
  change _ <+: announced (unsettled w.heard)
  rw [unsettled_of_unsettled hnone]
  exact ((List.take_prefix _ _).filter _).trans
    (h.shows.given.trans (announced_isInitial w.delivered_isInitial))

/-- `connect` takes an event off the stream. -/
theorem receives (h : Fronted w) {event : SessionEvent} (hconnecting : w.connecting = .receiving)
    (hevent : w.router.session.events[w.drained]? = some event) : Fronted { w with
      connecting := .polling
      staged := stage w.staged event w.capacity
      drained := w.drained + 1 } := by
  have htake : w.router.session.events.take (w.drained + 1) =
      w.router.session.events.take w.drained ++ [event] := by
    rw [List.take_add_one, hevent]
    rfl
  refine ⟨h.shows, h.handled, ?_, (List.getElem?_eq_some_iff.1 hevent).1, h.receiving hconnecting,
    (by cases ·), fun _ => (by cases ·)⟩
  rw [htake, h.staged, stage_take]

/-- The router takes an event. -/
theorem routes (h : Fronted w) {stop : Bool} {event : Session.SessionEvent}
    (hnext : w.next = some event) : Fronted { w with
      router := ({ w.router with stop := stop }.onSessionEvent event).2
      handled := w.handled + 1
      routing := !({ w.router with stop := stop }.onSessionEvent event).1 } := by
  obtain ⟨hrouting, -, hstop, hevent⟩ := next_eq_some hnext
  let r : Router := { w.router with stop := stop }
  have hbefore : w.delivered = w.heard := by rw [delivered, hstop]; rfl
  have hshows : Shows r true w.heard w.heard := by
    have hshows := h.shows
    rw [hbefore, hrouting] at hshows
    exact hshows.of_front rfl
  have htake : ∀ {n}, n ≤ w.drained → (r.onSessionEvent event).2.session.events.take n =
      w.router.session.events.take n := fun {n} hn => by
    obtain ⟨more, hmore⟩ := onSessionEvent_grows r event
    rw [← hmore]
    exact List.take_append_of_le_length (hn.trans h.drained)
  have hearly : announced (unsettled w.heard) <+: announced (unsettled (w.heard ++ [event])) :=
    announced_isInitial (unsettled_isInitial _ _)
  have hsettled := onSessionEvent_settled hshows.ready event
  refine ⟨?_, (List.getElem?_eq_some_iff.1 hevent).1, ?_,
    h.drained.trans (onSessionEvent_grows r event).length_le, ?_, fun hr => ?_, fun result hr => ?_⟩
  · rw [delivered, heard, take_next hnext, (r.onSessionEvent_rest event).2, dropLast_next]
    exact hshows.onSessionEvent event
  · rw [htake le_rfl]
    exact h.staged
  · rw [heard, take_next hnext, htake (Nat.sub_le _ _)]
    exact h.early.trans hearly
  · rw [heard, take_next hnext, htake le_rfl]
    exact (h.receiving hr).trans hearly
  · obtain houtcome | ⟨-, hstopped⟩ := h.returned result hr
    · refine .inl ((congrArg Prod.fst hsettled).trans ?_)
      change w.router.outcome.or _ = _
      rw [houtcome]
      rfl
    · rw [hrouting] at hstopped
      cases hstopped

/-- A stop reaches the router. -/
theorem stops (h : Fronted w) :
    Fronted { w with router := w.router.failReady .disconnected, routing := false } := by
  obtain ⟨ready, outcome, hfail⟩ := w.router.failReady_eq .disconnected
  have hsession : (w.router.failReady .disconnected).session = w.router.session := by rw [hfail]
  have hout : (w.router.failReady .disconnected).sessionOut = w.router.sessionOut := by rw [hfail]
  have hstop : (w.router.failReady .disconnected).stop = w.router.stop := by rw [hfail]
  have hsettled : settled (w.router.failReady .disconnected) =
      (w.router.outcome.or (some (.error .disconnected)), false) := by
    have hready := h.shows.ready
    unfold Router.failReady
    cases ho : w.router.outcome <;> simp [settled, hready, ho]
  simp only [settled, Prod.mk.injEq] at hsettled
  obtain ⟨houtcome, hready⟩ := hsettled
  have haside : Aside w { w with
      router := w.router.failReady .disconnected, routing := false } := ⟨rfl, rfl, rfl, hstop⟩
  refine ⟨⟨?_, ?_, ?_, ?_, ?_⟩, h.handled, ?_, ?_, ?_, ?_, fun result hr => ?_⟩
  · rw [haside.heard, houtcome, h.shows.outcome]
    cases (w.heard.filterMap settles).head? <;> cases w.routing <;> rfl
  · rw [hready, houtcome]
    cases w.router.outcome <;> rfl
  · rw [hsession, hout]
    exact h.shows.forwards
  · rw [hsession, haside.delivered]
    exact h.shows.given
  · rw [hsession, haside.delivered]
    exact h.shows.exact
  · rw [hsession]
    exact h.staged
  · rw [hsession]
    exact h.drained
  · rw [hsession, haside.heard]
    exact h.early
  · rw [hsession, haside.heard]
    exact h.receiving
  · rw [houtcome]
    obtain houtcome | ⟨rfl, -⟩ := h.returned result hr
    · exact .inl (by rw [houtcome]; rfl)
    · exact .inr ⟨rfl, rfl⟩

/-- The driver takes a turn. -/
theorem turns (h : Fronted w) {i : Input} {drive : Drive} (mailbox : List SessionCommand)
    (subscribed : List SubscriptionKey) (hdrive : w.drive.step i = some drive) :
    Fronted { w with drive := drive, mailbox := mailbox, subscribed := subscribed } := by
  obtain ⟨hheard, hle⟩ := take_handled h.handled (step_grows hdrive)
  refine h.of_eq rfl rfl hheard ?_ hle rfl
  rw [delivered, heard, hheard, delivered]

end Fronted

theorem step_fronted (h : Fronted w) (hstep : w.step move = some w') : Fronted w' := by
  cases step_does hstep with
  | waits _ houtcome => exact h.waits houtcome
  | ready _ houtcome => exact h.finish (.inl houtcome)
  | receives hconnecting hevent => exact h.receives hconnecting hevent
  | findsClosed _ hrouting => exact h.finish (.inr ⟨rfl, hrouting⟩)
  | rollsBack | drops =>
    refine Fronted.ask ?_ _
    exact h.of_aside ⟨rfl, rfl, rfl, rfl⟩ rfl rfl rfl
  | takes _ _ hdrive => exact h.turns _ _ hdrive
  | turns _ hdrive => exact h.turns _ _ hdrive
  | @obeys _ command =>
    refine h.of_aside ⟨rfl, rfl, rfl, ?_⟩ ?_ rfl rfl <;> cases command <;> rfl
  | routes hnext => exact h.routes hnext
  | dropsSession => exact h.closeSession
  | stops => exact h.stops
  | _ => exact h.of_aside ⟨rfl, rfl, rfl, rfl⟩ rfl rfl rfl

variable {properties : TransportProperties} {options : SessionOptions} {seed : UInt64}
  {now capacity : ℕ} {moves : List Move}

/-- What `connect` and the stream of the session were told. -/
structure Served (w : Tasks) : Prop where
  /-- The router settles what `connect` is told by the first bind or the end, whichever it takes
  first, or by stopping. -/
  settled : w.router.outcome = (w.heard.filterMap settles).head?.or
    (if w.routing then none else some (.error .disconnected))
  /-- `connect` returns that, or finds the stream closed after the router has stopped. -/
  returned : ∀ result, w.connecting = .returned result →
    w.router.outcome = some result ∨ result = .error .disconnected ∧ w.routing = false
  /-- The stream was given what the delivered events announce, in order and each once, or a first
  part of that once nobody holds it. A refusal is left out, as one that names a subscription without
  a stream is announced as well. -/
  given : w.router.session.events.filter notRefusal <+: announced w.delivered
  exact : w.router.session.dropped = false →
    w.router.session.events.filter notRefusal = announced w.delivered
  /-- Of the events that `connect` took off the stream its caller finds the first `capacity`, and
  then all that `connect` did not take. -/
  readable : w.readable = (w.router.session.events.take w.drained).take w.capacity ++
    w.router.session.events.drop w.drained
  /-- All that `connect` took, but the last, were announced before the first bind and the end. -/
  early : (w.router.session.events.take (w.drained - 1)).filter notRefusal <+:
    announced (unsettled w.heard)

/-- **What `connect` and the stream of the session are told**, in every run of a client's tasks. -/
theorem session_events
    (hrun : exec step (start properties options seed now capacity) moves = some w) : w.Served := by
  have hstart : Fronted (start properties options seed now capacity) :=
    ⟨⟨rfl, rfl, fun _ => rfl, List.prefix_refl _, fun _ => rfl⟩, le_rfl, List.take_nil.symm, le_rfl,
      List.prefix_refl _, fun _ => List.prefix_refl _, fun _ => (by cases ·)⟩
  have h := exec_invariant (G := fun _ _ => True) (fun _ _ _ h _ hstep => step_fronted h hstep)
    hstart (guarded_true _ _ moves) hrun
  exact ⟨h.shows.outcome, h.returned, h.shows.given, h.shows.exact,
    congrArg (· ++ _) h.staged, h.early⟩

/-- The first connection fails, and the second is confirmed while `connect` is between its two
questions. With room for one event, it stages the failure and discards the bind. -/
def retried : List Move :=
  [.turn ⟨.openFailed "refused", {}⟩, .route false, .poll, .receive, .turn ⟨.timer, {}⟩,
    .turn ⟨.opened, {}⟩, .turn ⟨.line "CONOK,S1,50000,5000,*", {}⟩, .poll, .route false, .receive,
    .poll]

theorem session_events_retried :
    ∃ w, exec step (start ⟨true, false, false⟩ .default 1 0 1) retried = some w ∧
      w.connected = true ∧ w.readable.length = 1 ∧ w.router.session.events.length = 2 ∧
      w.Served := by
  have h : ∃ w, exec step (start ⟨true, false, false⟩ .default 1 0 1) retried = some w ∧
      w.connected = true ∧ w.readable.length = 1 ∧ w.router.session.events.length = 2 :=
    ⟨_, rfl, rfl, rfl, rfl⟩
  obtain ⟨w, h, hconnected, hreadable, hevents⟩ := h
  exact ⟨w, h, hconnected, hreadable, hevents, session_events h⟩

end Tasks

end Lightstreamer.Client
