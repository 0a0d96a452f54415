import Lightstreamer.Foundations.OrdMap
import Lightstreamer.Session.Vocabulary

/-!
# The router

The task that turns the one sequence of the session's events into a stream for each subscription
and one for the session. `Router.onSessionEvent` takes an event, `Router.onCommand` a request of the
client. What the callers hold are the channels: a stream whose caller dropped it takes nothing more,
and an event that waits for room when a stop is ordered is discarded (`Channel.deliver`).

What a stream is told is a matter of the session's events alone (`tells`). The router delivers of it
what comes before the first terminal event, and that event (`untilTerminal`), unless a stop
discards it (`Fed.onSessionEvent`).
-/

namespace Lightstreamer.Client

open Lightstreamer.Foundations Lightstreamer.Protocol Lightstreamer.Subscription
open Lightstreamer.Session hiding SessionEvent

/-! ## What the callers receive -/

/-- An event of one subscription's stream. The text of an error is left to its printing. -/
inductive SubscriptionEvent
  | fromWire (event : Subscription.SubscriptionEvent)
  | deferred (reason : String)
  | rejected (cause : ServerCause)
  | undecodable (detail : SubscriptionError)
  deriving DecidableEq

/-- Whether nothing further arrives on the stream. -/
def SubscriptionEvent.isTerminal : SubscriptionEvent → Bool
  | fromWire .unsubscribed | rejected _ => true
  | _ => false

/-- An event of the session's stream. -/
inductive SessionEvent
  | connected (connected : BoundInfo)
  | recovered (recovery : RecoveryOutcome)
  | resubscribed (entries : List ResubscribedEntry)
  | disconnected (reason : UnbindReason) (retryIn : Option ℕ)
  | message (sequence : MessageSequence) (prog : Option ℕ) (result : MessageResult)
  | serverInfo (info : ServerAnnouncement)
  | requestRejected (cause : ServerCause)
  | requestNotSent (reason : String)
  | unrecognized (line : String)
  | closed (reason : SessionClosed)
  deriving DecidableEq

/-- The events that a caller's stream has been given, and whether the caller dropped it. -/
structure Channel (ε : Type) where
  events : List ε
  dropped : Bool
  deriving DecidableEq

/-- What became of one send towards a caller. -/
inductive Delivery
  | delivered
  | receiverGone
  | stopped
  deriving DecidableEq

namespace Channel

variable {ε : Type}

def new : Channel ε := ⟨[], false⟩

/-- Send one event towards a caller, waiting for room but not for ever: `stop` says that a stop was
ordered before there was room, and then the event is discarded. -/
def deliver (c : Channel ε) (event : ε) (stop : Bool) : Delivery × Channel ε :=
  if c.dropped then (.receiverGone, c)
  else if stop then (.stopped, c)
  else (.delivered, { c with events := c.events ++ [event] })

theorem deliver_dropped (c : Channel ε) (event : ε) (stop : Bool) :
    (c.deliver event stop).2.dropped = c.dropped := by
  unfold deliver
  split_ifs <;> rfl

end Channel

/-! ## The state of the router -/

/-- What the client asks the router to do. A stream is named by the key of its subscription. -/
inductive RouterCommand
  | register (id : SubscriptionKey)
  | unregister (id : SubscriptionKey)
  | streamDropped (id : SubscriptionKey)
  deriving DecidableEq

/-- The subscription that a command is about. -/
def RouterCommand.id : RouterCommand → SubscriptionKey
  | register id | unregister id | streamDropped id => id

/-- What `connect` is told when no session was bound. -/
inductive ConnectError
  | closed (reason : SessionClosed)
  | disconnected
  deriving DecidableEq

/-- The router, with the streams that it feeds: `ready` until the session first binds or fails, and
then `outcome` is what `connect` is told; `unsubscribe` are the keys still to be unsubscribed; and
`stop` says that the stop signal was seen where a stream had no room. -/
structure Router where
  subscriptions : OrdMap SubscriptionKey Unit
  streams : OrdMap SubscriptionKey (Channel SubscriptionEvent)
  sessionOut : Bool
  session : Channel SessionEvent
  ready : Bool
  outcome : Option (Except ConnectError BoundInfo)
  unsubscribe : List SubscriptionKey
  stop : Bool
  deriving DecidableEq

namespace Router

def new : Router := ⟨.empty, .empty, true, .new, true, none, [], false⟩

/-- Send an event to the stream of `key`. -/
def deliver (r : Router) (key : SubscriptionKey) (event : SubscriptionEvent) : Router :=
  { r with streams := r.streams.modify key fun c => (c.deliver event r.stop).2 }

/-- Publish a session-level event. Forwarding stops for good once that stream was dropped. -/
def emit (r : Router) (event : SessionEvent) : Router :=
  if r.sessionOut then
    let (delivery, session) := r.session.deliver event r.stop
    { r with session := session, sessionOut := delivery ≠ .receiverGone }
  else r

def signalReady (r : Router) (connected : BoundInfo) : Router :=
  if r.ready then { r with ready := false, outcome := some (.ok connected) } else r

def failReady (r : Router) (error : ConnectError) : Router :=
  if r.ready then { r with ready := false, outcome := some (.error error) } else r

/-! ## The router's turns -/

/-- The session-level event that a control outcome deserves, if any. -/
def controlFailure : ControlOutcome → Option SessionEvent
  | .rejected cause => some (.requestRejected cause)
  | .notSent reason => some (.requestNotSent reason)
  | .accepted => none

/-- Send an event to a subscription's stream without ending it. -/
def notify (r : Router) (key : SubscriptionKey) (event : SubscriptionEvent) : Router :=
  match r.subscriptions.get? key with
  | none => r
  | some _ => r.deliver key event

/-- The event that an outcome is for the caller. -/
def streamEvent : SubscriptionOutcome → SubscriptionEvent
  | .ok event => .fromWire event
  | .error error => .undecodable error

/-- Send a subscription's event to its stream. A terminal one ends it. -/
def route (r : Router) (key : SubscriptionKey) (outcome : SubscriptionOutcome) : Router :=
  match r.subscriptions.get? key with
  | none => r
  | some _ =>
    let event := streamEvent outcome
    let r := r.deliver key event
    if event.isTerminal then { r with subscriptions := r.subscriptions.erase key } else r

/-- Route a control response to whoever waits for its effect. -/
def onControlResponse (r : Router) (target : ControlTarget) (outcome : ControlOutcome) : Router :=
  match target with
  | .session =>
    match controlFailure outcome with
    | some event => r.emit event
    | none => r
  | .subscription key operation =>
    match operation, outcome with
    | .subscribe, .rejected cause =>
      match r.subscriptions.get? key with
      | some _ =>
        deliver { r with subscriptions := r.subscriptions.erase key } key (.rejected cause)
      | none => r.emit (.requestRejected cause)
    | .subscribe, .notSent reason => r.notify key (.deferred reason)
    | .subscribe, .accepted => r
    | .unsubscribe, outcome | .reconfigure, outcome =>
      match outcome with
      | .accepted => r
      | .rejected cause => r.emit (.requestRejected cause)
      | .notSent reason => r.emit (.requestNotSent reason)

/-- Handle one event from the session. Says whether the router is done. -/
def onSessionEvent (r : Router) : Session.SessionEvent → Bool × Router
  | .bound info => (false, (r.signalReady info).emit (.connected info))
  | .recovered outcome => (false, r.emit (.recovered outcome))
  | .resubscribed entries => (false, r.emit (.resubscribed entries))
  | .unbound reason retryIn => (false, r.emit (.disconnected reason retryIn))
  | .message _ sequence prog result => (false, r.emit (.message sequence prog result))
  | .subscription _ key outcome => (false, r.route key outcome)
  | .controlResponse _ target outcome => (false, r.onControlResponse target outcome)
  | .serverInfo announcement => (false, r.emit (.serverInfo announcement))
  | .unparsed line _ => (false, r.emit (.unrecognized line))
  | .closed closed => (true, (r.failReady (.closed closed)).emit (.closed closed))

/-- Handle one command. A dropped stream is unsubscribed whether or not it was still registered. -/
def onCommand (r : Router) : RouterCommand → Router
  | .register id => { r with subscriptions := r.subscriptions.insert id () }
  | .unregister id => { r with subscriptions := r.subscriptions.erase id }
  | .streamDropped id =>
    { r with subscriptions := r.subscriptions.erase id, unsubscribe := r.unsubscribe ++ [id] }

end Router

/-! ## What a stream is told -/

/-- What an event of the session says to the stream of `key`. -/
def tells (key : SubscriptionKey) : Session.SessionEvent → Option SubscriptionEvent
  | .subscription _ k outcome => if k = key then some (Router.streamEvent outcome) else none
  | .controlResponse _ (.subscription k .subscribe) (.rejected cause) =>
    if k = key then some (.rejected cause) else none
  | .controlResponse _ (.subscription k .subscribe) (.notSent reason) =>
    if k = key then some (.deferred reason) else none
  | _ => none

/-- No event so far ended the stream. -/
def Unended (told : List SubscriptionEvent) : Prop := ∀ event ∈ told, event.isTerminal = false

instance (told : List SubscriptionEvent) : Decidable (Unended told) :=
  inferInstanceAs (Decidable (∀ _ ∈ _, _))

/-- The events through the first terminal one. -/
def untilTerminal : List SubscriptionEvent → List SubscriptionEvent
  | [] => []
  | event :: told => if event.isTerminal then [event] else event :: untilTerminal told

variable {told : List SubscriptionEvent} {event : SubscriptionEvent}

theorem unended_append {told' : List SubscriptionEvent} :
    Unended (told ++ told') ↔ Unended told ∧ Unended told' := by
  simp [Unended, or_imp, forall_and]

@[simp] theorem unended_singleton : Unended [event] ↔ event.isTerminal = false := by
  simp [Unended]

theorem untilTerminal_append (h : Unended told) (told' : List SubscriptionEvent) :
    untilTerminal (told ++ told') = told ++ untilTerminal told' := by
  induction told with
  | nil => rfl
  | cons event told ih =>
    have hevent : event.isTerminal = false := h event List.mem_cons_self
    have hrest : Unended told := fun e he => h e (List.mem_cons_of_mem _ he)
    rw [List.cons_append, untilTerminal, if_neg (by simp [hevent]), ih hrest, List.cons_append]

theorem untilTerminal_of_unended (h : Unended told) : untilTerminal told = told := by
  simpa [untilTerminal] using untilTerminal_append h []

/-- Nothing is added to an ended stream. -/
theorem untilTerminal_append_of_ended (h : ¬Unended told) (told' : List SubscriptionEvent) :
    untilTerminal (told ++ told') = untilTerminal told := by
  induction told with
  | nil => exact absurd (fun _ => nofun) h
  | cons event told ih =>
    rw [List.cons_append, untilTerminal, untilTerminal]
    split
    · rfl
    · rename_i hevent
      rw [ih fun hrest => h fun e he => ?_]
      rcases List.mem_cons.1 he with rfl | he
      · exact Bool.not_eq_true _ ▸ hevent
      · exact hrest e he

/-- An ended stream ends with its one terminal event. -/
theorem untilTerminal_of_ended (h : ¬Unended told) :
    ∃ front event, untilTerminal told = front ++ [event] ∧ event.isTerminal = true ∧
      Unended front := by
  induction told with
  | nil => exact absurd (fun _ => nofun) h
  | cons event told ih =>
    by_cases hevent : event.isTerminal = true
    · exact ⟨[], event, by rw [untilTerminal, if_pos hevent, List.nil_append], hevent, nofun⟩
    · have hrest : ¬Unended told := fun hrest => h fun e he => by
        rcases List.mem_cons.1 he with rfl | he
        · exact Bool.not_eq_true _ ▸ hevent
        · exact hrest e he
      obtain ⟨front, last, hfront, hlast, hunended⟩ := ih hrest
      refine ⟨event :: front, last, ?_, hlast, fun e he => ?_⟩
      · rw [untilTerminal, if_neg hevent, hfront, List.cons_append]
      · rcases List.mem_cons.1 he with rfl | he
        · exact Bool.not_eq_true _ ▸ hevent
        · exact hunended e he

namespace Router

variable (r : Router) (key : SubscriptionKey)

/-- What the router holds of a key: whether it is registered, and its stream. -/
def held : Option Unit × Option (Channel SubscriptionEvent) :=
  (r.subscriptions.get? key, r.streams.get? key)

@[simp] theorem emit_held (event : SessionEvent) : (r.emit event).held key = r.held key := by
  unfold emit
  split_ifs <;> rfl

@[simp] theorem signalReady_held (connected : BoundInfo) :
    (r.signalReady connected).held key = r.held key := by
  unfold signalReady
  split_ifs <;> rfl

/-- Reporting a failure changes nothing but what `connect` is told. -/
theorem failReady_eq (error : ConnectError) :
    ∃ ready outcome, r.failReady error = { r with ready := ready, outcome := outcome } := by
  unfold failReady
  split_ifs
  · exact ⟨_, _, rfl⟩
  · exact ⟨r.ready, r.outcome, rfl⟩

@[simp] theorem failReady_held (error : ConnectError) :
    (r.failReady error).held key = r.held key := by
  obtain ⟨ready, outcome, hfail⟩ := r.failReady_eq error
  rw [hfail]
  rfl

theorem deliver_held_of_ne {k : SubscriptionKey} (hk : k ≠ key) (event : SubscriptionEvent) :
    (r.deliver k event).held key = r.held key := by
  simp [held, deliver, hk.symm]

/-- What is held of a key that is told something: a stream that is still registered gets it. -/
def feed (stop : Bool) (held : Option Unit × Option (Channel SubscriptionEvent)) :
    Option SubscriptionEvent → Option Unit × Option (Channel SubscriptionEvent)
  | none => held
  | some event =>
    match held.1 with
    | none => held
    | some _ =>
      (if event.isTerminal then none else some (), held.2.map fun c => (c.deliver event stop).2)

/-- A stream that is not registered is told nothing. -/
theorem feed_of_unregistered {r : Router} {key : SubscriptionKey}
    (h : r.subscriptions.get? key = none) (event : Option SubscriptionEvent) :
    feed r.stop (r.held key) event = r.held key := by
  cases event <;> simp [feed, held, h]

theorem notify_held (k : SubscriptionKey) {event : SubscriptionEvent}
    (hevent : event.isTerminal = false) : (r.notify k event).held key =
      feed r.stop (r.held key) (if k = key then some event else none) := by
  unfold notify
  by_cases hk : k = key
  · subst hk
    cases hr : r.subscriptions.get? k with
    | none => exact (feed_of_unregistered hr _).symm
    | some _ => simp [feed, held, hr, hevent, deliver]
  · rw [if_neg hk]
    split
    · rfl
    · exact r.deliver_held_of_ne key hk event

theorem route_held (k : SubscriptionKey) (outcome : SubscriptionOutcome) :
    (r.route k outcome).held key =
      feed r.stop (r.held key) (if k = key then some (streamEvent outcome) else none) := by
  unfold route
  by_cases hk : k = key
  · subst hk
    cases hr : r.subscriptions.get? k with
    | none => exact (feed_of_unregistered hr _).symm
    | some _ =>
      rw [if_pos rfl]
      dsimp only
      split_ifs with hevent <;> simp [feed, held, hr, hevent, deliver]
  · rw [if_neg hk]
    split
    · rfl
    · have hdeliver := r.deliver_held_of_ne key hk (streamEvent outcome)
      dsimp only
      split_ifs
      · simpa [held, feed, Ne.symm hk] using hdeliver
      · exact hdeliver

theorem onControlResponse_held (id : Option RequestId) (target : ControlTarget)
    (outcome : ControlOutcome) : (r.onControlResponse target outcome).held key =
      feed r.stop (r.held key) (tells key (.controlResponse id target outcome)) := by
  cases target with
  | session => cases outcome <;> simp [onControlResponse, controlFailure, tells, feed]
  | subscription k operation =>
    cases operation with
    | subscribe =>
      cases outcome with
      | accepted => rfl
      | notSent reason => exact r.notify_held key k rfl
      | rejected cause =>
        by_cases hk : k = key
        · subst hk
          cases hr : r.subscriptions.get? k with
          | none =>
            rw [feed_of_unregistered hr]
            simp only [onControlResponse, hr, emit_held]
          | some _ =>
            simp [onControlResponse, tells, feed, hr, held, deliver, SubscriptionEvent.isTerminal]
        · simp only [onControlResponse, tells, if_neg hk]
          split
          · simp [held, deliver, feed, Ne.symm hk]
          · simp [feed]
    | unsubscribe | reconfigure => cases outcome <;> simp [onControlResponse, tells, feed]

/-- **The router's turn.** What it holds of a key changes by what the event tells that stream. -/
theorem onSessionEvent_held (event : Session.SessionEvent) :
    (r.onSessionEvent event).2.held key = feed r.stop (r.held key) (tells key event) := by
  cases event with
  | subscription progressive k outcome => exact r.route_held key k outcome
  | controlResponse id target outcome => exact r.onControlResponse_held key id target outcome
  | _ => simp [onSessionEvent, tells, feed]

theorem feed_dropped (stop : Bool) (held : Option Unit × Option (Channel SubscriptionEvent))
    (event : Option SubscriptionEvent) :
    (feed stop held event).2.map Channel.dropped = held.2.map Channel.dropped := by
  cases event with
  | none => rfl
  | some event =>
    obtain ⟨registered, stream⟩ := held
    cases registered with
    | none => rfl
    | some _ =>
      cases stream with
      | none => rfl
      | some c => exact congrArg some (c.deliver_dropped event stop)

/-- A stream that its caller holds is where what it was told leaves it, and holds what it was
given. -/
def Fed (r : Router) (key : SubscriptionKey) (told given : List SubscriptionEvent) : Prop :=
  r.held key = (if Unended told then some () else none, some ⟨untilTerminal given, false⟩)

/-- An event brings a stream on by what it tells, of which a stop discards what it finds waiting. -/
theorem Fed.onSessionEvent {r : Router} {key : SubscriptionKey} (h : r.Fed key told told)
    (event : Session.SessionEvent) :
    (r.onSessionEvent event).2.Fed key (told ++ (tells key event).toList)
      (told ++ if r.stop then [] else (tells key event).toList) := by
  rw [Fed, onSessionEvent_held, h]
  cases tells key event with
  | none => simp [feed]
  | some event =>
    by_cases htold : Unended told
    · have hlast : untilTerminal [event] = [event] := by
        rw [untilTerminal]
        split_ifs <;> rfl
      cases hstop : r.stop <;> by_cases hevent : event.isTerminal = true <;>
        simp [feed, htold, hevent, unended_append, untilTerminal_append htold, hlast,
          Channel.deliver, untilTerminal_of_unended htold]
    · cases r.stop <;> simp [feed, htold, unended_append, untilTerminal_append_of_ended htold]

/-- What a turn of the router on an event leaves as it is. -/
theorem onSessionEvent_rest (event : Session.SessionEvent) :
    (r.onSessionEvent event).2.unsubscribe = r.unsubscribe ∧
      (r.onSessionEvent event).2.stop = r.stop := by
  have hemit : ∀ (r : Router) e, (r.emit e).unsubscribe = r.unsubscribe ∧
      (r.emit e).stop = r.stop := fun r e => by
    unfold emit
    split_ifs <;> exact ⟨rfl, rfl⟩
  cases event with
  | subscription p k outcome =>
    simp only [Router.onSessionEvent, route]
    split
    · exact ⟨rfl, rfl⟩
    · split_ifs <;> exact ⟨rfl, rfl⟩
  | controlResponse id target outcome =>
    change (r.onControlResponse target outcome).unsubscribe = r.unsubscribe ∧
      (r.onControlResponse target outcome).stop = r.stop
    unfold onControlResponse
    split
    · split
      · exact hemit _ _
      · exact ⟨rfl, rfl⟩
    · split
      · split
        · exact ⟨rfl, rfl⟩
        · exact hemit _ _
      · unfold notify
        split <;> exact ⟨rfl, rfl⟩
      · exact ⟨rfl, rfl⟩
      all_goals
        split
        · exact ⟨rfl, rfl⟩
        · exact hemit _ _
        · exact hemit _ _
  | bound info =>
    simp only [Router.onSessionEvent, hemit, signalReady]
    split_ifs <;> exact ⟨rfl, rfl⟩
  | closed closed =>
    simp only [Router.onSessionEvent, hemit, failReady]
    split_ifs <;> exact ⟨rfl, rfl⟩
  | recovered | resubscribed | unbound | message | serverInfo | unparsed => exact hemit r _

end Router

end Lightstreamer.Client
