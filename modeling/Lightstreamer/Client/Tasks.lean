import Lightstreamer.Client.Telling
import Lightstreamer.Session.Coherence

/-!
# The tasks of a client

A client runs the session driver, the router, and a task that issues the unsubscriptions of dropped
streams. `Tasks` is the state of the three, of the call of `connect` that started them, and of what
is under way between them and the callers; a `Move` is one turn of one of them, or what a caller
does, so that a list of moves is one interleaving. A channel waits for room, so that it is a list
here: whether a send has to wait is up to the moves, and so is whether a stop ends the wait.

`Tasks.step` is the machine, and `Tasks.step_does` lists all that a move can do. The results are in
the modules on the streams of the subscriptions, on the stream of the session, and on the
unsubscriptions.
-/

namespace Lightstreamer.Client

open Lightstreamer.Foundations Lightstreamer.Protocol Lightstreamer.Subscription
open Lightstreamer.Session hiding SessionEvent

/-- Where `connect` is: about to ask whether the router is ready, about to take an event off the
stream that nobody holds yet, or back at its caller. -/
inductive Connecting
  | polling
  | receiving
  | returned (result : Except ConnectError BoundInfo)
  deriving DecidableEq

/-- Where the task that issues unsubscriptions is. -/
inductive Issuing
  | idle
  | holding (key : SubscriptionKey)
  | stopped
  deriving DecidableEq

/-- A driver in this phase has not ended. -/
def isRunning : Phase → Bool
  | .closed _ => false
  | .waiting _ | .opening | .pumping => true

/-- The tasks of a client: whether the router still runs, how many of the driver's events it took,
its commands, the driver's commands, the next key, the `subscribe` calls that wait for room in the
driver's channel, and the keys whose `Subscribe` the driver has taken; how many events `connect`
took off the stream of the session, and those of them that are `staged`, at most `capacity`. -/
structure Tasks where
  drive : Drive
  router : Router
  routing : Bool
  handled : ℕ
  commands : List RouterCommand
  mailbox : List SessionCommand
  nextKey : ℕ
  calls : List (SubscriptionKey × SubscriptionSpec)
  subscribed : List SubscriptionKey
  issuing : Issuing
  connecting : Connecting
  capacity : ℕ
  staged : List SessionEvent
  drained : ℕ
  deriving DecidableEq

inductive Move
  /-- `connect` asks whether the router is ready. -/
  | poll
  /-- `connect` takes an event off the stream of the session, or finds that stream closed. -/
  | receive
  /-- A caller subscribes: a key is allocated and its stream registered. -/
  | subscribe (spec : SubscriptionSpec)
  /-- There is room for the `Subscribe` of a call in progress. -/
  | submit (call : ℕ)
  /-- The driver has stopped, and a call in progress fails. -/
  | rollBack (call : ℕ)
  /-- A caller asks for something else. -/
  | command (command : SessionCommand)
  | turn (input : Input)
  /-- The router's turn. With `stop`, a stop is ordered while it waits for room in a stream. -/
  | route (stop : Bool)
  /-- The third task takes the oldest of the unsubscriptions. -/
  | takeKey
  /-- There is room for the unsubscription that the third task holds, or the driver has stopped. -/
  | issue
  /-- A stop, or the end of the client, reaches the third task. -/
  | stopIssuing
  | dropStream (key : SubscriptionKey)
  | dropSessionEvents
  /-- An ordered stop reaches the router. -/
  | stopRouter
  deriving DecidableEq

namespace Tasks

/-- A client before its first turn. -/
def start (properties : TransportProperties) (options : SessionOptions) (seed : UInt64)
    (now capacity : ℕ) : Tasks :=
  ⟨.start properties options seed now, .new, true, 0, [], [], 1, [], [], .idle, .polling, capacity,
    [], 0⟩

/-! ## The call of `connect` -/

/-- Hold a session event that came before the caller could hold the stream. -/
def stage (staged : List SessionEvent) (event : SessionEvent) (limit : ℕ) : List SessionEvent :=
  if staged.length < limit then staged ++ [event] else staged

/-- Drop what the caller holds of the stream of the session. -/
def closeSession (w : Tasks) : Tasks :=
  { w with router := { w.router with session := { w.router.session with dropped := true } } }

/-- `connect` returns. When it failed, nobody holds the stream of the session any more. -/
def finish (w : Tasks) (result : Except ConnectError BoundInfo) : Tasks :=
  match result with
  | .ok _ => { w with connecting := .returned result }
  | .error _ => { w.closeSession with connecting := .returned result }

def poll (w : Tasks) : Option Tasks :=
  match w.connecting with
  | .returned _ => none
  | .polling | .receiving =>
    match w.router.outcome with
    | some result => some (w.finish result)
    | none => some { w with connecting := .receiving }

def receive (w : Tasks) : Option Tasks :=
  match w.connecting with
  | .polling | .returned _ => none
  | .receiving =>
    match w.router.session.events[w.drained]? with
    | some event => some { w with
        connecting := .polling
        staged := stage w.staged event w.capacity
        drained := w.drained + 1 }
    | none => if w.routing then none else some (w.finish (.error .disconnected))

/-- A caller has the client and the stream of the session, as `connect` returned them. -/
def connected (w : Tasks) : Bool :=
  match w.connecting with
  | .returned (.ok _) => true
  | _ => false

/-! ## What callers do -/

/-- The driver still takes commands. -/
def driving (w : Tasks) : Bool := isRunning w.drive.phase

/-- Send the router a command: nobody receives it once the router has stopped. -/
def ask (w : Tasks) (command : RouterCommand) : Tasks :=
  if w.routing then { w with commands := w.commands ++ [command] } else w

/-- Create the stream of a new key. -/
def openStream (w : Tasks) (key : SubscriptionKey) : Tasks :=
  { w with router := { w.router with streams := w.router.streams.insert key .new } }

/-- Drop what the caller holds of a stream. -/
def closeStream (w : Tasks) (key : SubscriptionKey) : Tasks :=
  { w with router := { w.router with
      streams := w.router.streams.modify key fun c => { c with dropped := true } } }

/-- `Client::subscribe`, up to the wait for the driver's channel. -/
def subscribe (w : Tasks) (spec : SubscriptionSpec) : Option Tasks :=
  if w.connected then
    (checkedAdd u64Max w.nextKey 1).map fun next =>
      let key := w.nextKey
      let w := { w with nextKey := next }
      if w.routing then
        let w := (w.openStream key).ask (.register key)
        { w with calls := w.calls ++ [(key, spec)] }
      else w
  else none

/-- The driver's channel has room for the `Subscribe` of a call. -/
def submit (w : Tasks) (call : ℕ) : Option Tasks :=
  if w.driving then
    w.calls[call]?.map fun c => { w with
      calls := w.calls.eraseIdx call
      mailbox := w.mailbox ++ [.subscribe c.1 c.2] }
  else none

/-- The driver's channel is closed: the registration of a call is undone, and the call fails. -/
def rollBack (w : Tasks) (call : ℕ) : Option Tasks :=
  if w.driving then none
  else w.calls[call]?.map fun c =>
    ({ w with calls := w.calls.eraseIdx call }.closeStream c.1).ask (.unregister c.1)

/-- The caller drops a stream that `subscribe` returned, and the router is told. -/
def dropStream (w : Tasks) (key : SubscriptionKey) : Option Tasks :=
  if (w.router.streams.get? key).map Channel.dropped = some false ∧ key ∉ w.calls.map Prod.fst then
    some ((w.closeStream key).ask (.streamDropped key))
  else none

/-- A command other than `Subscribe` is sent to the driver. -/
def send (w : Tasks) (command : SessionCommand) : Option Tasks :=
  if w.connected ∧ w.driving ∧ command.subscribed = [] then
    some { w with mailbox := w.mailbox ++ [command] }
  else none

/-! ## The turns of the tasks -/

/-- The driver's turn. A command it takes is the oldest one that was sent. -/
def turn (w : Tasks) (input : Input) : Option Tasks :=
  match input.wake with
  | .command command =>
    if w.mailbox.head? = some command then
      (w.drive.step input).map fun drive => { w with
        drive := drive
        mailbox := w.mailbox.tail
        subscribed := w.subscribed ++ command.subscribed }
    else none
  | _ => (w.drive.step input).map fun drive => { w with drive := drive }

/-- The event that the router takes next: commands come before events, and a stop before both
further events and the end of the stream. -/
def next (w : Tasks) : Option Session.SessionEvent :=
  if w.routing ∧ w.commands = [] ∧ w.router.stop = false then
    (channelled w.drive.driver.trace)[w.handled]?
  else none

/-- The router's turn. -/
def route (w : Tasks) (stop : Bool) : Option Tasks :=
  match w.commands with
  | command :: commands =>
    if w.routing then
      some { w with router := w.router.onCommand command, commands := commands }
    else none
  | [] =>
    w.next.map fun event =>
      let (done, router) := { w.router with stop := stop }.onSessionEvent event
      { w with router := router, handled := w.handled + 1, routing := !done }

def takeKey (w : Tasks) : Option Tasks :=
  match w.issuing, w.router.unsubscribe with
  | .idle, key :: keys => some { w with
      router := { w.router with unsubscribe := keys }
      issuing := .holding key }
  | _, _ => none

def issue (w : Tasks) : Option Tasks :=
  match w.issuing with
  | .holding key =>
    if w.driving then
      some { w with mailbox := w.mailbox ++ [.unsubscribe key], issuing := .idle }
    else some { w with issuing := .stopped }
  | _ => none

def step (w : Tasks) : Move → Option Tasks
  | .poll => w.poll
  | .receive => w.receive
  | .subscribe spec => w.subscribe spec
  | .submit call => w.submit call
  | .rollBack call => w.rollBack call
  | .command command => w.send command
  | .turn input => w.turn input
  | .route stop => w.route stop
  | .takeKey => w.takeKey
  | .issue => w.issue
  | .stopIssuing => some { w with issuing := .stopped }
  | .dropStream key => w.dropStream key
  | .dropSessionEvents => if w.connected then some w.closeSession else none
  | .stopRouter => some { w with router := w.router.failReady .disconnected, routing := false }

/-! ## What a move can do -/

/-- All that a move can do. -/
inductive Does (w : Tasks) : Move → Tasks → Prop
  | waits (hconnecting : ∀ result, w.connecting ≠ .returned result)
      (houtcome : w.router.outcome = none) : Does w .poll { w with connecting := .receiving }
  | ready {result : Except ConnectError BoundInfo}
      (hconnecting : ∀ result, w.connecting ≠ .returned result)
      (houtcome : w.router.outcome = some result) : Does w .poll (w.finish result)
  | receives {event : SessionEvent} (hconnecting : w.connecting = .receiving)
      (hevent : w.router.session.events[w.drained]? = some event) :
      Does w .receive { w with
        connecting := .polling
        staged := stage w.staged event w.capacity
        drained := w.drained + 1 }
  | findsClosed (hconnecting : w.connecting = .receiving) (hrouting : w.routing = false) :
      Does w .receive (w.finish (.error .disconnected))
  | subscribes {spec : SubscriptionSpec} (hrouting : w.routing = true) :
      Does w (.subscribe spec) { w with
        nextKey := w.nextKey + 1
        router := { w.router with streams := w.router.streams.insert w.nextKey .new }
        commands := w.commands ++ [.register w.nextKey]
        calls := w.calls ++ [(w.nextKey, spec)] }
  | subscribesLate {spec : SubscriptionSpec} (hrouting : w.routing = false) :
      Does w (.subscribe spec) { w with nextKey := w.nextKey + 1 }
  | submits {call : ℕ} {c : SubscriptionKey × SubscriptionSpec} (hc : w.calls[call]? = some c) :
      Does w (.submit call) { w with
        calls := w.calls.eraseIdx call
        mailbox := w.mailbox ++ [.subscribe c.1 c.2] }
  | rollsBack {call : ℕ} {c : SubscriptionKey × SubscriptionSpec} (hc : w.calls[call]? = some c) :
      Does w (.rollBack call)
        (({ w with calls := w.calls.eraseIdx call }.closeStream c.1).ask (.unregister c.1))
  | sends {command : SessionCommand} (hcommand : command.subscribed = []) :
      Does w (.command command) { w with mailbox := w.mailbox ++ [command] }
  | takes {input : Input} {command : SessionCommand} {rest : List SessionCommand} {drive : Drive}
      (hwake : input.wake = .command command) (hmailbox : w.mailbox = command :: rest)
      (hdrive : w.drive.step input = some drive) : Does w (.turn input) { w with
        drive := drive, mailbox := rest, subscribed := w.subscribed ++ command.subscribed }
  | turns {input : Input} {drive : Drive} (hwake : ∀ command, input.wake ≠ .command command)
      (hdrive : w.drive.step input = some drive) : Does w (.turn input) { w with drive := drive }
  | obeys {stop : Bool} {command : RouterCommand} {commands : List RouterCommand}
      (hrouting : w.routing = true) (hcommands : w.commands = command :: commands) :
      Does w (.route stop)
        { w with router := w.router.onCommand command, commands := commands }
  | routes {stop : Bool} {event : Session.SessionEvent} (hnext : w.next = some event) :
      Does w (.route stop) { w with
        router := ({ w.router with stop := stop }.onSessionEvent event).2
        handled := w.handled + 1
        routing := !({ w.router with stop := stop }.onSessionEvent event).1 }
  | takesKey {key : SubscriptionKey} {keys : List SubscriptionKey} (hissuing : w.issuing = .idle)
      (hkeys : w.router.unsubscribe = key :: keys) : Does w .takeKey { w with
        router := { w.router with unsubscribe := keys }, issuing := .holding key }
  | issues {key : SubscriptionKey} (hissuing : w.issuing = .holding key) :
      Does w .issue { w with mailbox := w.mailbox ++ [.unsubscribe key], issuing := .idle }
  | fails (hdriving : w.driving = false) : Does w .issue { w with issuing := .stopped }
  | stopsIssuing : Does w .stopIssuing { w with issuing := .stopped }
  | drops {key : SubscriptionKey}
      (hheld : (w.router.streams.get? key).map Channel.dropped = some false) :
      Does w (.dropStream key) ((w.closeStream key).ask (.streamDropped key))
  | dropsSession (hconnected : w.connected = true) : Does w .dropSessionEvents w.closeSession
  | stops : Does w .stopRouter
      { w with router := w.router.failReady .disconnected, routing := false }

variable {key : SubscriptionKey} {w w' : Tasks} {move : Move}

theorem next_eq_some {event : Session.SessionEvent} (h : w.next = some event) :
    w.routing = true ∧ w.commands = [] ∧ w.router.stop = false ∧
      (channelled w.drive.driver.trace)[w.handled]? = some event := by
  unfold next at h
  split_ifs at h with hready
  exact ⟨hready.1, hready.2.1, hready.2.2, h⟩

theorem poll_does (h : w.poll = some w') : Does w .poll w' := by
  unfold poll at h
  have hpoll : (∀ result, w.connecting ≠ .returned result) →
      (match w.router.outcome with
        | some result => some (w.finish result)
        | none => some { w with connecting := .receiving }) = some w' → Does w .poll w' := by
    intro hconnecting h
    split at h
    · rename_i houtcome
      cases h
      exact .ready hconnecting houtcome
    · rename_i houtcome
      cases h
      exact .waits hconnecting houtcome
  split at h
  · cases h
  all_goals
    rename_i hconnecting
    refine hpoll (fun result => ?_) h
    rw [hconnecting]
    exact Connecting.noConfusion

theorem receive_does (h : w.receive = some w') : Does w .receive w' := by
  unfold receive at h
  split at h
  · cases h
  · cases h
  · rename_i hconnecting
    split at h
    · rename_i hevent
      cases h
      exact .receives hconnecting hevent
    · split_ifs at h with hrouting
      cases h
      exact .findsClosed hconnecting (Bool.not_eq_true _ ▸ hrouting)

theorem subscribe_does {spec : SubscriptionSpec} (h : w.subscribe spec = some w') :
    Does w (.subscribe spec) w' := by
  unfold subscribe at h
  split_ifs at h
  obtain ⟨next, hnext, rfl⟩ := Option.map_eq_some_iff.1 h
  obtain rfl : next = w.nextKey + 1 := by
    unfold checkedAdd at hnext
    split_ifs at hnext
    exact (Option.some.inj hnext).symm
  dsimp only [openStream, ask]
  by_cases hrouting : w.routing = true
  · rw [if_pos hrouting, if_pos hrouting]
    exact .subscribes hrouting
  · rw [if_neg hrouting]
    exact .subscribesLate (Bool.not_eq_true _ ▸ hrouting)

theorem turn_does {input : Input} (h : w.turn input = some w') : Does w (.turn input) w' := by
  unfold turn at h
  split at h
  · rename_i command hwake
    split_ifs at h with hhead
    obtain ⟨rest, hmailbox⟩ := List.head?_eq_some_iff.1 hhead
    obtain ⟨drive, hdrive, rfl⟩ := Option.map_eq_some_iff.1 h
    rw [hmailbox, List.tail_cons]
    exact .takes hwake hmailbox hdrive
  · rename_i hwake
    obtain ⟨drive, hdrive, rfl⟩ := Option.map_eq_some_iff.1 h
    exact .turns hwake hdrive

theorem route_does {stop : Bool} (h : w.route stop = some w') : Does w (.route stop) w' := by
  unfold route at h
  split at h
  · rename_i command commands hcommands
    split_ifs at h with hrouting
    cases h
    exact .obeys hrouting hcommands
  · obtain ⟨event, hnext, rfl⟩ := Option.map_eq_some_iff.1 h
    exact .routes hnext

theorem takeKey_does (h : w.takeKey = some w') : Does w .takeKey w' := by
  unfold takeKey at h
  split at h
  · rename_i hissuing hkeys
    cases h
    exact .takesKey hissuing hkeys
  · cases h

theorem issue_does (h : w.issue = some w') : Does w .issue w' := by
  unfold issue at h
  split at h
  · rename_i hissuing
    split_ifs at h with hdriving
    · cases h
      exact .issues hissuing
    · cases h
      exact .fails (Bool.not_eq_true _ ▸ hdriving)
  · cases h

/-- A move does one of these. -/
theorem step_does (h : w.step move = some w') : Does w move w' := by
  cases move with
  | poll => exact poll_does h
  | receive => exact receive_does h
  | subscribe spec => exact subscribe_does h
  | submit call =>
    change w.submit call = some w' at h
    unfold submit at h
    split_ifs at h
    obtain ⟨c, hc, rfl⟩ := Option.map_eq_some_iff.1 h
    exact .submits hc
  | rollBack call =>
    change w.rollBack call = some w' at h
    unfold rollBack at h
    split_ifs at h
    obtain ⟨c, hc, rfl⟩ := Option.map_eq_some_iff.1 h
    exact .rollsBack hc
  | command command =>
    change w.send command = some w' at h
    unfold send at h
    split_ifs at h with hsend
    cases h
    exact .sends hsend.2.2
  | turn input => exact turn_does h
  | route stop => exact route_does h
  | takeKey => exact takeKey_does h
  | issue => exact issue_does h
  | stopIssuing =>
    cases h
    exact .stopsIssuing
  | dropStream key =>
    change w.dropStream key = some w' at h
    unfold dropStream at h
    split_ifs at h with hheld
    cases h
    exact .drops hheld.1
  | dropSessionEvents =>
    change (if w.connected then some w.closeSession else none) = some w' at h
    split_ifs at h with hconnected
    cases h
    exact .dropsSession hconnected
  | stopRouter =>
    cases h
    exact .stops

end Tasks

end Lightstreamer.Client
