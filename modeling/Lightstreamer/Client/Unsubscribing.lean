import Lightstreamer.Client.Streams

/-!
# Unsubscriptions

An unsubscription that a caller asks for, by dropping a stream or in so many words, goes through the
router's commands, the queue and the hands of the task that issues unsubscriptions, and the driver's
commands. Each of the three tasks may stop, and then what it has yet to pass on is lost. Over any
run of a client's tasks the driver takes no more of them than were asked for, and as long as the
three run each one was taken or is under way (`unsubscriptions_conserved`).
-/

namespace Lightstreamer.Client

open Lightstreamer.Foundations Lightstreamer.Protocol Lightstreamer.Subscription
open Lightstreamer.Session hiding SessionEvent

/-- The key in the hands of the task that issues unsubscriptions. -/
def Issuing.held : Issuing → List SubscriptionKey
  | .holding key => [key]
  | .idle | .stopped => []

/-- The task that issues unsubscriptions has not ended. -/
def Issuing.isRunning : Issuing → Bool
  | .idle | .holding _ => true
  | .stopped => false

/-- What waits for a task, if that runs. -/
def waiting (running : Bool) (n : ℕ) : ℕ := if running then n else 0

@[simp] theorem waiting_true (n : ℕ) : waiting true n = n := rfl

@[simp] theorem waiting_false (n : ℕ) : waiting false n = 0 := rfl

theorem waiting_le (running : Bool) (n : ℕ) : waiting running n ≤ n := by
  cases running <;> simp

@[simp] theorem waiting_zero (running : Bool) : waiting running 0 = 0 := by
  cases running <;> rfl

namespace Tasks

variable {key : SubscriptionKey} {w w' : Tasks} {move : Move}

/-- The unsubscriptions of a key that are under way, each with a task that runs. -/
def underWay (key : SubscriptionKey) (w : Tasks) : ℕ :=
  waiting w.routing (w.commands.count (.streamDropped key)) +
    waiting w.issuing.isRunning (w.router.unsubscribe.count key + w.issuing.held.count key) +
    waiting w.driving (w.mailbox.count (.unsubscribe key))

/-- The tasks that an unsubscription goes through all run. -/
structure Running (w : Tasks) : Prop where
  routing : w.routing = true
  issuing : w.issuing.isRunning = true
  driving : w.driving = true

/-- A caller drops the stream of the key, or asks to unsubscribe it. -/
def asksToLeave (key : SubscriptionKey) (w : Tasks) : Move → Bool
  | .dropStream k => w.routing && k = key
  | .command command => command = .unsubscribe key
  | _ => false

/-- The driver takes an `Unsubscribe` of the key. -/
def takesLeave (key : SubscriptionKey) (_ : Tasks) : Move → Bool
  | .turn input => input.wake = .command (.unsubscribe key)
  | _ => false

/-- A driver that has ended takes no turn. -/
theorem driving_of_step {i : Input} {drive : Drive} (h : w.drive.step i = some drive) :
    w.driving = true := by
  unfold driving isRunning
  split
  · rename_i hclosed
    rw [Drive.step, hclosed] at h
    cases h
  all_goals rfl

/-- What a move does to the unsubscriptions under way: none appears but what a caller asks for, and
none is lost where the tasks still run. -/
def Conserves (key : SubscriptionKey) (w : Tasks) (move : Move) (w' : Tasks) : Prop :=
  underWay key w' + (if takesLeave key w move then 1 else 0) ≤
      underWay key w + (if asksToLeave key w move then 1 else 0) ∧
    (Running w' → Running w ∧
      underWay key w' + (if takesLeave key w move then 1 else 0) =
        underWay key w + if asksToLeave key w move then 1 else 0)

namespace Conserves

/-- What a move asks for and takes, counted. -/
theorem of_counts {a t : ℕ} (hasks : (if asksToLeave key w move then 1 else 0) = a)
    (htakes : (if takesLeave key w move then 1 else 0) = t)
    (hle : underWay key w' + t ≤ underWay key w + a)
    (heq : Running w' → Running w ∧ underWay key w' + t = underWay key w + a) :
    Conserves key w move w' := by
  rw [Conserves, hasks, htakes]
  exact ⟨hle, heq⟩

/-- A move that leaves the tasks running, and the unsubscriptions under way. -/
theorem of_eq (hasks : asksToLeave key w move = false) (htakes : takesLeave key w move = false)
    (hunderWay : underWay key w' = underWay key w) (hrunning : Running w' → Running w) :
    Conserves key w move w' := by
  have hasks : (if asksToLeave key w move then 1 else 0) = 0 := by simp [hasks]
  have htakes : (if takesLeave key w move then 1 else 0) = 0 := by simp [htakes]
  exact .of_counts hasks htakes hunderWay.le fun h => ⟨hrunning h, hunderWay⟩

/-- A move that ends a task, and what it had yet to pass on is lost. -/
theorem of_lost (htakes : takesLeave key w move = false)
    (hunderWay : underWay key w' ≤ underWay key w) (hrunning : ¬Running w') :
    Conserves key w move w' := by
  have htakes : (if takesLeave key w move then 1 else 0) = 0 := by simp [htakes]
  exact .of_counts rfl htakes (Nat.le_add_right_of_le hunderWay) fun h => absurd h hrunning

end Conserves

/-- A command to the router, which takes it while it runs. -/
theorem underWay_ask (key : SubscriptionKey) (w : Tasks) (c : RouterCommand) :
    underWay key (w.ask c) =
      underWay key w + if w.routing ∧ c = .streamDropped key then 1 else 0 := by
  unfold ask
  cases hrouting : w.routing with
  | false => simp
  | true =>
    simp only [underWay, driving, hrouting, waiting_true, if_true, true_and, List.count_append,
      List.count_cons, List.count_nil, beq_iff_eq]
    omega

theorem running_of_ask {c : RouterCommand} (h : Running (w.ask c)) : Running w := by
  unfold ask at h
  split_ifs at h
  · exact ⟨h.routing, h.issuing, h.driving⟩
  · exact h

/-- The driver takes a turn, and with it the oldest command or none. -/
theorem conserves_turn {i : Input} {mailbox : List SessionCommand} {drive : Drive}
    (hcount : mailbox.count (.unsubscribe key) + (if takesLeave key w (.turn i) then 1 else 0) =
      w.mailbox.count (.unsubscribe key))
    (hdrive : w.drive.step i = some drive) (subscribed : List SubscriptionKey) :
    Conserves key w (.turn i)
      { w with drive := drive, mailbox := mailbox, subscribed := subscribed } := by
  have hdriving := driving_of_step hdrive
  have hle := waiting_le (isRunning drive.phase) (mailbox.count (.unsubscribe key))
  refine .of_counts (a := 0) rfl rfl ?_ fun h => ⟨⟨h.routing, h.issuing, hdriving⟩, ?_⟩
  · rw [underWay, underWay, hdriving, waiting_true, ← hcount]
    simp only [driving]
    omega
  · have hdriving' : isRunning drive.phase = true := h.driving
    rw [underWay, underWay, hdriving, waiting_true, ← hcount]
    simp only [driving, hdriving', waiting_true]
    omega

/-- A command is sent to the driver, which takes it while it runs. -/
theorem underWay_send (key : SubscriptionKey) (w : Tasks) (c : SessionCommand) :
    underWay key { w with mailbox := w.mailbox ++ [c] } =
      underWay key w + if w.driving ∧ c = .unsubscribe key then 1 else 0 := by
  cases hdriving : isRunning w.drive.phase with
  | false => simp [underWay, driving, hdriving]
  | true =>
    simp only [underWay, driving, hdriving, waiting_true, true_and, List.count_append,
      List.count_cons, List.count_nil, beq_iff_eq]
    omega

/-- The router takes a command, and passes on the unsubscription of a dropped stream. -/
theorem conserves_obeys {stop : Bool} {c : RouterCommand} {commands : List RouterCommand}
    (hrouting : w.routing = true) (hcommands : w.commands = c :: commands) :
    Conserves key w (.route stop)
      { w with router := w.router.onCommand c, commands := commands } := by
  have hcount : commands.count (.streamDropped key) +
      (w.router.onCommand c).unsubscribe.count key =
        w.commands.count (.streamDropped key) + w.router.unsubscribe.count key := by
    rw [hcommands]
    cases c with
    | register | unregister => simp [Router.onCommand]
    | streamDropped id =>
      simp only [Router.onCommand, List.count_append, List.count_cons, List.count_nil, beq_iff_eq,
        RouterCommand.streamDropped.injEq]
      omega
  have hle : commands.count (.streamDropped key) ≤ w.commands.count (.streamDropped key) := by
    rw [hcommands]
    exact List.count_le_count_cons
  refine .of_counts (a := 0) (t := 0) rfl rfl ?_ fun h =>
    ⟨⟨hrouting, h.issuing, h.driving⟩, ?_⟩
  · simp only [underWay, driving, hrouting, waiting_true]
    cases w.issuing.isRunning <;> simp only [waiting_true, waiting_false] <;> omega
  · have hissuing : w.issuing.isRunning = true := h.issuing
    simp only [underWay, driving, hrouting, hissuing, waiting_true]
    omega

/-- The third task hands its key to the driver. -/
theorem conserves_issues {k : SubscriptionKey} (hissuing : w.issuing = .holding k) :
    Conserves key w .issue
      { w with mailbox := w.mailbox ++ [.unsubscribe k], issuing := .idle } := by
  have hrunning : w.issuing.isRunning = true := by rw [hissuing]; rfl
  have hidle : Issuing.idle.isRunning = true := rfl
  have hheld : w.issuing.held.count key = if k = key then 1 else 0 := by
    simp [hissuing, Issuing.held, List.count_cons]
  have hnone : Issuing.idle.held.count key = 0 := rfl
  have hsent : (w.mailbox ++ [SessionCommand.unsubscribe k]).count (.unsubscribe key) =
      w.mailbox.count (.unsubscribe key) + if k = key then 1 else 0 := by
    simp [List.count_cons]
  refine .of_counts (a := 0) (t := 0) rfl rfl ?_ fun h =>
    ⟨⟨h.routing, hrunning, h.driving⟩, ?_⟩
  · simp only [underWay, driving, hrunning, hidle, hheld, hnone, hsent, waiting_true]
    cases isRunning w.drive.phase <;> simp only [waiting_true, waiting_false] <;> omega
  · have hdriving : isRunning w.drive.phase = true := h.driving
    simp only [underWay, driving, hrunning, hidle, hheld, hnone, hsent, hdriving, waiting_true]
    omega

/-- The third task ends, and with it what it holds and what is queued for it. -/
theorem underWay_stopIssuing (key : SubscriptionKey) (w : Tasks) :
    underWay key { w with issuing := .stopped } ≤ underWay key w := by
  simp only [underWay, driving, Issuing.isRunning, waiting_false]
  omega

theorem step_conserves (hstep : w.step move = some w') : Conserves key w move w' := by
  cases step_does hstep with
  | waits | receives | subscribesLate | dropsSession =>
    exact .of_eq rfl rfl rfl fun h => ⟨h.routing, h.issuing, h.driving⟩
  | ready | findsClosed =>
    obtain ⟨session, hfinish⟩ := w.finish_eq _
    rw [hfinish]
    exact .of_eq rfl rfl rfl fun h => ⟨h.routing, h.issuing, h.driving⟩
  | subscribes =>
    refine .of_eq rfl rfl ?_ fun h => ⟨h.routing, h.issuing, h.driving⟩
    simp [underWay, driving]
  | submits =>
    refine .of_eq rfl rfl ?_ fun h => ⟨h.routing, h.issuing, h.driving⟩
    simp [underWay, driving]
  | rollsBack =>
    refine .of_eq rfl rfl ?_ fun h => ?_
    · rw [underWay_ask, if_neg fun h => by cases h.2]
      rfl
    · have h' := running_of_ask h
      exact ⟨h'.routing, h'.issuing, h'.driving⟩
  | @sends command =>
    have hsend := underWay_send key w command
    have hasks : (if asksToLeave key w (.command command) then 1 else 0) =
        if command = .unsubscribe key then 1 else 0 := by simp [asksToLeave]
    refine .of_counts (t := 0) hasks rfl ?_ fun h => ⟨⟨h.routing, h.issuing, h.driving⟩, ?_⟩
    · rw [hsend, add_zero]
      split_ifs with hboth hc <;> simp_all
    · have hdriving : w.driving = true := h.driving
      rw [hsend, add_zero, hdriving]
      simp only [true_and]
  | @takes input command rest drive hwake hmailbox hdrive =>
    refine conserves_turn ?_ hdrive _
    simp [takesLeave, hwake, hmailbox, List.count_cons]
  | @turns input drive hwake hdrive =>
    refine conserves_turn ?_ hdrive _
    have hnone : takesLeave key w (.turn input) = false := by
      simp only [takesLeave, decide_eq_false_iff_not]
      exact hwake _
    rw [hnone]
    rfl
  | obeys hrouting hcommands => exact conserves_obeys hrouting hcommands
  | @routes stop event hnext =>
    obtain ⟨hrouting, hcommands, -, -⟩ := next_eq_some hnext
    have hrest : ({ w.router with stop := stop }.onSessionEvent event).2.unsubscribe =
        w.router.unsubscribe := (Router.onSessionEvent_rest _ event).1
    refine .of_eq rfl rfl ?_ fun h => ⟨hrouting, h.issuing, h.driving⟩
    simp only [underWay, driving, hcommands, hrest, List.count_nil, waiting_zero]
  | @takesKey k keys hissuing hkeys =>
    refine .of_eq rfl rfl ?_ fun h => ⟨h.routing, by rw [hissuing]; rfl, h.driving⟩
    simp [underWay, driving, hissuing, hkeys, Issuing.held, Issuing.isRunning, List.count_cons]
  | issues hissuing => exact conserves_issues hissuing
  | fails | stopsIssuing =>
    exact .of_lost rfl (underWay_stopIssuing key w) fun h => by cases h.issuing
  | @drops k =>
    have hask := underWay_ask key (w.closeStream k) (.streamDropped k)
    have hclosed : underWay key (w.closeStream k) = underWay key w := rfl
    rw [hclosed] at hask
    have hasks : (if asksToLeave key w (.dropStream k) then 1 else 0) =
        if (w.closeStream k).routing ∧ RouterCommand.streamDropped k = .streamDropped key then 1
          else 0 := by
      simp [asksToLeave, closeStream]
    rw [Conserves, hask, hasks]
    refine ⟨le_rfl, fun h => ⟨?_, rfl⟩⟩
    have h' := running_of_ask h
    exact ⟨h'.routing, h'.issuing, h'.driving⟩
  | stops =>
    obtain ⟨ready, outcome, hfail⟩ := w.router.failReady_eq .disconnected
    rw [hfail]
    refine .of_lost rfl ?_ fun h => by cases h.routing
    simp only [underWay, driving, waiting_false]
    omega

variable {properties : TransportProperties} {options : SessionOptions} {seed : UInt64}
  {now capacity : ℕ} {moves : List Move}

/-- **No unsubscription is doubled, and none is lost while the tasks run.** In every run, what the
driver has taken of a key and what is under way is no more than what callers asked for, by dropping
the stream while the router runs or in so many words; and it is all of that as long as the router,
the task that issues unsubscriptions and the driver run. -/
theorem unsubscriptions_conserved (key : SubscriptionKey)
    (hrun : exec step (start properties options seed now capacity) moves = some w) :
    underWay key w +
        countSteps step (takesLeave key) (start properties options seed now capacity) moves ≤
      countSteps step (asksToLeave key) (start properties options seed now capacity) moves ∧
    (Running w → underWay key w +
        countSteps step (takesLeave key) (start properties options seed now capacity) moves =
      countSteps step (asksToLeave key) (start properties options seed now capacity) moves) := by
  have hstart : underWay key (start properties options seed now capacity) = 0 := rfl
  refine ⟨?_, fun hrunning => ?_⟩
  · have h := exec_balance_le (underWay key) (asksToLeave key) (takesLeave key)
      (fun _ _ _ hstep => (step_conserves hstep).1) hrun
    rwa [hstart, Nat.zero_add] at h
  · have h := (exec_balance (underWay key) (asksToLeave key) (takesLeave key)
      (fun _ _ _ hstep => (step_conserves hstep).2) hrun hrunning).2
    rwa [hstart, Nat.zero_add] at h

/-- A stream that was dropped, and a task that holds its key. -/
def dropped : List Move := connects ++ asking ++ [.dropStream 1, .route false, .takeKey]

theorem unsubscriptions_conserved_dropped :
    ∃ w, exec step (start ⟨true, false, false⟩ .default 1 0 8) dropped = some w ∧
      underWay 1 w = 1 ∧ Running w ∧
      (underWay 1 w + countSteps step (takesLeave 1) (start ⟨true, false, false⟩ .default 1 0 8)
          dropped ≤
        countSteps step (asksToLeave 1) (start ⟨true, false, false⟩ .default 1 0 8) dropped ∧
      (Running w → underWay 1 w +
          countSteps step (takesLeave 1) (start ⟨true, false, false⟩ .default 1 0 8) dropped =
        countSteps step (asksToLeave 1) (start ⟨true, false, false⟩ .default 1 0 8) dropped)) := by
  have h : ∃ w, exec step (start ⟨true, false, false⟩ .default 1 0 8) dropped = some w ∧
      underWay 1 w = 1 ∧ Running w := ⟨_, rfl, rfl, ⟨rfl, rfl, rfl⟩⟩
  obtain ⟨w, h, hunderWay, hrunning⟩ := h
  exact ⟨w, h, hunderWay, hrunning, unsubscriptions_conserved 1 h⟩

end Tasks

end Lightstreamer.Client
