import Lightstreamer.Session.Step

/-!
# Whose turn it is

`Drive.step` leaves it to its schedule which future wins a turn. `Scheduled.step` is the driver
under the priorities of its three waits: the server comes first in the pump, and after every
`maxLinesPerTurn` lines it comes last, once. So a server that never pauses cannot keep off what else
is ready: a command (`Scheduled.Reachable.commands_served`), an ordered stop or a timer
(`Scheduled.Reachable.urgent_served`).
-/

namespace Lightstreamer.Session

open Lightstreamer.Foundations Lightstreamer.Protocol

/-- How many lines are taken in a row before the priorities are inverted for one turn. -/
def maxLinesPerTurn : ℕ := 32

/-- What the pending call of the transport gives. -/
inductive Answer
  | line (text : String)
  | lineFailed (detail : String)
  | streamEnded
  | opened
  | openFailed (detail : String)
  | openTimedOut
  deriving DecidableEq

def Answer.wake : Answer → Wake
  | .line text => .line text
  | .lineFailed detail => .lineFailed detail
  | .streamEnded => .streamEnded
  | .opened => .opened
  | .openFailed detail => .openFailed detail
  | .openTimedOut => .openTimedOut

/-- The wake of a line, or of what came in its place. -/
def Wake.isLine : Wake → Bool
  | .line _ | .lineFailed _ | .streamEnded => true
  | _ => false

/-- What is ready when the driver looks: the answer of the transport, the commands that have come
since the last turn, whether every handle was dropped, an ordered stop, and whether the sleep is
over. -/
structure Moment where
  answer : Option Answer := none
  arrived : List SessionCommand := []
  dropped : Bool := false
  stop : Bool := false
  elapsed : Bool := false
  turn : Turn := {}

/-- The driver, the lines it took in a row, and the commands that wait. -/
structure Scheduled where
  drive : Drive
  consecutiveLines : ℕ
  queue : List SessionCommand
  deriving DecidableEq

namespace Scheduled

/-- What the command channel gives. -/
def received (queue : List SessionCommand) (dropped : Bool) : Option Wake :=
  match queue with
  | command :: _ => some (.command command)
  | [] => if dropped then some .handlesDropped else none

/-- What the stop lane gives. -/
def ordered (stop : Bool) : Option Wake := if stop then some .stop else none

/-- What the timer gives: in the pump it is armed only while there is a deadline. -/
def timer (s : Scheduled) (m : Moment) : Option Wake :=
  match s.drive.phase with
  | .pumping =>
    if m.elapsed && s.drive.driver.liveness.nextDeadline.isSome then some .timer else none
  | _ => if m.elapsed then some .timer else none

/-- What is ready beside the server: a command before a stop before the timer. -/
def others (s : Scheduled) (m : Moment) : Option Wake :=
  (received (s.queue ++ m.arrived) m.dropped).or ((ordered m.stop).or (s.timer m))

/-- Which future wins the turn. -/
def pick (s : Scheduled) (m : Moment) : Option Wake :=
  let answer := m.answer.map Answer.wake
  match s.drive.phase with
  | .waiting _ => s.others m
  | .opening => answer.or (ordered m.stop)
  | .pumping =>
    if maxLinesPerTurn ≤ s.consecutiveLines then (s.others m).or answer
    else answer.or (s.others m)
  | .closed _ => none

/-- One turn, or `none` while nothing is ready. -/
def step (s : Scheduled) (m : Moment) : Option Scheduled :=
  (s.pick m).bind fun wake =>
    let consecutive := if maxLinesPerTurn ≤ s.consecutiveLines then 0 else s.consecutiveLines
    let queue := s.queue ++ m.arrived
    (Drive.step s.drive ⟨wake, m.turn⟩).map fun drive =>
      { drive
        consecutiveLines := if wake.isLine then consecutive + 1 else 0
        queue := match wake with
          | .command _ => queue.tail
          | _ => queue }

/-! ## One turn -/

/-- The command that a wake takes off the channel. -/
def takes : Wake → List SessionCommand
  | .command command => [command]
  | _ => []

variable {s s' : Scheduled} {m : Moment} {ms : List Moment}

theorem step_cases (h : step s m = some s') :
    ∃ wake, s.pick m = some wake ∧ Drive.step s.drive ⟨wake, m.turn⟩ = some s'.drive ∧
      s'.consecutiveLines = (if wake.isLine then
        (if maxLinesPerTurn ≤ s.consecutiveLines then 0 else s.consecutiveLines) + 1 else 0) ∧
      s'.queue = (s.queue ++ m.arrived).drop (takes wake).length := by
  obtain ⟨wake, hpick, hstep⟩ := Option.bind_eq_some_iff.1 h
  obtain ⟨drive, hdrive, rfl⟩ := Option.map_eq_some_iff.1 hstep
  refine ⟨wake, hpick, hdrive, rfl, ?_⟩
  cases wake <;> simp [takes]

theorem takes_received {queue : List SessionCommand} {dropped : Bool} {wake : Wake}
    (h : received queue dropped = some wake) :
    takes wake <+: queue ∧ (wake = .handlesDropped ∨ ∃ command, wake = .command command) := by
  unfold received at h
  split at h
  · cases h
    exact ⟨⟨_, rfl⟩, .inr ⟨_, rfl⟩⟩
  · split_ifs at h
    cases h
    exact ⟨List.nil_prefix, .inl rfl⟩

theorem eq_of_ordered {stop : Bool} {wake : Wake} (h : ordered stop = some wake) :
    wake = .stop := by
  unfold ordered at h
  split_ifs at h
  exact (Option.some.inj h).symm

theorem eq_of_timer {wake : Wake} (h : s.timer m = some wake) : wake = .timer := by
  unfold timer at h
  split at h <;> split_ifs at h <;> exact (Option.some.inj h).symm

/-- What wins beside the server. -/
theorem others_cases {wake : Wake} (h : s.others m = some wake) :
    (takes wake <+: s.queue ++ m.arrived ∧ (wake = .handlesDropped ∨ ∃ c, wake = .command c)) ∨
      wake = .stop ∨ wake = .timer := by
  rw [others, Option.or_eq_some_iff, Option.or_eq_some_iff] at h
  obtain hcommand | ⟨-, hstop | ⟨-, htimer⟩⟩ := h
  · exact .inl (takes_received hcommand)
  · exact .inr (.inl (eq_of_ordered hstop))
  · exact .inr (.inr (eq_of_timer htimer))

theorem isLine_others {wake : Wake} (h : s.others m = some wake) : wake.isLine = false := by
  obtain ⟨-, rfl | ⟨c, rfl⟩⟩ | rfl | rfl := others_cases h
  · rfl
  · rfl
  · rfl
  · rfl

/-- A turn is won by the server or by what else is ready. -/
theorem pick_cases {wake : Wake} (h : s.pick m = some wake) :
    s.others m = some wake ∨ wake = .stop ∨ ∃ answer, wake = Answer.wake answer := by
  have hanswer : m.answer.map Answer.wake = some wake → ∃ answer, wake = Answer.wake answer :=
    fun h => by
      obtain ⟨answer, -, rfl⟩ := Option.map_eq_some_iff.1 h
      exact ⟨answer, rfl⟩
  unfold pick at h
  split at h
  · exact .inl h
  · obtain h | ⟨-, h⟩ := Option.or_eq_some_iff.1 h
    · exact .inr (.inr (hanswer h))
    · exact .inr (.inl (eq_of_ordered h))
  · split_ifs at h
    · obtain h | ⟨-, h⟩ := Option.or_eq_some_iff.1 h
      · exact .inl h
      · exact .inr (.inr (hanswer h))
    · obtain h | ⟨-, h⟩ := Option.or_eq_some_iff.1 h
      · exact .inr (.inr (hanswer h))
      · exact .inl h
  · cases h

/-- A command is taken from the front of the channel. -/
theorem takes_pick {wake : Wake} (h : s.pick m = some wake) :
    takes wake <+: s.queue ++ m.arrived := by
  obtain hothers | rfl | ⟨answer, rfl⟩ := pick_cases h
  · obtain ⟨htakes, -⟩ | rfl | rfl := others_cases hothers
    · exact htakes
    · exact List.nil_prefix
    · exact List.nil_prefix
  · exact List.nil_prefix
  · cases answer <;> exact List.nil_prefix

/-- No command is taken out of turn, and none is lost. -/
theorem queue_of_step {wake : Wake} (hpick : s.pick m = some wake)
    (hqueue : s'.queue = (s.queue ++ m.arrived).drop (takes wake).length) :
    s.queue ++ m.arrived = takes wake ++ s'.queue := by
  obtain ⟨rest, hrest⟩ := takes_pick hpick
  rw [hqueue, ← hrest, List.drop_left]

/-- In the pump, what else is ready waits for the server only, and not after `maxLinesPerTurn` lines
in a row. -/
theorem pick_pumping {wake : Wake} {drive : Drive} (hphase : s.drive.phase = .pumping)
    (hpick : s.pick m = some wake) (hstep : Drive.step s.drive ⟨wake, m.turn⟩ = some drive) :
    s.others m = some wake ∨ wake.isLine = true ∧
      (s.consecutiveLines < maxLinesPerTurn ∨ s.others m = none) := by
  have hanswer : m.answer.map Answer.wake = some wake → wake.isLine = true := fun h => by
    obtain ⟨answer, -, rfl⟩ := Option.map_eq_some_iff.1 h
    cases answer with
    | line | lineFailed | streamEnded => rfl
    | opened | openFailed | openTimedOut =>
      simp [Drive.step, hphase, Drive.pumpTurn, Answer.wake] at hstep
  simp only [pick, hphase] at hpick
  split_ifs at hpick with hinverted
  · obtain h | ⟨hnone, h⟩ := Option.or_eq_some_iff.1 hpick
    · exact .inl h
    · exact .inr ⟨hanswer h, .inr hnone⟩
  · obtain h | ⟨-, h⟩ := Option.or_eq_some_iff.1 hpick
    · exact .inr ⟨hanswer h, .inl (by omega)⟩
    · exact .inl h

/-! ## Any number of turns -/

/-- The turns of the driver in a run of moments. -/
def inputs (s : Scheduled) : List Moment → List Input
  | [] => []
  | m :: ms => ((s.pick m).map fun wake => ⟨wake, m.turn⟩).toList ++
      ((step s m).map fun s' => s'.inputs ms).getD []

theorem inputs_cons {wake : Wake} (hpick : s.pick m = some wake) (hstep : step s m = some s')
    (ms : List Moment) : s.inputs (m :: ms) = ⟨wake, m.turn⟩ :: s'.inputs ms := by
  simp [inputs, hpick, hstep]

/-- Under the priorities, a run is one of the runs of the driver. -/
theorem exec_inputs (h : exec step s ms = some s') :
    exec Drive.step s.drive (s.inputs ms) = some s'.drive ∧
      (s.inputs ms).length = ms.length := by
  induction ms generalizing s with
  | nil =>
    cases h
    exact ⟨rfl, rfl⟩
  | cons m ms ih =>
    obtain ⟨t, hstep, h⟩ := exec_cons_eq_some.1 h
    obtain ⟨wake, hpick, hdrive, -, -⟩ := step_cases hstep
    obtain ⟨hexec, hlength⟩ := ih h
    rw [inputs_cons hpick hstep]
    exact ⟨exec_cons_eq_some.2 ⟨t.drive, hdrive, hexec⟩, congrArg (· + 1) hlength⟩

/-- The commands that a run takes off the channel. -/
def taken (s : Scheduled) (ms : List Moment) : List SessionCommand :=
  (s.inputs ms).flatMap fun i => takes i.wake

/-- The commands are taken in the order they came, and none is lost. -/
theorem queue_of_exec (h : exec step s ms = some s') :
    s.queue ++ ms.flatMap Moment.arrived = s.taken ms ++ s'.queue := by
  induction ms generalizing s with
  | nil =>
    cases h
    simp [taken, inputs]
  | cons m ms ih =>
    obtain ⟨t, hstep, h⟩ := exec_cons_eq_some.1 h
    obtain ⟨wake, hpick, -, -, hqueue⟩ := step_cases hstep
    rw [taken, inputs_cons hpick hstep, List.flatMap_cons, List.flatMap_cons, ← List.append_assoc,
      queue_of_step hpick hqueue, List.append_assoc, List.append_assoc, ih h]
    rfl

/-! ## Nobody waits without end -/

/-- A turn of the pump: the server takes one more in its row, or something else wins and the row is
over. -/
theorem step_pumping (hphase : s.drive.phase = .pumping) (hstep : step s m = some s') :
    (∃ wake, s.pick m = some wake ∧ s'.queue = s.queue ++ m.arrived ∧
      s'.consecutiveLines ≤ maxLinesPerTurn ∧
      (s.others m = none ∨ s'.consecutiveLines = s.consecutiveLines + 1)) ∨
    ∃ wake, s.pick m = some wake ∧ s.others m = some wake ∧ s'.consecutiveLines = 0 ∧
      s.queue ++ m.arrived = takes wake ++ s'.queue := by
  obtain ⟨wake, hpick, hdrive, hrow, hqueue⟩ := step_cases hstep
  obtain hother | ⟨hline, hwhy⟩ := pick_pumping hphase hpick hdrive
  · rw [isLine_others hother] at hrow
    exact .inr ⟨wake, hpick, hother, hrow, queue_of_step hpick hqueue⟩
  · have hnone : takes wake = [] := by cases wake <;> first | rfl | cases hline
    rw [hnone] at hqueue
    rw [hline, if_pos rfl] at hrow
    refine .inl ⟨wake, hpick, hqueue, ?_, ?_⟩
    · rw [hrow]
      split_ifs
      · decide
      · omega
    · obtain hfew | hnone := hwhy
      · rw [if_neg (by omega)] at hrow
        exact .inr hrow
      · exact .inl hnone

/-- A command is ready whenever one waits. -/
theorem others_of_queue {command : SessionCommand} {rest : List SessionCommand}
    (h : s.queue ++ m.arrived = command :: rest) : s.others m = some (.command command) := by
  simp [others, received, h]

/-- How many commands are taken at least, for the turns there are. -/
theorem le_length_taken (hpump : Guarded step (fun s _ => s.drive.phase = .pumping) s ms)
    (hlines : s.consecutiveLines ≤ maxLinesPerTurn) (h : exec step s ms = some s') {n : ℕ}
    (hn : n ≤ s.queue.length)
    (hlong : (maxLinesPerTurn + 1) * n ≤ ms.length + s.consecutiveLines) :
    n ≤ (s.taken ms).length := by
  induction ms generalizing s n with
  | nil =>
    rw [List.length_nil] at hlong
    unfold maxLinesPerTurn at hlines hlong
    omega
  | cons m ms ih =>
    obtain ⟨t, hstep, h⟩ := exec_cons_eq_some.1 h
    rw [List.length_cons] at hlong
    cases n with
    | zero => exact Nat.zero_le _
    | succ n =>
      obtain ⟨command, rest, hqueue⟩ : ∃ command rest, s.queue ++ m.arrived = command :: rest :=
        List.exists_cons_of_length_pos (by rw [List.length_append]; omega)
      have hothers := others_of_queue hqueue
      obtain ⟨wake, hpick, hkept, hbound, hnone | hrow⟩ | ⟨wake, hpick, hother, hrow, hkept⟩ :=
        step_pumping hpump.1 hstep
      · rw [hnone] at hothers
        cases hothers
      · have hrest := ih (hpump.2 t hstep) hbound h (n := n + 1)
          (by rw [hkept, List.length_append]; omega) (by omega)
        rw [taken, inputs_cons hpick hstep, List.flatMap_cons, List.length_append]
        exact hrest.trans (Nat.le_add_left _ _)
      · rw [hother] at hothers
        cases hothers
        have hlength := congrArg List.length hkept
        simp only [List.length_append, takes, List.length_singleton] at hlength
        have hrest := ih (hpump.2 t hstep) (by omega) h (n := n) (by omega)
          (by unfold maxLinesPerTurn at *; omega)
        rw [taken, inputs_cons hpick hstep, List.flatMap_cons, List.length_append]
        change n + 1 ≤ 1 + (t.taken ms).length
        omega

/-- What cannot be put off for ever: an ordered stop, or the end of every handle; and the timer. -/
def urgent : Wake → Bool
  | .stop | .handlesDropped | .timer => true
  | _ => false

/-- While a stop or the timer is ready in every turn, the lines and the commands run out. -/
theorem exists_urgent (hready : Guarded step (fun s m => s.drive.phase = .pumping ∧
      (m.stop = true ∨ s.timer m = some .timer)) s ms)
    (hlines : s.consecutiveLines ≤ maxLinesPerTurn) (h : exec step s ms = some s')
    (hlong : (maxLinesPerTurn + 1) * (s.queue.length + (ms.flatMap Moment.arrived).length + 1) ≤
      ms.length + s.consecutiveLines) :
    ∃ i ∈ s.inputs ms, urgent i.wake = true := by
  induction ms generalizing s with
  | nil =>
    unfold maxLinesPerTurn at hlines hlong
    rw [List.length_nil] at hlong
    omega
  | cons m ms ih =>
    obtain ⟨t, hstep, h⟩ := exec_cons_eq_some.1 h
    rw [List.flatMap_cons, List.length_append, List.length_cons] at hlong
    obtain ⟨⟨hphase, hwaits⟩, hrest⟩ := hready
    obtain ⟨wake, hpick, hkept, hbound, hnone | hrow⟩ | ⟨wake, hpick, hother, hrow, hkept⟩ :=
      step_pumping hphase hstep
    · rw [others, Option.or_eq_none_iff, Option.or_eq_none_iff] at hnone
      obtain ⟨-, hstop, htimer⟩ := hnone
      rcases hwaits with hwaits | hwaits
      · simp [ordered, hwaits] at hstop
      · rw [hwaits] at htimer
        cases htimer
    · obtain ⟨i, hi, hurgent⟩ := ih (hrest t hstep) hbound h
        (by rw [hkept, List.length_append]; unfold maxLinesPerTurn at *; omega)
      exact ⟨i, by rw [inputs_cons hpick hstep]; exact List.mem_cons_of_mem _ hi, hurgent⟩
    · by_cases hurgent : urgent wake = true
      · exact ⟨_, by rw [inputs_cons hpick hstep]; exact List.mem_cons_self, hurgent⟩
      · obtain ⟨-, rfl | ⟨command, rfl⟩⟩ | rfl | rfl := others_cases hother
        · exact absurd rfl hurgent
        · have hlength := congrArg List.length hkept
          simp only [List.length_append, takes, List.length_singleton] at hlength
          obtain ⟨i, hi, hurgent⟩ := ih (hrest t hstep) (by omega) h
            (by unfold maxLinesPerTurn at *; omega)
          exact ⟨i, by rw [inputs_cons hpick hstep]; exact List.mem_cons_of_mem _ hi, hurgent⟩
        · exact absurd rfl hurgent
        · exact absurd rfl hurgent

/-- A stop that wins ends the run. -/
theorem closed_of_step {drive drive' : Drive} {wake : Wake} {turn : Turn}
    (hphase : drive.phase = .pumping) (hwake : wake = .stop ∨ wake = .handlesDropped)
    (hstep : Drive.step drive ⟨wake, turn⟩ = some drive') :
    drive'.phase = .closed SessionDriver.stopped := by
  rcases hwake with rfl | rfl
  all_goals
    simp only [Drive.step, hphase, Drive.pumpTurn, Option.map_some, Option.some.injEq] at hstep
    rw [← hstep, Drive.afterPump]
    split_ifs
    · rfl
    · rfl

/-- A stop comes before the timer. -/
theorem ne_timer_of_others {wake : Wake} (hstop : m.stop = true) (h : s.others m = some wake) :
    wake ≠ .timer := by
  rw [others, ordered, hstop, if_pos rfl, Option.some_or, Option.or_eq_some_iff] at h
  obtain h | ⟨-, h⟩ := h
  · obtain ⟨-, rfl | ⟨c, rfl⟩⟩ := takes_received h <;> exact Wake.noConfusion
  · cases h
    exact Wake.noConfusion

/-- With a stop ordered all along, what is urgent ends the run. -/
theorem closed_of_urgent (hready : Guarded step (fun s m => s.drive.phase = .pumping ∧
      m.stop = true) s ms) (h : exec step s ms = some s')
    (hurgent : ∃ i ∈ s.inputs ms, urgent i.wake = true) :
    s'.drive.phase = .closed SessionDriver.stopped := by
  induction ms generalizing s with
  | nil =>
    obtain ⟨i, hi, -⟩ := hurgent
    cases hi
  | cons m ms ih =>
    obtain ⟨t, hstep, h⟩ := exec_cons_eq_some.1 h
    obtain ⟨wake, hpick, hdrive, -, -⟩ := step_cases hstep
    obtain ⟨⟨hphase, hstop⟩, hrest⟩ := hready
    rw [inputs_cons hpick hstep] at hurgent
    obtain ⟨i, hi, hurgent⟩ := hurgent
    rcases List.mem_cons.1 hi with rfl | hi
    · have hwake : wake = .stop ∨ wake = .handlesDropped := by
        cases wake with
        | stop => exact .inl rfl
        | handlesDropped => exact .inr rfl
        | timer =>
          obtain hother | ⟨hline, -⟩ := pick_pumping hphase hpick hdrive
          · exact absurd rfl (ne_timer_of_others hstop hother)
          · cases hline
        | _ => cases hurgent
      have hclosed := closed_of_step hphase hwake hdrive
      cases ms with
      | nil =>
        cases h
        exact hclosed
      | cons m' ms =>
        obtain ⟨t', hstep', -⟩ := exec_cons_eq_some.1 h
        have hpumping := (hrest t hstep).1.1
        rw [hclosed] at hpumping
        cases hpumping
    · exact ih (hrest t hstep) h ⟨i, hi, hurgent⟩

/-! ## The results -/

/-- A state of the driver that the priorities allow. -/
def Reachable (properties : TransportProperties) (options : SessionOptions) (s : Scheduled) :
    Prop :=
  ∃ seed now ms, exec step ⟨Drive.start properties options seed now, 0, []⟩ ms = some s

variable {properties : TransportProperties} {options : SessionOptions}

/-- A row of lines has an end. -/
theorem Reachable.consecutiveLines_le (h : Reachable properties options s) :
    s.consecutiveLines ≤ maxLinesPerTurn := by
  obtain ⟨seed, now, ms, h⟩ := h
  refine exec_invariant (I := fun s => s.consecutiveLines ≤ maxLinesPerTurn)
    (fun s m s' _ _ hstep => ?_) (Nat.zero_le _) (guarded_true _ _ ms) h
  obtain ⟨wake, -, -, hrow, -⟩ := step_cases hstep
  rw [hrow]
  split_ifs
  · decide
  · omega
  · exact Nat.zero_le _

/-- **Commands are served**: under the priorities a run is one of the driver's, it takes the
commands in the order they came, and while the pump runs, the first `n` that wait are taken within
`n` rows of lines, however many lines the server sends. -/
theorem Reachable.commands_served (hs : Reachable properties options s)
    (hpump : Guarded step (fun s _ => s.drive.phase = .pumping) s ms)
    (h : exec step s ms = some s') :
    exec Drive.step s.drive (s.inputs ms) = some s'.drive ∧
      s.queue ++ ms.flatMap Moment.arrived = s.taken ms ++ s'.queue ∧
      ∀ n ≤ s.queue.length, (maxLinesPerTurn + 1) * n ≤ ms.length →
        s.queue.take n <+: s.taken ms := by
  refine ⟨(exec_inputs h).1, queue_of_exec h, fun n hn hlong => ?_⟩
  have hserved := le_length_taken hpump hs.consecutiveLines_le h hn
    (hlong.trans (Nat.le_add_right _ _))
  have hqueue := congrArg (List.take n) (queue_of_exec h)
  rw [List.take_append_of_le_length hn, List.take_append_of_le_length hserved] at hqueue
  rw [hqueue]
  exact List.take_prefix n _

/-- The first turns of a driver, during which a destroy comes. -/
def firstTurns : List Moment :=
  [{ answer := some .opened },
    { answer := some (.line "CONOK,S1,50000,5000,*"), arrived := [.destroy none] }]

/-- The driver behind them. -/
def busy : Scheduled :=
  (exec step ⟨Drive.start ⟨true, false, false⟩ .default 1 0, 0, []⟩ firstTurns).getD
    ⟨Drive.start ⟨true, false, false⟩ .default 1 0, 0, []⟩

theorem reachable_busy : Reachable ⟨true, false, false⟩ .default busy :=
  ⟨1, 0, firstTurns, by decide +kernel⟩

/-- A server that does not pause. -/
def probes (stop : Bool) (n : ℕ) : List Moment :=
  List.replicate n { answer := some (.line "PROBE"), stop }

theorem commands_served_busy :
    busy.queue = [.destroy none] ∧ ∃ s', exec step busy (probes false 33) = some s' ∧
      exec Drive.step busy.drive (busy.inputs (probes false 33)) = some s'.drive ∧
      busy.queue ++ (probes false 33).flatMap Moment.arrived =
        busy.taken (probes false 33) ++ s'.queue ∧
      ∀ n ≤ busy.queue.length, (maxLinesPerTurn + 1) * n ≤ (probes false 33).length →
        busy.queue.take n <+: busy.taken (probes false 33) := by
  have hrun : (exec step busy (probes false 33)).isSome = true := by decide +kernel
  exact ⟨by decide +kernel, _, (Option.some_get hrun).symm,
    reachable_busy.commands_served (by decide +kernel) (Option.some_get hrun).symm⟩

/-- **Deadlines are met and stops obeyed**: while a stop or the timer is ready in every turn of the
pump, one of them wins after the rest of a row of lines and one more row for each command that waits
or comes, however many lines the server sends; and a stop that is ready has ended the run then. -/
theorem Reachable.urgent_served (hs : Reachable properties options s)
    (hready : Guarded step (fun s m => s.drive.phase = .pumping ∧
      (m.stop = true ∨ s.timer m = some .timer)) s ms) (h : exec step s ms = some s')
    (hlong : (maxLinesPerTurn + 1) * (s.queue.length + (ms.flatMap Moment.arrived).length + 1) ≤
      ms.length + s.consecutiveLines) :
    (∃ i ∈ s.inputs ms, urgent i.wake = true) ∧
      ((∀ m ∈ ms, m.stop = true) → s'.drive.phase = .closed SessionDriver.stopped) := by
  have hurgent := exists_urgent hready hs.consecutiveLines_le h hlong
  refine ⟨hurgent, fun hstop => closed_of_urgent ?_ h hurgent⟩
  exact (hready.and (guarded_of_forall_mem hstop)).mono fun s m hm => ⟨hm.1.1, hm.2⟩

/-- Two rows of lines and a stop; the destroy is taken first. -/
theorem urgent_served_busy :
    ∃ s', exec step busy (probes true 65) = some s' ∧
      (∃ i ∈ busy.inputs (probes true 65), urgent i.wake = true) ∧
      ((∀ m ∈ probes true 65, m.stop = true) → s'.drive.phase = .closed SessionDriver.stopped) := by
  have hrun : (exec step busy (probes true 65)).isSome = true := by decide +kernel
  exact ⟨_, (Option.some_get hrun).symm, reachable_busy.urgent_served (by decide +kernel)
    (Option.some_get hrun).symm (by decide +kernel)⟩

end Scheduled

end Lightstreamer.Session
