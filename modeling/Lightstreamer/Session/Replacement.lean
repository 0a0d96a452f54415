import Lightstreamer.Session.Filing
import Lightstreamer.Session.Twin

/-!
# What a replaced session leaves behind

Two runs meet a `CONOK` of a new session with different pasts. From the report of the session on
they are given the same (`SameStart`), and they go on alike (`Alike`) as long as nothing of the
sessions before is left in the driver (`NothingLeft`): this is `replaced_session_forgotten`. A new
session starts the position, the registry, the managers and the pending table over, but not the
intent of its stream connection, nor the flags of a destroy or a forced rebind that were asked for
before, nor the count of failed heartbeats.
-/

namespace Lightstreamer.Session

open Lightstreamer.Foundations Lightstreamer.Protocol

namespace Drive

open SessionDriver

/-- The driver just after it reported the session that a `CONOK` names. -/
def atBound (s : Drive) (i : Input) (sid : SessionId) (limit keepAliveMillis : ℕ)
    (link : Option String) : SessionDriver :=
  (s.driver.withTurn i.turn).heard.announced sid limit (ofMillis keepAliveMillis) link

/-- A turn brings the `CONOK` of a new session. -/
structure Replaces (s : Drive) (i : Input) (sid : SessionId) (limit keepAliveMillis : ℕ)
    (link : Option String) : Prop where
  phase : s.phase = .pumping
  notification : i.notification = some (.connectionOk sid limit keepAliveMillis link)
  isFresh : (s.driver.conokKind sid).isFresh = true

/-- What two drivers are given when a session starts: the configuration, the desired subscriptions,
the next request id, the counters and the clocks, and the answers of the surroundings. -/
structure SameStart (d e : SessionDriver) : Prop where
  properties : d.properties = e.properties
  options : d.options = e.options
  nextRequestId : d.nextRequestId = e.nextRequestId
  desired : d.registry.entries.mapVal (fun _ entry => entry.spec) =
    e.registry.entries.mapVal fun _ entry => entry.spec
  backoff : d.backoff = e.backoff
  refreshStreak : d.refreshStreak = e.refreshStreak
  liveness : d.liveness = e.liveness
  turn : d.turn = e.turn
  stopping : d.stopping = e.stopping

/-- The drivers agree on what a new session does not start over. -/
structure NothingLeft (d e : SessionDriver) : Prop where
  intent : d.intent = e.intent
  progHonoured : d.progHonoured = e.progHonoured
  destroyRequested : d.destroyRequested = e.destroyRequested
  forceRebindOutstanding : d.forceRebindOutstanding = e.forceRebindOutstanding
  heartbeatFailures : d.heartbeatFailures = e.heartbeatFailures

/-- Two drives stand at the same place of the loop, and after their first `n` and `m` actions they
acted alike, up to the labels that report the past. -/
structure Alike (n m : ℕ) (s t : Drive) : Prop where
  phase : t.phase = s.phase
  trace : (s.driver.trace.drop n).map Action.unlabelled =
    (t.driver.trace.drop m).map Action.unlabelled

/-- The generation counter can still go up. -/
def Countable (s : Drive) (_ : Input) : Prop := s.driver.generation < u64Max

instance (s : Drive) (i : Input) : Decidable (Countable s i) := inferInstanceAs (Decidable (_ < _))

theorem alike_of_twins {n m : ℕ} {s t : Drive} (h : TwinDrive n m s t) : Alike n m s t := by
  obtain ⟨d, phase⟩ := s
  obtain ⟨e, phase'⟩ := t
  obtain ⟨hdriver, hphase⟩ := h
  cases hdriver with
  | mk hr hp hl => exact ⟨hphase, hl.eq⟩

theorem twin_of_eq {n m : ℕ} {d e : SessionDriver}
    (hl : e.toLifecycle = { d.toLifecycle with generation := e.generation })
    (hnext : d.nextRequestId = e.nextRequestId)
    (hforce : d.forceRebindOutstanding = e.forceRebindOutstanding)
    (hliveness : d.liveness = e.liveness) (hstopping : d.stopping = e.stopping)
    (hturn : d.turn = e.turn) (hr : TwinRegistry d.registry e.registry)
    (hp : TwinPending d.generation e.generation d.pending e.pending)
    (ht : TwinTrace n m d.trace e.trace) : Twin n m d e := by
  have he : e = d.retold e.generation e.registry e.pending e.trace := by
    obtain ⟨l, ⟨r, p, next, force, liveness⟩, ⟨stopping, turn, trace⟩⟩ := e
    dsimp only at hl hnext hforce hliveness hstopping hturn
    subst hnext hforce hliveness hstopping hturn
    rw [hl]
    rfl
  rw [he]
  exact .mk hr hp ht

/-- Entries that a new session starts over agree when their specs do. -/
theorem resetForNewSession_twins {r r' : Registry}
    (h : r.resetForNewSession.entries.mapVal (fun _ entry => entry.spec) =
      r'.resetForNewSession.entries.mapVal fun _ entry => entry.spec) :
    TwinRegistry r.resetForNewSession r'.resetForNewSession := by
  have hreset : ∀ (r : Registry) (key : SubscriptionKey),
      (r.resetForNewSession.entries.get? key).map RegistryEntry.unlabelled =
        (r.resetForNewSession.entries.get? key).map fun entry => RegistryEntry.new entry.spec := by
    intro r key
    simp only [Registry.resetForNewSession, OrdMap.get?_mapVal, Option.map_map]
    rfl
  refine .of_get? (fun key => ?_) rfl rfl
  have hspec := congrArg (OrdMap.get? · key) h
  simp only [OrdMap.get?_mapVal] at hspec
  have hnew := congrArg (Option.map RegistryEntry.new) hspec
  rw [Option.map_map, Option.map_map] at hnew
  rw [hreset, hreset]
  exact hnew

section

variable {s t : Drive} {i j : Input} {sid : SessionId} {limit keepAliveMillis : ℕ}
  {link : Option String}

theorem Replaces.step_eq (h : Replaces s i sid limit keepAliveMillis link) :
    step s i = some (afterPump
      (.continue, (atBound s i sid limit keepAliveMillis link).issueUnboundSubscriptions)) := by
  obtain ⟨text, hw, hp⟩ := Input.notification_eq_some h.notification
  have hline := onLine_of_ok (s.driver.withTurn i.turn) hp
  simp only [step, h.phase, hw, pumpTurn, Option.map_some, hline]
  rfl

/-- When a new session is reported, its requests and its entries are those it starts with. -/
theorem Replaces.atBound_desk (h : Replaces s i sid limit keepAliveMillis link)
    (htidy : s.driver.Tidy) (hg : s.driver.generation < u64Max) :
    (atBound s i sid limit keepAliveMillis link).registry =
        s.driver.registry.resetForNewSession ∧
      (atBound s i sid limit keepAliveMillis link).pending = .empty := by
  have hfresh : ((s.driver.withTurn i.turn).heard.conokKind sid).isFresh = true := h.isFresh
  constructor
  · simp only [atBound, announced, emit_toDesk, enterSession_registry, if_pos hfresh]
    rfl
  · rw [atBound, announced_pending, if_pos hfresh]
    refine OrdMap.ext_get? fun id => ?_
    rw [OrdMap.get?_filter, OrdMap.get?_empty]
    cases hp : (s.driver.withTurn i.turn).heard.pending.get? id with
    | none => rfl
    | some p =>
      have hle : p.generation ≤ s.driver.generation := htidy id p hp
      have hne : p.generation ≠ saturatingAdd u64Max s.driver.generation 1 := by
        unfold saturatingAdd
        omega
      rw [Option.filter_some]
      exact if_neg fun h => hne (of_decide_eq_true h)

/-- What a new session starts over. -/
theorem Replaces.atBound_toLifecycle (h : Replaces s i sid limit keepAliveMillis link) :
    (atBound s i sid limit keepAliveMillis link).toLifecycle = { s.driver.toLifecycle with
      streamState := .bound
      negotiatedKeepAlive := some (ofMillis keepAliveMillis)
      backoff := s.driver.backoff.reset
      session := some sid
      previousSession := none
      progressive := 0
      skipRemaining := 0
      generation := saturatingAdd u64Max s.driver.generation 1 } := by
  have hfresh : ((s.driver.withTurn i.turn).heard.conokKind sid).isFresh = true := h.isFresh
  simp only [atBound, announced, emit_toLifecycle, enterSession_toLifecycle, if_pos hfresh]
  rfl

/-- Pasts that left nothing make twins of the drivers. -/
theorem twin_of_replaces (hi : Replaces s i sid limit keepAliveMillis link)
    (hj : Replaces t j sid limit keepAliveMillis link)
    (hstart : SameStart (atBound s i sid limit keepAliveMillis link)
      (atBound t j sid limit keepAliveMillis link))
    (hleft : NothingLeft (atBound s i sid limit keepAliveMillis link)
      (atBound t j sid limit keepAliveMillis link))
    (hs : s.driver.Tidy) (ht : t.driver.Tidy)
    (hsg : s.driver.generation < u64Max) (htg : t.driver.generation < u64Max) :
    Twin (atBound s i sid limit keepAliveMillis link).trace.length
      (atBound t j sid limit keepAliveMillis link).trace.length
      (atBound s i sid limit keepAliveMillis link)
      (atBound t j sid limit keepAliveMillis link) := by
  obtain ⟨hregistry, hpending⟩ := hi.atBound_desk hs hsg
  obtain ⟨hregistry', hpending'⟩ := hj.atBound_desk ht htg
  have hlife : (atBound t j sid limit keepAliveMillis link).toLifecycle =
      { (atBound s i sid limit keepAliveMillis link).toLifecycle with
        generation := (atBound t j sid limit keepAliveMillis link).generation } := by
    obtain ⟨hproperties, hoptions, -, -, hbackoff, hrefresh, -⟩ := hstart
    obtain ⟨hintent, hprog, hdestroy, -, hfailures⟩ := hleft
    rw [hi.atBound_toLifecycle] at *
    rw [hj.atBound_toLifecycle] at *
    dsimp only at *
    rw [hproperties, hoptions, hbackoff, hrefresh, hintent, hprog, hdestroy, hfailures]
  refine twin_of_eq hlife hstart.nextRequestId hleft.forceRebindOutstanding hstart.liveness
    hstart.stopping hstart.turn ?_ ?_ ⟨Nat.le_refl _, Nat.le_refl _, by simp⟩
  · have hdesired := hstart.desired
    rw [hregistry, hregistry'] at hdesired ⊢
    exact resetForNewSession_twins hdesired
  · rw [hpending, hpending']
    exact ⟨nofun, rfl⟩

/-- **A replaced session leaves nothing behind**, as long as it leaves nothing in what a new session
does not start over: two runs that report the same new session, whatever their pasts, go on
alike. -/
theorem replaced_session_forgotten {properties properties' : TransportProperties}
    {options options' : SessionOptions} (hs : Reachable properties options s)
    (ht : Reachable properties' options' t) (hi : Replaces s i sid limit keepAliveMillis link)
    (hj : Replaces t j sid limit keepAliveMillis link)
    (hstart : SameStart (atBound s i sid limit keepAliveMillis link)
      (atBound t j sid limit keepAliveMillis link))
    (hleft : NothingLeft (atBound s i sid limit keepAliveMillis link)
      (atBound t j sid limit keepAliveMillis link))
    {inputs : List Input} (hcount : Guarded step Countable s (i :: inputs))
    (hcount' : Guarded step Countable t (j :: inputs)) :
    Option.Rel (Alike (atBound s i sid limit keepAliveMillis link).trace.length
        (atBound t j sid limit keepAliveMillis link).trace.length)
      (exec step s (i :: inputs)) (exec step t (j :: inputs)) := by
  have htwin := twin_of_replaces hi hj hstart hleft hs.tidy ht.tidy hcount.1 hcount'.1
  have hbound : TwinDrive _ _
      (afterPump (.continue,
        (atBound s i sid limit keepAliveMillis link).issueUnboundSubscriptions))
      (afterPump (.continue,
        (atBound t j sid limit keepAliveMillis link).issueUnboundSubscriptions)) :=
    afterPump_twins rfl htwin.issueUnboundSubscriptions
  have hrun := @exec_related _ _ _ step step Countable Countable (TwinDrive _ _)
    (fun s t i h hs ht => step_twins h hs ht) _ _ inputs hbound (hcount.2 _ hi.step_eq)
    (hcount'.2 _ hj.step_eq)
  rw [exec_cons, exec_cons, hi.step_eq, hj.step_eq, Option.bind_some, Option.bind_some]
  generalize exec step (afterPump _) inputs = u at hrun ⊢
  generalize exec step (afterPump _) inputs = v at hrun ⊢
  cases hrun with
  | some h => exact .some (alike_of_twins h)
  | none => exact .none

end

/-- A subscription whose `add` was answered, and that got data, before the session expired. -/
def servedThenExpired : List Input :=
  [⟨.opened, {}⟩, ⟨.line "CONOK,S1,50000,5000,*", {}⟩,
    ⟨.command (.subscribe 1 (.new "item" "field" .merge)), {}⟩, ⟨.line "REQOK,1", {}⟩,
    ⟨.line "SUBOK,1,1,1", {}⟩, ⟨.line "U,1,1,a", {}⟩, ⟨.line "END,48,expired", {}⟩,
    ⟨.opened, {}⟩]

/-- A subscription whose `add` was not answered before the session expired. -/
def unansweredThenExpired : List Input :=
  [⟨.opened, {}⟩, ⟨.line "CONOK,S0,50000,5000,*", {}⟩,
    ⟨.command (.subscribe 1 (.new "item" "field" .merge)), {}⟩, ⟨.line "END,48,expired", {}⟩,
    ⟨.opened, {}⟩]

/-- A session to replace an earlier one. -/
def replacement : Input := ⟨.line "CONOK,S2,50000,5000,*", {}⟩

theorem replaced_session_forgotten_subscribed :
    ∃ s t, exec step (start ⟨true, false, false⟩ .default 1 0) servedThenExpired = some s ∧
      exec step (start ⟨true, false, false⟩ .default 1 0) unansweredThenExpired = some t ∧
      Option.Rel (Alike (atBound s replacement "S2" 50000 5000 none).trace.length
          (atBound t replacement "S2" 50000 5000 none).trace.length)
        (exec step s [replacement, ⟨.line "SUBOK,1,1,1", {}⟩, ⟨.line "U,1,1,b", {}⟩])
        (exec step t [replacement, ⟨.line "SUBOK,1,1,1", {}⟩, ⟨.line "U,1,1,b", {}⟩]) := by
  obtain ⟨s, t, hs, ht, hi, hj, hstart, hleft, hcount, hcount'⟩ : ∃ s t,
      exec step (start ⟨true, false, false⟩ .default 1 0) servedThenExpired = some s ∧
      exec step (start ⟨true, false, false⟩ .default 1 0) unansweredThenExpired = some t ∧
      Replaces s replacement "S2" 50000 5000 none ∧ Replaces t replacement "S2" 50000 5000 none ∧
      SameStart (atBound s replacement "S2" 50000 5000 none)
        (atBound t replacement "S2" 50000 5000 none) ∧
      NothingLeft (atBound s replacement "S2" 50000 5000 none)
        (atBound t replacement "S2" 50000 5000 none) ∧
      Guarded step Countable s
        [replacement, ⟨.line "SUBOK,1,1,1", {}⟩, ⟨.line "U,1,1,b", {}⟩] ∧
      Guarded step Countable t
        [replacement, ⟨.line "SUBOK,1,1,1", {}⟩, ⟨.line "U,1,1,b", {}⟩] :=
    ⟨_, _, rfl, rfl, ⟨rfl, rfl, rfl⟩, ⟨rfl, rfl, rfl⟩,
      ⟨rfl, rfl, rfl, by decide, by decide, rfl, by decide +kernel, by decide, rfl⟩,
      ⟨rfl, rfl, rfl, rfl, rfl⟩, by decide, by decide⟩
  exact ⟨s, t, hs, ht, replaced_session_forgotten ⟨1, 0, _, hs⟩ ⟨1, 0, _, ht⟩ hi hj hstart hleft
    hcount hcount'⟩

/-- A forced rebind that the server accepted, and a session that expired before the `LOOP`. -/
def forcedThenExpired : List Input :=
  [⟨.opened, {}⟩, ⟨.line "CONOK,S1,50000,5000,*", {}⟩, ⟨.command (.forceRebind none), {}⟩,
    ⟨.line "REQOK,1", {}⟩, ⟨.line "END,48,expired", {}⟩, ⟨.opened, {}⟩]

/-- **A replaced session remembered.** The new session is asked to rebind by its server, and the
driver that had forced a rebind of an earlier session reports that the client forced this one. -/
theorem replaced_session_remembered :
    ∃ s t, exec step (start ⟨true, false, false⟩ .default 1 0) forcedThenExpired = some s ∧
      exec step (start ⟨true, false, false⟩ .default 1 0)
        [⟨.opened, {}⟩, ⟨.line "CONOK,S1,50000,5000,*", {}⟩,
          ⟨.command (.sendMessage ⟨"hello", none, none, none, some false⟩), {}⟩,
          ⟨.line "REQOK,1", {}⟩, ⟨.line "END,48,expired", {}⟩, ⟨.opened, {}⟩] = some t ∧
      Replaces s replacement "S2" 50000 5000 none ∧ Replaces t replacement "S2" 50000 5000 none ∧
      SameStart (atBound s replacement "S2" 50000 5000 none)
        (atBound t replacement "S2" 50000 5000 none) ∧
      ¬Option.Rel (Alike (atBound s replacement "S2" 50000 5000 none).trace.length
          (atBound t replacement "S2" 50000 5000 none).trace.length)
        (exec step s [replacement, ⟨.line "LOOP,0", {}⟩])
        (exec step t [replacement, ⟨.line "LOOP,0", {}⟩]) := by
  refine ⟨_, _, rfl, rfl, ⟨rfl, rfl, rfl⟩, ⟨rfl, rfl, rfl⟩,
    ⟨rfl, rfl, rfl, rfl, rfl, rfl, rfl, rfl, rfl⟩, fun h => ?_⟩
  have htrace := (Option.rel_some_some.mp h).trace
  revert htrace
  decide

end Drive

end Lightstreamer.Session
