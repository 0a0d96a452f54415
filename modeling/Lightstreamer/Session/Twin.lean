import Lightstreamer.Session.Turns

/-!
# Drivers that differ in their past

Two drivers are twins (`Twin`) when they differ in nothing but what earlier sessions left in the
history: the number of the session generation, whether a subscription was active before, and the
actions taken so far. Every operation takes twins to twins and answers them alike, up to the labels
that report the past (`SessionEvent.unlabelled`), and so does a turn of the loop (`step_twins`).
-/

namespace Lightstreamer.Session

open Lightstreamer.Foundations Lightstreamer.Protocol Lightstreamer.Subscription

/-! ## Labels that report the past -/

def BindKind.unlabelled : BindKind → BindKind
  | created | recreated _ => created
  | rebound => rebound
  | recovering requested => recovering requested

def ResubscribedEntry.unlabelled (entry : ResubscribedEntry) : ResubscribedEntry :=
  { entry with previouslyActive := false }

/-- An event without what it says about an earlier session. -/
def SessionEvent.unlabelled : SessionEvent → SessionEvent
  | bound info => bound { info with kind := info.kind.unlabelled }
  | resubscribed entries => resubscribed (entries.map ResubscribedEntry.unlabelled)
  | event => event

def Action.unlabelled : Action → Action
  | event e delivered => event e.unlabelled delivered
  | action => action

/-- An entry without what it says about an earlier session. An entry whose removal was refused is
active or pending by whether it was ever active, and nothing tells the two apart. -/
def RegistryEntry.unlabelled (entry : RegistryEntry) : RegistryEntry :=
  { entry with
    state := if entry.state = .removing then .removing else .pending
    wasActive := false }

/-! ## Twins -/

/-- The same entries under the same wire ids, up to what they say about an earlier session. -/
structure TwinRegistry (r r' : Registry) : Prop where
  entries : r.entries.mapVal (fun _ => RegistryEntry.unlabelled) =
    r'.entries.mapVal fun _ => RegistryEntry.unlabelled
  bySubId : r.bySubId = r'.bySubId
  nextSubId : r.nextSubId = r'.nextSubId

/-- The same requests in flight, all of them issued on the current session. -/
structure TwinPending (g g' : ℕ) (p p' : OrdMap String Pending) : Prop where
  current : ∀ id q, p.get? id = some q → q.generation = g
  eq : p' = p.mapVal fun _ q => ⟨q.kind, g'⟩

/-- The same actions after the first `n` and `m`, up to labels. -/
structure TwinTrace (n m : ℕ) (l l' : List Action) : Prop where
  le : n ≤ l.length
  le' : m ≤ l'.length
  eq : (l.drop n).map Action.unlabelled = (l'.drop m).map Action.unlabelled

/-- The driver with another past. -/
def SessionDriver.retold (d : SessionDriver) (generation : ℕ) (registry : Registry)
    (pending : OrdMap String Pending) (trace : List Action) : SessionDriver :=
  { d with generation := generation, registry := registry, pending := pending, trace := trace }

/-- Two drivers that have acted alike since their `n`-th and `m`-th action and differ in nothing but
the past. -/
inductive Twin (n m : ℕ) : SessionDriver → SessionDriver → Prop
  | mk {d : SessionDriver} {g : ℕ} {r : Registry} {p : OrdMap String Pending} {l : List Action}
      (registry : TwinRegistry d.registry r) (pending : TwinPending d.generation g d.pending p)
      (trace : TwinTrace n m d.trace l) : Twin n m d (d.retold g r p l)

theorem TwinTrace.concat {n m : ℕ} {l l' : List Action} {a a' : Action} (h : TwinTrace n m l l')
    (ha : a.unlabelled = a'.unlabelled) : TwinTrace n m (l ++ [a]) (l' ++ [a']) where
  le := by
    rw [List.length_append]
    exact Nat.le_add_right_of_le h.le
  le' := by
    rw [List.length_append]
    exact Nat.le_add_right_of_le h.le'
  eq := by
    rw [List.drop_append_of_le_length h.le, List.drop_append_of_le_length h.le', List.map_append,
      List.map_append, h.eq, List.map_singleton, List.map_singleton, ha]

namespace TwinPending

variable {g g' : ℕ} {p p' : OrdMap String Pending}

theorem insert (h : TwinPending g g' p p') (id : String) (kind : PendingKind) :
    TwinPending g g' (p.insert id ⟨kind, g⟩) (p'.insert id ⟨kind, g'⟩) where
  current := fun k q hq => by
    rw [OrdMap.get?_insert] at hq
    split at hq
    · cases hq
      rfl
    · exact h.current k q hq
  eq := by
    rw [h.eq]
    refine OrdMap.ext_get? fun k => ?_
    simp only [OrdMap.get?_insert, OrdMap.get?_mapVal]
    split <;> rfl

theorem erase (h : TwinPending g g' p p') (id : String) :
    TwinPending g g' (p.erase id) (p'.erase id) where
  current := fun k q hq => h.current k q (OrdMap.get?_of_erase hq)
  eq := by
    rw [h.eq]
    refine OrdMap.ext_get? fun k => ?_
    simp only [OrdMap.get?_erase, OrdMap.get?_mapVal]
    split <;> rfl

/-- Once the generation has moved on, every request is stale. -/
theorem filter_eq {g₁ : ℕ} (h : ∀ id q, p.get? id = some q → q.generation = g) (hg : g ≠ g₁) :
    p.filter (fun _ q => q.generation ≠ g₁) = p ∧
      p.filter (fun _ q => q.generation = g₁) = .empty := by
  constructor
  · refine OrdMap.ext_get? fun k => ?_
    rw [OrdMap.get?_filter]
    cases hp : p.get? k with
    | none => rfl
    | some q => rw [Option.filter_some, h k q hp, if_pos (decide_eq_true hg)]
  · refine OrdMap.ext_get? fun k => ?_
    rw [OrdMap.get?_filter]
    cases hp : p.get? k with
    | none => rfl
    | some q =>
      rw [Option.filter_some, h k q hp, if_neg (by simpa using hg)]
      rfl

theorem get? (h : TwinPending g g' p p') (id : String) :
    (p.get? id = none ∧ p'.get? id = none) ∨
      ∃ kind, p.get? id = some ⟨kind, g⟩ ∧ p'.get? id = some ⟨kind, g'⟩ := by
  rw [h.eq, OrdMap.get?_mapVal]
  cases hp : p.get? id with
  | none => exact .inl ⟨rfl, rfl⟩
  | some q =>
    obtain rfl := h.current id q hp
    exact .inr ⟨q.kind, rfl, rfl⟩

end TwinPending

namespace TwinRegistry

variable {r r' : Registry}

theorem get? (h : TwinRegistry r r') (key : SubscriptionKey) :
    (r.entries.get? key).map RegistryEntry.unlabelled =
      (r'.entries.get? key).map RegistryEntry.unlabelled := by
  have := congrArg (OrdMap.get? · key) h.entries
  simpa only [OrdMap.get?_mapVal] using this

/-- The entries of a key, when there are some, agree but for the past. -/
theorem get?_cases (h : TwinRegistry r r') (key : SubscriptionKey) :
    (r.entries.get? key = none ∧ r'.entries.get? key = none) ∨
      ∃ entry entry', r.entries.get? key = some entry ∧ r'.entries.get? key = some entry' ∧
        entry.unlabelled = entry'.unlabelled := by
  have hget := h.get? key
  cases hr : r.entries.get? key with
  | none =>
    rw [hr, Option.map_none] at hget
    exact .inl ⟨rfl, Option.map_eq_none_iff.mp hget.symm⟩
  | some entry =>
    rw [hr, Option.map_some] at hget
    obtain ⟨entry', hr', heq⟩ := Option.map_eq_some_iff.mp hget.symm
    exact .inr ⟨entry, entry', rfl, hr', heq.symm⟩

theorem of_get? (hentries : ∀ key, (r.entries.get? key).map RegistryEntry.unlabelled =
      (r'.entries.get? key).map RegistryEntry.unlabelled)
    (hbySubId : r.bySubId = r'.bySubId) (hnext : r.nextSubId = r'.nextSubId) :
    TwinRegistry r r' where
  entries := OrdMap.ext_get? fun key => by
    rw [OrdMap.get?_mapVal, OrdMap.get?_mapVal]
    exact hentries key
  bySubId := hbySubId
  nextSubId := hnext

/-- A change of one entry that the past has no part in. -/
theorem modify (h : TwinRegistry r r') (key : SubscriptionKey) {f g : RegistryEntry → RegistryEntry}
    (hf : ∀ a b, a.unlabelled = b.unlabelled → (f a).unlabelled = (g b).unlabelled) :
    TwinRegistry { r with entries := r.entries.modify key f }
      { r' with entries := r'.entries.modify key g } := by
  refine .of_get? (fun k => ?_) h.bySubId h.nextSubId
  rw [OrdMap.get?_modify, OrdMap.get?_modify]
  split
  · obtain ⟨hr, hr'⟩ | ⟨a, b, hr, hr', hab⟩ := h.get?_cases k
    · rw [hr, hr']
      rfl
    · rw [hr, hr']
      exact congrArg some (hf a b hab)
  · exact h.get? k

theorem insert (h : TwinRegistry r r') (key : SubscriptionKey) (entry : RegistryEntry) :
    TwinRegistry { r with entries := r.entries.insert key entry }
      { r' with entries := r'.entries.insert key entry } := by
  refine .of_get? (fun k => ?_) h.bySubId h.nextSubId
  rw [OrdMap.get?_insert, OrdMap.get?_insert]
  split
  · rfl
  · exact h.get? k

theorem erase (h : TwinRegistry r r') (key : SubscriptionKey) :
    TwinRegistry { r with entries := r.entries.erase key }
      { r' with entries := r'.entries.erase key } := by
  refine .of_get? (fun k => ?_) h.bySubId h.nextSubId
  rw [OrdMap.get?_erase, OrdMap.get?_erase]
  split
  · rfl
  · exact h.get? k

theorem setBySubId (h : TwinRegistry r r') (m : OrdMap ℕ SubscriptionKey) :
    TwinRegistry { r with bySubId := m } { r' with bySubId := m } :=
  ⟨h.entries, rfl, h.nextSubId⟩

end TwinRegistry

theorem unlabelled_eq_iff {a b : RegistryEntry} : a.unlabelled = b.unlabelled ↔
    a.spec = b.spec ∧ a.wire = b.wire ∧ (a.state = .removing ↔ b.state = .removing) ∧
      a.manager = b.manager := by
  obtain ⟨spec, wire, state, wasActive, manager⟩ := a
  obtain ⟨spec', wire', state', wasActive', manager'⟩ := b
  simp only [RegistryEntry.unlabelled, RegistryEntry.mk.injEq, true_and]
  cases state <;> cases state' <;> simp

/-! ## Operations on the registry -/

namespace TwinRegistry

variable {r r' : Registry} {key : SubscriptionKey}

theorem allocate (h : TwinRegistry r r') :
    (r.allocate = none ∧ r'.allocate = none) ∨
      ∃ id s s', r.allocate = some (id, s) ∧ r'.allocate = some (id, s') ∧ TwinRegistry s s' := by
  unfold Registry.allocate
  rw [← h.nextSubId]
  cases NonZeroU32.new? r.nextSubId with
  | none => exact .inl ⟨rfl, rfl⟩
  | some id =>
    cases checkedAdd u32Max r.nextSubId 1 with
    | none => exact .inl ⟨rfl, rfl⟩
    | some next => exact .inr ⟨id, _, _, rfl, rfl, h.entries, h.bySubId, rfl⟩

theorem bind (h : TwinRegistry r r') (id : NonZeroU32) :
    TwinRegistry (r.bind key id) (r'.bind key id) := by
  have hentries := h.modify key
    (f := fun entry => { entry with wire := some id, state := .pending }) (g := fun entry =>
      { entry with wire := some id, state := .pending }) fun a b hab => by
    obtain ⟨hspec, -, -, hmanager⟩ := unlabelled_eq_iff.mp hab
    exact unlabelled_eq_iff.mpr ⟨hspec, rfl, Iff.rfl, hmanager⟩
  rw [Registry.bind, Registry.bind, h.bySubId]
  exact hentries.setBySubId _

theorem release (h : TwinRegistry r r') (id : NonZeroU32) :
    TwinRegistry (r.release key id) (r'.release key id) := by
  have hentries := h.modify key (f := fun entry => { entry with wire := none })
    (g := fun entry => { entry with wire := none }) fun a b hab => by
    obtain ⟨hspec, -, hstate, hmanager⟩ := unlabelled_eq_iff.mp hab
    exact unlabelled_eq_iff.mpr ⟨hspec, rfl, hstate, hmanager⟩
  rw [Registry.release, Registry.release, h.bySubId]
  exact hentries.setBySubId _

theorem markRemoving (h : TwinRegistry r r') :
    TwinRegistry (r.markRemoving key) (r'.markRemoving key) :=
  h.modify key fun a b hab => by
    obtain ⟨hspec, hwire, -, hmanager⟩ := unlabelled_eq_iff.mp hab
    exact unlabelled_eq_iff.mpr ⟨hspec, hwire, Iff.rfl, hmanager⟩

theorem commitFrequency (h : TwinRegistry r r') (f : MaxFrequencyLimit) :
    TwinRegistry (r.commitFrequency key f) (r'.commitFrequency key f) :=
  h.modify key fun a b hab => by
    obtain ⟨hspec, hwire, hstate, hmanager⟩ := unlabelled_eq_iff.mp hab
    exact unlabelled_eq_iff.mpr ⟨by rw [hspec], hwire, hstate, hmanager⟩

/-- A kept entry is active or pending by whether it was ever active. -/
theorem keep (h : TwinRegistry r r') : TwinRegistry (r.keep key) (r'.keep key) :=
  h.modify key fun a b hab => by
    obtain ⟨hspec, hwire, -, hmanager⟩ := unlabelled_eq_iff.mp hab
    refine unlabelled_eq_iff.mpr ⟨hspec, hwire, ?_, hmanager⟩
    cases a.wasActive <;> cases b.wasActive <;> simp

theorem setManager (h : TwinRegistry r r') (manager : SubscriptionManager) :
    TwinRegistry (r.setManager key manager) (r'.setManager key manager) :=
  h.modify key fun a b hab => by
    obtain ⟨hspec, hwire, hstate, -⟩ := unlabelled_eq_iff.mp hab
    exact unlabelled_eq_iff.mpr ⟨hspec, hwire, hstate, rfl⟩

theorem activate (h : TwinRegistry r r') : TwinRegistry (r.activate key) (r'.activate key) :=
  h.modify key fun a b hab => by
    obtain ⟨hspec, hwire, -, hmanager⟩ := unlabelled_eq_iff.mp hab
    exact unlabelled_eq_iff.mpr ⟨hspec, hwire, Iff.rfl, hmanager⟩

theorem drop (h : TwinRegistry r r') : TwinRegistry (r.drop key) (r'.drop key) := by
  have hwire : (r.entries.get? key).bind RegistryEntry.wire =
      (r'.entries.get? key).bind RegistryEntry.wire := by
    obtain ⟨hr, hr'⟩ | ⟨a, b, hr, hr', hab⟩ := h.get?_cases key
    · rw [hr, hr']
    · rw [hr, hr']
      exact (unlabelled_eq_iff.mp hab).2.1
  rw [Registry.drop, Registry.drop, hwire, h.bySubId]
  exact (h.erase key).setBySubId _

theorem remove (h : TwinRegistry r r') (id : ℕ) :
    TwinRegistry (r.remove key id) (r'.remove key id) := by
  rw [Registry.remove, Registry.remove, h.bySubId]
  exact (h.erase key).setBySubId _

theorem registryAfter (h : TwinRegistry r r') (id : ℕ) (manager : SubscriptionManager)
    (notification : Notification) :
    TwinRegistry (SessionDriver.registryAfter r id key manager notification)
      (SessionDriver.registryAfter r' id key manager notification) := by
  unfold SessionDriver.registryAfter
  split
  · exact (h.setManager manager).activate
  · exact (h.setManager manager).activate
  · exact h.remove id
  · exact h.setManager manager

theorem unboundKeys (h : TwinRegistry r r') : r.unboundKeys = r'.unboundKeys := by
  have hkeys : ∀ r : Registry, r.unboundKeys =
      ((r.entries.mapVal fun _ => RegistryEntry.unlabelled).filter fun _ entry =>
        entry.wire.isNone && entry.state ≠ .removing).keys := fun r => by
    have hp : ∀ entry : RegistryEntry, decide (entry.unlabelled.state ≠ .removing) =
        decide (entry.state ≠ .removing) := fun entry => by
      cases h : entry.state <;> simp [RegistryEntry.unlabelled, h]
    simp only [Registry.unboundKeys, OrdMap.keys, OrdMap.filter, OrdMap.mapVal, List.filter_map,
      List.map_map, Function.comp_def, hp]
    rfl
  rw [hkeys, hkeys, h.entries]

/-- Starting over for a new session keeps nothing of an entry but its spec. -/
theorem resetForNewSession (h : TwinRegistry r r') :
    TwinRegistry r.resetForNewSession r'.resetForNewSession := by
  refine .of_get? (fun k => ?_) rfl rfl
  simp only [Registry.resetForNewSession, OrdMap.get?_mapVal, OrdMap.get?_filter]
  obtain ⟨hr, hr'⟩ | ⟨a, b, hr, hr', hab⟩ := h.get?_cases k
  · rw [hr, hr']
  · obtain ⟨hspec, -, hstate, -⟩ := unlabelled_eq_iff.mp hab
    rw [hr, hr', Option.filter_some, Option.filter_some]
    simp only [ne_eq, hstate]
    split
    · exact congrArg some (unlabelled_eq_iff.mpr ⟨hspec, rfl, Iff.rfl, by
        simp only [RegistryEntry.reset, hspec]⟩)
    · rfl

end TwinRegistry

/-! ## Operations of the driver -/

namespace Twin

variable {n m : ℕ} {d e : SessionDriver}

theorem registry (h : Twin n m d e) : TwinRegistry d.registry e.registry := by
  cases h with
  | mk hr _ _ => exact hr

theorem get? (h : Twin n m d e) (id : String) :
    (d.pending.get? id = none ∧ e.pending.get? id = none) ∨
      ∃ kind, d.pending.get? id = some ⟨kind, d.generation⟩ ∧
        e.pending.get? id = some ⟨kind, e.generation⟩ := by
  cases h with
  | mk _ hp _ => exact hp.get? id

theorem session (h : Twin n m d e) : e.session = d.session := by cases h; rfl

theorem streamState (h : Twin n m d e) : e.streamState = d.streamState := by cases h; rfl

theorem properties (h : Twin n m d e) : e.properties = d.properties := by cases h; rfl

theorem progressive (h : Twin n m d e) : e.progressive = d.progressive := by cases h; rfl

theorem turn (h : Twin n m d e) : e.turn = d.turn := by cases h; rfl

theorem liveness (h : Twin n m d e) : e.liveness = d.liveness := by cases h; rfl

theorem stopping (h : Twin n m d e) : e.stopping = d.stopping := by cases h; rfl

theorem setRegistry (h : Twin n m d e) {r r' : Registry} (hr : TwinRegistry r r') :
    Twin n m { d with registry := r } { e with registry := r' } := by
  cases h with
  | mk _ hp hl => exact .mk hr hp hl

theorem insertPending (h : Twin n m d e) (id : String) (kind : PendingKind) :
    Twin n m { d with pending := d.pending.insert id ⟨kind, d.generation⟩ }
      { e with pending := e.pending.insert id ⟨kind, e.generation⟩ } := by
  cases h with
  | mk hr hp hl => exact .mk hr (hp.insert _ _) hl

theorem erasePending (h : Twin n m d e) (id : String) :
    Twin n m { d with pending := d.pending.erase id } { e with pending := e.pending.erase id } := by
  cases h with
  | mk hr hp hl => exact .mk hr (hp.erase _) hl

theorem act (h : Twin n m d e) (a : Action) : Twin n m (d.act a) (e.act a) := by
  cases h with
  | mk hr hp hl => exact .mk hr hp (hl.concat rfl)

theorem clocked (h : Twin n m d e) (f : ℕ → Liveness) : Twin n m (d.clocked f) (e.clocked f) := by
  cases h with
  | mk hr hp hl => exact .mk hr hp hl

theorem emit_of_unlabelled (h : Twin n m d e) {event event' : SessionEvent}
    (he : event.unlabelled = event'.unlabelled) : Twin n m (d.emit event) (e.emit event') := by
  cases h with
  | mk hr hp hl => exact .mk hr hp (hl.concat (by simp only [Action.unlabelled, he]; rfl))

theorem emit (h : Twin n m d e) (event : SessionEvent) :
    Twin n m (d.emit event) (e.emit event) := h.emit_of_unlabelled rfl

theorem send (h : Twin n m d e) (request : ControlRequest) (kind : Option PendingKind)
    (parameters : String) :
    (d.send request kind parameters).1 = (e.send request kind parameters).1 ∧
      Twin n m (d.send request kind parameters).2 (e.send request kind parameters).2 := by
  cases h with
  | mk hr hp hl => exact ⟨rfl, .mk hr hp (hl.concat rfl)⟩

theorem takeRequestId (h : Twin n m d e) :
    (d.takeRequestId = none ∧ e.takeRequestId = none) ∨
      ∃ id d' e', d.takeRequestId = some (id, d') ∧ e.takeRequestId = some (id, e') ∧
        Twin n m d' e' := by
  cases h with
  | mk hr hp hl =>
    unfold SessionDriver.takeRequestId
    change (_ ∧ (checkedAdd u64Max d.nextRequestId 1).map _ = none) ∨
      ∃ _ _ _, _ ∧ (checkedAdd u64Max d.nextRequestId 1).map _ = some _ ∧ _
    cases checkedAdd u64Max d.nextRequestId 1 with
    | none => exact .inl ⟨rfl, rfl⟩
    | some next => exact .inr ⟨_, _, _, rfl, rfl, .mk hr hp hl⟩

theorem controlKind (h : Twin n m d e) : e.controlKind = d.controlKind := by
  cases h
  rfl

theorem dispatch (h : Twin n m d e) (request : ControlRequest) (id : RequestId)
    (kind : PendingKind) :
    (d.dispatch request id kind).1 = (e.dispatch request id kind).1 ∧
      Twin n m (d.dispatch request id kind).2 (e.dispatch request id kind).2 := by
  unfold SessionDriver.dispatch
  rw [h.controlKind]
  cases request.encodeParameters d.controlKind with
  | error error => exact ⟨rfl, h.emit _⟩
  | ok parameters =>
    obtain ⟨hsent, htwin⟩ := (h.insertPending id.text kind).send request (some kind) parameters
    dsimp only
    rw [← hsent]
    split
    · rw [htwin.liveness]
      exact ⟨rfl, htwin.clocked _⟩
    · exact ⟨rfl, (htwin.erasePending _).emit _⟩

theorem setHeartbeatFailures (h : Twin n m d e) (failures : ℕ) :
    Twin n m { d with heartbeatFailures := failures } { e with heartbeatFailures := failures } := by
  cases h with
  | mk hr hp hl => exact .mk hr hp hl

theorem sendHeartbeat (h : Twin n m d e) :
    d.sendHeartbeat.1 = e.sendHeartbeat.1 ∧ Twin n m d.sendHeartbeat.2 e.sendHeartbeat.2 := by
  have hattempt : d.attemptHeartbeat.1 = e.attemptHeartbeat.1 ∧
      Twin n m d.attemptHeartbeat.2 e.attemptHeartbeat.2 := by
    unfold SessionDriver.attemptHeartbeat
    rw [h.controlKind, h.session]
    split
    · exact ⟨rfl, h⟩
    · exact h.send _ _ _
  have hsettle : ∀ {d e : SessionDriver} (failure : Option String), Twin n m d e →
      (d.settleHeartbeat failure).1 = (e.settleHeartbeat failure).1 ∧
        Twin n m (d.settleHeartbeat failure).2 (e.settleHeartbeat failure).2 := by
    intro d e failure h
    have hfailures : e.heartbeatFailures = d.heartbeatFailures := by cases h; rfl
    cases failure with
    | none => exact ⟨rfl, h.setHeartbeatFailures 0⟩
    | some detail =>
      simp only [SessionDriver.settleHeartbeat, hfailures]
      split
      · exact ⟨rfl, h.setHeartbeatFailures 0⟩
      · exact ⟨rfl, h.setHeartbeatFailures _⟩
  unfold SessionDriver.sendHeartbeat
  dsimp only
  rw [← hattempt.1, hattempt.2.liveness]
  exact hsettle _ (hattempt.2.clocked _)

theorem sendSubscribe (h : Twin n m d e) (session : SessionId) (key : SubscriptionKey)
    (subId : NonZeroU32) {entry entry' : RegistryEntry} (hspec : entry.spec = entry'.spec) :
    (d.sendSubscribe session key subId entry).1.map ResubscribedEntry.unlabelled =
        (e.sendSubscribe session key subId entry').1.map ResubscribedEntry.unlabelled ∧
      Twin n m (d.sendSubscribe session key subId entry).2
        (e.sendSubscribe session key subId entry').2 := by
  unfold SessionDriver.sendSubscribe
  rw [← hspec]
  obtain ⟨hd, he⟩ | ⟨id, d', e', hd, he, h'⟩ := h.takeRequestId
  · rw [hd, he]
    exact ⟨rfl, (h.setRegistry (h.registry.release subId)).emit _⟩
  · rw [hd, he]
    obtain ⟨hsent, htwin⟩ := h'.dispatch
      (.subscribe (SessionDriver.subscribeRequest session id subId entry.spec)) id (.subscribe key)
    dsimp only
    rw [← hsent]
    split
    · exact ⟨rfl, htwin⟩
    · exact ⟨rfl, htwin.setRegistry (htwin.registry.release subId)⟩

theorem issueSubscription (h : Twin n m d e) (key : SubscriptionKey) :
    (d.issueSubscription key).1.map ResubscribedEntry.unlabelled =
        (e.issueSubscription key).1.map ResubscribedEntry.unlabelled ∧
      Twin n m (d.issueSubscription key).2 (e.issueSubscription key).2 := by
  unfold SessionDriver.issueSubscription
  rw [h.session]
  cases d.session with
  | none => exact ⟨rfl, h⟩
  | some session =>
    obtain ⟨hd, he⟩ | ⟨subId, r, r', hd, he, hr⟩ := h.registry.allocate
    · rw [hd, he]
      exact ⟨rfl, h⟩
    · rw [hd, he]
      dsimp only
      have hentries : d.registry.entries = r.entries ∧ e.registry.entries = r'.entries := by
        obtain ⟨-, hr⟩ := Registry.allocate_eq_some hd
        obtain ⟨-, hr'⟩ := Registry.allocate_eq_some he
        rw [hr, hr']
        exact ⟨rfl, rfl⟩
      obtain ⟨hget, hget'⟩ | ⟨entry, entry', hget, hget', hentry⟩ := hr.get?_cases key
      · rw [hget, hget']
        exact ⟨rfl, h.setRegistry hr⟩
      · rw [hget, hget']
        exact (h.setRegistry (hr.bind subId)).sendSubscribe session key subId
          (unlabelled_eq_iff.mp hentry).1

theorem issueAll (h : Twin n m d e) (keys : List SubscriptionKey) :
    (d.issueAll keys).1.map ResubscribedEntry.unlabelled =
        (e.issueAll keys).1.map ResubscribedEntry.unlabelled ∧
      Twin n m (d.issueAll keys).2 (e.issueAll keys).2 := by
  induction keys generalizing d e with
  | nil => exact ⟨rfl, h⟩
  | cons key keys ih =>
    obtain ⟨hissue, htwin⟩ := h.issueSubscription key
    obtain ⟨hrest, htwin⟩ := ih htwin
    refine ⟨?_, htwin⟩
    simp only [SessionDriver.issueAll, List.map_append, hrest, ← Option.toList_map, hissue]

theorem issueUnboundSubscriptions (h : Twin n m d e) :
    Twin n m d.issueUnboundSubscriptions e.issueUnboundSubscriptions := by
  unfold SessionDriver.issueUnboundSubscriptions
  rw [← h.registry.unboundKeys]
  obtain ⟨hissue, htwin⟩ := h.issueAll d.registry.unboundKeys
  have hempty := congrArg List.isEmpty hissue
  rw [List.isEmpty_map, List.isEmpty_map] at hempty
  dsimp only
  rw [hempty]
  split
  · exact htwin
  · exact htwin.emit_of_unlabelled (congrArg SessionEvent.resubscribed hissue)

/-! ### Commands -/

theorem subscribe (h : Twin n m d e) (key : SubscriptionKey) (spec : SubscriptionSpec) :
    Twin n m (d.subscribe key spec) (e.subscribe key spec) := by
  have hwant := h.setRegistry (h.registry.insert key (.new spec))
  unfold SessionDriver.subscribe
  dsimp only
  rw [h.streamState]
  split
  · exact (hwant.issueSubscription key).2
  · exact hwant

theorem unsubscribe (h : Twin n m d e) (key : SubscriptionKey) :
    Twin n m (d.unsubscribe key) (e.unsubscribe key) := by
  unfold SessionDriver.unsubscribe
  obtain ⟨hget, hget'⟩ | ⟨entry, entry', hget, hget', hentry⟩ := h.registry.get?_cases key
  · rw [hget, hget']
    exact h
  · rw [hget, hget']
    dsimp only
    rw [← (unlabelled_eq_iff.mp hentry).2.1]
    cases entry.wire with
    | none => exact h.setRegistry (h.registry.erase key)
    | some subId =>
      have hmark := h.setRegistry (@TwinRegistry.markRemoving _ _ key h.registry)
      dsimp only
      rw [h.session]
      cases d.session with
      | none => exact hmark
      | some session =>
        obtain ⟨hd, he⟩ | ⟨id, d', e', hd, he, h'⟩ := hmark.takeRequestId
        · rw [hd, he]
          exact hmark.emit _
        · rw [hd, he]
          exact (h'.dispatch _ _ _).2

theorem reconfigure (h : Twin n m d e) (key : SubscriptionKey) (f : MaxFrequencyLimit) :
    Twin n m (d.reconfigure key f) (e.reconfigure key f) := by
  have hwire : (e.registry.entries.get? key).bind RegistryEntry.wire =
      (d.registry.entries.get? key).bind RegistryEntry.wire := by
    obtain ⟨hget, hget'⟩ | ⟨entry, entry', hget, hget', hentry⟩ := h.registry.get?_cases key
    · rw [hget, hget']
    · rw [hget, hget']
      exact (unlabelled_eq_iff.mp hentry).2.1.symm
  unfold SessionDriver.reconfigure
  rw [hwire, h.session]
  split
  · obtain ⟨hd, he⟩ | ⟨id, d', e', hd, he, h'⟩ := h.takeRequestId
    · rw [hd, he]
      exact h.emit _
    · rw [hd, he]
      exact (h'.dispatch _ _ _).2
  · exact h

theorem sendMessage (h : Twin n m d e) (message : OutgoingMessage) :
    Twin n m (d.sendMessage message) (e.sendMessage message) := by
  unfold SessionDriver.sendMessage
  rw [h.streamState, h.session]
  dsimp only
  split
  · obtain ⟨hd, he⟩ | ⟨id, d', e', hd, he, h'⟩ := h.takeRequestId
    · rw [hd, he]
      exact (h.emit _).emit _
    · rw [hd, he]
      dsimp only
      obtain ⟨hsent, htwin⟩ := h'.dispatch _ id
        (.sendMessage message.identity.1 message.identity.2)
      rw [← hsent]
      split
      · exact htwin
      · exact htwin.emit _
  · exact h.emit _

theorem setForceRebindOutstanding (h : Twin n m d e) (b : Bool) :
    Twin n m { d with forceRebindOutstanding := b } { e with forceRebindOutstanding := b } := by
  cases h with
  | mk hr hp hl => exact .mk hr hp hl

theorem setDestroyRequested (h : Twin n m d e) (b : Bool) :
    Twin n m { d with destroyRequested := b } { e with destroyRequested := b } := by
  cases h with
  | mk hr hp hl => exact .mk hr hp hl

theorem forceRebind (h : Twin n m d e) (closeSocket : Option Bool) :
    Twin n m (d.forceRebind closeSocket) (e.forceRebind closeSocket) := by
  unfold SessionDriver.forceRebind
  rw [h.streamState, h.session]
  split
  · obtain ⟨hd, he⟩ | ⟨id, d', e', hd, he, h'⟩ := h.takeRequestId
    · rw [hd, he]
      exact h.emit _
    · rw [hd, he]
      exact ((h'.setForceRebindOutstanding true).dispatch _ _ _).2
  · exact h

theorem destroy (h : Twin n m d e) (cause : Option DestroyCause) :
    (d.destroy cause).1 = (e.destroy cause).1 ∧
      Twin n m (d.destroy cause).2 (e.destroy cause).2 := by
  unfold SessionDriver.destroy
  rw [h.session]
  cases d.session with
  | none => exact ⟨rfl, h⟩
  | some session =>
    obtain ⟨hd, he⟩ | ⟨id, d', e', hd, he, h'⟩ := h.takeRequestId
    · rw [hd, he]
      exact ⟨rfl, h.emit _⟩
    · rw [hd, he]
      have hrequested := h'.setDestroyRequested true
      obtain ⟨hsent, htwin⟩ := hrequested.dispatch (.destroy ⟨some session, id, cause, none⟩) id
        .destroy
      dsimp only
      refine ⟨?_, htwin⟩
      rw [← hsent, h'.streamState]

theorem onCommand (h : Twin n m d e) (c : SessionCommand) :
    (d.onCommand c).1 = (e.onCommand c).1 ∧ Twin n m (d.onCommand c).2 (e.onCommand c).2 := by
  cases c with
  | subscribe key spec => exact ⟨rfl, h.subscribe key spec⟩
  | unsubscribe key => exact ⟨rfl, h.unsubscribe key⟩
  | reconfigure key f => exact ⟨rfl, h.reconfigure key f⟩
  | sendMessage message => exact ⟨rfl, h.sendMessage message⟩
  | forceRebind closeSocket => exact ⟨rfl, h.forceRebind closeSocket⟩
  | destroy cause => exact h.destroy cause
  | shutdown => exact ⟨rfl, h⟩

/-! ### Responses -/

theorem takePending (h : Twin n m d e) (id : String) :
    (d.takePending id).1 = (e.takePending id).1 ∧
      Twin n m (d.takePending id).2 (e.takePending id).2 := by
  unfold SessionDriver.takePending
  obtain ⟨hd, he⟩ | ⟨kind, hd, he⟩ := h.get? id
  · rw [hd, he]
    exact ⟨rfl, h⟩
  · rw [hd, he]
    dsimp only
    rw [if_pos rfl, if_pos rfl]
    exact ⟨rfl, h.erasePending id⟩

theorem onRequestOk (h : Twin n m d e) (id : Option String) :
    Twin n m (d.onRequestOk id) (e.onRequestOk id) := by
  cases id with
  | none => exact h
  | some id =>
    have haccept : ∀ {d e : SessionDriver} (kind : Option PendingKind), Twin n m d e →
        Twin n m (d.acceptRequest kind) (e.acceptRequest kind) := by
      intro d e kind h
      unfold SessionDriver.acceptRequest
      split
      · exact h.setRegistry (h.registry.commitFrequency _)
      · exact h
    obtain ⟨hkind, htwin⟩ := h.takePending id
    unfold SessionDriver.onRequestOk
    dsimp only
    rw [← hkind]
    exact (haccept _ htwin).emit _

theorem undoRequest (h : Twin n m d e) (cause : ServerCause) (kind : Option PendingKind) :
    Twin n m (d.undoRequest cause kind) (e.undoRequest cause kind) := by
  unfold SessionDriver.undoRequest
  split
  · exact h.setRegistry h.registry.drop
  · exact h.setRegistry h.registry.keep
  · exact h.emit _
  · exact h.setForceRebindOutstanding false
  · exact h.setDestroyRequested false
  · exact h
  · exact h

theorem onRequestError (h : Twin n m d e) (id : String) (cause : ServerCause) :
    Twin n m (d.onRequestError id cause) (e.onRequestError id cause) := by
  obtain ⟨hkind, htwin⟩ := h.takePending id
  unfold SessionDriver.onRequestError
  dsimp only
  rw [← hkind]
  exact (htwin.undoRequest _ _).emit _

/-! ### Data notifications -/

theorem notifySubscription (h : Twin n m d e) (notification : Notification) :
    Twin n m (d.notifySubscription notification) (e.notifySubscription notification) := by
  have hresolve : e.resolveSubscription notification = d.resolveSubscription notification := by
    unfold SessionDriver.resolveSubscription
    rw [h.registry.bySubId]
  have hinterpret : (d.interpretForSubscription d.progressive notification).1 =
        (e.interpretForSubscription e.progressive notification).1 ∧
      Twin n m (d.interpretForSubscription d.progressive notification).2
        (e.interpretForSubscription e.progressive notification).2 := by
    unfold SessionDriver.interpretForSubscription
    rw [hresolve, h.progressive]
    cases d.resolveSubscription notification with
    | none => exact ⟨rfl, h⟩
    | some p =>
      obtain ⟨subId, key⟩ := p
      dsimp only
      obtain ⟨hget, hget'⟩ | ⟨entry, entry', hget, hget', hentry⟩ := h.registry.get?_cases key
      · rw [hget, hget']
        exact ⟨rfl, h⟩
      · rw [hget, hget']
        dsimp only
        rw [(unlabelled_eq_iff.mp hentry).2.2.2]
        exact ⟨rfl, h.setRegistry (h.registry.registryAfter _ _ _)⟩
  unfold SessionDriver.notifySubscription
  dsimp only
  rw [← hinterpret.1]
  split
  · exact hinterpret.2.emit _
  · exact hinterpret.2

theorem deliver (h : Twin n m d e) (notification : Notification) :
    Twin n m (d.deliver notification) (e.deliver notification) := by
  unfold SessionDriver.deliver
  dsimp only
  rw [h.progressive]
  have hact := h.act (.data d.progressive notification)
  split
  · exact hact.emit_of_unlabelled (by rw [hact.progressive])
  · exact hact.emit_of_unlabelled (by rw [hact.progressive])
  · exact hact.notifySubscription _

theorem onData (h : Twin n m d e) (notification : Notification) :
    Twin n m (d.onData notification) (e.onData notification) := by
  have hskip : e.skipRemaining = d.skipRemaining := by cases h; rfl
  by_cases hd : 0 < d.skipRemaining
  · rw [SessionDriver.onData_of_skip hd, SessionDriver.onData_of_skip (by rwa [hskip])]
    cases h with
    | mk hr hp hl => exact .mk hr hp hl
  · have hd : d.skipRemaining = 0 := Nat.eq_zero_of_not_pos hd
    rw [SessionDriver.onData_of_no_skip hd, SessionDriver.onData_of_no_skip (by rwa [hskip])]
    refine Twin.deliver ?_ notification
    cases h with
    | mk hr hp hl => exact .mk hr hp hl

/-! ### Session notifications -/

theorem retireOne (h : Twin n m d e) (id : String) (kind : PendingKind) :
    Twin n m (d.retireOne id kind) (e.retireOne id kind) := by
  unfold SessionDriver.retireOne
  refine Twin.emit ?_ _
  cases kind with
  | forceRebind => exact h.setForceRebindOutstanding false
  | sendMessage => exact h.emit _
  | _ => exact h

/-- Retiring looks at the ids and the kinds of the requests alone. -/
theorem retireAll (h : Twin n m d e) (g : ℕ) (stale : List (String × Pending)) :
    Twin n m (d.retireAll stale) (e.retireAll (stale.map fun p => (p.1, ⟨p.2.kind, g⟩))) := by
  induction stale generalizing d e with
  | nil => exact h
  | cons p stale ih => exact ih (h.retireOne p.1 p.2.kind)

/-- When the generation moves on, every request in flight is retired. -/
theorem freshSession_eq {d : SessionDriver} (hd : d.generation < u64Max)
    (hcurrent : ∀ id q, d.pending.get? id = some q → q.generation = d.generation) :
    d.freshSession = SessionDriver.retireAll { d with
      progressive := 0
      skipRemaining := 0
      registry := d.registry.resetForNewSession
      generation := saturatingAdd u64Max d.generation 1
      pending := .empty } (arrange d.turn.drain d.pending.toList) := by
  have hnext : d.generation ≠ saturatingAdd u64Max d.generation 1 := by
    unfold saturatingAdd
    omega
  obtain ⟨hall, hnone⟩ := TwinPending.filter_eq hcurrent hnext
  unfold SessionDriver.freshSession SessionDriver.retireStalePending
  dsimp only
  rw [hall, hnone]

theorem freshSession (h : Twin n m d e) (hd : d.generation < u64Max) (he : e.generation < u64Max) :
    Twin n m d.freshSession e.freshSession := by
  cases h with
  | @mk g r p l hr hp hl =>
    have hcurrent : ∀ id q, p.get? id = some q → q.generation = g := fun id q hq => by
      rw [hp.eq, OrdMap.get?_mapVal, Option.map_eq_some_iff] at hq
      obtain ⟨q, -, rfl⟩ := hq
      rfl
    have hstale : arrange d.turn.drain p.toList = (arrange d.turn.drain d.pending.toList).map
        fun q => (q.1, ⟨q.2.kind, g⟩) := by
      rw [hp.eq]
      exact arrange_map _ _ _
    have hfresh : (d.retold g r p l).freshSession = _ := freshSession_eq he hcurrent
    rw [freshSession_eq hd hp.current, hfresh]
    change Twin n m _ (SessionDriver.retireAll _ (arrange d.turn.drain p.toList))
    rw [hstale]
    refine Twin.retireAll ?_ g _
    exact .mk (g := saturatingAdd u64Max g 1) (r := r.resetForNewSession) (p := .empty) (l := l)
      hr.resetForNewSession ⟨nofun, rfl⟩ hl

/-- The first moments of a session: kinds that are both of a new session, or both of the same, make
no difference but to the label of the event. -/
theorem announced (h : Twin n m d e) (hd : d.generation < u64Max) (he : e.generation < u64Max)
    (sid : SessionId) (limit keepAlive : ℕ) (link : Option String) :
    Twin n m (d.announced sid limit keepAlive link) (e.announced sid limit keepAlive link) := by
  have hkind : e.conokKind sid = d.conokKind sid := by cases h; rfl
  have henter : Twin n m (d.enterSession sid keepAlive link (d.conokKind sid))
      (e.enterSession sid keepAlive link (d.conokKind sid)) := by
    have hlink : Twin n m
        { ((({ d with streamState := .bound } : SessionDriver).clocked
          (d.liveness.onBound keepAlive)).act (.setControlLink link)) with
            negotiatedKeepAlive := some keepAlive, backoff := d.backoff.reset
            session := some sid, previousSession := none }
        { ((({ e with streamState := .bound } : SessionDriver).clocked
          (e.liveness.onBound keepAlive)).act (.setControlLink link)) with
            negotiatedKeepAlive := some keepAlive, backoff := e.backoff.reset
            session := some sid, previousSession := none } := by
      cases h with
      | mk hr hp hl => exact .mk hr hp (hl.concat rfl)
    unfold SessionDriver.enterSession
    cases (d.conokKind sid).isFresh
    · exact hlink
    · exact hlink.freshSession hd he
  unfold SessionDriver.announced
  rw [hkind]
  exact henter.emit _

theorem onConok (h : Twin n m d e) (hd : d.generation < u64Max) (he : e.generation < u64Max)
    (sid : SessionId) (limit keepAlive : ℕ) (link : Option String) :
    Twin n m (d.onConok sid limit keepAlive link) (e.onConok sid limit keepAlive link) :=
  (h.announced hd he sid limit keepAlive link).issueUnboundSubscriptions

theorem onConerr (h : Twin n m d e) (cause : ServerCause) :
    (d.onConerr cause).1 = (e.onConerr cause).1 ∧
      Twin n m (d.onConerr cause).2 (e.onConerr cause).2 := by
  have habandon : Twin n m d.abandonSession e.abandonSession := by
    cases h with
    | mk hr hp hl => exact .mk hr hp hl
  unfold SessionDriver.onConerr
  split
  · exact ⟨rfl, h⟩
  · exact ⟨rfl, habandon⟩
  · exact ⟨rfl, habandon⟩

theorem onEnd (h : Twin n m d e) (cause : ServerCause) :
    (d.onEnd cause).1 = (e.onEnd cause).1 ∧ Twin n m (d.onEnd cause).2 (e.onEnd cause).2 := by
  have habandon : Twin n m d.abandonSession e.abandonSession := by
    cases h with
    | mk hr hp hl => exact .mk hr hp hl
  have hdestroy : e.destroyRequested = d.destroyRequested := by cases h; rfl
  unfold SessionDriver.onEnd
  rw [hdestroy]
  split
  · exact ⟨rfl, h⟩
  · split
    · exact ⟨rfl, habandon⟩
    · exact ⟨rfl, habandon⟩
    · exact ⟨rfl, h⟩

theorem loopReason (h : Twin n m d e) (delay : ℕ) :
    (d.loopReason delay).1 = (e.loopReason delay).1 ∧
      Twin n m (d.loopReason delay).2 (e.loopReason delay).2 := by
  have hforced : e.forceRebindOutstanding = d.forceRebindOutstanding := by cases h; rfl
  unfold SessionDriver.loopReason
  rw [hforced, h.properties]
  split
  · exact ⟨rfl, h.setForceRebindOutstanding false⟩
  · split
    · exact ⟨rfl, h⟩
    · split
      · exact ⟨rfl, h⟩
      · exact ⟨rfl, h⟩

theorem onProg (h : Twin n m d e) (resumedAt : ℕ) :
    Twin n m (d.onProg resumedAt) (e.onProg resumedAt) := by
  have hintent : e.intent = d.intent := by cases h; rfl
  have hhonoured : e.progHonoured = d.progHonoured := by cases h; rfl
  unfold SessionDriver.onProg
  rw [hintent, hhonoured]
  split
  · split
    · exact h
    · dsimp only
      split
      · refine Twin.emit ?_ _
        cases h with
        | mk hr hp hl => exact .mk hr hp hl
      · split
        · refine Twin.emit ?_ _
          cases h with
          | mk hr hp hl => exact .mk hr hp hl
        · refine Twin.emit ?_ _
          cases h with
          | mk hr hp hl => exact .mk hr hp hl
  · exact h

theorem onNotification (h : Twin n m d e) (hd : d.generation < u64Max) (he : e.generation < u64Max)
    (notification : Notification) :
    (d.onNotification notification).1 = (e.onNotification notification).1 ∧
      Twin n m (d.onNotification notification).2 (e.onNotification notification).2 := by
  cases notification with
  | connectionOk sid limit keepAlive link => exact ⟨rfl, h.onConok hd he sid limit _ link⟩
  | connectionError code message => exact h.onConerr _
  | «end» code message => exact h.onEnd _
  | loop delay =>
    obtain ⟨hreason, htwin⟩ := h.loopReason (ofMillis delay)
    exact ⟨congrArg Flow.unbind hreason, htwin⟩
  | progressive resumedAt => exact ⟨rfl, h.onProg resumedAt⟩
  | requestOk id => exact ⟨rfl, h.onRequestOk id⟩
  | requestError id code message => exact ⟨rfl, h.onRequestError id _⟩
  | error code message => exact ⟨rfl, h.emit _⟩
  | sync | clientIp | serverName | constraintsChanged => exact ⟨rfl, h.emit _⟩
  | probe | noOp | wsOk => exact ⟨rfl, h⟩
  | _ => exact ⟨rfl, h.onData _⟩

theorem onLine (h : Twin n m d e) (hd : d.generation < u64Max) (he : e.generation < u64Max)
    (line : String) :
    (d.onLine line).1 = (e.onLine line).1 ∧ Twin n m (d.onLine line).2 (e.onLine line).2 := by
  have hheard : Twin n m (d.clocked d.liveness.onInbound) (e.clocked e.liveness.onInbound) := by
    rw [h.liveness]
    exact h.clocked _
  unfold SessionDriver.onLine
  dsimp only
  split
  · exact hheard.onNotification hd he _
  · exact ⟨rfl, hheard.emit _⟩

/-! ### Timers and plans -/

theorem onTimer (h : Twin n m d e) :
    d.onTimer.1 = e.onTimer.1 ∧ Twin n m d.onTimer.2 e.onTimer.2 := by
  have hclocked := h.clocked fun _ => d.liveness
  unfold SessionDriver.onTimer
  dsimp only
  rw [h.liveness, h.turn]
  split
  · exact ⟨rfl, hclocked⟩
  · exact hclocked.sendHeartbeat
  · rw [show (e.clocked fun _ => d.liveness).streamState =
        (d.clocked fun _ => d.liveness).streamState
      from h.streamState]
    split
    · exact ⟨rfl, hclocked⟩
    · exact ⟨rfl, hclocked⟩

theorem setRefreshStreak (h : Twin n m d e) (streak : ℕ) :
    Twin n m { d with refreshStreak := streak } { e with refreshStreak := streak } := by
  cases h with
  | mk hr hp hl => exact .mk hr hp hl

theorem reopenLater (h : Twin n m d e) (intent : OpenIntent) :
    (d.reopenLater intent).1 = (e.reopenLater intent).1 ∧
      Twin n m (d.reopenLater intent).2 (e.reopenLater intent).2 := by
  cases h with
  | mk hr hp hl => exact ⟨rfl, .mk hr hp hl⟩

theorem planAfter (h : Twin n m d e) (reason : UnbindReason) :
    (d.planAfter reason).1 = (e.planAfter reason).1 ∧
      Twin n m (d.planAfter reason).2 (e.planAfter reason).2 := by
  have hreset := h.setRefreshStreak 0
  have hloop : Twin n m { d with backoff := d.backoff.reset, refreshStreak := 0 }
      { e with backoff := e.backoff.reset, refreshStreak := 0 } := by
    cases h with
    | mk hr hp hl => exact .mk hr hp hl
  cases reason with
  | forcedByClient | contentLengthReached | pollCycleExpired | looped => exact ⟨rfl, hloop⟩
  | connectionFailed | keepaliveExpired =>
    have hintent : (if e.session.isSome then OpenIntent.recover e.progressive else .create) =
        if d.session.isSome then .recover d.progressive else .create := by
      rw [h.session, h.progressive]
    unfold SessionDriver.planAfter
    dsimp only
    rw [hintent]
    exact hreset.reopenLater _
  | rejected => exact hreset.reopenLater .create
  | serverRefresh cause =>
    have hstreak : e.refreshStreak = d.refreshStreak := by cases h; rfl
    have hmax : e.options.backoff = d.options.backoff := by cases h; rfl
    have hcount := h.setRefreshStreak (saturatingAdd u32Max d.refreshStreak 1)
    unfold SessionDriver.planAfter
    dsimp only
    rw [hstreak, hmax]
    split
    · refine ⟨rfl, ?_⟩
      cases h with
      | mk hr hp hl => exact .mk hr hp hl
    · split
      · exact ⟨rfl, hcount⟩
      · exact hcount.reopenLater .create

end Twin

/-! ## The loop -/

/-- Drives whose drivers are twins, at the same place of the loop. -/
structure TwinDrive (n m : ℕ) (s t : Drive) : Prop where
  driver : Twin n m s.driver t.driver
  phase : t.phase = s.phase

namespace Drive

open SessionDriver

variable {n m : ℕ} {d e : SessionDriver}

theorem finish_twins (h : Twin n m d e) (closed : SessionClosed) :
    TwinDrive n m (finish d closed) (finish e closed) :=
  ⟨(h.act _).emit _, rfl⟩

theorem openNext_twins (h : Twin n m d e) (next : Reopen) :
    TwinDrive n m (openNext d next) (openNext e next) := by
  cases h with
  | mk hr hp hl => exact ⟨.mk hr hp (hl.concat rfl), rfl⟩

theorem reopen_twins (h : Twin n m d e) (next : Reopen) :
    TwinDrive n m (reopen d next) (reopen e next) := by
  unfold reopen
  split
  · exact openNext_twins h next
  · exact ⟨h, rfl⟩

theorem unbind_twins (h : Twin n m d e) (reason : UnbindReason) :
    TwinDrive n m (unbind d reason) (unbind e reason) := by
  have hunbound : Twin n m (unbound d reason) (unbound e reason) := by
    unfold unbound closeUnlessLooped
    cases h with
    | mk hr hp hl =>
      split
      · exact .mk hr hp hl
      · exact .mk hr hp (hl.concat rfl)
  obtain ⟨hnext, hplan⟩ := hunbound.planAfter reason
  unfold unbind
  dsimp only
  rw [show closeUnlessLooped { d with
      liveness := d.liveness.onStreamClosed, streamState := .establishing } reason =
    unbound d reason from rfl, show closeUnlessLooped { e with
      liveness := e.liveness.onStreamClosed, streamState := .establishing } reason =
    unbound e reason from rfl]
  cases hd : (unbound d reason).planAfter reason with
  | mk next d' =>
    cases he : (unbound e reason).planAfter reason with
    | mk next' e' =>
      rw [hd, he] at hnext hplan
      dsimp only at hnext hplan
      subst hnext
      cases next with
      | none =>
        have hattempts : e'.backoff = d'.backoff := by cases hplan; rfl
        dsimp only
        rw [hattempts]
        exact finish_twins (hplan.emit _) _
      | some next =>
        have hemit := hplan.emit (.unbound reason (some next.delay))
        dsimp only
        rw [hemit.stopping]
        split
        · exact finish_twins hemit _
        · exact reopen_twins hemit next

theorem afterPump_twins {r r' : Flow × SessionDriver} (hflow : r.1 = r'.1)
    (h : Twin n m r.2 r'.2) : TwinDrive n m (afterPump r) (afterPump r') := by
  obtain ⟨flow, d⟩ := r
  obtain ⟨flow', e⟩ := r'
  obtain rfl : flow = flow' := hflow
  unfold afterPump
  dsimp only at h ⊢
  rw [h.stopping]
  split
  · exact finish_twins h _
  · cases flow with
    | «continue» => exact ⟨h, rfl⟩
    | unbind reason => exact unbind_twins h reason
    | closed closed => exact finish_twins h closed

theorem afterWait_twins {r r' : Flow × SessionDriver} (hflow : r.1 = r'.1)
    (h : Twin n m r.2 r'.2) (next : Reopen) :
    TwinDrive n m (afterWait next r) (afterWait next r') := by
  obtain ⟨flow, d⟩ := r
  obtain ⟨flow', e⟩ := r'
  obtain rfl : flow = flow' := hflow
  unfold afterWait
  dsimp only at h ⊢
  cases flow with
  | closed closed => exact finish_twins h closed
  | _ =>
    dsimp only
    rw [h.stopping]
    split
    · exact finish_twins h _
    · exact ⟨h, rfl⟩

theorem established_twins (h : Twin n m d e) :
    TwinDrive n m (established d) (established e) := by
  cases h with
  | mk hr hp hl => exact ⟨.mk hr hp hl, rfl⟩

theorem waitTurn_twins (h : Twin n m d e) (next : Reopen) (wake : Wake) :
    Option.Rel (TwinDrive n m) (waitTurn d next wake) (waitTurn e next wake) := by
  unfold waitTurn
  split
  · rename_i c
    exact .some (afterWait_twins (h.onCommand c).1 (h.onCommand c).2 next)
  · exact .some (openNext_twins h next)
  · exact .some (finish_twins h _)
  · exact .some (finish_twins h _)
  · exact .none

theorem openTurn_twins (h : Twin n m d e) (wake : Wake) :
    Option.Rel (TwinDrive n m) (openTurn d wake) (openTurn e wake) := by
  have hbudget : e.establishmentBudget = d.establishmentBudget := by cases h; rfl
  unfold openTurn
  split
  · exact .some (established_twins h)
  · exact .some (unbind_twins h _)
  · rw [hbudget]
    exact .some (unbind_twins h _)
  · exact .some (finish_twins h _)
  · exact .some (finish_twins h _)
  · exact .none

theorem pumpTurn_twins (h : Twin n m d e) (hd : d.generation < u64Max) (he : e.generation < u64Max)
    (wake : Wake) :
    Option.Rel (fun r r' => r.1 = r'.1 ∧ Twin n m r.2 r'.2)
      (pumpTurn d wake) (pumpTurn e wake) := by
  have hend : d.onStreamEnd = e.onStreamEnd := by cases h; rfl
  unfold pumpTurn
  split
  · exact .some (h.onLine hd he _)
  · exact .some ⟨rfl, h⟩
  · exact .some ⟨hend, h⟩
  · exact .some (h.onCommand _)
  · rw [h.liveness]
    split
    · exact .some h.onTimer
    · exact .none
  · exact .some ⟨rfl, h⟩
  · exact .some ⟨rfl, h⟩
  · exact .none

/-- **A turn takes twins to twins**, and both refuse the same turns. -/
theorem step_twins {s t : Drive} {i : Input} (h : TwinDrive n m s t)
    (hs : s.driver.generation < u64Max) (ht : t.driver.generation < u64Max) :
    Option.Rel (TwinDrive n m) (step s i) (step t i) := by
  have hturn : Twin n m (s.driver.withTurn i.turn) (t.driver.withTurn i.turn) := by
    obtain ⟨driver, phase⟩ := s
    obtain ⟨driver', phase'⟩ := t
    cases h.driver with
    | mk hr hp hl => exact .mk hr hp hl
  have hs' : (s.driver.withTurn i.turn).generation < u64Max := hs
  have ht' : (t.driver.withTurn i.turn).generation < u64Max := ht
  unfold step
  dsimp only
  rw [h.phase]
  split
  · exact waitTurn_twins hturn _ _
  · exact openTurn_twins hturn _
  · have hpump := pumpTurn_twins hturn hs' ht' i.wake
    cases hd : pumpTurn (s.driver.withTurn i.turn) i.wake with
    | none =>
      cases he : pumpTurn (t.driver.withTurn i.turn) i.wake with
      | none => exact .none
      | some r' =>
        rw [hd, he] at hpump
        cases hpump
    | some r =>
      cases he : pumpTurn (t.driver.withTurn i.turn) i.wake with
      | none =>
        rw [hd, he] at hpump
        cases hpump
      | some r' =>
        rw [hd, he] at hpump
        cases hpump with
        | some hr => exact .some (afterPump_twins hr.1 hr.2)
  · exact .none

end Drive

end Lightstreamer.Session
