import Lightstreamer.Session.Turns

/-!
# Registry coherence

The registry holds two maps, from keys to entries and from wire ids to keys, and the next wire id.
`Registry.Coherent` says that the maps are mutually inverse and that every wire id in use is smaller
than the next one. `Numbering` is about the trace: the ids of the `add` requests increase within
each session. Every turn keeps both (`Drive.step_orderly`), as long as the caller subscribes with
keys that are not in the registry.
-/

namespace Lightstreamer.Session

open Lightstreamer.Foundations Lightstreamer.Protocol Lightstreamer.Subscription

/-! ## The two maps -/

/-- The wire id of an entry, as a number. -/
def RegistryEntry.wireId (entry : RegistryEntry) : Option ℕ := entry.wire.map NonZeroU32.val

namespace Registry

/-- The two maps are mutually inverse, and the ids in use lie below the next one. -/
structure Coherent (r : Registry) : Prop where
  bound_iff : ∀ id key, r.bySubId.get? id = some key ↔
    ∃ entry, r.entries.get? key = some entry ∧ entry.wireId = some id
  lt_next : ∀ id key, r.bySubId.get? id = some key → id < r.nextSubId

/-- Every entry of the key, if there is one, has no binding. -/
def Unbound (r : Registry) (key : SubscriptionKey) : Prop :=
  ∀ entry, r.entries.get? key = some entry → entry.wire = none

variable {r : Registry} {key : SubscriptionKey}

namespace Coherent

theorem new : Coherent Registry.new :=
  ⟨fun id key => by simp [Registry.new], fun id key h => by simp [Registry.new] at h⟩

/-- A key without a binding is found under no wire id. -/
theorem not_bound (h : Coherent r) (hkey : r.Unbound key) (id : ℕ) :
    r.bySubId.get? id ≠ some key := fun hid => by
  obtain ⟨entry, he, hw⟩ := (h.bound_iff id key).1 hid
  simp [RegistryEntry.wireId, hkey entry he] at hw

/-- Changing an entry but for its binding changes no binding. -/
theorem modify (h : Coherent r) (key : SubscriptionKey) {f : RegistryEntry → RegistryEntry}
    (hf : ∀ entry, (f entry).wire = entry.wire) :
    Coherent { r with entries := r.entries.modify key f } := by
  refine ⟨fun id k => ?_, h.lt_next⟩
  rw [h.bound_iff]
  simp only [OrdMap.get?_modify]
  by_cases hk : k = key
  · subst hk
    cases r.entries.get? k <;> simp [RegistryEntry.wireId, hf]
  · simp [hk]

theorem markRemoving (h : Coherent r) (key : SubscriptionKey) : Coherent (r.markRemoving key) :=
  h.modify key fun _ => rfl

theorem commitFrequency (h : Coherent r) (key : SubscriptionKey) (f : MaxFrequencyLimit) :
    Coherent (r.commitFrequency key f) :=
  h.modify key fun _ => rfl

theorem keep (h : Coherent r) (key : SubscriptionKey) : Coherent (r.keep key) :=
  h.modify key fun _ => rfl

theorem setManager (h : Coherent r) (key : SubscriptionKey) (m : SubscriptionManager) :
    Coherent (r.setManager key m) :=
  h.modify key fun _ => rfl

theorem activate (h : Coherent r) (key : SubscriptionKey) : Coherent (r.activate key) :=
  h.modify key fun _ => rfl

theorem want (h : Coherent r) (hkey : r.Unbound key) (spec : SubscriptionSpec) :
    Coherent (r.want key spec) := by
  refine ⟨fun id k => ?_, h.lt_next⟩
  by_cases hk : k = key
  · subst hk
    simpa [Registry.want, RegistryEntry.new, RegistryEntry.wireId] using h.not_bound hkey id
  · simpa [Registry.want, hk] using h.bound_iff id k

theorem forget (h : Coherent r) (hkey : r.Unbound key) : Coherent (r.forget key) := by
  refine ⟨fun id k => ?_, h.lt_next⟩
  by_cases hk : k = key
  · subst hk
    simpa [Registry.forget] using h.not_bound hkey id
  · simpa [Registry.forget, hk] using h.bound_iff id k

/-- Removing a key and its wire id from both maps. -/
theorem remove {id : ℕ} (h : Coherent r) (hid : r.bySubId.get? id = some key) :
    Coherent (r.remove key id) := by
  obtain ⟨entry, he, hw⟩ := (h.bound_iff id key).1 hid
  refine ⟨fun id' k => ?_, fun id' k hk => ?_⟩
  · simp only [Registry.remove, OrdMap.get?_erase]
    by_cases hk : k = key
    · subst hk
      have hne : id' ≠ id → r.bySubId.get? id' ≠ some k := fun hne hid' => by
        obtain ⟨entry', he', hw'⟩ := (h.bound_iff id' k).1 hid'
        rw [he] at he'
        cases he'
        exact hne (Option.some.inj (hw'.symm.trans hw))
      by_cases hid' : id' = id <;> simp [hid', hne]
    · have hne : id' = id → r.bySubId.get? id' ≠ some k := by
        rintro rfl h'
        rw [hid] at h'
        exact hk (Option.some.inj h').symm
      rw [if_neg hk, ← h.bound_iff]
      by_cases hid' : id' = id
      · simpa [hid'] using hid' ▸ hne hid'
      · simp [hid']
  · exact h.lt_next id' k (OrdMap.get?_of_erase hk)

theorem drop (h : Coherent r) (key : SubscriptionKey) : Coherent (r.drop key) := by
  cases hw : (r.entries.get? key).bind RegistryEntry.wire with
  | none =>
    have hkey : r.Unbound key := fun entry he => by simpa [he] using hw
    simpa [Registry.drop, hw, Registry.forget] using h.forget hkey
  | some id =>
    obtain ⟨entry, he, hwire⟩ := Option.bind_eq_some_iff.1 hw
    have hid : r.bySubId.get? id.val = some key :=
      (h.bound_iff _ _).2 ⟨entry, he, by simp [RegistryEntry.wireId, hwire]⟩
    simpa [Registry.drop, hw, Registry.remove] using h.remove hid

theorem release {id : NonZeroU32} (h : Coherent r) (hid : r.bySubId.get? id.val = some key) :
    Coherent (r.release key id) := by
  have hr := h.remove hid
  obtain ⟨entry, he, -⟩ := (h.bound_iff id.val key).1 hid
  refine ⟨fun id' k => ?_, hr.lt_next⟩
  have hb := hr.bound_iff id' k
  simp only [Registry.remove, OrdMap.get?_erase] at hb
  simp only [Registry.release, OrdMap.get?_erase, OrdMap.get?_modify]
  rw [hb]
  by_cases hk : k = key
  · subst hk
    simp [he, RegistryEntry.wireId]
  · simp [hk]

theorem resetForNewSession (r : Registry) : Coherent r.resetForNewSession := by
  refine ⟨fun id key => ?_, fun id key h => by simp [Registry.resetForNewSession] at h⟩
  simp only [Registry.resetForNewSession, OrdMap.get?_empty, OrdMap.get?_mapVal,
    Option.map_eq_some_iff]
  constructor
  · rintro ⟨⟩
  · rintro ⟨entry, ⟨e, -, rfl⟩, hw⟩
    simp [RegistryEntry.reset, RegistryEntry.wireId] at hw

end Coherent

/-- Binding an unbound key to the id just allocated. -/
theorem Coherent.bind {r r' : Registry} {id : NonZeroU32} {key : SubscriptionKey} (h : Coherent r)
    (hkey : r.Unbound key) (ha : r.allocate = some (id, r')) {entry : RegistryEntry}
    (he : r.entries.get? key = some entry) : Coherent (r'.bind key id) := by
  obtain ⟨hid, rfl⟩ := allocate_eq_some ha
  refine ⟨fun id' k => ?_, fun id' k hk => ?_⟩
  · simp only [Registry.bind, OrdMap.get?_insert, OrdMap.get?_modify]
    by_cases hk : k = key
    · subst hk
      simp only [if_true, he, Option.map_some, Option.some.injEq, exists_eq_left',
        RegistryEntry.wireId]
      by_cases hid' : id' = id.val
      · simp [hid']
      · simpa [hid', Ne.symm hid'] using h.not_bound hkey id'
    · have hlt : id' = id.val → r.bySubId.get? id' ≠ some k := fun hid' h' => by
        have := h.lt_next id' k h'
        omega
      rw [if_neg hk, ← h.bound_iff]
      by_cases hid' : id' = id.val
      · simpa [hid', Ne.symm hk] using hlt hid'
      · simp [hid']
  · simp only [Registry.bind, OrdMap.get?_insert] at hk ⊢
    split at hk
    · omega
    · exact Nat.lt_succ_of_lt (h.lt_next id' k hk)

end Registry

/-! ## The numbering of the requests -/

/-- A report that a new session was bound. -/
def Action.BindsFresh : Action → Prop
  | .event (.bound info) _ => info.kind.isFresh
  | _ => False

/-- The wire id of an `add` request. -/
def Action.addId : Action → Option ℕ
  | .control (.subscribe r) _ _ _ => some r.subscriptionId.val
  | _ => none

/-- The wire ids of the `add` requests of a history, in order. -/
def addIds (trace : List Action) : List ℕ := trace.filterMap Action.addId

/-- Between two new sessions the ids of the `add` requests increase, and the ones of the current
session lie below the next id. -/
structure Numbering (trace : List Action) (next : ℕ) : Prop where
  increasing : ∀ part, part <:+: trace → (∀ a ∈ part, ¬a.BindsFresh) →
    (addIds part).Pairwise (· < ·)
  below : ∀ part, part <:+ trace → (∀ a ∈ part, ¬a.BindsFresh) → ∀ id ∈ addIds part, id < next

namespace Numbering

variable {trace trace' : List Action} {next next' : ℕ} {a : Action}

theorem nil (next : ℕ) : Numbering [] next := by
  refine ⟨fun part h _ => ?_, fun part h _ => ?_⟩
  · simp [List.infix_nil.1 h, addIds]
  · simp [List.suffix_nil.1 h, addIds]

/-- A new session starts its numbering over. -/
theorem fresh (h : Numbering trace next) (ha : a.BindsFresh) (next' : ℕ) :
    Numbering (trace ++ [a]) next' := by
  have hlast : ∀ part, part <:+ trace ++ [a] → (∀ b ∈ part, ¬b.BindsFresh) → part = [] :=
    fun part hp hb => (List.suffix_concat_iff.1 hp).resolve_right fun ⟨t, ht, _⟩ =>
      hb a (ht ▸ by simp) ha
  refine ⟨fun part hp hb => ?_, fun part hp hb => ?_⟩
  · rcases List.infix_concat_iff.1 hp with hp | hp
    · simp [hlast part hp hb, addIds]
    · exact h.increasing part hp hb
  · simp [hlast part hp hb, addIds]

/-- An action that sends at most an `add` with an id not below the next one. -/
theorem concat (h : Numbering trace next) (hle : next ≤ next')
    (ha : ∀ id, a.addId = some id → next ≤ id ∧ id < next') : Numbering (trace ++ [a]) next' := by
  have hmem : ∀ t, t <:+ trace → (∀ b ∈ t, ¬b.BindsFresh) → ∀ id ∈ addIds t, id < next :=
    h.below
  have hids : ∀ t : List Action, addIds (t ++ [a]) = addIds t ++ a.addId.toList := fun t => by
    cases ha : a.addId <;> simp [addIds, ha]
  refine ⟨fun part hp hb => ?_, fun part hp hb id hid => ?_⟩
  · rcases List.infix_concat_iff.1 hp with hp | hp
    · rcases List.suffix_concat_iff.1 hp with rfl | ⟨t, rfl, ht⟩
      · simp [addIds]
      · have hb' : ∀ b ∈ t, ¬b.BindsFresh := fun b hb' => hb b (List.mem_append_left _ hb')
        rw [hids, List.pairwise_append]
        refine ⟨h.increasing t ht.isInfix hb', ?_, fun x hx y hy => ?_⟩
        · cases a.addId <;> simp
        · exact Nat.lt_of_lt_of_le (hmem t ht hb' x hx) (ha y (by simpa using hy)).1
    · exact h.increasing part hp hb
  · rcases List.suffix_concat_iff.1 hp with rfl | ⟨t, rfl, ht⟩
    · simp [addIds] at hid
    · have hb' : ∀ b ∈ t, ¬b.BindsFresh := fun b hb' => hb b (List.mem_append_left _ hb')
      rw [hids, List.mem_append] at hid
      rcases hid with hid | hid
      · exact Nat.lt_of_lt_of_le (hmem t ht hb' id hid) hle
      · exact (ha id (by simpa using hid)).2

/-- Actions that send no `add` change nothing. -/
theorem of_extends (h : Numbering trace next)
    (ht : Extends (fun a => a.addId = none) trace trace') : Numbering trace' next := by
  refine ht.invariant (I := (Numbering · next)) h fun _ a ha hl => hl.concat le_rfl fun id hid => ?_
  rw [ha] at hid
  cases hid

end Numbering

theorem Action.IsReport.addId {a : Action} (h : a.IsReport) : a.addId = none := by
  cases a with
  | control => cases h
  | _ => rfl

theorem Action.IsLoop.addId {a : Action} (h : a.IsLoop) : a.addId = none := by
  cases a with
  | control => cases h
  | _ => rfl

/-! ## The driver -/

/-- The key that a command subscribes to. -/
def SessionCommand.subscribed : SessionCommand → List SubscriptionKey
  | .subscribe key _ => [key]
  | _ => []

namespace SessionDriver

/-- The registry is coherent and its numbering is the one of the trace. -/
structure Orderly (d : SessionDriver) : Prop where
  coherent : d.registry.Coherent
  numbering : Numbering d.trace d.registry.nextSubId

/-- What every operation does: it keeps the order, it takes the numbering back only after the report
of a new session, and it adds no entry but for the keys `new`. -/
structure Advances (new : List SubscriptionKey) (d d' : SessionDriver) : Prop where
  orderly : d'.Orderly
  grows : ∃ t, d'.trace = d.trace ++ t ∧
    (d.registry.nextSubId ≤ d'.registry.nextSubId ∨ ∃ a ∈ t, a.BindsFresh)
  keys : ∀ k, k ∉ new → d.registry.entries.get? k = none → d'.registry.entries.get? k = none

variable {new : List SubscriptionKey} {d d' d'' : SessionDriver}

theorem Advances.trans (h : Advances new d d') (h' : Advances new d' d'') : Advances new d d'' := by
  obtain ⟨t, ht, hn⟩ := h.grows
  obtain ⟨t', ht', hn'⟩ := h'.grows
  refine ⟨h'.orderly, ⟨t ++ t', by rw [ht', ht, List.append_assoc], ?_⟩,
    fun k hk hd => h'.keys k hk (h.keys k hk hd)⟩
  rcases hn with hn | ⟨a, ha, hf⟩
  · rcases hn' with hn' | ⟨a, ha, hf⟩
    · exact .inl (hn.trans hn')
    · exact .inr ⟨a, List.mem_append_right _ ha, hf⟩
  · exact .inr ⟨a, List.mem_append_left _ ha, hf⟩

theorem Advances.mono {new' : List SubscriptionKey} (hnew : new ⊆ new') (h : Advances new d d') :
    Advances new' d d' :=
  ⟨h.orderly, h.grows, fun k hk => h.keys k fun hk' => hk (hnew hk')⟩

/-- An operation that allocates no id and sends no `add`. -/
theorem Orderly.advances (h : d.Orderly) (hr : d'.registry.Coherent)
    (hn : d'.registry.nextSubId = d.registry.nextSubId)
    (ht : Extends (fun a => a.addId = none) d.trace d'.trace)
    (hk : ∀ k, k ∉ new → d.registry.entries.get? k = none →
      d'.registry.entries.get? k = none) : Advances new d d' :=
  ⟨⟨hr, hn ▸ h.numbering.of_extends ht⟩, by
    obtain ⟨t, ht, -⟩ := ht
    exact ⟨t, ht, .inl hn.ge⟩, hk⟩

/-- An operation that leaves the registry alone and sends no `add`. -/
theorem Orderly.advances_of_eq (h : d.Orderly) (hr : d'.registry = d.registry)
    (ht : Extends (fun a => a.addId = none) d.trace d'.trace) : Advances new d d' :=
  h.advances (hr ▸ h.coherent) (by rw [hr]) ht fun k _ hk => hr ▸ hk

theorem Orderly.refl (h : d.Orderly) : Advances new d d := h.advances_of_eq rfl (.refl _ _)

/-! ## Issuing -/

/-- Sending the `add` of the id just allocated. -/
theorem sendSubscribe_orderly (hc : d.registry.Coherent) (session : SessionId)
    {key : SubscriptionKey} {subId : NonZeroU32} (entry : RegistryEntry)
    (hnum : Numbering d.trace subId.val) (hnext : d.registry.nextSubId = subId.val + 1)
    (hid : d.registry.bySubId.get? subId.val = some key) :
    (d.sendSubscribe session key subId entry).2.Orderly := by
  have hnum' : Numbering d.trace (subId.val + 1) :=
    ⟨hnum.increasing, fun p hp hb id hid => Nat.lt_succ_of_lt (hnum.below p hp hb id hid)⟩
  have hreport : ∀ {l : List Action} (e : SessionEvent) (b : Bool), Numbering l (subId.val + 1) →
      Numbering (l ++ [.event e b]) (subId.val + 1) := fun e b hl =>
    hl.concat le_rfl fun id h => by cases h
  unfold sendSubscribe
  split
  · refine ⟨hc.release hid, ?_⟩
    simpa [reportIdExhaustion, emit, Registry.release, hnext] using hreport _ _ hnum'
  · rename_i id _ h
    obtain ⟨-, -, rfl⟩ := takeRequestId_eq_some h
    have hadd : ∀ ps e, Numbering (d.trace ++ [.control (.subscribe
        (subscribeRequest session id subId entry.spec)) (some (.subscribe key)) ps e])
        (subId.val + 1) := fun ps e =>
      hnum.concat (Nat.le_succ _) fun i hi => by
        cases hi
        exact ⟨le_rfl, Nat.lt_succ_self _⟩
    dsimp only
    obtain ⟨err, _, h, rfl⟩ | ⟨ps, d', h, -, hr, -, -, -, ht⟩ | ⟨ps, err, b, d', h, -, hr, -, -, -,
        ht⟩ := dispatch_cases { d with nextRequestId := d.nextRequestId + 1 }
      (.subscribe (subscribeRequest session id subId entry.spec)) id (.subscribe key)
    · rw [h]
      refine ⟨hc.release hid, ?_⟩
      simpa [emit, Registry.release, hnext] using hreport _ _ hnum'
    · rw [h, if_pos rfl]
      dsimp only at hr ht
      exact ⟨hr ▸ hc, by rw [ht, hr, hnext]; exact hadd ps none⟩
    · rw [h, if_neg Bool.false_ne_true]
      dsimp only at hr ht
      refine ⟨hr ▸ hc.release hid, ?_⟩
      simp only [hr, Registry.release, hnext]
      rw [ht, List.append_cons]
      exact hreport _ _ (hadd ps _)

theorem le_issueSubscription_nextSubId (d : SessionDriver) (key : SubscriptionKey) :
    d.registry.nextSubId ≤ (d.issueSubscription key).2.registry.nextSubId := by
  obtain h | ⟨subId, r, ha, h | h | h⟩ := d.issueSubscription_registry key
  · rw [h]
  all_goals
    obtain ⟨-, rfl⟩ := Registry.allocate_eq_some ha
    rw [h]
    exact Nat.le_succ _

/-- Issuing an unbound subscription. -/
theorem issueSubscription_orderly (h : d.Orderly) {key : SubscriptionKey}
    (hkey : d.registry.Unbound key) : (d.issueSubscription key).2.Orderly := by
  unfold issueSubscription
  split
  · exact h
  · split
    · exact h
    · rename_i subId registry ha
      obtain ⟨hid, rfl⟩ := Registry.allocate_eq_some ha
      dsimp only
      split
      · exact ⟨⟨h.coherent.bound_iff, fun i k hik =>
            Nat.lt_succ_of_lt (h.coherent.lt_next i k hik)⟩,
          ⟨h.numbering.increasing, fun p hp hb i hi =>
            Nat.lt_succ_of_lt (h.numbering.below p hp hb i hi)⟩⟩
      · rename_i entry he
        exact sendSubscribe_orderly (h.coherent.bind hkey ha he) _ entry
          (by simpa [hid] using h.numbering) (by simp [Registry.bind, hid])
          (by simp [Registry.bind])

theorem issueSubscription_advances (h : d.Orderly) {key : SubscriptionKey}
    (hkey : d.registry.Unbound key) : Advances new d (d.issueSubscription key).2 := by
  obtain ⟨t, ht, -⟩ : Extends (fun _ => True) d.trace (d.issueSubscription key).2.trace :=
    issueSubscription_extends d (fun _ _ => trivial) fun _ _ _ => trivial
  exact ⟨issueSubscription_orderly h hkey, ⟨t, ht, .inl (d.le_issueSubscription_nextSubId key)⟩,
    fun k _ hk => issueSubscription_get?_eq_none hk⟩

/-- Issuing unbound subscriptions in turn. -/
theorem issueAll_advances (h : d.Orderly) {keys : List SubscriptionKey} (hnodup : keys.Nodup)
    (hkeys : ∀ key ∈ keys, d.registry.Unbound key) : Advances new d (d.issueAll keys).2 := by
  induction keys generalizing d with
  | nil => exact h.refl
  | cons key keys ih =>
    have hfirst : Advances new d (d.issueSubscription key).2 :=
      issueSubscription_advances h (hkeys key List.mem_cons_self)
    rw [List.nodup_cons] at hnodup
    refine hfirst.trans (ih hfirst.orderly hnodup.2 fun k hk entry he => ?_)
    have hne : k ≠ key := fun hkk => hnodup.1 (hkk ▸ hk)
    rw [issueSubscription_get? hne] at he
    exact hkeys k (List.mem_cons_of_mem _ hk) entry he

/-- A new bind issues every subscription that has no binding. -/
theorem issueUnboundSubscriptions_advances (h : d.Orderly) :
    Advances new d d.issueUnboundSubscriptions := by
  have hall : Advances new d (d.issueAll d.registry.unboundKeys).2 := by
    refine issueAll_advances h (OrdMap.nodup_keys _) fun key hkey entry he => ?_
    obtain ⟨e, he', hw, -⟩ := Registry.mem_unboundKeys.1 hkey
    rw [he] at he'
    cases he'
    exact hw
  unfold issueUnboundSubscriptions
  dsimp only
  split
  · exact hall
  · exact hall.trans (hall.orderly.advances_of_eq rfl
      (extends_report _ (fun _ => Action.IsReport.addId) trivial))

/-! ## Commands -/

theorem subscribe_advances (h : d.Orderly) {key : SubscriptionKey} (hkey : d.registry.Unbound key)
    (spec : SubscriptionSpec) : Advances [key] d (d.subscribe key spec) := by
  have hwant : Advances [key] d { d with registry := d.registry.want key spec } := by
    refine h.advances (h.coherent.want hkey spec) rfl (.refl _ _) fun k hk hd => ?_
    simpa [Registry.want, List.ne_of_not_mem_cons hk] using hd
  unfold subscribe
  dsimp only
  split
  · refine hwant.trans (issueSubscription_advances hwant.orderly fun entry he => ?_)
    obtain rfl : RegistryEntry.new spec = entry := by simpa [Registry.want] using he
    rfl
  · exact hwant

theorem unsubscribe_advances (h : d.Orderly) (key : SubscriptionKey) :
    Advances new d (d.unsubscribe key) := by
  have ht := d.unsubscribe_extends (fun _ => Action.IsReport.addId) key fun _ _ _ => rfl
  have hr := d.unsubscribe_registry key
  cases he : d.registry.entries.get? key with
  | none =>
    rw [he] at hr
    exact h.advances_of_eq hr ht
  | some entry =>
    simp only [he] at hr
    split_ifs at hr with hw
    · have hkey : d.registry.Unbound key := fun e he' => by
        rw [he] at he'
        cases he'
        simpa using hw
      refine h.advances (hr ▸ h.coherent.forget hkey) (by rw [hr]; rfl) ht fun k _ hk => ?_
      simp [hr, Registry.forget, hk]
    · refine h.advances (hr ▸ h.coherent.markRemoving key) (by rw [hr]; rfl) ht fun k _ hk => ?_
      by_cases hkk : k = key <;> simp_all [Registry.markRemoving]

theorem onCommand_advances (h : d.Orderly) (c : SessionCommand)
    (hfresh : ∀ key ∈ c.subscribed, d.registry.Unbound key) :
    Advances c.subscribed d (d.onCommand c).2 := by
  have hP : ∀ a : Action, a.IsReport → a.addId = none := fun _ => Action.IsReport.addId
  cases c with
  | subscribe key spec => exact subscribe_advances h (hfresh key List.mem_cons_self) spec
  | unsubscribe key => exact unsubscribe_advances h key
  | reconfigure key f =>
    exact h.advances_of_eq (d.reconfigure_registry key f)
      (d.reconfigure_extends hP key f fun _ _ _ => rfl)
  | sendMessage m =>
    exact h.advances_of_eq (d.sendMessage_registry m)
      (d.sendMessage_extends hP m (fun _ _ => rfl) fun _ _ _ => rfl)
  | forceRebind b =>
    exact h.advances_of_eq (d.forceRebind_registry b)
      (d.forceRebind_extends hP b fun _ _ _ => rfl)
  | destroy cause =>
    exact h.advances_of_eq (d.destroy_registry cause)
      (d.destroy_extends hP cause fun _ _ _ => rfl)
  | shutdown => exact h.refl

/-! ## Lines -/

theorem onRequestOk_advances (h : d.Orderly) (id : Option String) :
    Advances new d (d.onRequestOk id) := by
  have ht := d.onRequestOk_extends (fun _ => Action.IsReport.addId) id
  obtain hr | ⟨key, f, hr⟩ := d.onRequestOk_registry id
  · exact h.advances_of_eq hr ht
  · refine h.advances (hr ▸ h.coherent.commitFrequency key f) (by rw [hr]; rfl) ht fun k _ hk => ?_
    by_cases hkk : k = key <;> simp_all [Registry.commitFrequency]

theorem onRequestError_advances (h : d.Orderly) (id : String) (cause : ServerCause) :
    Advances new d (d.onRequestError id cause) := by
  have ht := d.onRequestError_extends (fun _ => Action.IsReport.addId) id cause
    fun _ _ _ _ => rfl
  obtain hr | ⟨key, ⟨-, hr⟩ | ⟨-, hr⟩⟩ := d.onRequestError_registry id cause
  · exact h.advances_of_eq hr ht
  · refine h.advances (hr ▸ h.coherent.drop key) (by rw [hr]; rfl) ht fun k _ hk => ?_
    simp [hr, Registry.drop, hk]
  · refine h.advances (hr ▸ h.coherent.keep key) (by rw [hr]; rfl) ht fun k _ hk => ?_
    by_cases hkk : k = key <;> simp_all [Registry.keep]

theorem onData_advances (h : d.Orderly) (n : Notification) : Advances new d (d.onData n) := by
  have ht := d.onData_extends (P := fun a => a.addId = none) n (fun _ => rfl)
    (fun _ _ _ _ _ => rfl) fun _ _ _ _ => rfl
  obtain hr | ⟨-, subId, key, manager, hres, hr⟩ := d.onData_registry n
  · exact h.advances_of_eq hr ht
  · have hid := (resolveSubscription_eq_some hres).2
    have hc : (registryAfter d.registry subId key manager n).Coherent := by
      unfold registryAfter
      split
      · exact (h.coherent.setManager key manager).activate key
      · exact (h.coherent.setManager key manager).activate key
      · exact h.coherent.remove hid
      · exact h.coherent.setManager key manager
    refine h.advances (hr ▸ hc) ?_ ht fun k _ hk => ?_
    · rw [hr]
      unfold registryAfter
      split <;> rfl
    · rw [hr]
      unfold registryAfter
      split <;> simp [Registry.setManager, Registry.activate, Registry.remove, hk]

/-- **A `CONOK`.** The numbering starts over exactly when a new session is reported. -/
theorem onConok_advances (h : d.Orderly) (sid : SessionId) (limit keepAlive : ℕ)
    (link : Option String) : Advances new d (d.onConok sid limit keepAlive link) := by
  have henter := d.enterSession_extends sid keepAlive link (d.conokKind sid)
    (fun _ => Action.IsReport.addId) fun _ _ _ _ _ => rfl
  have hr := d.enterSession_registry sid keepAlive link (d.conokKind sid)
  have hannounced : Advances new d (d.announced sid limit keepAlive link) := by
    by_cases hfresh : (d.conokKind sid).isFresh = true
    · have hbinds : ∀ b, Action.BindsFresh
          (.event (.bound ⟨sid, d.conokKind sid, keepAlive, limit, link⟩) b) := fun _ => hfresh
      rw [if_pos hfresh] at hr
      refine ⟨⟨?_, ?_⟩, ?_, fun k _ hk => ?_⟩
      · rw [announced, emit_toDesk, hr]
        exact .resetForNewSession _
      · exact (h.numbering.of_extends henter).fresh (hbinds _) _
      · obtain ⟨t, ht, -⟩ := henter
        exact ⟨t ++ [_], by rw [announced, emit, ht, List.append_assoc],
          .inr ⟨_, List.mem_append_right _ List.mem_cons_self, hbinds _⟩⟩
      · simp [announced, hr, Registry.resetForNewSession, hk]
    · rw [if_neg hfresh] at hr
      exact h.advances_of_eq hr (henter.trans (extends_emit _ fun _ => rfl))
  exact hannounced.trans (issueUnboundSubscriptions_advances hannounced.orderly)

theorem onNotification_advances (h : d.Orderly) (n : Notification) :
    Advances new d (d.onNotification n).2 := by
  have hP : ∀ a : Action, a.IsReport → a.addId = none := fun _ => Action.IsReport.addId
  induction n using onNotification_cases d with
  | conok sid limit millis link hn => exact hn ▸ onConok_advances h sid limit _ link
  | conerr code message hn => exact hn ▸ h.advances_of_eq (by simp) (by simp)
  | ended code message hn => exact hn ▸ h.advances_of_eq (by simp) (by simp)
  | loop millis hn => exact hn ▸ h.advances_of_eq (by simp) (by simp)
  | prog n hn => exact hn ▸ h.advances_of_eq (by simp) (onProg_extends _ hP n)
  | reqok id hn => exact hn ▸ onRequestOk_advances h id
  | reqerr id code message hn => exact hn ▸ onRequestError_advances h id _
  | quiet n _ hn => exact hn ▸ h.refl
  | report n e _ hn he => exact hn ▸ h.advances_of_eq rfl (extends_report _ hP he)
  | data n _ hn => exact hn ▸ onData_advances h n

theorem onLine_advances (h : d.Orderly) (text : String) : Advances new d (d.onLine text).2 := by
  have hheard : Advances new d d.heard := h.advances_of_eq rfl (.refl _ _)
  cases hn : parseLine text with
  | error e =>
    rw [onLine_of_error d hn]
    exact hheard.trans (hheard.orderly.advances_of_eq rfl
      (extends_report _ (fun _ => Action.IsReport.addId) trivial))
  | ok n =>
    rw [onLine_of_ok d hn]
    exact hheard.trans (onNotification_advances hheard.orderly n)

theorem onTimer_advances (h : d.Orderly) : Advances new d d.onTimer.2 :=
  h.advances_of_eq (by simp) (d.onTimer_extends fun _ _ _ => rfl)

end SessionDriver

/-! ## Runs -/

/-- The keys that a list of inputs subscribes to. -/
def subscribedKeys (inputs : List Input) : List SubscriptionKey :=
  inputs.flatMap fun i => match i.wake with
    | .command c => c.subscribed
    | _ => []

namespace Drive

open SessionDriver

variable {new : List SubscriptionKey} {d : SessionDriver} {s s' : Drive}

/-- **A turn.** It adds no entry but for the key that it subscribes to. -/
theorem step_advances {i : Input} (hd : s.driver.Orderly)
    (hfresh : ∀ key ∈ subscribedKeys [i], s.driver.registry.entries.get? key = none)
    (h : step s i = some s') : Advances (subscribedKeys [i]) s.driver s'.driver := by
  have hturn : Advances (subscribedKeys [i]) s.driver (s.driver.withTurn i.turn) :=
    hd.advances_of_eq rfl (.refl _ _)
  refine hturn.trans ?_
  refine step_desk (R := fun d d' => d.Orderly → Advances (subscribedKeys [i]) d d')
    (fun hR hR' hd => (hR hd).trans (hR' (hR hd).orderly))
    (fun hdesk ht hd => hd.advances_of_eq hdesk.registry (ht.mono fun _ => Action.IsLoop.addId))
    rfl (fun c hw hd => ?_) (fun text _ hd => onLine_advances hd text) onTimer_advances h
    hturn.orderly
  have hkeys : subscribedKeys [i] = c.subscribed := by simp [subscribedKeys, hw]
  rw [hkeys] at hfresh ⊢
  refine onCommand_advances hd c fun key hk entry he => ?_
  have hnone : s.driver.registry.entries.get? key = none := hfresh key hk
  rw [withTurn_toDesk, hnone] at he
  cases he

/-- **A run.** The keys it subscribes to are new to the registry, and all different. -/
theorem exec_advances {inputs : List Input} (hd : s.driver.Orderly)
    (hnodup : (subscribedKeys inputs).Nodup)
    (hfresh : ∀ key ∈ subscribedKeys inputs, s.driver.registry.entries.get? key = none)
    (h : exec step s inputs = some s') :
    Advances (subscribedKeys inputs) s.driver s'.driver := by
  induction inputs generalizing s with
  | nil =>
    cases h
    exact hd.refl
  | cons i inputs ih =>
    obtain ⟨m, hm, h⟩ := exec_cons_eq_some.1 h
    have hkeys : subscribedKeys (i :: inputs) = subscribedKeys [i] ++ subscribedKeys inputs := by
      simp [subscribedKeys]
    rw [hkeys, List.nodup_append] at hnodup
    rw [hkeys] at hfresh ⊢
    have hfirst := step_advances hd (fun key hk => hfresh key (List.mem_append_left _ hk)) hm
    refine (hfirst.mono (List.subset_append_left _ _)).trans ((ih hfirst.orderly hnodup.2.1
      (fun key hk => hfirst.keys key (fun hk' => hnodup.2.2 key hk' key hk rfl)
        (hfresh key (List.mem_append_right _ hk))) h).mono (List.subset_append_right _ _))

theorem start_orderly (properties : TransportProperties) (options : SessionOptions) (seed : UInt64)
    (now : ℕ) : (start properties options seed now).driver.Orderly :=
  ⟨.new, (Numbering.nil 1).of_extends ((reopen_extends _ (fun _ h => h) _).mono
    fun _ => Action.IsLoop.addId)⟩

/-- **Registry coherence.** In every run whose subscribe commands carry fresh keys, the two maps are
mutually inverse, the wire ids in use lie below the next one, and the ids of the `add` requests
increase within each session; between two moments of the run the next id goes back only when a new
session is reported in between. -/
theorem registry_coherence {properties : TransportProperties} {options : SessionOptions}
    {seed : UInt64} {now : ℕ} {inputs : List Input} {s : Drive}
    (hfresh : (subscribedKeys inputs).Nodup)
    (h : exec step (start properties options seed now) inputs = some s) :
    s.driver.registry.Coherent ∧ Numbering s.driver.trace s.driver.registry.nextSubId ∧
      ∀ earlier later m, inputs = earlier ++ later →
        exec step (start properties options seed now) earlier = some m →
        ∃ t, s.driver.trace = m.driver.trace ++ t ∧
          (m.driver.registry.nextSubId ≤ s.driver.registry.nextSubId ∨ ∃ a ∈ t, a.BindsFresh) := by
  have hstart := start_orderly properties options seed now
  have hrun := exec_advances hstart hfresh (fun _ _ => rfl) h
  refine ⟨hrun.orderly.coherent, hrun.orderly.numbering, ?_⟩
  rintro earlier later m rfl hm
  have hkeys : subscribedKeys (earlier ++ later) =
      subscribedKeys earlier ++ subscribedKeys later := by
    simp [subscribedKeys]
  rw [hkeys, List.nodup_append] at hfresh
  obtain ⟨m', hm', hlater⟩ := exec_append_eq_some.1 h
  obtain rfl : m' = m := Option.some.inj (hm'.symm.trans hm)
  have hfirst := exec_advances hstart hfresh.1 (fun _ _ => rfl) hm
  exact (exec_advances hfirst.orderly hfresh.2.1 (fun key hk =>
    hfirst.keys key (fun hk' => hfresh.2.2 key hk' key hk rfl) rfl) hlater).grows

/-- A subscription made while a session is bound. -/
def boundThenSubscribed : List Input :=
  [⟨.opened, {}⟩, ⟨.line "CONOK,S1,50000,5000,*", {}⟩,
    ⟨.command (.subscribe 7 (.new "items" "fields" .merge)), {}⟩]

theorem registry_coherence_boundThenSubscribed :
    ∃ s, exec step (start ⟨true, false, false⟩ .default 1 0) boundThenSubscribed = some s ∧
      s.driver.registry.Coherent ∧ s.driver.registry.bySubId.get? 1 = some 7 :=
  have h : exec step (start ⟨true, false, false⟩ .default 1 0) boundThenSubscribed = some _ := rfl
  ⟨_, h, (registry_coherence (by decide) h).1, by decide⟩

end Drive

end Lightstreamer.Session
