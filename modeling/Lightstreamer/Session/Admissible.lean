import Lightstreamer.Session.Reconfiguration

/-!
# Specs that can be sent

A spec is `Admissible` when its options fit its mode. These are the specs whose `add` has an
encoding, under every id, in every session and on every transport (`issuable_iff`). A ceiling that
is granted keeps a spec admissible unless the mode is `RAW` and the ceiling a number
(`Admissible.granted_iff`): the encoder of a `reconf` does not know the mode, and nothing else
checks it before the ceiling is committed.
-/

namespace Lightstreamer.Protocol

open Foundations

/-- The options of a subscription that fit its mode. -/
@[mk_iff]
structure OptionsFit (mode : SubscriptionMode) (snapshot : Option Snapshot)
    (frequency : Option RequestedMaxFrequency) (buffer : Option RequestedBufferSize) : Prop where
  distinct : ∀ n, snapshot = some (.length n) → mode = .distinct
  stateful : snapshot = some .on → mode ≠ .raw
  filtered : mode = .raw → frequency = none ∨ frequency = some .unlimited
  buffered : buffer ≠ none → (mode = .merge ∨ mode = .distinct) ∧ frequency ≠ some .unfiltered

namespace Subscribe

/-- The options fit the mode. -/
abbrev Admissible (r : Subscribe) : Prop :=
  OptionsFit r.mode r.snapshot r.requestedMaxFrequency r.requestedBufferSize

/-- The encoder refuses what is not admissible, and nothing else. -/
theorem validate_eq_ok_iff {r : Subscribe} : r.validate = .ok () ↔ r.Admissible := by
  obtain ⟨_, _, _, _, _, mode, _, _, buffer, frequency, snapshot, _⟩ := r
  rw [Admissible, optionsFit_iff]
  unfold validate
  -- one case for each snapshot, mode, ceiling and buffer size that may be asked for
  rcases snapshot with - | - | - | - <;> cases mode <;> rcases frequency with - | - | - | - <;>
    cases buffer <;>
      simp [SubscriptionMode.isFiltered, throw, throwThe, MonadExceptOf.throw, pure, Except.pure,
        bind, Except.bind]

/-- In a session, the checks are all that stands between an `add` and its encoding. -/
theorem exists_encode_iff {r : Subscribe} (hsession : r.session ≠ none)
    (transport : TransportKind) :
    (∃ parameters, r.encodeParameters transport = .ok parameters) ↔ r.Admissible := by
  obtain ⟨session, hsession⟩ := Option.ne_none_iff_exists'.mp hsession
  rw [← validate_eq_ok_iff]
  unfold encodeParameters
  cases hv : r.validate with
  | error e => simp [bind, Except.bind]
  | ok =>
    rw [hsession]
    exact ⟨fun _ => rfl, fun _ => ⟨_, rfl⟩⟩

end Subscribe

end Lightstreamer.Protocol

namespace Lightstreamer.Session

open Lightstreamer.Foundations Lightstreamer.Protocol Lightstreamer.Subscription
open SessionDriver

/-- The options of the spec fit its mode. -/
abbrev SubscriptionSpec.Admissible (spec : SubscriptionSpec) : Prop :=
  OptionsFit spec.mode spec.snapshot spec.requestedMaxFrequency spec.requestedBufferSize

/-- The `add` of the spec passes its checks and has an encoding, whatever the session, the ids and
the transport. -/
def SubscriptionSpec.Issuable (spec : SubscriptionSpec) : Prop :=
  ∀ session requestId subId transport,
    (subscribeRequest session requestId subId spec).validate = .ok () ∧
      ∃ parameters, (ControlRequest.subscribe
        (subscribeRequest session requestId subId spec)).encodeParameters transport = .ok parameters

namespace SubscriptionSpec

variable {spec : SubscriptionSpec}

/-- **An admissible spec can be sent**, and no other. -/
theorem issuable_iff : spec.Issuable ↔ spec.Admissible := by
  constructor
  · intro h
    obtain ⟨hvalidate, -⟩ := h "" (.fromProgressive 1) ⟨1, by decide, by decide⟩ .http
    exact Subscribe.validate_eq_ok_iff.mp hvalidate
  · intro h session requestId subId transport
    have hrequest : (subscribeRequest session requestId subId spec).Admissible := h
    exact ⟨Subscribe.validate_eq_ok_iff.mpr hrequest,
      (Subscribe.exists_encode_iff (Option.some_ne_none session) transport).mpr hrequest⟩

/-- A ceiling that is granted leaves a spec admissible, unless it is a number and the mode is
`RAW`. -/
theorem Admissible.granted_iff (h : spec.Admissible) (g : FrequencyRequest) :
    (spec.granted (some g)).Admissible ↔ (spec.mode = .raw → g.maxFrequency = .unlimited) := by
  have hfrequency : (spec.granted (some g)).requestedMaxFrequency =
      some (asRequestedFrequency g.maxFrequency) := rfl
  constructor
  · intro hgranted hraw
    rcases hgranted.filtered hraw with hf | hf
    · rw [hfrequency] at hf
      cases hf
    · exact asRequestedFrequency_injective (Option.some.inj hf)
  · intro hraw
    refine ⟨h.distinct, h.stateful, fun hmode => .inr ?_,
      fun hbuffer => ⟨(h.buffered hbuffer).1, ?_⟩⟩
    · rw [hfrequency, hraw hmode]
      rfl
    · rw [hfrequency]
      cases g.maxFrequency <;> simp [asRequestedFrequency]

end SubscriptionSpec

namespace Drive

variable {s s' t : Drive} {i : Input}

/-- Every spec that is held is admissible. -/
def SpecsAdmissible (s : Drive) : Prop :=
  ∀ key entry, s.driver.registry.entries.get? key = some entry → entry.spec.Admissible

/-- What is subscribed is admissible. -/
def Subscribes (i : Input) : Prop :=
  ∀ key spec, i.wake = .command (.subscribe key spec) → spec.Admissible

/-- A ceiling that is granted to a subscription in `RAW` mode is no number. -/
def Spares (s : Drive) (i : Input) : Prop :=
  ∀ g, i.notification.bind s.driver.grants = some g →
    ∀ entry, s.driver.registry.entries.get? g.key = some entry →
      entry.spec.mode = .raw → g.maxFrequency = .unlimited

instance (s : Drive) (i : Input) : Decidable (Spares s i) :=
  decidable_of_iff ((i.notification.bind s.driver.grants).all fun g =>
    (s.driver.registry.entries.get? g.key).all fun entry =>
      entry.spec.mode ≠ .raw ∨ g.maxFrequency = .unlimited)
    (by simp [Spares, Option.all_eq_true, imp_iff_not_or])

/-- **A turn keeps the specs admissible**, when it subscribes one that is and spares those in `RAW`
mode. -/
theorem step_specsAdmissible (h : SpecsAdmissible s) (hsubscribes : Subscribes i)
    (hspares : Spares s i) (hstep : step s i = some s') : SpecsAdmissible s' := by
  intro key entry' he
  obtain ⟨e, he, hspec⟩ := (step_follows hstep).retains key entry' he
  rw [hspec]
  by_cases hsubscribe : ∃ spec, i.wake = .command (.subscribe key spec)
  · obtain ⟨spec, hw⟩ := hsubscribe
    simp only [specified, hw, Registry.want, OrdMap.get?_insert, if_true] at he
    cases he
    exact hsubscribes key spec hw
  · obtain ⟨entry, hentry, hgrant⟩ := specified_get? (fun spec hw => hsubscribe ⟨spec, hw⟩) he
    have hadmissible := h key entry hentry
    rw [hgrant]
    cases hg : committed key s i with
    | none => exact hadmissible
    | some g =>
      obtain ⟨hbind, hkey⟩ := Option.filter_eq_some_iff.mp hg
      rw [← of_decide_eq_true hkey] at hentry
      exact (hadmissible.granted_iff g).mpr (hspares g hbind entry hentry)

/-- **Along a run** the specs stay admissible. -/
theorem exec_specsAdmissible {inputs : List Input} (h : SpecsAdmissible s)
    (hguard : Guarded step (fun s i => Subscribes i ∧ Spares s i) s inputs)
    (hrun : exec step s inputs = some t) : SpecsAdmissible t :=
  exec_invariant (fun _ _ _ hs hi hstep => step_specsAdmissible hs hi.1 hi.2 hstep) h hguard hrun

theorem start_specsAdmissible (properties : TransportProperties) (options : SessionOptions)
    (seed : UInt64) (now : ℕ) : SpecsAdmissible (start properties options seed now) := by
  intro key entry he
  rw [start, reopen_toDesk] at he
  cases he

end Drive

end Lightstreamer.Session
