import Lightstreamer.Client.Naming
import Lightstreamer.Session.Admissible

/-!
# What to subscribe to, and how

A `Subscription` of the caller is checked by `validate` and translated by `intoSpec` into what the
session subscribes with. The check and the one of the encoder agree (`validate_eq_ok_iff`), so that
what was subscribed can be sent. It can be sent again in every later session, unless the server
accepted a frequency for a subscription in `RAW` mode in between (`reissuable`).
-/

namespace Lightstreamer.Client

open Lightstreamer.Foundations Lightstreamer.Protocol
open Lightstreamer.Session

/-! ## The options of a subscription -/

/-- How the server treats the items of a subscription. -/
inductive SubscriptionMode
  | raw
  | merge
  | distinct
  | command
  deriving DecidableEq

namespace SubscriptionMode

/-- The mode as the protocol spells it. -/
def asStr : SubscriptionMode → String
  | raw => "RAW"
  | merge => "MERGE"
  | distinct => "DISTINCT"
  | command => "COMMAND"

def toWire : SubscriptionMode → Protocol.SubscriptionMode
  | raw => .raw
  | merge => .merge
  | distinct => .distinct
  | command => .command

end SubscriptionMode

/-- Whether the server should send the current state before the live flow. -/
inductive Snapshot
  | off
  | on
  | length (n : NonZeroU32)
  deriving DecidableEq

namespace Snapshot

def isRequested (snapshot : Snapshot) : Bool := !(snapshot matches off)

def toWire : Snapshot → Protocol.Snapshot
  | off => .off
  | on => .on
  | length n => .length n

end Snapshot

/-- A decimal frequency, in updates per second. -/
structure FrequencyLimit where
  number : DecimalNumber
  deriving DecidableEq

/-- A ceiling on how often the server may send updates for an item. -/
inductive MaxFrequency
  | unlimited
  | unfiltered
  | limited (limit : FrequencyLimit)
  deriving DecidableEq

namespace MaxFrequency

/-- A ceiling in updates per second, written as a decimal number. -/
def tryLimited (updatesPerSecond : String) : Except ConfigError MaxFrequency :=
  match DecimalNumber.tryNew updatesPerSecond with
  | .ok number => .ok (.limited ⟨number⟩)
  | .error _ => .error (.invalidFrequency updatesPerSecond)

def toWire : MaxFrequency → RequestedMaxFrequency
  | unlimited => .unlimited
  | unfiltered => .unfiltered
  | limited limit => .limited limit.number

end MaxFrequency

/-- How much the server may buffer for each item. -/
inductive BufferSize
  | serverDecides
  | unlimited
  | events (n : NonZeroU32)
  deriving DecidableEq

/-- The parameter, or `none` to leave it out. -/
def BufferSize.toWire : BufferSize → Option RequestedBufferSize
  | serverDecides => none
  | unlimited => some .unlimited
  | events n => some (.events n)

/-! ## Subscriptions -/

/-- A request to subscribe to a set of items. -/
structure Subscription where
  mode : SubscriptionMode
  items : ItemGroup
  fields : FieldSchema
  dataAdapter : Option String
  selector : Option String
  snapshot : Snapshot
  maxFrequency : MaxFrequency
  bufferSize : BufferSize
  deriving DecidableEq

namespace Subscription

/-- A subscription to a set of items, for a set of fields, in a mode. -/
def new (mode : SubscriptionMode) (items : ItemGroup) (fields : FieldSchema) : Subscription :=
  ⟨mode, items, fields, none, none, .off, .unlimited, .serverDecides⟩

/-- Check that the mode admits every option. -/
def validate (s : Subscription) : Except ConfigError Unit := do
  let filtered := !(s.mode matches .raw)
  if (s.snapshot matches .length _) ∧ s.mode ≠ .distinct then
    throw (.snapshotLengthNeedsDistinct s.mode.asStr)
  if s.snapshot.isRequested ∧ ¬filtered then
    throw .snapshotNeedsAStatefulMode
  if s.maxFrequency ≠ .unlimited ∧ ¬filtered then
    throw .frequencyNeedsAFilteredMode
  if s.bufferSize ≠ .serverDecides then
    if ¬(s.mode matches .merge | .distinct) then
      throw (.bufferSizeNeedsMergeOrDistinct s.mode.asStr)
    if s.maxFrequency = .unfiltered then
      throw .bufferSizeWithUnfilteredFrequency

/-- Translate into what the session subscribes with. What the server does by default is left out. -/
def intoSpec (s : Subscription) : SubscriptionSpec where
  group := s.items.text
  schema := s.fields.text
  mode := s.mode.toWire
  dataAdapter := s.dataAdapter
  selector := s.selector
  requestedBufferSize := s.bufferSize.toWire
  requestedMaxFrequency := match s.maxFrequency with
    | .unlimited => none
    | other => some other.toWire
  snapshot := match s.snapshot with
    | .off => none
    | other => some other.toWire
  declaredItems := s.items.names
  declaredFields := s.fields.names

/-- **The two checks agree.** The caller's check passes the subscriptions whose spec the encoder
takes, and no other. -/
theorem validate_eq_ok_iff {s : Subscription} : s.validate = .ok () ↔ s.intoSpec.Admissible := by
  obtain ⟨mode, _, _, _, _, snapshot, frequency, buffer⟩ := s
  rw [SubscriptionSpec.Admissible, optionsFit_iff]
  unfold validate
  -- one case for each mode, snapshot, ceiling and buffer size that may be asked for
  cases mode <;> cases snapshot <;> cases frequency <;> cases buffer <;>
    simp [intoSpec, Snapshot.isRequested, SubscriptionMode.toWire, Snapshot.toWire,
      MaxFrequency.toWire, BufferSize.toWire, throw, throwThe, MonadExceptOf.throw, pure,
      Except.pure, bind, Except.bind]

theorem issuable_of_validate {s : Subscription} (h : s.validate = .ok ()) : s.intoSpec.Issuable :=
  SubscriptionSpec.issuable_iff.mpr (validate_eq_ok_iff.mp h)

end Subscription

/-! ## Runs -/

open Drive

/-- What is subscribed passed the caller's check. -/
def Validated (i : Input) : Prop :=
  ∀ key spec, i.wake = .command (.subscribe key spec) →
    ∃ s : Subscription, s.validate = .ok () ∧ spec = s.intoSpec

theorem Validated.subscribes {i : Input} (h : Validated i) : Subscribes i := by
  intro key spec hw
  obtain ⟨s, hs, rfl⟩ := h key spec hw
  exact Subscription.validate_eq_ok_iff.mp hs

/-- **A subscription can be issued again.** What passed the caller's check can be sent on every
transport. Along every run in which no number is granted as the ceiling of a subscription in `RAW`
mode, every subscription that is held can be sent in the next session as well. -/
theorem reissuable (properties : TransportProperties) (options : SessionOptions) :
    (∀ s : Subscription, s.validate = .ok () → s.intoSpec.Issuable) ∧
    ∀ seed now inputs t,
      Guarded step (fun s i => Validated i ∧ Spares s i) (start properties options seed now)
        inputs →
      exec step (start properties options seed now) inputs = some t →
      ∀ key entry, t.driver.registry.entries.get? key = some entry → entry.spec.Issuable := by
  refine ⟨fun s => Subscription.issuable_of_validate, fun seed now inputs t hguard hrun => ?_⟩
  have hadmissible := exec_specsAdmissible (start_specsAdmissible properties options seed now)
    (hguard.mono fun _ _ h => ⟨h.1.subscribes, h.2⟩) hrun
  exact fun key entry he => SubscriptionSpec.issuable_iff.mpr (hadmissible key entry he)

/-- A subscription in the given mode, with the defaults. -/
def plain (mode : SubscriptionMode) : Subscription :=
  .new mode ⟨⟨"items", true, rfl, rfl, fun _ => rfl⟩⟩ ⟨⟨"fields", true, rfl, rfl, fun _ => rfl⟩⟩

/-- The server grants a ceiling to the subscription of the caller. -/
def ceiling (mode : SubscriptionMode) : List Input :=
  [⟨.opened, {}⟩, binding "S1", ⟨.command (.subscribe 7 (plain mode).intoSpec), {}⟩,
    ⟨.line "REQOK,1", {}⟩, ⟨.line "SUBOK,1,1,1", {}⟩,
    ⟨.command (.reconfigure 7 (.limited twoPerSecond)), {}⟩, ⟨.line "REQOK,2", {}⟩]

theorem reissuable_merge :
    ∃ t entry, exec step (start ⟨true, false, false⟩ .default 1 0) (ceiling .merge) = some t ∧
      t.driver.registry.entries.get? 7 = some entry ∧
      entry.spec.requestedMaxFrequency = some (.limited twoPerSecond) ∧ entry.spec.Issuable := by
  obtain ⟨t, entry, hrun, hentry, hfrequency⟩ : ∃ t entry,
      exec step (start ⟨true, false, false⟩ .default 1 0) (ceiling .merge) = some t ∧
      t.driver.registry.entries.get? 7 = some entry ∧
      entry.spec.requestedMaxFrequency = some (.limited twoPerSecond) :=
    ⟨_, _, rfl, rfl, rfl⟩
  have hvalidated : ∀ i ∈ ceiling .merge, Validated i := by
    simp only [ceiling, List.forall_mem_cons, Validated, binding]
    refine ⟨by simp, by simp, fun key spec hw => ?_, by simp⟩
    cases hw
    exact ⟨plain .merge, by decide, rfl⟩
  have hspares :
      Guarded step Spares (start ⟨true, false, false⟩ .default 1 0) (ceiling .merge) := by
    decide +kernel
  have hguard := (guarded_of_forall_mem hvalidated).and hspares
  exact ⟨t, entry, hrun, hentry, hfrequency,
    (reissuable ⟨true, false, false⟩ .default).2 1 0 _ t hguard hrun 7 entry hentry⟩

/-- **A ceiling loses a subscription.** A subscription in `RAW` mode is granted a ceiling, its spec
can no longer be sent, and the next session is bound without it. -/
theorem ceiling_loses_raw :
    (plain .raw).validate = .ok () ∧
    ∃ s entry t entry',
      exec step (start ⟨true, false, false⟩ .default 1 0) (ceiling .raw) = some s ∧
      s.driver.registry.entries.get? 7 = some entry ∧ ¬entry.spec.Issuable ∧
      exec step s [⟨.line "END,48,expired", {}⟩, ⟨.opened, {}⟩, binding "S2"] = some t ∧
      t.driver.streamState = .bound ∧
      t.driver.registry.entries.get? 7 = some entry' ∧ entry'.wire = none ∧
      .event (.controlResponse (some (.fromProgressive 3)) (.subscription 7 .subscribe) (.notSent <|
        "cannot encode `control` request: LS_requested_max_frequency is ignored by the server " ++
          "with LS_mode=RAW; omit it or choose another mode")) true ∈ t.driver.trace := by
  refine ⟨by decide, _, _, _, _, rfl, rfl, ?_, rfl, rfl, rfl, rfl, by decide +kernel⟩
  rw [SubscriptionSpec.issuable_iff]
  intro h
  rcases h.filtered rfl with hf | hf <;> cases hf

end Lightstreamer.Client
