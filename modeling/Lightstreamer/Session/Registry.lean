import Lightstreamer.Foundations.OrdMap
import Lightstreamer.Session.Vocabulary
import Mathlib.Data.String.Basic

/-!
# Internal bookkeeping

The desired subscriptions and their mapping onto the wire ids of the current session (`Registry`),
the control requests that await a response (`Pending`), and the terms in which the driver plans its
next stream connection.
-/

namespace Lightstreamer.Session

open Lightstreamer.Foundations Lightstreamer.Protocol Lightstreamer.Subscription

/-! ## The registry -/

/-- The desired-state form of a frequency accepted by a `reconf`. -/
def asRequestedFrequency : MaxFrequencyLimit → RequestedMaxFrequency
  | .unlimited => .unlimited
  | .limited number => .limited number

/-- Where a subscription stands with the server. -/
inductive SubscriptionState
  | pending
  | active
  | removing
  deriving DecidableEq

/-- One desired subscription and its binding, if any, in the current session. -/
structure RegistryEntry where
  spec : SubscriptionSpec
  wire : Option NonZeroU32
  state : SubscriptionState
  wasActive : Bool
  manager : SubscriptionManager
  deriving DecidableEq

/-- The desired subscriptions, and the keys of the wire ids in use. -/
structure Registry where
  entries : OrdMap SubscriptionKey RegistryEntry
  bySubId : OrdMap ℕ SubscriptionKey
  nextSubId : ℕ
  deriving DecidableEq

/-- The entry of a subscription that has just been asked for. -/
def RegistryEntry.new (spec : SubscriptionSpec) : RegistryEntry :=
  ⟨spec, none, .pending, false, spec.newManager⟩

/-- The entry as a new session starts with it. -/
def RegistryEntry.reset (entry : RegistryEntry) : RegistryEntry :=
  { entry with wire := none, state := .pending, manager := entry.spec.newManager }

namespace Registry

def new : Registry := ⟨.empty, .empty, 1⟩

/-- Drop every binding, and every entry that was being removed. -/
def resetForNewSession (r : Registry) : Registry where
  entries := (r.entries.filter fun _ entry => entry.state ≠ .removing).mapVal fun _ entry =>
    entry.reset
  bySubId := .empty
  nextSubId := 1

/-- Allocate the next wire id. -/
def allocate (r : Registry) : Option (NonZeroU32 × Registry) := do
  let id ← NonZeroU32.new? r.nextSubId
  let next ← checkedAdd u32Max r.nextSubId 1
  return (id, { r with nextSubId := next })

/-- Put `key` under the wire id `id`. -/
def bind (r : Registry) (key : SubscriptionKey) (id : NonZeroU32) : Registry :=
  { r with
    entries := r.entries.modify key fun entry => { entry with wire := some id, state := .pending }
    bySubId := r.bySubId.insert id.val key }

/-- Release the binding of `key` to `id`. -/
def release (r : Registry) (key : SubscriptionKey) (id : NonZeroU32) : Registry :=
  { r with
    entries := r.entries.modify key fun entry => { entry with wire := none }
    bySubId := r.bySubId.erase id.val }

/-- Want a subscription that has no binding yet. -/
def want (r : Registry) (key : SubscriptionKey) (spec : SubscriptionSpec) : Registry :=
  { r with entries := r.entries.insert key (.new spec) }

/-- Forget a subscription that has no binding. -/
def forget (r : Registry) (key : SubscriptionKey) : Registry :=
  { r with entries := r.entries.erase key }

/-- Note that the removal of a subscription was asked for. -/
def markRemoving (r : Registry) (key : SubscriptionKey) : Registry :=
  { r with entries := r.entries.modify key fun entry => { entry with state := .removing } }

/-- Commit a frequency that the server accepted to the desired state. -/
def commitFrequency (r : Registry) (key : SubscriptionKey) (maxFrequency : MaxFrequencyLimit) :
    Registry :=
  { r with entries := r.entries.modify key fun entry =>
      { entry with spec := { entry.spec with
          requestedMaxFrequency := some (asRequestedFrequency maxFrequency) } } }

/-- Drop a subscription that the server refused. -/
def drop (r : Registry) (key : SubscriptionKey) : Registry :=
  { r with
    entries := r.entries.erase key
    bySubId := match (r.entries.get? key).bind RegistryEntry.wire with
      | some subId => r.bySubId.erase subId.val
      | none => r.bySubId }

/-- Keep a subscription whose removal was refused. -/
def keep (r : Registry) (key : SubscriptionKey) : Registry :=
  { r with entries := r.entries.modify key fun entry =>
      { entry with state := if entry.wasActive then .active else .pending } }

/-- Store what the manager of a subscription became. -/
def setManager (r : Registry) (key : SubscriptionKey) (manager : SubscriptionManager) : Registry :=
  { r with entries := r.entries.modify key fun entry => { entry with manager := manager } }

/-- Note that the server confirmed a subscription. -/
def activate (r : Registry) (key : SubscriptionKey) : Registry :=
  { r with entries := r.entries.modify key fun entry =>
      { entry with state := .active, wasActive := true } }

/-- Remove a subscription that the server ended. -/
def remove (r : Registry) (key : SubscriptionKey) (subId : ℕ) : Registry :=
  { r with entries := r.entries.erase key, bySubId := r.bySubId.erase subId }

/-- The keys with no binding that are not being removed. -/
def unboundKeys (r : Registry) : List SubscriptionKey :=
  (r.entries.filter fun _ entry => entry.wire.isNone && entry.state ≠ .removing).keys

/-- What allocating a wire id does. -/
theorem allocate_eq_some {r r' : Registry} {id : NonZeroU32} (h : r.allocate = some (id, r')) :
    id.val = r.nextSubId ∧ r' = { r with nextSubId := r.nextSubId + 1 } := by
  simp only [allocate, Option.bind_eq_bind, Option.bind_eq_some_iff, Option.pure_def,
    Option.some.injEq, Prod.mk.injEq] at h
  obtain ⟨i, hi, next, hn, rfl, rfl⟩ := h
  unfold NonZeroU32.new? at hi
  unfold checkedAdd at hn
  split at hi
  · cases hi
    split at hn
    · cases hn
      exact ⟨rfl, rfl⟩
    · cases hn
  · cases hi

theorem mem_unboundKeys {r : Registry} {key : SubscriptionKey} :
    key ∈ r.unboundKeys ↔
      ∃ entry, r.entries.get? key = some entry ∧ entry.wire = none ∧ entry.state ≠ .removing := by
  simp [unboundKeys, OrdMap.mem_keys_iff, Option.filter_eq_some_iff]

end Registry

/-! ## Pending requests -/

/-- What a control request was for. -/
inductive PendingKind
  | subscribe (key : SubscriptionKey)
  | unsubscribe (key : SubscriptionKey)
  | reconfigure (key : SubscriptionKey) (maxFrequency : MaxFrequencyLimit)
  | sendMessage (sequence : MessageSequence) (prog : Option ℕ)
  | forceRebind
  | destroy
  deriving DecidableEq

/-- What the request acts on. -/
def PendingKind.target : PendingKind → ControlTarget
  | subscribe key => .subscription key .subscribe
  | unsubscribe key => .subscription key .unsubscribe
  | reconfigure key _ => .subscription key .reconfigure
  | sendMessage .. | forceRebind | destroy => .session

/-- A control request that awaits its response, and the session generation that issued it. -/
structure Pending where
  kind : PendingKind
  generation : ℕ
  deriving DecidableEq

/-! ## Plans -/

/-- Which kind of stream-opening request is in flight. -/
inductive OpenIntent
  | create
  | rebind
  | recover (requested : ℕ)
  deriving DecidableEq

/-- The two moments of the bound state: before and after `CONOK`. -/
inductive StreamState
  | establishing
  | bound
  deriving DecidableEq

/-- What to open next, and after how long. -/
structure Reopen where
  intent : OpenIntent
  delay : ℕ
  deriving DecidableEq

/-- What the line pump decided. -/
inductive Flow
  | continue
  | unbind (reason : UnbindReason)
  | closed (closed : SessionClosed)
  deriving DecidableEq

/-! ## The surroundings of the driver -/

/-- What the driver did, in order: the events it emitted (and whether the caller's channel took
them), the requests it handed to the transport (with what they were for and how the transport
answered), and the data notifications it counted and passed on (with their position). -/
inductive Action
  | event (event : SessionEvent) (delivered : Bool)
  | openStream (request : StreamOpen)
  | control (request : ControlRequest) (kind : Option PendingKind) (parameters : String)
      (error : Option String)
  | close
  | setControlLink (host : Option String)
  | data (position : ℕ) (notification : Notification)
  deriving DecidableEq

/-- What the surroundings answer in one turn: the readings of the clock, the errors of the control
sends (`none` when the transport took the request), whether an ordered stop interrupts an emission,
and the order in which the pending table yields its entries. A list that runs out answers `0`, no
error, no interruption and the order of the ids. -/
structure Turn where
  clock : List ℕ := []
  sends : List (Option String) := []
  interrupts : List Bool := []
  drain : List ℕ := []
  deriving DecidableEq

end Lightstreamer.Session
