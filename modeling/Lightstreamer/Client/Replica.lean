import Lightstreamer.Client.Following
import Lightstreamer.Subscription.Replica

/-!
# A table from a stream

A caller reads the stream of a subscription and keeps a table (`tableOf`): an activation blanks it,
and an update writes the fields that it changed, and no other. `RowsHold` is what that is for: every
row is all of the last update of its item. It holds over any run of the client, with sessions that
are recovered or replaced and lines that are refused (`Tasks.rows_hold`), because the table is the
one of the item states (`rowsHold_follows`).
-/

namespace Lightstreamer.Client

open Lightstreamer.Foundations Lightstreamer.Protocol Lightstreamer.Subscription
open Lightstreamer.Session hiding SessionEvent

/-! ## The table of a caller -/

/-- What a caller does with an event of its stream. -/
def listen (t : Table) : SubscriptionEvent → Table
  | .fromWire event => t.hear event
  | _ => t

/-- The table after some events. -/
def tableOf (events : List SubscriptionEvent) : Table := events.foldl listen .blank

/-- The event does not write the row of an item. -/
def leavesRow (itemIndex : ℕ) : SubscriptionEvent → Bool
  | .fromWire (.activated ..) => false
  | .fromWire (.update update) => update.itemIndex ≠ itemIndex
  | _ => true

/-- However many of the events were read, the row of an item is all of its last update since the
subscription was activated. -/
def RowsHold (events : List SubscriptionEvent) : Prop :=
  ∀ before update after, before ++ .fromWire (.update update) :: after <+: events →
    (∀ event ∈ after, leavesRow update.itemIndex event = true) →
    ∀ f ∈ update.fields,
      tableOf (before ++ .fromWire (.update update) :: after) update.itemIndex f.position = f.value

variable {events events' : List SubscriptionEvent} {event : SubscriptionEvent}

theorem tableOf_concat : tableOf (events ++ [event]) = listen (tableOf events) event := by
  rw [tableOf, List.foldl_append]
  rfl

theorem listen_of_leavesRow {t : Table} {itemIndex : ℕ} (h : leavesRow itemIndex event = true)
    (i : ℕ) : listen t event itemIndex (i + 1) = t itemIndex (i + 1) := by
  cases event with
  | fromWire event =>
    cases event with
    | activated => cases h
    | update update =>
      exact t.write_of_ne update (fun hi => by simp [leavesRow, hi] at h) i
    | _ => rfl
  | _ => rfl

namespace RowsHold

theorem nil : RowsHold [] := fun before update after h => by
  obtain ⟨rest, h⟩ := h
  simp at h

theorem of_initial (h : RowsHold events) (hinitial : events' <+: events) : RowsHold events' :=
  fun before update after h' => h before update after (h'.trans hinitial)

/-- An event more: an update among them has to give its row. -/
theorem concat (h : RowsHold events) (hevent : ∀ update, event = .fromWire (.update update) →
    ∀ i, listen (tableOf events) event update.itemIndex (i + 1) =
      (Subscription.Field.mk update i).value) :
    RowsHold (events ++ [event]) := by
  intro before update after hinitial hafter f hf
  rcases List.prefix_concat_iff.1 hinitial with heq | hinitial
  · obtain ⟨i, -, rfl⟩ := List.mem_map.1 hf
    rcases List.eq_nil_or_concat after with rfl | ⟨after, last, rfl⟩
    · obtain ⟨rfl, hlast⟩ := List.append_inj' heq rfl
      obtain rfl := List.head_eq_of_cons_eq hlast
      rw [tableOf_concat]
      exact hevent update rfl i
    · rw [List.concat_eq_append, ← List.cons_append, ← List.append_assoc] at heq
      obtain ⟨rfl, hlast⟩ := List.append_inj' heq rfl
      obtain rfl := List.head_eq_of_cons_eq hlast
      rw [List.concat_eq_append] at hafter
      rw [List.concat_eq_append, ← List.cons_append, ← List.append_assoc, tableOf_concat]
      refine (listen_of_leavesRow (hafter last (by simp)) i).trans ?_
      exact h before update after (List.prefix_refl _)
        (fun event hevent => hafter event (by simp [hevent])) _ hf
  · exact h before update after hinitial hafter f hf

end RowsHold

/-- The rows hold because the table is the one of the item states. -/
theorem rowsHold_follows :
    Follows RowsHold fun events m => Mirrors (tableOf events) m where
  start := .nil
  fresh hpending := .of_not_active fun active hactive => by cases hpending.symm.trans hactive
  aside := by
    intro events event hevent h
    have hlisten : ∀ t, listen t event = t := fun t => by
      cases event with
      | fromWire => cases hevent
      | _ => rfl
    refine ⟨h.concat fun update hupdate => ?_, fun hm => ?_⟩
    · subst hupdate
      cases hevent
    · rwa [tableOf_concat, hlisten]
  accepted := by
    intro events m m' event h hm haccepted
    refine ⟨h.concat fun update hupdate i => ?_, ?_⟩
    · cases hupdate
      exact hm.row_of_accepted haccepted i
    · rw [tableOf_concat]
      exact hm.of_accepted haccepted
  ofInitial hinitial h := h.of_initial hinitial

namespace Tasks

variable {key : SubscriptionKey} {w : Tasks} {properties : TransportProperties}
  {options : SessionOptions} {seed : UInt64} {now capacity : ℕ} {moves : List Move}

/-- **Writing the changed fields is enough.** In every run of a client, whatever its sessions go
through, a caller that keeps a table from a stream by the changed fields alone has, in the row of an
item, every field of the last update of that item since the subscription was activated. -/
theorem rows_hold (hrun : exec step (start properties options seed now capacity) moves = some w)
    {c : Channel SubscriptionEvent} (hstream : w.router.streams.get? key = some c) :
    RowsHold c.events :=
  stream_follows rowsHold_follows hrun hstream

/-- Two items and two fields. The server sends both rows, then a diff of one field, a line that is
refused and an update that leaves a field as it is; the session is replaced, and all starts over. -/
def updated : List Move :=
  connects ++ asking ++ [.turn ⟨.line "SUBOK,1,2,2", {}⟩,
    .turn ⟨.line "U,1,1,a|b", {}⟩, .turn ⟨.line "U,1,2,c|#", {}⟩, .turn ⟨.line "U,1,1,|^Tbbz", {}⟩,
    .turn ⟨.line "U,1,1,x", {}⟩, .turn ⟨.line "U,1,2,|$", {}⟩, .turn ⟨.line "END,48,expired", {}⟩,
    .turn ⟨.opened, {}⟩, .turn ⟨.line "CONOK,S2,50000,5000,*", {}⟩,
    .turn ⟨.line "SUBOK,1,2,2", {}⟩, .turn ⟨.line "U,1,2,e|f", {}⟩] ++
    List.replicate 12 (.route false)

theorem rows_hold_updated :
    ∃ w c, exec step (start ⟨true, false, false⟩ .default 1 0 8) updated = some w ∧
      w.router.streams.get? 1 = some c ∧ RowsHold c.events := by
  have hsome : ((exec step (start ⟨true, false, false⟩ .default 1 0 8) updated).bind fun w =>
      w.router.streams.get? 1).isSome = true := by decide +kernel
  obtain ⟨c, hc⟩ := Option.isSome_iff_exists.1 hsome
  obtain ⟨w, hrun, hstream⟩ := Option.bind_eq_some_iff.1 hc
  exact ⟨w, c, hrun, hstream, rows_hold hrun hstream⟩

end Tasks

end Lightstreamer.Client
