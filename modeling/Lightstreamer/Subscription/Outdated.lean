import Lightstreamer.Subscription.InPlace
import Lightstreamer.Subscription.Classification
import Mathlib.Data.Finset.Filter
import Mathlib.Data.Finset.Lattice.Basic
import Mathlib.Data.Finset.Range
import Mathlib.Logic.Relation

/-!
# Fields that a refused line carried

Decoding is field by field: an accepted list gives each field what its own token makes of its own
old value (`apply_fieldwise`), and a token that is not behind a caret does not look at it. Hence two
states that are given one list agree afterwards on the fields they agreed on, and on those that were
sent in full.

A server that does not know of a refusal goes on against the values it sent last. `Ends` is what the
two ends of a subscription hold then, with the fields of each item that a refused line carried and
that no line has brought in full since. `Trails` says that the manager follows the server but for
these, and `outdated_until_full` what is shown of them.
-/

namespace Lightstreamer.Subscription

open Lightstreamer.Protocol

/-! ## One field -/

/-- A token that gives its field a value whatever the field held: a content, `#` or `$`. -/
def isFull : List Char → Bool
  | [] => false
  | '^' :: _ => false
  | _ => true

/-- What the diff with a marker makes of a field. -/
def slotDiffed (marker : Char) (payload : List Char) (old : Option FieldSlot) : Option FieldSlot :=
  match decoderFor marker, percentDecode (String.ofList payload), old with
  | some decoder, .ok payload, some (.value base _) =>
    (decoder.apply base payload).toOption.map (.value · decoder.resultForm)
  | _, _, _ => none

/-- The value that a token gives to its field, given what the field holds. -/
def slotGiven (old : Option FieldSlot) : List Char → Option FieldSlot
  | [] => none
  | ['#'] => some .null
  | ['$'] => some (.asSent "")
  | '^' :: [] => none
  | '^' :: marker :: rest => if marker.isDigit then none else slotDiffed marker rest old
  | token => (percentDecode (String.ofList token)).toOption.map .asSent

/-- The token that accounts for a field, of those for the fields from `position` on. -/
def tokenFor (position : ℕ) : List (List Char) → ℕ → List Char
  | [], _ => []
  | token :: tokens, i =>
    if i < position + tokenSpan token then token
    else tokenFor (position + tokenSpan token) tokens i

variable {state : ItemState} {s s' : Staging}

/-- What is sent in full does not depend on what was there. -/
theorem slotGiven_of_isFull {token : List Char} (h : isFull token = true)
    (old old' : Option FieldSlot) : slotGiven old token = slotGiven old' token := by
  unfold slotGiven
  split <;> first | rfl | cases h

/-- A diff token gives its field what the diff makes of it. -/
theorem applyDiff_eq_ok {marker : Char} {payload : List Char}
    (h : state.applyDiff s marker payload = .ok s') :
    ∃ slot, slotDiffed marker payload state.fields[s.pointer]? = some slot ∧ s' = s.stage slot := by
  unfold ItemState.applyDiff at h
  obtain ⟨decoded, hdecoded, h⟩ := bind_eq_ok.1 h
  split at h
  · cases h
  · rename_i decoder hdecoder
    dsimp only at h
    split at h
    · rename_i held form hold
      obtain ⟨base, hbase, h⟩ := bind_eq_ok.1 h
      obtain ⟨text, htext, h⟩ := bind_eq_ok.1 h
      cases h
      -- the base is the text of the field, or the diff is refused
      obtain rfl : held = base := by
        unfold ItemState.diffableBase at hbase
        split at hbase
        · exact Except.ok.inj hbase
        · split_ifs at hbase
          exact Except.ok.inj hbase
      refine ⟨.value text decoder.resultForm, ?_, rfl⟩
      simp only [slotDiffed, hdecoder, hdecoded, hold, htext]
      rfl
    all_goals
      obtain ⟨base, hbase, -⟩ := bind_eq_ok.1 h
      cases hbase

/-- A `^N` token leaves the fields it accounts for. -/
theorem applyRun_eq_ok {rest : List Char} (h : state.applyRun s rest = .ok s') :
    s' = { s with pointer := s.pointer + digitsValue 0 rest } := by
  have hpointer := (applyRun_reads h).pointer
  unfold ItemState.applyRun at h
  obtain ⟨count, -, h⟩ := bind_eq_ok.1 h
  split at h
  · cases h
  · split at h
    · cases h
    · split at h
      · cases h
      · cases h
        rw [← hpointer]

/-- A token gives its field a value and moves on, or leaves the fields it accounts for. -/
theorem applyToken_eq_ok {token : List Char} (h : state.applyToken s token = .ok s') :
    (∃ slot, slotGiven state.fields[s.pointer]? token = some slot ∧ tokenSpan token = 1 ∧
      s' = s.stage slot) ∨
    (isFull token = false ∧ (∀ old, slotGiven old token = none) ∧
      s' = { s with pointer := s.pointer + tokenSpan token }) := by
  unfold ItemState.applyToken at h
  split at h
  · cases h
  · split at h
    · split_ifs at h
      cases h
      exact .inr ⟨rfl, fun old => rfl, rfl⟩
    · cases h
      exact .inl ⟨.null, rfl, rfl, rfl⟩
    · cases h
      exact .inl ⟨.asSent "", rfl, rfl, rfl⟩
    · cases h
    · rename_i marker rest
      rw [tokenSpan]
      simp only [slotGiven]
      split at h
      · rename_i hdigit
        rw [if_pos hdigit, if_pos hdigit]
        exact .inr ⟨rfl, fun old => if_pos hdigit, applyRun_eq_ok h⟩
      · rename_i hdigit
        rw [if_neg hdigit, if_neg hdigit]
        split_ifs at h
        obtain ⟨slot, hslot, hstage⟩ := applyDiff_eq_ok h
        exact .inl ⟨slot, hslot, rfl, hstage⟩
    · rename_i hnil hhash hdollar hbare hcaret
      obtain ⟨decoded, hdecoded, h⟩ := bind_eq_ok.1 h
      cases h
      refine .inl ⟨.asSent decoded, ?_, ?_, rfl⟩
      · unfold slotGiven
        split
        · exact absurd rfl hnil
        · exact absurd rfl hhash
        · exact absurd rfl hdollar
        · exact absurd rfl hbare
        · exact absurd rfl (hcaret _ _)
        · rw [hdecoded]
          rfl
      · unfold tokenSpan
        split
        · exact absurd rfl (hcaret _ _)
        · rfl

/-- What was staged between two points of the reading is what `given` says of the fields between
them. -/
structure Fills (given : ℕ → Option FieldSlot) (s s' : Staging) : Prop where
  le : s.pointer ≤ s'.pointer
  grows : ∃ staged, s'.staged = s.staged ++ staged ∧ s'.changed = s.changed ++ staged.map Prod.fst ∧
    ∀ i slot, (i, slot) ∈ staged ↔ s.pointer ≤ i ∧ i < s'.pointer ∧ given i = some slot

namespace Fills

variable {given given' : ℕ → Option FieldSlot} {s'' : Staging}

theorem refl (given : ℕ → Option FieldSlot) (s : Staging) : Fills given s s where
  le := le_rfl
  grows := by
    refine ⟨[], by simp, by simp, fun i slot => ⟨fun h => absurd h List.not_mem_nil, fun h => ?_⟩⟩
    omega

theorem trans (h : Fills given s s') (h' : Fills given s' s'') : Fills given s s'' := by
  obtain ⟨hle, staged, hstaged, hchanged, hmem⟩ := h
  obtain ⟨hle', staged', hstaged', hchanged', hmem'⟩ := h'
  refine ⟨hle.trans hle', staged ++ staged', by simp [hstaged', hstaged],
    by simp [hchanged', hchanged], fun i slot => ?_⟩
  rw [List.mem_append, hmem, hmem']
  constructor
  · rintro (⟨hi, hlt, hslot⟩ | ⟨hi, hlt, hslot⟩)
    · exact ⟨hi, by omega, hslot⟩
    · exact ⟨by omega, hlt, hslot⟩
  · rintro ⟨hi, hlt, hslot⟩
    by_cases hmid : i < s'.pointer
    · exact .inl ⟨hi, hmid, hslot⟩
    · exact .inr ⟨by omega, hlt, hslot⟩

/-- Only what is said of the fields between the two points counts. -/
theorem congr (h : Fills given s s')
    (hgiven : ∀ i, s.pointer ≤ i → i < s'.pointer → given i = given' i) : Fills given' s s' := by
  obtain ⟨hle, staged, hstaged, hchanged, hmem⟩ := h
  refine ⟨hle, staged, hstaged, hchanged, fun i slot => ?_⟩
  rw [hmem]
  refine and_congr_right fun hi => and_congr_right fun hlt => ?_
  rw [hgiven i hi hlt]

/-- One field gets a value. -/
theorem stage {slot : FieldSlot} (h : given s.pointer = some slot) :
    Fills given s (s.stage slot) where
  le := Nat.le_succ s.pointer
  grows := by
    refine ⟨[(s.pointer, slot)], rfl, rfl, fun i slot' => ?_⟩
    rw [List.mem_singleton, Prod.mk.injEq]
    constructor
    · rintro ⟨rfl, rfl⟩
      exact ⟨le_rfl, Nat.lt_succ_self _, h⟩
    · rintro ⟨hle, hlt, hslot⟩
      obtain rfl : i = s.pointer := Nat.le_antisymm (Nat.le_of_lt_succ hlt) hle
      exact ⟨rfl, Option.some.inj (hslot.symm.trans h)⟩

/-- Fields are left as they are. -/
theorem skip {span : ℕ}
    (h : ∀ i, s.pointer ≤ i → i < s.pointer + span → given i = none) :
    Fills given s { s with pointer := s.pointer + span } where
  le := Nat.le_add_right s.pointer span
  grows := by
    refine ⟨[], by simp, by simp, fun i slot => ⟨fun hi => absurd hi List.not_mem_nil, ?_⟩⟩
    rintro ⟨hle, hlt, hslot⟩
    rw [h i hle hlt] at hslot
    cases hslot

end Fills

/-- The tokens stage, for each field that they account for, the value that its token gives. -/
theorem foldlM_fills {tokens : List (List Char)} (h : tokens.foldlM state.applyToken s = .ok s') :
    Fills (fun i => slotGiven state.fields[i]? (tokenFor s.pointer tokens i)) s s' := by
  induction tokens generalizing s with
  | nil =>
    cases h
    exact .refl _ _
  | cons token tokens ih =>
    rw [List.foldlM_cons] at h
    obtain ⟨s₁, hfirst, hrest⟩ := bind_eq_ok.1 h
    have hpointer := (applyToken_reads hfirst).pointer
    refine Fills.trans ?_ ((ih hrest).congr fun i hle _ => ?_)
    · rcases applyToken_eq_ok hfirst with ⟨slot, hgiven, hspan, rfl⟩ | ⟨-, hnone, rfl⟩
      · refine .stage ?_
        rw [tokenFor, hspan, if_pos (Nat.lt_succ_self _), hgiven]
      · refine .skip fun i _ hlt => ?_
        rw [tokenFor, if_pos hlt, hnone]
    · rw [tokenFor, if_neg (by omega), hpointer]

/-- A field that is sent in full gets a value. -/
theorem isSome_slotGiven_of_isFull {tokens : List (List Char)}
    (h : tokens.foldlM state.applyToken s = .ok s') {i : ℕ} (hle : s.pointer ≤ i)
    (hlt : i < s'.pointer) (hfull : isFull (tokenFor s.pointer tokens i) = true) :
    (slotGiven state.fields[i]? (tokenFor s.pointer tokens i)).isSome := by
  induction tokens generalizing s with
  | nil =>
    cases h
    omega
  | cons token tokens ih =>
    rw [List.foldlM_cons] at h
    obtain ⟨s₁, hfirst, hrest⟩ := bind_eq_ok.1 h
    have hpointer := (applyToken_reads hfirst).pointer
    rw [tokenFor] at hfull ⊢
    by_cases hi : i < s.pointer + tokenSpan token
    · rw [if_pos hi] at hfull ⊢
      rcases applyToken_eq_ok hfirst with ⟨slot, hgiven, hspan, -⟩ | ⟨hcaret, -⟩
      · obtain rfl : i = s.pointer := by omega
        rw [hgiven]
        rfl
      · rw [hcaret] at hfull
        cases hfull
    · rw [if_neg hi] at hfull ⊢
      rw [← hpointer] at hfull ⊢
      exact ih hrest (by omega) hfull

/-- **Decoding is field by field.** An accepted list gives each field what its own token makes of
its own old value, or leaves it as it was; it reports the fields that were given one, among them all
that were sent in full. -/
theorem apply_fieldwise {raw : String} {state' : ItemState} {outcome : UpdateOutcome}
    (h : state.apply raw = .ok (state', outcome)) {i : ℕ} (hi : i < state.fields.length) :
    let token := tokenFor 0 (raw.toList.splitOn '|') i
    let slot := slotGiven state.fields[i]? token
    state'.fields[i]? = slot.or state.fields[i]? ∧ (i ∈ outcome.changed ↔ slot.isSome) ∧
      (isFull token = true → slot.isSome) := by
  intro token slot
  unfold ItemState.apply at h
  obtain ⟨s, hread, h⟩ := bind_eq_ok.1 h
  obtain ⟨-, staged, hstaged, hchanged, hmem⟩ := foldlM_fills hread
  rw [List.nil_append] at hstaged hchanged
  split at h
  · cases h
  rename_i hshort
  cases h
  rw [hstaged, hchanged]
  have hlt : i < s.pointer := by
    rw [ItemState.fieldCount] at hshort
    omega
  have hstands : ∀ x, (i, x) ∈ staged ↔ slot = some x := by
    intro x
    rw [hmem]
    exact ⟨fun h => h.2.2, fun h => ⟨Nat.zero_le i, hlt, h⟩⟩
  by_cases hin : i ∈ staged.map Prod.fst
  · obtain ⟨⟨j, x⟩, hx, rfl, hwritten⟩ := commit_of_mem state hin hi
    rw [hwritten, (hstands x).1 hx]
    exact ⟨rfl, ⟨fun _ => rfl, fun _ => hin⟩, fun _ => rfl⟩
  · have hnone : slot = none := by
      refine Option.eq_none_iff_forall_ne_some.mpr fun x hx => ?_
      exact hin (List.mem_map.mpr ⟨(i, x), (hstands x).2 hx, rfl⟩)
    refine ⟨?_, ?_, isSome_slotGiven_of_isFull hread (Nat.zero_le i) hlt⟩
    · rw [commit_of_notMem state hin, hnone]
      rfl
    · rw [hnone]
      exact ⟨fun h => absurd h hin, fun h => by cases h⟩

/-- A token is a diff that makes `text` of `base`. -/
def Diffs (token : List Char) (base text : String) : Prop :=
  ∃ decoder ∈ diffDecoders, ∃ rest payload, token = '^' :: decoder.tag :: rest ∧
    percentDecode (String.ofList rest) = .ok payload ∧ decoder.apply base payload = .ok text

/-- A token behind a caret that gives a value is a diff of what was there. -/
theorem exists_diffs_of_slotGiven {token : List Char} {old : Option FieldSlot} {slot : FieldSlot}
    (hcaret : isFull token = false) (h : slotGiven old token = some slot) :
    ∃ base text form form', old = some (.value base form) ∧ Diffs token base text ∧
      slot = .value text form' := by
  unfold slotGiven at h
  split at h
  · cases h
  · cases hcaret
  · cases hcaret
  · cases h
  · rename_i marker rest
    split_ifs at h
    unfold slotDiffed at h
    split at h
    · rename_i decoder payload base form hdecoder hpayload
      obtain ⟨text, htext, rfl⟩ := Option.map_eq_some_iff.mp h
      obtain rfl : decoder.tag = marker := by simpa using List.find?_some hdecoder
      refine ⟨base, text, form, decoder.resultForm, rfl, ⟨decoder,
        List.mem_of_find?_eq_some hdecoder, rest, payload, rfl, hpayload, ?_⟩, rfl⟩
      cases happly : decoder.apply base payload with
      | error e =>
        rw [happly] at htext
        cases htext
      | ok t =>
        rw [happly] at htext
        cases htext
        rfl
    · cases h
  · rename_i hnil hhash hdollar hbare hmarker
    unfold isFull at hcaret
    split at hcaret
    · exact absurd rfl hnil
    · rename_i tail
      cases tail with
      | nil => exact absurd rfl hbare
      | cons marker rest => exact absurd rfl (hmarker marker rest)
    · cases hcaret

/-! ## The two ends -/

/-- The server moves an item to new values by a line that is to carry some of the fields: what was
sent last for the others stays. -/
def Carries (olds : List (Option (Option String))) (news : List (Option String))
    (carried : Finset ℕ) : Prop :=
  news.length = olds.length ∧ ∀ i < news.length, i ∉ carried → olds[i]? = (news.map some)[i]?

/-- What the two ends of a subscription hold: the manager of the client, the values that the server
sent last, and of each item the fields that are outdated. -/
structure Ends where
  manager : SubscriptionManager
  held : Option Held
  outdated : ℕ → Finset ℕ

namespace Ends

/-- What is held after a notification that makes the server hold `held`. -/
def next (ends : Ends) (n : Notification) (held : Option Held) (outdated : ℕ → Finset ℕ) : Ends :=
  ⟨(ends.manager.handle n).2, held, outdated⟩

/-- One notification of a server that encodes each line against what it sent last, whether or not
the manager accepts it. The fields that a refused line was to carry are outdated from then on, until
an accepted line brings them in full or the subscription is announced anew. -/
inductive Step : Ends → Notification → Ends → Prop
  | subscriptionOk {ends : Ends} {id itemCount fieldCount : ℕ} (hpos : 0 < fieldCount)
      (hmax : fieldCount ≤ usizeMax) :
      Step ends (.subscriptionOk id itemCount fieldCount)
        (ends.next (.subscriptionOk id itemCount fieldCount)
          (some (.activated itemCount fieldCount)) fun _ => ∅)
  | subscriptionCommandOk {ends : Ends} {id itemCount fieldCount key command : ℕ}
      (hmax : fieldCount ≤ usizeMax) (hkey : 0 < key ∧ key ≤ fieldCount)
      (hcommand : 0 < command ∧ command ≤ fieldCount) :
      Step ends (.subscriptionCommandOk id itemCount fieldCount key command)
        (ends.next (.subscriptionCommandOk id itemCount fieldCount key command)
          (some (.activated itemCount fieldCount)) fun _ => ∅)
  | accepted {ends : Ends} {held : Held} {id index : ℕ} {item : Option (List (Option String))}
      {news : List (Option String)} {tokens : List (List Char)} {changed : List ℕ}
      {update : ItemUpdate} (hheld : ends.held = some held) (hitem : held.items[index]? = some item)
      (hencodes : Encodes 0 (held.lastSent item) news tokens changed)
      (haccepted : (ends.manager.handle (.update id (index + 1) (valueList tokens))).1 =
        some (.ok (.update update))) :
      Step ends (.update id (index + 1) (valueList tokens))
        (ends.next (.update id (index + 1) (valueList tokens)) (some (held.record index news))
          (Function.update ends.outdated index
            ((ends.outdated index).filter fun i => isFull (tokenFor 0 tokens i) = false)))
  | refused {ends : Ends} {held : Held} {id index : ℕ} {item : Option (List (Option String))}
      {news : List (Option String)} {carried : Finset ℕ} {raw : String} {e : SubscriptionError}
      (hheld : ends.held = some held) (hitem : held.items[index]? = some item)
      (hcarries : Carries (held.lastSent item) news carried)
      (hrefused : (ends.manager.handle (.update id (index + 1) raw)).1 = some (.error e)) :
      Step ends (.update id (index + 1) raw)
        (ends.next (.update id (index + 1) raw) (some (held.record index news))
          (Function.update ends.outdated index (ends.outdated index ∪ carried)))
  | aside {ends : Ends} {n : Notification} (hn : isAside n = true) :
      Step ends n (ends.next n ends.held ends.outdated)
  | unsubscribed {ends : Ends} {id : ℕ} :
      Step ends (.unsubscribed id) (ends.next (.unsubscribed id) none ends.outdated)

/-- What the two ends may come to hold, from a manager that the server has sent nothing to. -/
def Reachable (m : SubscriptionManager) : Ends → Prop :=
  Relation.ReflTransGen (fun ends ends' => ∃ n, ends.Step n ends') ⟨m, none, fun _ => ∅⟩

end Ends

/-! ## The manager follows, but for what is outdated -/

/-- The state of an item is that of the values sent last, but for the outdated fields. -/
structure AgreesBut (outdated : Finset ℕ) (state : ItemState)
    (olds : List (Option (Option String))) : Prop where
  length : state.fields.length = olds.length
  slots : ∀ i ∉ outdated, state.fields[i]? = (olds.map slotOf)[i]?

/-- An accepted line keeps the agreement, and extends it to the fields that it brings in full. -/
theorem AgreesBut.apply {outdated : Finset ℕ} {state' : ItemState} {outcome : UpdateOutcome}
    {olds : List (Option (Option String))} {news : List (Option String)} {tokens : List (List Char)}
    {changed : List ℕ} (h : AgreesBut outdated state olds)
    (hencodes : Encodes 0 olds news tokens changed) (hne : news ≠ [])
    (hmax : news.length ≤ usizeMax)
    (happly : state.apply (valueList tokens) = .ok (state', outcome)) :
    AgreesBut (outdated.filter fun i => isFull (tokenFor 0 tokens i) = false) state'
      (news.map some) := by
  have hlength := (applies_of_apply happly).length
  have hsent : (news.map some).map slotOf = news.map sentSlot := by
    rw [List.map_map]
    rfl
  -- the same list, given to an item that agrees on every field
  have hmirror := apply_of_encodes hencodes hne hmax
  refine ⟨by rw [hlength, h.length, List.length_map, hencodes.length_eq], fun i hi => ?_⟩
  rw [hsent]
  by_cases hlt : i < state.fields.length
  · obtain ⟨hfield, -, hfull⟩ := apply_fieldwise happly hlt
    obtain ⟨hfield', -, -⟩ :=
      apply_fieldwise hmirror (i := i) (by rwa [List.length_map, ← h.length])
    rw [hencodes.splitOn_valueList hne] at hfield hfield' hfull
    rw [hfield, hfield']
    by_cases hout : i ∈ outdated
    · have htoken : isFull (tokenFor 0 tokens i) = true := by
        simpa [Finset.mem_filter, hout] using hi
      obtain ⟨slot, hslot⟩ := Option.isSome_iff_exists.mp (hfull htoken)
      rw [slotGiven_of_isFull htoken (olds.map slotOf)[i]? state.fields[i]?, hslot]
      rfl
    · rw [h.slots i hout]
  · have hnews : news.length ≤ i := by
      rw [← hencodes.length_eq, ← h.length]
      exact Nat.le_of_not_lt hlt
    rw [List.getElem?_eq_none (by omega), List.getElem?_eq_none (by rwa [List.length_map])]

/-- A refused line leaves the agreement on the fields that it was not to carry. -/
theorem AgreesBut.refuse {outdated carried : Finset ℕ} {olds : List (Option (Option String))}
    {news : List (Option String)} (h : AgreesBut outdated state olds)
    (hcarries : Carries olds news carried) :
    AgreesBut (outdated ∪ carried) state (news.map some) := by
  obtain ⟨hlength, hkept⟩ := hcarries
  refine ⟨by rw [h.length, List.length_map, hlength], fun i hi => ?_⟩
  rw [Finset.mem_union, not_or] at hi
  rw [h.slots i hi.1]
  by_cases hlt : i < news.length
  · rw [List.getElem?_map, List.getElem?_map, hkept i hlt hi.2]
  · rw [List.getElem?_eq_none (by rw [List.length_map]; omega),
      List.getElem?_eq_none (by rw [List.length_map, List.length_map]; omega)]

namespace SubscriptionManager

variable {m : SubscriptionManager}

/-- The states of the items, once the subscription is activated. -/
def itemStates (m : SubscriptionManager) : List ItemState :=
  match m.activation with
  | .active active => active.items.map ItemTracker.state
  | _ => []

/-- The value that an item holds for a field. -/
def fieldOf (m : SubscriptionManager) (index position : ℕ) : Option String :=
  (m.itemStates[index]?.bind (·.field position)).join

theorem itemStates_of_active {active : Active} (h : m.activation = .active active) :
    m.itemStates = active.items.map ItemTracker.state := by
  rw [itemStates, h]

/-- What says nothing about field values leaves them. -/
theorem itemStates_of_isAside {n : Notification} (hn : isAside n = true) (m : SubscriptionManager) :
    (m.handle n).2.itemStates = m.itemStates := by
  cases n with
  | endOfSnapshot id itemIndex =>
    rcases m.handle_endOfSnapshot id itemIndex with h | ⟨index, -, h⟩
    · rw [h]
    · rw [h, markEndOfSnapshot]
      split
      · rename_i active hactive
        rw [itemStates_of_active rfl, itemStates_of_active hactive]
        refine List.ext_getElem? fun i => ?_
        rw [List.getElem?_map, List.getElem?_map, List.getElem?_modify]
        cases active.items[i]? with
        | none => rfl
        | some tracker => by_cases hi : index = i <;> simp [hi]
      · rfl
  | clearSnapshot => rfl
  | overflow => rfl
  | subscriptionReconfigured =>
    rw [handle]
    split <;> rfl
  | _ => cases hn

/-- An accepted update was decoded against the state of its item, and shows the one it leaves. -/
theorem decoded_of_accepted {id itemIndex : ℕ} {raw : String} {update : ItemUpdate}
    (h : (m.handle (.update id itemIndex raw)).1 = some (.ok (.update update))) :
    ∃ state state', m.itemStates[update.item]? = some state ∧ update.item + 1 = itemIndex ∧
      state.apply raw = .ok (state', ⟨update.changed⟩) ∧
      (m.handle (.update id itemIndex raw)).2.itemStates = m.itemStates.set update.item state' ∧
      update.values = (List.range state'.fieldCount).map fun i => (state'.field i).join := by
  rw [handle] at h ⊢
  rcases m.applyUpdate_cases itemIndex raw with
    ⟨e, he⟩ | ⟨active, index, tracker, state, outcome, hactive, hindex, htracker, happly, he⟩
  · rw [he] at h
    cases h
  · rw [he] at h ⊢
    cases h
    refine ⟨tracker.state, state, ?_, hindex, happly, ?_, rfl⟩
    · rw [itemStates_of_active hactive, List.getElem?_map, htracker]
      rfl
    · rw [itemStates_of_active hactive]
      exact List.map_set

/-- A field that is not sent in full is shown as it was, or as what a diff makes of that. -/
theorem shown_of_not_isFull {id itemIndex : ℕ} {raw : String} {update : ItemUpdate}
    (h : (m.handle (.update id itemIndex raw)).1 = some (.ok (.update update))) {i : ℕ}
    (hi : i < update.values.length)
    (hcaret : isFull (tokenFor 0 (raw.toList.splitOn '|') i) = false) :
    (i ∉ update.changed → update.values[i]? = some (m.fieldOf update.item i)) ∧
    (i ∈ update.changed → ∃ base text, m.fieldOf update.item i = some base ∧
      Diffs (tokenFor 0 (raw.toList.splitOn '|') i) base text ∧
      update.values[i]? = some (some text)) := by
  obtain ⟨state, state', hstate, -, happly, -, hvalues⟩ := decoded_of_accepted h
  rw [hvalues, List.length_map, List.length_range] at hi
  have hlt : i < state.fields.length := (applies_of_apply happly).length ▸ hi
  have hshown : update.values[i]? = some (state'.field i).join := by
    rw [hvalues, List.getElem?_map, List.getElem?_range hi]
    rfl
  have hbefore : m.fieldOf update.item i = (state.field i).join := by
    rw [fieldOf, hstate]
    rfl
  obtain ⟨hfield, hchanged, -⟩ := apply_fieldwise happly hlt
  rw [hshown, hbefore, ItemState.field, ItemState.field, hfield]
  refine ⟨fun hi => ?_, fun hi => ?_⟩
  · rw [Option.not_isSome_iff_eq_none.mp fun hslot => hi (hchanged.mpr hslot)]
    rfl
  · obtain ⟨slot, hslot⟩ := Option.isSome_iff_exists.mp (hchanged.mp hi)
    obtain ⟨base, text, form, form', hold, hdiffs, rfl⟩ := exists_diffs_of_slotGiven hcaret hslot
    refine ⟨base, text, ?_, hdiffs, ?_⟩
    · rw [hold]
      rfl
    · rw [hslot]
      rfl

/-- A field on which the item agrees with the server is shown as the server sent it last. -/
theorem shown_of_agreesBut {id itemIndex : ℕ} {raw : String} {update : ItemUpdate}
    (h : (m.handle (.update id itemIndex raw)).1 = some (.ok (.update update)))
    {outdated : Finset ℕ} {news : List (Option String)}
    (hagrees : ∀ {state}, (m.handle (.update id itemIndex raw)).2.itemStates[update.item]? =
      some state → AgreesBut outdated state (news.map some)) :
    update.values.length = news.length ∧ ∀ i ∉ outdated, update.values[i]? = news[i]? := by
  obtain ⟨state, state', hstate, -, -, hstates, hvalues⟩ := decoded_of_accepted h
  obtain ⟨hindex, -⟩ := List.getElem?_eq_some_iff.mp hstate
  obtain ⟨hlength, hslots⟩ := hagrees (by rw [hstates, List.getElem?_set_self hindex])
  rw [List.length_map] at hlength
  refine ⟨by rw [hvalues, List.length_map, List.length_range, ← hlength]; rfl, fun i hi => ?_⟩
  rw [hvalues, List.getElem?_map]
  by_cases hlt : i < news.length
  · rw [List.getElem?_range (by rwa [ItemState.fieldCount, hlength]), Option.map_some,
      ItemState.field, hslots i hi, List.getElem?_map, List.getElem?_map,
      List.getElem?_eq_getElem hlt]
    cases news[i] <;> rfl
  · rw [List.getElem?_eq_none (by rw [List.length_range, ItemState.fieldCount]; omega),
      List.getElem?_eq_none (Nat.le_of_not_lt hlt)]
    rfl

end SubscriptionManager

/-- The items of a manager are in the state of the values sent last, but for the outdated fields. -/
structure Trails (held : Held) (outdated : ℕ → Finset ℕ) (m : SubscriptionManager) : Prop where
  pos : 0 < held.fieldCount
  max : held.fieldCount ≤ usizeMax
  length_eq : ∀ values, some values ∈ held.items → values.length = held.fieldCount
  length : m.itemStates.length = held.items.length
  states : ∀ {index item state}, held.items[index]? = some item →
    m.itemStates[index]? = some state → AgreesBut (outdated index) state (held.lastSent item)

/-- A manager in step with the server has nothing outdated. -/
theorem Synced.trails {held : Held} {m : SubscriptionManager} {active : Active}
    (h : Synced held m active) : Trails held (fun _ => ∅) m := by
  have hstates : m.itemStates = held.items.map fun item => ⟨(held.lastSent item).map slotOf⟩ :=
    (SubscriptionManager.itemStates_of_active h.activation).trans h.states
  refine ⟨h.pos, h.max, h.length_eq, by rw [hstates, List.length_map], fun hitem hstate => ?_⟩
  rw [hstates, List.getElem?_map, hitem] at hstate
  cases hstate
  exact ⟨List.length_map _, fun i _ => rfl⟩

namespace Trails

variable {held : Held} {outdated : ℕ → Finset ℕ} {m m' : SubscriptionManager}

theorem length_lastSent (h : Trails held outdated m) {index : ℕ}
    {item : Option (List (Option String))} (hitem : held.items[index]? = some item) :
    (held.lastSent item).length = held.fieldCount :=
  Subscription.length_lastSent fun values hvalues =>
    h.length_eq values (hvalues ▸ List.mem_of_getElem? hitem)

/-- The server sends new values for an item, and the manager has a state that agrees with them. -/
theorem record (h : Trails held outdated m) {index : ℕ} {item : Option (List (Option String))}
    {news : List (Option String)} {state : ItemState} {out : Finset ℕ}
    (hitem : held.items[index]? = some item) (hlength : news.length = (held.lastSent item).length)
    (hm' : m'.itemStates = m.itemStates.set index state)
    (hagrees : AgreesBut out state (news.map some)) :
    Trails (held.record index news) (Function.update outdated index out) m' where
  pos := h.pos
  max := h.max
  length_eq := by
    intro values hmem
    rcases List.mem_or_eq_of_mem_set hmem with hmem | heq
    · exact h.length_eq values hmem
    · cases heq
      rw [hlength, h.length_lastSent hitem]
      rfl
  length := by
    rw [hm', List.length_set, h.length, Held.record, List.length_set]
  states := by
    intro i item' state' hitem' hstate'
    rw [hm', List.getElem?_set] at hstate'
    rw [Held.record, List.getElem?_set] at hitem'
    by_cases hi : index = i
    · subst hi
      rw [if_pos rfl] at hitem' hstate'
      split_ifs at hitem' hstate'
      cases hitem'
      cases hstate'
      rw [Function.update_self]
      exact hagrees
    · rw [if_neg hi] at hitem' hstate'
      rw [Function.update_of_ne (Ne.symm hi)]
      have hstate := h.states hitem' hstate'
      cases item' with
      | none => exact hstate
      | some values => exact hstate

end Trails

namespace Ends

variable {m : SubscriptionManager} {ends ends' : Ends} {n : Notification}

/-- A notification, accepted or refused, leaves the manager behind by no more than what is
outdated. -/
theorem step_trails (h : ∀ held ∈ ends.held, Trails held ends.outdated ends.manager)
    (hstep : ends.Step n ends') :
    ∀ held ∈ ends'.held, Trails held ends'.outdated ends'.manager := by
  cases hstep with
  | @subscriptionOk id itemCount fieldCount hpos hmax =>
    rintro held ⟨⟩
    obtain ⟨-, active, hsynced⟩ :=
      @activate_of_valid ends.manager itemCount fieldCount none hpos hmax nofun
    exact hsynced.trails
  | @subscriptionCommandOk id itemCount fieldCount key command hmax hkey hcommand =>
    rintro held ⟨⟩
    obtain ⟨-, active, hsynced⟩ := activate_of_valid ends.manager itemCount (by omega) hmax
      (valid_commandFields hkey hcommand)
    exact hsynced.trails
  | @accepted held id index item news tokens changed update hheld hitem hencodes haccepted =>
    rintro held' ⟨⟩
    have htrails := h held hheld
    have hlength := hencodes.length_eq
    have hlast := htrails.length_lastSent hitem
    have hpos := htrails.pos
    have hmax := htrails.max
    obtain ⟨state, state', hstate, hindex, happly, hstates, -⟩ :=
      SubscriptionManager.decoded_of_accepted haccepted
    obtain rfl : update.item = index := Nat.succ.inj hindex
    exact htrails.record hitem hlength.symm hstates ((htrails.states hitem hstate).apply hencodes
      (List.ne_nil_of_length_pos (by omega)) (by omega) happly)
  | @refused held id index item news carried raw e hheld hitem hcarries hrefused =>
    rintro held' ⟨⟩
    have htrails := h held hheld
    obtain ⟨hlt, -⟩ := List.getElem?_eq_some_iff.mp hitem
    rw [← htrails.length] at hlt
    have hstate := List.getElem?_eq_getElem hlt
    have hstates : (ends.manager.handle (.update id (index + 1) raw)).2.itemStates =
        ends.manager.itemStates.set index ends.manager.itemStates[index] := by
      rw [SubscriptionManager.handle_eq_of_error hrefused, List.set_getElem_self]
    exact htrails.record hitem hcarries.1 hstates ((htrails.states hitem hstate).refuse hcarries)
  | aside hn =>
    intro held hheld
    have htrails := h held hheld
    have hstates := SubscriptionManager.itemStates_of_isAside hn ends.manager
    exact ⟨htrails.pos, htrails.max, htrails.length_eq, hstates.symm ▸ htrails.length,
      fun hitem hstate => htrails.states hitem (hstates ▸ hstate)⟩
  | unsubscribed => exact nofun

theorem Reachable.trails (h : Reachable m ends) :
    ∀ held ∈ ends.held, Trails held ends.outdated ends.manager := by
  induction h with
  | refl => exact nofun
  | tail _ hstep ih =>
    obtain ⟨n, hstep⟩ := hstep
    exact step_trails ih hstep

theorem step_manager (hstep : ends.Step n ends') : ends'.manager = (ends.manager.handle n).2 := by
  cases hstep <;> rfl

/-- An update is published for a line that the server encoded against what it sent last. -/
theorem exists_line_of_step {update : ItemUpdate} (hstep : ends.Step n ends')
    (h : (ends.manager.handle n).1 = some (.ok (.update update))) :
    ∃ held item id news tokens changed, ends.held = some held ∧
      held.items[update.item]? = some item ∧ Encodes 0 (held.lastSent item) news tokens changed ∧
      n = .update id (update.item + 1) (valueList tokens) ∧
      ends'.held = some (held.record update.item news) ∧ ends'.outdated update.item =
        (ends.outdated update.item).filter fun i => isFull (tokenFor 0 tokens i) = false := by
  cases hstep with
  | subscriptionOk => cases h
  | @subscriptionCommandOk id itemCount fieldCount key command hmax hkey hcommand =>
    have hnone := (activate_of_valid ends.manager itemCount (by omega) hmax
      (valid_commandFields hkey hcommand)).1
    change some (ends.manager.activate itemCount fieldCount (some (key, command))).1 = _ at h
    rw [h] at hnone
    cases hnone
  | @accepted held id index item news tokens changed _ hheld hitem hencodes =>
    obtain ⟨-, -, -, hindex, -⟩ := SubscriptionManager.decoded_of_accepted h
    obtain rfl : update.item = index := Nat.succ.inj hindex
    exact ⟨held, item, id, news, tokens, changed, hheld, hitem, hencodes, rfl, rfl,
      Function.update_self ..⟩
  | refused _ _ _ hrefused =>
    rw [hrefused] at h
    cases h
  | aside hn =>
    have hnone := (handle_of_isAside hn ends.manager).1
    rw [h] at hnone
    cases hnone
  | unsubscribed => cases h

/-- **A refused line outdates what it was to carry, until it is sent in full.** In every run in
which the server goes on against what it sent last, a refused line leaves the manager as it was. An
update shows what the server sent last, but for the fields that a refused line was to carry and that
no accepted line, this one among them, has brought in full since. Such a field is shown as it was
before the update, or, when the update brings a diff for it, as what the diff makes of that. -/
theorem outdated_until_full (h : Reachable m ends) (hstep : ends.Step n ends') :
    (∀ e, (ends.manager.handle n).1 = some (.error e) → ends'.manager = ends.manager) ∧
    ∀ update, (ends.manager.handle n).1 = some (.ok (.update update)) →
      ∃ held news id raw, ends'.held = some held ∧ held.items[update.item]? = some (some news) ∧
        n = .update id (update.item + 1) raw ∧ update.values.length = news.length ∧
        ∀ i < news.length,
          (i ∉ ends'.outdated update.item → update.values[i]? = news[i]?) ∧
          (i ∈ ends'.outdated update.item → i ∉ update.changed →
            update.values[i]? = some (ends.manager.fieldOf update.item i)) ∧
          (i ∈ ends'.outdated update.item → i ∈ update.changed →
            ∃ base text, ends.manager.fieldOf update.item i = some base ∧
              Diffs (tokenFor 0 (raw.toList.splitOn '|') i) base text ∧
              update.values[i]? = some (some text)) := by
  refine ⟨fun e he => ?_, fun update hupdate => ?_⟩
  · rw [step_manager hstep, SubscriptionManager.handle_eq_of_error he]
  · have htrails := Reachable.trails (h.tail ⟨n, hstep⟩)
    have hmanager := step_manager hstep
    obtain ⟨held, item, id, news, tokens, changed, hheld, hitem, hencodes, rfl, hheld', hout⟩ :=
      exists_line_of_step hstep hupdate
    have hbefore := h.trails held hheld
    have hnews : (held.record update.item news).items[update.item]? = some (some news) :=
      List.getElem?_set_self (List.getElem?_eq_some_iff.mp hitem).1
    have hne : news ≠ [] := by
      have hpos := hbefore.pos
      rw [← hbefore.length_lastSent hitem, hencodes.length_eq] at hpos
      exact List.ne_nil_of_length_pos hpos
    obtain ⟨hlength, hshown⟩ := SubscriptionManager.shown_of_agreesBut hupdate fun hstate =>
      (htrails _ hheld').states hnews (hmanager ▸ hstate)
    have hcaret : ∀ i ∈ ends'.outdated update.item,
        isFull (tokenFor 0 ((valueList tokens).toList.splitOn '|') i) = false := by
      intro i hi
      rw [hout] at hi
      rw [hencodes.splitOn_valueList hne]
      exact (Finset.mem_filter.mp hi).2
    refine ⟨_, news, id, _, hheld', hnews, rfl, hlength, fun i hi => ⟨hshown i, ?_⟩⟩
    have hlt : i < update.values.length := hlength ▸ hi
    exact ⟨fun hi => (SubscriptionManager.shown_of_not_isFull hupdate hlt (hcaret i hi)).1,
      fun hi => (SubscriptionManager.shown_of_not_isFull hupdate hlt (hcaret i hi)).2⟩

/-- A manager of one item, before anything was sent. -/
def fresh : SubscriptionManager := .new .merge true ["item"] ["a", "b", "c"]

/-- The server sends `ab` for each of three fields, and then `cb`, in a line with a token too
many. -/
def refusal : List Notification :=
  [.subscriptionOk 1 1 3, .update 1 1 "ab|ab|ab", .update 1 1 "cb|cb|cb|"]

/-- What both ends hold after it: for each of the fields the server has sent what is not shown. -/
theorem reachable_refusal : ∃ ends, Reachable fresh ends ∧ ends.manager = fresh.handleAll refusal ∧
    ends.held = some ⟨3, [some [some "cb", some "cb", some "cb"]]⟩ ∧
    ends.outdated 0 = Finset.range 3 := by
  have hliteral : FieldToken none (some "ab") ['a', 'b'] :=
    .literal (by decide) (.plain rfl (.plain rfl .nil)) (by decide)
  have hencodes : Encodes 0 [none, none, none] [some "ab", some "ab", some "ab"]
      [['a', 'b'], ['a', 'b'], ['a', 'b']] [0, 1, 2] :=
    .field hliteral (.field hliteral (.field hliteral .done))
  have hcarries : Carries [some (some "ab"), some (some "ab"), some (some "ab")]
      [some "cb", some "cb", some "cb"] (Finset.range 3) :=
    ⟨rfl, fun i hi hout => absurd (Finset.mem_range.mpr hi) hout⟩
  have hannounced : Step ⟨fresh, none, fun _ => ∅⟩ (.subscriptionOk 1 1 3)
      ⟨fresh.handleAll (refusal.take 1), some (.activated 1 3), fun _ => ∅⟩ :=
    .subscriptionOk (by decide) (by decide)
  have haccepted : ∃ outdated : ℕ → Finset ℕ, outdated 0 = ∅ ∧
      Step ⟨fresh.handleAll (refusal.take 1), some (.activated 1 3), fun _ => ∅⟩
        (.update 1 1 (valueList [['a', 'b'], ['a', 'b'], ['a', 'b']]))
        ⟨fresh.handleAll (refusal.take 2), some ⟨3, [some [some "ab", some "ab", some "ab"]]⟩,
          outdated⟩ :=
    ⟨_, rfl, @Step.accepted _ (.activated 1 3) 1 0 none _ _ _ _ rfl rfl hencodes rfl⟩
  obtain ⟨outdated, hnone, haccepted⟩ := haccepted
  have hrefused : Step ⟨fresh.handleAll (refusal.take 2),
      some ⟨3, [some [some "ab", some "ab", some "ab"]]⟩, outdated⟩ (.update 1 1 "cb|cb|cb|") _ :=
    @Step.refused _ ⟨3, [some [some "ab", some "ab", some "ab"]]⟩ 1 0
      (some [some "ab", some "ab", some "ab"]) _ _ _ _ rfl rfl hcarries rfl
  refine ⟨_, ((Relation.ReflTransGen.refl.tail ⟨_, hannounced⟩).tail ⟨_, haccepted⟩).tail
    ⟨_, hrefused⟩, rfl, rfl, ?_⟩
  simp [next, hnone]

/-- The diff that the server sends for `cz` against `cb`. -/
theorem fieldToken_cz : FieldToken (some (some "cb")) (some "cz") ['^', 'T', 'b', 'b', 'z'] := by
  have hinteger : ∀ n : Fin 26, EncodesInteger n.val [Char.ofNat (97 + n.val)] :=
    fun n => ⟨[], n, rfl, by simp [capitalsValue]⟩
  have hreading : Sections .copy ['b', 'b', 'z'] [⟨['b'], .copy 1⟩, ⟨['b'], .add ['z']⟩] :=
    .cons (s := ⟨['b'], .copy 1⟩) rfl (hinteger 1)
      (.cons (s := ⟨['b'], .add ['z']⟩) rfl (hinteger 1) .done)
  have htlcp : TlcpDiff ['c', 'b'] ['b', 'b', 'z'] ['c', 'z'] :=
    ⟨_, hreading, ⟨by decide, trivial⟩, ⟨by decide, trivial⟩, rfl⟩
  exact .diff rfl (by simp) (by simp) htlcp (by decide) (by decide)
    (.plain rfl (.plain rfl (.plain rfl .nil)))

/-- The next line brings the first field in full, leaves the second and sends a diff for the third:
the first is shown as it was sent, the second as it was, the third as the diff makes of it. -/
theorem outdated_until_full_mixed :
    ∃ ends ends' update, Reachable fresh ends ∧ ends.Step (.update 1 1 "d||^Tbbz") ends' ∧
      (ends.manager.handle (.update 1 1 "d||^Tbbz")).1 = some (.ok (.update update)) ∧
      ends'.outdated 0 = {1, 2} ∧ update.values[0]? = some (some "d") ∧
      update.values[1]? = some (ends.manager.fieldOf 0 1) ∧
      ∃ base text, ends.manager.fieldOf 0 2 = some base ∧
        Diffs ['^', 'T', 'b', 'b', 'z'] base text ∧ update.values[2]? = some (some text) := by
  obtain ⟨ends, hreachable, hmanager, hheld, hout⟩ := reachable_refusal
  have hliteral : FieldToken (some (some "cb")) (some "d") ['d'] :=
    .literal (by decide) (.plain rfl .nil) (by decide)
  have hencodes : Encodes 0 [some (some "cb"), some (some "cb"), some (some "cb")]
      [some "d", some "cb", some "cz"] [['d'], [], ['^', 'T', 'b', 'b', 'z']] [0, 2] :=
    .field hliteral (.same (.field fieldToken_cz .done))
  obtain ⟨update, hupdate, hitem, hchanged⟩ : ∃ update : ItemUpdate,
      (ends.manager.handle (.update 1 1 "d||^Tbbz")).1 = some (.ok (.update update)) ∧
      update.item = 0 ∧ update.changed = [0, 2] := by
    rw [hmanager]
    exact ⟨_, rfl, rfl, rfl⟩
  obtain ⟨ends', hstep, hheld', hout'⟩ : ∃ ends', ends.Step (.update 1 1 "d||^Tbbz") ends' ∧
      ends'.held = some ⟨3, [some [some "d", some "cb", some "cz"]]⟩ ∧
      ends'.outdated 0 = {1, 2} := by
    refine ⟨_, @Step.accepted ends _ 1 0 (some [some "cb", some "cb", some "cb"]) _ _ _ _ hheld rfl
      hencodes hupdate, rfl, ?_⟩
    simp only [next, Function.update_self, hout]
    decide
  obtain ⟨-, hshown⟩ := outdated_until_full hreachable hstep
  obtain ⟨held, news, id, raw, hsent, hnews, hline, -, hfields⟩ := hshown update hupdate
  rw [hheld'] at hsent
  cases hsent
  rw [hitem] at hline hnews hfields
  cases hline
  cases hnews
  rw [hout', hchanged] at hfields
  exact ⟨ends, ends', update, hreachable, hstep, hupdate, hout',
    (hfields 0 (by decide)).1 (by decide), (hfields 1 (by decide)).2.1 (by decide) (by decide),
    (hfields 2 (by decide)).2.2 (by decide) (by decide)⟩

/-- **An outdated value is shown.** After the refused line, an empty token, a run and a diff each
show what was there before it. -/
theorem outdated_shown :
    ∃ ends ends' update, Reachable fresh ends ∧ ends.outdated 0 = Finset.range 3 ∧
      ends.Step (.update 1 1 "|^1|^Tbbz") ends' ∧
      (ends.manager.handle (.update 1 1 "|^1|^Tbbz")).1 = some (.ok (.update update)) ∧
      update.values = [some "ab", some "ab", some "az"] ∧
      ends'.held = some ⟨3, [some [some "cb", some "cb", some "cz"]]⟩ := by
  obtain ⟨ends, hreachable, hmanager, hheld, hout⟩ := reachable_refusal
  have hrun : Encodes 1 [some (some "cb"), some (some "cb")] [some "cb", some "cz"]
      [['^', '1'], ['^', 'T', 'b', 'b', 'z']] [2] :=
    @Encodes.run 1 [some "cb"] ['1'] _ _ _ _ (by decide) ⟨by decide, by simp, rfl⟩
      (.field fieldToken_cz .done)
  obtain ⟨update, hupdate, hvalues⟩ : ∃ update : ItemUpdate,
      (ends.manager.handle (.update 1 1 "|^1|^Tbbz")).1 = some (.ok (.update update)) ∧
      update.values = [some "ab", some "ab", some "az"] := by
    rw [hmanager]
    exact ⟨_, rfl, rfl⟩
  exact ⟨ends, _, update, hreachable, hout, @Step.accepted ends _ 1 0
    (some [some "cb", some "cb", some "cb"]) _ _ _ _ hheld rfl (.same hrun) hupdate, hupdate,
    hvalues, rfl⟩

end Ends

end Lightstreamer.Subscription
