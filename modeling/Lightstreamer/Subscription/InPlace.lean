import Lightstreamer.Subscription.Decoding

/-!
# Updates in place

The item state is written in place: `ItemState.applyInPlace` reads it for each token of the value
list, and writes it once the whole list has been read. `update_eq` says that it computes
`ItemState.apply`, so that a list that is refused leaves the state alone. `Reads` is what reading
some of the tokens does: they account for the fields from one pointer to the next, and each field
either gets a value or has one to keep. Hence `WellFormed`, kept by every update.
-/

namespace Lightstreamer.Subscription

open Lightstreamer.Protocol

/-- A computation on an item state. A failure keeps what was written before it. -/
abbrev ItemM := ExceptT ProtocolError (StateM ItemState)

namespace ItemState

/-! ## The update as it runs -/

/-- Read one token against the state as it is now. -/
def readToken (s : Staging) (token : List Char) : ItemM Staging := do
  MonadExcept.ofExcept ((← get).applyToken s token)

/-- Write one staged value. -/
def writeSlot (p : ℕ × FieldSlot) : ItemM Unit :=
  modify fun state => ⟨state.fields.set p.1 p.2⟩

/-- `ItemState::apply`, on the state that it is a method of. -/
def applyInPlace (rawValues : String) : ItemM UpdateOutcome := do
  let s ← (rawValues.toList.splitOn '|').foldlM readToken ⟨0, [], []⟩
  let fieldCount := (← get).fieldCount
  if s.pointer < fieldCount then
    throw (fieldValueError
      s!"value list ended after {s.pointer} of the {fieldCount} fields of the schema")
  s.staged.forM writeSlot
  return ⟨s.changed⟩

/-- The result of an update, and the state that it leaves. -/
def update (state : ItemState) (rawValues : String) :
    Except ProtocolError UpdateOutcome × ItemState :=
  (applyInPlace rawValues).run.run state

/-- What a computation gives and leaves, started on `state`. -/
def runOn {α : Type} (state : ItemState) (x : ItemM α) : Except ProtocolError α × ItemState :=
  x.run.run state

theorem runOn_bind {α β : Type} (state : ItemState) (x : ItemM α) (f : α → ItemM β) :
    state.runOn (x >>= f) = match state.runOn x with
      | (.ok a, state) => state.runOn (f a)
      | (.error e, state) => (.error e, state) := by
  change (ExceptT.bindCont f (state.runOn x).1).run (state.runOn x).2 = _
  cases state.runOn x with
  | mk result state => cases result <;> rfl

theorem runOn_readToken (state : ItemState) (s : Staging) (token : List Char) :
    state.runOn (readToken s token) = (state.applyToken s token, state) := by
  change state.runOn (MonadExcept.ofExcept (state.applyToken s token)) = _
  cases state.applyToken s token <;> rfl

/-- Reading the tokens does not write. -/
theorem runOn_readTokens (state : ItemState) (tokens : List (List Char)) (s : Staging) :
    state.runOn (tokens.foldlM readToken s) = (tokens.foldlM state.applyToken s, state) := by
  induction tokens generalizing s with
  | nil => rfl
  | cons token tokens ih =>
    rw [List.foldlM_cons, List.foldlM_cons, runOn_bind, runOn_readToken]
    cases state.applyToken s token with
    | error e => rfl
    | ok s' => exact ih s'

/-- Writing the staged values does not fail. -/
theorem runOn_writeSlots (state : ItemState) (staged : List (ℕ × FieldSlot)) :
    state.runOn (staged.forM writeSlot) = (.ok (), state.commit staged) := by
  induction staged generalizing state with
  | nil => rfl
  | cons p staged ih =>
    change state.runOn (writeSlot p >>= fun _ => staged.forM writeSlot) = _
    rw [runOn_bind]
    exact ih _

/-- **The update in place computes `apply`**: a list that is refused leaves the state alone. -/
theorem update_eq (state : ItemState) (rawValues : String) :
    state.update rawValues = match state.apply rawValues with
      | .ok (state', outcome) => (.ok outcome, state')
      | .error e => (.error e, state) := by
  change state.runOn (applyInPlace rawValues) = _
  rw [applyInPlace, runOn_bind, runOn_readTokens, apply]
  cases (rawValues.toList.splitOn '|').foldlM state.applyToken ⟨0, [], []⟩ with
  | error e => rfl
  | ok s =>
    change state.runOn (if s.pointer < state.fieldCount then _ else _) = _
    by_cases hshort : s.pointer < state.fieldCount
    · simp only [bind, Except.bind, hshort, if_true]
      rfl
    · simp only [bind, Except.bind, hshort, if_false]
      refine (runOn_bind state (s.staged.forM writeSlot) _).trans ?_
      rw [runOn_writeSlots]
      rfl

end ItemState

/-! ## What the tokens account for -/

/-- How many fields a token accounts for. -/
def tokenSpan : List Char → ℕ
  | '^' :: marker :: rest => if marker.isDigit then digitsValue 0 (marker :: rest) else 1
  | _ => 1

/-- The first field that the token at a position accounts for. -/
def tokenStart (tokens : List (List Char)) (k : ℕ) : ℕ := ((tokens.take k).map tokenSpan).sum

/-- What reading tokens that account for `span` fields does: each of these fields gets a value, or
has one to keep. -/
structure Reads (state : ItemState) (s s' : Staging) (span : ℕ) : Prop where
  pointer : s'.pointer = s.pointer + span
  le : s.pointer ≤ state.fieldCount → s'.pointer ≤ state.fieldCount
  grows : ∃ new : List (ℕ × FieldSlot), s'.staged = s.staged ++ new ∧
    s'.changed = s.changed ++ new.map Prod.fst ∧ (new.map Prod.fst).Pairwise (· < ·) ∧
    (∀ p ∈ new, s.pointer ≤ p.1 ∧ p.1 < s'.pointer ∧ p.2 ≠ .unset) ∧
    ∀ i, s.pointer ≤ i → i < s'.pointer → i ∈ new.map Prod.fst ∨ state.hasBaseline i = true

namespace Reads

variable {state : ItemState} {s s' s'' : Staging} {span span' : ℕ}

theorem refl (state : ItemState) (s : Staging) : Reads state s s 0 where
  pointer := rfl
  le := id
  grows := ⟨[], by simp, by simp, .nil, by simp, fun i hle hlt => by omega⟩

theorem trans (h : Reads state s s' span) (h' : Reads state s' s'' span') :
    Reads state s s'' (span + span') := by
  obtain ⟨new, hstaged, hchanged, hsorted, hnew, hcovered⟩ := h.grows
  obtain ⟨new', hstaged', hchanged', hsorted', hnew', hcovered'⟩ := h'.grows
  have hpointer := h.pointer
  have hpointer' := h'.pointer
  refine ⟨by omega, fun hle => h'.le (h.le hle), new ++ new', by simp [hstaged', hstaged],
    by simp [hchanged', hchanged], ?_, fun p hp => ?_, fun i hle hlt => ?_⟩
  · rw [List.map_append, List.pairwise_append]
    refine ⟨hsorted, hsorted', fun i hi j hj => ?_⟩
    obtain ⟨p, hp, rfl⟩ := List.mem_map.1 hi
    obtain ⟨q, hq, rfl⟩ := List.mem_map.1 hj
    exact (hnew p hp).2.1.trans_le (hnew' q hq).1
  · rcases List.mem_append.1 hp with hp | hp
    · obtain ⟨hle, hlt, hslot⟩ := hnew p hp
      exact ⟨hle, by omega, hslot⟩
    · obtain ⟨hle, hlt, hslot⟩ := hnew' p hp
      exact ⟨by omega, hlt, hslot⟩
  · rw [List.map_append, List.mem_append]
    by_cases hi : i < s'.pointer
    · exact (hcovered i hle hi).imp_left .inl
    · exact (hcovered' i (Nat.le_of_not_lt hi) hlt).imp_left .inr

/-- A token that gives the pointed field a value. -/
theorem stage {slot : FieldSlot} (hlt : s.pointer < state.fieldCount) (hslot : slot ≠ .unset) :
    Reads state s (s.stage slot) 1 where
  pointer := rfl
  le := fun _ => hlt
  grows := by
    refine ⟨[(s.pointer, slot)], rfl, rfl, List.pairwise_singleton _ _, ?_, fun i hle hi => .inl ?_⟩
    · simpa [Staging.stage] using hslot
    · have heq : i = s.pointer := Nat.le_antisymm (Nat.le_of_lt_succ hi) hle
      simp [heq]

/-- A token that leaves fields as they are. -/
theorem skip (hle : s.pointer + span ≤ state.fieldCount)
    (hbaseline : ∀ i, s.pointer ≤ i → i < s.pointer + span → state.hasBaseline i = true) :
    Reads state s { s with pointer := s.pointer + span } span where
  pointer := rfl
  le := fun _ => hle
  grows := ⟨[], by simp, by simp, .nil, by simp, fun i hi hlt => .inr (hbaseline i hi hlt)⟩

end Reads

variable {state : ItemState} {s s' : Staging}

theorem parseUnchangedRun_eq_ok {digits : List Char} {count : ℕ}
    (h : parseUnchangedRun digits = .ok count) : count = digitsValue 0 digits := by
  unfold parseUnchangedRun at h
  split at h
  · cases h
  · rename_i hguard
    rw [Bool.or_eq_true, not_or, Bool.not_eq_true', Bool.not_eq_false] at hguard
    obtain ⟨hempty, hall⟩ := hguard
    rw [parseUnsigned_of_digits _ (by simpa using hempty) (List.all_eq_true.1 hall)] at h
    split at h
    · rename_i hparse
      cases h
      exact (Option.some.inj (Option.filter_eq_some_iff.1 hparse).1).symm
    · cases h

/-- A `^N` token. -/
theorem applyRun_reads {rest : List Char} (h : state.applyRun s rest = .ok s') :
    Reads state s s' (digitsValue 0 rest) := by
  unfold ItemState.applyRun at h
  obtain ⟨count, hcount, h⟩ := bind_eq_ok.1 h
  obtain rfl := parseUnchangedRun_eq_ok hcount
  unfold checkedAdd at h
  split at h
  · cases h
  · rename_i stop hstop
    split_ifs at hstop
    obtain rfl := Option.some.inj hstop
    split at h
    · cases h
    · rename_i hle
      split at h
      · cases h
      · rename_i hfind
        cases h
        refine .skip (Nat.le_of_not_lt hle) fun i hi hlt => ?_
        have hbaseline := List.find?_eq_none.1 hfind i (List.mem_range'_1.2 ⟨hi, hlt⟩)
        simpa using hbaseline

/-- A diff token. -/
theorem applyDiff_reads {marker : Char} {payload : List Char} (hlt : s.pointer < state.fieldCount)
    (h : state.applyDiff s marker payload = .ok s') : Reads state s s' 1 := by
  unfold ItemState.applyDiff at h
  obtain ⟨payload, -, h⟩ := bind_eq_ok.1 h
  split at h
  · cases h
  · dsimp only at h
    split at h
    · obtain ⟨base, -, h⟩ := bind_eq_ok.1 h
      obtain ⟨text, -, h⟩ := bind_eq_ok.1 h
      cases h
      exact .stage hlt nofun
    -- a field with no text has no base to apply a diff to
    all_goals
      obtain ⟨base, h, -⟩ := bind_eq_ok.1 h
      cases h

/-- **One token.** It accounts for its fields. -/
theorem applyToken_reads {token : List Char} (h : state.applyToken s token = .ok s') :
    Reads state s s' (tokenSpan token) := by
  unfold ItemState.applyToken at h
  split at h
  · cases h
  · rename_i hlt
    have hlt : s.pointer < state.fieldCount := Nat.lt_of_not_le hlt
    split at h
    · split at h
      · rename_i hbaseline
        cases h
        refine .skip hlt fun i hi hlt => ?_
        obtain rfl : i = s.pointer := Nat.le_antisymm (Nat.le_of_lt_succ hlt) hi
        exact hbaseline
      · cases h
    · cases h
      exact .stage hlt nofun
    · cases h
      exact .stage hlt nofun
    · cases h
    · rename_i marker rest
      rw [tokenSpan]
      split at h
      · rename_i hdigit
        rw [if_pos hdigit]
        exact applyRun_reads h
      · rename_i hdigit
        rw [if_neg hdigit]
        split at h
        · exact applyDiff_reads hlt h
        · cases h
    · rename_i hcaret
      have hspan : tokenSpan token = 1 := by
        unfold tokenSpan
        split
        · exact absurd rfl (hcaret _ _)
        · rfl
      rw [hspan]
      obtain ⟨decoded, -, h⟩ := bind_eq_ok.1 h
      cases h
      exact .stage hlt nofun

/-- **All tokens.** -/
theorem foldlM_reads {tokens : List (List Char)}
    (h : tokens.foldlM state.applyToken s = .ok s') :
    Reads state s s' (tokens.map tokenSpan).sum := by
  induction tokens generalizing s with
  | nil =>
    cases h
    exact .refl state _
  | cons token tokens ih =>
    rw [List.foldlM_cons] at h
    obtain ⟨s₁, hfirst, hrest⟩ := bind_eq_ok.1 h
    exact (applyToken_reads hfirst).trans (ih hrest)

/-! ## Writing the staged values -/

theorem length_commit (state : ItemState) (staged : List (ℕ × FieldSlot)) :
    (state.commit staged).fields.length = state.fields.length := by
  induction staged generalizing state with
  | nil => rfl
  | cons p staged ih =>
    change (ItemState.commit ⟨state.fields.set p.1 p.2⟩ staged).fields.length = _
    rw [ih, List.length_set]

/-- A field that is not staged keeps its slot. -/
theorem commit_of_notMem (state : ItemState) {staged : List (ℕ × FieldSlot)} {i : ℕ}
    (h : i ∉ staged.map Prod.fst) : (state.commit staged).fields[i]? = state.fields[i]? := by
  induction staged generalizing state with
  | nil => rfl
  | cons p staged ih =>
    rw [List.map_cons, List.mem_cons, not_or] at h
    change (ItemState.commit ⟨state.fields.set p.1 p.2⟩ staged).fields[i]? = _
    rw [ih _ h.2, List.getElem?_set_ne (Ne.symm h.1)]

/-- A field that is staged gets one of the staged values. -/
theorem commit_of_mem (state : ItemState) {staged : List (ℕ × FieldSlot)} {i : ℕ}
    (h : i ∈ staged.map Prod.fst) (hlt : i < state.fields.length) :
    ∃ p ∈ staged, p.1 = i ∧ (state.commit staged).fields[i]? = some p.2 := by
  induction staged generalizing state with
  | nil => cases h
  | cons p staged ih =>
    change ∃ q ∈ p :: staged, q.1 = i ∧
      (ItemState.commit ⟨state.fields.set p.1 p.2⟩ staged).fields[i]? = some q.2
    by_cases hmem : i ∈ staged.map Prod.fst
    · obtain ⟨q, hq, hi, hslot⟩ :=
        ih ⟨state.fields.set p.1 p.2⟩ hmem (by rwa [List.length_set])
      exact ⟨q, List.mem_cons_of_mem p hq, hi, hslot⟩
    · rw [List.map_cons, List.mem_cons] at h
      obtain rfl := h.resolve_right hmem
      refine ⟨p, List.mem_cons_self, rfl, ?_⟩
      rw [commit_of_notMem _ hmem, List.getElem?_set_self hlt]

/-! ## One update -/

/-- A number below a sum lies in one of the spans that add up to it. -/
theorem existsUnique_span {spans : List ℕ} {i : ℕ} (h : i < spans.sum) :
    ∃! k, k < spans.length ∧ (spans.take k).sum ≤ i ∧ i < (spans.take (k + 1)).sum := by
  induction spans generalizing i with
  | nil => exact absurd h (Nat.not_lt_zero i)
  | cons a spans ih =>
    by_cases hi : i < a
    · refine ⟨0, ⟨Nat.succ_pos _, Nat.zero_le i, by simpa using hi⟩, fun k hk => ?_⟩
      cases k with
      | zero => rfl
      | succ k =>
        have hle := hk.2.1
        rw [List.take_succ_cons, List.sum_cons] at hle
        omega
    · rw [List.sum_cons] at h
      obtain ⟨k, ⟨hk, hle, hlt⟩, hunique⟩ := ih (i := i - a) (by omega)
      refine ⟨k + 1, ⟨Nat.succ_lt_succ hk, ?_, ?_⟩, fun j hj => ?_⟩
      · rw [List.take_succ_cons, List.sum_cons]
        omega
      · rw [List.take_succ_cons, List.sum_cons]
        omega
      · obtain ⟨hj, hle', hlt'⟩ := hj
        cases j with
        | zero =>
          rw [List.take_succ_cons, List.sum_cons, List.take_zero, List.sum_nil] at hlt'
          omega
        | succ j =>
          rw [List.take_succ_cons, List.sum_cons] at hle' hlt'
          rw [hunique j ⟨Nat.lt_of_succ_lt_succ hj, by omega, by omega⟩]

/-- An update that was accepted: the tokens account for every field once, and the fields that are
not reported as changed keep their values. -/
structure Applies (state state' : ItemState) (tokens : List (List Char)) (changed : List ℕ) :
    Prop where
  length : state'.fields.length = state.fields.length
  kept : ∀ i, i ∉ changed → state'.fields[i]? = state.fields[i]?
  ascending : changed.Pairwise (· < ·)
  inRange : ∀ i ∈ changed, i < state.fields.length
  total : tokenStart tokens tokens.length = state.fields.length
  accounted : ∀ i < state.fields.length,
    ∃! k, k < tokens.length ∧ tokenStart tokens k ≤ i ∧ i < tokenStart tokens (k + 1)

/-- Either every field was set, or none was. -/
def WellFormed (state : ItemState) : Prop :=
  (∀ slot ∈ state.fields, slot = .unset) ∨ ∀ slot ∈ state.fields, slot ≠ .unset

theorem apply_eq_ok {raw : String} {state' : ItemState} {outcome : UpdateOutcome}
    (h : state.apply raw = .ok (state', outcome)) :
    ∃ s, Reads state ⟨0, [], []⟩ s (((raw.toList.splitOn '|').map tokenSpan).sum) ∧
      s.pointer = state.fieldCount ∧ state' = state.commit s.staged ∧ outcome = ⟨s.changed⟩ := by
  unfold ItemState.apply at h
  obtain ⟨s, hread, h⟩ := bind_eq_ok.1 h
  have hreads := foldlM_reads hread
  split at h
  · cases h
  · rename_i hshort
    cases h
    exact ⟨s, hreads, Nat.le_antisymm (hreads.le (Nat.zero_le _)) (Nat.le_of_not_lt hshort), rfl,
      rfl⟩

theorem applies_of_apply {raw : String} {state' : ItemState} {outcome : UpdateOutcome}
    (h : state.apply raw = .ok (state', outcome)) :
    Applies state state' (raw.toList.splitOn '|') outcome.changed := by
  obtain ⟨s, hreads, hpointer, rfl, rfl⟩ := apply_eq_ok h
  obtain ⟨new, hstaged, hchanged, hsorted, hnew, -⟩ := hreads.grows
  have hspans := hreads.pointer
  rw [List.nil_append] at hstaged hchanged
  rw [hpointer, Nat.zero_add] at hspans
  have htotal : tokenStart (raw.toList.splitOn '|') (raw.toList.splitOn '|').length =
      state.fields.length := by
    rw [tokenStart, List.take_length, ← hspans]
    rfl
  refine ⟨length_commit state _, fun i hi => ?_, ?_, fun i hi => ?_, htotal, fun i hi => ?_⟩
  · refine commit_of_notMem state ?_
    rw [hstaged]
    rwa [hchanged] at hi
  · rw [hchanged]
    exact hsorted
  · rw [hchanged] at hi
    obtain ⟨p, hp, rfl⟩ := List.mem_map.1 hi
    have hlt := (hnew p hp).2.1
    rwa [hpointer] at hlt
  · have hsum : i < ((raw.toList.splitOn '|').map tokenSpan).sum := hspans ▸ hi
    simpa only [tokenStart, List.map_take, List.length_map] using existsUnique_span hsum

/-- After an update that was accepted every field has been set. -/
theorem set_of_apply {raw : String} {state' : ItemState} {outcome : UpdateOutcome}
    (h : state.apply raw = .ok (state', outcome)) : ∀ slot ∈ state'.fields, slot ≠ .unset := by
  obtain ⟨s, hreads, hpointer, rfl, -⟩ := apply_eq_ok h
  obtain ⟨new, hstaged, -, -, hnew, hcovered⟩ := hreads.grows
  rw [List.nil_append] at hstaged
  intro slot hslot
  obtain ⟨i, hi, rfl⟩ := List.getElem_of_mem hslot
  have hlt : i < state.fields.length := by rwa [length_commit] at hi
  have hget : (state.commit s.staged).fields[i]? = some (state.commit s.staged).fields[i] :=
    List.getElem?_eq_getElem hi
  by_cases hmem : i ∈ new.map Prod.fst
  · obtain ⟨p, hp, -, hwritten⟩ := commit_of_mem state (hstaged ▸ hmem) hlt
    rw [hget, Option.some.injEq] at hwritten
    rw [hwritten]
    exact (hnew p (hstaged ▸ hp)).2.2
  · have hbaseline := (hcovered i (Nat.zero_le i) (hpointer ▸ hlt)).resolve_left hmem
    rw [commit_of_notMem state (hstaged ▸ hmem)] at hget
    intro hunset
    rw [ItemState.hasBaseline, hget, hunset] at hbaseline
    cases hbaseline

theorem update_wellFormed (h : WellFormed state) (raw : String) :
    WellFormed (state.update raw).2 := by
  rw [ItemState.update_eq]
  cases happly : state.apply raw with
  | error e => exact h
  | ok p =>
    have happly' : state.apply raw = .ok (p.1, p.2) := happly
    exact .inr (set_of_apply happly')

/-- The state after updates in turn, the refused ones among them. -/
def updates (state : ItemState) (raws : List String) : ItemState :=
  raws.foldl (fun state raw => (state.update raw).2) state

theorem updates_wellFormed (h : WellFormed state) (raws : List String) :
    WellFormed (updates state raws) := by
  induction raws generalizing state with
  | nil => exact h
  | cons raw raws ih => exact ih (update_wellFormed h raw)

/-- **An update is atomic and keeps the item well formed.** A list that is refused leaves the state
as it was; one that is accepted accounts for every field once and changes what it reports; and
whatever updates an item is given, either every field of it was set or none was. -/
theorem update_atomic (state : ItemState) (raw : String) :
    (∀ e, (state.update raw).1 = .error e → (state.update raw).2 = state) ∧
    (∀ outcome, (state.update raw).1 = .ok outcome →
      Applies state (state.update raw).2 (raw.toList.splitOn '|') outcome.changed) ∧
    ∀ fieldCount raws, WellFormed (updates (.new fieldCount) raws) := by
  refine ⟨fun e he => ?_, fun outcome houtcome => ?_, fun fieldCount raws => ?_⟩
  · rw [ItemState.update_eq] at he ⊢
    cases happly : state.apply raw with
    | error e => rfl
    | ok p =>
      rw [happly] at he
      cases he
  · rw [ItemState.update_eq] at houtcome ⊢
    cases happly : state.apply raw with
    | error e =>
      rw [happly] at houtcome
      cases houtcome
    | ok p =>
      rw [happly] at houtcome
      cases houtcome
      have happly' : state.apply raw = .ok (p.1, p.2) := happly
      exact applies_of_apply happly'
  · refine updates_wellFormed (.inl fun slot hslot => ?_) raws
    exact List.eq_of_mem_replicate hslot

/-- A list whose last token is refused leaves the first field as it was. -/
example : (ItemState.update ⟨[.asSent "a", .asSent "b"]⟩ "c|^Tzz").2 =
    ⟨[.asSent "a", .asSent "b"]⟩ := by decide

end Lightstreamer.Subscription
