import Lightstreamer.Protocol.DiffSections
import Lightstreamer.Subscription.Manager

/-!
# Decoding follows the server

The server's side of a subscription: it holds the field values of every item and sends each new
state encoded against the previous one, a token for a field (`FieldToken`) or for a run of
unchanged ones (`Encodes`), among other notifications (`Serves`). `ItemState.apply` turns the item
state of the previous values into that of the new ones (`apply_of_encodes`), so over any run the
updates that a `SubscriptionManager` publishes are the server's states (`published_eq_of_serves`).
-/

namespace Lightstreamer.Subscription

open Lightstreamer.Protocol

/-! ## The server's encodings -/

/-- What decimal digits are worth behind a number. -/
def digitsValue (n : ℕ) (digits : List Char) : ℕ :=
  digits.foldl (fun n digit => n * 10 + (digit.toNat - 48)) n

/-- Some decimal digits spell a count. -/
def EncodesCount (count : ℕ) (digits : List Char) : Prop :=
  digits ≠ [] ∧ (∀ digit ∈ digits, digit.isDigit = true) ∧ digitsValue 0 digits = count

/-- What may be sent for a field that gets the value `new`; `old` is what was last sent for it, if
anything was. A value is `none` when it is null. -/
inductive FieldToken (old : Option (Option String)) : Option String → List Char → Prop
  | null : FieldToken old none ['#']
  | empty : FieldToken old (some "") ['$']
  | literal {text : String} {c : Char} {token : List Char} (hne : text ≠ "")
      (hencodes : PercentEncodes text.toList (c :: token))
      (hc : c ≠ '#' ∧ c ≠ '$' ∧ c ≠ '^') : FieldToken old (some text) (c :: token)
  | diff {base text : String} {payload token : List Char} (hold : old = some (some base))
      (hbase : ∀ c ∈ base.toList, c.toNat < 0x10000) (htext : ∀ c ∈ text.toList, c.toNat < 0x10000)
      (hdiff : TlcpDiff base.toList payload text.toList) (hne : payload ≠ [])
      (hfits : payload.length ≤ usizeMax)
      (hencodes : PercentEncodes payload token) : FieldToken old (some text) ('^' :: 'T' :: token)

/-- The tokens for the fields from `position` on, and the positions not sent as unchanged. A field
that was never sent cannot be left unchanged. -/
inductive Encodes : ℕ → List (Option (Option String)) → List (Option String) →
    List (List Char) → List ℕ → Prop
  | done {position : ℕ} : Encodes position [] [] [] []
  | field {position : ℕ} {old : Option (Option String)} {new : Option String} {token : List Char}
      {olds : List (Option (Option String))} {news : List (Option String)}
      {tokens : List (List Char)} {changed : List ℕ} (htoken : FieldToken old new token)
      (hrest : Encodes (position + 1) olds news tokens changed) :
      Encodes position (old :: olds) (new :: news) (token :: tokens) (position :: changed)
  | same {position : ℕ} {value : Option String}
      {olds : List (Option (Option String))} {news : List (Option String)}
      {tokens : List (List Char)} {changed : List ℕ}
      (hrest : Encodes (position + 1) olds news tokens changed) :
      Encodes position (some value :: olds) (value :: news) ([] :: tokens) changed
  | run {position : ℕ} {values : List (Option String)} {digits : List Char}
      {olds : List (Option (Option String))} {news : List (Option String)}
      {tokens : List (List Char)} {changed : List ℕ} (hne : values ≠ [])
      (hcount : EncodesCount values.length digits)
      (hrest : Encodes (position + values.length) olds news tokens changed) :
      Encodes position (values.map some ++ olds) (values ++ news) (('^' :: digits) :: tokens)
        changed

/-- The third argument of a `U`. -/
def valueList (tokens : List (List Char)) : String := String.ofList (['|'].intercalate tokens)

/-- The slot of a field for which a value was sent. -/
def sentSlot : Option String → FieldSlot
  | none => .null
  | some text => .asSent text

/-- The slot of a field, given what was last sent for it. -/
def slotOf : Option (Option String) → FieldSlot
  | none => .unset
  | some value => sentSlot value

/-! ## One token -/

variable {state : ItemState} {s : Staging}

theorem digitsValue_eq (n : ℕ) (digits : List Char) :
    digitsValue n digits = Nat.ofDigitChars 10 digits n := by
  induction digits generalizing n with
  | nil => rfl
  | cons digit digits ih =>
    rw [Nat.ofDigitChars_cons, Nat.mul_comm, ← ih]
    rfl

/-- Digits alone are parsed as what they are worth. -/
theorem parseUnsigned_of_digits (max : ℕ) {digits : List Char} (hne : digits ≠ [])
    (h : ∀ digit ∈ digits, digit.isDigit = true) :
    parseUnsigned max digits = (some (digitsValue 0 digits)).filter (· ≤ max) := by
  have hparse : parseDigits digits = some (digitsValue 0 digits) :=
    parseDigits_eq_some_iff.mpr ⟨hne, h, (digitsValue_eq 0 digits).symm⟩
  rw [← hparse]
  unfold parseUnsigned
  split
  · exact absurd (h '+' List.mem_cons_self) (by decide)
  · rfl

theorem EncodesCount.parse {count : ℕ} {digits : List Char} (h : EncodesCount count digits)
    (hmax : count ≤ usizeMax) : parseUnchangedRun digits = .ok count := by
  obtain ⟨hne, hdigits, rfl⟩ := h
  have hparse : parseUnsigned usizeMax digits = some (digitsValue 0 digits) := by
    rw [parseUnsigned_of_digits _ hne hdigits, Option.filter_some, if_pos (by simpa using hmax)]
  have hall : digits.all Char.isDigit = true := List.all_eq_true.mpr hdigits
  have hempty : digits.isEmpty = false := by simpa using hne
  rw [parseUnchangedRun, hall, hparse, hempty]
  rfl

theorem hasBaseline_of_getElem? {index : ℕ} {value : Option String}
    (h : state.fields[index]? = some (sentSlot value)) : state.hasBaseline index = true := by
  cases value <;> simp only [ItemState.hasBaseline, h, sentSlot, FieldSlot.asSent]

theorem pointer_lt {slot : FieldSlot} (h : state.fields[s.pointer]? = some slot) :
    ¬state.fieldCount ≤ s.pointer := by
  obtain ⟨hlt, -⟩ := List.getElem?_eq_some_iff.mp h
  exact Nat.not_le.mpr hlt

theorem applyDiff_eq {base text : String} {payload token : List Char}
    (hold : state.fields[s.pointer]? = some (.asSent base))
    (hpayload : percentDecode (String.ofList token) = .ok (String.ofList payload))
    (happly : applyTlcpDiff base (String.ofList payload) = .ok text) :
    state.applyDiff s 'T' token = .ok (s.stage (.asSent text)) := by
  have hdecoder : decoderFor 'T' = some tlcpDiffDecoder := rfl
  simp only [ItemState.applyDiff, hpayload, hdecoder, hold, FieldSlot.asSent,
    ItemState.diffableBase, bind, Except.bind]
  rw [show tlcpDiffDecoder.apply = applyTlcpDiff from rfl, happly]
  rfl

/-- A field's token stages the value the server sent. -/
theorem applyToken_of_fieldToken {old : Option (Option String)} {new : Option String}
    {token : List Char} (h : FieldToken old new token)
    (hold : state.fields[s.pointer]? = some (slotOf old)) :
    state.applyToken s token = .ok (s.stage (sentSlot new)) := by
  have hlt := pointer_lt hold
  cases h with
  | null => exact if_neg hlt
  | empty => exact if_neg hlt
  | @literal text c token hne hencodes hc =>
    obtain ⟨hhash, hdollar, hcaret⟩ := hc
    have hdecode := percentDecode_of_percentEncodes hencodes
    rw [String.ofList_toList] at hdecode
    rw [ItemState.applyToken, if_neg hlt, hdecode]
    · rfl
    · exact nofun
    · rintro ⟨⟩
      exact hhash rfl
    · rintro ⟨⟩
      exact hdollar rfl
    · rintro ⟨⟩
      exact hcaret rfl
    · rintro marker rest ⟨⟩
      exact hcaret rfl
  | @diff base text payload token hsent hbase htext hdiff hne hfits hencodes =>
    subst hsent
    have hastral : ∀ {l : List Char}, (∀ c ∈ l, c.toNat < 0x10000) → ∀ c ∈ l, isAstral c = false :=
      fun h c hc => decide_eq_false (Nat.not_le.mpr (h c hc))
    have happly := hdiff.apply hne hfits (hastral hbase) (hastral htext)
    rw [String.ofList_toList, String.ofList_toList] at happly
    exact (if_neg hlt).trans
      (applyDiff_eq hold (percentDecode_of_percentEncodes hencodes) happly)

/-! ## The value list -/

theorem getElem?_of_drop {fields slots : List FieldSlot} {slot : FieldSlot} {pointer : ℕ}
    (h : fields.drop pointer = slot :: slots) :
    fields[pointer]? = some slot ∧ fields.drop (pointer + 1) = slots := by
  constructor
  · rw [← List.head?_drop, h, List.head?_cons]
  · rw [← List.drop_drop, h, List.drop_one, List.tail_cons]

/-- A run skips fields that all have a value. -/
theorem applyToken_run {values : List (Option String)} {digits : List Char}
    {slots : List FieldSlot} (hne : values ≠ []) (hcount : EncodesCount values.length digits)
    (hfields : state.fields.drop s.pointer = values.map sentSlot ++ slots)
    (hmax : state.fieldCount ≤ usizeMax) :
    state.applyToken s ('^' :: digits) = .ok { s with pointer := s.pointer + values.length } := by
  have hlen : s.pointer + values.length ≤ state.fieldCount := by
    have hdrop := congrArg List.length hfields
    rw [List.length_drop, List.length_append, List.length_map] at hdrop
    have hpos := List.length_pos_of_ne_nil hne
    simp only [ItemState.fieldCount]
    omega
  have hpos := List.length_pos_of_ne_nil hne
  have hbaseline : (List.range' s.pointer values.length).find?
      (fun index => !state.hasBaseline index) = none := by
    rw [List.find?_eq_none]
    intro index hindex
    obtain ⟨i, hi, rfl⟩ := List.mem_range'.mp hindex
    have hslot : state.fields[s.pointer + 1 * i]? = some (sentSlot values[i]) := by
      rw [Nat.one_mul, ← List.getElem?_drop, hfields, List.getElem?_append_left (by simpa using hi)]
      simp [hi]
    rw [hasBaseline_of_getElem? hslot]
    exact Bool.false_ne_true
  obtain ⟨digit, rest, rfl⟩ := List.exists_cons_of_ne_nil hcount.1
  have hdigit : digit.isDigit = true := hcount.2.1 digit List.mem_cons_self
  rw [ItemState.applyToken, if_neg (by omega), if_pos hdigit, ItemState.applyRun,
    hcount.parse (by omega)]
  have hstop : s.pointer + values.length ≤ usizeMax := by omega
  simp only [bind, Except.bind, checkedAdd_of_le hstop, if_neg (Nat.not_lt.mpr hlen), hbaseline]

/-- The tokens of the fields from the pointer on move it to the end. What they stage turns the slots
of the previous values into those of the new ones. -/
theorem foldlM_applyToken {olds : List (Option (Option String))} {news : List (Option String)}
    {tokens : List (List Char)} {changed : List ℕ}
    (h : Encodes s.pointer olds news tokens changed)
    (hfields : state.fields.drop s.pointer = olds.map slotOf) (hmax : state.fieldCount ≤ usizeMax) :
    ∃ staged, tokens.foldlM state.applyToken s =
        .ok ⟨s.pointer + news.length, s.staged ++ staged, s.changed ++ changed⟩ ∧
      ∀ front : List FieldSlot, front.length = s.pointer →
        staged.foldl (fun fields p => fields.set p.1 p.2) (front ++ olds.map slotOf) =
          front ++ news.map sentSlot := by
  generalize hp : s.pointer = pointer at h hfields
  induction h generalizing s with
  | done =>
    subst hp
    exact ⟨[], by simp [List.foldlM, pure, Except.pure], fun front _ => rfl⟩
  | @field position old new token olds news tokens changed htoken _ ih =>
    subst hp
    obtain ⟨hold, hfields⟩ := getElem?_of_drop hfields
    obtain ⟨staged, hrun, hset⟩ := ih (s := s.stage (sentSlot new)) rfl hfields
    refine ⟨(s.pointer, sentSlot new) :: staged, ?_, fun front hfront => ?_⟩
    · rw [List.foldlM_cons, applyToken_of_fieldToken htoken hold]
      simp only [bind, Except.bind, hrun]
      simp [Staging.stage, Nat.add_assoc, Nat.add_comm 1]
    · have hslot : (front ++ (old :: olds).map slotOf).set s.pointer (sentSlot new) =
          (front ++ [sentSlot new]) ++ olds.map slotOf := by
        rw [List.set_append_right _ _ (Nat.le_of_eq hfront), hfront, Nat.sub_self]
        simp
      rw [List.foldl_cons, hslot, hset _ (by simp [hfront])]
      simp
  | @same position value olds news tokens changed _ ih =>
    subst hp
    obtain ⟨hold, hfields⟩ := getElem?_of_drop hfields
    obtain ⟨staged, hrun, hset⟩ := ih (s := { s with pointer := s.pointer + 1 }) rfl hfields
    refine ⟨staged, ?_, fun front hfront => ?_⟩
    · have htoken : state.applyToken s [] = .ok { s with pointer := s.pointer + 1 } := by
        rw [ItemState.applyToken, if_neg (pointer_lt hold), if_pos (hasBaseline_of_getElem? hold)]
      rw [List.foldlM_cons, htoken]
      simp only [bind, Except.bind, hrun]
      simp [Nat.add_assoc, Nat.add_comm 1]
    · have := hset (front ++ [sentSlot value]) (by simp [hfront])
      simpa [slotOf] using this
  | @run position values digits olds news tokens changed hne hcount _ ih =>
    subst hp
    have hvalues : (values.map some).map slotOf = values.map sentSlot := by
      rw [List.map_map]
      rfl
    rw [List.map_append, hvalues] at hfields
    have hrest : state.fields.drop (s.pointer + values.length) = olds.map slotOf := by
      rw [← List.drop_drop, hfields, List.drop_left' (by simp)]
    obtain ⟨staged, hrun, hset⟩ :=
      ih (s := { s with pointer := s.pointer + values.length }) rfl hrest
    refine ⟨staged, ?_, fun front hfront => ?_⟩
    · rw [List.foldlM_cons, applyToken_run hne hcount hfields hmax]
      simp only [bind, Except.bind, hrun]
      simp [Nat.add_assoc]
    · have := hset (front ++ values.map sentSlot) (by simp [hfront])
      rw [List.map_append, hvalues, List.map_append, ← List.append_assoc, this, List.append_assoc]

theorem Encodes.length_eq {position : ℕ} {olds : List (Option (Option String))}
    {news : List (Option String)} {tokens : List (List Char)} {changed : List ℕ}
    (h : Encodes position olds news tokens changed) : olds.length = news.length := by
  induction h with
  | done => rfl
  | field _ _ ih => rw [List.length_cons, List.length_cons, ih]
  | same _ ih => rw [List.length_cons, List.length_cons, ih]
  | run _ _ _ ih => rw [List.length_append, List.length_append, List.length_map, ih]

theorem FieldToken.notMem_pipe {old : Option (Option String)} {new : Option String}
    {token : List Char} (h : FieldToken old new token) : '|' ∉ token := by
  cases h with
  | null => decide
  | empty => decide
  | literal _ hencodes _ => exact hencodes.notMem_pipe
  | diff _ _ _ _ _ _ hencodes =>
    simp only [List.mem_cons, not_or]
    exact ⟨by decide, (by decide), hencodes.notMem_pipe⟩

theorem Encodes.notMem_pipe {position : ℕ} {olds : List (Option (Option String))}
    {news : List (Option String)} {tokens : List (List Char)} {changed : List ℕ}
    (h : Encodes position olds news tokens changed) : ∀ token ∈ tokens, '|' ∉ token := by
  induction h with
  | done => exact nofun
  | field htoken _ ih => exact List.forall_mem_cons.mpr ⟨htoken.notMem_pipe, ih⟩
  | same _ ih => exact List.forall_mem_cons.mpr ⟨List.not_mem_nil, ih⟩
  | run _ hcount _ ih =>
    refine List.forall_mem_cons.mpr ⟨fun hmem => ?_, ih⟩
    rcases List.mem_cons.mp hmem with h | h
    · exact absurd h (by decide)
    · exact absurd (hcount.2.1 _ h) (by decide)

theorem Encodes.tokens_ne_nil {position : ℕ} {olds : List (Option (Option String))}
    {news : List (Option String)} {tokens : List (List Char)} {changed : List ℕ}
    (h : Encodes position olds news tokens changed) (hne : news ≠ []) : tokens ≠ [] := by
  cases h with
  | done => exact absurd rfl hne
  | field => exact List.cons_ne_nil _ _
  | same => exact List.cons_ne_nil _ _
  | run => exact List.cons_ne_nil _ _

/-- The value list is cut into the tokens it was made of. -/
theorem Encodes.splitOn_valueList {position : ℕ} {olds : List (Option (Option String))}
    {news : List (Option String)} {tokens : List (List Char)} {changed : List ℕ}
    (h : Encodes position olds news tokens changed) (hne : news ≠ []) :
    (valueList tokens).toList.splitOn '|' = tokens := by
  rw [valueList, String.toList_ofList,
    List.splitOn_intercalate _ h.notMem_pipe (h.tokens_ne_nil hne)]

/-- **Applying an encoded update** turns the state of the previous values into that of the new
ones, and reports the fields that were not sent as unchanged. -/
theorem apply_of_encodes {olds : List (Option (Option String))} {news : List (Option String)}
    {tokens : List (List Char)} {changed : List ℕ} (h : Encodes 0 olds news tokens changed)
    (hne : news ≠ []) (hmax : news.length ≤ usizeMax) :
    ItemState.apply ⟨olds.map slotOf⟩ (valueList tokens) =
      .ok (⟨news.map sentSlot⟩, ⟨changed⟩) := by
  have hcount : ItemState.fieldCount ⟨olds.map slotOf⟩ = news.length := by
    rw [ItemState.fieldCount, List.length_map, h.length_eq]
  obtain ⟨staged, hrun, hset⟩ :=
    @foldlM_applyToken ⟨olds.map slotOf⟩ ⟨0, [], []⟩ olds news tokens changed h rfl
      (by rwa [hcount])
  simp only [ItemState.apply, h.splitOn_valueList hne, hrun, bind, Except.bind]
  rw [if_neg (by simp [hcount])]
  simp only [ItemState.commit, List.nil_append]
  exact congrArg (fun fields => Except.ok (ItemState.mk fields, UpdateOutcome.mk changed))
    (hset [] rfl)

/-! ## Runs -/

/-- What a server holds for an activated subscription: for every item the values it last sent, if
it has sent any. -/
structure Held where
  fieldCount : ℕ
  items : List (Option (List (Option String)))

namespace Held

def activated (itemCount fieldCount : ℕ) : Held := ⟨fieldCount, List.replicate itemCount none⟩

/-- What was last sent for each field of an item. -/
def lastSent (held : Held) : Option (List (Option String)) → List (Option (Option String))
  | none => List.replicate held.fieldCount none
  | some values => values.map some

def record (held : Held) (index : ℕ) (values : List (Option String)) : Held :=
  { held with items := held.items.set index (some values) }

end Held

/-- One new state of an item, and the fields that were not sent as unchanged. -/
structure ItemChange where
  item : ℕ
  values : List (Option String)
  changed : List ℕ
  deriving DecidableEq

/-- A notification that says nothing about field values. -/
def isAside : Notification → Bool
  | .endOfSnapshot _ _ | .clearSnapshot _ _ | .overflow _ _ _ | .subscriptionReconfigured _ _ _ =>
    true
  | _ => false

/-- What a server that holds `held` may send for one subscription, and the item states it means.
It may announce the subscription anew, and then no field has been sent. -/
inductive Serves : Option Held → List Notification → List ItemChange → Prop
  | done {held : Option Held} : Serves held [] []
  | subscriptionOk {held : Option Held} {id itemCount fieldCount : ℕ} {ns : List Notification}
      {changes : List ItemChange} (hpos : 0 < fieldCount) (hmax : fieldCount ≤ usizeMax)
      (hrest : Serves (some (.activated itemCount fieldCount)) ns changes) :
      Serves held (.subscriptionOk id itemCount fieldCount :: ns) changes
  | subscriptionCommandOk {held : Option Held} {id itemCount fieldCount key command : ℕ}
      {ns : List Notification} {changes : List ItemChange}
      (hmax : fieldCount ≤ usizeMax) (hkey : 0 < key ∧ key ≤ fieldCount)
      (hcommand : 0 < command ∧ command ≤ fieldCount)
      (hrest : Serves (some (.activated itemCount fieldCount)) ns changes) :
      Serves held (.subscriptionCommandOk id itemCount fieldCount key command :: ns) changes
  | update {held : Held} {id index : ℕ} {item : Option (List (Option String))}
      {news : List (Option String)} {tokens : List (List Char)} {changed : List ℕ}
      {ns : List Notification} {changes : List ItemChange} (hitem : held.items[index]? = some item)
      (hencodes : Encodes 0 (held.lastSent item) news tokens changed)
      (hrest : Serves (some (held.record index news)) ns changes) :
      Serves (some held) (.update id (index + 1) (valueList tokens) :: ns)
        (⟨index, news, changed⟩ :: changes)
  | aside {held : Option Held} {n : Notification} {ns : List Notification}
      {changes : List ItemChange} (hn : isAside n = true) (hrest : Serves held ns changes) :
      Serves held (n :: ns) changes
  | unsubscribed {held : Option Held} {id : ℕ} {ns : List Notification}
      {changes : List ItemChange} (hrest : Serves none ns changes) :
      Serves held (.unsubscribed id :: ns) changes

def ItemUpdate.toItemChange (u : ItemUpdate) : ItemChange := ⟨u.item, u.values, u.changed⟩

namespace SubscriptionManager

/-- The update in an outcome. -/
def updateOf : Option SubscriptionOutcome → Option ItemUpdate
  | some (.ok (.update update)) => some update
  | _ => none

/-- The updates a manager publishes while it handles notifications. -/
def published (m : SubscriptionManager) : List Notification → List ItemUpdate
  | [] => []
  | n :: ns => (updateOf (m.handle n).1).toList ++ (m.handle n).2.published ns

theorem published_of_silent {m : SubscriptionManager} {n : Notification} {ns : List Notification}
    (hn : updateOf (m.handle n).1 = none) :
    m.published (n :: ns) = (m.handle n).2.published ns := by
  rw [published, hn]
  rfl

theorem published_of_update {m m' : SubscriptionManager} {n : Notification} {update : ItemUpdate}
    {ns : List Notification} (hn : m.handle n = (some (.ok (.update update)), m')) :
    m.published (n :: ns) = update :: m'.published ns := by
  rw [published, hn]
  rfl

end SubscriptionManager

/-- The item states of a manager are those of the values the server holds. -/
structure Synced (held : Held) (m : SubscriptionManager) (active : Active) : Prop where
  activation : m.activation = .active active
  pos : 0 < held.fieldCount
  max : held.fieldCount ≤ usizeMax
  length_eq : ∀ values, some values ∈ held.items → values.length = held.fieldCount
  states : active.items.map ItemTracker.state =
    held.items.map fun item => ⟨(held.lastSent item).map slotOf⟩

theorem length_lastSent {held : Held} {item : Option (List (Option String))}
    (hlength : ∀ values, item = some values → values.length = held.fieldCount) :
    (held.lastSent item).length = held.fieldCount := by
  cases item with
  | none => exact List.length_replicate
  | some values =>
    rw [Held.lastSent, List.length_map]
    exact hlength values rfl

/-- A fresh activation is in step with a server that has sent nothing. -/
theorem synced_activated {m : SubscriptionManager} {itemCount fieldCount : ℕ}
    {schema : SubscriptionSchema} (hpos : 0 < fieldCount) (hmax : fieldCount ≤ usizeMax)
    (hm : m.activation = .active ⟨schema, List.replicate itemCount (.new fieldCount)⟩) :
    Synced (.activated itemCount fieldCount) m
      ⟨schema, List.replicate itemCount (.new fieldCount)⟩ where
  activation := hm
  pos := hpos
  max := hmax
  length_eq := fun values hmem => by cases List.eq_of_mem_replicate hmem
  states := by
    simp only [Held.activated, List.map_replicate, Held.lastSent]
    rfl

theorem range_map_field (news : List (Option String)) :
    (List.range (ItemState.fieldCount ⟨news.map sentSlot⟩)).map
      (fun position => (ItemState.field ⟨news.map sentSlot⟩ position).join) = news := by
  refine List.ext_getElem (by simp [ItemState.fieldCount]) fun i h _ => ?_
  have hi : i < news.length := by simpa [ItemState.fieldCount] using h
  simp only [List.getElem_map, List.getElem_range, ItemState.field, List.getElem?_map,
    List.getElem?_eq_getElem hi, Option.map_some]
  cases news[i] <;> rfl

/-- **An update is published as the server meant it**, and leaves the manager in step. -/
theorem applyUpdate_of_synced {held : Held} {m : SubscriptionManager} {active : Active}
    {index : ℕ} {item : Option (List (Option String))} {news : List (Option String)}
    {tokens : List (List Char)} {changed : List ℕ} (h : Synced held m active)
    (hitem : held.items[index]? = some item)
    (hencodes : Encodes 0 (held.lastSent item) news tokens changed) :
    ∃ update m' active',
      m.applyUpdate (index + 1) (valueList tokens) = (.ok (.update update), m') ∧
        update.toItemChange = ⟨index, news, changed⟩ ∧
        Synced (held.record index news) m' active' := by
  obtain ⟨hactivation, hpos, hmax, hlength, hstates⟩ := h
  have hnews : news.length = held.fieldCount := by
    rw [← hencodes.length_eq, length_lastSent]
    rintro values rfl
    exact hlength values (List.mem_of_getElem? hitem)
  obtain ⟨hindex, -⟩ := List.getElem?_eq_some_iff.mp hitem
  have hitems : active.items.length = held.items.length := by
    have := congrArg List.length hstates
    simpa using this
  obtain ⟨tracker, htracker⟩ : ∃ tracker, active.items[index]? = some tracker :=
    ⟨_, List.getElem?_eq_getElem (by omega)⟩
  have hstate : tracker.state = ⟨(held.lastSent item).map slotOf⟩ := by
    have := congrArg (·[index]?) hstates
    simpa [htracker, hitem] using this
  have hposition : itemPosition active.items.length "U" (index + 1) = .ok index :=
    if_neg (by simp only [Nat.add_one_ne_zero, Nat.add_sub_cancel, false_or]; omega)
  have happly : tracker.state.apply (valueList tokens) = .ok (⟨news.map sentSlot⟩, ⟨changed⟩) := by
    rw [hstate]
    exact apply_of_encodes hencodes (List.ne_nil_of_length_pos (by omega)) (by omega)
  simp only [SubscriptionManager.applyUpdate, hactivation, hposition, htracker, happly,
    range_map_field]
  refine ⟨_, _, ⟨active.schema, _⟩, rfl, rfl, rfl, hpos, hmax, fun values hmem => ?_, ?_⟩
  · rcases List.mem_or_eq_of_mem_set hmem with hmem | heq
    · exact hlength values hmem
    · cases heq
      exact hnews
  · have hrecorded : (held.record index news).lastSent = held.lastSent := by
      funext item
      cases item <;> rfl
    have hsent : (held.lastSent (some news)).map slotOf = news.map sentSlot := by
      rw [Held.lastSent, List.map_map]
      rfl
    rw [List.map_set, hstates, hrecorded, Held.record, List.map_set, hsent]

/-- The flag of an item's snapshot does not touch its field values. -/
theorem synced_markEndOfSnapshot {held : Held} {m : SubscriptionManager} {active : Active}
    (h : Synced held m active) (index : ℕ) :
    ∃ active', Synced held (m.markEndOfSnapshot index) active' := by
  refine ⟨⟨active.schema, active.items.modify index fun tracker =>
    { tracker with endOfSnapshot := true }⟩, ?_, h.pos, h.max, h.length_eq, ?_⟩
  · simp only [SubscriptionManager.markEndOfSnapshot, h.activation]
  · rw [← h.states]
    refine List.ext_getElem? fun i => ?_
    rw [List.getElem?_map, List.getElem?_map, List.getElem?_modify]
    cases active.items[i]? with
    | none => rfl
    | some tracker =>
      by_cases hi : index = i
      · simp [hi]
      · simp [hi]

/-- A notification that says nothing about field values publishes nothing, and the manager stays in
step. -/
theorem handle_of_isAside {n : Notification} (hn : isAside n = true) (m : SubscriptionManager) :
    SubscriptionManager.updateOf (m.handle n).1 = none ∧
      ∀ {held active}, Synced held m active → ∃ active', Synced held (m.handle n).2 active' := by
  cases n with
  | endOfSnapshot id itemIndex =>
    rw [SubscriptionManager.handle]
    cases m.itemPosition "EOS" itemIndex with
    | error e => exact ⟨rfl, fun h => ⟨_, h⟩⟩
    | ok index => exact ⟨rfl, fun h => synced_markEndOfSnapshot h index⟩
  | clearSnapshot id itemIndex =>
    refine ⟨?_, fun h => ⟨_, h⟩⟩
    rw [SubscriptionManager.handle]
    cases m.itemPosition "CS" itemIndex <;> rfl
  | overflow id itemIndex droppedCount =>
    refine ⟨?_, fun h => ⟨_, h⟩⟩
    rw [SubscriptionManager.handle]
    cases m.itemPosition "OV" itemIndex <;> rfl
  | subscriptionReconfigured id maxFrequency filtering =>
    rw [SubscriptionManager.handle]
    cases m.activation <;> exact ⟨rfl, fun h => ⟨_, h⟩⟩
  | _ => cases hn

/-- Announcing a subscription starts its items over. -/
theorem activate_of_valid (m : SubscriptionManager) (itemCount : ℕ) {fieldCount : ℕ}
    {commandFields : Option (ℕ × ℕ)} (hpos : 0 < fieldCount) (hmax : fieldCount ≤ usizeMax)
    (hvalid : ∀ p ∈ commandFields, (0 < p.1 ∧ p.1 ≤ fieldCount) ∧ 0 < p.2 ∧ p.2 ≤ fieldCount) :
    SubscriptionManager.updateOf (some (m.activate itemCount fieldCount commandFields).1) = none ∧
      ∃ active, Synced (.activated itemCount fieldCount)
        (m.activate itemCount fieldCount commandFields).2 active := by
  cases commandFields with
  | none => exact ⟨rfl, _, synced_activated hpos hmax rfl⟩
  | some p =>
    obtain ⟨hkey, hcommand⟩ := hvalid p rfl
    have hposition : ∀ {role position}, (0 < position ∧ position ≤ fieldCount) →
        commandFieldPosition role position fieldCount = .ok (position - 1) :=
      fun h => if_neg (by omega)
    simp only [SubscriptionManager.activate, hposition hkey, hposition hcommand, bind, Except.bind]
    exact ⟨rfl, _, synced_activated hpos hmax rfl⟩

/-- The two positions of a `SUBCMD` lie in the schema. -/
theorem valid_commandFields {key command fieldCount : ℕ} (hkey : 0 < key ∧ key ≤ fieldCount)
    (hcommand : 0 < command ∧ command ≤ fieldCount) : ∀ p ∈ some (key, command),
      (0 < p.1 ∧ p.1 ≤ fieldCount) ∧ 0 < p.2 ∧ p.2 ≤ fieldCount := by
  rintro p ⟨⟩
  exact ⟨hkey, hcommand⟩

/-- **Update decoding follows the server.** Over any run of notifications that a server may send for
a subscription, the updates published carry its successive item states, with null apart from the
empty text, and mark as changed the fields that were not sent as unchanged. -/
theorem published_eq_of_serves (m : SubscriptionManager) {ns : List Notification}
    {changes : List ItemChange} (h : Serves none ns changes) :
    (m.published ns).map ItemUpdate.toItemChange = changes := by
  -- a subscription that the server holds no values for may be in any state
  suffices hrun : ∀ {held ns changes}, Serves held ns changes → ∀ m : SubscriptionManager,
      (∀ values ∈ held, ∃ active, Synced values m active) →
      (m.published ns).map ItemUpdate.toItemChange = changes from hrun h m nofun
  intro held ns changes h
  induction h with
  | done => exact fun _ _ => rfl
  | @subscriptionOk held id itemCount fieldCount ns changes hpos hmax _ ih =>
    intro m _
    have hvalid : ∀ p ∈ (none : Option (ℕ × ℕ)), (0 < p.1 ∧ p.1 ≤ fieldCount) ∧
        0 < p.2 ∧ p.2 ≤ fieldCount := nofun
    obtain ⟨hnone, active, hsynced⟩ := activate_of_valid m itemCount hpos hmax hvalid
    rw [show m.published (.subscriptionOk id itemCount fieldCount :: ns) = _ from
      SubscriptionManager.published_of_silent hnone]
    exact ih _ fun values hvalues => by
      cases hvalues
      exact ⟨active, hsynced⟩
  | @subscriptionCommandOk held id itemCount fieldCount key command ns changes hmax hkey hcommand
      _ ih =>
    intro m _
    obtain ⟨hnone, active, hsynced⟩ :=
      activate_of_valid m itemCount (by omega) hmax (valid_commandFields hkey hcommand)
    rw [show m.published (.subscriptionCommandOk id itemCount fieldCount key command :: ns) = _ from
      SubscriptionManager.published_of_silent hnone]
    exact ih _ fun values hvalues => by
      cases hvalues
      exact ⟨active, hsynced⟩
  | @update held id index item news tokens changed ns changes hitem hencodes _ ih =>
    intro m hsynced
    obtain ⟨active, hsynced⟩ := hsynced held rfl
    obtain ⟨update, m', active', happly, hupdate, hsynced⟩ :=
      applyUpdate_of_synced hsynced hitem hencodes
    have hhandle : m.handle (.update id (index + 1) (valueList tokens)) =
        (some (.ok (.update update)), m') := by
      rw [SubscriptionManager.handle, happly]
      rfl
    have hrest := ih m' fun values hvalues => by
      cases hvalues
      exact ⟨active', hsynced⟩
    rw [SubscriptionManager.published_of_update hhandle, List.map_cons, hupdate, hrest]
  | @aside held n ns changes hn _ ih =>
    intro m hsynced
    obtain ⟨hnone, hstays⟩ := handle_of_isAside hn m
    rw [SubscriptionManager.published_of_silent hnone]
    exact ih _ fun values hvalues => (hsynced values hvalues).elim fun _ h => hstays h
  | unsubscribed _ ih => exact fun m _ => ih _ nofun

/-- Two states of one item: a literal that needs an escape and an empty field, then a diff of the
first field after the snapshot was cleared, and then nothing but unchanged fields. -/
theorem published_eq_of_serves_diffed :
    ((SubscriptionManager.new .merge true ["item"] ["a", "b"]).published
      [.subscriptionOk 1 1 2, .update 1 1 "x%7cy|#", .clearSnapshot 1 1, .update 1 1 "^Tbbz|$",
        .update 1 1 "^2"]).map ItemUpdate.toItemChange =
      [⟨0, [some "x|y", none], [0, 1]⟩, ⟨0, [some "xz", some ""], [0, 1]⟩,
        ⟨0, [some "xz", some ""], []⟩] := by
  have hescape : EscapesBytes (String.utf8EncodeChar '|') ['%', '7', 'c'] :=
    .cons (h := 7) (l := 12) rfl rfl rfl .nil
  have hliteral : FieldToken none (some "x|y") ['x', '%', '7', 'c', 'y'] :=
    .literal (by decide) (.plain (c := 'x') rfl (.escaped hescape (.plain (c := 'y') rfl .nil)))
      (by decide)
  have hinteger : ∀ n : Fin 26, EncodesInteger n.val [Char.ofNat (97 + n.val)] :=
    fun n => ⟨[], n, rfl, by simp [capitalsValue]⟩
  have hreading : Sections .copy ['b', 'b', 'z'] [⟨['b'], .copy 1⟩, ⟨['b'], .add ['z']⟩] :=
    .cons (s := ⟨['b'], .copy 1⟩) rfl (hinteger 1)
      (.cons (s := ⟨['b'], .add ['z']⟩) rfl (hinteger 1) .done)
  have htlcp : TlcpDiff ['x', '|', 'y'] ['b', 'b', 'z'] ['x', 'z'] :=
    ⟨_, hreading, ⟨by decide, trivial⟩, ⟨by decide, trivial⟩, rfl⟩
  have hdiff : FieldToken (some (some "x|y")) (some "xz") ['^', 'T', 'b', 'b', 'z'] :=
    .diff rfl (by simp) (by simp) htlcp (by decide) (by decide)
      (.plain rfl (.plain rfl (.plain rfl .nil)))
  have hunchanged : Encodes 0 [some (some "xz"), some (some "")] [some "xz", some ""]
      [['^', '2']] [] := @Encodes.run 0 [some "xz", some ""] ['2'] [] [] [] [] (by decide)
        ⟨by decide, by simp, rfl⟩ .done
  have hserves : Serves none
      [.subscriptionOk 1 1 2, .update 1 1 (valueList [['x', '%', '7', 'c', 'y'], ['#']]),
        .clearSnapshot 1 1, .update 1 1 (valueList [['^', 'T', 'b', 'b', 'z'], ['$']]),
        .update 1 1 (valueList [['^', '2']])]
      [⟨0, [some "x|y", none], [0, 1]⟩, ⟨0, [some "xz", some ""], [0, 1]⟩,
        ⟨0, [some "xz", some ""], []⟩] :=
    .subscriptionOk (by decide) (by decide) (.update rfl (.field hliteral (.field .null .done))
      (.aside rfl (.update rfl (.field hdiff (.field .empty .done))
        (.update rfl hunchanged .done))))
  exact published_eq_of_serves _ hserves

end Lightstreamer.Subscription
