import Lightstreamer.Protocol.Encoding
import Lightstreamer.Protocol.Response
import Mathlib.Data.List.Forall2

/-!
# What a server prints for a notification

`Notification.Prints` is the format of the lines, from the server's side: the tag, then the
arguments behind commas, numbers in decimal, texts with their reserved characters escaped, the value
list of a `U` as it is. `Notification.Prints.parseLine_eq`: parsing gives the notification back.
-/

namespace Lightstreamer.Protocol

/-! ## Numbers -/

theorem isDigit_of_mem_repr {n : ℕ} {c : Char} (h : c ∈ n.repr.toList) : c.isDigit := by
  rw [Nat.toList_repr] at h
  exact Nat.isDigit_of_mem_toDigits (by decide) (by decide) h

theorem notMem_repr {c : Char} (hc : c.isDigit = false) (n : ℕ) : c ∉ n.repr.toList := fun hin => by
  rw [isDigit_of_mem_repr hin] at hc
  cases hc

theorem toList_negSucc (m : ℕ) :
    (toString (Int.negSucc m)).toList = '-' :: (m + 1).repr.toList := by
  change ("-" ++ (m + 1).repr).toList = _
  rw [String.toList_append]
  rfl

theorem notMem_toString {c : Char} (hc : c.isDigit = false) (hminus : c ≠ '-') (n : ℤ) :
    c ∉ (toString n).toList := by
  cases n with
  | ofNat m => exact notMem_repr hc m
  | negSucc m =>
    rw [toList_negSucc, List.mem_cons, not_or]
    exact ⟨hminus, notMem_repr hc _⟩

/-- A number starts with a digit. -/
theorem exists_cons_repr (n : ℕ) : ∃ c cs, n.repr.toList = c :: cs ∧ c ≠ '+' ∧ c ≠ '-' := by
  have hne : n.repr.toList ≠ [] := by
    rw [Nat.toList_repr]
    exact Nat.toDigits_ne_nil
  obtain ⟨c, cs, hcons⟩ := List.exists_cons_of_ne_nil hne
  have hdigit : c.isDigit := isDigit_of_mem_repr (hcons ▸ List.mem_cons_self)
  refine ⟨c, cs, hcons, ?_, ?_⟩ <;> rintro rfl <;> cases hdigit

theorem parseDigits_repr (n : ℕ) : parseDigits n.repr.toList = some n := by
  obtain ⟨c, cs, hcons, -⟩ := exists_cons_repr n
  refine parseDigits_eq_some_iff.2 ⟨?_, fun c hc => isDigit_of_mem_repr hc, ?_⟩
  · rw [hcons]
    exact List.cons_ne_nil c cs
  · rw [Nat.toList_repr, Nat.ofDigitChars_ten_toDigits]

theorem parseUnsigned_repr {max n : ℕ} (h : n ≤ max) :
    parseUnsigned max n.repr.toList = some n := by
  obtain ⟨c, cs, hcons, hplus, -⟩ := exists_cons_repr n
  have hparse := parseDigits_repr n
  unfold parseUnsigned
  rw [hcons] at hparse ⊢
  split
  · next heq =>
    cases heq
    exact absurd rfl hplus
  · dsimp only
    rw [hparse, Option.filter_some, if_pos (decide_eq_true h)]

theorem parseI64_toString {n : ℤ} (hlow : -2 ^ 63 ≤ n) (hhigh : n < 2 ^ 63) :
    parseI64 (toString n).toList = some n := by
  cases n with
  | ofNat m =>
    obtain ⟨c, cs, hcons, hplus, hminus⟩ := exists_cons_repr m
    have hparse := parseDigits_repr m
    have hm : m < 2 ^ 63 := by
      have : (m : ℤ) < 2 ^ 63 := hhigh
      omega
    change parseI64 m.repr.toList = _
    unfold parseI64
    rw [hcons] at hparse ⊢
    split
    · next heq =>
      cases heq
      exact absurd rfl hminus
    · next heq =>
      cases heq
      exact absurd rfl hplus
    · rw [hparse, Option.bind_some, if_pos hm]
      rfl
  | negSucc m =>
    have hm : m + 1 ≤ 2 ^ 63 := by
      rw [Int.negSucc_eq] at hlow
      omega
    rw [toList_negSucc, parseI64, parseDigits_repr, Option.bind_some, if_pos hm]
    rfl

/-! ## Arguments -/

/-- An argument, by how it is written. -/
inductive Argument
  | number (n : ℕ)
  | code (n : ℤ)
  | text (t : String)
  | raw (t : String)
  deriving DecidableEq

/-- A character that may stand as it is in a text argument: a comma only in the last one. -/
def isPlain (last : Bool) (c : Char) : Bool :=
  c ≠ '%' && c ≠ '\r' && c ≠ '\n' && (last || c ≠ ',')

/-- What may be written for an argument. -/
inductive Argument.Prints (last : Bool) : Argument → List Char → Prop
  | number (n : ℕ) : Prints last (.number n) n.repr.toList
  | code (n : ℤ) : Prints last (.code n) (toString n).toList
  | text {t : String} {out : List Char} (hout : Escapes (isPlain last) t.toList out) :
      Prints last (.text t) out
  | raw (t : String) : Prints last (.raw t) t.toList

/-- Arguments, each behind a comma. The raw text can only come last. -/
inductive PrintsAll : List Argument → List Char → Prop
  | nil : PrintsAll [] []
  | last {a : Argument} {out : List Char} (h : a.Prints true out) : PrintsAll [a] (',' :: out)
  | cons {a b : Argument} {rest : List Argument} {out more : List Char}
      (hraw : ∀ t, a ≠ .raw t) (h : a.Prints false out) (hrest : PrintsAll (b :: rest) more) :
      PrintsAll (a :: b :: rest) (',' :: (out ++ more))

namespace Argument.Prints

variable {last : Bool} {out : List Char}

/-- A comma stands in an argument only if it is the last one. -/
theorem comma_notMem {a : Argument} (h : a.Prints false out) (hraw : ∀ t, a ≠ .raw t) :
    ',' ∉ out := by
  cases h with
  | number n => exact notMem_repr (by decide) n
  | code n => exact notMem_toString (by decide) (by decide) n
  | text hout => exact hout.notMem (by decide) (by decide) (by decide)
  | raw t => exact absurd rfl (hraw t)

/-- No end of line stands in an argument, unless in a raw text that has one itself. -/
theorem chars {a : Argument} (h : a.Prints last out)
    (hraw : ∀ t, a = .raw t → '\r' ∉ t.toList ∧ '\n' ∉ t.toList) : '\r' ∉ out ∧ '\n' ∉ out := by
  cases h with
  | number n => exact ⟨notMem_repr (by decide) n, notMem_repr (by decide) n⟩
  | code n =>
    exact ⟨notMem_toString (by decide) (by decide) n, notMem_toString (by decide) (by decide) n⟩
  | text hout =>
    have hplain : ∀ c, c = '\r' ∨ c = '\n' → isPlain last c = false := by
      rintro c (rfl | rfl) <;> cases last <;> decide
    exact ⟨hout.notMem (hplain _ (.inl rfl)) (by decide) (by decide),
      hout.notMem (hplain _ (.inr rfl)) (by decide) (by decide)⟩
  | raw t => exact hraw t rfl

/-! Each kind of argument is read back, wherever it stands. -/

theorem number_eq {max n : ℕ} (h : (Argument.number n).Prints last out) (hn : n ≤ max)
    (tag name : String) : Protocol.number max tag name out = .ok n := by
  cases h
  rw [Protocol.number, parseUnsigned_repr hn]

theorem signedNumber_eq {n : ℤ} (h : (Argument.code n).Prints last out) (hlow : -2 ^ 63 ≤ n)
    (hhigh : n < 2 ^ 63) (tag name : String) : signedNumber tag name out = .ok n := by
  cases h
  rw [signedNumber, parseI64_toString hlow hhigh]

theorem decode_eq {t : String} (h : (Argument.text t).Prints last out) : decode out = .ok t := by
  cases h with
  | text hout =>
    have := hout.percentDecode_eq (by cases last <;> decide)
    rwa [String.ofList_toList] at this

theorem raw_eq {t : String} (h : (Argument.raw t).Prints last out) : String.ofList out = t := by
  cases h
  exact String.ofList_toList

end Argument.Prints

/-! ## Lines -/

theorem splitN_cons {piece : List Char} (h : ',' ∉ piece) (n : ℕ) (rest : List Char) :
    splitN ',' (n + 2) (piece ++ ',' :: rest) = piece :: splitN ',' (n + 1) rest := by
  rw [splitN, splitOnce_append rest h]

namespace PrintsAll

variable {args : List Argument} {out : List Char}

/-- The pieces between the commas are the arguments. -/
theorem splitN_eq (h : PrintsAll args out) (hne : args ≠ []) :
    ∃ rest pieces, out = ',' :: rest ∧ splitN ',' args.length rest = pieces ∧
      List.Forall₂ (fun a piece => ∃ last, a.Prints last piece) args pieces := by
  induction h with
  | nil => exact absurd rfl hne
  | @last a out h => exact ⟨out, [out], rfl, rfl, .cons ⟨true, h⟩ .nil⟩
  | @cons a b args out more hraw h _ ih =>
    obtain ⟨rest, pieces, hmore, hsplit, hpieces⟩ := ih (List.cons_ne_nil _ _)
    refine ⟨out ++ more, out :: pieces, rfl, ?_, .cons ⟨false, h⟩ hpieces⟩
    rw [hmore]
    exact (splitN_cons (h.comma_notMem hraw) _ _).trans (congrArg _ hsplit)

theorem chars (h : PrintsAll args out)
    (hraw : ∀ t, .raw t ∈ args → '\r' ∉ t.toList ∧ '\n' ∉ t.toList) : '\r' ∉ out ∧ '\n' ∉ out := by
  induction h with
  | nil => exact ⟨List.not_mem_nil, List.not_mem_nil⟩
  | last h =>
    have := h.chars fun t ht => hraw t (ht ▸ List.mem_cons_self)
    exact ⟨by simpa using this.1, by simpa using this.2⟩
  | cons _ h _ ih =>
    have hout := h.chars fun t ht => hraw t (ht ▸ List.mem_cons_self)
    have hmore := ih fun t ht => hraw t (List.mem_cons_of_mem _ ht)
    exact ⟨by simp [hout.1, hmore.1], by simp [hout.2, hmore.2]⟩

/-- The fixed split gives one printed piece for each argument. -/
theorem splitFixed_eq (h : PrintsAll args out) {n : ℕ} (hn : args.length = n + 1) (tag : String) :
    ∃ rest, out = ',' :: rest ∧ ∃ f, splitFixed (n + 1) tag (some rest) = .ok f ∧
      ∀ i : Fin (n + 1), ∃ last, (args.get (i.cast hn.symm)).Prints last (f i) := by
  have hne : args ≠ [] := fun hnil => by
    rw [hnil] at hn
    cases hn
  obtain ⟨rest, pieces, hout, hsplit, hpieces⟩ := h.splitN_eq hne
  rw [hn] at hsplit
  have hlength : (splitN ',' (n + 1) rest).length = n + 1 := by
    rw [hsplit, ← hpieces.length_eq, hn]
  refine ⟨rest, hout, _, by rw [splitFixed, if_neg (Nat.succ_ne_zero n), dif_pos hlength], ?_⟩
  intro i
  subst hsplit
  exact hpieces.get _ _

end PrintsAll

theorem stripTerminator_of_notMem {line : List Char} (hcr : '\r' ∉ line) (hlf : '\n' ∉ line) :
    stripTerminator line = line := by
  unfold stripTerminator
  have hmem : ∀ {c : Char} {cs : List Char}, line.reverse = c :: cs → c ∈ line := fun h =>
    List.mem_reverse.1 (h ▸ List.mem_cons_self)
  split
  · next h => exact absurd (hmem h) hlf
  · next h => exact absurd (hmem h) hlf
  · next h => exact absurd (hmem h) hcr
  · rfl

/-! ## Notifications -/

def MaxFrequency.text : MaxFrequency → String
  | .limited updatesPerSecond => updatesPerSecond
  | .unlimited => "unlimited"
  | .unrecognized literal => literal

def FilteringMode.text : FilteringMode → String
  | .filtered => "filtered"
  | .unfiltered => "unfiltered"
  | .unrecognized literal => literal

def Bandwidth.text : Bandwidth → String
  | .limited kbps => kbps
  | .unlimited => "unlimited"
  | .unmanaged => "unmanaged"
  | .unrecognized literal => literal

def MessageSequence.text : MessageSequence → String
  | .unspecified => "*"
  | .named name => name

/-- The tag of a line. -/
def Notification.tag : Notification → String
  | update .. => "U"
  | subscriptionOk .. => "SUBOK"
  | subscriptionCommandOk .. => "SUBCMD"
  | unsubscribed .. => "UNSUB"
  | endOfSnapshot .. => "EOS"
  | clearSnapshot .. => "CS"
  | overflow .. => "OV"
  | subscriptionReconfigured .. => "CONF"
  | messageDone .. => "MSGDONE"
  | messageFailed .. => "MSGFAIL"
  | constraintsChanged .. => "CONS"
  | sync .. => "SYNC"
  | clientIp .. => "CLIENTIP"
  | serverName .. => "SERVNAME"
  | progressive .. => "PROG"
  | noOp .. => "NOOP"
  | probe => "PROBE"
  | loop .. => "LOOP"
  | .end .. => "END"
  | connectionOk .. => "CONOK"
  | connectionError .. => "CONERR"
  | requestOk .. => "REQOK"
  | requestError .. => "REQERR"
  | error .. => "ERROR"
  | wsOk => "WSOK"

/-- The arguments of a line, in order. -/
def Notification.arguments : Notification → List Argument
  | update subscriptionId itemIndex rawValues =>
    [.number subscriptionId, .number itemIndex, .raw rawValues]
  | subscriptionOk subscriptionId itemCount fieldCount =>
    [.number subscriptionId, .number itemCount, .number fieldCount]
  | subscriptionCommandOk subscriptionId itemCount fieldCount keyFieldIndex commandFieldIndex =>
    [.number subscriptionId, .number itemCount, .number fieldCount, .number keyFieldIndex,
      .number commandFieldIndex]
  | unsubscribed subscriptionId => [.number subscriptionId]
  | endOfSnapshot subscriptionId itemIndex => [.number subscriptionId, .number itemIndex]
  | clearSnapshot subscriptionId itemIndex => [.number subscriptionId, .number itemIndex]
  | overflow subscriptionId itemIndex droppedCount =>
    [.number subscriptionId, .number itemIndex, .number droppedCount]
  | subscriptionReconfigured subscriptionId maxFrequency filtering =>
    [.number subscriptionId, .text maxFrequency.text, .text filtering.text]
  | messageDone sequence prog response => [.text sequence.text, .number prog, .text response]
  | messageFailed sequence prog code message =>
    [.text sequence.text, .number prog, .code code, .text message]
  | constraintsChanged bandwidth => [.text bandwidth.text]
  | sync elapsedSeconds => [.number elapsedSeconds]
  | clientIp address => [.text address]
  | serverName name => [.text name]
  | progressive position => [.number position]
  | noOp preamble => [.text preamble]
  | probe => []
  | loop expectedDelayMillis => [.number expectedDelayMillis]
  | .end causeCode causeMessage => [.code causeCode, .text causeMessage]
  | connectionOk sessionId requestLimitBytes keepAliveMillis controlLink =>
    [.text sessionId, .number requestLimitBytes, .number keepAliveMillis,
      .text (controlLink.getD "*")]
  | connectionError code message => [.code code, .text message]
  | requestOk requestId => (requestId.map Argument.text).toList
  | requestError requestId code message => [.text requestId, .code code, .text message]
  | error code message => [.code code, .text message]
  | wsOk => []

/-- What may be printed for a notification. -/
def Notification.Prints (n : Notification) (line : String) : Prop :=
  ∃ out, PrintsAll n.arguments out ∧ line.toList = n.tag.toList ++ out

/-- A frequency is stored under the alternative that its text names. -/
def MaxFrequency.Proper : MaxFrequency → Prop
  | .limited updatesPerSecond => isDecimalNumber updatesPerSecond
  | .unlimited => True
  | .unrecognized literal => literal ≠ "unlimited" ∧ isDecimalNumber literal = false

def FilteringMode.Proper : FilteringMode → Prop
  | .unrecognized literal => literal ≠ "filtered" ∧ literal ≠ "unfiltered"
  | _ => True

def Bandwidth.Proper : Bandwidth → Prop
  | .limited kbps => isDecimalNumber kbps
  | .unlimited => True
  | .unmanaged => True
  | .unrecognized literal =>
    literal ≠ "unlimited" ∧ literal ≠ "unmanaged" ∧ isDecimalNumber literal = false

/-- The format cannot express a sequence named `*`. -/
def MessageSequence.Proper (sequence : MessageSequence) : Prop := sequence ≠ .named "*"

/-- The codes that fit `i64`. -/
def IsI64 (n : ℤ) : Prop := -2 ^ 63 ≤ n ∧ n < 2 ^ 63

/-- What the format can express, with the numbers in range. -/
def Notification.Expressible : Notification → Prop
  | update subscriptionId itemIndex rawValues => subscriptionId ≤ u32Max ∧ itemIndex ≤ u32Max ∧
      '\r' ∉ rawValues.toList ∧ '\n' ∉ rawValues.toList
  | subscriptionOk subscriptionId itemCount fieldCount =>
    subscriptionId ≤ u32Max ∧ itemCount ≤ u32Max ∧ fieldCount ≤ u32Max
  | subscriptionCommandOk subscriptionId itemCount fieldCount keyFieldIndex commandFieldIndex =>
    subscriptionId ≤ u32Max ∧ itemCount ≤ u32Max ∧ fieldCount ≤ u32Max ∧
      keyFieldIndex ≤ u32Max ∧ commandFieldIndex ≤ u32Max
  | unsubscribed subscriptionId => subscriptionId ≤ u32Max
  | endOfSnapshot subscriptionId itemIndex => subscriptionId ≤ u32Max ∧ itemIndex ≤ u32Max
  | clearSnapshot subscriptionId itemIndex => subscriptionId ≤ u32Max ∧ itemIndex ≤ u32Max
  | overflow subscriptionId itemIndex droppedCount =>
    subscriptionId ≤ u32Max ∧ itemIndex ≤ u32Max ∧ droppedCount ≤ u64Max
  | subscriptionReconfigured subscriptionId maxFrequency filtering =>
    subscriptionId ≤ u32Max ∧ maxFrequency.Proper ∧ filtering.Proper
  | messageDone sequence prog _ => sequence.Proper ∧ prog ≤ u64Max
  | messageFailed sequence prog code _ => sequence.Proper ∧ prog ≤ u64Max ∧ IsI64 code
  | constraintsChanged bandwidth => bandwidth.Proper
  | sync elapsedSeconds => elapsedSeconds ≤ u64Max
  | progressive position => position ≤ u64Max
  | loop expectedDelayMillis => expectedDelayMillis ≤ u64Max
  | .end causeCode _ => IsI64 causeCode
  | connectionOk _ requestLimitBytes keepAliveMillis controlLink =>
    requestLimitBytes ≤ u64Max ∧ keepAliveMillis ≤ u64Max ∧ controlLink ≠ some "*"
  | connectionError code _ => IsI64 code
  | requestError _ code _ => IsI64 code
  | error code _ => IsI64 code
  | clientIp _ | serverName _ | noOp _ | probe | requestOk _ | wsOk => True

/-! ## Parsing undoes printing -/

theorem parseMaxFrequency_text {f : MaxFrequency} (h : f.Proper) :
    parseMaxFrequency f.text = f := by
  cases f with
  | limited updatesPerSecond =>
    have h : isDecimalNumber updatesPerSecond = true := h
    have hne : updatesPerSecond ≠ "unlimited" := fun heq => by
      subst heq
      exact absurd h (by decide)
    rw [MaxFrequency.text, parseMaxFrequency, if_neg hne, if_pos h]
  | unlimited => rfl
  | unrecognized literal =>
    rw [MaxFrequency.text, parseMaxFrequency, if_neg h.1, h.2]
    rfl

theorem parseFiltering_text {m : FilteringMode} (h : m.Proper) : parseFiltering m.text = m := by
  cases m with
  | filtered => rfl
  | unfiltered => rfl
  | unrecognized literal => rw [FilteringMode.text, parseFiltering, if_neg h.1, if_neg h.2]

theorem parseBandwidth_text {b : Bandwidth} (h : b.Proper) : parseBandwidth b.text = b := by
  cases b with
  | limited kbps =>
    have h : isDecimalNumber kbps = true := h
    have hne : ∀ t, isDecimalNumber t = false → kbps ≠ t := fun t ht heq => by
      subst heq
      exact absurd (h.symm.trans ht) (by decide)
    rw [Bandwidth.text, parseBandwidth, if_neg (hne _ (by decide)), if_neg (hne _ (by decide)),
      if_pos h]
  | unlimited => rfl
  | unmanaged => rfl
  | unrecognized literal =>
    rw [Bandwidth.text, parseBandwidth, if_neg h.1, if_neg h.2.1, h.2.2]
    rfl

theorem parseSequence_text {sequence : MessageSequence} (h : sequence.Proper) :
    parseSequence sequence.text = sequence := by
  cases sequence with
  | unspecified => rfl
  | named name =>
    have hne : name ≠ "*" := fun heq => h (heq ▸ rfl)
    rw [MessageSequence.text, parseSequence, if_neg hne]

namespace Notification

variable {n : Notification} {line : String}

theorem tag_notMem (n : Notification) {c : Char} (hc : c = ',' ∨ c = '\r' ∨ c = '\n') :
    c ∉ n.tag.toList := by
  rcases hc with rfl | rfl | rfl <;> cases n <;> simp [tag]

/-- Nothing is stripped off a printed line. -/
theorem Prints.stripTerminator_eq (h : n.Prints line) (hn : n.Expressible) :
    ∃ out, PrintsAll n.arguments out ∧
      stripTerminator line.toList = n.tag.toList ++ out := by
  obtain ⟨out, hout, hline⟩ := h
  have hraw : ∀ t, .raw t ∈ n.arguments → '\r' ∉ t.toList ∧ '\n' ∉ t.toList := by
    intro t ht
    cases n with
    | update subscriptionId itemIndex rawValues =>
      have : t = rawValues := by simpa [arguments] using ht
      subst this
      exact hn.2.2
    | requestOk requestId => cases requestId <;> simp [arguments] at ht
    | _ => simp [arguments] at ht
  obtain ⟨hcr, hlf⟩ := hout.chars hraw
  refine ⟨out, hout, ?_⟩
  rw [hline, stripTerminator_of_notMem]
  · rw [List.mem_append, not_or]
    exact ⟨n.tag_notMem (.inr (.inl rfl)), hcr⟩
  · rw [List.mem_append, not_or]
    exact ⟨n.tag_notMem (.inr (.inr rfl)), hlf⟩

/-- What the parser has in hand when it comes to the tag of a line with arguments. -/
theorem Prints.read (h : n.Prints line) (hn : n.Expressible) (tag : String) (htag : n.tag = tag)
    (k : ℕ) (hk : n.arguments.length = k + 1) :
    ∃ rest, stripTerminator line.toList = tag.toList ++ ',' :: rest ∧
      splitOnce ',' (tag.toList ++ ',' :: rest) = some (tag.toList, rest) ∧
      ∃ f, splitFixed (k + 1) tag (some rest) = .ok f ∧
        ∀ i : Fin (k + 1), ∃ last, (n.arguments.get (i.cast hk.symm)).Prints last (f i) := by
  subst htag
  obtain ⟨out, hout, hline⟩ := h.stripTerminator_eq hn
  obtain ⟨rest, rfl, f, hf, hread⟩ := hout.splitFixed_eq hk n.tag
  exact ⟨rest, hline, splitOnce_append rest (n.tag_notMem (.inl rfl)), f, hf, hread⟩

/-- A tag that comes alone has no comma behind it. -/
theorem Prints.read_bare (h : n.Prints line) (hn : n.Expressible) (tag : String)
    (htag : n.tag = tag) (hnil : n.arguments = []) :
    stripTerminator line.toList = tag.toList ∧ splitOnce ',' tag.toList = none := by
  subst htag
  obtain ⟨out, hout, hline⟩ := h.stripTerminator_eq hn
  rw [hnil] at hout
  cases hout
  rw [List.append_nil] at hline
  exact ⟨hline, splitOnce_of_notMem (n.tag_notMem (.inl rfl))⟩

/-- **Parsing undoes printing**, whichever characters the server chose to escape. -/
theorem Prints.parseLine_eq (h : n.Prints line) (hn : n.Expressible) : parseLine line = .ok n := by
  cases n with
  | update subscriptionId itemIndex rawValues =>
    obtain ⟨rest, hline, hsplit, f, hf, hread⟩ := h.read hn "U" rfl 2 rfl
    obtain ⟨_, h0⟩ := hread 0
    obtain ⟨_, h1⟩ := hread 1
    obtain ⟨_, h2⟩ := hread 2
    simp only [parseLine, hline, hsplit, String.ofList_toList, hf, h0.number_eq hn.1, h1.number_eq
      hn.2.1, h2.raw_eq, bind, Except.bind, pure, Except.pure]
  | subscriptionOk subscriptionId itemCount fieldCount =>
    obtain ⟨rest, hline, hsplit, f, hf, hread⟩ := h.read hn "SUBOK" rfl 2 rfl
    obtain ⟨_, h0⟩ := hread 0
    obtain ⟨_, h1⟩ := hread 1
    obtain ⟨_, h2⟩ := hread 2
    simp only [parseLine, hline, hsplit, String.ofList_toList, hf, h0.number_eq hn.1, h1.number_eq
      hn.2.1, h2.number_eq hn.2.2, bind, Except.bind, pure, Except.pure]
  | subscriptionCommandOk subscriptionId itemCount fieldCount keyFieldIndex commandFieldIndex =>
    obtain ⟨rest, hline, hsplit, f, hf, hread⟩ := h.read hn "SUBCMD" rfl 4 rfl
    obtain ⟨_, h0⟩ := hread 0
    obtain ⟨_, h1⟩ := hread 1
    obtain ⟨_, h2⟩ := hread 2
    obtain ⟨_, h3⟩ := hread 3
    obtain ⟨_, h4⟩ := hread 4
    simp only [parseLine, hline, hsplit, String.ofList_toList, hf, h0.number_eq hn.1, h1.number_eq
      hn.2.1, h2.number_eq hn.2.2.1, h3.number_eq hn.2.2.2.1, h4.number_eq hn.2.2.2.2, bind,
      Except.bind, pure, Except.pure]
  | unsubscribed subscriptionId =>
    obtain ⟨rest, hline, hsplit, f, hf, hread⟩ := h.read hn "UNSUB" rfl 0 rfl
    obtain ⟨_, h0⟩ := hread 0
    simp only [parseLine, hline, hsplit, String.ofList_toList, hf, h0.number_eq hn, bind,
      Except.bind, pure, Except.pure]
  | endOfSnapshot subscriptionId itemIndex =>
    obtain ⟨rest, hline, hsplit, f, hf, hread⟩ := h.read hn "EOS" rfl 1 rfl
    obtain ⟨_, h0⟩ := hread 0
    obtain ⟨_, h1⟩ := hread 1
    simp only [parseLine, hline, hsplit, String.ofList_toList, hf, h0.number_eq hn.1, h1.number_eq
      hn.2, bind, Except.bind, pure, Except.pure]
  | clearSnapshot subscriptionId itemIndex =>
    obtain ⟨rest, hline, hsplit, f, hf, hread⟩ := h.read hn "CS" rfl 1 rfl
    obtain ⟨_, h0⟩ := hread 0
    obtain ⟨_, h1⟩ := hread 1
    simp only [parseLine, hline, hsplit, String.ofList_toList, hf, h0.number_eq hn.1, h1.number_eq
      hn.2, bind, Except.bind, pure, Except.pure]
  | overflow subscriptionId itemIndex droppedCount =>
    obtain ⟨rest, hline, hsplit, f, hf, hread⟩ := h.read hn "OV" rfl 2 rfl
    obtain ⟨_, h0⟩ := hread 0
    obtain ⟨_, h1⟩ := hread 1
    obtain ⟨_, h2⟩ := hread 2
    simp only [parseLine, hline, hsplit, String.ofList_toList, hf, h0.number_eq hn.1, h1.number_eq
      hn.2.1, h2.number_eq hn.2.2, bind, Except.bind, pure, Except.pure]
  | subscriptionReconfigured subscriptionId maxFrequency filtering =>
    obtain ⟨rest, hline, hsplit, f, hf, hread⟩ := h.read hn "CONF" rfl 2 rfl
    obtain ⟨_, h0⟩ := hread 0
    obtain ⟨_, h1⟩ := hread 1
    obtain ⟨_, h2⟩ := hread 2
    simp only [parseLine, hline, hsplit, String.ofList_toList, hf, h0.number_eq hn.1, h1.decode_eq,
      h2.decode_eq, parseMaxFrequency_text hn.2.1, parseFiltering_text hn.2.2, bind, Except.bind,
      pure, Except.pure]
  | messageDone sequence prog response =>
    obtain ⟨rest, hline, hsplit, f, hf, hread⟩ := h.read hn "MSGDONE" rfl 2 rfl
    obtain ⟨_, h0⟩ := hread 0
    obtain ⟨_, h1⟩ := hread 1
    obtain ⟨_, h2⟩ := hread 2
    simp only [parseLine, hline, hsplit, String.ofList_toList, hf, h0.decode_eq, h1.number_eq hn.2,
      h2.decode_eq, parseSequence_text hn.1, bind, Except.bind, pure, Except.pure]
  | messageFailed sequence prog code message =>
    obtain ⟨rest, hline, hsplit, f, hf, hread⟩ := h.read hn "MSGFAIL" rfl 3 rfl
    obtain ⟨_, h0⟩ := hread 0
    obtain ⟨_, h1⟩ := hread 1
    obtain ⟨_, h2⟩ := hread 2
    obtain ⟨_, h3⟩ := hread 3
    simp only [parseLine, hline, hsplit, String.ofList_toList, hf, h0.decode_eq, h1.number_eq
      hn.2.1, h2.signedNumber_eq hn.2.2.1 hn.2.2.2, h3.decode_eq, parseSequence_text hn.1, bind,
      Except.bind, pure, Except.pure]
  | constraintsChanged bandwidth =>
    obtain ⟨rest, hline, hsplit, f, hf, hread⟩ := h.read hn "CONS" rfl 0 rfl
    obtain ⟨_, h0⟩ := hread 0
    simp only [parseLine, hline, hsplit, String.ofList_toList, hf, h0.decode_eq, parseBandwidth_text
      hn, bind, Except.bind, pure, Except.pure]
  | sync elapsedSeconds =>
    obtain ⟨rest, hline, hsplit, f, hf, hread⟩ := h.read hn "SYNC" rfl 0 rfl
    obtain ⟨_, h0⟩ := hread 0
    simp only [parseLine, hline, hsplit, String.ofList_toList, hf, h0.number_eq hn, bind,
      Except.bind, pure, Except.pure]
  | clientIp address =>
    obtain ⟨rest, hline, hsplit, f, hf, hread⟩ := h.read hn "CLIENTIP" rfl 0 rfl
    obtain ⟨_, h0⟩ := hread 0
    simp only [parseLine, hline, hsplit, String.ofList_toList, hf, h0.decode_eq, bind, Except.bind,
      pure, Except.pure]
  | serverName name =>
    obtain ⟨rest, hline, hsplit, f, hf, hread⟩ := h.read hn "SERVNAME" rfl 0 rfl
    obtain ⟨_, h0⟩ := hread 0
    simp only [parseLine, hline, hsplit, String.ofList_toList, hf, h0.decode_eq, bind, Except.bind,
      pure, Except.pure]
  | progressive position =>
    obtain ⟨rest, hline, hsplit, f, hf, hread⟩ := h.read hn "PROG" rfl 0 rfl
    obtain ⟨_, h0⟩ := hread 0
    simp only [parseLine, hline, hsplit, String.ofList_toList, hf, h0.number_eq hn, bind,
      Except.bind, pure, Except.pure]
  | noOp preamble =>
    obtain ⟨rest, hline, hsplit, f, hf, hread⟩ := h.read hn "NOOP" rfl 0 rfl
    obtain ⟨_, h0⟩ := hread 0
    simp only [parseLine, hline, hsplit, String.ofList_toList, hf, h0.decode_eq, bind, Except.bind,
      pure, Except.pure]
  | loop expectedDelayMillis =>
    obtain ⟨rest, hline, hsplit, f, hf, hread⟩ := h.read hn "LOOP" rfl 0 rfl
    obtain ⟨_, h0⟩ := hread 0
    simp only [parseLine, hline, hsplit, String.ofList_toList, hf, h0.number_eq hn, bind,
      Except.bind, pure, Except.pure]
  | «end» causeCode causeMessage =>
    obtain ⟨rest, hline, hsplit, f, hf, hread⟩ := h.read hn "END" rfl 1 rfl
    obtain ⟨_, h0⟩ := hread 0
    obtain ⟨_, h1⟩ := hread 1
    simp only [parseLine, hline, hsplit, String.ofList_toList, hf, h0.signedNumber_eq hn.1 hn.2,
      h1.decode_eq, bind, Except.bind, pure, Except.pure]
  | connectionError code message =>
    obtain ⟨rest, hline, hsplit, f, hf, hread⟩ := h.read hn "CONERR" rfl 1 rfl
    obtain ⟨_, h0⟩ := hread 0
    obtain ⟨_, h1⟩ := hread 1
    simp only [parseLine, hline, hsplit, String.ofList_toList, hf, h0.signedNumber_eq hn.1 hn.2,
      h1.decode_eq, bind, Except.bind, pure, Except.pure]
  | requestError requestId code message =>
    obtain ⟨rest, hline, hsplit, f, hf, hread⟩ := h.read hn "REQERR" rfl 2 rfl
    obtain ⟨_, h0⟩ := hread 0
    obtain ⟨_, h1⟩ := hread 1
    obtain ⟨_, h2⟩ := hread 2
    simp only [parseLine, hline, hsplit, String.ofList_toList, hf, h0.decode_eq, h1.signedNumber_eq
      hn.1 hn.2, h2.decode_eq, bind, Except.bind, pure, Except.pure]
  | error code message =>
    obtain ⟨rest, hline, hsplit, f, hf, hread⟩ := h.read hn "ERROR" rfl 1 rfl
    obtain ⟨_, h0⟩ := hread 0
    obtain ⟨_, h1⟩ := hread 1
    simp only [parseLine, hline, hsplit, String.ofList_toList, hf, h0.signedNumber_eq hn.1 hn.2,
      h1.decode_eq, bind, Except.bind, pure, Except.pure]
  | connectionOk sessionId requestLimitBytes keepAliveMillis controlLink =>
    obtain ⟨rest, hline, hsplit, f, hf, hread⟩ := h.read hn "CONOK" rfl 3 rfl
    obtain ⟨_, h0⟩ := hread 0
    obtain ⟨_, h1⟩ := hread 1
    obtain ⟨_, h2⟩ := hread 2
    obtain ⟨_, h3⟩ := hread 3
    have hlink : (if controlLink.getD "*" = "*" then none else some (controlLink.getD "*")) =
        controlLink := by
      cases controlLink with
      | none => rfl
      | some link => exact if_neg fun heq => hn.2.2 (congrArg some heq)
    simp only [parseLine, hline, hsplit, String.ofList_toList, hf, h0.decode_eq,
      h1.number_eq hn.1, h2.number_eq hn.2.1, h3.decode_eq, hlink, bind, Except.bind, pure,
      Except.pure]
  | requestOk requestId =>
    cases requestId with
    | some requestId =>
      obtain ⟨rest, hline, hsplit, f, hf, hread⟩ := h.read hn "REQOK" rfl 0 rfl
      obtain ⟨_, h0⟩ := hread 0
      simp only [parseLine, hline, hsplit, String.ofList_toList, hf, h0.decode_eq, bind,
        Except.bind, pure, Except.pure]
    | none =>
      obtain ⟨hline, hsplit⟩ := h.read_bare hn "REQOK" rfl rfl
      simp only [parseLine, hline, hsplit, String.ofList_toList]
  | probe =>
    obtain ⟨hline, hsplit⟩ := h.read_bare hn "PROBE" rfl rfl
    simp only [parseLine, hline, hsplit, String.ofList_toList]
    rfl
  | wsOk =>
    obtain ⟨hline, hsplit⟩ := h.read_bare hn "WSOK" rfl rfl
    simp only [parseLine, hline, hsplit, String.ofList_toList]
    rfl

/-- A sequence with a comma, which is escaped there, and a message with one, which is not. -/
theorem Prints.parseLine_eq_failed :
    parseLine "MSGFAIL,a%2cb,7,-5,100%25, late" =
      .ok (.messageFailed (.named "a,b") 7 (-5) "100%, late") := by
  have hsequence : Escapes (isPlain false) "a,b".toList "a%2cb".toList :=
    .plain rfl (@Escapes.escaped _ ',' _ "%2c".toList _
      (@EscapesBytes.cons _ _ '2' 'c' 2 12 _ rfl rfl rfl .nil) (.plain rfl .nil))
  have hmessage : Escapes (isPlain true) "100%, late".toList "100%25, late".toList :=
    .plain rfl (.plain rfl (.plain rfl (@Escapes.escaped _ '%' _ "%25".toList _
      (@EscapesBytes.cons _ _ '2' '5' 2 5 _ rfl rfl rfl .nil)
      (.plain rfl (.plain rfl (.plain rfl (.plain rfl (.plain rfl (.plain rfl .nil)))))))))
  have hprints : (messageFailed (.named "a,b") 7 (-5) "100%, late").Prints
      "MSGFAIL,a%2cb,7,-5,100%25, late" :=
    ⟨_, .cons (by simp) (.text hsequence) (.cons (by simp) (.number 7)
      (.cons (by simp) (.code (-5)) (.last (.text hmessage)))), rfl⟩
  exact Prints.parseLine_eq hprints ⟨by simp [MessageSequence.Proper], by decide, by decide,
    by decide⟩

end Notification

end Lightstreamer.Protocol
