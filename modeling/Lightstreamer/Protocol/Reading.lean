import Lightstreamer.Protocol.Encoding
import Lightstreamer.Protocol.Request

/-!
# What the server reads in a parameter line

`readParameters` is the server's reading of a line: parts separated by `&`, each a name and a
percent-encoded value. `Writes` follows a line through its builders, together with the parameters
that it is meant to carry and the names that may occur; each encoder is one chain of its lemmas.
-/

namespace Lightstreamer.Protocol

/-! ## Reading -/

/-- The name and the value of one part. -/
def readPart (part : List Char) : Except ProtocolError (String × String) :=
  match splitOnce '=' part with
  | none => .error (.argumentCount (String.ofList part) 2 1)
  | some (name, value) => do return (String.ofList name, ← percentDecode (String.ofList value))

/-- The parameters of a line. -/
def readParameters (line : String) : Except ProtocolError (List (String × String)) :=
  if line.isEmpty then .ok [] else (line.toList.splitOn '&').mapM readPart

/-- The pieces of a text between its CR LFs. -/
def splitCrlf : List Char → List (List Char)
  | [] => [[]]
  | '\r' :: '\n' :: rest => [] :: splitCrlf rest
  | c :: rest => (splitCrlf rest).modifyHead (c :: ·)

/-- The lines of a batch. -/
def splitLines (batch : String) : List String := (splitCrlf batch.toList).map String.ofList

/-! ## Values -/

/-- A character that neither ends a part nor a line. -/
def isPartChar (c : Char) : Bool := c ≠ '&' && c ≠ '\r' && c ≠ '\n'

/-- A text on the wire carries a value. -/
structure Carries (wire value : String) : Prop where
  chars : ∀ c ∈ wire.toList, isPartChar c
  decodes : percentDecode wire = .ok value

/-- A text without reserved characters carries itself. -/
theorem carries_self {value : String} (h : ∀ c ∈ value.toList, isPartChar c ∧ c ≠ '%') :
    Carries value value := by
  refine ⟨fun c hc => (h c hc).1, ?_⟩
  have hpercent : percent ∉ utf8Bytes value.toList := by
    rw [utf8Bytes, List.mem_flatMap]
    rintro ⟨c, hc, hbyte⟩
    exact ne_percent_of_mem_utf8EncodeChar (h c hc).2 _ hbyte rfl
  rw [percentDecode, if_neg hpercent]

theorem isPartChar_of_isAsciiAlphanumeric {c : Char} (h : isAsciiAlphanumeric c) :
    isPartChar c ∧ c ≠ '%' := by
  have hne : ∀ d : Char, isAsciiAlphanumeric d = false → c ≠ d := fun d hd hcd => by
    rw [hcd, hd] at h
    cases h
  simp only [isPartChar, Bool.and_eq_true, decide_eq_true_eq]
  exact ⟨⟨⟨hne _ (by decide), hne _ (by decide)⟩, hne _ (by decide)⟩, hne _ (by decide)⟩

theorem carries_number (n : ℕ) : Carries n.repr n.repr :=
  carries_self fun _ hc => isPartChar_of_isAsciiAlphanumeric (isAsciiAlphanumeric_of_mem_repr hc)

/-! ## Escaped values -/

theorem hexDigitValue_hexDigit {nibble : UInt8} (h : nibble.toNat < 16) :
    hexDigitValue (hexDigit nibble) = some nibble.toNat := by
  have key : ∀ n < 16, hexDigitValue (hexDigit (UInt8.ofNat n)) = some n := by decide
  have := key nibble.toNat h
  rwa [UInt8.ofNat_toNat] at this

/-- The two nibbles of a byte. -/
theorem toNat_shiftRight_four (b : UInt8) : (b >>> 4).toNat = b.toNat / 16 := by
  rw [UInt8.toNat_shiftRight, show (4 : UInt8).toNat % 8 = 4 from rfl, Nat.shiftRight_eq_div_pow]

theorem toNat_and_fifteen (b : UInt8) : (b &&& 0x0F).toNat = b.toNat % 16 := by
  rw [UInt8.toNat_and, show (0x0F : UInt8).toNat = 2 ^ 4 - 1 from rfl,
    Nat.and_two_pow_sub_one_eq_mod]

/-- Bytes that are not emitted literally are emitted as escapes. -/
theorem escapesBytes_encodeByte {bytes : List UInt8} (h : ∀ b ∈ bytes, isUnreserved b = false) :
    EscapesBytes bytes (bytes.flatMap encodeByte) := by
  induction bytes with
  | nil => exact .nil
  | cons b bytes ih =>
    obtain ⟨hb, hbytes⟩ := List.forall_mem_cons.1 h
    have hhigh := toNat_shiftRight_four b
    have hlow := toNat_and_fifteen b
    have hlt : b.toNat < 256 := b.toNat_lt
    rw [List.flatMap_cons, encodeByte, if_neg (by rw [hb]; exact Bool.false_ne_true)]
    exact .cons (hexDigitValue_hexDigit (by omega)) (hexDigitValue_hexDigit (by omega)) (by omega)
      (ih hbytes)

/-- An unreserved byte is a letter, a digit or one of four signs. -/
theorem toNat_of_isUnreserved {b : UInt8} (h : isUnreserved b) :
    b.toNat < 128 ∧ 45 ≤ b.toNat ∧ b.toNat ≠ 124 := by
  simp only [isUnreserved, Bool.or_eq_true, Bool.and_eq_true, decide_eq_true_eq,
    UInt8.le_iff_toNat_le, ← UInt8.toNat_inj] at h
  simp only [UInt8.reduceToNat] at h
  omega

theorem percentEncodes_encodeFormValue (text : List Char) :
    PercentEncodes text ((utf8Bytes text).flatMap encodeByte) := by
  induction text with
  | nil => exact .nil
  | cons c text ih =>
    rw [utf8Bytes_cons, List.flatMap_append]
    by_cases hall : ∀ b ∈ String.utf8EncodeChar c, isUnreserved b = false
    · exact .escaped (escapesBytes_encodeByte hall) ih
    · -- an unreserved byte is a whole character
      simp only [not_forall, Bool.not_eq_false] at hall
      obtain ⟨b, hb, hunreserved⟩ := hall
      obtain ⟨hlt, hge, hpipe⟩ := toNat_of_isUnreserved hunreserved
      have hc : b.toNat = c.toNat := toNat_of_mem_utf8EncodeChar hb hlt
      have hbytes : String.utf8EncodeChar c = [b] := by
        rw [utf8EncodeChar_ascii (by omega), ← hc, UInt8.ofNat_toNat]
      have hchar : [b].flatMap encodeByte = [c] := by
        rw [List.flatMap_singleton, encodeByte, if_pos hunreserved, hc, Char.ofNat_toNat]
      rw [hbytes, hchar]
      refine .plain ?_ ih
      simp only [isMeta, Bool.or_eq_false_iff, decide_eq_false_iff_not]
      refine ⟨⟨⟨?_, ?_⟩, ?_⟩, ?_⟩ <;> rintro rfl <;> simp at hc <;> omega

theorem isPartChar_of_mem_encodeByte {b : UInt8} {c : Char} (h : c ∈ encodeByte b) :
    isPartChar c := by
  have hb : b.toNat < 256 := b.toNat_lt
  have key : ∀ n < 256, (encodeByte (UInt8.ofNat n)).all isPartChar = true := by decide +kernel
  have := key b.toNat hb
  rw [UInt8.ofNat_toNat, List.all_eq_true] at this
  exact this c h

/-- A text carries itself once it is escaped. -/
theorem carries_encodeFormValue (value : String) : Carries (encodeFormValue value) value := by
  constructor
  · intro c hc
    rw [encodeFormValue, String.toList_ofList, List.mem_flatMap] at hc
    obtain ⟨b, -, hb⟩ := hc
    exact isPartChar_of_mem_encodeByte hb
  · have h := percentDecode_of_percentEncodes (percentEncodes_encodeFormValue value.toList)
    rwa [String.ofList_toList] at h

/-! ## Validated values -/

theorem RequestId.carries (id : RequestId) : Carries id.text id.text :=
  carries_self fun c hc =>
    isPartChar_of_isAsciiAlphanumeric (List.all_eq_true.1 id.alphanumeric c hc)

theorem SequenceName.carries (name : SequenceName) : Carries name.name name.name := by
  refine carries_self fun c hc => ?_
  have hchar := List.all_eq_true.1 name.alphanumeric c hc
  simp only [Bool.or_eq_true, decide_eq_true_eq] at hchar
  rcases hchar with hchar | rfl
  · exact isPartChar_of_isAsciiAlphanumeric hchar
  · decide

theorem isDecimal_chars {text : String} (h : isDecimal text = true) :
    ∀ c ∈ text.toList, c.isDigit ∨ c = '.' := by
  have htext : ['.'].intercalate (text.toList.splitOn '.') = text.toList :=
    List.intercalate_splitOn '.'
  have hdigits : ∀ {cs : List Char}, (!cs.isEmpty && cs.all Char.isDigit) = true →
      ∀ c ∈ cs, c.isDigit := fun hcs c hc => by
    rw [Bool.and_eq_true] at hcs
    exact List.all_eq_true.1 hcs.2 c hc
  unfold isDecimal at h
  split at h
  · next integral hsplit =>
    rw [hsplit] at htext
    refine fun c hc => .inl (hdigits h c ?_)
    rw [← htext] at hc
    simpa using hc
  · next integral fractional hsplit =>
    dsimp only at h
    rw [Bool.and_eq_true] at h
    rw [hsplit] at htext
    intro c hc
    rw [← htext, List.intercalate_cons_cons, List.intercalate_singleton] at hc
    simp only [List.mem_append, List.mem_singleton] at hc
    rcases hc with (hc | hc) | hc
    · exact .inl (hdigits h.1 c hc)
    · exact .inr hc
    · exact .inl (hdigits h.2 c hc)
  · cases h

theorem DecimalNumber.carries (n : DecimalNumber) : Carries n.text n.text := by
  refine carries_self fun c hc => ?_
  rcases isDecimal_chars n.wellFormed c hc with hdigit | rfl
  · refine isPartChar_of_isAsciiAlphanumeric ?_
    rw [isAsciiAlphanumeric, hdigit, Bool.or_true]
  · decide

theorem carries_int (n : ℤ) : Carries (toString n) (toString n) := by
  have hnat : ∀ m : ℕ, ∀ c ∈ m.repr.toList, isPartChar c ∧ c ≠ '%' := fun m c hc =>
    isPartChar_of_isAsciiAlphanumeric (isAsciiAlphanumeric_of_mem_repr hc)
  cases n with
  | ofNat m => exact carries_self (hnat m)
  | negSucc m =>
    refine carries_self fun c hc => ?_
    have : toString (Int.negSucc m) = "-" ++ (m + 1).repr := rfl
    rw [this, String.toList_append, List.mem_append] at hc
    rcases hc with hc | hc
    · rw [List.mem_singleton.1 hc]
      decide
    · exact hnat _ c hc

/-! ## Writing -/

/-- A parameter that may be absent. -/
def given {α : Type} (name : String) (value : α → String) : Option α → List (String × String)
  | some v => [(name, value v)]
  | none => []

def booleanText (b : Bool) : String := if b then "true" else "false"

/-- A name of a parameter: it ends no name, no part and no line. -/
def isNameChar (c : Char) : Bool := isPartChar c && c ≠ '='

def areNames (names : List String) : Bool := names.all fun name => name.toList.all isNameChar

theorem areNames_concat {names : List String} {name : String} :
    areNames (names ++ [name]) ↔ areNames names ∧ name.toList.all isNameChar := by
  simp [areNames]

/-- A line and the parameters that it carries, with the names that may have been written, those of
absent parameters included. -/
inductive Writes : ParameterLine → List (String × String) → List String → Prop
  | new : Writes .new [] []
  | put {params : ParameterLine} {pairs : List (String × String)} {names : List String}
      {name wire value : String} (h : Writes params pairs names) (hvalue : Carries wire value) :
      Writes (params.verbatim name wire) (pairs ++ [(name, value)]) (names ++ [name])
  | skip {params : ParameterLine} {pairs : List (String × String)} {names : List String}
      (h : Writes params pairs names) (name : String) : Writes params pairs (names ++ [name])

namespace Writes

variable {params : ParameterLine} {pairs : List (String × String)} {names : List String}

/-- Only the names that may have been written are, each once and in their order. -/
theorem names_sublist (h : Writes params pairs names) :
    (pairs.map Prod.fst).Sublist names := by
  induction h with
  | new => exact .slnil
  | put _ _ ih =>
    rw [List.map_append]
    exact ih.append (List.Sublist.refl _)
  | skip _ _ ih => exact ih.trans (List.sublist_append_left _ _)

theorem buf_verbatim (params : ParameterLine) (name value : String) :
    (params.verbatim name value).buf.toList =
      params.buf.toList ++ ((if params.buf.isEmpty then [] else ['&']) ++
        (name.toList ++ '=' :: value.toList)) := by
  unfold ParameterLine.verbatim
  split_ifs <;> simp [String.toList_append]

/-- A line holds no end of line. -/
theorem chars (h : Writes params pairs names) (hnames : areNames names) :
    ∀ c ∈ params.buf.toList, c ≠ '\r' ∧ c ≠ '\n' := by
  have hpart : ∀ {c : Char}, isPartChar c → c ≠ '\r' ∧ c ≠ '\n' := fun hc => by
    simp only [isPartChar, Bool.and_eq_true, decide_eq_true_eq] at hc
    exact ⟨hc.1.2, hc.2⟩
  induction h with
  | new => simp [ParameterLine.new]
  | skip _ _ ih => exact ih (areNames_concat.1 hnames).1
  | @put params _ _ name wire _ _ hvalue ih =>
    obtain ⟨hbefore, hname⟩ := areNames_concat.1 hnames
    intro c hc
    rw [buf_verbatim, List.mem_append, List.mem_append, List.mem_append, List.mem_cons] at hc
    rcases hc with hc | hc | hc | rfl | hc
    · exact ih hbefore c hc
    · split_ifs at hc
      · cases hc
      · rw [List.mem_singleton.1 hc]
        decide
    · have := List.all_eq_true.1 hname c hc
      exact hpart (Bool.and_eq_true_iff.1 this).1
    · decide
    · exact hpart (hvalue.chars c hc)

theorem readPart_append {name wire value : String} (hname : name.toList.all isNameChar)
    (hvalue : Carries wire value) :
    readPart (name.toList ++ '=' :: wire.toList) = .ok (name, value) := by
  have hequals : '=' ∉ name.toList := fun hin => absurd (List.all_eq_true.1 hname _ hin) (by decide)
  rw [readPart, splitOnce_append _ hequals]
  simp only [String.ofList_toList, hvalue.decodes]
  rfl

/-- The parts of a line give back its parameters. -/
theorem read (h : Writes params pairs names) (hnames : areNames names) :
    readParameters params.buf = .ok pairs := by
  have key : (params.buf = "" ∧ pairs = []) ∨
      params.buf ≠ "" ∧ (params.buf.toList.splitOn '&').mapM readPart = .ok pairs := by
    induction h with
    | new => exact .inl ⟨rfl, rfl⟩
    | skip _ _ ih => exact ih (areNames_concat.1 hnames).1
    | @put params pairs names name wire value _ hvalue ih =>
      obtain ⟨hbefore, hname⟩ := areNames_concat.1 hnames
      have hpart := readPart_append hname hvalue
      have hfree : '&' ∉ name.toList ++ '=' :: wire.toList := fun hin => by
        rw [List.mem_append, List.mem_cons] at hin
        rcases hin with hin | hin | hin
        · exact absurd (List.all_eq_true.1 hname _ hin) (by decide)
        · cases hin
        · exact absurd (hvalue.chars _ hin) (by decide)
      refine .inr ⟨fun hnil => ?_, ?_⟩
      · have := congrArg String.toList hnil
        rw [buf_verbatim] at this
        simp at this
      · rw [buf_verbatim]
        rcases ih hbefore with ⟨hbuf, rfl⟩ | ⟨hbuf, ih⟩
        · rw [hbuf]
          simp [List.splitOn_eq_singleton hfree, hpart]
        · have hne : params.buf.isEmpty = false := by simpa using hbuf
          simp only [hne, Bool.false_eq_true, if_false, List.singleton_append]
          rw [List.splitOn_append_cons_self, List.mapM_append, ih,
            List.splitOn_eq_singleton hfree]
          simp [hpart]
          rfl
  unfold readParameters
  rcases key with ⟨hbuf, rfl⟩ | ⟨hbuf, hread⟩
  · rw [hbuf]
    rfl
  · rw [if_neg (by simpa using hbuf), hread]

/-! One lemma for each builder. -/

theorem text (h : Writes params pairs names) (name value : String) :
    Writes (params.text name value) (pairs ++ [(name, value)]) (names ++ [name]) :=
  h.put (carries_encodeFormValue value)

theorem verbatim (h : Writes params pairs names) (name : String) {value : String}
    (hvalue : Carries value value) :
    Writes (params.verbatim name value) (pairs ++ [(name, value)]) (names ++ [name]) :=
  h.put hvalue

theorem number (h : Writes params pairs names) (name : String) (n : ℕ) :
    Writes (params.number name n) (pairs ++ [(name, n.repr)]) (names ++ [name]) :=
  h.put (carries_number n)

theorem boolean (h : Writes params pairs names) (name : String) (b : Bool) :
    Writes (params.boolean name b) (pairs ++ [(name, booleanText b)]) (names ++ [name]) := by
  refine h.put (carries_self ?_)
  cases b <;> simp [isPartChar]

theorem optional {α : Type} {put : ParameterLine → α → ParameterLine} {name : String}
    {value : α → String} (h : Writes params pairs names) (o : Option α)
    (hput : ∀ v ∈ o, Writes (put params v) (pairs ++ [(name, value v)]) (names ++ [name])) :
    Writes (params.optional put o) (pairs ++ given name value o) (names ++ [name]) := by
  cases o with
  | none =>
    rw [given, List.append_nil]
    exact h.skip name
  | some v => exact hput v rfl

theorem optionalText (h : Writes params pairs names) (name : String) (o : Option String) :
    Writes (params.optional (·.text name) o) (pairs ++ given name id o) (names ++ [name]) :=
  h.optional o fun v _ => h.text name v

theorem optionalVerbatim {α : Type} (h : Writes params pairs names) (name : String)
    (value : α → String) (o : Option α) (hvalue : ∀ v ∈ o, Carries (value v) (value v)) :
    Writes (params.optional (fun p v => p.verbatim name (value v)) o)
      (pairs ++ given name value o) (names ++ [name]) :=
  h.optional o fun v hv => h.verbatim name (hvalue v hv)

theorem optionalNumber (h : Writes params pairs names) (name : String) (o : Option ℕ) :
    Writes (params.optional (·.number name) o) (pairs ++ given name Nat.repr o)
      (names ++ [name]) :=
  h.optional o fun v _ => h.number name v

theorem optionalBoolean (h : Writes params pairs names) (name : String) (o : Option Bool) :
    Writes (params.optional (·.boolean name) o) (pairs ++ given name booleanText o)
      (names ++ [name]) :=
  h.optional o fun v _ => h.boolean name v

end Writes

/-! ## Batches -/

theorem splitCrlf_cons_of_ne {c : Char} (hc : c ≠ '\r') (rest : List Char) :
    splitCrlf (c :: rest) = (splitCrlf rest).modifyHead (c :: ·) := by
  rw [splitCrlf.eq_def]
  split
  · next h => cases h
  · next h =>
    cases h
    exact absurd rfl hc
  · next h =>
    cases h
    rfl

theorem splitCrlf_append {line : List Char} (h : '\r' ∉ line) (rest : List Char) :
    splitCrlf (line ++ '\r' :: '\n' :: rest) = line :: splitCrlf rest := by
  induction line with
  | nil => rfl
  | cons c line ih =>
    rw [List.mem_cons, not_or] at h
    rw [List.cons_append, splitCrlf_cons_of_ne (Ne.symm h.1), ih h.2, List.modifyHead_cons]

theorem splitCrlf_of_notMem {line : List Char} (h : '\r' ∉ line) : splitCrlf line = [line] := by
  induction line with
  | nil => rfl
  | cons c line ih =>
    rw [List.mem_cons, not_or] at h
    rw [splitCrlf_cons_of_ne (Ne.symm h.1), ih h.2, List.modifyHead_cons]

/-- What is framed is read back, each line as it was put in. -/
theorem splitLines_intercalate {lines : List String} (hne : lines ≠ [])
    (h : ∀ line ∈ lines, '\r' ∉ line.toList) :
    splitLines (lineSeparator.intercalate lines) = lines := by
  have key : splitCrlf ((lineSeparator.intercalate lines).toList) = lines.map String.toList := by
    rw [String.toList_intercalate]
    induction lines with
    | nil => exact absurd rfl hne
    | cons line lines ih =>
      obtain ⟨hline, hlines⟩ := List.forall_mem_cons.1 h
      cases lines with
      | nil => simpa using splitCrlf_of_notMem hline
      | cons next lines =>
        have hsplit := splitCrlf_append hline
          (lineSeparator.toList.intercalate ((next :: lines).map String.toList))
        rw [List.map_cons, List.map_cons, List.intercalate_cons_cons, List.append_assoc]
        exact hsplit.trans (congrArg _ (ih (List.cons_ne_nil _ _) hlines))
  rw [splitLines, key, List.map_map]
  exact (List.map_congr_left fun line _ => String.ofList_toList).trans (List.map_id _)

end Lightstreamer.Protocol
