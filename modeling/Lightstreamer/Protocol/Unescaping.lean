import Lightstreamer.Protocol.Reading

/-!
# What percent-decoding accepts

A text is read from left to right as tokens, plain characters and escapes (`Spells`). Either all of
it reads, or what reads ends before a `%` that starts no escape (`exists_spells`). Decoding gives
the text of the tokens' bytes where there is one (`percentDecode_eq_ok_iff`); else it points at a
`%`, the one where the reading ended or the escape that starts the first invalid sequence
(`percentDecode_eq_error`). That no invalid sequence starts in a plain character is
`exists_escape_of_invalid`: a character is written whole, so the bytes before it end before it.

`percentDecode_spec` states both, and that decoding undoes `encodeFormValue`.
-/

namespace Lightstreamer.Protocol

open Lightstreamer.Foundations

/-! ## Tokens -/

/-- What a text is read as, piece by piece. -/
inductive Token
  | plain (c : Char)
  | escape (byte : UInt8)

/-- The bytes a token stands for. -/
def Token.bytes : Token → List UInt8
  | .plain c => String.utf8EncodeChar c
  | .escape byte => [byte]

def tokenBytes (tokens : List Token) : List UInt8 := tokens.flatMap Token.bytes

/-- Some tokens as they are written: an escape is a `%` and two hex digits of either case. -/
inductive Spells : List Token → List Char → Prop
  | nil : Spells [] []
  | plain {c : Char} {tokens : List Token} {text : List Char} (hc : c ≠ '%')
      (hrest : Spells tokens text) : Spells (.plain c :: tokens) (c :: text)
  | escape {high low : Char} {h l : ℕ} {byte : UInt8} {tokens : List Token} {text : List Char}
      (hhigh : hexDigitValue high = some h) (hlow : hexDigitValue low = some l)
      (hbyte : byte.toNat = 16 * h + l) (hrest : Spells tokens text) :
      Spells (.escape byte :: tokens) ('%' :: high :: low :: text)

/-- The text starts with a well-formed escape. -/
def StartsEscape (text : List Char) : Prop :=
  ∃ high low rest, text = '%' :: high :: low :: rest ∧ (hexDigitValue high).isSome ∧
    (hexDigitValue low).isSome

theorem tokenBytes_cons (token : Token) (tokens : List Token) :
    tokenBytes (token :: tokens) = token.bytes ++ tokenBytes tokens := rfl

/-- The two digits of an escape give a byte. -/
theorem exists_byte {h l : ℕ} (hh : h < 16) (hl : l < 16) :
    ∃ byte : UInt8, byte.toNat = 16 * h + l :=
  ⟨UInt8.ofNat (16 * h + l), by rw [UInt8.toNat_ofNat', Nat.mod_eq_of_lt (by omega)]⟩

/-- A text reads as tokens up to its end, or up to a `%` that starts no escape. -/
theorem exists_spells (text : List Char) :
    ∃ tokens before rest, text = before ++ rest ∧ Spells tokens before ∧
      (rest = [] ∨ ∃ tail, rest = '%' :: tail ∧ ¬StartsEscape rest) := by
  induction hlength : text.length using Nat.strong_induction_on generalizing text with
  | _ n ih =>
    rcases text with _ | ⟨c, text⟩
    · exact ⟨[], [], [], rfl, .nil, .inl rfl⟩
    subst hlength
    by_cases hc : c = '%'
    · subst hc
      by_cases hescape : StartsEscape ('%' :: text)
      · obtain ⟨high, low, rest, heq, hhigh, hlow⟩ := hescape
        obtain ⟨-, rfl⟩ := List.cons.inj heq
        obtain ⟨h, hhigh⟩ := Option.isSome_iff_exists.mp hhigh
        obtain ⟨l, hlow⟩ := Option.isSome_iff_exists.mp hlow
        obtain ⟨byte, hbyte⟩ := exists_byte (hexValue_of_hexDigitValue hhigh).2.1
          (hexValue_of_hexDigitValue hlow).2.1
        obtain ⟨tokens, before, rest', rfl, hspells, hend⟩ :=
          ih rest.length (by simp only [List.length_cons]; omega) rest rfl
        exact ⟨_, _, rest', rfl, .escape hhigh hlow hbyte hspells, hend⟩
      · exact ⟨[], [], _, rfl, .nil, .inr ⟨text, rfl, hescape⟩⟩
    · obtain ⟨tokens, before, rest, rfl, hspells, hend⟩ :=
        ih text.length (by rw [List.length_cons]; omega) text rfl
      exact ⟨_, _, rest, rfl, .plain hc hspells, hend⟩

/-! ## The scan -/

theorem decodeEscapes_append {bytes : List UInt8} (hb : ∀ byte ∈ bytes, byte ≠ percent)
    (index : ℕ) (rest : List UInt8) :
    decodeEscapes index (bytes ++ rest) =
      (bytes ++ ·) <$> decodeEscapes (index + bytes.length) rest := by
  induction bytes generalizing index with
  | nil =>
    show decodeEscapes index rest = _
    cases decodeEscapes index rest <;> rfl
  | cons byte bytes ih =>
    obtain ⟨hbyte, hb⟩ := List.forall_mem_cons.mp hb
    rw [List.cons_append, decodeEscapes_cons_of_ne hbyte, ih hb, List.length_cons,
      show index + 1 + bytes.length = index + (bytes.length + 1) by omega]
    cases decodeEscapes (index + (bytes.length + 1)) rest <;> rfl

theorem decodeEscapes_escape {high low : Char} {h l : ℕ} {byte : UInt8}
    (hhigh : hexDigitValue high = some h) (hlow : hexDigitValue low = some l)
    (hbyte : byte.toNat = 16 * h + l) (index : ℕ) (rest : List UInt8) :
    decodeEscapes index (utf8Bytes ['%', high, low] ++ rest) =
      (byte :: ·) <$> decodeEscapes (index + 3) rest := by
  obtain ⟨hhigh128, hh, hhigh⟩ := hexValue_of_hexDigitValue hhigh
  obtain ⟨hlow128, hl, hlow⟩ := hexValue_of_hexDigitValue hlow
  rw [utf8Bytes_cons, utf8Bytes_cons, utf8Bytes_cons, utf8EncodeChar_ascii hhigh128,
    utf8EncodeChar_ascii hlow128, utf8EncodeChar_ascii (by decide)]
  show decodeEscapes index (percent :: UInt8.ofNat high.toNat :: UInt8.ofNat low.toNat :: rest) = _
  rw [decodeEscapes.eq_def]
  simp only [hhigh, hlow, nibbles_eq hh hl hbyte]
  rfl

theorem length_utf8Bytes_escape {high low : Char} {h l : ℕ} (hhigh : hexDigitValue high = some h)
    (hlow : hexDigitValue low = some l) : (utf8Bytes ['%', high, low]).length = 3 := by
  rw [utf8Bytes_cons, utf8Bytes_cons, utf8Bytes_cons,
    utf8EncodeChar_ascii (hexValue_of_hexDigitValue hhigh).1,
    utf8EncodeChar_ascii (hexValue_of_hexDigitValue hlow).1, utf8EncodeChar_ascii (by decide)]
  rfl

/-- The scan goes over what reads, and gives its bytes. -/
theorem Spells.decodeEscapes_append {tokens : List Token} {text : List Char}
    (h : Spells tokens text) (index : ℕ) (rest : List UInt8) :
    decodeEscapes index (utf8Bytes text ++ rest) =
      (tokenBytes tokens ++ ·) <$> decodeEscapes (index + (utf8Bytes text).length) rest := by
  induction h generalizing index with
  | nil =>
    show decodeEscapes index rest = ([] ++ ·) <$> decodeEscapes index rest
    cases decodeEscapes index rest <;> rfl
  | @plain c tokens text hc hrest ih =>
    rw [utf8Bytes_cons, List.append_assoc,
      Protocol.decodeEscapes_append (ne_percent_of_mem_utf8EncodeChar hc), ih, List.length_append,
      ← Nat.add_assoc]
    cases decodeEscapes _ rest with
    | error e => rfl
    | ok decoded => exact congrArg Except.ok (List.append_assoc ..).symm
  | @escape high low h l byte tokens text hhigh hlow hbyte hrest ih =>
    have hlength := length_utf8Bytes_escape hhigh hlow
    have hcons : utf8Bytes ('%' :: high :: low :: text) =
        utf8Bytes ['%', high, low] ++ utf8Bytes text := utf8Bytes_append ['%', high, low] text
    rw [hcons, List.append_assoc, decodeEscapes_escape hhigh hlow hbyte, ih, List.length_append,
      hlength, ← Nat.add_assoc]
    cases decodeEscapes _ rest <;> rfl

theorem Spells.decodeEscapes_eq {tokens : List Token} {text : List Char}
    (h : Spells tokens text) (index : ℕ) :
    decodeEscapes index (utf8Bytes text) = .ok (tokenBytes tokens) := by
  have hscan := h.decodeEscapes_append index []
  rw [List.append_nil] at hscan
  rw [hscan, decodeEscapes.eq_def]
  exact congrArg Except.ok (List.append_nil _)

/-- A byte that is a hex digit is one as a character, and ends the character. -/
theorem exists_hexDigit {text : List Char} {byte : UInt8} {rest : List UInt8} {v : UInt8}
    (htext : utf8Bytes text = byte :: rest) (hbyte : hexValue byte = some v) :
    ∃ c tail, text = c :: tail ∧ (hexDigitValue c).isSome ∧ utf8Bytes tail = rest := by
  rcases text with _ | ⟨c, tail⟩
  · cases htext
  have hrange : 48 ≤ byte.toNat ∧ byte.toNat ≤ 57 ∨ 97 ≤ byte.toNat ∧ byte.toNat ≤ 102 ∨
      65 ≤ byte.toNat ∧ byte.toNat ≤ 70 := by
    simp only [hexValue, UInt8.le_iff_toNat_le, UInt8.reduceToNat] at hbyte
    split_ifs at hbyte with h1 h2 h3
    · exact .inl h1
    · exact .inr (.inl h2)
    · exact .inr (.inr h3)
  obtain ⟨first, tail', hfirst, -⟩ := exists_cons_utf8EncodeChar c
  rw [utf8Bytes_cons, hfirst] at htext
  obtain ⟨rfl, -⟩ := List.cons.inj htext
  have hc : first.toNat = c.toNat :=
    toNat_of_mem_utf8EncodeChar (by rw [hfirst]; exact List.mem_cons_self) (by omega)
  have hencode : String.utf8EncodeChar c = [first] := by
    rw [utf8EncodeChar_ascii (by omega), ← hc, UInt8.ofNat_toNat]
  rw [← hfirst, hencode] at htext
  refine ⟨c, tail, rfl, ?_, (List.cons.inj htext).2⟩
  rw [hc] at hrange
  unfold hexDigitValue
  dsimp only
  split_ifs
  · rfl
  · rfl
  · rfl
  · omega

/-- The scan stops at a `%` that starts no escape. -/
theorem decodeEscapes_of_not_startsEscape {tail : List Char} (h : ¬StartsEscape ('%' :: tail))
    (index : ℕ) :
    ∃ reason, decodeEscapes index (utf8Bytes ('%' :: tail)) = .error (.escaping index reason) := by
  rw [utf8Bytes_cons, utf8EncodeChar_ascii (by decide)]
  show ∃ reason, decodeEscapes index (percent :: utf8Bytes tail) = _
  rw [decodeEscapes.eq_def]
  dsimp only
  rw [if_neg (fun h => h rfl)]
  split
  · next high low rest hbytes =>
    split
    · next hv lv hhigh hlow =>
      obtain ⟨c, tail, rfl, hc, hrest⟩ := exists_hexDigit hbytes hhigh
      obtain ⟨c', tail, rfl, hc', -⟩ := exists_hexDigit hrest hlow
      exact absurd ⟨c, c', tail, rfl, hc, hc'⟩ h
    · exact ⟨_, rfl⟩
  · exact ⟨_, rfl⟩

/-! ## Invalid sequences -/

/-- A cut in the bytes of some tokens is in front of one of them, or inside it. -/
theorem exists_cut {tokens : List Token} {p rest : List UInt8}
    (h : tokenBytes tokens = p ++ rest) (hne : rest ≠ []) :
    ∃ before token behind x y, tokens = before ++ token :: behind ∧ token.bytes = x ++ y ∧
      p = tokenBytes before ++ x ∧ rest = y ++ tokenBytes behind ∧ y ≠ [] := by
  induction tokens generalizing p with
  | nil => exact absurd (List.append_eq_nil_iff.mp h.symm).2 hne
  | cons token tokens ih =>
    rw [tokenBytes_cons] at h
    rcases List.append_eq_append_iff.mp h with ⟨p', rfl, htokens⟩ | ⟨y, htoken, hrest⟩
    · obtain ⟨before, token', behind, x, y, rfl, htoken', rfl, hrest, hy⟩ := ih htokens
      exact ⟨token :: before, token', behind, x, y, rfl, htoken', (List.append_assoc ..).symm,
        hrest, hy⟩
    · by_cases hy : y = []
      · subst hy
        obtain ⟨before, token', behind, x, y, rfl, htoken', hp, hrest, hy⟩ :=
          ih (p := []) hrest.symm
        refine ⟨token :: before, token', behind, x, y, rfl, htoken', ?_, hrest, hy⟩
        rw [tokenBytes_cons, List.append_assoc, ← hp, htoken, List.append_nil, List.append_nil]
      · exact ⟨[], token, tokens, p, y, rfl, htoken, rfl, hrest, hy⟩

/-- An invalid sequence starts with an escape: a plain character is whole, so that the text before
the sequence can neither end within it nor in front of it. -/
theorem exists_escape_of_invalid {tokens : List Token} {text : List Char} {rest : List UInt8}
    (h : tokenBytes tokens = utf8Bytes text ++ rest) (hne : rest ≠ []) (hrest : ¬StartsChar rest) :
    ∃ before byte behind, tokens = before ++ .escape byte :: behind ∧
      tokenBytes before = utf8Bytes text ∧ rest = byte :: tokenBytes behind := by
  obtain ⟨before, token, behind, x, y, rfl, htoken, hp, rfl, hy⟩ := exists_cut h hne
  cases token with
  | escape byte =>
    -- the one byte of an escape is not cut
    rcases x with _ | ⟨b, x⟩
    · cases htoken
      exact ⟨before, byte, behind, rfl, by rw [hp, List.append_nil], rfl⟩
    · exact absurd (List.append_eq_nil_iff.mp (List.cons.inj htoken).2.symm).2 hy
  | plain c =>
    rcases x with _ | ⟨b, x⟩
    · have hy : y = String.utf8EncodeChar c := htoken.symm
      exact absurd ⟨c, tokenBytes behind, by rw [hy]⟩ hrest
    · exact absurd (eq_nil_of_cut hp htoken (List.cons_ne_nil b x)) hy

/-! ## Positions -/

theorem inputOffsetOfDecodedByte_append {bytes : List UInt8} (hb : ∀ byte ∈ bytes, byte ≠ percent)
    {index produced decodedOffset : ℕ} (hle : produced + bytes.length ≤ decodedOffset)
    (rest : List UInt8) :
    inputOffsetOfDecodedByte index produced decodedOffset (bytes ++ rest) =
      inputOffsetOfDecodedByte (index + bytes.length) (produced + bytes.length) decodedOffset
        rest := by
  induction bytes generalizing index produced with
  | nil => rfl
  | cons byte bytes ih =>
    obtain ⟨hbyte, hb⟩ := List.forall_mem_cons.mp hb
    rw [List.length_cons] at hle ⊢
    rw [List.cons_append, inputOffsetOfDecodedByte.eq_def]
    dsimp only
    rw [if_neg (by omega), if_neg hbyte, ih hb (by omega)]
    congr 1 <;> omega

/-- The walk back over the input keeps step with what reads. -/
theorem Spells.inputOffsetOfDecodedByte {tokens : List Token} {text : List Char}
    (h : Spells tokens text) {index produced decodedOffset : ℕ}
    (hle : produced + (tokenBytes tokens).length ≤ decodedOffset) (rest : List UInt8) :
    inputOffsetOfDecodedByte index produced decodedOffset (utf8Bytes text ++ rest) =
      Protocol.inputOffsetOfDecodedByte (index + (utf8Bytes text).length)
        (produced + (tokenBytes tokens).length) decodedOffset rest := by
  induction h generalizing index produced with
  | nil => rfl
  | @plain c tokens text hc hrest ih =>
    have hbytes : (Token.plain c).bytes = String.utf8EncodeChar c := rfl
    rw [tokenBytes_cons, hbytes, List.length_append] at hle ⊢
    rw [utf8Bytes_cons, List.append_assoc,
      inputOffsetOfDecodedByte_append (ne_percent_of_mem_utf8EncodeChar hc) (by omega),
      ih (by omega), List.length_append, ← Nat.add_assoc, ← Nat.add_assoc]
  | @escape high low h l byte tokens text hhigh hlow hbyte hrest ih =>
    have hlength := length_utf8Bytes_escape hhigh hlow
    have hcons : utf8Bytes ('%' :: high :: low :: text) =
        utf8Bytes ['%', high, low] ++ utf8Bytes text := utf8Bytes_append ['%', high, low] text
    have hbytes : (Token.escape byte).bytes = [byte] := rfl
    rw [tokenBytes_cons, hbytes, List.length_append, List.length_singleton] at hle ⊢
    rw [hcons, List.append_assoc, List.length_append, hlength]
    rw [utf8Bytes_cons, utf8Bytes_cons, utf8Bytes_cons,
      utf8EncodeChar_ascii (hexValue_of_hexDigitValue hhigh).1,
      utf8EncodeChar_ascii (hexValue_of_hexDigitValue hlow).1, utf8EncodeChar_ascii (by decide)]
    show Protocol.inputOffsetOfDecodedByte index produced decodedOffset (percent ::
      UInt8.ofNat high.toNat :: UInt8.ofNat low.toNat :: (utf8Bytes text ++ rest)) = _
    rw [inputOffsetOfDecodedByte.eq_def]
    dsimp only
    rw [if_neg (by omega), if_pos rfl, ih (by omega)]
    congr 1 <;> omega

/-! ## The specification -/

/-- The `%` at an offset is the first one that starts no escape. -/
def MalformedAt (text : List Char) (position : ℕ) : Prop :=
  ∃ tokens before tail, text = before ++ '%' :: tail ∧ Spells tokens before ∧
    ¬StartsEscape ('%' :: tail) ∧ position = (utf8Bytes before).length

/-- The `%` at an offset is that of the escape which starts the first invalid sequence: the bytes
before it are text, and no character starts there. -/
def InvalidAt (text : List Char) (position : ℕ) : Prop :=
  ∃ before byte behind beforeText tail valid, text = beforeText ++ '%' :: tail ∧
    Spells before beforeText ∧ Spells (.escape byte :: behind) ('%' :: tail) ∧
    tokenBytes before = utf8Bytes valid ∧ ¬StartsChar (byte :: tokenBytes behind) ∧
    position = (utf8Bytes beforeText).length

theorem Spells.exists_append {before behind : List Token} {text : List Char}
    (h : Spells (before ++ behind) text) :
    ∃ beforeText behindText, text = beforeText ++ behindText ∧ Spells before beforeText ∧
      Spells behind behindText := by
  induction before generalizing text with
  | nil => exact ⟨[], text, rfl, .nil, h⟩
  | cons token before ih =>
    cases h with
    | plain hc hrest =>
      obtain ⟨beforeText, behindText, rfl, hbefore, hbehind⟩ := ih hrest
      exact ⟨_, behindText, rfl, .plain hc hbefore, hbehind⟩
    | escape hhigh hlow hbyte hrest =>
      obtain ⟨beforeText, behindText, rfl, hbefore, hbehind⟩ := ih hrest
      exact ⟨_, behindText, rfl, .escape hhigh hlow hbyte hbefore, hbehind⟩

/-- Without a `%`, a text reads as it is. -/
theorem spells_of_percent_notMem {text : List Char} (h : percent ∉ utf8Bytes text) :
    ∃ tokens, Spells tokens text ∧ tokenBytes tokens = utf8Bytes text := by
  induction text with
  | nil => exact ⟨[], .nil, rfl⟩
  | cons c text ih =>
    rw [utf8Bytes_cons, List.mem_append, not_or] at h
    obtain ⟨tokens, hspells, hbytes⟩ := ih h.2
    refine ⟨.plain c :: tokens, .plain ?_ hspells, ?_⟩
    · rintro rfl
      exact h.1 (by decide)
    · rw [tokenBytes_cons, hbytes, utf8Bytes_cons]
      rfl

/-- What reads is decoded to the text of its bytes, if they are text. -/
theorem Spells.percentDecode_eq {tokens : List Token} {input : String}
    (h : Spells tokens input.toList) {text : List Char}
    (htext : tokenBytes tokens = utf8Bytes text) :
    percentDecode input = .ok (String.ofList text) := by
  unfold percentDecode
  dsimp only
  rw [h.decodeEscapes_eq, htext]
  split_ifs with hpercent
  · simp only [bind, Except.bind, decodeUtf8_utf8Bytes]
  · obtain ⟨tokens', h', hbytes⟩ := spells_of_percent_notMem hpercent
    have heq := h.decodeEscapes_eq 0
    rw [h'.decodeEscapes_eq, hbytes] at heq
    rw [← utf8Bytes_injective ((Except.ok.inj heq).trans htext), String.ofList_toList]

/-- What does not read is refused where the reading ends. -/
theorem percentDecode_malformed {input : String} {tokens : List Token} {before tail : List Char}
    (htext : input.toList = before ++ '%' :: tail) (h : Spells tokens before)
    (hescape : ¬StartsEscape ('%' :: tail)) :
    ∃ reason, percentDecode input = .error (.escaping (utf8Bytes before).length reason) := by
  have hbytes : utf8Bytes input.toList = utf8Bytes before ++ utf8Bytes ('%' :: tail) := by
    rw [htext, utf8Bytes_append]
  have hpercent : percent ∈ utf8Bytes input.toList := by
    rw [hbytes, utf8Bytes_cons]
    exact List.mem_append_right _ (List.mem_append_left _ (by decide))
  obtain ⟨reason, hreason⟩ :=
    decodeEscapes_of_not_startsEscape hescape (0 + (utf8Bytes before).length)
  refine ⟨reason, ?_⟩
  unfold percentDecode
  dsimp only
  rw [if_pos hpercent, hbytes, h.decodeEscapes_append, hreason, Nat.zero_add]
  rfl

/-- What reads, and is not text, is refused at the escape that starts what is not. -/
theorem Spells.percentDecode_invalid {tokens : List Token} {input : String}
    (h : Spells tokens input.toList) (htext : ¬∃ text, tokenBytes tokens = utf8Bytes text) :
    ∃ position, percentDecode input = .error (.escaping position reasonNotUtf8) ∧
      InvalidAt input.toList position := by
  cases hdecode : decodeUtf8 (tokenBytes tokens) with
  | ok text => exact absurd ⟨text, (decodeUtf8_eq_ok_iff.mp hdecode).symm⟩ htext
  | error validUpTo =>
    obtain ⟨valid, rest, hsplit, rfl, hne, hstarts⟩ :=
      decodeUtf8Fuel_eq_error (Nat.le_refl _) hdecode
    obtain ⟨before, byte, behind, rfl, hbefore, rfl⟩ :=
      exists_escape_of_invalid hsplit hne hstarts
    obtain ⟨beforeText, behindText, hinput, hspells, hbehind⟩ := h.exists_append
    obtain ⟨tail, rfl⟩ : ∃ tail, behindText = '%' :: tail := by
      cases hbehind with
      | escape => exact ⟨_, rfl⟩
    have hbytes : utf8Bytes input.toList = utf8Bytes beforeText ++ utf8Bytes ('%' :: tail) := by
      rw [hinput, utf8Bytes_append]
    have hpercent : percent ∈ utf8Bytes input.toList := by
      rw [hbytes, utf8Bytes_cons]
      exact List.mem_append_right _ (List.mem_append_left _ (by decide))
    refine ⟨(utf8Bytes beforeText).length, ?_, before, byte, behind, beforeText, tail, valid,
      hinput, hspells, hbehind, hbefore, hstarts, rfl⟩
    have hoffset : Protocol.inputOffsetOfDecodedByte 0 0 (0 + (utf8Bytes valid).length)
        (utf8Bytes input.toList) = (utf8Bytes beforeText).length := by
      rw [hbytes, hspells.inputOffsetOfDecodedByte (by rw [hbefore]), hbefore, utf8Bytes_cons,
        utf8EncodeChar_ascii (by decide), List.cons_append, inputOffsetOfDecodedByte.eq_def]
      dsimp only
      rw [if_pos rfl, Nat.zero_add]
    unfold percentDecode
    dsimp only
    rw [if_pos hpercent, h.decodeEscapes_eq]
    simp only [bind, Except.bind, hdecode, hoffset]

theorem percentDecode_eq_ok_iff {input text : String} :
    percentDecode input = .ok text ↔
      ∃ tokens, Spells tokens input.toList ∧ tokenBytes tokens = utf8Bytes text.toList := by
  constructor
  · intro h
    obtain ⟨tokens, before, rest, hinput, hspells, rfl | ⟨tail, rfl, hescape⟩⟩ :=
      exists_spells input.toList
    · rw [List.append_nil] at hinput
      rw [← hinput] at hspells
      by_cases htext : ∃ text, tokenBytes tokens = utf8Bytes text
      · obtain ⟨text', htext⟩ := htext
        rw [hspells.percentDecode_eq htext] at h
        cases h
        exact ⟨tokens, hspells, by rw [htext, String.toList_ofList]⟩
      · obtain ⟨position, herror, -⟩ := hspells.percentDecode_invalid htext
        rw [herror] at h
        cases h
    · obtain ⟨reason, herror⟩ := percentDecode_malformed hinput hspells hescape
      rw [herror] at h
      cases h
  · rintro ⟨tokens, hspells, htext⟩
    rw [hspells.percentDecode_eq htext, String.ofList_toList]

theorem percentDecode_eq_error {input : String} {e : ProtocolError}
    (h : percentDecode input = .error e) :
    ∃ position reason, e = .escaping position reason ∧
      (MalformedAt input.toList position ∨
        (∃ tokens, Spells tokens input.toList) ∧ InvalidAt input.toList position) := by
  obtain ⟨tokens, before, rest, hinput, hspells, rfl | ⟨tail, rfl, hescape⟩⟩ :=
    exists_spells input.toList
  · rw [List.append_nil] at hinput
    rw [← hinput] at hspells
    by_cases htext : ∃ text, tokenBytes tokens = utf8Bytes text
    · obtain ⟨text, htext⟩ := htext
      rw [hspells.percentDecode_eq htext] at h
      cases h
    · obtain ⟨position, herror, hinvalid⟩ := hspells.percentDecode_invalid htext
      cases Except.error.inj (herror.symm.trans h)
      exact ⟨position, _, rfl, .inr ⟨⟨tokens, hspells⟩, hinvalid⟩⟩
  · obtain ⟨reason, herror⟩ := percentDecode_malformed hinput hspells hescape
    cases Except.error.inj (herror.symm.trans h)
    exact ⟨_, reason, rfl, .inl ⟨tokens, before, tail, hinput, hspells, hescape, rfl⟩⟩

/-- The byte behind some text, when a `%` follows it. -/
theorem getElem?_utf8Bytes (before tail : List Char) :
    (utf8Bytes (before ++ '%' :: tail))[(utf8Bytes before).length]? = some percent := by
  rw [utf8Bytes_append, List.getElem?_append_right (Nat.le_refl _), Nat.sub_self, utf8Bytes_cons,
    utf8EncodeChar_ascii (by decide)]
  rfl

/-! ## Encoded values -/

/-- A text of unreserved characters, and of groups of a `%` and two hex digits. -/
inductive FormText : List Char → Prop
  | nil : FormText []
  | unreserved {c : Char} {text : List Char}
      (hc : c.isAlphanum ∨ c = '-' ∨ c = '.' ∨ c = '_' ∨ c = '~') (hrest : FormText text) :
      FormText (c :: text)
  | group {high low : Char} {text : List Char} (hhigh : (hexDigitValue high).isSome)
      (hlow : (hexDigitValue low).isSome) (hrest : FormText text) :
      FormText ('%' :: high :: low :: text)

theorem unreserved_char {byte : UInt8} (h : isUnreserved byte) :
    (Char.ofNat byte.toNat).isAlphanum ∨ Char.ofNat byte.toNat = '-' ∨
      Char.ofNat byte.toNat = '.' ∨ Char.ofNat byte.toNat = '_' ∨ Char.ofNat byte.toNat = '~' := by
  have key : ∀ n < 128, isUnreserved (UInt8.ofNat n) → (Char.ofNat n).isAlphanum ∨
      Char.ofNat n = '-' ∨ Char.ofNat n = '.' ∨ Char.ofNat n = '_' ∨ Char.ofNat n = '~' := by
    decide
  refine key byte.toNat (toNat_of_isUnreserved h).1 ?_
  rwa [UInt8.ofNat_toNat]

theorem formText_flatMap_encodeByte (bytes : List UInt8) : FormText (bytes.flatMap encodeByte) := by
  induction bytes with
  | nil => exact .nil
  | cons byte bytes ih =>
    have hbyte : byte.toNat < 256 := byte.toNat_lt
    have hhigh := toNat_shiftRight_four byte
    have hlow := toNat_and_fifteen byte
    rw [List.flatMap_cons, encodeByte]
    split_ifs with hunreserved
    · exact .unreserved (unreserved_char hunreserved) ih
    · refine .group ?_ ?_ ih
      · rw [hexDigitValue_hexDigit (by omega)]
        rfl
      · rw [hexDigitValue_hexDigit (by omega)]
        rfl

/-- Decoding undoes the encoding of values, which gives unreserved characters and escapes only. It
succeeds exactly on what reads as tokens whose bytes are text, and gives that text. When it fails,
it points at a `%`: the first one that starts no escape, or else the escape that starts the first
invalid sequence. -/
theorem percentDecode_spec :
    (∀ value : String, percentDecode (encodeFormValue value) = .ok value ∧
      FormText (encodeFormValue value).toList) ∧
    (∀ input text : String, percentDecode input = .ok text ↔
      ∃ tokens, Spells tokens input.toList ∧ tokenBytes tokens = utf8Bytes text.toList) ∧
    (∀ (input : String) (e : ProtocolError), percentDecode input = .error e →
      ∃ position reason, e = .escaping position reason ∧
        (utf8Bytes input.toList)[position]? = some percent ∧
        (MalformedAt input.toList position ∨
          (∃ tokens, Spells tokens input.toList) ∧ InvalidAt input.toList position)) := by
  refine ⟨fun value => ⟨(carries_encodeFormValue value).2, ?_⟩,
    fun input text => percentDecode_eq_ok_iff, fun input e h => ?_⟩
  · rw [encodeFormValue, String.toList_ofList]
    exact formText_flatMap_encodeByte _
  · obtain ⟨position, reason, rfl, hposition⟩ := percentDecode_eq_error h
    refine ⟨position, reason, rfl, ?_, hposition⟩
    rcases hposition with ⟨_, before, tail, hinput, -, -, rfl⟩ |
      ⟨-, _, _, _, before, tail, _, hinput, -, -, -, -, rfl⟩
    · rw [hinput]
      exact getElem?_utf8Bytes before tail
    · rw [hinput]
      exact getElem?_utf8Bytes before tail

end Lightstreamer.Protocol
