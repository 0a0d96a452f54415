import Lightstreamer.Foundations.Utf8
import Lightstreamer.Protocol.Diff
import Lightstreamer.Protocol.Escaping

/-!
# What a server writes for a field value

The two formats of this module are stated from the server's side, as relations between a text and
what may be sent for it, and then read back with the decoders of the client.

* `PercentEncodes`: the meta characters are escaped, any other character may be. `percentDecode`
  gives the text back (`percentDecode_of_percentEncodes`).
* `EncodesInteger`: the letters of an integer in a diff. `decodeEncodedInteger` reads them, whatever
  follows (`EncodesInteger.decode`).
-/

namespace Lightstreamer.Protocol

open Foundations

/-! ## UTF-8 -/

theorem utf8Bytes_cons (c : Char) (text : List Char) :
    utf8Bytes (c :: text) = String.utf8EncodeChar c ++ utf8Bytes text := rfl

theorem utf8Bytes_append (text rest : List Char) :
    utf8Bytes (text ++ rest) = utf8Bytes text ++ utf8Bytes rest := List.flatMap_append

/-- A byte below 128 stands only for the character of that number. -/
theorem toNat_of_mem_utf8EncodeChar {c : Char} {byte : UInt8}
    (hb : byte ∈ String.utf8EncodeChar c) (hlt : byte.toNat < 128) : byte.toNat = c.toNat := by
  revert hb
  fun_cases String.utf8EncodeChar
  all_goals
    intro hb
    simp only [List.mem_cons, List.not_mem_nil, or_false] at hb
  · subst hb
    rw [UInt8.toNat_ofNat', Nat.mod_eq_of_lt (by omega)]
    rfl
  -- every byte of a longer encoding has its high bit set
  all_goals
    exfalso
    rcases hb with rfl | hb <;> (try rcases hb with rfl | hb) <;> (try rcases hb with rfl | hb) <;>
      (try subst hb) <;> rw [UInt8.toNat_ofNat'] at hlt <;> omega

theorem utf8EncodeChar_ascii {c : Char} (hc : c.toNat < 128) :
    String.utf8EncodeChar c = [UInt8.ofNat c.toNat] := by
  unfold String.utf8EncodeChar
  exact if_pos (Nat.le_of_lt_succ hc)

theorem decodeUtf8Fuel_utf8Bytes (text : List Char) {fuel offset : ℕ}
    (hfuel : (utf8Bytes text).length ≤ fuel) :
    decodeUtf8Fuel fuel offset (utf8Bytes text) = .ok text := by
  induction text generalizing fuel offset with
  | nil => cases fuel <;> rfl
  | cons c text ih =>
    have hlen : (String.utf8EncodeChar c).length = c.utf8Size := String.length_utf8EncodeChar c
    have hpos : 0 < c.utf8Size := c.utf8Size_pos
    have hchar : (utf8Bytes (c :: text)).toByteArray.utf8DecodeChar? 0 = some c := by
      rw [utf8Bytes_cons, List.toByteArray_append]
      exact ByteArray.utf8DecodeChar?_utf8EncodeChar_append
    have hdrop : (utf8Bytes (c :: text)).drop c.utf8Size = utf8Bytes text := by
      rw [utf8Bytes_cons, List.drop_left' hlen]
    have hsize : c.utf8Size + (utf8Bytes text).length ≤ fuel := by
      rwa [utf8Bytes_cons, List.length_append, hlen] at hfuel
    obtain ⟨fuel, rfl⟩ : ∃ k, fuel = k + 1 := ⟨fuel - 1, by omega⟩
    obtain ⟨b, bs, hbs⟩ : ∃ b bs, utf8Bytes (c :: text) = b :: bs :=
      List.exists_cons_of_ne_nil fun h => by
        have := congrArg List.length h
        rw [utf8Bytes_cons, List.length_append, hlen] at this
        simp only [List.length_nil] at this
        omega
    rw [hbs] at hchar hdrop ⊢
    simp only [decodeUtf8Fuel, hchar, hdrop]
    rw [ih (by omega)]
    rfl

theorem decodeUtf8_utf8Bytes (text : List Char) : decodeUtf8 (utf8Bytes text) = .ok text :=
  decodeUtf8Fuel_utf8Bytes text (Nat.le_refl _)

theorem decodeUtf8Fuel_eq_ok {fuel offset : ℕ} {bytes : List UInt8} {text : List Char}
    (h : decodeUtf8Fuel fuel offset bytes = .ok text) : bytes = utf8Bytes text := by
  induction fuel generalizing offset bytes text with
  | zero =>
    rcases bytes with _ | ⟨b, bs⟩
    · cases h
      rfl
    · cases h
  | succ fuel ih =>
    rcases bytes with _ | ⟨b, bs⟩
    · cases h
      rfl
    rw [decodeUtf8Fuel] at h
    split at h
    · cases h
    · next c hc =>
      obtain ⟨rest, hrest⟩ := exists_of_decodeChar hc
      rw [hrest, List.drop_left' (String.length_utf8EncodeChar c)] at h
      obtain ⟨behind, hbehind, rfl⟩ := map_eq_ok.mp h
      rw [hrest, ih hbehind, utf8Bytes_cons]

/-- Bytes are read exactly when they are the UTF-8 form of a text, and give that text. -/
theorem decodeUtf8_eq_ok_iff {bytes : List UInt8} {text : List Char} :
    decodeUtf8 bytes = .ok text ↔ utf8Bytes text = bytes := by
  constructor
  · exact fun h => (decodeUtf8Fuel_eq_ok h).symm
  · rintro rfl
    exact decodeUtf8_utf8Bytes text

/-- Where validation stops, no character starts, and what is before it is text. -/
theorem decodeUtf8Fuel_eq_error {fuel offset validUpTo : ℕ} {bytes : List UInt8}
    (hfuel : bytes.length ≤ fuel) (h : decodeUtf8Fuel fuel offset bytes = .error validUpTo) :
    ∃ text rest, bytes = utf8Bytes text ++ rest ∧ validUpTo = offset + (utf8Bytes text).length ∧
      rest ≠ [] ∧ ¬StartsChar rest := by
  induction fuel generalizing offset bytes with
  | zero =>
    cases List.length_eq_zero_iff.mp (Nat.le_zero.mp hfuel)
    cases h
  | succ fuel ih =>
    rcases bytes with _ | ⟨b, bs⟩
    · cases h
    rw [decodeUtf8Fuel] at h
    split at h
    · next hnone =>
      cases h
      exact ⟨[], b :: bs, rfl, rfl, List.cons_ne_nil _ _, not_startsChar hnone⟩
    · next c hc =>
      obtain ⟨rest, hrest⟩ := exists_of_decodeChar hc
      have hsize := String.length_utf8EncodeChar c
      have hpos := c.utf8Size_pos
      rw [hrest, List.length_append] at hfuel
      rw [hrest, List.drop_left' hsize] at h
      cases hdecode : decodeUtf8Fuel fuel (offset + c.utf8Size) rest with
      | ok text =>
        rw [hdecode] at h
        cases h
      | error e =>
        rw [hdecode] at h
        cases h
        obtain ⟨text, behind, rfl, rfl, hne, hstarts⟩ := ih (by omega) hdecode
        refine ⟨c :: text, behind, ?_, ?_, hne, hstarts⟩
        · rw [hrest, utf8Bytes_cons, List.append_assoc]
        · rw [utf8Bytes_cons, List.length_append, hsize, Nat.add_assoc]

theorem utf8Bytes_injective {text text' : List Char} (h : utf8Bytes text = utf8Bytes text') :
    text = text' := by
  have hdecode := decodeUtf8_utf8Bytes text
  rw [h, decodeUtf8_utf8Bytes] at hdecode
  exact (Except.ok.inj hdecode).symm

/-! ## Percent-encoding -/

/-- The value of a hexadecimal digit, of either case. -/
def hexDigitValue (digit : Char) : Option ℕ :=
  let code := digit.toNat
  if 48 ≤ code ∧ code ≤ 57 then some (code - 48)
  else if 97 ≤ code ∧ code ≤ 102 then some (code - 97 + 10)
  else if 65 ≤ code ∧ code ≤ 70 then some (code - 65 + 10)
  else none

/-- The characters that a value list cannot carry as they are. -/
def isMeta (c : Char) : Bool := c = '%' || c = '|' || c = '\r' || c = '\n'

/-- A run of bytes written as escapes. -/
inductive EscapesBytes : List UInt8 → List Char → Prop
  | nil : EscapesBytes [] []
  | cons {byte : UInt8} {bytes : List UInt8} {high low : Char} {h l : ℕ} {out : List Char}
      (hhigh : hexDigitValue high = some h) (hlow : hexDigitValue low = some l)
      (hbyte : byte.toNat = 16 * h + l) (hout : EscapesBytes bytes out) :
      EscapesBytes (byte :: bytes) ('%' :: high :: low :: out)

/-- A text written with any of its characters escaped, those that cannot stand plain among them. -/
inductive Escapes (plain : Char → Bool) : List Char → List Char → Prop
  | nil : Escapes plain [] []
  | plain {c : Char} {text out : List Char} (hc : plain c) (hout : Escapes plain text out) :
      Escapes plain (c :: text) (c :: out)
  | escaped {c : Char} {text escape out : List Char}
      (hescape : EscapesBytes (String.utf8EncodeChar c) escape) (hout : Escapes plain text out) :
      Escapes plain (c :: text) (escape ++ out)

/-- A text written with at least its meta characters escaped. -/
inductive PercentEncodes : List Char → List Char → Prop
  | nil : PercentEncodes [] []
  | plain {c : Char} {text out : List Char} (hc : isMeta c = false)
      (hout : PercentEncodes text out) : PercentEncodes (c :: text) (c :: out)
  | escaped {c : Char} {text escape out : List Char}
      (hescape : EscapesBytes (String.utf8EncodeChar c) escape)
      (hout : PercentEncodes text out) : PercentEncodes (c :: text) (escape ++ out)

/-- The two readings of a hex digit agree. -/
theorem hexValue_of_hexDigitValue {digit : Char} {n : ℕ} (h : hexDigitValue digit = some n) :
    digit.toNat < 128 ∧ n < 16 ∧ hexValue (UInt8.ofNat digit.toNat) = some (UInt8.ofNat n) := by
  have key : ∀ code < 103, 48 ≤ code → (code ≤ 57 ∨ 97 ≤ code ∨ 65 ≤ code ∧ code ≤ 70) →
      hexValue (UInt8.ofNat code) = some (UInt8.ofNat (if code ≤ 57 then code - 48
        else if 97 ≤ code then code - 97 + 10 else code - 65 + 10)) := by decide
  unfold hexDigitValue at h
  dsimp only at h
  split at h
  · next hd =>
    cases h
    refine ⟨by omega, by omega, ?_⟩
    rw [key _ (by omega) hd.1 (.inl hd.2), if_pos hd.2]
  split at h
  · next hd ha =>
    cases h
    refine ⟨by omega, by omega, ?_⟩
    rw [key _ (by omega) (by omega) (.inr (.inl ha.1)), if_neg (by omega), if_pos ha.1]
  split at h
  · next hd ha hA =>
    cases h
    refine ⟨by omega, by omega, ?_⟩
    rw [key _ (by omega) (by omega) (.inr (.inr hA)), if_neg (by omega), if_neg (by omega)]
  · cases h

theorem nibbles_eq {byte : UInt8} {h l : ℕ} (hh : h < 16) (hl : l < 16)
    (hbyte : byte.toNat = 16 * h + l) : UInt8.ofNat h <<< 4 ||| UInt8.ofNat l = byte := by
  have key : ∀ h < 16, ∀ l < 16,
      UInt8.ofNat h <<< 4 ||| UInt8.ofNat l = UInt8.ofNat (16 * h + l) := by decide
  rw [key h hh l hl, ← hbyte, UInt8.ofNat_toNat]

theorem decodeEscapes_cons_of_ne {byte : UInt8} (hb : byte ≠ percent) (index : ℕ)
    (rest : List UInt8) :
    decodeEscapes index (byte :: rest) = (byte :: ·) <$> decodeEscapes (index + 1) rest := by
  rw [decodeEscapes.eq_def]
  exact if_pos hb

/-- Bytes other than `%` pass through the scan. -/
theorem decodeEscapes_append_of_forall_ne {bytes rest decoded : List UInt8}
    (hb : ∀ byte ∈ bytes, byte ≠ percent) (hrest : ∀ index, decodeEscapes index rest = .ok decoded)
    (index : ℕ) : decodeEscapes index (bytes ++ rest) = .ok (bytes ++ decoded) := by
  induction bytes generalizing index with
  | nil => exact hrest index
  | cons byte bytes ih =>
    obtain ⟨hbyte, hb⟩ := List.forall_mem_cons.mp hb
    rw [List.cons_append, decodeEscapes_cons_of_ne hbyte, ih hb]
    rfl

namespace EscapesBytes

/-- The scan gives the bytes of a run of escapes. -/
theorem decodeEscapes_append {bytes rest decoded : List UInt8} {out : List Char}
    (h : EscapesBytes bytes out) (hrest : ∀ index, decodeEscapes index rest = .ok decoded)
    (index : ℕ) : decodeEscapes index (utf8Bytes out ++ rest) = .ok (bytes ++ decoded) := by
  induction h generalizing index with
  | nil => exact hrest index
  | @cons byte bytes high low h l out hhigh hlow hbyte _ ih =>
    obtain ⟨hhigh128, hh, hhigh⟩ := hexValue_of_hexDigitValue hhigh
    obtain ⟨hlow128, hl, hlow⟩ := hexValue_of_hexDigitValue hlow
    rw [utf8Bytes_cons, utf8Bytes_cons, utf8Bytes_cons, utf8EncodeChar_ascii hhigh128,
      utf8EncodeChar_ascii hlow128, utf8EncodeChar_ascii (by decide)]
    simp only [List.cons_append, List.nil_append]
    rw [decodeEscapes.eq_def]
    simp only [hhigh, hlow, ih, nibbles_eq hh hl hbyte]
    rfl

theorem percent_mem {bytes : List UInt8} {out : List Char} (h : EscapesBytes bytes out)
    (hne : bytes ≠ []) : percent ∈ utf8Bytes out := by
  cases h with
  | nil => exact absurd rfl hne
  | cons => exact List.mem_append_left _ (by decide)

theorem forall_mem {bytes : List UInt8} {out : List Char} (h : EscapesBytes bytes out) :
    ∀ c ∈ out, c = '%' ∨ (hexDigitValue c).isSome := by
  induction h with
  | nil => exact nofun
  | cons hhigh hlow _ _ ih =>
    simp only [List.forall_mem_cons, hhigh, hlow, Option.isSome_some, or_true, true_or, true_and]
    exact ih

end EscapesBytes

theorem ne_percent_of_mem_utf8EncodeChar {c : Char} (hc : c ≠ '%') :
    ∀ byte ∈ String.utf8EncodeChar c, byte ≠ percent := by
  rintro byte hb rfl
  have h := toNat_of_mem_utf8EncodeChar hb (by decide)
  exact hc (Char.toNat_inj.mp h.symm)

namespace Escapes

variable {plain : Char → Bool} {text out : List Char}

theorem decodeEscapes_utf8Bytes (h : Escapes plain text out) (hpercent : plain '%' = false)
    (index : ℕ) : decodeEscapes index (utf8Bytes out) = .ok (utf8Bytes text) := by
  induction h generalizing index with
  | nil => rfl
  | @plain c text out hc _ ih =>
    have hc : c ≠ '%' := by
      rintro rfl
      rw [hpercent] at hc
      cases hc
    exact decodeEscapes_append_of_forall_ne (ne_percent_of_mem_utf8EncodeChar hc) ih index
  | @escaped c text escape out hescape _ ih =>
    rw [utf8Bytes_append, utf8Bytes_cons]
    exact hescape.decodeEscapes_append ih index

/-- Without an escape, the text is sent as it is. -/
theorem eq_of_percent_notMem (h : Escapes plain text out) (hp : percent ∉ utf8Bytes out) :
    out = text := by
  induction h with
  | nil => rfl
  | plain _ _ ih =>
    rw [utf8Bytes_cons, List.mem_append, not_or] at hp
    rw [ih hp.2]
  | escaped hescape _ _ =>
    rw [utf8Bytes_append, List.mem_append, not_or] at hp
    exact absurd (hescape.percent_mem String.utf8EncodeChar_ne_nil) hp.1

/-- A character that cannot stand plain is not sent, but for what escapes are made of. -/
theorem notMem (h : Escapes plain text out) {c : Char} (hc : plain c = false) (hpercent : c ≠ '%')
    (hdigit : hexDigitValue c = none) : c ∉ out := by
  induction h with
  | nil => exact List.not_mem_nil
  | plain hplain _ ih =>
    rw [List.mem_cons, not_or]
    refine ⟨?_, ih⟩
    rintro rfl
    rw [hc] at hplain
    cases hplain
  | escaped hescape _ ih =>
    rw [List.mem_append, not_or]
    refine ⟨fun hmem => ?_, ih⟩
    rcases hescape.forall_mem _ hmem with h | h
    · exact hpercent h
    · rw [hdigit] at h
      cases h

/-- Percent-decoding gives back the text, whichever characters the server chose to escape. -/
theorem percentDecode_eq (h : Escapes plain text out) (hpercent : plain '%' = false) :
    percentDecode (String.ofList out) = .ok (String.ofList text) := by
  unfold percentDecode
  rw [String.toList_ofList]
  dsimp only
  split
  · rw [h.decodeEscapes_utf8Bytes hpercent]
    simp only [Except.bind, bind, decodeUtf8_utf8Bytes]
  · next hp => rw [h.eq_of_percent_notMem hp]

end Escapes

namespace PercentEncodes

theorem escapes {text out : List Char} (h : PercentEncodes text out) :
    Escapes (fun c => !isMeta c) text out := by
  induction h with
  | nil => exact .nil
  | plain hc _ ih => exact .plain (by rw [hc]; rfl) ih
  | escaped hescape _ ih => exact .escaped hescape ih

/-- What is sent carries no meta character but the `%` of an escape. -/
theorem notMem_pipe {text out : List Char} (h : PercentEncodes text out) : '|' ∉ out :=
  h.escapes.notMem (by decide) (by decide) (by decide)

end PercentEncodes

theorem percentDecode_of_percentEncodes {text out : List Char} (h : PercentEncodes text out) :
    percentDecode (String.ofList out) = .ok (String.ofList text) :=
  h.escapes.percentDecode_eq (by decide)

/-! ## TLCP-diff -/

/-- The letters of an integer: the last one is small, the others are capital. -/
def integerLetters (capitals : List (Fin 26)) (small : Fin 26) : List Char :=
  capitals.map (fun v : Fin 26 => Char.ofNat (65 + v.val)) ++ [Char.ofNat (97 + small.val)]

/-- What capital letters are worth in front of the final one: each weighs its index plus one. -/
def capitalsValue (accumulator : ℕ) (capitals : List (Fin 26)) : ℕ :=
  capitals.foldl (fun n v => n * 26 + (v.val + 1)) accumulator

/-- Some letters spell an integer. -/
def EncodesInteger (n : ℕ) (letters : List Char) : Prop :=
  ∃ capitals small, letters = integerLetters capitals small ∧
    n = capitalsValue 0 capitals * 26 + small

theorem le_capitalsValue (accumulator : ℕ) (capitals : List (Fin 26)) :
    accumulator ≤ capitalsValue accumulator capitals := by
  induction capitals generalizing accumulator with
  | nil => exact Nat.le_refl _
  | cons v capitals ih =>
    calc accumulator ≤ accumulator * 26 + (v + 1) := by omega
      _ ≤ capitalsValue accumulator (v :: capitals) := ih _

theorem capital_letter (v : Fin 26) : (Char.ofNat (65 + v.val)).isUpper = true ∧
    alphabetIndex (Char.ofNat (65 + v.val)) 'A' = .ok v.val := by
  revert v
  decide

theorem small_letter (v : Fin 26) : (Char.ofNat (97 + v.val)).isUpper = false ∧
    (Char.ofNat (97 + v.val)).isLower = true ∧
    alphabetIndex (Char.ofNat (97 + v.val)) 'a' = .ok v.val := by
  revert v
  decide

theorem checkedAdd_of_le {max a b : ℕ} (h : a + b ≤ max) : checkedAdd max a b = some (a + b) :=
  if_pos h

theorem checkedMul_of_le {max a b : ℕ} (h : a * b ≤ max) : checkedMul max a b = some (a * b) :=
  if_pos h

theorem decodeEncodedInteger_integerLetters (capitals : List (Fin 26)) (small : Fin 26)
    (rest : List Char) {accumulator : ℕ}
    (hmax : capitalsValue accumulator capitals * 26 + small ≤ usizeMax) :
    decodeEncodedInteger accumulator (integerLetters capitals small ++ rest) =
      .ok (capitalsValue accumulator capitals * 26 + small, rest) := by
  induction capitals generalizing accumulator with
  | nil =>
    obtain ⟨hupper, hlower, hvalue⟩ := small_letter small
    have hmax : accumulator * 26 + small ≤ usizeMax := hmax
    change decodeEncodedInteger accumulator (Char.ofNat (97 + small.val) :: rest) = _
    rw [decodeEncodedInteger, hupper, hlower, hvalue]
    simp only [Bool.false_eq_true, if_false, if_true, bind, Except.bind]
    rw [checkedMul_of_le (by omega), Option.bind_some, checkedAdd_of_le hmax]
    rfl
  | cons v capitals ih =>
    obtain ⟨hupper, hvalue⟩ := capital_letter v
    -- the accumulator only grows, so it is in range when the whole integer is
    have hstep : accumulator * 26 + (v + 1) ≤ usizeMax := by
      have := le_capitalsValue (accumulator * 26 + (v + 1)) capitals
      have : capitalsValue (accumulator * 26 + (v + 1)) capitals * 26 + small ≤ usizeMax := hmax
      omega
    change decodeEncodedInteger accumulator
      (Char.ofNat (65 + v.val) :: (integerLetters capitals small ++ rest)) = _
    rw [decodeEncodedInteger, hupper, hvalue]
    simp only [if_true, bind, Except.bind]
    rw [checkedMul_of_le (by omega), checkedAdd_of_le (by omega), Option.bind_some,
      Option.bind_some, checkedAdd_of_le hstep]
    exact ih hmax

theorem EncodesInteger.decode {n : ℕ} {letters : List Char} (h : EncodesInteger n letters)
    (hmax : n ≤ usizeMax) (rest : List Char) :
    decodeEncodedInteger 0 (letters ++ rest) = .ok (n, rest) := by
  obtain ⟨capitals, small, rfl, rfl⟩ := h
  exact decodeEncodedInteger_integerLetters capitals small rest hmax

theorem EncodesInteger.length_pos {n : ℕ} {letters : List Char} (h : EncodesInteger n letters) :
    0 < letters.length := by
  obtain ⟨capitals, small, rfl, -⟩ := h
  rw [integerLetters, List.length_append]
  exact Nat.lt_of_lt_of_le Nat.zero_lt_one (Nat.le_add_left _ _)

theorem EncodesInteger.append_ne_nil {n : ℕ} {letters : List Char} (h : EncodesInteger n letters)
    (rest : List Char) : letters ++ rest ≠ [] :=
  List.append_ne_nil_of_left_ne_nil (List.ne_nil_of_length_pos h.length_pos) _

theorem EncodesInteger.not_isAstral {n : ℕ} {letters : List Char} (h : EncodesInteger n letters) :
    ∀ c ∈ letters, isAstral c = false := by
  obtain ⟨capitals, small, rfl, -⟩ := h
  have hcapital : ∀ v : Fin 26, isAstral (Char.ofNat (65 + v.val)) = false := by decide
  have hsmall : ∀ v : Fin 26, isAstral (Char.ofNat (97 + v.val)) = false := by decide
  intro c hc
  rcases List.mem_append.mp hc with hc | hc
  · obtain ⟨v, -, rfl⟩ := List.mem_map.mp hc
    exact hcapital v
  · rw [List.mem_singleton.mp hc]
    exact hsmall small

theorem rejectAstral_of_forall {text : List Char} (h : ∀ c ∈ text, isAstral c = false)
    (role : String) : rejectAstral text role = .ok () := by
  have hfind : text.find? isAstral = none := by
    rw [List.find?_eq_none]
    exact fun c hc => by rw [h c hc]; exact Bool.false_ne_true
  rw [rejectAstral, hfind]

end Lightstreamer.Protocol
