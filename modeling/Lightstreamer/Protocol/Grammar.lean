import Lightstreamer.Protocol.Response
import Lightstreamer.Protocol.Unescaping
import Mathlib.Data.List.Forall2

/-!
# The grammar of the lines

`InGrammar` is the set of lines that the protocol has, stated without the parser: a tag, then as
many pieces behind commas as the tag has arguments, the last of which keeps its commas, and each
piece spelled as its slot asks. A number is a run of decimal digits, with a minus sign for the codes
alone.

`parseLine` reads numbers with `str::parse`, which takes a plus sign in front of them as well. A
line that is in the grammar but for such signs is `PlusSigned`. `parseLine_grammar_iff`: there is no
other kind of line on which the parser and the grammar differ.
-/

namespace Lightstreamer.Protocol

/-! ## The format -/

/-- What stands in an argument. -/
inductive Slot
  /-- An unsigned number up to a bound. -/
  | number (max : ℕ)
  /-- A signed code of 64 bits. -/
  | code
  /-- An escaped text. -/
  | text
  /-- A text as it is. -/
  | raw
  deriving DecidableEq

namespace Slot

/-- The spellings of an argument. -/
def Spelled : Slot → List Char → Prop
  | number max, piece => ∃ n ≤ max, Numeral piece n
  | code, piece => (∃ n < 2 ^ 63, Numeral piece n) ∨
      ∃ digits, piece = '-' :: digits ∧ ∃ n ≤ 2 ^ 63, Numeral digits n
  | text, piece => ∃ tokens t, Spells tokens piece ∧ tokenBytes tokens = utf8Bytes t
  | raw, _ => True

/-- A number behind a plus sign. -/
def Plussed : Slot → List Char → Prop
  | number max, piece => ∃ digits, piece = '+' :: digits ∧ ∃ n ≤ max, Numeral digits n
  | code, piece => ∃ digits, piece = '+' :: digits ∧ ∃ n < 2 ^ 63, Numeral digits n
  | text, _ => False
  | raw, _ => False

end Slot

/-- The arguments that a tag may have, in order: one list for most tags, two for a `REQOK`. -/
def slotsOf : String → List (List Slot)
  | "U" => [[.number u32Max, .number u32Max, .raw]]
  | "SUBOK" => [[.number u32Max, .number u32Max, .number u32Max]]
  | "SUBCMD" => [[.number u32Max, .number u32Max, .number u32Max, .number u32Max,
      .number u32Max]]
  | "UNSUB" => [[.number u32Max]]
  | "EOS" => [[.number u32Max, .number u32Max]]
  | "CS" => [[.number u32Max, .number u32Max]]
  | "OV" => [[.number u32Max, .number u32Max, .number u64Max]]
  | "CONF" => [[.number u32Max, .text, .text]]
  | "MSGDONE" => [[.text, .number u64Max, .text]]
  | "MSGFAIL" => [[.text, .number u64Max, .code, .text]]
  | "CONS" => [[.text]]
  | "SYNC" => [[.number u64Max]]
  | "CLIENTIP" => [[.text]]
  | "SERVNAME" => [[.text]]
  | "PROG" => [[.number u64Max]]
  | "NOOP" => [[.text]]
  | "PROBE" => [[]]
  | "LOOP" => [[.number u64Max]]
  | "END" => [[.code, .text]]
  | "CONOK" => [[.text, .number u64Max, .number u64Max, .text]]
  | "CONERR" => [[.code, .text]]
  | "REQOK" => [[], [.text]]
  | "REQERR" => [[.text, .code, .text]]
  | "ERROR" => [[.code, .text]]
  | "WSOK" => [[]]
  | _ => []

/-- A line without its terminator, of which it has at most one. -/
inductive Unterminated : List Char → List Char → Prop
  | crlf (body : List Char) : Unterminated (body ++ ['\r', '\n']) body
  | lf {body : List Char} (hcr : body.getLast? ≠ some '\r') : Unterminated (body ++ ['\n']) body
  | cr (body : List Char) : Unterminated (body ++ ['\r']) body
  | bare {body : List Char} (hcr : body.getLast? ≠ some '\r') (hlf : body.getLast? ≠ some '\n') :
      Unterminated body body

/-- A tag and the pieces behind it, each behind a comma; only the last one keeps commas. -/
structure Cut (body tag : List Char) (pieces : List (List Char)) : Prop where
  body_eq : body = tag ++ pieces.flatMap (',' :: ·)
  tag_notMem : ',' ∉ tag
  piece_notMem : ∀ piece ∈ pieces.dropLast, ',' ∉ piece

/-- A line of a known tag, with the pieces that `P` asks for. -/
def Formed (P : List Slot → List (List Char) → Prop) (line : List Char) : Prop :=
  ∃ body tag pieces, Unterminated line body ∧ Cut body tag.toList pieces ∧
    ∃ slots ∈ slotsOf tag, P slots pieces

/-- The lines of the protocol. -/
def InGrammar : List Char → Prop := Formed (List.Forall₂ Slot.Spelled)

/-- The lines that would be in the grammar without the plus sign of some numbers. -/
def PlusSigned : List Char → Prop :=
  Formed fun slots pieces =>
    List.Forall₂ (fun slot piece => slot.Spelled piece ∨ slot.Plussed piece) slots pieces ∧
      ¬List.Forall₂ Slot.Spelled slots pieces

/-! ## Arguments -/

/-- What the parser reads in a slot. -/
def Slot.Read (slot : Slot) (piece : List Char) : Prop := slot.Spelled piece ∨ slot.Plussed piece

theorem Slot.raw_read (piece : List Char) : Slot.raw.Read piece := .inl trivial

theorem Numeral.head_isDigit {c : Char} {text : List Char} {n : ℕ} (h : Numeral (c :: text) n) :
    c.isDigit :=
  h.2.1 c List.mem_cons_self

theorem parseUnsigned_eq_some_iff {max n : ℕ} {text : List Char} :
    parseUnsigned max text = some n ↔
      n ≤ max ∧ (Numeral text n ∨ ∃ digits, text = '+' :: digits ∧ Numeral digits n) := by
  have hfilter : ∀ digits, (parseDigits digits).filter (· ≤ max) = some n ↔
      n ≤ max ∧ Numeral digits n := fun digits => by
    rw [Option.filter_eq_some_iff, parseDigits_eq_some_iff, decide_eq_true_eq, and_comm]
  unfold parseUnsigned
  split
  · next digits =>
    rw [hfilter]
    refine and_congr_right fun _ => ⟨fun h => .inr ⟨digits, rfl, h⟩, ?_⟩
    rintro (h | ⟨digits', heq, h⟩)
    · exact absurd h.head_isDigit (by decide)
    · cases heq
      exact h
  · next hplus =>
    rw [hfilter]
    refine and_congr_right fun _ => ⟨.inl, ?_⟩
    rintro (h | ⟨digits, rfl, -⟩)
    · exact h
    · exact absurd rfl (hplus digits)

theorem number_succeeds_iff {max : ℕ} {tag argument : String} {piece : List Char} :
    (∃ n, number max tag argument piece = .ok n) ↔ (Slot.number max).Read piece := by
  have hparse : (∃ n, number max tag argument piece = .ok n) ↔
      ∃ n, parseUnsigned max piece = some n := by
    unfold number
    cases parseUnsigned max piece <;> simp
  rw [hparse]
  constructor
  · rintro ⟨n, h⟩
    obtain ⟨hle, hn | ⟨digits, rfl, hn⟩⟩ := parseUnsigned_eq_some_iff.mp h
    · exact .inl ⟨n, hle, hn⟩
    · exact .inr ⟨digits, rfl, n, hle, hn⟩
  · rintro (⟨n, hle, h⟩ | ⟨digits, rfl, n, hle, h⟩)
    · exact ⟨n, parseUnsigned_eq_some_iff.mpr ⟨hle, .inl h⟩⟩
    · exact ⟨n, parseUnsigned_eq_some_iff.mpr ⟨hle, .inr ⟨digits, rfl, h⟩⟩⟩

/-- A run of digits within a bound. -/
theorem digits_within_iff {p : ℕ → Prop} [DecidablePred p] {f : ℕ → ℤ} {digits : List Char} :
    (∃ z, ((parseDigits digits).bind fun n => if p n then some (f n) else none) = some z) ↔
      ∃ n, p n ∧ Numeral digits n := by
  constructor
  · rintro ⟨z, h⟩
    obtain ⟨n, hn, h⟩ := Option.bind_eq_some_iff.mp h
    split_ifs at h with hp
    exact ⟨n, hp, parseDigits_eq_some_iff.mp hn⟩
  · rintro ⟨n, hp, hn⟩
    exact ⟨f n, by rw [parseDigits_eq_some_iff.mpr hn, Option.bind_some, if_pos hp]⟩

theorem signedNumber_succeeds_iff {tag argument : String} {piece : List Char} :
    (∃ n, signedNumber tag argument piece = .ok n) ↔ Slot.code.Read piece := by
  have hparse : (∃ n, signedNumber tag argument piece = .ok n) ↔
      ∃ n, parseI64 piece = some n := by
    unfold signedNumber
    cases parseI64 piece <;> simp
  rw [hparse]
  unfold parseI64
  split
  · next digits =>
    rw [digits_within_iff]
    constructor
    · rintro ⟨n, hle, h⟩
      exact .inl (.inr ⟨digits, rfl, n, hle, h⟩)
    · rintro ((⟨n, -, h⟩ | ⟨digits', heq, n, hle, h⟩) | ⟨digits', heq, -⟩)
      · exact absurd h.head_isDigit (by decide)
      · cases heq
        exact ⟨n, hle, h⟩
      · cases heq
  · next digits =>
    rw [digits_within_iff]
    constructor
    · rintro ⟨n, hlt, h⟩
      exact .inr ⟨digits, rfl, n, hlt, h⟩
    · rintro ((⟨n, -, h⟩ | ⟨digits', heq, -⟩) | ⟨digits', heq, n, hlt, h⟩)
      · exact absurd h.head_isDigit (by decide)
      · cases heq
      · cases heq
        exact ⟨n, hlt, h⟩
  · next hminus hplus =>
    rw [digits_within_iff]
    constructor
    · rintro ⟨n, hlt, h⟩
      exact .inl (.inl ⟨n, hlt, h⟩)
    · rintro ((⟨n, hlt, h⟩ | ⟨digits, rfl, -⟩) | ⟨digits, rfl, -⟩)
      · exact ⟨n, hlt, h⟩
      · exact absurd rfl (hminus digits)
      · exact absurd rfl (hplus digits)

theorem decode_succeeds_iff {piece : List Char} :
    (∃ t, decode piece = .ok t) ↔ Slot.text.Read piece := by
  unfold decode
  constructor
  · rintro ⟨t, h⟩
    obtain ⟨tokens, hspells, htext⟩ := percentDecode_eq_ok_iff.mp h
    rw [String.toList_ofList] at hspells
    exact .inl ⟨tokens, t.toList, hspells, htext⟩
  · rintro (⟨tokens, t, hspells, htext⟩ | h)
    · refine ⟨String.ofList t, percentDecode_eq_ok_iff.mpr ⟨tokens, ?_, ?_⟩⟩
      · rwa [String.toList_ofList]
      · rwa [String.toList_ofList]
    · exact h.elim

/-! ## Terminators -/

theorem getLast?_ne_of_reverse {c : Char} {cs : List Char} (h : ∀ rest, cs.reverse ≠ c :: rest) :
    cs.getLast? ≠ some c := fun hlast => by
  rw [← List.head?_reverse, List.head?_eq_some_iff] at hlast
  obtain ⟨rest, hrest⟩ := hlast
  exact h rest hrest

theorem reverse_ne_of_getLast? {c : Char} {cs : List Char} (h : cs.getLast? ≠ some c)
    (rest : List Char) : cs.reverse ≠ c :: rest := fun heq => by
  rw [← List.head?_reverse, heq] at h
  exact h rfl

theorem eq_append_of_reverse (tail : List Char) {line rest : List Char}
    (h : line.reverse = tail ++ rest) :
    line = rest.reverse ++ tail.reverse := by
  rw [← List.reverse_reverse line, h, List.reverse_append]

/-- What `stripTerminator` removes is the terminator. -/
theorem unterminated_iff {line body : List Char} :
    Unterminated line body ↔ stripTerminator line = body := by
  constructor
  · intro h
    cases h with
    | crlf => simp [stripTerminator]
    | lf hcr =>
      have hne := reverse_ne_of_getLast? hcr
      simp only [stripTerminator, List.reverse_append, List.reverse_singleton,
        List.singleton_append]
      exact List.reverse_reverse body
    | cr => simp [stripTerminator]
    | bare hcr hlf =>
      have hcr := reverse_ne_of_getLast? hcr
      have hlf := reverse_ne_of_getLast? hlf
      unfold stripTerminator
      split
      · next heq => exact absurd heq (hlf _)
      · next heq => exact absurd heq (hlf _)
      · next heq => exact absurd heq (hcr _)
      · rfl
  · rintro rfl
    unfold stripTerminator
    split
    · next rest heq =>
      have hline := eq_append_of_reverse ['\n', '\r'] heq
      nth_rewrite 1 [hline]
      exact .crlf rest.reverse
    · next rest hcr heq =>
      have hline := eq_append_of_reverse ['\n'] heq
      nth_rewrite 1 [hline]
      refine .lf (getLast?_ne_of_reverse fun rest' heq' => ?_)
      rw [List.reverse_reverse] at heq'
      exact hcr rest' heq'
    · next rest heq =>
      have hline := eq_append_of_reverse ['\r'] heq
      nth_rewrite 1 [hline]
      exact .cr rest.reverse
    · next hcrlf hlf hcr =>
      exact .bare (getLast?_ne_of_reverse hcr) (getLast?_ne_of_reverse hlf)

/-! ## Cuts -/

/-- The tag of a line, and what stands behind its first comma. -/
def tagAndRest (body : List Char) : String × Option (List Char) :=
  match splitOnce ',' body with
  | some (tag, rest) => (String.ofList tag, some rest)
  | none => (String.ofList body, none)

/-- The pieces behind a tag: none without a comma, else as many as the split gives. -/
def Behind (rest : Option (List Char)) (pieces : List (List Char)) : Prop :=
  match rest with
  | none => pieces = []
  | some rest => pieces ≠ [] ∧ splitN ',' pieces.length rest = pieces

/-- The fixed split gives back the pieces that were put together. -/
theorem splitN_eq_iff {piece rest : List Char} {more : List (List Char)} :
    splitN ',' (piece :: more).length rest = piece :: more ↔
      ',' :: rest = (piece :: more).flatMap (',' :: ·) ∧
        ∀ p ∈ (piece :: more).dropLast, ',' ∉ p := by
  induction more generalizing piece rest with
  | nil =>
    show [rest] = [piece] ↔ _
    simp
  | cons next more ih =>
    rw [List.length_cons, List.length_cons, splitN, ← List.length_cons]
    have hflat : (piece :: next :: more).flatMap (',' :: ·) =
        ',' :: (piece ++ (next :: more).flatMap (',' :: ·)) := rfl
    rw [hflat, List.dropLast_cons_cons, List.forall_mem_cons]
    by_cases hcomma : ',' ∈ rest
    · obtain ⟨before, behind, rfl, hbefore⟩ := List.eq_append_cons_of_mem hcomma
      rw [splitOnce_append behind hbefore]
      dsimp only
      rw [List.cons_eq_cons, ih]
      constructor
      · rintro ⟨rfl, hbehind, hmore⟩
        exact ⟨by rw [hbehind], hbefore, hmore⟩
      · rintro ⟨heq, hpiece, hmore⟩
        have heq := (List.cons.inj heq).2
        have hsplit := splitOnce_append behind hbefore
        have htail : ∃ tail, (next :: more).flatMap (',' :: ·) = ',' :: tail := ⟨_, rfl⟩
        obtain ⟨tail, htail⟩ := htail
        rw [heq, htail, splitOnce_append tail hpiece, Option.some.injEq, Prod.mk.injEq] at hsplit
        obtain ⟨rfl, rfl⟩ := hsplit
        exact ⟨rfl, htail.symm, hmore⟩
    · rw [splitOnce_of_notMem hcomma]
      refine iff_of_false (by simp) ?_
      rintro ⟨heq, -⟩
      rw [(List.cons.inj heq).2] at hcomma
      exact hcomma (List.mem_append_right _ List.mem_cons_self)

theorem cut_iff {body : List Char} {tag : String} {pieces : List (List Char)} :
    Cut body tag.toList pieces ↔ ∃ rest, tagAndRest body = (tag, rest) ∧ Behind rest pieces := by
  constructor
  · rintro ⟨rfl, htag, hpieces⟩
    cases pieces with
    | nil =>
      refine ⟨none, ?_, rfl⟩
      rw [List.flatMap_nil, List.append_nil, tagAndRest, splitOnce_of_notMem htag,
        String.ofList_toList]
    | cons piece more =>
      refine ⟨some (piece ++ more.flatMap (',' :: ·)), ?_, List.cons_ne_nil _ _,
        splitN_eq_iff.mpr ⟨rfl, hpieces⟩⟩
      have hflat : (piece :: more).flatMap (',' :: ·) =
          ',' :: (piece ++ more.flatMap (',' :: ·)) := rfl
      rw [hflat, tagAndRest, splitOnce_append _ htag]
      dsimp only
      rw [String.ofList_toList]
  · rintro ⟨rest, htag, hbehind⟩
    unfold tagAndRest at htag
    by_cases hcomma : ',' ∈ body
    · obtain ⟨before, behind, rfl, hbefore⟩ := List.eq_append_cons_of_mem hcomma
      rw [splitOnce_append behind hbefore] at htag
      cases htag
      obtain ⟨hne, hsplit⟩ := hbehind
      obtain ⟨piece, more, rfl⟩ := List.exists_cons_of_ne_nil hne
      obtain ⟨hflat, hpieces⟩ := splitN_eq_iff.mp hsplit
      rw [String.toList_ofList, hflat]
      exact ⟨rfl, hbefore, hpieces⟩
    · rw [splitOnce_of_notMem hcomma] at htag
      cases htag
      cases hbehind
      rw [String.toList_ofList]
      exact ⟨(List.append_nil body).symm, hcomma, fun piece hp => by cases hp⟩

theorem ofFn_getElem_of_length {pieces : List (List Char)} {n : ℕ} (h : pieces.length = n) :
    (List.ofFn fun i : Fin n => pieces[i]) = pieces := by
  subst h
  exact List.ofFn_getElem

/-- The arguments that the fixed split gives are the pieces. -/
theorem splitFixed_succeeds_iff {n : ℕ} {tag : String} {rest : Option (List Char)}
    {P : List (List Char) → Prop} :
    (∃ args, splitFixed n tag rest = .ok args ∧ P (List.ofFn args)) ↔
      ∃ pieces, pieces.length = n ∧ Behind rest pieces ∧ P pieces := by
  cases rest with
  | none =>
    constructor
    · rintro ⟨args, h, hP⟩
      unfold splitFixed at h
      dsimp only at h
      split_ifs at h with hn
      subst hn
      exact ⟨[], rfl, rfl, hP⟩
    · rintro ⟨pieces, rfl, rfl, hP⟩
      exact ⟨_, rfl, hP⟩
  | some rest =>
    constructor
    · rintro ⟨args, h, hP⟩
      unfold splitFixed at h
      dsimp only at h
      split_ifs at h with hn hlength
      cases h
      rw [ofFn_getElem_of_length hlength] at hP
      refine ⟨splitN ',' n rest, hlength, ⟨fun hnil => ?_, by rw [hlength]⟩, hP⟩
      rw [hnil] at hlength
      exact hn hlength.symm
    · rintro ⟨pieces, rfl, ⟨hne, hsplit⟩, hP⟩
      have hlength : (splitN ',' pieces.length rest).length = pieces.length := by rw [hsplit]
      have hpos : pieces.length ≠ 0 := fun h => hne (List.length_eq_zero_iff.mp h)
      refine ⟨fun i => (splitN ',' pieces.length rest)[i], ?_, ?_⟩
      · rw [splitFixed]
        dsimp only
        rw [if_neg hpos, dif_pos hlength]
      · rwa [ofFn_getElem_of_length hlength, hsplit]

/-! ## Lines -/

theorem succeeds_bind_iff {ε : Type*} {α β : Type _} {x : Except ε α} {f : α → Except ε β} :
    (∃ b, x >>= f = .ok b) ↔ ∃ a, x = .ok a ∧ ∃ b, f a = .ok b := by
  simp only [bind_eq_ok]
  exact ⟨fun ⟨b, a, ha, hb⟩ => ⟨a, ha, b, hb⟩, fun ⟨a, ha, b, hb⟩ => ⟨b, a, ha, hb⟩⟩

theorem succeeds_pure {ε : Type*} {α : Type _} (a : α) :
    (∃ b, (pure a : Except ε α) = .ok b) ↔ True :=
  iff_true_intro ⟨a, rfl⟩

theorem splitFixed_succ_none (n : ℕ) (tag : String) :
    splitFixed (n + 1) tag none = .error (.argumentCount tag (n + 1) 0) := by
  rw [splitFixed]
  exact dif_neg (Nat.succ_ne_zero n)

/-- A line without a comma is a tag that needs no argument. -/
theorem parseLine_bare_iff {line : String}
    (h : splitOnce ',' (stripTerminator line.toList) = none) :
    (∃ n, parseLine line = .ok n) ↔
      [] ∈ slotsOf (String.ofList (stripTerminator line.toList)) := by
  unfold parseLine
  dsimp only
  rw [h]
  dsimp only
  generalize String.ofList (stripTerminator line.toList) = tag
  split
  all_goals
    simp only [slotsOf, succeeds_bind_iff, splitFixed_succ_none, reduceCtorEq, false_and,
      exists_false, List.mem_cons, List.not_mem_nil, or_false, or_self]
  case h_17 | h_25 => exact iff_of_true ⟨_, rfl, _, rfl⟩ trivial
  case h_22 => exact iff_of_true ⟨_, rfl⟩ trivial

/-- A line with a comma is read slot by slot. -/
theorem parseLine_comma_iff {line : String} {t rest : List Char}
    (h : splitOnce ',' (stripTerminator line.toList) = some (t, rest)) :
    (∃ n, parseLine line = .ok n) ↔ ∃ slots ∈ slotsOf (String.ofList t),
      ∃ args, splitFixed slots.length (String.ofList t) (some rest) = .ok args ∧
        List.Forall₂ Slot.Read slots (List.ofFn args) := by
  unfold parseLine
  dsimp only
  rw [h]
  dsimp only
  generalize String.ofList t = tag
  split
  all_goals
    simp only [slotsOf, List.mem_cons, List.not_mem_nil, or_false, exists_eq_left,
      exists_eq_or_imp, succeeds_bind_iff, succeeds_pure, exists_and_right, and_true,
      number_succeeds_iff, signedNumber_succeeds_iff, decode_succeeds_iff, List.ofFn_succ,
      List.ofFn_zero, List.forall₂_cons, List.forall₂_nil_left_iff, Slot.raw_read, reduceCtorEq,
      false_and]
  case h_20 =>
    -- the control link is decoded first
    refine exists_congr fun args => and_congr_right fun _ => ?_
    constructor
    · rintro ⟨hlink, hsession, hlimit, hkeepAlive⟩
      exact ⟨hsession, hlimit, hkeepAlive, hlink⟩
    · rintro ⟨hsession, hlimit, hkeepAlive, hlink⟩
      exact ⟨hlink, hsession, hlimit, hkeepAlive⟩
  case h_22 =>
    refine (or_iff_right ?_).symm
    rintro ⟨args, hargs⟩
    cases hargs
  case h_26 => simp only [exists_false]
  all_goals exact Iff.rfl

/-- A line can be taken apart in one way. -/
theorem formed_iff {P : List Slot → List (List Char) → Prop} {line : List Char} {tag : String}
    {rest : Option (List Char)} (h : tagAndRest (stripTerminator line) = (tag, rest)) :
    Formed P line ↔ ∃ pieces, Behind rest pieces ∧ ∃ slots ∈ slotsOf tag, P slots pieces := by
  constructor
  · rintro ⟨body, tag', pieces, hbody, hcut, hslots⟩
    rw [unterminated_iff] at hbody
    subst hbody
    obtain ⟨rest', htag, hbehind⟩ := cut_iff.mp hcut
    rw [h] at htag
    cases htag
    exact ⟨pieces, hbehind, hslots⟩
  · rintro ⟨pieces, hbehind, hslots⟩
    exact ⟨_, tag, pieces, unterminated_iff.mpr rfl, cut_iff.mpr ⟨rest, h, hbehind⟩, hslots⟩

/-- The parser takes the lines whose slots it reads. -/
theorem parseLine_succeeds_iff (line : String) :
    (∃ n, parseLine line = .ok n) ↔ Formed (List.Forall₂ Slot.Read) line.toList := by
  cases hsplit : splitOnce ',' (stripTerminator line.toList) with
  | none =>
    have htag : tagAndRest (stripTerminator line.toList) =
        (String.ofList (stripTerminator line.toList), none) := by rw [tagAndRest, hsplit]
    rw [parseLine_bare_iff hsplit, formed_iff htag]
    constructor
    · exact fun hmem => ⟨[], rfl, [], hmem, .nil⟩
    · rintro ⟨pieces, rfl, slots, hmem, hread⟩
      cases hread
      exact hmem
  | some p =>
    obtain ⟨t, rest⟩ := p
    have htag : tagAndRest (stripTerminator line.toList) = (String.ofList t, some rest) := by
      rw [tagAndRest, hsplit]
    rw [parseLine_comma_iff hsplit, formed_iff htag]
    constructor
    · rintro ⟨slots, hmem, hargs⟩
      obtain ⟨pieces, -, hbehind, hread⟩ := splitFixed_succeeds_iff.mp hargs
      exact ⟨pieces, hbehind, slots, hmem, hread⟩
    · rintro ⟨pieces, hbehind, slots, hmem, hread⟩
      exact ⟨slots, hmem, splitFixed_succeeds_iff.mpr
        ⟨pieces, hread.length_eq.symm, hbehind, hread⟩⟩

/-- The lists of arguments of one tag differ in whether there are any. -/
theorem slotsOf_unique {tag : String} {slots slots' : List Slot} (h : slots ∈ slotsOf tag)
    (h' : slots' ∈ slotsOf tag) (hnil : slots = [] ↔ slots' = []) : slots = slots' := by
  unfold slotsOf at h h'
  split at h
  case h_22 =>
    simp only [List.mem_cons, List.not_mem_nil, or_false] at h h'
    rcases h with rfl | rfl <;> rcases h' with rfl | rfl
    · rfl
    · cases hnil.mp rfl
    · cases hnil.mpr rfl
    · rfl
  case h_26 => cases h
  all_goals
    simp only [List.mem_singleton] at h h'
    exact h.trans h'.symm

/-- The pieces behind a tag are as many as its arguments, and their number says which they are. -/
theorem behind_unique {rest : Option (List Char)} {pieces pieces' : List (List Char)}
    {tag : String} {slots slots' : List Slot} (h : Behind rest pieces) (h' : Behind rest pieces')
    (hmem : slots ∈ slotsOf tag) (hmem' : slots' ∈ slotsOf tag)
    (hlength : slots.length = pieces.length) (hlength' : slots'.length = pieces'.length) :
    slots = slots' ∧ pieces = pieces' := by
  cases rest with
  | none =>
    cases h
    cases h'
    exact ⟨by rw [List.length_eq_zero_iff.mp hlength, List.length_eq_zero_iff.mp hlength'], rfl⟩
  | some rest =>
    obtain ⟨hne, hsplit⟩ := h
    obtain ⟨hne', hsplit'⟩ := h'
    have hpos : slots ≠ [] := fun hnil => by
      rw [hnil] at hlength
      exact hne (List.length_eq_zero_iff.mp hlength.symm)
    have hpos' : slots' ≠ [] := fun hnil => by
      rw [hnil] at hlength'
      exact hne' (List.length_eq_zero_iff.mp hlength'.symm)
    have hslots := slotsOf_unique hmem hmem' (iff_of_false hpos hpos')
    refine ⟨hslots, ?_⟩
    rw [← hsplit, ← hsplit', ← hlength, ← hlength', hslots]

theorem InGrammar.formed {line : List Char} (h : InGrammar line) :
    Formed (List.Forall₂ Slot.Read) line := by
  obtain ⟨body, tag, pieces, hbody, hcut, slots, hmem, hspelled⟩ := h
  exact ⟨body, tag, pieces, hbody, hcut, slots, hmem, hspelled.imp fun _ _ => .inl⟩

theorem PlusSigned.formed {line : List Char} (h : PlusSigned line) :
    Formed (List.Forall₂ Slot.Read) line := by
  obtain ⟨body, tag, pieces, hbody, hcut, slots, hmem, hread, -⟩ := h
  exact ⟨body, tag, pieces, hbody, hcut, slots, hmem, hread⟩

theorem PlusSigned.not_inGrammar {line : List Char} (h : PlusSigned line) : ¬InGrammar line := by
  obtain ⟨rest, hrest⟩ : ∃ rest, tagAndRest (stripTerminator line) =
    ((tagAndRest (stripTerminator line)).1, rest) := ⟨_, rfl⟩
  obtain ⟨pieces, hbehind, slots, hmem, hread, hplus⟩ := (formed_iff hrest).mp h
  intro hgrammar
  obtain ⟨pieces', hbehind', slots', hmem', hspelled⟩ := (formed_iff hrest).mp hgrammar
  obtain ⟨rfl, rfl⟩ :=
    behind_unique hbehind hbehind' hmem hmem' hread.length_eq hspelled.length_eq
  exact hplus hspelled

/-- **The lines that are parsed.** For every line: the parser agrees with the grammar on it if and
only if the line is not one that would be in the grammar without the plus sign of some numbers. -/
theorem parseLine_grammar_iff (line : String) :
    ((∃ n, parseLine line = .ok n) ↔ InGrammar line.toList) ↔ ¬PlusSigned line.toList := by
  rw [parseLine_succeeds_iff]
  constructor
  · intro h hplus
    exact hplus.not_inGrammar (h.mp hplus.formed)
  · intro hplus
    refine ⟨fun h => ?_, InGrammar.formed⟩
    obtain ⟨body, tag, pieces, hbody, hcut, slots, hmem, hread⟩ := h
    by_contra hgrammar
    exact hplus ⟨body, tag, pieces, hbody, hcut, slots, hmem, hread,
      fun hspelled => hgrammar ⟨body, tag, pieces, hbody, hcut, slots, hmem, hspelled⟩⟩

/-- `SYNC,5` with a plus sign. -/
theorem plusSigned_sync : PlusSigned "SYNC,+5".toList := by
  have hbody : Unterminated "SYNC,+5".toList "SYNC,+5".toList := .bare (by decide) (by decide)
  have hcut : Cut "SYNC,+5".toList "SYNC".toList [['+', '5']] := ⟨rfl, by decide, by simp⟩
  have hfive : Numeral ['5'] 5 := parseDigits_eq_some_iff.mp rfl
  refine ⟨_, "SYNC", [['+', '5']], hbody, hcut, [.number u64Max], List.mem_singleton.mpr rfl,
    ?_, ?_⟩
  · exact .cons (.inr ⟨['5'], rfl, 5, by decide, hfive⟩) .nil
  · rintro (_ | ⟨⟨n, -, hnumeral⟩, -⟩)
    exact absurd hnumeral.head_isDigit (by decide)

/-- A number behind a plus sign is parsed, and is not in the grammar. -/
theorem plus_sign_parsed :
    ¬((∃ n, parseLine "SYNC,+5" = .ok n) ↔ InGrammar "SYNC,+5".toList) := fun h =>
  plusSigned_sync.not_inGrammar (h.mp ⟨.sync 5, by decide⟩)

end Lightstreamer.Protocol
