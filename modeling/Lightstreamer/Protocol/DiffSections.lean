import Lightstreamer.Protocol.Encoding
import Mathlib.Data.List.Induction

/-!
# The sections of a TLCP-diff

A TLCP-diff payload as a format of its own: it is a concatenation of sections in the cycle `COPY`,
`ADD`, `DEL` (`Sections`), each the letters of an integer, an `ADD` followed by its text. A payload
is read in one way only, since the letters of an integer are a prefix code
(`integerLetters_append_inj`, `Sections.unique`), and the parser finds that reading
(`parseSections_eq_ok_iff`). What it means over a base is `described`. `TlcpDiff` is a payload that
a server may send for a text, and the decoder gives that text (`TlcpDiff.apply`).

`encoded_integers_bijective` is what the integers are as a number system. `applyTlcpDiff_spec` puts
the rest together: when the decoder fails, what it gives when it does not, and that every text can
be reached from every base.
-/

namespace Lightstreamer.Protocol

/-! ## The format -/

/-- The type of section that an instruction is sent in. -/
def DiffInstruction.kind : DiffInstruction → Section
  | .copy _ => .copy
  | .add _ => .add
  | .del _ => .del

/-- The integer of the section. -/
def DiffInstruction.number : DiffInstruction → ℕ
  | .copy n => n
  | .add text => text.length
  | .del n => n

/-- What follows the integer of the section. -/
def DiffInstruction.text : DiffInstruction → List Char
  | .copy _ => []
  | .add text => text
  | .del _ => []

/-- A section of a payload: the letters of its integer, and its instruction. -/
structure DiffSection where
  letters : List Char
  instruction : DiffInstruction

/-- A payload as the sections from `kind` on. It may end before any section. -/
inductive Sections : Section → List Char → List DiffSection → Prop
  | done {kind : Section} : Sections kind [] []
  | cons {kind : Section} {s : DiffSection} {payload : List Char} {sections : List DiffSection}
      (hkind : s.instruction.kind = kind) (hn : EncodesInteger s.instruction.number s.letters)
      (hrest : Sections kind.next payload sections) :
      Sections kind (s.letters ++ (s.instruction.text ++ payload)) (s :: sections)

/-- No integer overflows, nor the cursor that an `ADD` moves over the payload from `position` on. -/
def ReadsInRange : ℕ → List DiffSection → Prop
  | _, [] => True
  | position, s :: sections =>
    s.instruction.number ≤ usizeMax ∧
    (s.instruction.kind = .add →
      position + s.letters.length + s.instruction.number ≤ usizeMax) ∧
    ReadsInRange (position + s.letters.length + s.instruction.text.length) sections

/-- The cursor that a `COPY` and a `DEL` move over the base does not overflow. -/
def RunsInRange : ℕ → List DiffInstruction → Prop
  | _, [] => True
  | basePos, .copy n :: instructions =>
    basePos + n ≤ usizeMax ∧ RunsInRange (basePos + n) instructions
  | basePos, .add _ :: instructions => RunsInRange basePos instructions
  | basePos, .del n :: instructions =>
    basePos + n ≤ usizeMax ∧ RunsInRange (basePos + n) instructions

/-- No `COPY` reaches past the end of the base. A `DEL` may. -/
def CopiesWithin (base : List Char) : ℕ → List DiffInstruction → Prop
  | _, [] => True
  | basePos, .copy n :: instructions =>
    basePos + n ≤ base.length ∧ CopiesWithin base (basePos + n) instructions
  | basePos, .add _ :: instructions => CopiesWithin base basePos instructions
  | basePos, .del n :: instructions => CopiesWithin base (basePos + n) instructions

/-- The text that instructions describe over a base, from a position of it on. -/
def described (base : List Char) : ℕ → List DiffInstruction → List Char
  | _, [] => []
  | basePos, .copy n :: instructions =>
    (base.drop basePos).take n ++ described base (basePos + n) instructions
  | basePos, .add text :: instructions => text ++ described base basePos instructions
  | basePos, .del n :: instructions => described base (basePos + n) instructions

/-- A payload is a diff from a base to a text: its sections describe the text over the base. -/
structure IsDiff (base payload text : List Char) (sections : List DiffSection) : Prop where
  reading : Sections .copy payload sections
  copies : CopiesWithin base 0 (sections.map (·.instruction))
  runs : RunsInRange 0 (sections.map (·.instruction))
  text : text = described base 0 (sections.map (·.instruction))

/-- What a server may send to turn a base into a text. -/
def TlcpDiff (base payload text : List Char) : Prop := ∃ sections, IsDiff base payload text sections

/-! ## Integers -/

theorem capital_injective {v w : Fin 26} (h : Char.ofNat (65 + v.val) = Char.ofNat (65 + w.val)) :
    v = w := by
  have hv := (capital_letter v).2
  rw [h, (capital_letter w).2] at hv
  exact Fin.ext (Except.ok.inj hv).symm

theorem small_injective {v w : Fin 26} (h : Char.ofNat (97 + v.val) = Char.ofNat (97 + w.val)) :
    v = w := by
  have hv := (small_letter v).2.2
  rw [h, (small_letter w).2.2] at hv
  exact Fin.ext (Except.ok.inj hv).symm

theorem capital_ne_small (v w : Fin 26) : Char.ofNat (65 + v.val) ≠ Char.ofNat (97 + w.val) := by
  intro h
  have hv := (capital_letter v).1
  rw [h, (small_letter w).1] at hv
  cases hv

/-- The letters of an integer are told from what follows them: they end at the small one. -/
theorem integerLetters_append_inj {capitals capitals' : List (Fin 26)} {small small' : Fin 26}
    {rest rest' : List Char}
    (h : integerLetters capitals small ++ rest = integerLetters capitals' small' ++ rest') :
    capitals = capitals' ∧ small = small' ∧ rest = rest' := by
  induction capitals generalizing capitals' with
  | nil =>
    cases capitals' with
    | nil =>
      obtain ⟨hsmall, hrest⟩ := List.cons.inj h
      exact ⟨rfl, small_injective hsmall, hrest⟩
    | cons v' capitals' => exact absurd (List.cons.inj h).1.symm (capital_ne_small v' small)
  | cons v capitals ih =>
    cases capitals' with
    | nil => exact absurd (List.cons.inj h).1 (capital_ne_small v small')
    | cons v' capitals' =>
      obtain ⟨hv, h⟩ := List.cons.inj h
      obtain ⟨hcapitals, hsmall, hrest⟩ := ih h
      exact ⟨by rw [capital_injective hv, hcapitals], hsmall, hrest⟩

theorem EncodesInteger.append_inj {m n : ℕ} {letters letters' rest rest' : List Char}
    (hm : EncodesInteger m letters) (hn : EncodesInteger n letters')
    (h : letters ++ rest = letters' ++ rest') : m = n ∧ letters = letters' ∧ rest = rest' := by
  obtain ⟨capitals, small, rfl, rfl⟩ := hm
  obtain ⟨capitals', small', rfl, rfl⟩ := hn
  obtain ⟨rfl, rfl, hrest⟩ := integerLetters_append_inj h
  exact ⟨rfl, rfl, hrest⟩

theorem capitalsValue_concat (accumulator : ℕ) (capitals : List (Fin 26)) (v : Fin 26) :
    capitalsValue accumulator (capitals ++ [v]) =
      capitalsValue accumulator capitals * 26 + (v.val + 1) := by
  rw [capitalsValue, capitalsValue, List.foldl_append]
  rfl

/-- Capital letters reach every number, in one digit fewer than its size at most. -/
theorem exists_capitals (n : ℕ) :
    ∃ capitals, capitalsValue 0 capitals = n ∧ capitals.length ≤ n := by
  induction n using Nat.strong_induction_on with
  | _ n ih =>
    rcases n with _ | n
    · exact ⟨[], rfl, Nat.le_refl _⟩
    obtain ⟨capitals, hvalue, hlength⟩ := ih (n / 26) (by omega)
    refine ⟨capitals ++ [⟨n % 26, Nat.mod_lt _ (by omega)⟩], ?_, ?_⟩
    · rw [capitalsValue_concat, hvalue]
      show n / 26 * 26 + (n % 26 + 1) = n + 1
      omega
    · rw [List.length_append, List.length_singleton]
      omega

theorem exists_encodesInteger (n : ℕ) :
    ∃ letters, EncodesInteger n letters ∧ letters.length ≤ n / 26 + 1 := by
  obtain ⟨capitals, hvalue, hlength⟩ := exists_capitals (n / 26)
  refine ⟨integerLetters capitals ⟨n % 26, Nat.mod_lt _ (by omega)⟩, ⟨_, _, rfl, ?_⟩, ?_⟩
  · rw [hvalue]
    show n = n / 26 * 26 + n % 26
    omega
  · rw [integerLetters, List.length_append, List.length_map, List.length_singleton]
    omega

theorem checkedAdd_eq_some {max a b n : ℕ} :
    checkedAdd max a b = some n ↔ a + b ≤ max ∧ n = a + b := by
  unfold checkedAdd
  split_ifs with h
  · exact ⟨fun hn => ⟨h, (Option.some.inj hn).symm⟩, fun hn => by rw [hn.2]⟩
  · exact ⟨nofun, fun hn => absurd hn.1 h⟩

theorem checkedMul_eq_some {max a b n : ℕ} :
    checkedMul max a b = some n ↔ a * b ≤ max ∧ n = a * b := by
  unfold checkedMul
  split_ifs with h
  · exact ⟨fun hn => ⟨h, (Option.some.inj hn).symm⟩, fun hn => by rw [hn.2]⟩
  · exact ⟨nofun, fun hn => absurd hn.1 h⟩

theorem exists_capital {letter : Char} (h : letter.isUpper = true) :
    ∃ v : Fin 26, letter = Char.ofNat (65 + v.val) := by
  have h : 65 ≤ letter.toNat ∧ letter.toNat ≤ 90 := of_decide_eq_true h
  refine ⟨⟨letter.toNat - 65, by omega⟩, ?_⟩
  rw [show 65 + (letter.toNat - 65) = letter.toNat by omega, Char.ofNat_toNat]

theorem exists_small {letter : Char} (h : letter.isLower = true) :
    ∃ v : Fin 26, letter = Char.ofNat (97 + v.val) := by
  have h : (decide (letter.val ≥ 'a'.val) && decide (letter.val ≤ 'z'.val)) = true := h
  obtain ⟨hle, hge⟩ := Bool.and_eq_true_iff.mp h
  have hle : 97 ≤ letter.toNat := of_decide_eq_true hle
  have hge : letter.toNat ≤ 122 := of_decide_eq_true hge
  refine ⟨⟨letter.toNat - 97, by omega⟩, ?_⟩
  rw [show 97 + (letter.toNat - 97) = letter.toNat by omega, Char.ofNat_toNat]

/-- What the loop over the letters accepts is the letters of an integer that is in range. -/
theorem exists_integerLetters {accumulator n : ℕ} {chars rest : List Char}
    (h : decodeEncodedInteger accumulator chars = .ok (n, rest)) :
    ∃ capitals small, chars = integerLetters capitals small ++ rest ∧
      n = capitalsValue accumulator capitals * 26 + small.val ∧ n ≤ usizeMax := by
  induction chars generalizing accumulator with
  | nil => cases h
  | cons letter chars ih =>
    unfold decodeEncodedInteger at h
    split_ifs at h with hupper hlower
    · obtain ⟨v, rfl⟩ := exists_capital hupper
      rw [(capital_letter v).2, bind_eq_ok] at h
      obtain ⟨value, hvalue, h⟩ := h
      cases Except.ok.inj hvalue
      split at h
      · next next hnext =>
        obtain ⟨scaled, hscaled, hnext⟩ := Option.bind_eq_some_iff.mp hnext
        obtain ⟨weight, hweight, hnext⟩ := Option.bind_eq_some_iff.mp hnext
        obtain ⟨-, rfl⟩ := checkedMul_eq_some.mp hscaled
        obtain ⟨-, rfl⟩ := checkedAdd_eq_some.mp hweight
        obtain ⟨-, rfl⟩ := checkedAdd_eq_some.mp hnext
        obtain ⟨capitals, small, rfl, hn, hmax⟩ := ih h
        exact ⟨v :: capitals, small, rfl, hn, hmax⟩
      · cases h
    · obtain ⟨v, rfl⟩ := exists_small hlower
      rw [(small_letter v).2.2, bind_eq_ok] at h
      obtain ⟨value, hvalue, h⟩ := h
      cases Except.ok.inj hvalue
      split at h
      · next count hcount =>
        obtain ⟨scaled, hscaled, hcount⟩ := Option.bind_eq_some_iff.mp hcount
        obtain ⟨-, rfl⟩ := checkedMul_eq_some.mp hscaled
        obtain ⟨hmax, rfl⟩ := checkedAdd_eq_some.mp hcount
        cases h
        exact ⟨[], v, rfl, rfl, hmax⟩
      · cases h

theorem decodeEncodedInteger_eq_ok_iff {n : ℕ} {chars rest : List Char} :
    decodeEncodedInteger 0 chars = .ok (n, rest) ↔
      n ≤ usizeMax ∧ ∃ letters, EncodesInteger n letters ∧ chars = letters ++ rest := by
  constructor
  · intro h
    obtain ⟨capitals, small, rfl, hn, hmax⟩ := exists_integerLetters h
    exact ⟨hmax, _, ⟨capitals, small, rfl, hn⟩, rfl⟩
  · rintro ⟨hmax, letters, hn, rfl⟩
    exact hn.decode hmax rest

/-- Capital letters in front of the final one tell numbers apart. -/
theorem capitalsValue_injective {capitals capitals' : List (Fin 26)}
    (h : capitalsValue 0 capitals = capitalsValue 0 capitals') : capitals = capitals' := by
  induction capitals using List.reverseRecOn generalizing capitals' with
  | nil =>
    cases capitals' using List.reverseRecOn with
    | nil => rfl
    | append_singleton capitals' v' =>
      rw [capitalsValue_concat] at h
      exact absurd h.symm (Nat.succ_ne_zero _)
  | append_singleton capitals v ih =>
    cases capitals' using List.reverseRecOn with
    | nil =>
      rw [capitalsValue_concat] at h
      exact absurd h (Nat.succ_ne_zero _)
    | append_singleton capitals' v' =>
      rw [capitalsValue_concat, capitalsValue_concat] at h
      have hv : v = v' := Fin.ext (by omega)
      have hcapitals : capitalsValue 0 capitals = capitalsValue 0 capitals' := by omega
      rw [ih hcapitals, hv]

theorem EncodesInteger.unique {n : ℕ} {letters letters' : List Char} (h : EncodesInteger n letters)
    (h' : EncodesInteger n letters') : letters = letters' := by
  obtain ⟨capitals, small, rfl, hn⟩ := h
  obtain ⟨capitals', small', rfl, hn'⟩ := h'
  rw [hn] at hn'
  have hsmall : small = small' := Fin.ext (by omega)
  rw [capitalsValue_injective (by omega : capitalsValue 0 capitals = capitalsValue 0 capitals'),
    hsmall]

/-- What a text starts with: the letters of an integer, capital letters up to its end, or capital
letters up to a character that is no letter. -/
theorem integer_or_not (chars : List Char) :
    (∃ capitals small rest, chars = integerLetters capitals small ++ rest) ∨
      (∀ c ∈ chars, c.isUpper = true) ∨
      ∃ capitals c rest, chars = capitals ++ c :: rest ∧ (∀ u ∈ capitals, u.isUpper = true) ∧
        c.isUpper = false ∧ c.isLower = false := by
  induction chars with
  | nil => exact .inr (.inl fun _ hc => absurd hc List.not_mem_nil)
  | cons c chars ih =>
    by_cases hupper : c.isUpper = true
    · rcases ih with ⟨capitals, small, rest, rfl⟩ | hall | ⟨capitals, c', rest, rfl, hall, hc'⟩
      · obtain ⟨v, rfl⟩ := exists_capital hupper
        exact .inl ⟨v :: capitals, small, rest, rfl⟩
      · exact .inr (.inl (List.forall_mem_cons.mpr ⟨hupper, hall⟩))
      · exact .inr (.inr ⟨c :: capitals, c', rest, rfl,
          List.forall_mem_cons.mpr ⟨hupper, hall⟩, hc'⟩)
    · rw [Bool.not_eq_true] at hupper
      by_cases hlower : c.isLower = true
      · obtain ⟨v, rfl⟩ := exists_small hlower
        exact .inl ⟨[], v, chars, rfl⟩
      · rw [Bool.not_eq_true] at hlower
        exact .inr (.inr ⟨[], c, chars, rfl, fun _ hu => absurd hu List.not_mem_nil, hupper,
          hlower⟩)

/-- The first character of an integer that is not a capital letter is its small letter. -/
theorem integerLetters_eq_append_cons {capitals : List (Fin 26)} {small : Fin 26}
    {rest uppers behind : List Char} {c : Char}
    (h : integerLetters capitals small ++ rest = uppers ++ c :: behind)
    (huppers : ∀ u ∈ uppers, u.isUpper = true) (hc : c.isUpper = false) : c.isLower = true := by
  induction capitals generalizing uppers with
  | nil =>
    cases uppers with
    | nil =>
      obtain ⟨rfl, -⟩ := List.cons.inj h
      exact (small_letter small).2.1
    | cons u uppers =>
      obtain ⟨rfl, -⟩ := List.cons.inj h
      have hu := huppers _ List.mem_cons_self
      rw [(small_letter small).1] at hu
      cases hu
  | cons v capitals ih =>
    cases uppers with
    | nil =>
      obtain ⟨rfl, -⟩ := List.cons.inj h
      rw [(capital_letter v).1] at hc
      cases hc
    | cons u uppers =>
      exact ih (List.cons.inj h).2 fun u hu => huppers u (List.mem_cons_of_mem _ hu)

/-- **Encoded integers are a bijection.** Every number in range is read from one text and from no
other; the letters of a number in range are read off whatever follows them; and the reader fails
when the letters are cut short, when a character that is no letter comes before the small one, and
when they spell a number out of range, and only then. -/
theorem encoded_integers_bijective :
    (∀ n ≤ usizeMax, ∃! letters, decodeEncodedInteger 0 letters = .ok (n, [])) ∧
    (∀ capitals small rest, capitalsValue 0 capitals * 26 + small.val ≤ usizeMax →
      decodeEncodedInteger 0 (integerLetters capitals small ++ rest) =
        .ok (capitalsValue 0 capitals * 26 + small, rest)) ∧
    ∀ chars, (∃ e, decodeEncodedInteger 0 chars = .error e) ↔
      (∀ c ∈ chars, c.isUpper = true) ∨
      (∃ capitals c rest, chars = capitals ++ c :: rest ∧ (∀ u ∈ capitals, u.isUpper = true) ∧
        c.isUpper = false ∧ c.isLower = false) ∨
      ∃ capitals small rest, chars = integerLetters capitals small ++ rest ∧
        usizeMax < capitalsValue 0 capitals * 26 + small := by
  refine ⟨fun n hn => ?_, fun capitals small rest => decodeEncodedInteger_integerLetters _ _ rest,
    fun chars => ⟨?_, fun h => ?_⟩⟩
  · obtain ⟨letters, hletters, -⟩ := exists_encodesInteger n
    refine ⟨letters, ?_, fun letters' h => ?_⟩
    · have hread := hletters.decode hn []
      rwa [List.append_nil] at hread
    · obtain ⟨-, letters'', hletters'', rfl⟩ := decodeEncodedInteger_eq_ok_iff.mp h
      rw [List.append_nil]
      exact hletters''.unique hletters
  · rintro ⟨e, he⟩
    rcases integer_or_not chars with ⟨capitals, small, rest, rfl⟩ | hcut | hother
    · refine .inr (.inr ⟨capitals, small, rest, rfl, Nat.lt_of_not_le fun hmax => ?_⟩)
      rw [decodeEncodedInteger_integerLetters capitals small rest hmax] at he
      cases he
    · exact .inl hcut
    · exact .inr (.inl hother)
  · cases hread : decodeEncodedInteger 0 chars with
    | error e => exact ⟨e, rfl⟩
    | ok read =>
      exfalso
      obtain ⟨n, rest⟩ := read
      obtain ⟨hmax, letters, ⟨capitals, small, rfl, hn⟩, rfl⟩ :=
        decodeEncodedInteger_eq_ok_iff.mp hread
      rcases h with hcut | ⟨uppers, c, behind, heq, huppers, hupper, hlower⟩ |
        ⟨capitals', small', rest', heq, hlarge⟩
      · have hsmall := hcut _ (List.mem_append_left _ (List.mem_append_right _
          (List.mem_singleton_self _)))
        rw [(small_letter small).1] at hsmall
        cases hsmall
      · rw [integerLetters_eq_append_cons heq huppers hupper] at hlower
        cases hlower
      · obtain ⟨rfl, rfl, -⟩ := integerLetters_append_inj heq
        omega

/-! ## Reading -/

/-- A payload has one reading as sections. -/
theorem Sections.unique {kind : Section} {payload payload' : List Char}
    {sections sections' : List DiffSection} (h : Sections kind payload sections)
    (h' : Sections kind payload' sections') (heq : payload = payload') : sections = sections' := by
  induction h generalizing payload' sections' with
  | done =>
    cases h' with
    | done => rfl
    | cons _ hn _ => exact absurd heq.symm (hn.append_ne_nil _)
  | @cons kind s payload sections hkind hn hrest ih =>
    cases h' with
    | done => exact absurd heq (hn.append_ne_nil _)
    | @cons _ s' payload' sections' hkind' hn' hrest' =>
      obtain ⟨letters, instruction⟩ := s
      obtain ⟨letters', instruction'⟩ := s'
      obtain ⟨hnumber, rfl, heq⟩ := hn.append_inj hn' heq
      -- the cycle fixes the type of the section, and its integer the rest of it
      have hinstruction : instruction = instruction' ∧ payload = payload' := by
        subst hkind
        cases instruction <;> cases instruction' <;> try cases hkind'
        · cases hnumber
          exact ⟨rfl, heq⟩
        · obtain ⟨rfl, rfl⟩ := List.append_inj heq hnumber
          exact ⟨rfl, rfl⟩
        · cases hnumber
          exact ⟨rfl, heq⟩
      obtain ⟨rfl, rfl⟩ := hinstruction
      rw [ih hrest' rfl]

/-- One section is read when its integer, and the cursor of an `ADD`, are in range. -/
theorem parseSection_eq_ok_iff {position length : ℕ} {kind : Section} {chars rest : List Char}
    {instruction : DiffInstruction} (hlength : length = position + chars.length) :
    parseSection length kind chars = .ok (instruction, rest) ↔
      instruction.kind = kind ∧ ∃ letters, EncodesInteger instruction.number letters ∧
        chars = letters ++ (instruction.text ++ rest) ∧ instruction.number ≤ usizeMax ∧
        (instruction.kind = .add →
          position + letters.length + instruction.number ≤ usizeMax) := by
  subst hlength
  unfold parseSection
  rw [bind_eq_ok]
  constructor
  · rintro ⟨⟨count, behind⟩, hcount, h⟩
    obtain ⟨hmax, letters, hn, rfl⟩ := decodeEncodedInteger_eq_ok_iff.mp hcount
    cases kind with
    | copy =>
      cases h
      exact ⟨rfl, letters, hn, rfl, hmax, nofun⟩
    | del =>
      cases h
      exact ⟨rfl, letters, hn, rfl, hmax, nofun⟩
    | add =>
      dsimp only at h
      rw [List.length_append, show position + (letters.length + behind.length) - behind.length =
        position + letters.length by omega] at h
      split_ifs at h with hcursor hcount
      cases h
      have htake : (behind.take count).length = count := by
        rw [List.length_take]
        omega
      have hcursor : position + letters.length + count ≤ usizeMax := by
        unfold checkedAdd at hcursor
        split_ifs at hcursor with hle
        · exact hle
        · exact absurd rfl hcursor
      refine ⟨rfl, letters, ?_, ?_, ?_, fun _ => ?_⟩
      · show EncodesInteger (behind.take count).length letters
        rwa [htake]
      · show letters ++ behind = letters ++ (behind.take count ++ behind.drop count)
        rw [List.take_append_drop]
      · show (behind.take count).length ≤ usizeMax
        rwa [htake]
      · show position + letters.length + (behind.take count).length ≤ usizeMax
        rwa [htake]
  · rintro ⟨hkind, letters, hn, rfl, hmax, hcursor⟩
    refine ⟨_, decodeEncodedInteger_eq_ok_iff.mpr ⟨hmax, letters, hn, rfl⟩, ?_⟩
    subst hkind
    cases instruction with
    | copy n => rfl
    | del n => rfl
    | add text =>
      have hcursor : position + letters.length + text.length ≤ usizeMax := hcursor rfl
      dsimp only [DiffInstruction.kind, DiffInstruction.number, DiffInstruction.text]
      rw [show position + (letters ++ (text ++ rest)).length - (text ++ rest).length =
        position + letters.length by rw [List.length_append]; omega,
        checkedAdd_of_le hcursor, if_neg (by simp), if_neg (by rw [List.length_append]; omega),
        List.take_left' rfl, List.drop_left' rfl]

/-- The parser finds the reading of a payload, when no integer and no cursor overflows. -/
theorem parseSections_eq_ok_iff {fuel position length : ℕ} {kind : Section} {chars : List Char}
    {instructions : List DiffInstruction} (hlength : length = position + chars.length)
    (hfuel : chars.length ≤ fuel) :
    parseSections length fuel kind chars = .ok instructions ↔
      ∃ sections, Sections kind chars sections ∧ ReadsInRange position sections ∧
        instructions = sections.map (·.instruction) := by
  induction fuel generalizing position kind chars instructions with
  | zero =>
    cases List.length_eq_zero_iff.mp (Nat.le_zero.mp hfuel)
    refine ⟨fun h => ⟨[], .done, trivial, (Except.ok.inj h).symm⟩, ?_⟩
    rintro ⟨sections, h, -, rfl⟩
    rw [h.unique .done rfl]
    rfl
  | succ fuel ih =>
    rcases chars with _ | ⟨c, cs⟩
    · refine ⟨fun h => ⟨[], .done, trivial, (Except.ok.inj h).symm⟩, ?_⟩
      rintro ⟨sections, h, -, rfl⟩
      rw [h.unique .done rfl]
      rfl
    rw [parseSections, bind_eq_ok]
    generalize hchars : c :: cs = chars at *
    constructor
    · rintro ⟨⟨instruction, rest⟩, hsection, h⟩
      obtain ⟨hkind, letters, hn, rfl, hmax, hcursor⟩ :=
        (parseSection_eq_ok_iff hlength).mp hsection
      obtain ⟨instructions, hparse, rfl⟩ := map_eq_ok.mp h
      have hpos := hn.length_pos
      rw [List.length_append, List.length_append] at hlength hfuel
      obtain ⟨sections, hrest, hreads, rfl⟩ := (@ih (position + letters.length +
        instruction.text.length) _ _ _ (by omega) (by omega)).mp hparse
      exact ⟨_, .cons (s := ⟨letters, instruction⟩) hkind hn hrest, ⟨hmax, hcursor, hreads⟩, rfl⟩
    · rintro ⟨sections, h, hreads, rfl⟩
      cases h with
      | done => cases hchars
      | @cons _ s payload sections hkind hn hrest =>
        obtain ⟨hmax, hcursor, hreads⟩ := hreads
        refine ⟨(s.instruction, payload), (parseSection_eq_ok_iff hlength).mpr
          ⟨hkind, s.letters, hn, rfl, hmax, hcursor⟩, map_eq_ok.mpr ⟨_, ?_, rfl⟩⟩
        have hpos := hn.length_pos
        rw [List.length_append, List.length_append] at hlength hfuel
        exact (ih (by omega) (by omega)).mpr ⟨sections, hrest, hreads, rfl⟩

theorem parseTlcpDiff_eq_ok_iff {payload : List Char} {instructions : List DiffInstruction} :
    parseTlcpDiff payload = .ok instructions ↔
      payload ≠ [] ∧ ∃ sections, Sections .copy payload sections ∧ ReadsInRange 0 sections ∧
        instructions = sections.map (·.instruction) := by
  unfold parseTlcpDiff
  split_ifs with hnil
  · exact ⟨nofun, fun h => absurd (List.isEmpty_iff.mp hnil) h.1⟩
  · rw [parseSections_eq_ok_iff (Nat.zero_add _).symm (Nat.le_refl _),
      and_iff_right (fun h => hnil (List.isEmpty_iff.mpr h))]

/-! ## Running -/

theorem applyTlcpInstructions_eq_ok_iff {base : List Char} {basePos : ℕ}
    {instructions : List DiffInstruction} {result : List Char} :
    applyTlcpInstructions base basePos instructions = .ok result ↔
      RunsInRange basePos instructions ∧ CopiesWithin base basePos instructions ∧
        result = described base basePos instructions := by
  induction instructions generalizing basePos result with
  | nil => exact ⟨fun h => ⟨trivial, trivial, (Except.ok.inj h).symm⟩, fun h => by rw [h.2.2]; rfl⟩
  | cons instruction instructions ih =>
    cases instruction with
    | copy n =>
      rw [applyTlcpInstructions]
      split
      · next hstop =>
        refine ⟨fun h => (by cases h), fun h => ?_⟩
        rw [checkedAdd_of_le h.1.1] at hstop
        cases hstop
      · next stop hstop =>
        obtain ⟨hmax, rfl⟩ := checkedAdd_eq_some.mp hstop
        split_ifs with hlt
        · exact ⟨fun h => (by cases h), fun h => absurd h.2.1.1 (Nat.not_le.mpr hlt)⟩
        rw [map_eq_ok]
        constructor
        · rintro ⟨text, htext, rfl⟩
          obtain ⟨hruns, hcopies, rfl⟩ := ih.mp htext
          exact ⟨⟨hmax, hruns⟩, ⟨Nat.not_lt.mp hlt, hcopies⟩, rfl⟩
        · rintro ⟨⟨-, hruns⟩, ⟨-, hcopies⟩, rfl⟩
          exact ⟨_, ih.mpr ⟨hruns, hcopies, rfl⟩, rfl⟩
    | add text =>
      rw [applyTlcpInstructions, map_eq_ok]
      constructor
      · rintro ⟨behind, hbehind, rfl⟩
        obtain ⟨hruns, hcopies, rfl⟩ := ih.mp hbehind
        exact ⟨hruns, hcopies, rfl⟩
      · rintro ⟨hruns, hcopies, rfl⟩
        exact ⟨_, ih.mpr ⟨hruns, hcopies, rfl⟩, rfl⟩
    | del n =>
      rw [applyTlcpInstructions]
      split
      · next hstop =>
        refine ⟨fun h => (by cases h), fun h => ?_⟩
        rw [checkedAdd_of_le h.1.1] at hstop
        cases hstop
      · next stop hstop =>
        obtain ⟨hmax, rfl⟩ := checkedAdd_eq_some.mp hstop
        rw [ih]
        exact ⟨fun h => ⟨⟨hmax, h.1⟩, h.2⟩, fun h => ⟨h.1.2, h.2⟩⟩

theorem rejectAstral_eq_ok_iff {text : List Char} {role : String} :
    rejectAstral text role = .ok () ↔ ∀ c ∈ text, isAstral c = false := by
  refine ⟨fun h c hc => ?_, fun h => rejectAstral_of_forall h role⟩
  unfold rejectAstral at h
  split at h
  · next hfind => exact Bool.eq_false_iff.mpr (List.find?_eq_none.mp hfind c hc)
  · cases h

/-- A payload that the decoder takes over a base. -/
structure Accepted (base payload : List Char) (sections : List DiffSection) : Prop where
  base_plain : ∀ c ∈ base, isAstral c = false
  payload_plain : ∀ c ∈ payload, isAstral c = false
  ne_nil : payload ≠ []
  reading : Sections .copy payload sections
  reads : ReadsInRange 0 sections
  runs : RunsInRange 0 (sections.map (·.instruction))
  copies : CopiesWithin base 0 (sections.map (·.instruction))

theorem applyTlcpDiff_eq_ok_iff {base payload result : String} :
    applyTlcpDiff base payload = .ok result ↔
      ∃ sections, Accepted base.toList payload.toList sections ∧
        result.toList = described base.toList 0 (sections.map (·.instruction)) := by
  unfold applyTlcpDiff
  constructor
  · intro h
    obtain ⟨⟨⟩, hbase, h⟩ := bind_eq_ok.mp h
    obtain ⟨⟨⟩, hpayload, h⟩ := bind_eq_ok.mp h
    obtain ⟨instructions, hparse, h⟩ := bind_eq_ok.mp h
    obtain ⟨text, htext, rfl⟩ := map_eq_ok.mp h
    obtain ⟨hne, sections, hsections, hreads, rfl⟩ := parseTlcpDiff_eq_ok_iff.mp hparse
    obtain ⟨hruns, hcopies, rfl⟩ := applyTlcpInstructions_eq_ok_iff.mp htext
    exact ⟨sections, ⟨rejectAstral_eq_ok_iff.mp hbase, rejectAstral_eq_ok_iff.mp hpayload, hne,
      hsections, hreads, hruns, hcopies⟩, String.toList_ofList⟩
  · rintro ⟨sections, h, hresult⟩
    rw [rejectAstral_of_forall h.base_plain, rejectAstral_of_forall h.payload_plain]
    have hparse := parseTlcpDiff_eq_ok_iff.mpr ⟨h.ne_nil, sections, h.reading, h.reads, rfl⟩
    have happly := applyTlcpInstructions_eq_ok_iff.mpr ⟨h.runs, h.copies, hresult⟩
    refine bind_eq_ok.mpr ⟨_, rfl, bind_eq_ok.mpr ⟨_, rfl, bind_eq_ok.mpr ⟨_, hparse, ?_⟩⟩⟩
    exact map_eq_ok.mpr ⟨_, happly, String.ofList_toList⟩

/-- The cursor over a payload stays in range when its end is. -/
theorem Sections.readsInRange {kind : Section} {payload : List Char} {sections : List DiffSection}
    (h : Sections kind payload sections) {position basePos : ℕ}
    (hpayload : position + payload.length ≤ usizeMax)
    (hruns : RunsInRange basePos (sections.map (·.instruction))) :
    ReadsInRange position sections := by
  induction h generalizing position basePos with
  | done => trivial
  | @cons kind s payload sections hkind hn hrest ih =>
    obtain ⟨letters, instruction⟩ := s
    rw [List.length_append, List.length_append] at hpayload
    cases instruction with
    | copy n =>
      obtain ⟨hmax, hruns⟩ := hruns
      exact ⟨Nat.le_of_add_left_le hmax, fun h => (by cases h), ih (by omega) hruns⟩
    | add text =>
      have hcursor : position + letters.length + text.length ≤ usizeMax := by
        simp only [DiffInstruction.text] at hpayload
        omega
      refine ⟨Nat.le_of_add_left_le hcursor, fun _ => hcursor, ih ?_ hruns⟩
      omega
    | del n =>
      obtain ⟨hmax, hruns⟩ := hruns
      exact ⟨Nat.le_of_add_left_le hmax, fun h => (by cases h), ih (by omega) hruns⟩

/-- What a payload adds is in the text that it describes. -/
theorem Sections.payload_not_isAstral {kind : Section} {payload : List Char}
    {sections : List DiffSection} (h : Sections kind payload sections) {base : List Char}
    {basePos : ℕ}
    (htext : ∀ c ∈ described base basePos (sections.map (·.instruction)), isAstral c = false) :
    ∀ c ∈ payload, isAstral c = false := by
  induction h generalizing basePos with
  | done => exact fun c hc => absurd hc List.not_mem_nil
  | @cons kind s payload sections hkind hn hrest ih =>
    obtain ⟨letters, instruction⟩ := s
    refine List.forall_mem_append.mpr ⟨hn.not_isAstral, ?_⟩
    cases instruction with
    | copy n => exact ih (List.forall_mem_append.mp htext).2
    | add text =>
      obtain ⟨htext, hbehind⟩ := List.forall_mem_append.mp htext
      exact List.forall_mem_append.mpr ⟨htext, ih hbehind⟩
    | del n => exact ih htext

/-- Applying a diff gives the text that it was sent for. -/
theorem TlcpDiff.apply {base payload text : List Char} (h : TlcpDiff base payload text)
    (hne : payload ≠ []) (hpayload : payload.length ≤ usizeMax)
    (hbase : ∀ c ∈ base, isAstral c = false) (htext : ∀ c ∈ text, isAstral c = false) :
    applyTlcpDiff (String.ofList base) (String.ofList payload) = .ok (String.ofList text) := by
  obtain ⟨sections, hreading, hcopies, hruns, rfl⟩ := h
  have hfits : 0 + payload.length ≤ usizeMax := by rwa [Nat.zero_add]
  rw [applyTlcpDiff_eq_ok_iff]
  simp only [String.toList_ofList]
  exact ⟨sections, ⟨hbase, hreading.payload_not_isAstral htext, hne, hreading,
    hreading.readsInRange hfits hruns, hruns, hcopies⟩, rfl⟩

/-- A `DEL` may reach past the end of the base. -/
example : TlcpDiff ['f', 'o', 'o'] ['d', 'a', 'j'] ['f', 'o', 'o'] :=
  ⟨[⟨['d'], .copy 3⟩, ⟨['a'], .add []⟩, ⟨['j'], .del 9⟩],
    .cons (s := ⟨['d'], .copy 3⟩) rfl ⟨[], 3, rfl, rfl⟩ (.cons (s := ⟨['a'], .add []⟩) rfl
      ⟨[], 0, rfl, rfl⟩ (.cons (s := ⟨['j'], .del 9⟩) rfl ⟨[], 9, rfl, rfl⟩ .done)),
    ⟨by decide, trivial⟩, ⟨by decide, by decide, trivial⟩, rfl⟩

theorem exists_isAstral_iff {text : List Char} :
    (∃ c ∈ text, isAstral c) ↔ ¬∀ c ∈ text, isAstral c = false := by
  simp only [not_forall, Bool.not_eq_false, exists_prop]

/-- The decoder fails exactly when there is nothing for it to accept. -/
theorem exists_error_iff {base payload : String} :
    (∃ error, applyTlcpDiff base payload = .error error) ↔
      ¬∃ sections, Accepted base.toList payload.toList sections := by
  constructor
  · rintro ⟨error, herror⟩ ⟨sections, h⟩
    rw [applyTlcpDiff_eq_ok_iff.mpr ⟨sections, h, String.toList_ofList⟩] at herror
    cases herror
  · intro h
    cases hresult : applyTlcpDiff base payload with
    | error error => exact ⟨error, rfl⟩
    | ok result =>
      obtain ⟨sections, haccepted, -⟩ := applyTlcpDiff_eq_ok_iff.mp hresult
      exact absurd ⟨sections, haccepted⟩ h

/-- What can be wrong with a payload. That it has one reading only lets a fault of that reading
stand for a fault of all. -/
theorem not_accepted_iff {base payload : List Char} :
    (¬∃ sections, Accepted base payload sections) ↔
      (¬∀ c ∈ base, isAstral c = false) ∨ (¬∀ c ∈ payload, isAstral c = false) ∨ payload = [] ∨
      (¬∃ sections, Sections .copy payload sections) ∨
      ∃ sections, Sections .copy payload sections ∧
        (¬CopiesWithin base 0 (sections.map (·.instruction)) ∨ ¬ReadsInRange 0 sections ∨
          ¬RunsInRange 0 (sections.map (·.instruction))) := by
  constructor
  · intro h
    by_contra hnone
    simp only [not_or, not_not] at hnone
    obtain ⟨hbase, hpayload, hne, ⟨sections, hsections⟩, hfits⟩ := hnone
    refine hfits ⟨sections, hsections, ?_⟩
    by_contra hall
    simp only [not_or, not_not] at hall
    obtain ⟨hcopies, hreads, hruns⟩ := hall
    exact h ⟨sections, hbase, hpayload, hne, hsections, hreads, hruns, hcopies⟩
  · rintro h ⟨sections, haccepted⟩
    rcases h with h | h | h | h | ⟨sections', hsections', h⟩
    · exact h haccepted.base_plain
    · exact h haccepted.payload_plain
    · exact haccepted.ne_nil h
    · exact h ⟨sections, haccepted.reading⟩
    · cases haccepted.reading.unique hsections' rfl
      rcases h with h | h | h
      · exact h haccepted.copies
      · exact h haccepted.reads
      · exact h haccepted.runs

/-- Any text is reached from any base: copy nothing, and add the text. -/
theorem exists_accepted {base target : List Char} (hbase : ∀ c ∈ base, isAstral c = false)
    (htarget : ∀ c ∈ target, isAstral c = false) (hlength : target.length ≤ 2 ^ 63 - 1) :
    ∃ payload sections, Accepted base payload sections ∧
      described base 0 (sections.map (·.instruction)) = target := by
  obtain ⟨letters, hn, hshort⟩ := exists_encodesInteger target.length
  have hzero : EncodesInteger 0 ['a'] := ⟨[], 0, rfl, rfl⟩
  have hadd : Sections .add (letters ++ (target ++ [])) [⟨letters, .add target⟩] :=
    .cons (s := ⟨letters, .add target⟩) rfl hn .done
  refine ⟨_, _, ⟨hbase, ?_, List.cons_ne_nil _ _, .cons (s := ⟨['a'], .copy 0⟩) rfl hzero hadd,
    ⟨Nat.zero_le _, nofun, ?_, fun _ => ?_, trivial⟩, ⟨Nat.zero_le _, trivial⟩,
    ⟨Nat.zero_le _, trivial⟩⟩, ?_⟩
  · refine List.forall_mem_append.mpr ⟨hzero.not_isAstral, List.forall_mem_append.mpr
      ⟨List.forall_mem_nil _, List.forall_mem_append.mpr ⟨hn.not_isAstral, ?_⟩⟩⟩
    rwa [List.append_nil]
  · show target.length ≤ 2 ^ 64 - 1
    omega
  · show 0 + 1 + 0 + letters.length + target.length ≤ 2 ^ 64 - 1
    omega
  · show [] ++ (target ++ []) = target
    rw [List.nil_append, List.append_nil]

/-- The decoder meets the specification of the format. It fails exactly on a character outside the
basic plane, on a payload that is not made of sections, on a `COPY` past the end of the base and on
an overflow; else it gives what the sections describe; and it reaches every text from every base. -/
theorem applyTlcpDiff_spec :
    (∀ base payload : String, (∃ error, applyTlcpDiff base payload = .error error) ↔
      (∃ c ∈ base.toList, isAstral c) ∨ (∃ c ∈ payload.toList, isAstral c) ∨
      payload.toList = [] ∨ (¬∃ sections, Sections .copy payload.toList sections) ∨
      ∃ sections, Sections .copy payload.toList sections ∧
        (¬CopiesWithin base.toList 0 (sections.map (·.instruction)) ∨
          ¬ReadsInRange 0 sections ∨ ¬RunsInRange 0 (sections.map (·.instruction)))) ∧
    (∀ base payload result : String, applyTlcpDiff base payload = .ok result →
      ∃ sections, Sections .copy payload.toList sections ∧
        result.toList = described base.toList 0 (sections.map (·.instruction))) ∧
    (∀ base target : String, (∀ c ∈ base.toList, isAstral c = false) →
      (∀ c ∈ target.toList, isAstral c = false) → target.toList.length ≤ isizeMax →
      ∃ payload, applyTlcpDiff base payload = .ok target) := by
  refine ⟨fun base payload => ?_, fun base payload result h => ?_,
    fun base target hbase htarget hlength => ?_⟩
  · rw [exists_error_iff, not_accepted_iff, exists_isAstral_iff, exists_isAstral_iff]
  · obtain ⟨sections, haccepted, hresult⟩ := applyTlcpDiff_eq_ok_iff.mp h
    exact ⟨sections, haccepted.reading, hresult⟩
  · obtain ⟨payload, sections, haccepted, htarget⟩ := exists_accepted hbase htarget hlength
    refine ⟨String.ofList payload, applyTlcpDiff_eq_ok_iff.mpr ⟨sections, ?_, htarget.symm⟩⟩
    rwa [String.toList_ofList]

end Lightstreamer.Protocol
