import Lightstreamer.Transport.Body

/-!
# What the body decoders read back

The octets of a response body, stated from the server's side, and what the decoders of the client
make of them.

* `ChunkedEncodes`: chunks with any sizes and extensions, the last chunk and the trailers, each
  octet marked with whether it is one of the body. A size or trailer line is within the ceiling.
* `Owes`: what a decoder in the middle of a body still has to receive.

`decodeBody_owes` is what one call does to the octets received so far; from it, by induction on the
reads, `decodeReads_eq`.
-/

namespace Lightstreamer.Transport

open Foundations Protocol

/-! ## Marked octets -/

/-- Octets in the order of the wire, each with whether it is an octet of the body. -/
abbrev Marked := List (UInt8 × Bool)

namespace Marked

/-- Octets of the framing. -/
def overhead (bytes : Bytes) : Marked := bytes.map fun b => (b, false)

/-- Octets of the body. -/
def content (bytes : Bytes) : Marked := bytes.map fun b => (b, true)

/-- The octets on the wire. -/
def wire (m : Marked) : Bytes := m.map Prod.fst

/-- The octets of the body. -/
def payload (m : Marked) : Bytes := (m.filter Prod.snd).map Prod.fst

@[simp] theorem wire_append (m n : Marked) : wire (m ++ n) = wire m ++ wire n := List.map_append

@[simp] theorem payload_append (m n : Marked) : payload (m ++ n) = payload m ++ payload n := by
  simp only [payload, List.filter_append, List.map_append]

@[simp] theorem wire_overhead (bytes : Bytes) : wire (overhead bytes) = bytes := by
  induction bytes with
  | nil => rfl
  | cons b bytes ih => exact congrArg (b :: ·) ih

@[simp] theorem wire_content (bytes : Bytes) : wire (content bytes) = bytes := by
  induction bytes with
  | nil => rfl
  | cons b bytes ih => exact congrArg (b :: ·) ih

@[simp] theorem payload_overhead (bytes : Bytes) : payload (overhead bytes) = [] := by
  induction bytes with
  | nil => rfl
  | cons b bytes ih => exact ih

@[simp] theorem payload_content (bytes : Bytes) : payload (content bytes) = bytes := by
  induction bytes with
  | nil => rfl
  | cons b bytes ih => exact congrArg (b :: ·) ih

@[simp] theorem length_wire (m : Marked) : (wire m).length = m.length := List.length_map _

@[simp] theorem payload_nil : payload [] = [] := rfl

theorem overhead_append (a b : Bytes) : overhead (a ++ b) = overhead a ++ overhead b :=
  List.map_append

theorem content_append (a b : Bytes) : content (a ++ b) = content a ++ content b :=
  List.map_append

end Marked

open Marked

/-! ## The encoding -/

/-- A framing line: no line end in it, and within the ceiling. -/
structure FramingLine (line : Bytes) : Prop where
  no_crlf : ¬crlf <:+: line
  short : line.length < maxChunkHeaderBytes

/-- The value that a run of hexadecimal digits denotes. -/
def HexDenotes (digits : List Char) (n : ℕ) : Prop :=
  ∃ values : List ℕ, digits.map hexDigitValue = values.map some ∧
    n = values.foldl (fun n value => n * 16 + value) 0

/-- A size line: digits, blanks, and perhaps an extension behind a `;`. -/
structure SizeLine (line : Bytes) (size : ℕ) : Prop extends FramingLine line where
  le : size ≤ u64Max
  shape : ∃ (digits blanks : List Char) (extension : Bytes),
    line = utf8Bytes (digits ++ blanks) ++ extension ∧ digits ≠ [] ∧ HexDenotes digits size ∧
      (∀ c ∈ blanks, c = ' ' ∨ c = '\t') ∧ (extension = [] ∨ extension.head? = some 59)

/-- The trailer lines and the empty line that ends the message. -/
inductive Trailers : Marked → Prop
  | nil : Trailers (overhead crlf)
  | cons {line : Bytes} {rest : Marked} (hline : FramingLine line) (hne : line ≠ [])
      (hrest : Trailers rest) : Trailers (overhead (line ++ crlf) ++ rest)

/-- A chunked body. -/
inductive ChunkedEncodes : Marked → Prop
  | last {line : Bytes} {rest : Marked} (hline : SizeLine line 0) (hrest : Trailers rest) :
      ChunkedEncodes (overhead (line ++ crlf) ++ rest)
  | chunk {line data : Bytes} {rest : Marked} (hline : SizeLine line data.length)
      (hne : data ≠ []) (hrest : ChunkedEncodes rest) :
      ChunkedEncodes (overhead (line ++ crlf) ++ (content data ++ (overhead crlf ++ rest)))

/-- A body framed by its length or in chunks. -/
inductive Encodes : BodyFraming → Marked → Prop
  | length {body : Bytes} (hle : body.length ≤ u64Max) :
      Encodes (.length body.length) (content body)
  | chunked {m : Marked} (h : ChunkedEncodes m) : Encodes (.chunked .size) m

/-! ## Framing lines -/

theorem findCrlf_eq_none_iff {bytes : Bytes} : findCrlf bytes = none ↔ ¬crlf <:+: bytes := by
  induction bytes using findCrlf.induct with
  | case1 a b rest hab =>
    obtain ⟨rfl, rfl⟩ := hab
    rw [findCrlf, if_pos ⟨rfl, rfl⟩]
    have hin : crlf <:+: cr :: lf :: rest := ⟨[], rest, rfl⟩
    exact iff_of_false (by simp) (not_not.2 hin)
  | case2 a b rest hab ih =>
    rw [findCrlf, if_neg hab, Option.map_eq_none_iff, ih]
    constructor
    · intro h hin
      rcases List.infix_cons_iff.1 hin with ⟨tail, htail⟩ | hin
      · simp only [List.cons_append, List.nil_append, List.cons.injEq] at htail
        exact hab ⟨htail.1.symm, htail.2.1.symm⟩
      · exact h hin
    · intro h hin
      exact h (hin.trans (List.suffix_cons a _).isInfix)
  | case3 bytes hbytes =>
    have hshort : bytes.length < 2 := by
      cases bytes with
      | nil => simp
      | cons a bytes =>
        cases bytes with
        | nil => simp
        | cons b rest => exact absurd rfl (hbytes a b rest)
    have hnone : findCrlf bytes = none := by
      cases h : findCrlf bytes with
      | none => rfl
      | some eol =>
        have := findCrlf_lt h
        omega
    exact iff_of_true hnone fun h => by
      have := h.length_le
      simp only [List.length_cons, List.length_nil] at this
      omega

theorem findCrlf_append {line : Bytes} (rest : Bytes) (h : ¬crlf <:+: line) :
    findCrlf (line ++ (crlf ++ rest)) = some line.length := by
  induction line with
  | nil => rfl
  | cons a line ih =>
    have hline : ¬crlf <:+: line := fun hin => h (hin.trans (List.suffix_cons a line).isInfix)
    have htail := ih hline
    cases line with
    | nil =>
      have ha : ¬(a = cr ∧ cr = lf) := fun h => absurd h.2 (by decide)
      rw [List.singleton_append, List.cons_append, findCrlf, if_neg ha]
      rfl
    | cons b line =>
      have hab : ¬(a = cr ∧ b = lf) := by
        rintro ⟨rfl, rfl⟩
        exact h ⟨[], line, rfl⟩
      rw [List.cons_append, List.cons_append, findCrlf, if_neg hab, ← List.cons_append, htail]
      rfl

/-- A line whose end has not come whole. -/
theorem findCrlf_of_partial {line p v : Bytes} (h : ¬crlf <:+: line) (hv : v ≠ [])
    (hline : line ++ crlf = p ++ v) : findCrlf p = none ∧ p.length ≤ line.length + 1 := by
  obtain ⟨v, x, rfl⟩ := (List.eq_nil_or_concat' v).resolve_left hv
  have hline' : line ++ [cr] = p ++ v := by
    have : line ++ [cr] ++ [lf] = p ++ v ++ [x] := by
      rw [List.append_assoc, List.append_assoc]
      exact hline
    exact (List.append_inj' this rfl).1
  constructor
  · rw [findCrlf_eq_none_iff]
    rintro ⟨before, behind, rfl⟩
    rw [List.append_assoc] at hline'
    obtain hend | ⟨w, y, hend⟩ := List.eq_nil_or_concat' (behind ++ v)
    · -- the last octet of the line end would be the first one
      rw [hend, List.append_nil] at hline'
      have : line ++ [cr] = (before ++ [cr]) ++ [lf] := by
        rw [hline', List.append_assoc]
        rfl
      exact absurd (List.append_inj_right' this rfl) (by decide)
    · rw [hend, ← List.append_assoc] at hline'
      exact h ⟨before, w, ((List.append_inj' hline' rfl).1).symm⟩
  · have := congrArg List.length hline'
    simp only [List.length_append, List.length_singleton] at this
    omega

/-- The hexadecimal digits are read as the number they denote. -/
theorem parseHexDigits_of_denotes {digits : List Char} {n : ℕ} (h : HexDenotes digits n)
    (hne : digits ≠ []) : parseHexDigits digits = some n := by
  obtain ⟨values, hvalues, rfl⟩ := h
  have hfold : ∀ (digits : List Char) (values : List ℕ) (n : ℕ),
      digits.map hexDigitValue = values.map some →
      digits.foldl (fun acc c => acc.bind fun n => (hexDigitValue c).map (n * 16 + ·)) (some n) =
        some (values.foldl (fun n value => n * 16 + value) n) := by
    intro digits
    induction digits with
    | nil =>
      intro values n h
      rw [List.map_nil, eq_comm, List.map_eq_nil_iff] at h
      rw [h]
      rfl
    | cons c digits ih =>
      intro values n h
      cases values with
      | nil => cases h
      | cons value values =>
        rw [List.map_cons, List.map_cons, List.cons.injEq] at h
        rw [List.foldl_cons, List.foldl_cons, Option.bind_some, h.1, Option.map_some]
        exact ih values _ h.2
  obtain ⟨c, cs, rfl⟩ := List.exists_cons_of_ne_nil hne
  exact hfold (c :: cs) values 0 hvalues

theorem HexDenotes.isSome {digits : List Char} {n : ℕ} (h : HexDenotes digits n) {c : Char}
    (hc : c ∈ digits) : ∃ value, hexDigitValue c = some value := by
  obtain ⟨values, hvalues, -⟩ := h
  have : hexDigitValue c ∈ values.map some := hvalues ▸ List.mem_map_of_mem hc
  obtain ⟨value, -, hvalue⟩ := List.mem_map.1 this
  exact ⟨value, hvalue.symm⟩

/-- A hexadecimal digit is ASCII, neither a blank nor a `;` nor a plus sign. -/
theorem hexDigitValue_some {c : Char} {value : ℕ} (h : hexDigitValue c = some value) :
    c.toNat < 128 ∧ Text.isWhitespace c = false ∧ c.toNat ≠ 59 ∧ c ≠ '+' := by
  unfold hexDigitValue at h
  dsimp only at h
  have hrange : 48 ≤ c.toNat ∧ c.toNat ≤ 57 ∨ 97 ≤ c.toNat ∧ c.toNat ≤ 102 ∨
      65 ≤ c.toNat ∧ c.toNat ≤ 70 := by
    split_ifs at h with h1 h2 h3
    · exact .inl h1
    · exact .inr (.inl h2)
    · exact .inr (.inr h3)
  refine ⟨by omega, ?_, by omega, ?_⟩
  · simp only [Text.isWhitespace, Bool.or_eq_false_iff, Bool.and_eq_false_iff,
      decide_eq_false_iff_not]
    omega
  · rintro rfl
    have : '+'.toNat = 43 := rfl
    omega

/-- The octets of a text without a `;` stand before the extension. -/
theorem takeWhile_utf8Bytes {text : List Char} {extension : Bytes}
    (htext : ∀ c ∈ text, c.toNat ≠ 59) (hextension : extension = [] ∨ extension.head? = some 59) :
    (utf8Bytes text ++ extension).takeWhile (· ≠ 59) = utf8Bytes text := by
  have hall : ∀ byte ∈ utf8Bytes text, decide (byte ≠ 59) = true := by
    intro byte hbyte
    obtain ⟨c, hc, hbyte⟩ := List.mem_flatMap.1 hbyte
    refine decide_eq_true fun h59 => htext c hc ?_
    rw [← toNat_of_mem_utf8EncodeChar hbyte (by rw [h59]; decide), h59]
    rfl
  rw [List.takeWhile_append_of_pos hall]
  cases extension with
  | nil => rw [List.takeWhile_nil, List.append_nil]
  | cons b extension =>
    obtain h | h := hextension
    · cases h
    · cases h
      rw [List.takeWhile_cons_of_neg (by simp), List.append_nil]

/-- **A well-formed size line is read as the size it denotes.** -/
theorem parseChunkSize_of_sizeLine {line : Bytes} {size : ℕ} (h : SizeLine line size) :
    parseChunkSize line = .ok size := by
  obtain ⟨digits, blanks, extension, rfl, hne, hdenotes, hblanks, hextension⟩ := h.shape
  have hdigit : ∀ c ∈ digits,
      c.toNat < 128 ∧ Text.isWhitespace c = false ∧ c.toNat ≠ 59 ∧ c ≠ '+' := fun c hc => by
    obtain ⟨value, hvalue⟩ := hdenotes.isSome hc
    exact hexDigitValue_some hvalue
  have hblank : ∀ c ∈ blanks, Text.isWhitespace c = true ∧ c.toNat ≠ 59 := fun c hc => by
    rcases hblanks c hc with rfl | rfl <;> decide
  have hhex := @takeWhile_utf8Bytes (digits ++ blanks) extension
    (fun c hc => (List.mem_append.1 hc).elim (fun h => (hdigit c h).2.2.1) fun h => (hblank c h).2)
    hextension
  have htrim : Text.trim (digits ++ blanks) = digits :=
    Text.trim_append_blank (fun c hc => by simp [(hdigit c hc).2.1]) hne
      fun c hc => (hblank c hc).1
  have hparse : parseHex digits = some size := by
    obtain ⟨c, cs, rfl⟩ := List.exists_cons_of_ne_nil hne
    have hplus : c ≠ '+' := (hdigit c List.mem_cons_self).2.2.2
    unfold parseHex
    split
    · next rest heq =>
      cases heq
      exact absurd rfl hplus
    · show (parseHexDigits (c :: cs)).filter (· ≤ u64Max) = some size
      rw [parseHexDigits_of_denotes hdenotes hne, Option.filter_some_pos (by simpa using h.le)]
  rw [parseChunkSize, hhex, decodeUtf8_utf8Bytes]
  simp only [htrim, hparse]

/-! ## One call of the chunked decoder -/

/-- What a decoder in the given state still has to receive. -/
def ChunkState.Owes : ChunkState → Marked → Prop
  | size, m => ChunkedEncodes m
  | data n, m => ∃ data rest, m = content data ++ (overhead crlf ++ rest) ∧ data.length = n ∧
      data ≠ [] ∧ ChunkedEncodes rest
  | dataCrlf, m => ∃ rest, m = overhead crlf ++ rest ∧ ChunkedEncodes rest
  | trailer, m => Trailers m
  | done, m => m = []

/-- Where a decoder stops that was owed `m` and was given the octets `p`: it took the octets of
`taken`, and holds at most a part of a framing unit. -/
def Stops (m : Marked) (p out : Bytes)
    (result : Except TransportError (ChunkState × Bytes × Bytes)) : Prop :=
  ∃ state taken rest held, result = .ok (state, held, out ++ payload taken) ∧
    m = taken ++ rest ∧ p = wire taken ++ held ∧ state.Owes rest ∧
    (state = .done ∨ state ≠ .done ∧ ∃ behind, rest = overhead held ++ behind ∧ behind ≠ [])

/-- In the given state a decoder that is owed `m` stops well, however much of it has come. -/
def Proceeds (state : ChunkState) (m : Marked) : Prop :=
  ∀ more p q out, wire m ++ more = p ++ q → Stops m p out (decodeChunks state p out)

/-- Octets given either cover a first part or stop inside it. -/
theorem covers_or {u w p q : Bytes} (h : u ++ w = p ++ q) :
    (∃ p', p = u ++ p' ∧ w = p' ++ q) ∨ ∃ v, v ≠ [] ∧ u = p ++ v := by
  rcases List.append_eq_append_iff.1 h with ⟨p', hp, hw⟩ | ⟨v, hu, hq⟩
  · exact .inl ⟨p', hp, hw⟩
  · by_cases hv : v = []
    · subst hv
      rw [List.append_nil] at hu
      exact .inl ⟨[], by rw [hu, List.append_nil], by rw [hq]; rfl⟩
    · exact .inr ⟨v, hv, hu⟩

/-- A decoder that takes the octets of `a` and goes on. -/
theorem Stops.of_step {a m : Marked} {p p' out out' : Bytes} {state state' : ChunkState}
    (hp : p = wire a ++ p') (hout : out' = out ++ payload a)
    (hstep : decodeChunks state p out = decodeChunks state' p' out')
    (h : Stops m p' out' (decodeChunks state' p' out')) :
    Stops (a ++ m) p out (decodeChunks state p out) := by
  obtain ⟨s, taken, rest, held, hresult, hm, hp', howes, hstop⟩ := h
  refine ⟨s, a ++ taken, rest, held, ?_, ?_, ?_, howes, hstop⟩
  · rw [hstep, hresult, hout, payload_append, List.append_assoc]
  · rw [hm, List.append_assoc]
  · rw [hp, hp', wire_append, List.append_assoc]

/-- A decoder that waits for the rest of a framing unit. -/
theorem Stops.of_wait {u v p out : Bytes} {m : Marked} {state : ChunkState}
    (howes : state.Owes (overhead u ++ m)) (hne : state ≠ .done) (hu : u = p ++ v) (hv : v ≠ [])
    (hwait : decodeChunks state p out = .ok (state, p, out)) :
    Stops (overhead u ++ m) p out (decodeChunks state p out) := by
  refine ⟨state, [], overhead u ++ m, p, ?_, rfl, rfl, howes, .inr ⟨hne, overhead v ++ m, ?_, ?_⟩⟩
  · rw [hwait, payload_nil, List.append_nil]
  · rw [hu, overhead_append, List.append_assoc]
  · intro h
    have := congrArg List.length h
    simp only [List.length_append, overhead, List.length_map, List.length_nil] at this
    exact hv (List.length_eq_zero_iff.1 (by omega))

theorem checkHeaderBound_ok {held : ℕ} (h : held ≤ maxChunkHeaderBytes) :
    checkHeaderBound held = .ok () := if_neg (Nat.not_lt.2 h)

/-- A size line, whole or in part. -/
theorem proceeds_size {line : Bytes} {size : ℕ} {m : Marked} (hline : SizeLine line size)
    (howes : ChunkedEncodes (overhead (line ++ crlf) ++ m))
    (hnext : Proceeds (if size = 0 then .trailer else .data size) m) :
    Proceeds .size (overhead (line ++ crlf) ++ m) := by
  intro more p q out hp
  rw [wire_append, wire_overhead, List.append_assoc] at hp
  obtain ⟨p', rfl, hrest⟩ | ⟨v, hv, hu⟩ := covers_or hp
  · refine Stops.of_step (by rw [wire_overhead]) (by rw [payload_overhead, List.append_nil]) ?_
      (hnext more p' q out hrest)
    rw [decodeChunks, List.append_assoc, findCrlf_append p' hline.no_crlf]
    simp only [List.take_left, parseChunkSize_of_sizeLine hline]
    rw [← List.append_assoc, List.drop_left' (by simp)]
  · obtain ⟨hnone, hlen⟩ := findCrlf_of_partial hline.no_crlf hv hu
    have hshort := hline.short
    refine Stops.of_wait howes (by simp) hu hv ?_
    rw [decodeChunks, hnone, checkHeaderBound_ok (by omega)]
    rfl

/-- A trailer line in part, or the empty line in part. -/
theorem Stops.of_trailer_wait {line v p out : Bytes} {m : Marked} (hline : ¬crlf <:+: line)
    (hshort : line.length < maxChunkHeaderBytes) (howes : Trailers (overhead (line ++ crlf) ++ m))
    (hu : line ++ crlf = p ++ v) (hv : v ≠ []) :
    Stops (overhead (line ++ crlf) ++ m) p out (decodeChunks .trailer p out) := by
  obtain ⟨hnone, hlen⟩ := findCrlf_of_partial hline hv hu
  refine Stops.of_wait howes (by simp) hu hv ?_
  rw [decodeChunks, hnone, checkHeaderBound_ok (by omega)]
  rfl

theorem proceeds_trailer {m : Marked} (h : Trailers m) : Proceeds .trailer m := by
  induction h with
  | nil =>
    intro more p q out hp
    rw [wire_overhead] at hp
    obtain ⟨p', rfl, hrest⟩ | ⟨v, hv, hu⟩ := covers_or hp
    · refine ⟨.done, overhead crlf, [], p', ?_, ?_, ?_, rfl, .inl rfl⟩
      · rw [decodeChunks, show findCrlf (crlf ++ p') = some 0 from rfl, payload_overhead,
          List.append_nil]
        rfl
      · rw [List.append_nil]
      · rw [wire_overhead]
    · have := @Stops.of_trailer_wait [] v p out [] (by simp) (by decide)
        (by simpa using Trailers.nil) hu hv
      simpa using this
  | @cons line rest hline hne hrest ih =>
    intro more p q out hp
    rw [wire_append, wire_overhead, List.append_assoc] at hp
    obtain ⟨p', rfl, hrest'⟩ | ⟨v, hv, hu⟩ := covers_or hp
    · refine Stops.of_step (by rw [wire_overhead]) (by rw [payload_overhead, List.append_nil]) ?_
        (ih more p' q out hrest')
      have hpos : line.length ≠ 0 := fun h => hne (List.length_eq_zero_iff.1 h)
      rw [decodeChunks, List.append_assoc, findCrlf_append p' hline.no_crlf]
      simp only [if_neg hpos]
      rw [← List.append_assoc, List.drop_left' (by simp)]
    · exact Stops.of_trailer_wait hline.no_crlf hline.short (.cons hline hne hrest) hu hv

/-- The line end behind the data of a chunk. -/
theorem proceeds_dataCrlf {m : Marked} (howes : ChunkedEncodes m) (hnext : Proceeds .size m) :
    Proceeds .dataCrlf (overhead crlf ++ m) := by
  intro more p q out hp
  rw [wire_append, wire_overhead, List.append_assoc] at hp
  obtain ⟨p', rfl, hrest⟩ | ⟨v, hv, hu⟩ := covers_or hp
  · refine Stops.of_step (by rw [wire_overhead]) (by rw [payload_overhead, List.append_nil]) ?_
      (hnext more p' q out hrest)
    conv_lhs => rw [decodeChunks]
    rw [if_neg (by simp)]
    rfl
  · refine Stops.of_wait ⟨m, rfl, howes⟩ (by simp) hu hv ?_
    have hlen := congrArg List.length hu
    have hpos : 0 < v.length := List.length_pos_iff.2 hv
    rw [List.length_append] at hlen
    rw [decodeChunks, if_pos (by simp only [List.length_cons, List.length_nil] at hlen; omega)]

/-- The data of a chunk, whole or in part. -/
theorem proceeds_data {data : Bytes} {m : Marked} (hne : data ≠ []) (howes : ChunkedEncodes m)
    (hnext : Proceeds .size m) :
    Proceeds (.data data.length) (content data ++ (overhead crlf ++ m)) := by
  intro more p q out hp
  rw [wire_append, wire_content, List.append_assoc] at hp
  obtain ⟨p', rfl, hrest⟩ | ⟨v, hv, rfl⟩ := covers_or hp
  · refine Stops.of_step (by rw [wire_content]) (by rw [payload_content]) ?_
      (proceeds_dataCrlf howes hnext more p' q (out ++ data) hrest)
    have hmin : min data.length (data ++ p').length = data.length := by
      rw [List.length_append]
      omega
    rw [decodeChunks]
    simp only [hmin, Nat.sub_self, if_pos, List.drop_left, List.take_left]
  · have hpos : 0 < v.length := List.length_pos_iff.2 hv
    have hmin : min (p ++ v).length p.length = p.length := by
      rw [List.length_append]
      omega
    have hleft : (p ++ v).length - p.length = v.length := by
      rw [List.length_append]
      omega
    refine ⟨.data v.length, content p, content v ++ (overhead crlf ++ m), [], ?_, ?_, ?_,
      ⟨v, m, rfl, rfl, hv, howes⟩, .inr ⟨by simp, content v ++ (overhead crlf ++ m), rfl, ?_⟩⟩
    · rw [decodeChunks]
      simp only [hmin, hleft, if_neg (Nat.ne_of_gt hpos), List.drop_length, List.take_length,
        payload_content]
    · rw [content_append, List.append_assoc]
    · rw [wire_content, List.append_nil]
    · intro h
      have := congrArg List.length h
      simp [content, overhead] at this

theorem proceeds_chunked {m : Marked} (h : ChunkedEncodes m) : Proceeds .size m := by
  induction h with
  | last hline hrest =>
    exact proceeds_size hline (.last hline hrest) (by rw [if_pos rfl]; exact proceeds_trailer hrest)
  | chunk hline hne hrest ih =>
    refine proceeds_size hline (.chunk hline hne hrest) ?_
    rw [if_neg fun h => hne (List.length_eq_zero_iff.1 h)]
    exact proceeds_data hne hrest ih

/-- **Whatever a chunked decoder is owed, it stops well.** -/
theorem proceeds {state : ChunkState} {m : Marked} (h : state.Owes m) : Proceeds state m := by
  cases state with
  | size => exact proceeds_chunked h
  | data n =>
    obtain ⟨data, rest, rfl, rfl, hne, hrest⟩ := h
    exact proceeds_data hne hrest (proceeds_chunked hrest)
  | dataCrlf =>
    obtain ⟨rest, rfl, hrest⟩ := h
    exact proceeds_dataCrlf hrest (proceeds_chunked hrest)
  | trailer => exact proceeds_trailer h
  | done =>
    cases h
    intro more p q out _
    refine ⟨.done, [], [], p, ?_, rfl, rfl, rfl, .inl rfl⟩
    rw [decodeChunks, payload_nil, List.append_nil]

/-! ## Any cut of the octets into reads -/

/-- What a decoder of either framing still has to receive. -/
def BodyFraming.Owes : BodyFraming → Marked → Prop
  | length n, m => ∃ body, m = content body ∧ body.length = n
  | chunked state, m => state.Owes m
  | untilClose, _ => False

theorem Encodes.owes {framing : BodyFraming} {m : Marked} (h : Encodes framing m) :
    framing.Owes m := by
  cases h with
  | length hle => exact ⟨_, rfl, rfl⟩
  | chunked h => exact h

/-- **What one call does**: it takes a first part of what is due, reports completion exactly when
that is all of it, and holds at most a part of a framing unit. -/
theorem decodeBody_owes {framing : BodyFraming} {m : Marked} {more p q : Bytes}
    (h : framing.Owes m) (hp : wire m ++ more = p ++ q) :
    ∃ framing' taken rest held,
      decodeBody framing p = .ok ⟨decide (m.length ≤ p.length), framing', held, payload taken⟩ ∧
      m = taken ++ rest ∧ p = wire taken ++ held ∧ framing'.Owes rest ∧
      payload (rest.take held.length) = [] ∧ (rest = [] ∨ held.length < rest.length) := by
  cases framing with
  | length n =>
    obtain ⟨body, rfl, rfl⟩ := h
    rw [wire_content] at hp
    have hlen : (content body).length = body.length := by
      rw [← length_wire, wire_content]
    obtain ⟨p', rfl, -⟩ | ⟨v, hv, rfl⟩ := covers_or hp
    · have hmin : min body.length (body ++ p').length = body.length := by
        rw [List.length_append]
        omega
      refine ⟨.length 0, content body, [], p', ?_, (List.append_nil _).symm, ?_, ⟨[], rfl, rfl⟩,
        by simp, .inl rfl⟩
      · have hle : (content body).length ≤ (body ++ p').length := by
          rw [hlen, List.length_append]
          exact Nat.le_add_right _ _
        simp only [decodeBody, hmin, Nat.sub_self, List.drop_left, List.take_left, hle,
          payload_content]
      · rw [wire_content]
    · have hpos : 0 < v.length := List.length_pos_iff.2 hv
      have hmin : min (p ++ v).length p.length = p.length := by
        rw [List.length_append]
        omega
      have hleft : (p ++ v).length - p.length = v.length := by
        rw [List.length_append]
        omega
      refine ⟨.length v.length, content p, content v, [], ?_, content_append p v, ?_, ⟨v, rfl, rfl⟩,
        rfl, .inr ?_⟩
      · have hmore : ¬(p ++ v).length ≤ p.length := by
          rw [List.length_append]
          omega
        simp only [decodeBody, hmin, hleft, List.drop_length, List.take_length, hlen, hmore,
          Nat.ne_of_gt hpos, payload_content]
      · rw [wire_content, List.append_nil]
      · simpa [content] using hpos
  | chunked state =>
    obtain ⟨state', taken, rest, held, hresult, rfl, rfl, howes, hstop⟩ := proceeds h more p q [] hp
    have hdecode : decodeBody (.chunked state) (wire taken ++ held) =
        .ok ⟨decide (state' = .done), .chunked state', held, payload taken⟩ := by
      rw [decodeBody, hresult]
      rfl
    have hiff : (taken ++ rest).length ≤ (wire taken ++ held).length ↔
        rest.length ≤ held.length := by
      rw [List.length_append, List.length_append, length_wire]
      omega
    obtain rfl | ⟨hne, behind, rfl, hbehind⟩ := hstop
    · cases howes
      refine ⟨.chunked .done, taken, [], held, ?_, rfl, rfl, rfl, by simp, .inl rfl⟩
      rw [hdecode, decide_eq_true rfl, decide_eq_true (hiff.2 (Nat.zero_le _))]
    · have hlen : (overhead held).length = held.length := by
        rw [← length_wire, wire_overhead]
      have hpos : 0 < behind.length := List.length_pos_iff.2 hbehind
      have hlt : held.length < (overhead held ++ behind).length := by
        rw [List.length_append]
        omega
      refine ⟨.chunked state', taken, overhead held ++ behind, held, ?_, rfl, rfl, howes, ?_,
        .inr hlt⟩
      · rw [hdecode, decide_eq_false hne, decide_eq_false fun h => Nat.not_le.2 hlt (hiff.1 h)]
      · rw [List.take_left' hlen, payload_overhead]
  | untilClose => exact h.elim

/-- Feed the reads one after the other; what each of them gave, and what is held at the end. -/
def decodeReads (framing : BodyFraming) (pending : Bytes) :
    List Bytes → Except TransportError (List (Bytes × Bool) × BodyFraming × Bytes)
  | [] => .ok ([], framing, pending)
  | read :: reads =>
    match decodeBody framing (pending ++ read) with
    | .error e => .error e
    | .ok d =>
      (decodeReads d.framing d.pending reads).map fun r => ((d.out, d.complete) :: r.1, r.2)

/-- What the reads give, from any point of the body. -/
theorem decodeReads_owes {framing : BodyFraming} {m : Marked} {more pending : Bytes}
    {reads : List Bytes} (h : framing.Owes m) (hcut : wire m ++ more = pending ++ reads.flatten)
    (hheld : payload (m.take pending.length) = []) (hstuck : m = [] ∨ pending.length < m.length) :
    ∃ results framing', decodeReads framing pending reads = .ok (results, framing', more) ∧
      results.length = reads.length ∧
      (∀ k, ((results.take k).map Prod.fst).flatten =
        payload (m.take (pending ++ (reads.take k).flatten).length)) ∧
      ∀ k (hk : k < results.length), results[k].2 =
        decide (m.length ≤ (pending ++ (reads.take (k + 1)).flatten).length) := by
  induction reads generalizing framing m pending with
  | nil =>
    rw [List.flatten_nil, List.append_nil] at hcut
    have hm : m = [] := by
      refine hstuck.resolve_right fun hlt => ?_
      have := congrArg List.length hcut
      rw [List.length_append, length_wire] at this
      omega
    subst hm
    refine ⟨[], framing, ?_, rfl, fun k => ?_, fun k hk => absurd hk (by simp)⟩
    · rw [decodeReads, ← hcut]
      rfl
    · simp
  | cons read reads ih =>
    rw [List.flatten_cons, ← List.append_assoc] at hcut
    obtain ⟨framing', taken, rest, held, hdecode, rfl, hp, howes, hheld', hstuck'⟩ :=
      decodeBody_owes h hcut
    have hcut' : wire rest ++ more = held ++ reads.flatten := by
      rw [hp, wire_append, List.append_assoc, List.append_assoc] at hcut
      exact List.append_cancel_left hcut
    obtain ⟨results, framing'', hrun, hlen, hout, hflag⟩ := ih howes hcut' hheld' hstuck'
    refine ⟨(payload taken, decide ((taken ++ rest).length ≤ (pending ++ read).length)) :: results,
      framing'', ?_, ?_, ?_, ?_⟩
    · rw [decodeReads, hdecode]
      simp only [hrun]
      rfl
    · rw [List.length_cons, hlen, List.length_cons]
    · intro k
      cases k with
      | zero => simpa using hheld.symm
      | succ k =>
        have hlength : (wire taken ++ (held ++ (reads.take k).flatten)).length =
            taken.length + (held ++ (reads.take k).flatten).length := by
          rw [List.length_append, length_wire]
        rw [List.take_succ_cons, List.map_cons, List.flatten_cons, hout, List.take_succ_cons,
          List.flatten_cons, ← List.append_assoc, hp, List.append_assoc, hlength,
          List.take_length_add_append, payload_append]
    · intro k hk
      cases k with
      | zero => simp
      | succ k =>
        rw [List.getElem_cons_succ, hflag, List.take_succ_cons, List.flatten_cons,
          ← List.append_assoc, hp]
        simp only [List.length_append, length_wire]
        exact decide_eq_decide.2 (by omega)

/-- **Decoding does not depend on how the octets arrive**: for a body of either framing followed by
any further octets, and any cut of these into reads, no read fails, the reads give the octets of the
body that have come and nothing else, report completion from the read on that completes the
encoding, and leave what follows it. -/
theorem decodeReads_eq {framing : BodyFraming} {m : Marked} {more : Bytes} {reads : List Bytes}
    (h : Encodes framing m) (hcut : reads.flatten = wire m ++ more) :
    ∃ results framing', decodeReads framing [] reads = .ok (results, framing', more) ∧
      results.length = reads.length ∧ (results.map Prod.fst).flatten = payload m ∧
      (∀ k, ((results.take k).map Prod.fst).flatten =
        payload (m.take (reads.take k).flatten.length)) ∧
      ∀ k (hk : k < results.length),
        results[k].2 = decide (m.length ≤ (reads.take (k + 1)).flatten.length) := by
  have hstuck : m = [] ∨ ([] : Bytes).length < m.length := by
    cases m with
    | nil => exact .inl rfl
    | cons x m => exact .inr (Nat.succ_pos _)
  obtain ⟨results, framing', hrun, hlen, hout, hflag⟩ :=
    @decodeReads_owes framing m more [] reads h.owes hcut.symm rfl hstuck
  refine ⟨results, framing', hrun, hlen, ?_, hout, hflag⟩
  have hall := hout reads.length
  rw [List.take_of_length_le (Nat.le_of_eq hlen), List.take_length, List.nil_append, hcut,
    List.take_of_length_le] at hall
  · exact hall
  · rw [List.length_append, length_wire]
    exact Nat.le_add_right _ _

/-- Five octets in a chunk with an extension, a trailer, and an octet of what follows. -/
def helloChunked : Marked :=
  overhead (utf8Bytes "5 ;x=y".toList ++ crlf) ++ (content (utf8Bytes "hello".toList) ++
    (overhead crlf ++ (overhead (utf8Bytes "0".toList ++ crlf) ++
      (overhead (utf8Bytes "X: 1".toList ++ crlf) ++ overhead crlf))))

theorem chunkedEncodes_helloChunked : ChunkedEncodes helloChunked := by
  refine .chunk ⟨⟨by decide, by decide⟩, by decide, ?_⟩ (by decide)
    (.last ⟨⟨by decide, by decide⟩, by decide, ?_⟩ (.cons ⟨by decide, by decide⟩ (by decide) .nil))
  · exact ⟨['5'], [' '], utf8Bytes ";x=y".toList, by decide, by simp, ⟨[5], rfl, rfl⟩, by simp,
      .inr (by decide)⟩
  · exact ⟨['0'], [], [], by decide, by simp, ⟨[0], rfl, rfl⟩, by simp, .inl rfl⟩

/-- Cut inside the size line, inside a line end and inside the data. -/
theorem decodeReads_eq_helloChunked :
    ∃ results framing', decodeReads (.chunked .size) []
        [utf8Bytes "5 ;x".toList, utf8Bytes "=y\r".toList, utf8Bytes "\nhel".toList,
          utf8Bytes "lo\r\n0\r\nX: 1\r\n\r\n!".toList] =
        .ok (results, framing', utf8Bytes "!".toList) ∧
      (results.map Prod.fst).flatten = utf8Bytes "hello".toList := by
  obtain ⟨results, framing', hrun, -, hout, -⟩ :=
    @decodeReads_eq (.chunked .size) helloChunked (utf8Bytes "!".toList)
      [utf8Bytes "5 ;x".toList, utf8Bytes "=y\r".toList, utf8Bytes "\nhel".toList,
        utf8Bytes "lo\r\n0\r\nX: 1\r\n\r\n!".toList] (.chunked chunkedEncodes_helloChunked)
      (by decide)
  exact ⟨results, framing', hrun, hout.trans (by decide)⟩

end Lightstreamer.Transport
