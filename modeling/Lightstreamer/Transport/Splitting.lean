import Lightstreamer.Transport.ControlResponse

/-!
# The two splitters

The lines of a stream come out of a `LineBuffer`, as they are popped and as the fragment held at the
end is flushed; those of a control response come out of `splitBodyLines`. `feed_flush_eq` says that
both give the lines of the whole body, and `streamed_eq_split` that on UTF-8 text these are the same
texts: a line end is never within a character (`exists_text_of_mem_splitOn`).
-/

namespace Lightstreamer.Transport

open Foundations Protocol

namespace LineBuffer

/-- Pop up to `n` lines. -/
def popUpTo : ℕ → LineBuffer → List (Except TransportError String) × LineBuffer
  | 0, b => ([], b)
  | n + 1, b =>
    match b.popLine with
    | (none, b) => ([], b)
    | (some line, b) => (line :: (popUpTo n b).1, (popUpTo n b).2)

/-- Pop every complete line. -/
def popAll (b : LineBuffer) : List (Except TransportError String) × LineBuffer :=
  popUpTo b.ready.length b

theorem popUpTo_length (b : LineBuffer) :
    popUpTo b.ready.length b = (b.ready.map readLine, { b with ready := [] }) := by
  obtain ⟨held, scanned, ready⟩ := b
  induction ready with
  | nil => rfl
  | cons line ready ih =>
    show (readLine line :: (popUpTo ready.length ⟨held, scanned, ready⟩).1,
      (popUpTo ready.length ⟨held, scanned, ready⟩).2) = _
    rw [ih]
    rfl

/-- Nothing is ready once every line has been popped. -/
theorem popAll_eq (b : LineBuffer) : b.popAll = (b.ready.map readLine, { b with ready := [] }) :=
  popUpTo_length b

/-- What a flush gives is the line that the held fragment makes of itself. -/
theorem flushPartial_eq {b : LineBuffer} (h : lf ∉ b.partialBytes) :
    b.flushPartial.1.toList = (bodyLines b.partialBytes).map readLine := by
  rw [← Segments.opened_of_not_mem h, bodyLines_opened, Segments.opened_of_not_mem h, flushPartial]
  dsimp only
  split_ifs <;> rfl

/-- However the octets of a body arrive, and whatever is popped in between: the lines popped, those
still ready and the one the flush gives are the lines of the body. -/
theorem feed_flush_eq {body : Bytes} {arrivals : List Arrival} (hruns : ShortRuns body)
    (hcut : arrivals.flatMap Arrival.bytes = body) :
    ∃ popped b, empty.feed arrivals = .ok (popped, b) ∧
      popped ++ b.popAll.1 ++ b.popAll.2.flushPartial.1.toList = (bodyLines body).map readLine := by
  subst hcut
  obtain ⟨popped, b, hfeed, hsound, hheld, hlines⟩ := feed_eq sound_empty arrivals hruns
  refine ⟨popped, b, hfeed, ?_⟩
  have hflush : b.popAll.2.flushPartial.1.toList = (bodyLines b.partialBytes).map readLine := by
    rw [popAll_eq]
    exact flushPartial_eq (b := { b with ready := [] }) hsound.no_lf
  rw [hflush, hheld, popAll_eq, hlines, bodyLines_eq (arrivals.flatMap Arrival.bytes),
    ← List.map_append]
  rfl

end LineBuffer

/-! ## Lines of text -/

theorem utf8Bytes_append_lf (text rest : List Char) :
    utf8Bytes (text ++ '\n' :: rest) = utf8Bytes text ++ lf :: utf8Bytes rest := by
  rw [utf8Bytes_append, utf8Bytes_cons, utf8EncodeChar_ascii (by decide)]
  rfl

theorem lf_notMem_utf8Bytes {text : List Char} (h : '\n' ∉ text) : lf ∉ utf8Bytes text := by
  intro hmem
  obtain ⟨c, hc, hlf⟩ := List.mem_flatMap.mp hmem
  have hchar : c = '\n' := Char.toNat_inj.mp (toNat_of_mem_utf8EncodeChar hlf (by decide)).symm
  exact h (hchar ▸ hc)

/-- The segments of a text at its line ends are texts. -/
theorem exists_text_of_mem_splitOn (text : List Char) :
    ∀ piece ∈ (utf8Bytes text).splitOn lf, ∃ line, utf8Bytes line = piece := by
  induction hlength : text.length using Nat.strong_induction_on generalizing text with
  | _ n ih =>
    subst hlength
    by_cases hmem : '\n' ∈ text
    · obtain ⟨before, behind, rfl⟩ := List.append_of_mem hmem
      have hlt : before.length < (before ++ '\n' :: behind).length ∧
          behind.length < (before ++ '\n' :: behind).length := by
        rw [List.length_append, List.length_cons]
        omega
      intro piece hpiece
      rw [utf8Bytes_append_lf, List.splitOn_append_cons_self, List.mem_append] at hpiece
      rcases hpiece with hpiece | hpiece
      · exact ih before.length hlt.1 before rfl piece hpiece
      · exact ih behind.length hlt.2 behind rfl piece hpiece
    · rw [List.splitOn_eq_singleton (lf_notMem_utf8Bytes hmem)]
      intro piece hpiece
      exact ⟨text, (List.mem_singleton.mp hpiece).symm⟩

/-- A text without the `\r` at its end is a text. -/
theorem exists_text_of_stripCr (text : List Char) :
    ∃ line, utf8Bytes line = stripCr (utf8Bytes text) := by
  rw [stripCr]
  split_ifs with hlast
  · rcases List.eq_nil_or_concat' text with rfl | ⟨before, c, rfl⟩
    · cases hlast
    have hsplit : utf8Bytes (before ++ [c]) = utf8Bytes before ++ String.utf8EncodeChar c := by
      rw [utf8Bytes_append, utf8Bytes_cons]
      exact congrArg _ (List.append_nil _)
    rw [hsplit, List.getLast?_append_of_ne_nil _ String.utf8EncodeChar_ne_nil] at hlast
    have hcr : cr.toNat = c.toNat :=
      toNat_of_mem_utf8EncodeChar (List.mem_of_getLast? hlast) (by decide)
    refine ⟨before, ?_⟩
    rw [hsplit, utf8EncodeChar_ascii (by rw [← hcr]; decide), List.dropLast_concat]
  · exact ⟨text, rfl⟩

theorem readable_utf8Bytes (text : List Char) : Readable (utf8Bytes text) := by
  intro line hline
  obtain ⟨piece, hpiece, rfl⟩ := List.mem_map.mp (List.mem_filter.mp hline).1
  obtain ⟨piece, rfl⟩ := exists_text_of_mem_splitOn text piece hpiece
  obtain ⟨line, hline⟩ := exists_text_of_stripCr piece
  exact ⟨String.ofList line, by rw [String.toList_ofList, hline]⟩

/-- **The two splitters agree**: for a body of UTF-8 text with no run beyond the limit, any order of
pushes and pops, then popping what is ready and flushing what is held, gives the lines that the
whole body is split into. -/
theorem streamed_eq_split {text : List Char} {arrivals : List LineBuffer.Arrival}
    (hruns : LineBuffer.ShortRuns (utf8Bytes text))
    (hcut : arrivals.flatMap LineBuffer.Arrival.bytes = utf8Bytes text) :
    ∃ popped b lines, LineBuffer.empty.feed arrivals = .ok (popped, b) ∧
      splitBodyLines (utf8Bytes text) = .ok lines ∧
      popped ++ b.popAll.1 ++ b.popAll.2.flushPartial.1.toList = lines.map .ok := by
  obtain ⟨popped, b, hfeed, hlines⟩ := LineBuffer.feed_flush_eq hruns hcut
  obtain ⟨lines, hsplit⟩ := (exists_splitBodyLines_iff _).mpr (readable_utf8Bytes text)
  refine ⟨popped, b, lines, hfeed, hsplit, ?_⟩
  rw [hlines, ← splitBodyLines_eq_ok_iff.mp hsplit, List.map_map]
  apply List.map_congr_left
  intro line _
  exact decodeLine_eq_ok_iff.mpr rfl

/-- Two lines, an empty one between them and no line end behind the last; cut inside the first
character and inside a line end. -/
theorem streamed_eq_split_cut :
    ∃ popped b lines, LineBuffer.empty.feed [.push [0xC3], .push [0xA9, 13], .push [10, 10, 65]] =
        .ok (popped, b) ∧
      splitBodyLines (utf8Bytes ['é', '\r', '\n', '\n', 'A']) = .ok lines ∧
      popped ++ b.popAll.1 ++ b.popAll.2.flushPartial.1.toList = lines.map .ok :=
  @streamed_eq_split ['é', '\r', '\n', '\n', 'A']
    [.push [0xC3], .push [0xA9, 13], .push [10, 10, 65]]
    (fun _ hrun _ => hrun.length_le.trans (by decide)) (by decide)

end Lightstreamer.Transport
