import Lightstreamer.Foundations.Segments
import Lightstreamer.Transport.Basic

/-!
# The line buffer

`LineBuffer` turns runs of octets into lines. It keeps the octets after the last line end, with
the offset up to which they have been searched, and the complete lines, which are decoded when
they are popped.

`pushBytes_eq` is what a push does to a sound buffer, in terms of the closed and the open segments
of what is held; cutting the input then makes no difference (`feed_eq_split`).
-/

namespace Lightstreamer.Transport

open Foundations Protocol

/-- The largest run of octets held while waiting for a line end. -/
def maxLineBytes : ℕ := 8 * 1024 * 1024

/-- Remove one trailing `\r`. -/
def stripCr (line : Bytes) : Bytes := if line.getLast? = some cr then line.dropLast else line

/-- The octets after the last line end, how many of them have been searched, and the complete
lines. -/
structure LineBuffer where
  partialBytes : Bytes
  scanned : ℕ
  ready : List Bytes
  deriving DecidableEq

namespace LineBuffer

/-- The buffer that holds nothing. -/
def empty : LineBuffer := ⟨[], 0, []⟩

/-- Queue a complete line, unless it is empty. -/
def pushLine (ready : List Bytes) (line : Bytes) : List Bytes :=
  if line = [] then ready else ready ++ [line]

/-- The loop of `push_bytes`: how many octets the lines found so far take, and the lines. -/
def scan (bytes : Bytes) (consumed cursor : ℕ) (ready : List Bytes) : ℕ × List Bytes :=
  match _h : (bytes.drop cursor).findIdx? (· = lf) with
  | none => (consumed, ready)
  | some offset =>
    let stop := cursor + offset
    let line := stripCr ((bytes.take stop).drop consumed)
    scan bytes (stop + 1) (stop + 1) (pushLine ready line)
termination_by bytes.length - cursor
decreasing_by
  obtain ⟨hlt, -⟩ := List.findIdx?_eq_some_iff_getElem.1 _h
  rw [List.length_drop] at hlt
  omega

/-- The refusal of a fragment beyond the limit. -/
def noTerminator (held : ℕ) : TransportError :=
  .capacity maxLineBytes s!"{held} bytes were received with no line terminator"

/-- Absorb a run of octets. On failure the buffer is left cleared. -/
def pushBytes (b : LineBuffer) (bytes : Bytes) : Except TransportError Unit × LineBuffer :=
  let all := b.partialBytes ++ bytes
  let (consumed, ready) := scan all 0 b.scanned b.ready
  let held := all.drop consumed
  if held.length > maxLineBytes then
    (.error (noTerminator held.length), empty)
  else (.ok (), ⟨held, held.length, ready⟩)

/-- Absorb the payload of a text message. -/
def pushMessage (b : LineBuffer) (text : String) : Except TransportError Unit × LineBuffer :=
  b.pushBytes (utf8Bytes text.toList)

/-- The decoding of a line that leaves the buffer. -/
def readLine (bytes : Bytes) : Except TransportError String :=
  decodeLine "a line was not valid UTF-8: " bytes

/-- Remove and decode the oldest complete line. -/
def popLine (b : LineBuffer) : Option (Except TransportError String) × LineBuffer :=
  match b.ready with
  | [] => (none, b)
  | bytes :: ready => (some (readLine bytes), { b with ready })

/-- Take the held fragment as a final line. -/
def flushPartial (b : LineBuffer) : Option (Except TransportError String) × LineBuffer :=
  let raw := stripCr b.partialBytes
  (if raw = [] then none else some (readLine raw), { b with partialBytes := [], scanned := 0 })

/-- Discard the held fragment, and report its length. -/
def discardPartial (b : LineBuffer) : Option ℕ × LineBuffer :=
  (if 0 < b.partialBytes.length then some b.partialBytes.length else none,
    { b with partialBytes := [], scanned := 0 })

/-- Discard everything. -/
def clear (_ : LineBuffer) : LineBuffer := empty

/-! ## One push -/

/-- The lines of a run of octets: what its line ends close, without the `\r` before them and
without the empty ones. -/
def linesOf (bytes : Bytes) : List Bytes :=
  ((Segments.closed lf bytes).map stripCr).filter (· ≠ [])

theorem linesOf_of_not_mem {bytes : Bytes} (h : lf ∉ bytes) : linesOf bytes = [] := by
  rw [linesOf, Segments.closed_of_not_mem h]
  rfl

theorem pushLine_eq (ready : List Bytes) (line : Bytes) :
    pushLine ready line = ready ++ if line = [] then [] else [line] := by
  rw [pushLine]
  split_ifs
  · rw [List.append_nil]
  · rfl

theorem linesOf_append_cons {line : Bytes} (rest : Bytes) (h : lf ∉ line) :
    linesOf (line ++ lf :: rest) =
      (if stripCr line = [] then [] else [stripCr line]) ++ linesOf rest := by
  rw [linesOf, Segments.closed_cons_of_not_mem rest h, List.map_cons, List.filter_cons, linesOf]
  by_cases hline : stripCr line = [] <;> simp [hline]

theorem linesOf_append (bytes more : Bytes) :
    linesOf (bytes ++ more) = linesOf bytes ++ linesOf (Segments.opened lf bytes ++ more) := by
  simp only [linesOf, Segments.closed_append bytes more, List.map_append, List.filter_append]

/-- What the search finds: the octets up to the line end, the line end and the rest. -/
theorem findIdx?_lf {bytes : Bytes} :
    ((bytes.findIdx? (· = lf)) = none → lf ∉ bytes) ∧
      ∀ offset, bytes.findIdx? (· = lf) = some offset →
        lf ∉ bytes.take offset ∧ bytes = bytes.take offset ++ lf :: bytes.drop (offset + 1) := by
  constructor
  · intro h hmem
    rw [List.findIdx?_eq_none_iff] at h
    simpa using h lf hmem
  · intro offset h
    obtain ⟨hlt, hat, hbefore⟩ := List.findIdx?_eq_some_iff_getElem.1 h
    constructor
    · intro hmem
      obtain ⟨i, hi, hget⟩ := List.mem_take_iff_getElem.1 hmem
      have := hbefore i (by omega)
      simp [hget] at this
    · have hat : bytes[offset] = lf := by simpa using hat
      rw [← hat, ← List.drop_eq_getElem_cons hlt, List.take_append_drop]

/-- The loop finds the lines, and stops at the open segment. -/
theorem scan_eq (bytes : Bytes) (consumed cursor : ℕ) (ready : List Bytes)
    (hle : consumed ≤ cursor) (hlen : consumed ≤ bytes.length)
    (hseen : lf ∉ (bytes.drop consumed).take (cursor - consumed)) :
    (scan bytes consumed cursor ready).2 = ready ++ linesOf (bytes.drop consumed) ∧
      bytes.drop (scan bytes consumed cursor ready).1 =
        Segments.opened lf (bytes.drop consumed) := by
  induction consumed, cursor, ready using scan.induct bytes with
  | case1 consumed cursor ready h =>
    have htodo : lf ∉ bytes.drop cursor := findIdx?_lf.1 h
    have hfree : lf ∉ bytes.drop consumed := by
      rw [← List.take_append_drop (cursor - consumed) (bytes.drop consumed), List.drop_drop,
        Nat.add_sub_cancel' hle, List.mem_append, not_or]
      exact ⟨hseen, htodo⟩
    rw [scan, h, linesOf_of_not_mem hfree, Segments.opened_of_not_mem hfree, List.append_nil]
    exact ⟨rfl, rfl⟩
  | case2 consumed cursor ready offset h stop line ih =>
    obtain ⟨hbefore, hsplit⟩ := findIdx?_lf.2 offset h
    obtain ⟨hlt, -⟩ := List.findIdx?_eq_some_iff_getElem.1 h
    rw [List.length_drop] at hlt
    -- the line is what was searched before this push and what the search passed over
    have hline : (bytes.take stop).drop consumed =
        (bytes.drop consumed).take (cursor - consumed) ++ (bytes.drop cursor).take offset := by
      rw [List.drop_take, show stop - consumed = (cursor - consumed) + offset by omega,
        List.take_add, List.drop_drop, Nat.add_sub_cancel' hle]
    have hrest : bytes.drop consumed =
        (bytes.take stop).drop consumed ++ lf :: bytes.drop (stop + 1) := by
      rw [hline, List.append_assoc, show stop + 1 = cursor + (offset + 1) from Nat.add_assoc _ _ _,
        ← List.drop_drop, ← hsplit,
        show bytes.drop cursor = (bytes.drop consumed).drop (cursor - consumed) by
          rw [List.drop_drop, Nat.add_sub_cancel' hle], List.take_append_drop]
    have hfree : lf ∉ (bytes.take stop).drop consumed := by
      rw [hline, List.mem_append, not_or]
      exact ⟨hseen, hbefore⟩
    obtain ⟨hlines, hheld⟩ := ih (Nat.le_refl _) (by omega) (by simp)
    have hstep : scan bytes consumed cursor ready =
        scan bytes (stop + 1) (stop + 1) (pushLine ready line) := by
      conv_lhs => rw [scan, h]
    rw [hstep, hlines, hheld, hrest, linesOf_append_cons _ hfree, Segments.opened_append_cons,
      ← List.append_assoc, pushLine_eq]
    exact ⟨rfl, rfl⟩

/-- The held fragment has no line end, is within the limit and has been searched. -/
structure Sound (b : LineBuffer) : Prop where
  no_lf : lf ∉ b.partialBytes
  bounded : b.partialBytes.length ≤ maxLineBytes
  scanned_eq : b.scanned = b.partialBytes.length

theorem sound_empty : empty.Sound := ⟨List.not_mem_nil, Nat.zero_le _, rfl⟩

/-- **What a push does**: the segments that the octets close become lines, the open one is held, and
a fragment beyond the limit is refused. -/
theorem pushBytes_eq {b : LineBuffer} (hb : b.Sound) (bytes : Bytes) :
    b.pushBytes bytes =
      if (Segments.opened lf (b.partialBytes ++ bytes)).length ≤ maxLineBytes then
        (.ok (), ⟨Segments.opened lf (b.partialBytes ++ bytes),
          (Segments.opened lf (b.partialBytes ++ bytes)).length,
          b.ready ++ linesOf (b.partialBytes ++ bytes)⟩)
      else (.error (noTerminator (Segments.opened lf (b.partialBytes ++ bytes)).length),
        empty) := by
  have hseen : lf ∉ ((b.partialBytes ++ bytes).drop 0).take (b.scanned - 0) := by
    rw [hb.scanned_eq, List.drop_zero, Nat.sub_zero, List.take_left]
    exact hb.no_lf
  obtain ⟨hready, hheld⟩ := scan_eq (b.partialBytes ++ bytes) 0 b.scanned b.ready (Nat.zero_le _)
    (Nat.zero_le _) hseen
  rw [List.drop_zero] at hready hheld
  simp only [pushBytes, hready, hheld, ← Nat.not_le]
  split_ifs <;> rfl

theorem pushBytes_sound {b : LineBuffer} (hb : b.Sound) (bytes : Bytes) :
    (b.pushBytes bytes).2.Sound := by
  rw [pushBytes_eq hb]
  split_ifs with h
  · exact ⟨Segments.not_mem_opened _ _, h, rfl⟩
  · exact sound_empty

/-! ## Any sequence of calls -/

/-- A call on the buffer. -/
inductive Call
  | push (bytes : Bytes)
  | pop
  | flush
  | discard
  | clear
  deriving DecidableEq

/-- The buffer after a call. -/
def after (b : LineBuffer) : Call → LineBuffer
  | .push bytes => (b.pushBytes bytes).2
  | .pop => b.popLine.2
  | .flush => b.flushPartial.2
  | .discard => b.discardPartial.2
  | .clear => b.clear

theorem after_sound {b : LineBuffer} (hb : b.Sound) (call : Call) : (b.after call).Sound := by
  cases call with
  | push bytes => exact pushBytes_sound hb bytes
  | pop =>
    simp only [after, popLine]
    split
    · exact hb
    · exact ⟨hb.no_lf, hb.bounded, hb.scanned_eq⟩
  | flush => exact ⟨List.not_mem_nil, Nat.zero_le _, rfl⟩
  | discard => exact ⟨List.not_mem_nil, Nat.zero_le _, rfl⟩
  | clear => exact sound_empty

theorem foldl_after_sound {b : LineBuffer} (hb : b.Sound) (calls : List Call) :
    (calls.foldl after b).Sound := by
  induction calls generalizing b with
  | nil => exact hb
  | cons call calls ih => exact ih (after_sound hb call)

/-! ## Any cut of the input -/

/-- Something the owner of a buffer does while octets arrive. -/
inductive Arrival
  | push (bytes : Bytes)
  | pop
  deriving DecidableEq

/-- The octets that arrive. -/
def Arrival.bytes : Arrival → Bytes
  | push bytes => bytes
  | pop => []

/-- Push and pop in the given order; the lines that came out, and the buffer. -/
def feed (b : LineBuffer) :
    List Arrival → Except TransportError (List (Except TransportError String) × LineBuffer)
  | [] => .ok ([], b)
  | .push bytes :: rest =>
    match b.pushBytes bytes with
    | (.error e, _) => .error e
    | (.ok (), b) => b.feed rest
  | .pop :: rest =>
    match b.popLine with
    | (none, b) => b.feed rest
    | (some line, b) => (fun p => (line :: p.1, p.2)) <$> b.feed rest

/-- A stretch of octets without a line end is within the limit. -/
def ShortRuns (bytes : Bytes) : Prop :=
  ∀ run, run <:+: bytes → lf ∉ run → run.length ≤ maxLineBytes

theorem ShortRuns.opened_append {held bytes more : Bytes}
    (h : ShortRuns (held ++ (bytes ++ more))) :
    (Segments.opened lf (held ++ bytes)).length ≤ maxLineBytes ∧
      ShortRuns (Segments.opened lf (held ++ bytes) ++ more) := by
  obtain ⟨before, hbefore⟩ := Segments.opened_suffix lf (held ++ bytes)
  have hall : held ++ (bytes ++ more) =
      before ++ (Segments.opened lf (held ++ bytes) ++ more) := by
    rw [← List.append_assoc, ← List.append_assoc, hbefore]
  constructor
  · apply h _ _ (Segments.not_mem_opened lf _)
    exact ⟨before, more, by rw [hall, List.append_assoc]⟩
  · intro run hrun
    exact h run (hrun.trans ⟨before, [], by rw [hall, List.append_nil]⟩)

/-- Whatever the order of pushes and pops, the lines are those of the octets in one piece. -/
theorem feed_eq {b : LineBuffer} (hb : b.Sound) (arrivals : List Arrival)
    (hruns : ShortRuns (b.partialBytes ++ arrivals.flatMap Arrival.bytes)) :
    ∃ popped b', b.feed arrivals = .ok (popped, b') ∧ b'.Sound ∧
      b'.partialBytes =
        Segments.opened lf (b.partialBytes ++ arrivals.flatMap Arrival.bytes) ∧
      popped ++ b'.ready.map readLine =
        (b.ready ++ linesOf (b.partialBytes ++ arrivals.flatMap Arrival.bytes)).map readLine := by
  induction arrivals generalizing b with
  | nil =>
    refine ⟨[], b, rfl, hb, ?_, ?_⟩ <;> simp only [List.flatMap_nil, List.append_nil]
    · exact (Segments.opened_of_not_mem hb.no_lf).symm
    · rw [linesOf_of_not_mem hb.no_lf, List.append_nil, List.nil_append]
  | cons arrival arrivals ih =>
    cases arrival with
    | push bytes =>
      rw [List.flatMap_cons, Arrival.bytes] at hruns ⊢
      obtain ⟨hle, hruns⟩ := hruns.opened_append
      have hpush := pushBytes_eq hb bytes
      rw [if_pos hle] at hpush
      obtain ⟨popped, b', hfeed, hsound, hheld, hlines⟩ :=
        ih (b := (b.pushBytes bytes).2) (pushBytes_sound hb bytes) (by rwa [hpush])
      rw [hpush] at hfeed hheld hlines
      refine ⟨popped, b', ?_, hsound, ?_, ?_⟩
      · rw [feed, hpush]
        exact hfeed
      · rw [hheld, ← List.append_assoc, Segments.opened_append (b.partialBytes ++ bytes)]
      · rw [hlines, List.append_assoc, ← List.append_assoc b.partialBytes,
          linesOf_append (b.partialBytes ++ bytes)]
    | pop =>
      rw [List.flatMap_cons, Arrival.bytes, List.nil_append] at hruns ⊢
      cases hready : b.ready with
      | nil =>
        obtain ⟨popped, b', hfeed, hrest⟩ := ih hb hruns
        rw [hready] at hrest
        refine ⟨popped, b', ?_, hrest⟩
        rw [feed, popLine, hready]
        exact hfeed
      | cons line ready =>
        obtain ⟨popped, b', hfeed, hsound, hheld, hlines⟩ :=
          ih (b := { b with ready }) ⟨hb.no_lf, hb.bounded, hb.scanned_eq⟩ hruns
        refine ⟨readLine line :: popped, b', ?_, hsound, hheld, ?_⟩
        · rw [feed, popLine, hready]
          simp only [hfeed]
          rfl
        · rw [List.cons_append, hlines]
          rfl

/-- **Framing does not depend on how the octets arrive**: with no run beyond the limit, any order
of pushes and pops gives the lines and the fragment of the whole in one piece, which are its
segments at the line ends; and the fragment held after any calls is sound. -/
theorem feed_eq_split {bytes : Bytes} {arrivals : List Arrival} (hruns : ShortRuns bytes)
    (hcut : arrivals.flatMap Arrival.bytes = bytes) :
    (∃ popped b whole, empty.feed arrivals = .ok (popped, b) ∧
      empty.pushBytes bytes = (.ok (), whole) ∧
      popped ++ b.ready.map readLine = whole.ready.map readLine ∧
      b.partialBytes = whole.partialBytes ∧
      whole.ready = (((bytes.splitOn lf).dropLast).map stripCr).filter (· ≠ []) ∧
      some whole.partialBytes = (bytes.splitOn lf).getLast?) ∧
    (∀ line text, readLine line = .ok text ↔ utf8Bytes text.toList = line) ∧
    ∀ calls : List Call, (calls.foldl after empty).Sound := by
  subst hcut
  obtain ⟨popped, b, hfeed, -, hheld, hlines⟩ := feed_eq sound_empty arrivals hruns
  have hall : ShortRuns (empty.partialBytes ++ (arrivals.flatMap Arrival.bytes ++ [])) := by
    rwa [List.append_nil]
  have hle := hall.opened_append.1
  have hpush := pushBytes_eq sound_empty (arrivals.flatMap Arrival.bytes)
  rw [if_pos hle] at hpush
  refine ⟨⟨popped, b, _, hfeed, hpush, hlines, hheld, rfl, ?_⟩,
    fun line text => decodeLine_eq_ok_iff, foldl_after_sound sound_empty⟩
  exact (List.getLast?_eq_some_getLast (List.splitOn_ne_nil _ _)).symm

/-- Two lines, cut inside the first character and inside the first line end. -/
theorem feed_eq_split_cutTwice :
    ∃ popped b whole, empty.feed [.push [0xC3], .pop, .push [0xA9, 13], .push [10, 65], .pop,
        .push [10, 66]] = .ok (popped, b) ∧
      empty.pushBytes [0xC3, 0xA9, 13, 10, 65, 10, 66] = (.ok (), whole) ∧
      popped ++ b.ready.map readLine = whole.ready.map readLine ∧
      whole.ready = [[0xC3, 0xA9], [65]] ∧ b.partialBytes = [66] := by
  obtain ⟨⟨popped, b, whole, hfeed, hpush, hlines, hheld, hready, hwhole⟩, -⟩ :=
    @feed_eq_split [0xC3, 0xA9, 13, 10, 65, 10, 66]
      [.push [0xC3], .pop, .push [0xA9, 13], .push [10, 65], .pop, .push [10, 66]]
      (fun run hrun _ => hrun.length_le.trans (by decide)) rfl
  refine ⟨popped, b, whole, hfeed, hpush, hlines, hready.trans (by decide), ?_⟩
  rw [hheld, ← Option.some_inj, hwhole]
  decide

end LineBuffer

end Lightstreamer.Transport
