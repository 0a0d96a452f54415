import Lightstreamer.Transport.HttpLines

/-!
# What an HTTP transport holds

The server chooses every octet that comes in. Whatever it sends, the octets held for a stream
connection stay below one bound, which the ceilings of a line, of a head and of a read add up to;
and a control response adds at most its own ceiling to the queue. `serve_bounded`.
-/

namespace Lightstreamer.Transport

open Foundations Protocol

/-- How many octets the socket is asked for in one read. -/
def readBufferBytes : ℕ := 16 * 1024

/-- The reads are within the buffer. -/
def Buffered (reads : List SocketRead) : Prop :=
  ∀ bytes, .ok bytes ∈ reads → bytes.length ≤ readBufferBytes

/-- How many octets a list of lines has. -/
def total (lines : List Bytes) : ℕ := (lines.map List.length).sum

@[simp] theorem total_nil : total [] = 0 := rfl

@[simp] theorem total_cons (line : Bytes) (lines : List Bytes) :
    total (line :: lines) = line.length + total lines := by
  rw [total, List.map_cons, List.sum_cons, total]

@[simp] theorem total_append (lines more : List Bytes) :
    total (lines ++ more) = total lines + total more := by
  rw [total, List.map_append, List.sum_append, total, total]

/-! ## Lines hold no more than their octets -/

theorem stripCr_length_le (line : Bytes) : (stripCr line).length ≤ line.length := by
  rw [stripCr]
  split_ifs
  · rw [List.length_dropLast]
    exact Nat.sub_le _ _
  · exact Nat.le_refl _

theorem total_filter_stripCr_le (pieces : List Bytes) :
    total ((pieces.map stripCr).filter (· ≠ [])) ≤ total pieces := by
  induction pieces with
  | nil => exact Nat.le_refl _
  | cons piece pieces ih =>
    have := stripCr_length_le piece
    rw [List.map_cons, List.filter_cons]
    split_ifs <;> simp only [total_cons] <;> omega

theorem total_splitOn_le (bytes : Bytes) : total (bytes.splitOn lf) ≤ bytes.length := by
  induction hlength : bytes.length using Nat.strong_induction_on generalizing bytes with
  | _ n ih =>
    subst hlength
    by_cases hmem : lf ∈ bytes
    · obtain ⟨before, behind, rfl, hbefore⟩ := List.eq_append_cons_of_mem hmem
      have := ih behind.length (by rw [List.length_append, List.length_cons]; omega) behind rfl
      rw [List.splitOn_append_cons_self, List.splitOn_eq_singleton hbefore, List.singleton_append,
        total_cons, List.length_append, List.length_cons]
      omega
    · rw [List.splitOn_eq_singleton hmem, total_cons, total_nil, Nat.add_zero]

theorem total_linesOf_le (bytes : Bytes) :
    total (LineBuffer.linesOf bytes) + (Segments.opened lf bytes).length ≤ bytes.length := by
  have hsplit := total_splitOn_le bytes
  have hclosed := total_filter_stripCr_le (Segments.closed lf bytes)
  rw [← Segments.closed_append_opened, total_append, total_cons, total_nil] at hsplit
  rw [LineBuffer.linesOf]
  omega

theorem total_bodyLines_le (body : Bytes) : total (bodyLines body) ≤ body.length :=
  (total_filter_stripCr_le _).trans (total_splitOn_le body)

/-! ## What the decoder holds -/

/-- A decoder that waits holds at most a framing line. -/
theorem decodeChunks_held {state state' : ChunkState} {rest rest' out out' : Bytes}
    (h : decodeChunks state rest out = .ok (state', rest', out')) (hstate : state' ≠ .done) :
    rest'.length ≤ maxChunkHeaderBytes := by
  have hbound : ∀ {held : Bytes} {state : ChunkState} {out : Bytes},
      (checkHeaderBound held.length).map (fun _ => (state, held, out)) =
        .ok (state', rest', out') → rest'.length ≤ maxChunkHeaderBytes := by
    intro held state out h
    rw [checkHeaderBound] at h
    split_ifs at h with hlong
    · cases h
    · cases h
      exact Nat.not_lt.1 hlong
  fun_induction decodeChunks state rest out with
  | case1 rest out hnone => exact hbound h
  | case2 => cases h
  | case3 rest out eol hsome size hsize ih => exact ih h
  | case4 rest out remaining taken left hleft ih => exact ih h
  | case5 rest out remaining taken left hleft =>
    cases h
    have hall : rest.drop taken = [] := List.drop_of_length_le (by omega)
    rw [hall]
    exact Nat.zero_le _
  | case6 rest out hlen =>
    cases h
    exact hlen.le.trans (by decide)
  | case7 rest out hlen ih => exact ih h
  | case8 rest out hnone => exact hbound h
  | case9 rest out hsome =>
    cases h
    exact absurd rfl hstate
  | case10 rest out eol hsome heol ih => exact ih h
  | case11 rest out =>
    cases h
    exact absurd rfl hstate

theorem decodeBody_held {framing : BodyFraming} {pending : Bytes} {d : Decoded}
    (h : decodeBody framing pending = .ok d) (hcomplete : d.complete = false) :
    d.pending.length ≤ maxChunkHeaderBytes := by
  cases framing with
  | length remaining =>
    cases h
    rw [decide_eq_false_iff_not] at hcomplete
    have hall : pending.drop (min remaining pending.length) = [] :=
      List.drop_of_length_le (by omega)
    simp only [hall, List.length_nil, Nat.zero_le]
  | untilClose =>
    cases h
    exact Nat.zero_le _
  | chunked state =>
    cases hrun : decodeChunks state pending [] with
    | error e => rw [decodeBody, hrun] at h; cases h
    | ok r =>
      rw [decodeBody, hrun] at h
      cases h
      exact decodeChunks_held hrun (decide_eq_false_iff_not.1 hcomplete)

/-- The octets that a step of the body gives. -/
def BodyRead.bytes : BodyRead → Bytes
  | progress bytes | ended bytes => bytes

namespace StreamConn

variable {c c' : StreamConn} {read : BodyRead}

theorem pending_of_wait (h : c.decodeHeld = .ok (none, c')) :
    c'.pending.length ≤ maxChunkHeaderBytes := by
  cases hd : decodeBody c.framing c.pending with
  | error e => rw [decodeHeld, hd] at h; cases h
  | ok d =>
    rw [decodeHeld_of_decodeBody hd] at h
    simp only [Except.ok.injEq, Prod.mk.injEq] at h
    obtain ⟨hread, rfl⟩ := h
    refine decodeBody_held hd ?_
    split_ifs at hread with hcomplete
    · exact Bool.not_eq_true _ ▸ hcomplete

theorem pending_of_held (h : c.decodeHeld = .ok (some read, c')) :
    c'.pending.length + read.bytes.length ≤ c.pending.length := by
  cases hd : decodeBody c.framing c.pending with
  | error e => rw [decodeHeld, hd] at h; cases h
  | ok d =>
    have hlen := decodeBody_length hd
    rw [decodeHeld_of_decodeBody hd] at h
    simp only [Except.ok.injEq, Prod.mk.injEq] at h
    obtain ⟨hread, rfl⟩ := h
    split_ifs at hread <;> cases hread <;> exact hlen

theorem pending_of_read {bytes : Bytes} (h : c.onRead (.ok bytes) = .ok (read, c')) :
    c'.pending.length + read.bytes.length ≤ c.pending.length + bytes.length := by
  cases bytes with
  | nil =>
    rw [onRead] at h
    cases hclose : c.onClose with
    | error e => rw [hclose] at h; cases h
    | ok read' =>
      rw [hclose] at h
      cases h
      have hnone : read.bytes = [] := by
        unfold onClose at hclose
        split at hclose <;> cases hclose <;> rfl
      rw [hnone]
  | cons byte bytes =>
    rw [onRead] at h
    cases hd : decodeBody c.framing (c.pending ++ byte :: bytes) with
    | error e => rw [hd] at h; cases h
    | ok d =>
      have hlen := decodeBody_length hd
      rw [hd] at h
      cases h
      rw [List.length_append] at hlen
      by_cases hcomplete : d.complete = true
      · simpa only [hcomplete, if_true, BodyRead.bytes] using hlen
      · simpa only [hcomplete, Bool.false_eq_true, if_false, BodyRead.bytes] using hlen

end StreamConn

/-! ## What a stream connection holds -/

/-- The most octets that are held for a stream connection. -/
def maxHeldBytes : ℕ := maxLineBytes + maxHeadBytes + readBufferBytes

namespace Inbound

/-- How many octets are held: those not decoded yet, those of the last line, and the lines. -/
def octets (i : Inbound) : ℕ :=
  (i.stream.map fun c => c.pending.length).getD 0 + i.lines.partialBytes.length +
    total i.lines.ready

/-- What is held is within the bound. -/
structure Bounded (i : Inbound) : Prop where
  sound : i.lines.Sound
  octets_le : i.octets ≤ maxHeldBytes
  final_le : ∀ text, i.pendingFinal = some (.ok text) →
    (utf8Bytes text.toList).length ≤ maxLineBytes

variable {i i' : Inbound} {c : StreamConn} {read : BodyRead}

theorem bounded_reset : Bounded reset := ⟨LineBuffer.sound_empty, Nat.zero_le _, by simp [reset]⟩

/-- The lines that a step of the body makes hold no more than its octets. -/
theorem absorb_octets (hsound : i.lines.Sound) (hready : i.lines.ready = [])
    (hfinal : i.pendingFinal = none) (h : i.absorb c read = .ok i') :
    i'.lines.Sound ∧
      i'.octets ≤ c.pending.length + i.lines.partialBytes.length + read.bytes.length ∧
      ∀ text, i'.pendingFinal = some (.ok text) →
        (utf8Bytes text.toList).length ≤ maxLineBytes := by
  have hpush := LineBuffer.pushBytes_eq hsound read.bytes
  have htotal := total_linesOf_le (i.lines.partialBytes ++ read.bytes)
  rw [List.length_append] at htotal
  rw [hready, List.nil_append] at hpush
  by_cases hle : (Segments.opened lf (i.lines.partialBytes ++ read.bytes)).length ≤ maxLineBytes
  · rw [if_pos hle] at hpush
    have hsound' := LineBuffer.pushBytes_sound hsound read.bytes
    rw [hpush] at hsound'
    cases read with
    | progress bytes =>
      simp only [BodyRead.bytes] at hpush hsound' htotal ⊢
      simp only [absorb, hpush] at h
      cases h
      refine ⟨hsound', ?_, fun text htext => ?_⟩
      · simp only [octets, Option.map_some, Option.getD_some]
        omega
      · rw [hfinal] at htext
        cases htext
    | ended bytes =>
      simp only [BodyRead.bytes] at hpush hsound' htotal hle ⊢
      simp only [absorb, hpush] at h
      cases h
      refine ⟨⟨List.not_mem_nil, Nat.zero_le _, rfl⟩, ?_, fun text htext => ?_⟩
      · simp only [octets, LineBuffer.flushPartial, Option.map_none, Option.getD_none,
          List.length_nil]
        omega
      · simp only [LineBuffer.flushPartial] at htext
        split_ifs at htext
        rw [Option.some.injEq, LineBuffer.readLine, decodeLine_eq_ok_iff] at htext
        rw [htext]
        exact (stripCr_length_le _).trans hle
  · rw [if_neg hle] at hpush
    cases read <;> simp only [BodyRead.bytes] at hpush <;>
      simp only [absorb, hpush] at h <;> cases h

theorem popLine_bounded {line : Line} {lines : LineBuffer} (h : i.Bounded)
    (hpop : i.lines.popLine = (some line, lines)) : Bounded { i with lines } := by
  unfold LineBuffer.popLine at hpop
  split at hpop
  · cases hpop
  · next bytes ready hready =>
    cases hpop
    refine ⟨⟨h.sound.no_lf, h.sound.bounded, h.sound.scanned_eq⟩, ?_, h.final_le⟩
    have hle := h.octets_le
    simp only [octets, hready, total_cons] at hle ⊢
    omega

/-- **One call of `next_line` stays within the bound**, whatever the reads bring. -/
theorem next_bounded (h : i.Bounded) {reads : List SocketRead} (hreads : Buffered reads) :
    (i.next reads).2.1.Bounded ∧ (i.next reads).2.2 <:+ reads := by
  fun_induction next i reads with
  | case1 i reads line lines hpop => exact ⟨popLine_bounded h hpop, List.suffix_refl _⟩
  | case2 i reads lines hpop line hfinal =>
    exact ⟨⟨h.sound, h.octets_le, by simp⟩, List.suffix_refl _⟩
  | case3 i reads lines hpop hfinal hstream => exact ⟨h, List.suffix_refl _⟩
  | case4 i reads lines hpop hfinal c hstream e hheld => exact ⟨bounded_reset, List.suffix_refl _⟩
  | case5 => exact ⟨bounded_reset, List.suffix_refl _⟩
  | case6 i reads lines hpop hfinal c hstream read c' hheld i' habsorb ih =>
    have hready := ready_of_popLine hpop
    obtain ⟨hsound, hoctets, hlast⟩ := absorb_octets h.sound hready hfinal habsorb
    have hgiven := StreamConn.pending_of_held hheld
    have hle := h.octets_le
    simp only [octets, hstream, Option.map_some, Option.getD_some] at hle
    exact ih ⟨hsound, by omega, hlast⟩ hreads
  | case7 i lines hpop hfinal c hstream c' hheld =>
    have hwait := StreamConn.pending_of_wait hheld
    refine ⟨⟨h.sound, ?_, h.final_le⟩, List.suffix_refl _⟩
    have hbounded := h.sound.bounded
    simp only [octets, ready_of_popLine hpop, Option.map_some, Option.getD_some, total_nil,
      maxHeldBytes]
    simp only [maxChunkHeaderBytes, maxHeadBytes] at hwait ⊢
    omega
  | case8 => exact ⟨bounded_reset, List.suffix_cons _ _⟩
  | case9 => exact ⟨bounded_reset, List.suffix_cons _ _⟩
  | case10 i lines hpop hfinal c hstream c' hheld answer reads read c'' hread i' habsorb ih =>
    obtain ⟨hsound, hoctets, hlast⟩ :=
      absorb_octets h.sound (ready_of_popLine hpop) hfinal habsorb
    have hwait := StreamConn.pending_of_wait hheld
    have hbounded := h.sound.bounded
    cases answer with
    | error reason => cases hread
    | ok bytes =>
      have hgiven := StreamConn.pending_of_read hread
      have hsize := hreads bytes List.mem_cons_self
      have hle : i'.octets ≤ maxHeldBytes := by
        simp only [maxHeldBytes]
        simp only [maxChunkHeaderBytes, maxHeadBytes] at hwait ⊢
        omega
      obtain ⟨hnext, hrest⟩ := ih ⟨hsound, hle, hlast⟩ fun bytes hb =>
        hreads bytes (List.mem_cons_of_mem _ hb)
      exact ⟨hnext, hrest.trans (List.suffix_cons _ _)⟩

end Inbound

/-! ## What a head and a control response hold -/

theorem Buffered.mono {reads rest : List SocketRead} (h : Buffered reads) (hrest : rest <:+ reads) :
    Buffered rest := fun bytes hbytes => h bytes (hrest.subset hbytes)

theorem parseHead_leftover {parse : HeadParser} {buffer : Bytes} {head : Head}
    (h : parseHead parse buffer = .ok (some head)) : head.leftover.length ≤ buffer.length := by
  unfold parseHead at h
  cases hparse : parse buffer with
  | error e => rw [hparse] at h; cases h
  | ok parsed =>
    cases parsed with
    | none => rw [hparse] at h; cases h
    | some parsed =>
      rw [hparse] at h
      cases hcode : parsed.code with
      | none => simp only [hcode] at h; cases h
      | some code =>
        simp only [hcode] at h
        cases hframing : framingFromHeaders parsed.headers with
        | error e => rw [hframing] at h; cases h
        | ok framing =>
          rw [hframing] at h
          cases h
          rw [List.length_drop]
          exact Nat.sub_le _ _

theorem readHead_suffix (parse : HeadParser) (buffer : Bytes) (reads : List SocketRead) :
    (readHead parse buffer reads).2 <:+ reads := by
  fun_induction readHead parse buffer reads with
  | case1 | case2 | case3 | case4 => exact List.suffix_refl _
  | case5 | case6 => exact List.suffix_cons _ _
  | case7 buffer hparse hheld byte read reads ih => exact ih.trans (List.suffix_cons _ _)

/-- What comes behind a head in its last read. -/
theorem readHead_leftover {parse : HeadParser} {buffer : Bytes} {head : Head}
    {reads : List SocketRead} (h : (readHead parse buffer reads).1 = some (.ok head))
    (hbuffer : buffer.length ≤ maxHeadBytes + readBufferBytes) (hreads : Buffered reads) :
    head.leftover.length ≤ maxHeadBytes + readBufferBytes := by
  fun_induction readHead parse buffer reads with
  | case1 => cases h
  | case2 buffer reads head' hparse =>
    cases h
    exact (parseHead_leftover hparse).trans hbuffer
  | case3 | case4 | case5 | case6 => cases h
  | case7 buffer hparse hheld byte read reads ih =>
    have hsize := hreads (byte :: read) List.mem_cons_self
    exact ih h (by rw [List.length_append]; omega) fun bytes hb =>
      hreads bytes (List.mem_cons_of_mem _ hb)

/-- A body that has been read is within its limit. -/
theorem readBody_le {name : String} {framing : BodyFraming} {pending body got : Bytes}
    {reads : List SocketRead} (h : readBody name framing pending body reads = some (.ok got)) :
    got.length ≤ maxControlBodyBytes := by
  fun_induction readBody name framing pending body reads with
  | case1 | case2 => cases h
  | case3 framing pending body reads d hd body' hlong hcomplete =>
    rw [Option.some.injEq, Except.ok.injEq] at h
    exact h ▸ Nat.not_lt.1 hlong
  | case4 | case5 => cases h
  | case6 framing pending body d hd body' hlong hcomplete hout reads =>
    rw [Option.some.injEq, Except.ok.injEq] at h
    exact h ▸ Nat.not_lt.1 hlong
  | case7 framing pending body d hd body' hlong hcomplete hout byte read reads ih => exact ih h
  | case8 framing pending body reads d hd body' hlong hcomplete hout ih => exact ih h

/-- How many octets a list of texts has. -/
def textTotal (lines : List String) : ℕ := total (lines.map fun line => utf8Bytes line.toList)

/-- The lines of one control response are within its limit. -/
theorem textTotal_of_controlRoundTrip {name : String} {head : Except TransportError Head}
    {reads : List SocketRead} {lines : List String}
    (h : controlRoundTrip name head reads = some (.ok lines)) :
    textTotal lines ≤ maxControlBodyBytes := by
  cases head with
  | error e => cases h
  | ok head =>
    rw [controlRoundTrip] at h
    split_ifs at h with hcode
    · obtain ⟨result, hbody, hlines⟩ := Option.map_eq_some_iff.1 h
      cases result with
      | error e => cases hlines
      | ok body =>
        dsimp only at hlines
        cases hsplit : splitBodyLines body with
        | error e => rw [hsplit] at hlines; cases hlines
        | ok lines' =>
          rw [hsplit] at hlines
          cases hlines
          rw [textTotal, splitBodyLines_eq_ok_iff.1 hsplit]
          exact (total_bodyLines_le body).trans (readBody_le hbody)
    · cases h

/-! ## What the transport holds -/

namespace HttpTransport

variable {t : HttpTransport}

/-- Whether a command sends a control request. -/
def Command.sends : Command → Bool
  | .sendControl .. => true
  | _ => false

theorem respond_textTotal (t : HttpTransport) (request : EncodedRequest)
    (head : Except TransportError Head) (reads : List SocketRead) :
    textTotal ((t.respond request head reads).toOption.getD []) ≤ maxControlBodyBytes := by
  rw [respond]
  cases t.endpoint with
  | error e => exact Nat.zero_le _
  | ok endpoint =>
    cases hround : controlRoundTrip request.name head reads with
    | none => exact Nat.zero_le _
    | some result =>
      cases result with
      | error e => exact Nat.zero_le _
      | ok lines => exact textTotal_of_controlRoundTrip hround

theorem nextLine_bounded (h : t.Bounded) {reads : List SocketRead} (hreads : Buffered reads) :
    (t.nextLine reads).2.1.Bounded ∧ (t.nextLine reads).2.2 <:+ reads ∧
      textTotal (t.nextLine reads).2.1.controlLines ≤ textTotal t.controlLines := by
  obtain ⟨inbound, mode, address, link, lines⟩ := t
  cases lines with
  | nil =>
    obtain ⟨hnext, hrest⟩ := Inbound.next_bounded h hreads
    exact ⟨hnext, hrest, Nat.le_refl _⟩
  | cons line lines =>
    refine ⟨h, List.suffix_refl _, ?_⟩
    show textTotal lines ≤ textTotal (line :: lines)
    rw [textTotal, textTotal, List.map_cons, total_cons]
    exact Nat.le_add_left _ _

/-- **Any use of a connection stays within the bound.** -/
theorem serve_of_bounded (h : t.Bounded) {reads : List SocketRead} (hreads : Buffered reads)
    (commands : List Command) :
    (t.serve reads commands).2.1.Bounded ∧
      textTotal (t.serve reads commands).2.1.controlLines ≤
        textTotal t.controlLines + commands.countP Command.sends * maxControlBodyBytes := by
  induction commands generalizing t reads with
  | nil => exact ⟨h, Nat.le_add_right _ _⟩
  | cons command commands ih =>
    cases command with
    | nextLine n =>
      obtain ⟨hnext, hrest, htotal⟩ := @nextLine_bounded t h (reads.take n) fun bytes hb =>
        hreads bytes (List.mem_of_mem_take hb)
      have hleft : Buffered ((t.nextLine (reads.take n)).2.2 ++ reads.drop n) := fun bytes hb => by
        rw [List.mem_append] at hb
        rcases hb with hb | hb
        · exact hreads bytes (List.mem_of_mem_take (hrest.subset hb))
        · exact hreads bytes (List.mem_of_mem_drop hb)
      obtain ⟨hbounded, hqueue⟩ := ih hnext hleft
      refine ⟨hbounded, ?_⟩
      rw [List.countP_cons_of_neg (by simp [Command.sends])]
      exact hqueue.trans (Nat.add_le_add_right htotal _)
    | sendControl request head answer =>
      have hsend : (t.sendControl request head answer).2.toInbound = t.toInbound ∧
          textTotal (t.sendControl request head answer).2.controlLines ≤
            textTotal t.controlLines + maxControlBodyBytes := by
        have htotal := respond_textTotal t request head answer
        rw [sendControl]
        cases hrespond : t.respond request head answer with
        | error e => exact ⟨rfl, Nat.le_add_right _ _⟩
        | ok lines =>
          rw [hrespond] at htotal
          refine ⟨rfl, ?_⟩
          simp only [textTotal, List.map_append, total_append]
          exact Nat.add_le_add_left htotal _
      obtain ⟨hbounded, hqueue⟩ := ih (hsend.1 ▸ h) hreads
      refine ⟨hbounded, ?_⟩
      rw [List.countP_cons_of_pos rfl, Nat.succ_mul]
      exact hqueue.trans (by have := hsend.2; omega)
    | setControlLink host =>
      obtain ⟨hbounded, hqueue⟩ := @ih (t.setControlLink host) h reads hreads
      refine ⟨hbounded, ?_⟩
      rwa [List.countP_cons_of_neg (by simp [Command.sends])]

/-- Opening a stream connection stays within the bound. -/
theorem openStream_bounded (h : t.Bounded) (request : Session.StreamOpen)
    {answer : Option (Except TransportError Head)}
    (hanswer : ∀ head, answer = some (.ok head) →
      head.leftover.length ≤ maxHeadBytes + readBufferBytes) :
    (t.openStream request answer).2.Bounded ∧
      (t.openStream request answer).2.controlLines = t.controlLines := by
  unfold openStream
  split
  · exact ⟨h, rfl⟩
  · exact ⟨h, rfl⟩
  · cases answer with
    | none => exact ⟨Inbound.bounded_reset, rfl⟩
    | some answer =>
      cases answer with
      | error e => exact ⟨Inbound.bounded_reset, rfl⟩
      | ok head =>
        dsimp only
        split_ifs with hcode
        · refine ⟨⟨LineBuffer.sound_empty, ?_, by simp [Inbound.reset]⟩, rfl⟩
          have hle := hanswer head rfl
          have hempty : LineBuffer.empty.partialBytes.length = 0 ∧
              total LineBuffer.empty.ready = 0 := ⟨rfl, rfl⟩
          simp only [Inbound.octets, Inbound.reset, Option.map_some, Option.getD_some, hempty,
            maxHeldBytes]
          omega
        · exact ⟨Inbound.bounded_reset, rfl⟩

/-- A stream connection in the life of a transport: the request that opens it, the reads of its
socket, and what is done while it is open. -/
structure Connection where
  request : Session.StreamOpen
  reads : List SocketRead
  commands : List Command

/-- The transport after one connection after the other; each open ends the one before. -/
def live (parse : HeadParser) (t : HttpTransport) : List Connection → HttpTransport
  | [] => t
  | connection :: connections =>
    let opened := t.openWith parse connection.request connection.reads
    (opened.1.2.serve opened.2 connection.commands).2.1.live parse connections

/-- One connection, from its open on, stays within the bound. -/
theorem openWith_bounded (h : t.Bounded) (parse : HeadParser) (request : Session.StreamOpen)
    {reads : List SocketRead} (hreads : Buffered reads) (commands : List Command) :
    let opened := t.openWith parse request reads
    (opened.1.2.serve opened.2 commands).2.1.Bounded ∧
      textTotal (opened.1.2.serve opened.2 commands).2.1.controlLines ≤
        textTotal t.controlLines + commands.countP Command.sends * maxControlBodyBytes := by
  obtain ⟨hbounded, hlines⟩ := openStream_bounded h request fun head hhead =>
    @readHead_leftover parse [] head reads hhead (Nat.zero_le _) hreads
  have hserve := serve_of_bounded hbounded (hreads.mono (readHead_suffix parse [] reads)) commands
  rw [hlines] at hserve
  exact hserve

theorem live_of_bounded (h : t.Bounded) (parse : HeadParser) {connections : List Connection}
    (hreads : ∀ connection ∈ connections, Buffered connection.reads) :
    (t.live parse connections).Bounded ∧
      textTotal (t.live parse connections).controlLines ≤ textTotal t.controlLines +
        (connections.flatMap Connection.commands).countP Command.sends * maxControlBodyBytes := by
  induction connections generalizing t with
  | nil => exact ⟨h, Nat.le_add_right _ _⟩
  | cons connection connections ih =>
    obtain ⟨hopened, hqueue⟩ := openWith_bounded h parse connection.request
      (hreads connection List.mem_cons_self) connection.commands
    obtain ⟨hlive, hlater⟩ := ih hopened fun c hc => hreads c (List.mem_cons_of_mem _ hc)
    refine ⟨hlive, hlater.trans ?_⟩
    rw [List.flatMap_cons, List.countP_append, Nat.add_mul]
    omega

/-- **What a server can make the transport hold.** Over any number of connections, whatever octets
come on them, whatever the calls and however many of them are cancelled: the octets held for the
stream are within one bound, the line that ends a body is within that of a line, and the queue holds
at most one limited response for each control request that was sent. -/
theorem live_bounded {address : List Char} {mode : HttpMode} (hnew : tryNew address mode = .ok t)
    (parse : HeadParser) {connections : List Connection}
    (hreads : ∀ connection ∈ connections, Buffered connection.reads) :
    (t.live parse connections).octets ≤ maxHeldBytes ∧
      (∀ text, (t.live parse connections).pendingFinal = some (.ok text) →
        (utf8Bytes text.toList).length ≤ maxLineBytes) ∧
      textTotal (t.live parse connections).controlLines ≤
        (connections.flatMap Connection.commands).countP Command.sends * maxControlBodyBytes := by
  have ht : t.toInbound = .reset ∧ t.controlLines = [] := by
    rw [tryNew] at hnew
    cases hresolve : resolve address none with
    | error e => rw [hresolve] at hnew; cases hnew
    | ok endpoint =>
      rw [hresolve] at hnew
      cases hnew
      exact ⟨rfl, rfl⟩
  obtain ⟨hlive, hqueue⟩ :=
    live_of_bounded (t := t) (ht.1 ▸ Inbound.bounded_reset) parse hreads
  rw [ht.2] at hqueue
  exact ⟨hlive.octets_le, hlive.final_le, by simpa [textTotal] using hqueue⟩

/-- A server that sends a line without an end, on two connections. -/
theorem live_bounded_endless :
    let connections := List.replicate 2 (Connection.mk
      (.bind ⟨some "S1", none, none, .polling 0 none, none⟩) (List.replicate 9 (.ok [10, 65, 65]))
      (List.replicate 9 (.nextLine 1)))
    let t := live (parserOf [10] ⟨1, some 200, []⟩)
      ⟨.reset, .polling, "https://h".toList, none, []⟩ connections
    t.octets ≤ maxHeldBytes ∧
      (∀ text, t.pendingFinal = some (.ok text) →
        (utf8Bytes text.toList).length ≤ maxLineBytes) ∧
      textTotal t.controlLines ≤
        (connections.flatMap Connection.commands).countP Command.sends * maxControlBodyBytes :=
  @live_bounded _ "https://h".toList .polling rfl _ _ fun connection hconnection bytes hbytes => by
    rw [List.mem_replicate] at hconnection
    rw [hconnection.2, List.mem_replicate, Except.ok.injEq] at hbytes
    rw [hbytes.2]
    decide

end HttpTransport

end Lightstreamer.Transport
