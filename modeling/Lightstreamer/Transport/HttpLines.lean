import Lightstreamer.Foundations.Pulling
import Lightstreamer.Transport.Head
import Lightstreamer.Transport.Splitting

/-!
# The lines of an HTTP stream connection

`StreamConn.Gives` is the meaning of a stream connection: the octets of the body that its reads
bring, and how it ends. The calls of `next_line` give the lines of these octets, one after the other
and then the end, however many of the calls are cancelled while they wait (`next_delivers`). For a
body that a server framed by its length or in chunks, `gives_whole` and `gives_cut` say what the
octets and the end are, wherever the reads cut it and wherever the connection is lost.
-/

namespace Lightstreamer.Transport

open Foundations Protocol Marked

/-! ## What a connection gives -/

/-- The reads of a connection bring the octets of `body` and then its end: a clean one, or a
failure. -/
inductive StreamConn.Gives : StreamConn → List SocketRead → Bytes → Option TransportError → Prop
  | ended {c c' : StreamConn} {out : Bytes} (reads : List SocketRead)
      (held : c.decodeHeld = .ok (some (.ended out), c')) : Gives c reads out none
  | progress {c c' : StreamConn} {out body : Bytes} {reads : List SocketRead}
      {failure : Option TransportError}
      (held : c.decodeHeld = .ok (some (.progress out), c')) (rest : Gives c' reads body failure) :
      Gives c reads (out ++ body) failure
  | failed {c : StreamConn} {e : TransportError} (reads : List SocketRead)
      (held : c.decodeHeld = .error e) : Gives c reads [] (some e)
  | readEnded {c c' c'' : StreamConn} {read : SocketRead} {out : Bytes} (reads : List SocketRead)
      (held : c.decodeHeld = .ok (none, c')) (hread : c'.onRead read = .ok (.ended out, c'')) :
      Gives c (read :: reads) out none
  | readProgress {c c' c'' : StreamConn} {read : SocketRead} {out body : Bytes}
      {reads : List SocketRead} {failure : Option TransportError}
      (held : c.decodeHeld = .ok (none, c')) (hread : c'.onRead read = .ok (.progress out, c''))
      (rest : Gives c'' reads body failure) : Gives c (read :: reads) (out ++ body) failure
  | readFailed {c c' : StreamConn} {read : SocketRead} {e : TransportError}
      (reads : List SocketRead) (held : c.decodeHeld = .ok (none, c'))
      (hread : c'.onRead read = .error e) : Gives c (read :: reads) [] (some e)

/-- The lines of the octets that come in: those their line ends close, and, if the end is clean,
the one that it closes. -/
def linesDue (bytes : Bytes) : Option TransportError → List Line
  | none => (bodyLines bytes).map LineBuffer.readLine
  | some e => (LineBuffer.linesOf bytes).map LineBuffer.readLine ++ [.error e]

theorem linesDue_append (bytes more : Bytes) (failure : Option TransportError) :
    linesDue (bytes ++ more) failure = (LineBuffer.linesOf bytes).map LineBuffer.readLine ++
      linesDue (Segments.opened lf bytes ++ more) failure := by
  cases failure with
  | none =>
    simp only [linesDue]
    rw [bodyLines_eq (bytes ++ more), bodyLines_eq (Segments.opened lf bytes ++ more),
      LineBuffer.linesOf_append, Segments.opened_append, List.append_assoc, List.map_append]
  | some e =>
    simp only [linesDue]
    rw [LineBuffer.linesOf_append, List.map_append, List.append_assoc]

/-- A decoder that stops has decoded what it can. -/
theorem decodeChunks_idem {state state' : ChunkState} {rest rest' out out' : Bytes}
    (h : decodeChunks state rest out = .ok (state', rest', out')) :
    decodeChunks state' rest' [] = .ok (state', rest', []) := by
  have hbound : ∀ {held : ℕ} {r : ChunkState × Bytes × Bytes},
      (checkHeaderBound held).map (fun _ => r) = .ok (state', rest', out') →
      r = (state', rest', out') ∧ checkHeaderBound held = .ok () := fun {held r} h => by
    cases hb : checkHeaderBound held with
    | error e => rw [hb] at h; cases h
    | ok u => rw [hb] at h; exact ⟨Except.ok.inj h, rfl⟩
  fun_induction decodeChunks state rest out with
  | case1 rest out hnone =>
    obtain ⟨hr, hb⟩ := hbound h
    cases hr
    rw [decodeChunks, hnone, hb]
    rfl
  | case2 => cases h
  | case3 rest out eol hsome size hsize ih => exact ih h
  | case4 rest out remaining taken left hleft ih => exact ih h
  | case5 rest out remaining taken left hleft =>
    cases h
    have hall : rest.drop taken = [] := List.drop_of_length_le (by omega)
    rw [hall, decodeChunks]
    simp [hleft]
  | case6 rest out hlen =>
    cases h
    rw [decodeChunks, if_pos hlen]
  | case7 rest out hlen ih => exact ih h
  | case8 rest out hnone =>
    obtain ⟨hr, hb⟩ := hbound h
    cases hr
    rw [decodeChunks, hnone, hb]
    rfl
  | case9 rest out hsome =>
    cases h
    rw [decodeChunks]
  | case10 rest out eol hsome heol ih => exact ih h
  | case11 =>
    cases h
    rw [decodeChunks]

/-- A body that is not complete has given what its octets give. -/
theorem decodeBody_idem {framing : BodyFraming} {pending : Bytes} {d : Decoded}
    (h : decodeBody framing pending = .ok d) (hcomplete : d.complete = false) :
    decodeBody d.framing d.pending = .ok ⟨false, d.framing, d.pending, []⟩ := by
  cases framing with
  | length remaining =>
    cases h
    rw [decide_eq_false_iff_not] at hcomplete
    have hall : pending.drop (min remaining pending.length) = [] :=
      List.drop_of_length_le (by omega)
    simp only [hall, decodeBody, List.length_nil, Nat.min_zero, Nat.sub_zero, hcomplete,
      decide_false, List.drop_nil, List.take_nil]
  | untilClose =>
    cases h
    rfl
  | chunked state =>
    cases hrun : decodeChunks state pending [] with
    | error e => rw [decodeBody, hrun] at h; cases h
    | ok r =>
      obtain ⟨state', rest, out⟩ := r
      rw [decodeBody, hrun] at h
      cases h
      have hstate : decide (state' = ChunkState.done) = false := hcomplete
      dsimp only
      rw [decodeBody, decodeChunks_idem hrun, ← hstate]
      rfl

namespace StreamConn

variable {c c' : StreamConn}

/-- The connection has given what it holds. -/
def Settled (c : StreamConn) : Prop := c.decodeHeld = .ok (none, c)

theorem settled_of_decodeBody {framing : BodyFraming} {pending : Bytes} {d : Decoded}
    (h : decodeBody framing pending = .ok d) (hcomplete : d.complete = false) :
    Settled ⟨d.framing, d.pending⟩ := by
  rw [Settled, decodeHeld, decodeBody_idem h hcomplete]
  rfl

/-- What the octets held give. -/
theorem decodeHeld_of_decodeBody {d : Decoded} (h : decodeBody c.framing c.pending = .ok d) :
    c.decodeHeld = .ok (if d.complete then some (.ended d.out) else if d.out = [] then none
      else some (.progress d.out), ⟨d.framing, d.pending⟩) := by
  rw [decodeHeld, h]
  rfl

/-- A connection that waits for a read goes on waiting for it. -/
theorem settled_of_wait (h : c.decodeHeld = .ok (none, c')) : c'.Settled := by
  cases hd : decodeBody c.framing c.pending with
  | error e => rw [decodeHeld, hd] at h; cases h
  | ok d =>
    rw [decodeHeld_of_decodeBody hd] at h
    simp only [Except.ok.injEq, Prod.mk.injEq] at h
    obtain ⟨hread, rfl⟩ := h
    refine settled_of_decodeBody hd ?_
    split_ifs at hread with hcomplete
    · exact Bool.not_eq_true _ ▸ hcomplete

variable {reads : List SocketRead} {body : Bytes} {failure : Option TransportError}

/-- What a connection gives does not change while it waits. -/
theorem Gives.of_wait (h : c.Gives reads body failure) (hheld : c.decodeHeld = .ok (none, c')) :
    c'.Gives reads body failure ∧ reads ≠ [] := by
  have hidem : c'.decodeHeld = .ok (none, c') := settled_of_wait hheld
  cases h with
  | ended _ h | progress h | failed _ h => rw [hheld] at h; cases h
  | readEnded _ h hread =>
    rw [hheld] at h
    cases h
    exact ⟨.readEnded _ hidem hread, List.cons_ne_nil _ _⟩
  | readProgress h hread hrest =>
    rw [hheld] at h
    cases h
    exact ⟨.readProgress hidem hread hrest, List.cons_ne_nil _ _⟩
  | readFailed _ h hread =>
    rw [hheld] at h
    cases h
    exact ⟨.readFailed _ hidem hread, List.cons_ne_nil _ _⟩

/-- What a connection gives is what it gives when it waits. -/
theorem Gives.of_settled (h : c'.Gives reads body failure) (hheld : c.decodeHeld = .ok (none, c')) :
    c.Gives reads body failure := by
  have hidem : c'.decodeHeld = .ok (none, c') := settled_of_wait hheld
  cases h with
  | ended _ h | progress h | failed _ h => rw [hidem] at h; cases h
  | readEnded _ h hread =>
    rw [hidem] at h
    cases h
    exact .readEnded _ hheld hread
  | readProgress h hread hrest =>
    rw [hidem] at h
    cases h
    exact .readProgress hheld hread hrest
  | readFailed _ h hread =>
    rw [hidem] at h
    cases h
    exact .readFailed _ hheld hread

/-- The connection has given `read`, and gives the rest. -/
inductive GivesAfter (c : StreamConn) (reads : List SocketRead) :
    BodyRead → Bytes → Option TransportError → Prop
  | ended (out : Bytes) : GivesAfter c reads (.ended out) out none
  | progress {out body : Bytes} {failure : Option TransportError}
      (rest : c.Gives reads body failure) : GivesAfter c reads (.progress out) (out ++ body) failure

theorem Gives.of_held {read : BodyRead} (h : c.Gives reads body failure)
    (hheld : c.decodeHeld = .ok (some read, c')) : c'.GivesAfter reads read body failure := by
  cases h with
  | ended _ h =>
    rw [hheld] at h
    cases h
    exact .ended _
  | progress h hrest =>
    rw [hheld] at h
    cases h
    exact .progress hrest
  | failed _ h | readEnded _ h | readProgress h | readFailed _ h => rw [hheld] at h; cases h

theorem Gives.of_read {c'' : StreamConn} {answer : SocketRead} {read : BodyRead}
    (h : c.Gives (answer :: reads) body failure) (hheld : c.decodeHeld = .ok (none, c'))
    (hread : c'.onRead answer = .ok (read, c'')) : c''.GivesAfter reads read body failure := by
  cases h with
  | ended _ h | progress h | failed _ h => rw [hheld] at h; cases h
  | readEnded _ h hgiven =>
    rw [hheld] at h
    cases h
    rw [hread] at hgiven
    cases hgiven
    exact .ended _
  | readProgress h hgiven hrest =>
    rw [hheld] at h
    cases h
    rw [hread] at hgiven
    cases hgiven
    exact .progress hrest
  | readFailed _ h hgiven =>
    rw [hheld] at h
    cases h
    rw [hread] at hgiven
    cases hgiven

theorem Gives.of_heldError {e : TransportError} (h : c.Gives reads body failure)
    (hheld : c.decodeHeld = .error e) : body = [] ∧ failure = some e := by
  cases h with
  | failed _ h =>
    rw [hheld] at h
    cases h
    exact ⟨rfl, rfl⟩
  | ended _ h | progress h | readEnded _ h | readProgress h | readFailed _ h =>
    rw [hheld] at h
    cases h

theorem Gives.of_readError {answer : SocketRead} {e : TransportError}
    (h : c.Gives (answer :: reads) body failure) (hheld : c.decodeHeld = .ok (none, c'))
    (hread : c'.onRead answer = .error e) : body = [] ∧ failure = some e := by
  cases h with
  | ended _ h | progress h | failed _ h => rw [hheld] at h; cases h
  | readEnded _ h hgiven | readProgress h hgiven =>
    rw [hheld] at h
    cases h
    rw [hread] at hgiven
    cases hgiven
  | readFailed _ h hgiven =>
    rw [hheld] at h
    cases h
    rw [hread] at hgiven
    cases hgiven
    exact ⟨rfl, rfl⟩

/-! ### Framed bodies -/

/-- What the loss of the connection inside a framed body is reported as. -/
def lossReason (framing : BodyFraming) : SocketRead → String
  | .error reason => reason
  | .ok _ =>
    match framing with
    | .chunked _ => "chunked stream connection closed mid-body"
    | _ => "stream connection closed before its Content-Length"

theorem lossReason_of_decodeBody {framing : BodyFraming} {pending : Bytes} {d : Decoded}
    (h : decodeBody framing pending = .ok d) : lossReason d.framing = lossReason framing := by
  cases framing with
  | length | untilClose =>
    cases h
    rfl
  | chunked state =>
    cases hrun : decodeChunks state pending [] with
    | error e => rw [decodeBody, hrun] at h; cases h
    | ok r =>
      rw [decodeBody, hrun] at h
      cases h
      rfl

section

variable {framing : BodyFraming} {pending chunk : Bytes} {d : Decoded}

/-- The octets held complete the body. -/
theorem gives_of_complete (h : decodeBody framing pending = .ok d) (hcomplete : d.complete = true)
    (reads : List SocketRead) : Gives ⟨framing, pending⟩ reads d.out none := by
  have hheld := @decodeHeld_of_decodeBody ⟨framing, pending⟩ d h
  rw [if_pos hcomplete] at hheld
  exact .ended reads hheld

/-- The octets held give what they give, and the connection goes on. -/
theorem gives_of_decodeBody (h : decodeBody framing pending = .ok d)
    (hcomplete : d.complete = false) (hrest : Gives ⟨d.framing, d.pending⟩ reads body failure) :
    Gives ⟨framing, pending⟩ reads (d.out ++ body) failure := by
  have hheld := @decodeHeld_of_decodeBody ⟨framing, pending⟩ d h
  rw [if_neg (Bool.not_eq_true _ ▸ hcomplete)] at hheld
  by_cases hout : d.out = []
  · rw [if_pos hout] at hheld
    rw [hout, List.nil_append]
    exact hrest.of_settled hheld
  · rw [if_neg hout] at hheld
    exact .progress hheld hrest

/-- A read completes the body. -/
theorem gives_of_read_complete (hsettled : Settled ⟨framing, pending⟩) (hchunk : chunk ≠ [])
    (h : decodeBody framing (pending ++ chunk) = .ok d) (hcomplete : d.complete = true)
    (reads : List SocketRead) : Gives ⟨framing, pending⟩ (.ok chunk :: reads) d.out none := by
  obtain ⟨byte, chunk, rfl⟩ := List.exists_cons_of_ne_nil hchunk
  refine @Gives.readEnded _ _ ⟨d.framing, d.pending⟩ _ _ reads hsettled ?_
  simp only [onRead, h, Except.map, hcomplete, if_true]

/-- A read gives what it gives, and the connection goes on. -/
theorem gives_of_read (hsettled : Settled ⟨framing, pending⟩) (hchunk : chunk ≠ [])
    (h : decodeBody framing (pending ++ chunk) = .ok d) (hcomplete : d.complete = false)
    (hrest : Gives ⟨d.framing, d.pending⟩ reads body failure) :
    Gives ⟨framing, pending⟩ (.ok chunk :: reads) (d.out ++ body) failure := by
  obtain ⟨byte, chunk, rfl⟩ := List.exists_cons_of_ne_nil hchunk
  refine .readProgress hsettled ?_ hrest
  simp only [onRead, h, Except.map, hcomplete, Bool.false_eq_true, if_false]

end

/-- The octets of a framed body, from a connection that waits. -/
theorem gives_of_settled {framing : BodyFraming} {m : Marked} {held more : Bytes}
    {chunks : List Bytes} (h : framing.Owes m) (hsettled : Settled ⟨framing, held⟩)
    (hcut : wire m ++ more = held ++ chunks.flatten) (hchunks : ∀ chunk ∈ chunks, chunk ≠ [])
    (later : List SocketRead) :
    Gives ⟨framing, held⟩ (chunks.map .ok ++ later) (payload m) none := by
  induction chunks generalizing framing m held with
  | nil =>
    rw [List.flatten_nil, List.append_nil] at hcut
    obtain ⟨framing', taken, rest, held', hdecode, -⟩ :=
      @decodeBody_owes framing m more held [] h (by rw [hcut, List.append_nil])
    have hall : m.length ≤ held.length := by
      rw [← hcut, List.length_append, length_wire]
      exact Nat.le_add_right _ _
    rw [Settled, decodeHeld_of_decodeBody hdecode, if_pos (decide_eq_true hall)] at hsettled
    cases hsettled
  | cons chunk chunks ih =>
    rw [List.flatten_cons, ← List.append_assoc] at hcut
    obtain ⟨framing', taken, rest, held', hdecode, rfl, hp, howes, -, hstuck⟩ :=
      decodeBody_owes h hcut
    have hchunk := hchunks chunk List.mem_cons_self
    by_cases hall : (taken ++ rest).length ≤ (held ++ chunk).length
    · have hrest : rest = [] := hstuck.resolve_right fun hlt => by
        rw [hp, List.length_append, List.length_append, length_wire] at hall
        omega
      rw [hrest, List.append_nil] at hall ⊢
      rw [hrest, List.append_nil] at hdecode
      exact gives_of_read_complete hsettled hchunk hdecode (decide_eq_true hall) _
    · rw [decide_eq_false hall] at hdecode
      rw [payload_append]
      refine gives_of_read hsettled hchunk hdecode rfl (ih howes (settled_of_decodeBody hdecode rfl)
        ?_ fun c hc => hchunks c (List.mem_cons_of_mem _ hc))
      rw [hp, wire_append, List.append_assoc, List.append_assoc] at hcut
      exact List.append_cancel_left hcut

/-- **A whole body**: however its octets are cut into reads, and whatever follows it, the
connection gives the octets of the body and ends. -/
theorem gives_whole {framing : BodyFraming} {m : Marked} {pending more : Bytes}
    {chunks : List Bytes} (h : framing.Owes m) (hcut : wire m ++ more = pending ++ chunks.flatten)
    (hchunks : ∀ chunk ∈ chunks, chunk ≠ []) (later : List SocketRead) :
    Gives ⟨framing, pending⟩ (chunks.map .ok ++ later) (payload m) none := by
  obtain ⟨framing', taken, rest, held, hdecode, rfl, rfl, howes, -, hstuck⟩ :=
    decodeBody_owes h hcut
  by_cases hall : (taken ++ rest).length ≤ (wire taken ++ held).length
  · have hrest : rest = [] := hstuck.resolve_right fun hlt => by
      rw [List.length_append, List.length_append, length_wire] at hall
      omega
    rw [hrest, List.append_nil] at hall hdecode ⊢
    exact gives_of_complete hdecode (decide_eq_true hall) _
  · rw [decide_eq_false hall] at hdecode
    have hcut' : wire rest ++ more = held ++ chunks.flatten := by
      rw [wire_append, List.append_assoc, List.append_assoc] at hcut
      exact List.append_cancel_left hcut
    rw [payload_append]
    exact gives_of_decodeBody hdecode rfl
      (gives_of_settled howes (settled_of_decodeBody hdecode rfl) hcut' hchunks later)

/-- The connection is lost inside a framed body, from one that waits. -/
theorem gives_lost_of_settled {framing : BodyFraming} {m : Marked} {held missing : Bytes}
    {chunks : List Bytes} {lost : SocketRead} (h : framing.Owes m)
    (hsettled : Settled ⟨framing, held⟩) (hcut : wire m = held ++ chunks.flatten ++ missing)
    (hmissing : missing ≠ []) (hchunks : ∀ chunk ∈ chunks, chunk ≠ [])
    (hheld : payload (m.take held.length) = []) (hlost : ∀ bytes, lost = .ok bytes → bytes = [])
    (later : List SocketRead) :
    Gives ⟨framing, held⟩ (chunks.map .ok ++ lost :: later)
      (payload (m.take (held ++ chunks.flatten).length))
      (some (.connectionLost (lossReason framing lost))) := by
  induction chunks generalizing framing m held with
  | nil =>
    rw [List.flatten_nil, List.append_nil, hheld]
    refine .readFailed _ hsettled ?_
    cases lost with
    | error reason => rfl
    | ok bytes =>
      rw [hlost bytes rfl]
      cases framing with
      | length remaining =>
        obtain ⟨body, rfl, rfl⟩ := h
        cases body with
        | nil => exact absurd (List.append_eq_nil_iff.1 hcut.symm).2 hmissing
        | cons byte body => rfl
      | chunked state =>
        cases state with
        | done =>
          cases h
          exact absurd (List.append_eq_nil_iff.1 hcut.symm).2 hmissing
        | size | data | dataCrlf | trailer => rfl
      | untilClose => exact h.elim
  | cons chunk chunks ih =>
    rw [List.flatten_cons, ← List.append_assoc, List.append_assoc] at hcut
    obtain ⟨framing', taken, rest, held', hdecode, rfl, hp, howes, hheld', -⟩ :=
      @decodeBody_owes framing m [] (held ++ chunk) (chunks.flatten ++ missing) h
        (by rw [List.append_nil, hcut])
    have hchunk := hchunks chunk List.mem_cons_self
    have hmore : ¬(taken ++ rest).length ≤ (held ++ chunk).length := by
      have hpos := List.length_pos_iff.2 hmissing
      have hlen := congrArg List.length hcut
      simp only [length_wire, List.length_append] at hlen ⊢
      omega
    rw [decide_eq_false hmore] at hdecode
    have hgot : payload ((taken ++ rest).take (held ++ (chunk :: chunks).flatten).length) =
        payload taken ++ payload (rest.take (held' ++ chunks.flatten).length) := by
      rw [List.flatten_cons, ← List.append_assoc, hp, List.append_assoc, List.length_append,
        length_wire, List.take_length_add_append, payload_append]
    rw [hgot, ← lossReason_of_decodeBody hdecode]
    refine gives_of_read hsettled hchunk hdecode rfl (ih howes (settled_of_decodeBody hdecode rfl)
      ?_ (fun c hc => hchunks c (List.mem_cons_of_mem _ hc)) hheld')
    rw [hp, wire_append, List.append_assoc] at hcut
    rw [List.append_assoc]
    exact List.append_cancel_left hcut

/-- **A body cut off**: when the connection is lost before the last octet of the body has come, it
gives the octets of the body that have come, and the loss. -/
theorem gives_lost {framing : BodyFraming} {m : Marked} {pending missing : Bytes}
    {chunks : List Bytes} {lost : SocketRead} (h : framing.Owes m)
    (hcut : wire m = pending ++ chunks.flatten ++ missing) (hmissing : missing ≠ [])
    (hchunks : ∀ chunk ∈ chunks, chunk ≠ []) (hlost : ∀ bytes, lost = .ok bytes → bytes = [])
    (later : List SocketRead) :
    Gives ⟨framing, pending⟩ (chunks.map .ok ++ lost :: later)
      (payload (m.take (pending ++ chunks.flatten).length))
      (some (.connectionLost (lossReason framing lost))) := by
  rw [List.append_assoc] at hcut
  obtain ⟨framing', taken, rest, held, hdecode, rfl, hp, howes, hheld, -⟩ :=
    @decodeBody_owes framing m [] pending (chunks.flatten ++ missing) h
      (by rw [List.append_nil, hcut])
  have hmore : ¬(taken ++ rest).length ≤ pending.length := by
    have hpos := List.length_pos_iff.2 hmissing
    have hlen := congrArg List.length hcut
    simp only [length_wire, List.length_append] at hlen ⊢
    omega
  rw [decide_eq_false hmore] at hdecode
  subst hp
  rw [List.append_assoc, List.length_append, length_wire, List.take_length_add_append,
    payload_append, ← lossReason_of_decodeBody hdecode]
  refine gives_of_decodeBody hdecode rfl (gives_lost_of_settled howes
    (settled_of_decodeBody hdecode rfl) ?_ hmissing hchunks hheld hlost later)
  rw [wire_append, List.append_assoc] at hcut
  rw [List.append_assoc]
  exact List.append_cancel_left hcut

/-- A body that runs to the close of the connection: every octet that comes belongs to it. -/
theorem gives_untilClose (pending : Bytes) {chunks : List Bytes}
    (hchunks : ∀ chunk ∈ chunks, chunk ≠ []) (close : SocketRead) (later : List SocketRead) :
    (close = .ok [] → Gives ⟨.untilClose, pending⟩ (chunks.map .ok ++ close :: later)
      (pending ++ chunks.flatten) none) ∧
    ∀ reason, close = .error reason → Gives ⟨.untilClose, pending⟩
      (chunks.map .ok ++ close :: later) (pending ++ chunks.flatten)
      (some (.connectionLost reason)) := by
  have hsettled : Settled ⟨.untilClose, []⟩ := rfl
  have hrun : ∀ {failure}, Gives ⟨.untilClose, []⟩ (close :: later) [] failure →
      Gives ⟨.untilClose, pending⟩ (chunks.map .ok ++ close :: later) (pending ++ chunks.flatten)
        failure := fun hclose => by
    refine gives_of_decodeBody (d := ⟨false, .untilClose, [], pending⟩) rfl rfl ?_
    induction chunks with
    | nil => exact hclose
    | cons chunk chunks ih =>
      exact gives_of_read hsettled (hchunks chunk List.mem_cons_self) rfl rfl
        (ih fun c hc => hchunks c (List.mem_cons_of_mem _ hc))
  refine ⟨fun hclose => hrun ?_, fun reason hclose => hrun ?_⟩ <;> subst hclose
  · exact .readEnded _ hsettled rfl
  · exact .readFailed _ hsettled rfl

/-- The octets behind a head, and the reads after them, bring the whole of `body`. -/
inductive Brings : BodyFraming → Bytes → List SocketRead → Bytes → Prop
  | framed {framing : BodyFraming} {m : Marked} (encodes : Encodes framing m) (more : Bytes)
      (later : List SocketRead) : Brings framing (wire m ++ more) later (payload m)
  | untilClose (body : Bytes) (later : List SocketRead) :
      Brings .untilClose body (.ok [] :: later) body

/-- The connection is lost behind the octets, when `got` has come of the body. -/
inductive Breaks : BodyFraming → Bytes → List SocketRead → Bytes → String → Prop
  | framed {framing : BodyFraming} {m : Marked} {octets missing : Bytes} {lost : SocketRead}
      (encodes : Encodes framing m) (cut : wire m = octets ++ missing) (missing_ne : missing ≠ [])
      (isLost : ∀ bytes, lost = .ok bytes → bytes = []) (later : List SocketRead) :
      Breaks framing octets (lost :: later) (payload (m.take octets.length))
        (lossReason framing lost)
  | untilClose (got : Bytes) (reason : String) (later : List SocketRead) :
      Breaks .untilClose got (.error reason :: later) got reason

variable {framing : BodyFraming} {pending : Bytes} {chunks : List Bytes}

theorem Brings.gives (h : Brings framing (pending ++ chunks.flatten) reads body)
    (hchunks : ∀ chunk ∈ chunks, chunk ≠ []) :
    Gives ⟨framing, pending⟩ (chunks.map .ok ++ reads) body none := by
  generalize hoctets : pending ++ chunks.flatten = octets at h
  cases h with
  | framed encodes more => exact gives_whole encodes.owes hoctets.symm hchunks _
  | untilClose _ later =>
    subst hoctets
    exact (gives_untilClose pending hchunks _ later).1 rfl

theorem Breaks.gives {got : Bytes} {reason : String}
    (h : Breaks framing (pending ++ chunks.flatten) reads got reason)
    (hchunks : ∀ chunk ∈ chunks, chunk ≠ []) :
    Gives ⟨framing, pending⟩ (chunks.map .ok ++ reads) got (some (.connectionLost reason)) := by
  generalize hoctets : pending ++ chunks.flatten = octets at h
  cases h with
  | framed encodes cut missing_ne isLost later =>
    subst hoctets
    exact gives_lost encodes.owes cut missing_ne hchunks isLost later
  | untilClose _ reason later =>
    subst hoctets
    exact (gives_untilClose pending hchunks _ later).2 _ rfl

end StreamConn

/-! ## What the calls give -/

namespace Inbound

open LineBuffer

/-- The lines that are due from the calls to come. -/
inductive Due : Inbound → List SocketRead → List Line → Prop
  | ended {i : Inbound} (reads : List SocketRead) (stream : i.stream = none) :
      Due i reads (i.lines.ready.map readLine ++ i.pendingFinal.toList)
  | goesOn {i : Inbound} {c : StreamConn} {reads : List SocketRead} {body : Bytes}
      {failure : Option TransportError} (stream : i.stream = some c) (final : i.pendingFinal = none)
      (sound : i.lines.Sound) (gives : c.Gives reads body failure)
      (short : ShortRuns (i.lines.partialBytes ++ body)) :
      Due i reads (i.lines.ready.map readLine ++ linesDue (i.lines.partialBytes ++ body) failure)

variable {i : Inbound} {c c' : StreamConn} {out body : Bytes} {reads : List SocketRead}
  {failure : Option TransportError}

/-- What the connection gives is absorbed: the lines it closes become ready, and the end of the body
closes its last line. -/
theorem absorb_due {read : BodyRead} (hsound : i.lines.Sound)
    (hshort : ShortRuns (i.lines.partialBytes ++ body)) (hfinal : i.pendingFinal = none)
    (hgives : c.GivesAfter reads read body failure) :
    ∃ i', i.absorb c read = .ok i' ∧ Due i' reads
      (i.lines.ready.map readLine ++ linesDue (i.lines.partialBytes ++ body) failure) := by
  cases hgives with
  | ended =>
    obtain ⟨hle, -⟩ :=
      @ShortRuns.opened_append i.lines.partialBytes body [] (by rwa [List.append_nil])
    have hpush := pushBytes_eq hsound body
    rw [if_pos hle] at hpush
    have hflush := flushPartial_eq (b := (i.lines.pushBytes body).2)
      (by rw [hpush]; exact Segments.not_mem_opened _ _)
    rw [hpush] at hflush
    refine ⟨_, by simp only [absorb, hpush]; rfl, ?_⟩
    rw [linesDue, bodyLines_eq, List.map_append, ← List.append_assoc, ← List.map_append, ← hflush]
    exact .ended reads rfl
  | @progress out rest _ hrest =>
    obtain ⟨hle, hruns⟩ := hshort.opened_append
    have hpush := pushBytes_eq hsound out
    rw [if_pos hle] at hpush
    have hsound' := pushBytes_sound hsound out
    rw [hpush] at hsound'
    refine ⟨_, by simp only [absorb, hpush]; rfl, ?_⟩
    rw [← List.append_assoc, linesDue_append (i.lines.partialBytes ++ out), ← List.append_assoc,
      ← List.map_append]
    exact .goesOn rfl hfinal hsound' hrest hruns

/-- A line that is ready is the first one due. -/
theorem Due.pop {line : Line} {lines : LineBuffer} {items : List Line} (h : Due i reads items)
    (hpop : i.lines.popLine = (some line, lines)) :
    ∃ rest, items = line :: rest ∧ Due { i with lines } reads rest := by
  unfold popLine at hpop
  split at hpop
  · cases hpop
  · next hready =>
    cases hpop
    cases h with
    | ended _ hstream =>
      rw [hready]
      exact ⟨_, rfl, .ended reads hstream⟩
    | goesOn hstream hfinal hsound hgives hshort =>
      rw [hready]
      exact ⟨_, rfl, .goesOn hstream hfinal ⟨hsound.no_lf, hsound.bounded, hsound.scanned_eq⟩
        hgives hshort⟩

theorem ready_of_popLine {lines : LineBuffer} (hpop : i.lines.popLine = (none, lines)) :
    i.lines.ready = [] := by
  unfold popLine at hpop
  split at hpop
  · next hready => exact hready
  · cases hpop

/-- With nothing ready, what is due is the rest of the body. -/
theorem Due.of_stream {items : List Line} (h : Due i reads items) (hready : i.lines.ready = [])
    (hstream : i.stream = some c) : ∃ body failure, i.lines.Sound ∧ i.pendingFinal = none ∧
      c.Gives reads body failure ∧ ShortRuns (i.lines.partialBytes ++ body) ∧
      items = linesDue (i.lines.partialBytes ++ body) failure := by
  cases h with
  | ended _ hnone =>
    rw [hstream] at hnone
    cases hnone
  | goesOn hsome hfinal hsound hgives hshort =>
    rw [hstream] at hsome
    cases hsome
    exact ⟨_, _, hsound, hfinal, hgives, hshort, by rw [hready]; rfl⟩

/-- After a failure there is nothing to give but the failure. -/
theorem linesDue_lost (hsound : i.lines.Sound) (e : TransportError) :
    linesDue (i.lines.partialBytes ++ []) (some e) = [.error e] := by
  rw [List.append_nil, linesDue, linesOf_of_not_mem hsound.no_lf]
  rfl

theorem due_reset (reads : List SocketRead) : Due reset reads [] := .ended reads rfl

/-- One call of `next_line` gives the first line due, or the end; it waits only for reads that are
to come. -/
theorem next_of_due {later : List SocketRead} {items : List Line}
    (hdue : Due i (reads ++ later) items) :
    (∃ i' reads', i.next reads = (some items.head?, i', reads') ∧
      Due i' (reads' ++ later) items.tail) ∨
    ∃ i', i.next reads = (none, i', []) ∧ Due i' later items ∧ later ≠ [] := by
  fun_induction next i reads generalizing items with
  | case1 i reads line lines hpop =>
    obtain ⟨rest, rfl, hrest⟩ := hdue.pop hpop
    exact .inl ⟨_, _, rfl, hrest⟩
  | case2 i reads lines hpop line hfinal =>
    have hready := ready_of_popLine hpop
    cases hdue with
    | ended _ hstream =>
      rw [hready, hfinal]
      refine .inl ⟨_, _, rfl, ?_⟩
      have hdue := @Due.ended { i with pendingFinal := none } (reads ++ later) hstream
      rwa [hready] at hdue
    | goesOn _ hnone =>
      rw [hfinal] at hnone
      cases hnone
  | case3 i reads lines hpop hfinal hstream =>
    have hready := ready_of_popLine hpop
    cases hdue with
    | ended _ hnone =>
      have hdue := Due.ended (reads ++ later) hstream
      rw [hready, hfinal] at hdue ⊢
      exact .inl ⟨_, _, rfl, hdue⟩
    | goesOn hsome =>
      rw [hstream] at hsome
      cases hsome
  | case4 i reads lines hpop hfinal c hstream e hheld =>
    obtain ⟨body, failure, hsound, -, hgives, -, rfl⟩ :=
      hdue.of_stream (ready_of_popLine hpop) hstream
    obtain ⟨rfl, rfl⟩ := hgives.of_heldError hheld
    rw [linesDue_lost hsound]
    exact .inl ⟨_, _, rfl, due_reset _⟩
  | case5 i reads lines hpop hfinal c hstream read c' hheld e habsorb =>
    obtain ⟨body, failure, hsound, -, hgives, hshort, rfl⟩ :=
      hdue.of_stream (ready_of_popLine hpop) hstream
    obtain ⟨i', hok, -⟩ := absorb_due hsound hshort hfinal (hgives.of_held hheld)
    rw [habsorb] at hok
    cases hok
  | case6 i reads lines hpop hfinal c hstream read c' hheld i' habsorb ih =>
    have hready := ready_of_popLine hpop
    obtain ⟨body, failure, hsound, -, hgives, hshort, rfl⟩ := hdue.of_stream hready hstream
    obtain ⟨i'', hok, hdue'⟩ := absorb_due hsound hshort hfinal (hgives.of_held hheld)
    rw [habsorb] at hok
    cases hok
    rw [hready] at hdue'
    exact ih hdue'
  | case7 i lines hpop hfinal c hstream c' hheld =>
    have hready := ready_of_popLine hpop
    obtain ⟨body, failure, hsound, -, hgives, hshort, rfl⟩ := hdue.of_stream hready hstream
    obtain ⟨hgives', hne⟩ := hgives.of_wait hheld
    refine .inr ⟨_, rfl, ?_, hne⟩
    have hdue' := @Due.goesOn { i with stream := some c' } c' later body failure rfl hfinal hsound
      hgives' hshort
    rwa [hready] at hdue'
  | case8 i lines hpop hfinal c hstream c' hheld answer reads e hread =>
    obtain ⟨body, failure, hsound, -, hgives, -, rfl⟩ :=
      hdue.of_stream (ready_of_popLine hpop) hstream
    obtain ⟨rfl, rfl⟩ := hgives.of_readError hheld hread
    rw [linesDue_lost hsound]
    exact .inl ⟨_, _, rfl, due_reset _⟩
  | case9 i lines hpop hfinal c hstream c' hheld answer reads read c'' hread e habsorb =>
    obtain ⟨body, failure, hsound, -, hgives, hshort, rfl⟩ :=
      hdue.of_stream (ready_of_popLine hpop) hstream
    obtain ⟨i', hok, -⟩ := absorb_due hsound hshort hfinal (hgives.of_read hheld hread)
    rw [habsorb] at hok
    cases hok
  | case10 i lines hpop hfinal c hstream c' hheld answer reads read c'' hread i' habsorb ih =>
    have hready := ready_of_popLine hpop
    obtain ⟨body, failure, hsound, -, hgives, hshort, rfl⟩ := hdue.of_stream hready hstream
    obtain ⟨i'', hok, hdue'⟩ := absorb_due hsound hshort hfinal (hgives.of_read hheld hread)
    rw [habsorb] at hok
    cases hok
    rw [hready] at hdue'
    exact ih hdue'

/-- **One call of `next_line` keeps the lines that are due.** -/
theorem next_delivers : Delivers next Due := fun _ _ _ _ hdue =>
  (next_of_due hdue).imp_right fun ⟨i', hcall, hdue', _⟩ => ⟨i', [], hcall, hdue'⟩

theorem next_ends : Ends next Due := by
  intro i reads items hdue hnone
  rw [← List.append_nil reads] at hdue
  obtain ⟨i', reads', hcall, -⟩ | ⟨i', -, -, hne⟩ := next_of_due hdue
  · rw [hcall] at hnone
    cases hnone
  · exact hne rfl

theorem next_shrinks (i : Inbound) (reads : List SocketRead) :
    (i.next reads).2.2.length ≤ reads.length := by
  fun_induction next i reads with
  | case6 i reads lines hpop hfinal c hstream read c' hheld i' habsorb ih => exact ih
  | case10 i lines hpop hfinal c hstream c' hheld answer reads read c'' hread i' habsorb ih =>
    exact ih.trans (Nat.le_succ _)
  | case8 | case9 => exact Nat.le_succ _
  | case1 | case2 | case3 | case4 | case5 | case7 => exact Nat.le_refl _

end Inbound

/-! ## A connection in use -/

namespace HttpTransport

/-- What the session layer does while a stream connection is open. -/
inductive Command
  | nextLine (patience : ℕ)
  | sendControl (request : EncodedRequest) (head : Except TransportError Head)
      (reads : List SocketRead)
  | setControlLink (host : Option (List Char))

/-- One command after the other: what the calls of `next_line` gave that came to an end, the
transport, and the reads of the stream connection that were not taken. -/
def serve (t : HttpTransport) (reads : List SocketRead) :
    List Command → List (Option Line) × HttpTransport × List SocketRead
  | [] => ([], t, reads)
  | .nextLine n :: commands =>
    let call := t.nextLine (reads.take n)
    let rest := call.2.1.serve (call.2.2 ++ reads.drop n) commands
    (call.1.toList ++ rest.1, rest.2)
  | .sendControl request head answer :: commands =>
    (t.sendControl request head answer).2.serve reads commands
  | .setControlLink host :: commands => (t.setControlLink host).serve reads commands

/-- What the commands do to the queue of control lines and to the stream connection. -/
def script (t : HttpTransport) : List Command → List (Act Line)
  | [] => []
  | .nextLine n :: commands => .pull n :: t.script commands
  | .sendControl request head answer :: commands =>
    .put (((t.respond request head answer).toOption.getD []).map .ok) :: t.script commands
  | .setControlLink host :: commands => (t.setControlLink host).script commands

/-- The lines of the control responses that came. -/
def answered (t : HttpTransport) : List Command → List String
  | [] => []
  | .nextLine _ :: commands => t.answered commands
  | .sendControl request head answer :: commands =>
    (t.respond request head answer).toOption.getD [] ++ t.answered commands
  | .setControlLink host :: commands => (t.setControlLink host).answered commands

theorem added_script (t : HttpTransport) (commands : List Command) :
    (t.script commands).flatMap Act.added = (t.answered commands).map .ok := by
  induction commands generalizing t with
  | nil => rfl
  | cons command commands ih =>
    cases command with
    | nextLine n => exact ih t
    | sendControl request head answer =>
      rw [script, answered, List.flatMap_cons, ih, List.map_append]
      rfl
    | setControlLink host => exact ih _

/-- Where the transport connects to. -/
def Alike (t u : HttpTransport) : Prop := t.address = u.address ∧ t.controlLink = u.controlLink

theorem Alike.setControlLink {t u : HttpTransport} (h : Alike t u) (host : Option (List Char)) :
    Alike (t.setControlLink host) (u.setControlLink host) := ⟨h.1, rfl⟩

theorem Alike.respond {t u : HttpTransport} (h : Alike t u) : t.respond = u.respond := by
  funext request head answer
  rw [HttpTransport.respond, HttpTransport.respond, endpoint, endpoint, h.1, h.2]

/-- **The transport is its stream connection behind the queue of control lines.** -/
theorem serve_eq {t u : HttpTransport} (halike : Alike t u) (reads : List SocketRead)
    (commands : List Command) :
    (t.serve reads commands).1 =
        (acts Inbound.next (t.controlLines.map .ok, t.toInbound) reads (u.script commands)).1 ∧
      (t.serve reads commands).2.1.controlLines.map .ok =
        (acts Inbound.next (t.controlLines.map .ok, t.toInbound) reads
          (u.script commands)).2.1.1 := by
  induction commands generalizing t u reads with
  | nil => exact ⟨rfl, rfl⟩
  | cons command commands ih =>
    cases command with
    | nextLine n =>
      obtain ⟨inbound, mode, address, link, lines⟩ := t
      cases lines with
      | nil =>
        obtain ⟨hresults, hqueue⟩ := @ih
          ⟨(inbound.next (reads.take n)).2.1, mode, address, link, []⟩ u halike
          ((inbound.next (reads.take n)).2.2 ++ reads.drop n)
        exact ⟨congrArg _ hresults, hqueue⟩
      | cons line lines =>
        obtain ⟨hresults, hqueue⟩ := @ih ⟨inbound, mode, address, link, lines⟩ u halike
          (reads.take n ++ reads.drop n)
        exact ⟨congrArg _ hresults, hqueue⟩
    | sendControl request head answer =>
      have hsend : (t.sendControl request head answer).2 =
          { t with controlLines :=
              t.controlLines ++ (u.respond request head answer).toOption.getD [] } := by
        rw [sendControl, halike.respond]
        cases u.respond request head answer with
        | error e => simp [Except.toOption]
        | ok lines => rfl
      have := @ih { t with controlLines :=
        t.controlLines ++ (u.respond request head answer).toOption.getD [] } u halike reads
      simp only [serve, script, hsend, acts]
      simpa only [List.map_append] using this
    | setControlLink host => exact ih (halike.setControlLink host) reads

/-- Whether a command asks for a line. -/
def Command.asks : Command → Bool
  | .nextLine _ => true
  | _ => false

theorem calls_script (t : HttpTransport) (commands : List Command) :
    ((t.script commands).map Act.calls).sum = commands.countP Command.asks := by
  induction commands generalizing t with
  | nil => rfl
  | cons command commands ih =>
    cases command with
    | nextLine n =>
      rw [script, List.map_cons, List.sum_cons, ih, List.countP_cons_of_pos rfl, Act.calls,
        Nat.add_comm]
    | sendControl request head answer =>
      rw [script, List.map_cons, List.sum_cons, ih,
        List.countP_cons_of_neg (by simp [Command.asks]), Act.calls, Nat.zero_add]
    | setControlLink host => rw [script, ih, List.countP_cons_of_neg (by simp [Command.asks])]

theorem pull_mem_script {t : HttpTransport} {commands : List Command} {n : ℕ}
    (h : .pull n ∈ t.script commands) : .nextLine n ∈ commands := by
  induction commands generalizing t with
  | nil => cases h
  | cons command commands ih =>
    cases command with
    | nextLine k =>
      rw [script, List.mem_cons] at h
      obtain h | h := h
      · cases h
        exact List.mem_cons_self
      · exact List.mem_cons_of_mem _ (ih h)
    | sendControl request head answer =>
      rw [script, List.mem_cons] at h
      obtain h | h := h
      · cases h
      · exact List.mem_cons_of_mem _ (ih h)
    | setControlLink host => exact List.mem_cons_of_mem _ (ih h)

/-- The results of a connection in use: lines of control responses and lines of the stream, each in
their order, with the end behind the last line of the stream; what is left of the control lines is
queued; and calls that are given every read come to an end. -/
def Yields (t : HttpTransport) (reads : List SocketRead) (items : List Line) : Prop :=
  ∀ commands, ∃ (queued : List String) (streamed : List (Option Line)),
    Interleaves (queued.map fun line => some (.ok line)) streamed (t.serve reads commands).1 ∧
    queued ++ (t.serve reads commands).2.1.controlLines = t.controlLines ++ t.answered commands ∧
    (∀ (i : ℕ) result, streamed[i]? = some result → result = items[i]?) ∧
    ((∀ n, .nextLine n ∈ commands → reads.length ≤ n) →
      (t.serve reads commands).1.length = commands.countP Command.asks)

theorem yields_of_due {t : HttpTransport} {reads : List SocketRead} {items : List Line}
    (hdue : t.toInbound.Due reads items) : t.Yields reads items := by
  intro commands
  obtain ⟨hresults, hqueue⟩ := @serve_eq t t ⟨rfl, rfl⟩ reads commands
  obtain ⟨lines, streamed, hmerge, hlines, hitems⟩ := acts_interleaves Inbound.next_delivers hdue
    (t.controlLines.map .ok) (t.script commands)
  rw [added_script, ← List.map_append, ← hqueue] at hlines
  obtain ⟨queued, rest, hsplit, rfl, hrest⟩ := List.append_eq_map_iff.1 hlines
  have hleft : rest = (t.serve reads commands).2.1.controlLines :=
    List.map_injective_iff.2 (fun _ _ => Except.ok.inj) hrest
  refine ⟨queued, streamed, ?_, ?_, hitems, fun hpatience => ?_⟩
  · rw [List.map_map] at hmerge
    rwa [hresults]
  · rw [← hleft, ← hsplit]
  · rw [hresults, acts_length Inbound.next_delivers Inbound.next_ends hdue _
      (fun n hn => hpatience n (pull_mem_script hn)) Inbound.next_shrinks, calls_script]

/-- `open_stream`, with the reads of its socket; and the reads that are left for the body. -/
def openWith (t : HttpTransport) (parse : HeadParser) (request : Session.StreamOpen)
    (reads : List SocketRead) : (Except TransportError Unit × HttpTransport) × List SocketRead :=
  let answer := readHead parse [] reads
  (t.openStream request answer.1, answer.2)

section

variable {t : HttpTransport} {parse : HeadParser} {request : Session.StreamOpen}
  {target : String × String} {endpoint : Endpoint} {head octets : Bytes} {code : ℕ}
  {framing : BodyFraming} {chunks : List Bytes}

/-- What a stream connection starts from: the queue of control lines as it was, and the octets of
the body that came with the head. -/
theorem openWith_of_heads (hencode : encodeOpen request = .ok target)
    (hendpoint : t.endpoint = .ok endpoint) (hhead : Heads parse head code framing)
    (hshort : head.length ≤ maxHeadBytes) (hcode : isSuccess code = true)
    (hcut : chunks.flatten = head ++ octets) (hchunks : ∀ chunk ∈ chunks, chunk ≠ [])
    (later : List SocketRead) :
    ∃ (leftover : Bytes) (rest : List Bytes),
      t.openWith parse request (chunks.map .ok ++ later) =
        ((.ok (), { t with toInbound := ⟨some ⟨framing, leftover⟩, .empty, none⟩ }),
          rest.map .ok ++ later) ∧
      leftover ++ rest.flatten = octets ∧ ∀ chunk ∈ rest, chunk ≠ [] := by
  obtain ⟨leftover, rest, hread, hrest, hne⟩ :=
    @readHead_of_heads parse head [] octets code framing chunks hhead hshort hcut hchunks later
  refine ⟨leftover, rest, ?_, hrest, hne⟩
  rw [openWith, hread]
  simp only [openStream, hencode, hendpoint, hcode, if_true]
  rfl

/-- **The lines of a response that comes whole**: every line of its body, the last one with or
without a line end, once and in order, and then the end; however the octets of the response are cut
into reads, the calls are cancelled, and control requests are answered in between. -/
theorem openWith_brings (hencode : encodeOpen request = .ok target)
    (hendpoint : t.endpoint = .ok endpoint) (hhead : Heads parse head code framing)
    (hshort : head.length ≤ maxHeadBytes) (hcode : isSuccess code = true)
    (hcut : chunks.flatten = head ++ octets) (hchunks : ∀ chunk ∈ chunks, chunk ≠ [])
    {later : List SocketRead} {body : Bytes}
    (hbrings : StreamConn.Brings framing octets later body) (hruns : LineBuffer.ShortRuns body) :
    ∃ t' reads, t.openWith parse request (chunks.map .ok ++ later) = ((.ok (), t'), reads) ∧
      t'.controlLines = t.controlLines ∧
      t'.Yields reads ((bodyLines body).map LineBuffer.readLine) := by
  obtain ⟨leftover, rest, hopen, rfl, hne⟩ :=
    openWith_of_heads hencode hendpoint hhead hshort hcode hcut hchunks later
  refine ⟨_, _, hopen, rfl, yields_of_due ?_⟩
  exact .goesOn rfl rfl LineBuffer.sound_empty (hbrings.gives hne) hruns

/-- A line in a chunk; the octets are cut inside the head, inside the size line and inside the
data. -/
theorem openWith_brings_hello :
    ∃ t' reads,
      openWith ⟨.reset, .streaming, "http://h".toList, none, ["REQOK,1"]⟩
          (parserOf (utf8Bytes "HTTP/1.1 200 OK\r\nTransfer-Encoding: chunked\r\n\r\n".toList)
            ⟨47, some 200, [("Transfer-Encoding".toList, utf8Bytes "chunked".toList)]⟩)
          (.bind ⟨some "S1", none, none, .streaming none none none, none⟩)
          ([utf8Bytes "HTTP/1.1 200 OK\r\nTransfer-".toList,
            utf8Bytes "Encoding: chunked\r\n\r\n5 ;x".toList, utf8Bytes "=y\r\nhel".toList,
            utf8Bytes "lo\r\n0\r\nX: 1\r\n\r\n!".toList].map .ok ++ []) =
        ((.ok (), t'), reads) ∧
      t'.controlLines = ["REQOK,1"] ∧
      t'.Yields reads ((bodyLines (payload helloChunked)).map LineBuffer.readLine) :=
  @openWith_brings ⟨.reset, .streaming, "http://h".toList, none, ["REQOK,1"]⟩ _ _ _ _
    (utf8Bytes "HTTP/1.1 200 OK\r\nTransfer-Encoding: chunked\r\n\r\n".toList)
    (wire helloChunked ++ utf8Bytes "!".toList) 200 (.chunked .size) _ rfl rfl
    (heads_parserOf (by decide) rfl rfl) (by decide) rfl (by decide) (by decide) _ _
    (.framed (.chunked chunkedEncodes_helloChunked) _ _)
    (fun _ hrun _ => hrun.length_le.trans (by decide))

/-- **The lines of a response that is cut off**: every line whose line end came, then the loss of
the connection, once, and then the end; nothing of the line that was cut. -/
theorem openWith_breaks (hencode : encodeOpen request = .ok target)
    (hendpoint : t.endpoint = .ok endpoint) (hhead : Heads parse head code framing)
    (hshort : head.length ≤ maxHeadBytes) (hcode : isSuccess code = true)
    (hcut : chunks.flatten = head ++ octets) (hchunks : ∀ chunk ∈ chunks, chunk ≠ [])
    {later : List SocketRead} {got : Bytes} {reason : String}
    (hbreaks : StreamConn.Breaks framing octets later got reason)
    (hruns : LineBuffer.ShortRuns got) :
    ∃ t' reads, t.openWith parse request (chunks.map .ok ++ later) = ((.ok (), t'), reads) ∧
      t'.controlLines = t.controlLines ∧
      t'.Yields reads ((LineBuffer.linesOf got).map LineBuffer.readLine ++
        [.error (.connectionLost reason)]) := by
  obtain ⟨leftover, rest, hopen, rfl, hne⟩ :=
    openWith_of_heads hencode hendpoint hhead hshort hcode hcut hchunks later
  refine ⟨_, _, hopen, rfl, yields_of_due ?_⟩
  exact .goesOn rfl rfl LineBuffer.sound_empty (hbreaks.gives hne) hruns

/-- The connection is closed inside the second line of ten octets. -/
theorem openWith_breaks_secondLine :
    ∃ t' reads,
      openWith ⟨.reset, .streaming, "http://h".toList, none, []⟩
          (parserOf (utf8Bytes "HTTP/1.1 200 OK\r\nContent-Length: 10\r\n\r\n".toList)
            ⟨39, some 200, [("Content-Length".toList, utf8Bytes "10".toList)]⟩)
          (.bind ⟨some "S1", none, none, .streaming none none none, none⟩)
          ([utf8Bytes "HTTP/1.1 200 OK\r\nContent-".toList,
            utf8Bytes "Length: 10\r\n\r\nWSOK".toList, utf8Bytes "\r\nLO".toList].map .ok ++
            [.ok []]) =
        ((.ok (), t'), reads) ∧
      t'.controlLines = [] ∧
      t'.Yields reads
        ((LineBuffer.linesOf (utf8Bytes "WSOK\r\nLO".toList)).map LineBuffer.readLine ++
          [.error (.connectionLost "stream connection closed before its Content-Length")]) :=
  @openWith_breaks ⟨.reset, .streaming, "http://h".toList, none, []⟩ _ _ _ _
    (utf8Bytes "HTTP/1.1 200 OK\r\nContent-Length: 10\r\n\r\n".toList)
    (utf8Bytes "WSOK\r\nLO".toList) 200 (.length 10) _ rfl rfl
    (heads_parserOf (by decide) rfl rfl) (by decide) rfl (by decide) (by decide) _ _ _
    (@StreamConn.Breaks.framed (.length 10) (content (utf8Bytes "WSOK\r\nLOOP".toList)) _
      (utf8Bytes "OP".toList) (.ok [])
      (@Encodes.length (utf8Bytes "WSOK\r\nLOOP".toList) (by decide)) (by decide)
      (by decide) (fun _ h => (Except.ok.inj h).symm) [])
    (fun _ hrun _ => hrun.length_le.trans (by decide))

end

end HttpTransport

end Lightstreamer.Transport
