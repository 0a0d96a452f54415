import Mathlib.Algebra.Order.Ring.Nat
import Mathlib.Data.List.DropRight

/-!
# Text as lists of characters

Trimming and cutting of text. White space is the Unicode property `White_Space`. `cut` is at the
first occurrence of a separator, `cutLast` at the last occurrence of a character.
-/

namespace Lightstreamer.Foundations

namespace Text

/-- The characters with the Unicode property `White_Space`. -/
def isWhitespace (c : Char) : Bool :=
  let code := c.toNat
  (9 ≤ code && code ≤ 13) || code = 0x20 || code = 0x85 || code = 0xA0 || code = 0x1680 ||
    (0x2000 ≤ code && code ≤ 0x200A) || code = 0x2028 || code = 0x2029 || code = 0x202F ||
    code = 0x205F || code = 0x3000

/-- Whether a character has the Unicode category `Cc`. -/
def isControl (c : Char) : Bool := c.toNat ≤ 0x1F || (0x7F ≤ c.toNat && c.toNat ≤ 0x9F)

/-- Remove the white space at both ends. -/
def trim (text : List Char) : List Char :=
  (text.dropWhile isWhitespace).rdropWhile isWhitespace

/-- A text with a character that is no white space is not trimmed away. -/
theorem trim_ne_nil {text : List Char} {c : Char} (h : c ∈ text) (hc : ¬isWhitespace c) :
    trim text ≠ [] := by
  intro hnil
  have hall := List.rdropWhile_eq_nil_iff.1 hnil
  rw [← List.takeWhile_append_dropWhile (p := isWhitespace) (l := text), List.mem_append] at h
  rcases h with h | h
  · exact hc (List.mem_takeWhile_imp h)
  · exact hc (hall c h)

/-- The words between the white space. -/
def splitWhitespace (text : List Char) : List (List Char) :=
  (text.splitOnP isWhitespace).filter fun word => !word.isEmpty

/-- Words with single blanks between them are read back. -/
theorem splitWhitespace_intercalate {words : List (List Char)}
    (h : ∀ word ∈ words, word ≠ [] ∧ ∀ c ∈ word, isWhitespace c = false) :
    splitWhitespace ([' '].intercalate words) = words := by
  induction words with
  | nil => rfl
  | cons word words ih =>
    obtain ⟨⟨hne, hword⟩, hwords⟩ := List.forall_mem_cons.1 h
    have hkept : ∀ rest, List.filter (fun w : List Char => !w.isEmpty) (word :: rest) =
        word :: rest.filter fun w => !w.isEmpty := fun rest =>
      List.filter_cons_of_pos (by simpa using hne)
    cases words with
    | nil =>
      rw [List.intercalate_singleton, splitWhitespace, List.splitOnP_eq_singleton hword,
        hkept, List.filter_nil]
    | cons next words =>
      rw [List.intercalate_cons_cons, List.append_assoc, List.singleton_append, splitWhitespace,
        List.splitOnP_append_cons_of_forall_mem hword ' ' (by decide), hkept]
      exact congrArg _ (ih hwords)

theorem rdropWhile_append_of_forall {α : Type*} {p : α → Bool} (xs : List α) {ys : List α}
    (hys : ∀ y ∈ ys, p y) : (xs ++ ys).rdropWhile p = xs.rdropWhile p := by
  induction ys using List.reverseRecOn with
  | nil => rw [List.append_nil]
  | append_singleton ys y ih =>
    rw [← List.append_assoc, List.rdropWhile_concat_pos _ _ _ (hys y (by simp)),
      ih fun z hz => hys z (by simp [hz])]

theorem rdropWhile_of_forall_not {α : Type*} {p : α → Bool} {xs : List α} (hxs : ∀ x ∈ xs, ¬p x) :
    xs.rdropWhile p = xs :=
  List.rdropWhile_eq_self_iff.2 fun hne => hxs _ (List.getLast_mem hne)

/-- White space after a text without white space is what is removed. -/
theorem trim_append_blank {text blank : List Char} (htext : ∀ c ∈ text, ¬isWhitespace c)
    (hne : text ≠ []) (hblank : ∀ c ∈ blank, isWhitespace c) : trim (text ++ blank) = text := by
  obtain ⟨c, cs, rfl⟩ := List.exists_cons_of_ne_nil hne
  have hc : ¬isWhitespace c := htext c (List.mem_cons_self)
  rw [trim, List.cons_append, List.dropWhile_cons_of_neg hc, ← List.cons_append,
    rdropWhile_append_of_forall _ hblank, rdropWhile_of_forall_not htext]

theorem takeWhile_append_cons {α : Type*} {p : α → Bool} (xs : List α) {x : α} (ys : List α)
    (hx : ¬p x) : (xs ++ x :: ys).takeWhile p = xs.takeWhile p := by
  rw [List.takeWhile_append, List.takeWhile_cons_of_neg hx]
  split_ifs with hall
  · rw [List.append_nil, (List.takeWhile_prefix _).eq_of_length hall]
  · rfl

theorem dropWhile_append_cons {α : Type*} {p : α → Bool} (xs : List α) {x : α} (ys : List α)
    (hx : ¬p x) : (xs ++ x :: ys).dropWhile p = xs.dropWhile p ++ x :: ys := by
  rw [List.dropWhile_append, List.dropWhile_cons_of_neg hx]
  split_ifs with hall
  · rw [List.isEmpty_iff.mp hall, List.nil_append]
  · rfl

/-- What stands behind an element that stays is trimmed apart. -/
theorem rdropWhile_append_cons {α : Type*} {p : α → Bool} (xs : List α) {x : α} (ys : List α)
    (hx : ¬p x) : (xs ++ x :: ys).rdropWhile p = xs ++ x :: ys.rdropWhile p := by
  have hys := List.rdropWhile_append_rtakeWhile (p := p) (l := ys)
  have hblank : ∀ y ∈ ys.rtakeWhile p, p y := fun y hy => List.mem_rtakeWhile_imp hy
  conv_lhs => rw [← hys, ← List.cons_append, ← List.append_assoc,
    rdropWhile_append_of_forall _ hblank]
  rw [List.rdropWhile_eq_self_iff]
  intro hne
  by_cases hdrop : ys.rdropWhile p = []
  · simpa [hdrop] using hx
  · rw [List.getLast_append_of_ne_nil _ (List.cons_ne_nil _ _), List.getLast_cons hdrop]
    exact List.rdropWhile_last_not p ys hdrop

/-- Behind a first character that stays, only the end is trimmed. -/
theorem trim_cons {c : Char} (hc : ¬isWhitespace c) (text : List Char) :
    trim (c :: text) = c :: text.rdropWhile isWhitespace := by
  rw [trim, List.dropWhile_cons_of_neg hc]
  exact rdropWhile_append_cons [] text hc

theorem trim_of_forall_not {text : List Char} (h : ∀ c ∈ text, ¬isWhitespace c) :
    trim text = text := by
  cases text with
  | nil => rfl
  | cons c cs =>
    rw [trim, List.dropWhile_cons_of_neg (h c List.mem_cons_self), rdropWhile_of_forall_not h]

/-! ## Cutting -/

/-- The texts before and after the first occurrence of a separator. -/
def cut (sep : List Char) : List Char → Option (List Char × List Char)
  | [] => none
  | c :: cs =>
    if sep <+: c :: cs then some ([], (c :: cs).drop sep.length)
    else (cut sep cs).map fun p => (c :: p.1, p.2)

/-- A text is put together again from its cut. -/
theorem eq_of_cut {sep text before behind : List Char} (h : cut sep text = some (before, behind)) :
    text = before ++ sep ++ behind := by
  induction text generalizing before behind with
  | nil => cases h
  | cons c cs ih =>
    rw [cut] at h
    split_ifs at h with hsep
    · obtain ⟨rest, hrest⟩ := hsep
      cases h
      rw [List.nil_append, ← hrest, List.drop_left]
    · obtain ⟨p, hp, heq⟩ := Option.map_eq_some_iff.1 h
      cases heq
      rw [ih hp]
      rfl

/-- The first occurrence stands where the separator's first character does. -/
theorem cut_append {first : Char} {sep before : List Char} (behind : List Char)
    (h : first ∉ before) :
    cut (first :: sep) (before ++ (first :: sep ++ behind)) = some (before, behind) := by
  induction before with
  | nil =>
    rw [List.nil_append, List.cons_append, cut, if_pos ⟨behind, rfl⟩, ← List.cons_append,
      List.drop_left]
  | cons c cs ih =>
    have hc : ¬first :: sep <+: c :: (cs ++ (first :: sep ++ behind)) := fun hp =>
      h (List.mem_cons.2 (.inl (List.cons_prefix_cons.1 hp).1))
    rw [List.cons_append, cut, if_neg hc, ih fun hin => h (List.mem_cons_of_mem c hin)]
    rfl

/-- A text is cut at the first occurrence of a character. -/
theorem cut_singleton_append {c : Char} {before : List Char} (behind : List Char)
    (h : c ∉ before) : cut [c] (before ++ c :: behind) = some (before, behind) :=
  cut_append behind h

/-- A text that lacks a character of the separator is not cut. -/
theorem cut_eq_none {x : Char} {sep text : List Char} (hx : x ∈ sep) (h : x ∉ text) :
    cut sep text = none := by
  cases hcut : cut sep text with
  | none => rfl
  | some p =>
    rw [eq_of_cut hcut] at h
    exact absurd (List.mem_append_left _ (List.mem_append_right _ hx)) h

/-- A prefix without the element ends before it. -/
theorem prefix_of_prefix_append_cons {α : Type*} {sep xs : List α} {y : α} {ys : List α}
    (hy : y ∉ sep) (h : sep <+: xs ++ y :: ys) : sep <+: xs := by
  refine List.prefix_of_prefix_length_le h (List.prefix_append xs _)
    (Nat.le_of_not_lt fun hlt => hy ?_)
  have hget : sep[xs.length] = y := by
    rw [h.getElem hlt]
    simp
  exact hget ▸ List.getElem_mem hlt

theorem cut_cons_pos {sep cs : List Char} {c : Char} (h : sep <+: c :: cs) :
    cut sep (c :: cs) = some ([], (c :: cs).drop sep.length) := if_pos h

theorem cut_cons_neg {sep cs : List Char} {c : Char} (h : ¬sep <+: c :: cs) :
    cut sep (c :: cs) = (cut sep cs).map fun p => (c :: p.1, p.2) := if_neg h

/-- A character that the separator lacks keeps the two sides apart. -/
theorem cut_append_cons {sep : List Char} {y : Char} (hsep : sep ≠ []) (hy : y ∉ sep)
    (xs ys : List Char) : cut sep (xs ++ y :: ys) = match cut sep xs with
      | some (before, behind) => some (before, behind ++ y :: ys)
      | none => (cut sep ys).map fun p => (xs ++ y :: p.1, p.2) := by
  induction xs with
  | nil =>
    have hfirst : ¬sep <+: [] ++ y :: ys := fun h =>
      hsep (List.prefix_nil.mp (prefix_of_prefix_append_cons hy h))
    exact cut_cons_neg hfirst
  | cons c xs ih =>
    rw [List.cons_append]
    by_cases h : sep <+: c :: xs
    · have h' : sep <+: c :: (xs ++ y :: ys) := h.trans (List.prefix_append (c :: xs) (y :: ys))
      rw [cut_cons_pos h', cut_cons_pos h, ← List.cons_append,
        List.drop_append_of_le_length h.length_le]
    · have h' : ¬sep <+: c :: xs ++ y :: ys := fun h' => h (prefix_of_prefix_append_cons hy h')
      rw [List.cons_append] at h'
      rw [cut_cons_neg h', cut_cons_neg h, ih]
      cases cut sep xs with
      | some p => rfl
      | none =>
        rw [Option.map_none, Option.map_map]
        rfl

/-- What is cut is cut in front of more text as well. -/
theorem cut_append_of_eq_some {sep text before behind : List Char}
    (h : cut sep text = some (before, behind)) (more : List Char) :
    cut sep (text ++ more) = some (before, behind ++ more) := by
  induction text generalizing before with
  | nil => cases h
  | cons c cs ih =>
    rw [List.cons_append]
    by_cases hc : sep <+: c :: cs
    · rw [cut_cons_pos hc] at h
      cases h
      have hc' : sep <+: c :: (cs ++ more) := hc.trans (List.prefix_append (c :: cs) more)
      rw [cut_cons_pos hc', ← List.cons_append, List.drop_append_of_le_length hc.length_le]
    · rw [cut_cons_neg hc] at h
      obtain ⟨p, hp, heq⟩ := Option.map_eq_some_iff.mp h
      cases heq
      have hlength : sep.length ≤ (c :: cs).length := by
        have := congrArg List.length (eq_of_cut hp)
        simp only [List.length_append, List.length_cons] at this ⊢
        omega
      have hc' : ¬sep <+: c :: (cs ++ more) := fun h' => hc
        (List.prefix_of_prefix_length_le h' (List.prefix_append (c :: cs) more) hlength)
      rw [cut_cons_neg hc', ih hp]
      rfl

theorem cut_ne_none {sep : List Char} (hsep : sep ≠ []) (before behind : List Char) :
    cut sep (before ++ sep ++ behind) ≠ none := by
  induction before with
  | nil =>
    obtain ⟨c, cs, rfl⟩ := List.exists_cons_of_ne_nil hsep
    have h : c :: cs <+: c :: (cs ++ behind) := List.prefix_append (c :: cs) behind
    rw [List.nil_append, List.cons_append, cut_cons_pos h]
    exact Option.some_ne_none _
  | cons c cs ih =>
    rw [List.cons_append, List.cons_append]
    by_cases h : sep <+: c :: (cs ++ sep ++ behind)
    · rw [cut_cons_pos h]
      exact Option.some_ne_none _
    · rw [cut_cons_neg h, Ne, Option.map_eq_none_iff]
      exact ih

/-- A text that is not cut is not cut either in front of one without the separator's end. -/
theorem cut_append_eq_none {sep xs ys : List Char} {last : Char}
    (hxs : cut (sep ++ [last]) xs = none) (hys : last ∉ ys) :
    cut (sep ++ [last]) (xs ++ ys) = none := by
  have hsep : sep ++ [last] ≠ [] := List.append_ne_nil_of_right_ne_nil _ (List.cons_ne_nil _ _)
  refine Option.eq_none_iff_forall_ne_some.mpr ?_
  rintro ⟨before, behind⟩ h
  rcases List.append_eq_append_iff.mp (eq_of_cut h) with ⟨as, hwhole, rfl⟩ | ⟨cs, rfl, -⟩
  · rcases List.eq_nil_or_concat as with rfl | ⟨init, c, rfl⟩
    · rw [List.append_nil] at hwhole
      rw [← hwhole] at hxs
      exact cut_ne_none hsep before [] (by rwa [List.append_nil])
    · have hc : last = c := by
        have := congrArg List.getLast? hwhole
        simpa using this
      exact hys (by simp [hc])
  · exact cut_ne_none hsep before cs hxs

/-- The texts before and after the last occurrence of a character. -/
def cutLast (c : Char) (text : List Char) : Option (List Char × List Char) :=
  if c ∈ text then some ((text.rdropWhile (· ≠ c)).dropLast, text.rtakeWhile (· ≠ c)) else none

theorem cutLast_append {c : Char} (before : List Char) {behind : List Char} (h : c ∉ behind) :
    cutLast c (before ++ c :: behind) = some (before, behind) := by
  have hall : ∀ x ∈ behind, decide (x ≠ c) = true := fun x hx =>
    decide_eq_true fun hxc => h (hxc ▸ hx)
  have hdrop : (before ++ c :: behind).rdropWhile (· ≠ c) = before ++ [c] := by
    rw [show before ++ c :: behind = (before ++ [c]) ++ behind by simp,
      rdropWhile_append_of_forall _ hall, List.rdropWhile_concat_neg _ _ _ (by simp)]
  have htake : (before ++ c :: behind).rtakeWhile (· ≠ c) = behind := by
    have := List.rdropWhile_append_rtakeWhile (p := (· ≠ c)) (l := before ++ c :: behind)
    rw [hdrop] at this
    exact List.append_cancel_left (this.trans (by simp))
  rw [cutLast, if_pos (by simp), hdrop, htake, List.dropLast_concat]

theorem exists_of_mem {c : Char} {text : List Char} (h : c ∈ text) :
    ∃ before behind, text = before ++ c :: behind ∧ c ∉ behind := by
  obtain ⟨as, bs, htext, has⟩ := List.eq_append_cons_of_mem (List.mem_reverse.2 h)
  refine ⟨bs.reverse, as.reverse, ?_, by simpa using has⟩
  rw [← List.reverse_reverse text, htext]
  simp

theorem eq_of_cutLast {c : Char} {text before behind : List Char}
    (h : cutLast c text = some (before, behind)) : text = before ++ c :: behind := by
  by_cases hc : c ∈ text
  · obtain ⟨u, v, rfl, hv⟩ := exists_of_mem hc
    rw [cutLast_append u hv] at h
    cases h
    rfl
  · rw [cutLast, if_neg hc] at h
    cases h

theorem cutLast_of_not_mem {c : Char} {text : List Char} (h : c ∉ text) : cutLast c text = none :=
  if_neg h

theorem rtakeWhile_append_cons {α : Type*} {p : α → Bool} (xs : List α) {x : α} (ys : List α)
    (hx : ¬p x) : (xs ++ x :: ys).rtakeWhile p = ys.rtakeWhile p := by
  have hwhole := List.rdropWhile_append_rtakeWhile (p := p) (l := xs ++ x :: ys)
  have htail := List.rdropWhile_append_rtakeWhile (p := p) (l := ys)
  rw [rdropWhile_append_cons xs ys hx, List.append_assoc, List.append_cancel_left_eq,
    List.cons_append, List.cons.injEq] at hwhole
  exact List.append_cancel_left (hwhole.2.trans htail.symm)

/-- What stands behind the last occurrence does not depend on what stands before another. -/
theorem cutLast_append_cons (c : Char) (xs ys : List Char) :
    ∃ before, cutLast c (xs ++ c :: ys) = some (before, ys.rtakeWhile (· ≠ c)) := by
  rw [cutLast, if_pos (by simp), rtakeWhile_append_cons xs ys (by simp)]
  exact ⟨_, rfl⟩

end Text

end Lightstreamer.Foundations
