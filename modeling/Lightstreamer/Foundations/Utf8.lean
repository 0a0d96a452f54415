import Mathlib.Algebra.Order.Ring.Nat
import Mathlib.Data.List.Basic

/-!
# Where characters start in UTF-8

The encodings of characters are a prefix code (`utf8EncodeChar_append_inj`), and a byte that starts
a character is never found within one. So a text whose encoding holds such a byte has a boundary
there (`exists_boundary`), and a text cannot end inside a character that was written whole
(`eq_nil_of_cut`).
-/

namespace Lightstreamer.Foundations

open String (utf8EncodeChar)

/-- The bytes start with those of a character. -/
def StartsChar (bytes : List UInt8) : Prop := ∃ c rest, bytes = utf8EncodeChar c ++ rest

theorem decodeChar_append (c : Char) (rest : List UInt8) :
    (utf8EncodeChar c ++ rest).toByteArray.utf8DecodeChar? 0 = some c := by
  rw [List.toByteArray_append]
  exact ByteArray.utf8DecodeChar?_utf8EncodeChar_append

theorem exists_of_decodeChar {bytes : List UInt8} {c : Char}
    (h : bytes.toByteArray.utf8DecodeChar? 0 = some c) :
    ∃ rest, bytes = utf8EncodeChar c ++ rest := by
  obtain ⟨l, hl⟩ := ByteArray.exists_of_utf8DecodeChar?_eq_some h
  refine ⟨l.data.toList, ?_⟩
  have hdata := congrArg (fun b : ByteArray => b.data.toList) hl
  simpa only [ByteArray.data_append, Array.toList_append, List.toList_data_toByteArray] using hdata

theorem not_startsChar {bytes : List UInt8} (h : bytes.toByteArray.utf8DecodeChar? 0 = none) :
    ¬StartsChar bytes := by
  rintro ⟨c, rest, rfl⟩
  rw [decodeChar_append] at h
  cases h

theorem utf8EncodeChar_append_inj {c c' : Char} {rest rest' : List UInt8}
    (h : utf8EncodeChar c ++ rest = utf8EncodeChar c' ++ rest') : c = c' ∧ rest = rest' := by
  have hc : some c = some c' := by rw [← decodeChar_append c rest, h, decodeChar_append]
  cases hc
  exact ⟨rfl, List.append_cancel_left h⟩

theorem exists_cons_utf8EncodeChar (c : Char) :
    ∃ first rest, utf8EncodeChar c = first :: rest ∧ first.IsUTF8FirstByte := by
  have hfirst := UInt8.isUTF8FirstByte_getElem_zero_utf8EncodeChar (c := c)
  obtain ⟨first, rest, h⟩ := List.exists_cons_of_ne_nil (String.utf8EncodeChar_ne_nil (c := c))
  refine ⟨first, rest, h, ?_⟩
  simpa only [h, List.getElem_cons_zero] using hfirst

/-- No byte within a character starts one. -/
theorem not_isUTF8FirstByte {c : Char} {b first : UInt8} {p r : List UInt8}
    (h : utf8EncodeChar c = b :: p ++ first :: r) : ¬first.IsUTF8FirstByte := by
  have hlt : p.length + 1 < (utf8EncodeChar c).length := by
    rw [h]
    simp only [List.cons_append, List.length_cons, List.length_append]
    omega
  have hget : (utf8EncodeChar c)[p.length + 1] = first :=
    List.getElem_of_append h (List.length_cons ..)
  intro hfirst
  rw [← hget] at hfirst
  exact Nat.succ_ne_zero _ (UInt8.isUTF8FirstByte_getElem_utf8EncodeChar.mp hfirst)

/-- Where a byte starts a character, a text has a boundary. -/
theorem exists_boundary {text : List Char} {p q : List UInt8} {first : UInt8}
    (h : text.flatMap utf8EncodeChar = p ++ first :: q) (hfirst : first.IsUTF8FirstByte) :
    ∃ before behind, text = before ++ behind ∧ before.flatMap utf8EncodeChar = p ∧
      behind.flatMap utf8EncodeChar = first :: q := by
  induction text generalizing p with
  | nil => exact absurd h.symm (List.append_ne_nil_of_right_ne_nil _ (List.cons_ne_nil _ _))
  | cons c text ih =>
    rcases p with _ | ⟨b, p⟩
    · exact ⟨[], c :: text, rfl, rfl, h⟩
    rw [List.flatMap_cons] at h
    rcases List.append_eq_append_iff.mp h with ⟨p', hp, hq⟩ | ⟨r, hr, hq⟩
    · obtain ⟨before, behind, rfl, hbefore, hbehind⟩ := ih hq
      refine ⟨c :: before, behind, rfl, ?_, hbehind⟩
      rw [List.flatMap_cons, hbefore, hp]
    · rcases r with _ | ⟨first', r⟩
      · refine ⟨[c], text, rfl, ?_, hq.symm⟩
        rw [List.flatMap_singleton, hr, List.append_nil]
      · cases hq
        exact absurd hfirst (not_isUTF8FirstByte hr)

/-- A text that ends with the beginning of a character has all of it. -/
theorem eq_nil_of_cut {text : List Char} {c : Char} {p x y : List UInt8}
    (h : text.flatMap utf8EncodeChar = p ++ x) (hc : utf8EncodeChar c = x ++ y) (hx : x ≠ []) :
    y = [] := by
  obtain ⟨first, rest, hfirst, hbyte⟩ := exists_cons_utf8EncodeChar c
  obtain ⟨x, rfl⟩ : ∃ x', x = first :: x' := by
    rcases x with _ | ⟨b, x⟩
    · exact absurd rfl hx
    · exact ⟨x, by rw [(List.cons.inj (hfirst.symm.trans hc)).1]⟩
  obtain ⟨before, behind, rfl, -, hbehind⟩ := exists_boundary h hbyte
  rcases behind with _ | ⟨c', behind⟩
  · cases hbehind
  · rw [List.flatMap_cons] at hbehind
    rw [← hbehind, List.append_assoc] at hc
    obtain ⟨-, hnil⟩ := utf8EncodeChar_append_inj ((List.append_nil _).trans hc)
    exact (List.append_eq_nil_iff.mp hnil.symm).2

end Lightstreamer.Foundations
