import Mathlib.Algebra.Order.Ring.Nat
import Mathlib.Data.List.Basic
import Mathlib.Data.List.Infix

/-!
# Sequences cut at a separator

A sequence is a run of segments, each closed by a separator, and a last one that is still open.
`closed` lists the closed segments and `opened` is the open one, both read off `List.splitOn`. A
reader that keeps the open segment and scans what arrives next sees the same segments however the
sequence is cut: `closed_append` and `opened_append`.
-/

namespace Lightstreamer.Foundations

namespace Segments

variable {α : Type*} [BEq α] [LawfulBEq α] {sep : α}

/-- The segments closed by a separator. -/
def closed (sep : α) (xs : List α) : List (List α) := (xs.splitOn sep).dropLast

/-- What follows the last separator. -/
def opened (sep : α) (xs : List α) : List α :=
  (xs.splitOn sep).getLast (List.splitOn_ne_nil sep xs)

omit [LawfulBEq α] in
theorem closed_append_opened (sep : α) (xs : List α) :
    closed sep xs ++ [opened sep xs] = xs.splitOn sep :=
  List.dropLast_append_getLast _

theorem closed_of_not_mem {xs : List α} (h : sep ∉ xs) : closed sep xs = [] := by
  rw [closed, List.splitOn_eq_singleton h, List.dropLast_singleton]

theorem opened_of_not_mem {xs : List α} (h : sep ∉ xs) : opened sep xs = xs := by
  simp only [opened, List.splitOn_eq_singleton h, List.getLast_singleton]

theorem closed_append_cons (xs ys : List α) :
    closed sep (xs ++ sep :: ys) = xs.splitOn sep ++ closed sep ys := by
  rw [closed, List.splitOn_append_cons_self,
    List.dropLast_append_of_ne_nil (List.splitOn_ne_nil sep ys), closed]

theorem opened_append_cons (xs ys : List α) : opened sep (xs ++ sep :: ys) = opened sep ys := by
  simp only [opened, List.splitOn_append_cons_self]
  exact List.getLast_append_of_ne_nil _ (List.splitOn_ne_nil sep ys)

/-- The last separator, if there is one. -/
theorem cut_last (sep : α) (xs : List α) :
    sep ∉ xs ∨ ∃ ys zs, xs = ys ++ sep :: zs ∧ sep ∉ zs := by
  by_cases h : sep ∈ xs
  · obtain ⟨zs, ys, hxs, hzs⟩ := List.eq_append_cons_of_mem (List.mem_reverse.2 h)
    refine .inr ⟨ys.reverse, zs.reverse, ?_, fun hmem => hzs (List.mem_reverse.1 hmem)⟩
    rw [← List.reverse_reverse xs, hxs]
    simp only [List.reverse_append, List.reverse_cons, List.append_assoc, List.singleton_append]
  · exact .inl h

theorem not_mem_opened (sep : α) (xs : List α) : sep ∉ opened sep xs := by
  obtain h | ⟨ys, zs, rfl, h⟩ := cut_last sep xs
  · rwa [opened_of_not_mem h]
  · rwa [opened_append_cons, opened_of_not_mem h]

theorem opened_suffix (sep : α) (xs : List α) : opened sep xs <:+ xs := by
  obtain h | ⟨ys, zs, rfl, h⟩ := cut_last sep xs
  · rw [opened_of_not_mem h]
  · rw [opened_append_cons, opened_of_not_mem h]
    exact (List.suffix_cons sep zs).trans (List.suffix_append ys _)

/-- A reader that keeps the open segment finds the later segments closed. -/
theorem closed_append (xs ys : List α) :
    closed sep (xs ++ ys) = closed sep xs ++ closed sep (opened sep xs ++ ys) := by
  obtain h | ⟨us, zs, rfl, h⟩ := cut_last sep xs
  · rw [closed_of_not_mem h, opened_of_not_mem h, List.nil_append]
  · rw [List.append_assoc, List.cons_append, closed_append_cons, closed_append_cons,
      opened_append_cons, closed_of_not_mem h, opened_of_not_mem h, List.append_nil]

theorem opened_append (xs ys : List α) :
    opened sep (xs ++ ys) = opened sep (opened sep xs ++ ys) := by
  obtain h | ⟨us, zs, rfl, h⟩ := cut_last sep xs
  · rw [opened_of_not_mem h]
  · rw [List.append_assoc, List.cons_append, opened_append_cons, opened_append_cons,
      opened_of_not_mem h]

/-- A first segment found by a search from the left. -/
theorem closed_cons_of_not_mem {xs : List α} (ys : List α) (h : sep ∉ xs) :
    closed sep (xs ++ sep :: ys) = xs :: closed sep ys := by
  rw [closed_append_cons, List.splitOn_eq_singleton h, List.singleton_append]

end Segments

end Lightstreamer.Foundations
