import Mathlib.Algebra.Order.Ring.Nat
import Mathlib.Data.List.Basic

/-!
# Sources that are pulled

A source is asked for one item at a time (`pull s answers`): it gives the next item, or the end, or
it waits for its surroundings, whose answers it takes in order. A call that waits can be abandoned,
and the next one goes on from what it left.

`Due s answers items` is to say that from the state `s`, with the answers still to come, exactly
`items` are due. When one call keeps it (`Delivers`), any calls do, however many of them are
abandoned. With a queue ahead of the source, items that are put into the queue at any time come
between those of the source, and each of the two keeps its order (`acts_interleaves`).
-/

namespace Lightstreamer.Foundations

variable {σ ρ α : Type*}

/-- A call: the item or the end, none when the answers ran out; the state it leaves; the answers
that it did not take. -/
abbrev Pull (σ ρ α : Type*) := σ → List ρ → Option (Option α) × σ × List ρ

/-- **One call keeps what is due.** It gives the first item due, or the end when there is none; a
call that is abandoned leaves all of them. -/
def Delivers (pull : Pull σ ρ α) (Due : σ → List ρ → List α → Prop) : Prop :=
  ∀ s answers later items, Due s (answers ++ later) items →
    (∃ s' answers', pull s answers = (some items.head?, s', answers') ∧
      Due s' (answers' ++ later) items.tail) ∨
    ∃ s' answers', pull s answers = (none, s', answers') ∧ Due s' (answers' ++ later) items

/-- A call that is given every answer comes to an end. -/
def Ends (pull : Pull σ ρ α) (Due : σ → List ρ → List α → Prop) : Prop :=
  ∀ s answers items, Due s answers items → (pull s answers).1 ≠ none

variable {pull : Pull σ ρ α} {Due : σ → List ρ → List α → Prop} {s : σ} {answers : List ρ}
  {items : List α}

/-! ## Results of a source that can be given up -/

/-- The results are a first part of the items, in order, and then the end. -/
def Deals (results : List (Option α)) (items : List α) : Prop :=
  ∃ part, part <+: items ∧ ∀ (i : ℕ) result, results[i]? = some result → result = part[i]?

theorem deals_nil (items : List α) : Deals [] items := ⟨[], List.nil_prefix, by simp⟩

theorem Deals.eq_none_of_nil {results : List (Option α)} (h : Deals results ([] : List α))
    {result : Option α} (hmem : result ∈ results) : result = none := by
  obtain ⟨part, hpart, hresults⟩ := h
  obtain rfl := List.prefix_nil.1 hpart
  obtain ⟨i, hi⟩ := List.mem_iff_getElem?.1 hmem
  exact hresults i result hi

theorem Deals.mono {results : List (Option α)} {more : List α} (h : Deals results items)
    (hmore : items <+: more) : Deals results more := by
  obtain ⟨part, hpart, hresults⟩ := h
  exact ⟨part, hpart.trans hmore, hresults⟩

theorem Deals.cons {results : List (Option α)} (h : Deals results items.tail) :
    Deals (items.head? :: results) items := by
  obtain ⟨part, hpart, hresults⟩ := h
  cases items with
  | nil =>
    obtain rfl := List.prefix_nil.1 hpart
    refine ⟨[], List.nil_prefix, fun i result hi => ?_⟩
    cases i with
    | zero => simpa using hi.symm
    | succ i => exact hresults i result (by simpa using hi)
  | cons item items =>
    refine ⟨item :: part, List.cons_prefix_cons.2 ⟨rfl, hpart⟩, fun i result hi => ?_⟩
    cases i with
    | zero => simpa using hi.symm
    | succ i => exact hresults i result (by simpa using hi)

/-! ## A queue ahead of a source -/

/-- The third list deals out the first two, each in its order. -/
inductive Interleaves {β : Type*} : List β → List β → List β → Prop
  | nil : Interleaves [] [] []
  | left {x : β} {xs ys zs : List β} (h : Interleaves xs ys zs) : Interleaves (x :: xs) ys (x :: zs)
  | right {y : β} {xs ys zs : List β} (h : Interleaves xs ys zs) :
      Interleaves xs (y :: ys) (y :: zs)

/-- The items of the queue first. -/
def pullBehind (pull : Pull σ ρ α) : Pull (List α × σ) ρ α
  | (item :: queue, s), answers => (some (some item), (queue, s), answers)
  | ([], s), answers =>
    ((pull s answers).1, ([], (pull s answers).2.1), (pull s answers).2.2)

/-- What the owner of a source behind a queue does. -/
inductive Act (α : Type*)
  | put (more : List α)
  | pull (patience : ℕ)

/-- The items that an act puts into the queue. -/
def Act.added : Act α → List α
  | .put more => more
  | .pull _ => []

/-- How many calls an act makes. -/
def Act.calls : Act α → ℕ
  | .put _ => 0
  | .pull _ => 1

/-- One act after the other: what the calls gave that came to an end, the state and the answers that
were not taken. -/
def acts (pull : Pull σ ρ α) (s : List α × σ) (answers : List ρ) :
    List (Act α) → List (Option α) × (List α × σ) × List ρ
  | [] => ([], s, answers)
  | .put more :: todo => acts pull (s.1 ++ more, s.2) answers todo
  | .pull n :: todo =>
    let call := pullBehind pull s (answers.take n)
    let rest := acts pull call.2.1 (call.2.2 ++ answers.drop n) todo
    (call.1.toList ++ rest.1, rest.2)

/-- **Queued items come between those of the source**: the calls give the items that were put, in
their order, and the items due from the source, in theirs, and nothing else; what is left of the
queue is what they did not give. -/
theorem acts_interleaves (h : Delivers pull Due) (hdue : Due s answers items) (queue : List α)
    (todo : List (Act α)) : ∃ queued streamed,
      Interleaves (queued.map some) streamed (acts pull (queue, s) answers todo).1 ∧
      queued ++ (acts pull (queue, s) answers todo).2.1.1 = queue ++ todo.flatMap Act.added ∧
      ∀ (i : ℕ) result, streamed[i]? = some result → result = items[i]? := by
  induction todo generalizing s queue answers items with
  | nil => exact ⟨[], [], .nil, by simp [acts], by simp⟩
  | cons act todo ih =>
    cases act with
    | put more =>
      obtain ⟨queued, streamed, hmerge, hqueue, hitems⟩ := ih hdue (queue ++ more)
      exact ⟨queued, streamed, hmerge, by rw [acts, hqueue]; simp [Act.added], hitems⟩
    | pull n =>
      cases queue with
      | cons item queue =>
        obtain ⟨queued, streamed, hmerge, hqueue, hitems⟩ := ih hdue queue
        refine ⟨item :: queued, streamed, ?_, ?_, hitems⟩ <;>
          simp only [acts, pullBehind, Option.toList_some, List.singleton_append,
            List.take_append_drop]
        · exact .left hmerge
        · rw [List.cons_append, hqueue]
          rfl
      | nil =>
        have hcut := hdue
        rw [← List.take_append_drop n answers] at hcut
        obtain ⟨s', answers', hcall, hdue'⟩ | ⟨s', answers', hcall, hdue'⟩ := h _ _ _ _ hcut
        · obtain ⟨queued, streamed, hmerge, hqueue, hitems⟩ := ih hdue' []
          refine ⟨queued, items.head? :: streamed, ?_, ?_, ?_⟩
          · simp only [acts, pullBehind, hcall, Option.toList_some, List.singleton_append]
            exact .right hmerge
          · simp only [acts, pullBehind, hcall]
            exact hqueue
          · intro i result hi
            cases i with
            | zero => cases items <;> simpa using hi.symm
            | succ i =>
              have := hitems i result (by simpa using hi)
              rw [this, List.getElem?_tail]
        · obtain ⟨queued, streamed, hmerge, hqueue, hitems⟩ := ih hdue' []
          refine ⟨queued, streamed, ?_, ?_, hitems⟩ <;>
            simp only [acts, pullBehind, hcall, Option.toList_none, List.nil_append]
          · exact hmerge
          · exact hqueue

/-- **Calls that are given every answer come to an end.** -/
theorem acts_length (h : Delivers pull Due) (hends : Ends pull Due) (hdue : Due s answers items)
    (queue : List α) {todo : List (Act α)} (hpatience : ∀ n, .pull n ∈ todo → answers.length ≤ n)
    (hshrinks : ∀ s answers, (pull s answers).2.2.length ≤ answers.length) :
    (acts pull (queue, s) answers todo).1.length = (todo.map Act.calls).sum := by
  induction todo generalizing s queue answers items with
  | nil => rfl
  | cons act todo ih =>
    have htail : ∀ n, .pull n ∈ todo → answers.length ≤ n := fun n hn =>
      hpatience n (List.mem_cons_of_mem _ hn)
    cases act with
    | put more => simpa [acts, Act.calls] using ih hdue (queue ++ more) htail
    | pull n =>
      have hn := hpatience n List.mem_cons_self
      cases queue with
      | cons item queue =>
        have := ih hdue queue htail
        simp only [acts, pullBehind, Option.toList_some, List.singleton_append,
          List.take_append_drop, List.length_cons, List.map_cons, Act.calls, List.sum_cons]
        omega
      | nil =>
        have hend := hends _ _ _ hdue
        have hle := hshrinks s answers
        have hcut := hdue
        rw [← List.append_nil answers] at hcut
        obtain ⟨s', answers', hcall, hdue'⟩ | ⟨s', answers', hcall, -⟩ := h _ _ _ _ hcut
        · rw [hcall] at hle
          have := ih hdue' [] fun m hm => by
            have := htail m hm
            rw [List.append_nil]
            exact hle.trans this
          simp only [acts, pullBehind, List.take_of_length_le hn, List.drop_of_length_le hn, hcall,
            Option.toList_some, List.singleton_append, List.length_cons, List.map_cons, Act.calls,
            List.sum_cons]
          omega
        · rw [hcall] at hend
          exact absurd rfl hend

end Lightstreamer.Foundations
