import Mathlib.Data.List.Basic
import Mathlib.Data.List.InsertIdx
import Mathlib.Data.List.Pairwise
import Mathlib.Data.List.Perm.Basic
import Mathlib.Order.Lattice

/-!
# Finite maps sorted by key

A finite map is the list of its bindings in strictly increasing key order, so that two maps with
the same bindings are equal and a traversal meets the keys in order. Every operation is
structurally recursive and evaluates in the kernel. The lookup after each operation is a simp
lemma; `OrdMap.ext_get?` is extensionality.
-/

namespace Lightstreamer.Foundations

/-- A finite map: its bindings in increasing key order. -/
structure OrdMap (κ β : Type*) [LinearOrder κ] where
  toList : List (κ × β)
  sorted : toList.Pairwise fun a b => a.1 < b.1
  deriving DecidableEq

namespace OrdMap

variable {κ β γ : Type*} [LinearOrder κ]

/-- The map with no binding. -/
def empty : OrdMap κ β := ⟨[], .nil⟩

instance : Inhabited (OrdMap κ β) := ⟨empty⟩

/-- The value bound to `k`. -/
def get? (m : OrdMap κ β) (k : κ) : Option β :=
  (m.toList.find? fun p => p.1 = k).map Prod.snd

/-- The keys in increasing order. -/
def keys (m : OrdMap κ β) : List κ := m.toList.map Prod.fst

theorem mem_toList_iff {m : OrdMap κ β} {k : κ} {v : β} :
    (k, v) ∈ m.toList ↔ m.get? k = some v := by
  obtain ⟨l, hl⟩ := m
  simp only [get?]
  induction l with
  | nil => simp
  | cons p l ih =>
    obtain ⟨hp, hl⟩ := List.pairwise_cons.1 hl
    by_cases hk : p.1 = k
    · subst hk
      simp only [List.mem_cons, List.find?_cons, decide_true, Option.map_some, Option.some.injEq]
      constructor
      · rintro (h | h)
        · rw [← h]
        · exact absurd (hp _ h) (lt_irrefl _)
      · rintro rfl
        exact .inl rfl
    · simp only [List.mem_cons, List.find?_cons, hk, decide_false]
      rw [← ih hl]
      exact or_iff_right fun h => hk (by rw [← h])

theorem mem_keys_iff {m : OrdMap κ β} {k : κ} : k ∈ m.keys ↔ ∃ v, m.get? k = some v := by
  simp only [keys, List.mem_map, Prod.exists, mem_toList_iff, exists_and_right, exists_eq_right]

/-- Two maps with the same bindings are equal. -/
theorem ext_get? {m n : OrdMap κ β} (h : ∀ k, m.get? k = n.get? k) : m = n := by
  have hmem : ∀ p, p ∈ m.toList ↔ p ∈ n.toList := fun ⟨k, v⟩ => by
    rw [mem_toList_iff, mem_toList_iff, h]
  obtain ⟨l, hl⟩ := m
  obtain ⟨l', hl'⟩ := n
  congr 1
  refine List.Perm.eq_of_pairwise
    (fun a b _ _ (hab : a.1 < b.1) hba => absurd hab (lt_asymm hba)) hl hl' ?_
  have hnd : ∀ {l : List (κ × β)}, l.Pairwise (fun a b => a.1 < b.1) → l.Nodup := fun hl =>
    hl.imp fun hab heq => absurd (heq ▸ hab) (lt_irrefl _)
  exact (List.perm_ext_iff_of_nodup (hnd hl) (hnd hl')).2 hmem

@[simp] theorem get?_empty (k : κ) : (empty : OrdMap κ β).get? k = none := rfl

/-! ## Insertion -/

/-- Insert a binding into a sorted list, over an older binding of the key. -/
def insertList (k : κ) (v : β) : List (κ × β) → List (κ × β)
  | [] => [(k, v)]
  | p :: l => if k < p.1 then (k, v) :: p :: l
    else if p.1 < k then p :: insertList k v l
    else (k, v) :: l

theorem mem_insertList {k : κ} {v : β} {l : List (κ × β)} (hl : l.Pairwise fun a b => a.1 < b.1)
    {p : κ × β} : p ∈ insertList k v l ↔ p = (k, v) ∨ p ∈ l ∧ p.1 ≠ k := by
  induction l with
  | nil => simp [insertList]
  | cons q l ih =>
    obtain ⟨hq, hl'⟩ := List.pairwise_cons.1 hl
    rw [insertList]
    split_ifs with h₁ h₂
    · have hne : ∀ r ∈ q :: l, r.1 ≠ k := fun r hr => by
        rcases List.mem_cons.1 hr with rfl | hr
        · exact h₁.ne'
        · exact (h₁.trans (hq r hr)).ne'
      rw [List.mem_cons]
      exact or_congr_right ⟨fun h => ⟨h, hne p h⟩, fun h => h.1⟩
    · rw [List.mem_cons, List.mem_cons, ih hl']
      have hne : p = q → p.1 ≠ k := fun h => h ▸ h₂.ne
      tauto
    · have hk : q.1 = k := le_antisymm (not_lt.1 h₁) (not_lt.1 h₂)
      have hne : p ∈ l → p.1 ≠ k := fun h => hk ▸ (hq p h).ne'
      have hq' : p = q → ¬p.1 ≠ k := fun h hne => hne (h ▸ hk)
      rw [List.mem_cons, List.mem_cons]
      tauto

theorem sorted_insertList (k : κ) (v : β) {l : List (κ × β)}
    (hl : l.Pairwise fun a b => a.1 < b.1) :
    (insertList k v l).Pairwise fun a b => a.1 < b.1 := by
  induction l with
  | nil => simp [insertList]
  | cons p l ih =>
    obtain ⟨hp, hl'⟩ := List.pairwise_cons.1 hl
    rw [insertList]
    split_ifs with h₁ h₂
    · refine List.pairwise_cons.2 ⟨fun q hq => ?_, hl⟩
      rcases List.mem_cons.1 hq with rfl | hq
      · exact h₁
      · exact h₁.trans (hp q hq)
    · refine List.pairwise_cons.2 ⟨fun q hq => ?_, ih hl'⟩
      rcases (mem_insertList hl').1 hq with rfl | hq
      · exact h₂
      · exact hp q hq.1
    · have hk : p.1 = k := le_antisymm (not_lt.1 h₁) (not_lt.1 h₂)
      exact List.pairwise_cons.2 ⟨fun q hq => hk ▸ hp q hq, hl'⟩

/-- Bind `k` to `v`. -/
def insert (m : OrdMap κ β) (k : κ) (v : β) : OrdMap κ β :=
  ⟨insertList k v m.toList, sorted_insertList k v m.sorted⟩

@[simp] theorem get?_insert (m : OrdMap κ β) (k k' : κ) (v : β) :
    (m.insert k v).get? k' = if k' = k then some v else m.get? k' := by
  ext w
  rw [← mem_toList_iff, insert, mem_insertList m.sorted, Prod.mk.injEq, mem_toList_iff]
  by_cases h : k' = k <;> simp [h, eq_comm]

/-! ## Selection -/

/-- Keep the bindings that satisfy `p`. -/
def filter (m : OrdMap κ β) (p : κ → β → Bool) : OrdMap κ β :=
  ⟨m.toList.filter fun b => p b.1 b.2, m.sorted.filter _⟩

@[simp] theorem get?_filter (m : OrdMap κ β) (p : κ → β → Bool) (k : κ) :
    (m.filter p).get? k = (m.get? k).filter (p k) := by
  ext v
  rw [← mem_toList_iff, filter, List.mem_filter, mem_toList_iff, Option.filter_eq_some_iff]

/-- Remove the binding of `k`. -/
def erase (m : OrdMap κ β) (k : κ) : OrdMap κ β := m.filter fun k' _ => k' ≠ k

@[simp] theorem get?_erase (m : OrdMap κ β) (k k' : κ) :
    (m.erase k).get? k' = if k' = k then none else m.get? k' := by
  rw [erase, get?_filter]
  by_cases h : k' = k <;> cases hm : m.get? k' <;> simp [h]

/-- What a removal leaves was there before it. -/
theorem get?_of_erase {m : OrdMap κ β} {k k' : κ} {v : β} (h : (m.erase k).get? k' = some v) :
    m.get? k' = some v := by
  rw [get?_erase] at h
  split_ifs at h
  exact h

/-! ## Images -/

/-- Apply `f` to every value. -/
def mapVal (m : OrdMap κ β) (f : κ → β → γ) : OrdMap κ γ :=
  ⟨m.toList.map fun b => (b.1, f b.1 b.2), List.pairwise_map.2 m.sorted⟩

@[simp] theorem get?_mapVal (m : OrdMap κ β) (f : κ → β → γ) (k : κ) :
    (m.mapVal f).get? k = (m.get? k).map (f k) := by
  ext v
  rw [← mem_toList_iff, mapVal, List.mem_map]
  simp only [Prod.exists, Prod.mk.injEq, mem_toList_iff, Option.map_eq_some_iff]
  constructor
  · rintro ⟨k', w, h, rfl, rfl⟩
    exact ⟨w, h, rfl⟩
  · rintro ⟨w, h, rfl⟩
    exact ⟨k, w, h, rfl, rfl⟩

/-- Apply `f` to the value of `k`, if there is one. -/
def modify (m : OrdMap κ β) (k : κ) (f : β → β) : OrdMap κ β :=
  m.mapVal fun k' v => if k' = k then f v else v

@[simp] theorem get?_modify (m : OrdMap κ β) (k k' : κ) (f : β → β) :
    (m.modify k f).get? k' = if k' = k then (m.get? k').map f else m.get? k' := by
  rw [modify, get?_mapVal]
  by_cases h : k' = k <;> simp [h]

/-- What a change leaves is what it made of the one value, or another that was there before it. -/
theorem get?_of_modify {m : OrdMap κ β} {k k' : κ} {f : β → β} {v' : β}
    (h : (m.modify k f).get? k' = some v') :
    (k' = k ∧ ∃ v, m.get? k = some v ∧ f v = v') ∨ m.get? k' = some v' := by
  rw [get?_modify] at h
  split_ifs at h with hk
  · subst hk
    exact .inl ⟨rfl, Option.map_eq_some_iff.mp h⟩
  · exact .inr h

/-- A binding just made and removed leaves a map without the key as it was. -/
theorem erase_insert {m : OrdMap κ β} {k : κ} (v : β) (h : m.get? k = none) :
    (m.insert k v).erase k = m :=
  ext_get? fun k' => by
    by_cases hk : k' = k <;> simp [hk, h]

/-- A property that one binding alone has is counted once. -/
theorem countP_toList_eq_one {m : OrdMap κ β} {p : κ × β → Bool} {k : κ} {v : β}
    (h : m.get? k = some v) (hp : p (k, v) = true)
    (honly : ∀ k' v', m.get? k' = some v' → p (k', v') = true → k' = k) :
    m.toList.countP p = 1 := by
  have hnodup : m.toList.Nodup := m.sorted.imp fun hab heq => absurd (heq ▸ hab) (lt_irrefl _)
  have hperm : (m.toList.filter p).Perm [(k, v)] := by
    rw [List.perm_ext_iff_of_nodup (hnodup.filter p) (by simp)]
    rintro ⟨k', v'⟩
    rw [List.mem_filter, mem_toList_iff, List.mem_singleton]
    constructor
    · rintro ⟨hk, hp'⟩
      obtain rfl := honly k' v' hk hp'
      rw [Option.some.inj (hk.symm.trans h)]
    · rintro ⟨⟩
      exact ⟨h, hp⟩
  rw [List.countP_eq_length_filter, hperm.length_eq, List.length_singleton]

/-- Bindings of a map under its keys, in their order, are the map. -/
theorem eq_toList {m : OrdMap κ β} {l : List (κ × β)} (hkeys : l.map Prod.fst = m.keys)
    (hget : ∀ p ∈ l, m.get? p.1 = some p.2) : l = m.toList := by
  have hlookup : ∀ {l : List (κ × β)}, (∀ p ∈ l, m.get? p.1 = some p.2) →
      l.map (Prod.map id some) = (l.map Prod.fst).map fun k => (k, m.get? k) := by
    intro l hl
    rw [List.map_map]
    refine List.map_congr_left fun p hp => ?_
    rw [Function.comp_apply, hl p hp]
    rfl
  have hmap : l.map (Prod.map id some) = m.toList.map (Prod.map id some) := by
    rw [hlookup hget, hlookup fun p hp => mem_toList_iff.1 hp, hkeys, keys]
  refine List.map_injective_iff.2 (fun p q h => ?_) hmap
  rw [Prod.map, Prod.map, Prod.mk.injEq, Option.some.injEq] at h
  exact Prod.ext h.1 h.2

theorem sorted_keys (m : OrdMap κ β) : m.keys.Pairwise (· < ·) := by
  rw [keys, List.pairwise_map]
  exact m.sorted

theorem nodup_keys (m : OrdMap κ β) : m.keys.Nodup :=
  m.sorted_keys.imp fun h => h.ne

end OrdMap

/-! ## Traversals in an unspecified order -/

/-- The list in the order that the picks name: each pick is a position among what is left. Every
order is one of some picks. -/
def arrange {α : Type*} : List ℕ → List α → List α
  | [], l => l
  | i :: is, l =>
    match l[i]? with
    | some a => a :: arrange is (l.eraseIdx i)
    | none => l

theorem arrange_perm {α : Type*} (picks : List ℕ) (l : List α) : (arrange picks l).Perm l := by
  induction picks generalizing l with
  | nil => exact .refl l
  | cons i is ih =>
    rw [arrange]
    split
    · rename_i a ha
      obtain ⟨hi, rfl⟩ := List.getElem?_eq_some_iff.1 ha
      exact ((ih _).cons _).trans (List.getElem_cons_eraseIdx_perm hi)
    · exact .refl l

theorem arrange_map {α β : Type*} (f : α → β) (picks : List ℕ) (l : List α) :
    arrange picks (l.map f) = (arrange picks l).map f := by
  induction picks generalizing l with
  | nil => rfl
  | cons i is ih =>
    rw [arrange, arrange, List.getElem?_map]
    cases h : l[i]? with
    | none => rfl
    | some a =>
      simp only [Option.map_some, List.map_cons]
      rw [← ih, List.eraseIdx_map]

end Lightstreamer.Foundations
