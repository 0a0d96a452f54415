import Mathlib.Algebra.Order.Ring.Nat
import Mathlib.Data.List.Basic

/-!
# Machines driven by inputs

A machine is a partial step function `step : σ → ι → Option σ`: a state refuses the inputs that
do not fit it. `exec step s is` feeds a list of inputs. The rules of this module carry a fact
about one step to whole runs:

* `exec_invariant` for an invariant, under a guard on the steps (`Guarded`);
* `exec_history` for a relation between the state and the inputs so far;
* `exec_potential` for a quantity that pays for what the steps cost;
* `exec_balance` for a stock, which is what came in and has not gone out, and `exec_balance_le` for
  one that may lose some;
* `exec_related` for two runs in lockstep;
* `exec_watch` for what a monitor reads off a run;
* `exec_outputs` for what the steps of a run put out.

`Extends P l l'` says that a history grew from `l` to `l'` by entries that satisfy `P`; it
composes along a run (`exec_extends`). `Reads accept l q l' q'` says that what it grew by takes an
acceptor from `q` to `q'`, and `exec_reads` is the simulation of a machine by an acceptor.
-/

namespace Lightstreamer.Foundations

variable {σ τ ι α : Type*}

/-- The state after a list of inputs, if each of them fits the state it meets. -/
def exec (step : σ → ι → Option σ) (s : σ) : List ι → Option σ
  | [] => some s
  | i :: is => (step s i).bind fun s' => exec step s' is

@[simp] theorem exec_nil (step : σ → ι → Option σ) (s : σ) : exec step s [] = some s := rfl

theorem exec_cons (step : σ → ι → Option σ) (s : σ) (i : ι) (is : List ι) :
    exec step s (i :: is) = (step s i).bind fun s' => exec step s' is := rfl

theorem exec_cons_eq_some {step : σ → ι → Option σ} {s s' : σ} {i : ι} {is : List ι} :
    exec step s (i :: is) = some s' ↔ ∃ m, step s i = some m ∧ exec step m is = some s' := by
  simp [exec_cons, Option.bind_eq_some_iff]

theorem exec_append (step : σ → ι → Option σ) (s : σ) (is js : List ι) :
    exec step s (is ++ js) = (exec step s is).bind fun s' => exec step s' js := by
  induction is generalizing s with
  | nil => simp
  | cons i is ih =>
    rw [List.cons_append, exec_cons, exec_cons, Option.bind_assoc]
    congr 1
    funext s'
    exact ih s'

theorem exec_append_eq_some {step : σ → ι → Option σ} {s s' : σ} {is js : List ι} :
    exec step s (is ++ js) = some s' ↔
      ∃ m, exec step s is = some m ∧ exec step m js = some s' := by
  simp [exec_append, Option.bind_eq_some_iff]

/-- Every step of the run meets the guard in the state it is taken from. -/
def Guarded (step : σ → ι → Option σ) (G : σ → ι → Prop) (s : σ) : List ι → Prop
  | [] => True
  | i :: is => G s i ∧ ∀ s', step s i = some s' → Guarded step G s' is

theorem guarded_cons {step : σ → ι → Option σ} {G : σ → ι → Prop} {s : σ} {i : ι} {is : List ι} :
    Guarded step G s (i :: is) ↔ G s i ∧ ∀ s', step s i = some s' → Guarded step G s' is :=
  Iff.rfl

/-- A guard that can be checked on each step can be checked on a run. -/
instance decidableGuarded (step : σ → ι → Option σ) (G : σ → ι → Prop)
    [∀ s i, Decidable (G s i)] (s : σ) : (is : List ι) → Decidable (Guarded step G s is)
  | [] => isTrue trivial
  | i :: is =>
    match h : step s i with
    | none => decidable_of_iff (G s i) (by simp [guarded_cons, h])
    | some s' =>
      have := decidableGuarded step G s' is
      decidable_of_iff (G s i ∧ Guarded step G s' is) (by simp [guarded_cons, h])

/-- The trivial guard holds of every run. -/
theorem guarded_true (step : σ → ι → Option σ) (s : σ) (is : List ι) :
    Guarded step (fun _ _ => True) s is := by
  induction is generalizing s with
  | nil => trivial
  | cons i is ih => exact ⟨trivial, fun s' _ => ih s'⟩

theorem Guarded.mono {step : σ → ι → Option σ} {G H : σ → ι → Prop} {s : σ} {is : List ι}
    (hG : Guarded step G s is) (h : ∀ s i, G s i → H s i) : Guarded step H s is := by
  induction is generalizing s with
  | nil => trivial
  | cons i is ih => exact ⟨h s i hG.1, fun s' hs => ih (hG.2 s' hs)⟩

theorem Guarded.and {step : σ → ι → Option σ} {G H : σ → ι → Prop} {s : σ} {is : List ι}
    (hG : Guarded step G s is) (hH : Guarded step H s is) :
    Guarded step (fun s i => G s i ∧ H s i) s is := by
  induction is generalizing s with
  | nil => trivial
  | cons i is ih => exact ⟨⟨hG.1, hH.1⟩, fun s' hs => ih (hG.2 s' hs) (hH.2 s' hs)⟩

/-- A guarded run meets the guard in the last state it steps from. -/
theorem guarded_append_singleton {step : σ → ι → Option σ} {G : σ → ι → Prop} {s s' : σ}
    {is : List ι} {i : ι} (hG : Guarded step G s (is ++ [i])) (h : exec step s is = some s') :
    Guarded step G s is ∧ G s' i := by
  induction is generalizing s with
  | nil =>
    cases h
    exact ⟨trivial, hG.1⟩
  | cons j is ih =>
    obtain ⟨m, hm, h⟩ := exec_cons_eq_some.1 h
    obtain ⟨his, hi⟩ := ih (hG.2 m hm) h
    refine ⟨⟨hG.1, fun m' hm' => ?_⟩, hi⟩
    rw [hm] at hm'
    cases hm'
    exact his

/-- A guard on the inputs alone. -/
theorem guarded_of_forall_mem {step : σ → ι → Option σ} {G : ι → Prop} {s : σ} {is : List ι}
    (h : ∀ i ∈ is, G i) : Guarded step (fun _ i => G i) s is := by
  induction is generalizing s with
  | nil => trivial
  | cons i is ih =>
    exact ⟨h i List.mem_cons_self, fun s' _ => ih fun j hj => h j (List.mem_cons_of_mem _ hj)⟩

/-- **The invariant rule.** What every guarded step preserves, every guarded run preserves. -/
theorem exec_invariant {step : σ → ι → Option σ} {G : σ → ι → Prop} {I : σ → Prop}
    (hstep : ∀ s i s', I s → G s i → step s i = some s' → I s')
    {s s' : σ} {is : List ι} (hs : I s) (hG : Guarded step G s is)
    (h : exec step s is = some s') : I s' := by
  induction is generalizing s with
  | nil => simpa using (Option.some.inj h) ▸ hs
  | cons i is ih =>
    obtain ⟨m, hm, h⟩ := exec_cons_eq_some.1 h
    exact ih (hstep s i m hs hG.1 hm) (hG.2 m hm) h

/-- **The history rule.** What relates the first state to the empty history, and is kept as the
history grows with each step, relates the last state of a run to its inputs. -/
theorem exec_history {step : σ → ι → Option σ} {R : σ → List ι → Prop}
    (hstep : ∀ q t i q', R q t → step q i = some q' → R q' (t ++ [i]))
    {s s' : σ} {t is : List ι} (hs : R s t) (h : exec step s is = some s') : R s' (t ++ is) := by
  induction is generalizing s t with
  | nil => simpa using (Option.some.inj h) ▸ hs
  | cons i is ih =>
    obtain ⟨m, hm, h⟩ := exec_cons_eq_some.1 h
    rw [List.append_cons]
    exact ih (hstep s t i m hs hm) h

/-- How many steps of a run are of the kind `p`. -/
def countSteps (step : σ → ι → Option σ) (p : σ → ι → Bool) (s : σ) : List ι → ℕ
  | [] => 0
  | i :: is => (if p s i then 1 else 0) + ((step s i).map fun s' => countSteps step p s' is).getD 0

theorem countSteps_cons {step : σ → ι → Option σ} {p : σ → ι → Bool} {s m : σ} {i : ι}
    (is : List ι) (h : step s i = some m) :
    countSteps step p s (i :: is) = (if p s i then 1 else 0) + countSteps step p m is := by
  simp [countSteps, h]

theorem countSteps_eq_zero {step : σ → ι → Option σ} {p : σ → ι → Bool} {s : σ} {is : List ι}
    (h : Guarded step (fun s i => p s i = false) s is) : countSteps step p s is = 0 := by
  induction is generalizing s with
  | nil => rfl
  | cons i is ih =>
    cases hm : step s i with
    | none => simp [countSteps, hm, h.1]
    | some m => rw [countSteps_cons is hm, ih (h.2 m hm), h.1]; rfl

/-- **The potential rule.** When each guarded step pays for its cost out of the potential, and the
steps of the kind `p` are given `c` more to spend, a run costs at most the potential it started
with and what its steps of that kind were given. -/
theorem exec_potential {step : σ → ι → Option σ} {G : σ → ι → Prop} {I : σ → Prop}
    (cost φ : σ → ℕ) (p : σ → ι → Bool) (c : ℕ)
    (hstep : ∀ s i s', I s → G s i → step s i = some s' →
      I s' ∧ cost s' + φ s' ≤ cost s + φ s + if p s i then c else 0)
    {s s' : σ} {is : List ι} (hs : I s) (hG : Guarded step G s is)
    (h : exec step s is = some s') :
    cost s' + φ s' ≤ cost s + φ s + c * countSteps step p s is := by
  induction is generalizing s with
  | nil => exact (Option.some.inj h) ▸ Nat.le_add_right _ _
  | cons i is ih =>
    obtain ⟨m, hm, h⟩ := exec_cons_eq_some.1 h
    obtain ⟨hI, hle⟩ := hstep s i m hs hG.1 hm
    have hrest := ih hI (hG.2 m hm) h
    rw [countSteps_cons is hm, Nat.mul_add]
    split_ifs at hle ⊢ <;> omega

/-- **The balance rule.** When, while `W` holds, each step of the kind `p` adds one to a stock, each
of the kind `q` takes one, and no other step changes it, a run that `W` survives leaves what came in
and has not gone out. -/
theorem exec_balance {step : σ → ι → Option σ} (stock : σ → ℕ) (p q : σ → ι → Bool) {W : σ → Prop}
    (hstep : ∀ s i s', step s i = some s' → W s' → W s ∧
      stock s' + (if q s i then 1 else 0) = stock s + if p s i then 1 else 0)
    {s s' : σ} {is : List ι} (h : exec step s is = some s') (hW : W s') :
    W s ∧ stock s' + countSteps step q s is = stock s + countSteps step p s is := by
  induction is generalizing s with
  | nil =>
    cases h
    exact ⟨hW, rfl⟩
  | cons i is ih =>
    obtain ⟨m, hm, h⟩ := exec_cons_eq_some.1 h
    obtain ⟨hWm, hrest⟩ := ih h
    obtain ⟨hWs, hone⟩ := hstep s i m hm hWm
    rw [countSteps_cons is hm, countSteps_cons is hm]
    exact ⟨hWs, by omega⟩

/-- **The balance rule for a leaky stock.** When no step adds more to a stock than the steps of the
kind `p` bring and those of the kind `q` take, what went out of it and what is left are no more than
what came in. -/
theorem exec_balance_le {step : σ → ι → Option σ} (stock : σ → ℕ) (p q : σ → ι → Bool)
    (hstep : ∀ s i s', step s i = some s' →
      stock s' + (if q s i then 1 else 0) ≤ stock s + if p s i then 1 else 0)
    {s s' : σ} {is : List ι} (h : exec step s is = some s') :
    stock s' + countSteps step q s is ≤ stock s + countSteps step p s is := by
  induction is generalizing s with
  | nil =>
    cases h
    rfl
  | cons i is ih =>
    obtain ⟨m, hm, h⟩ := exec_cons_eq_some.1 h
    have hone := hstep s i m hm
    have hrest := ih h
    rw [countSteps_cons is hm, countSteps_cons is hm]
    omega

/-- **The lockstep rule.** When related states take the same guarded input to related states,
they take the same guarded run to related states, and refuse the same runs. -/
theorem exec_related {step : σ → ι → Option σ} {step' : τ → ι → Option τ}
    {G : σ → ι → Prop} {G' : τ → ι → Prop} {R : σ → τ → Prop}
    (hstep : ∀ s t i, R s t → G s i → G' t i → Option.Rel R (step s i) (step' t i))
    {s : σ} {t : τ} {is : List ι} (hst : R s t) (hG : Guarded step G s is)
    (hG' : Guarded step' G' t is) :
    Option.Rel R (exec step s is) (exec step' t is) := by
  induction is generalizing s t with
  | nil => exact .some hst
  | cons i is ih =>
    rw [exec_cons, exec_cons]
    have h := hstep s t i hst hG.1 hG'.1
    cases hs : step s i with
    | none =>
      rw [hs] at h
      cases ht : step' t i with
      | none => exact .none
      | some t' => rw [ht] at h; cases h
    | some s' =>
      rw [hs] at h
      cases ht : step' t i with
      | none => rw [ht] at h; cases h
      | some t' =>
        rw [ht] at h
        cases h with
        | some h => exact ih h (hG.2 s' hs) (hG'.2 t' ht)

/-! ## Monitors -/

/-- A machine with a monitor beside it, which reads every step the machine takes. -/
def watch {μ : Type*} (step : σ → ι → Option σ) (reads : σ → ι → μ → μ) (p : σ × μ) (i : ι) :
    Option (σ × μ) :=
  (step p.1 i).map fun s' => (s', reads p.1 i p.2)

/-- A monitor follows every run, and changes none. -/
theorem exec_watch {μ : Type*} {step : σ → ι → Option σ} (reads : σ → ι → μ → μ) {s s' : σ}
    (m : μ) {is : List ι} (h : exec step s is = some s') :
    ∃ m', exec (watch step reads) (s, m) is = some (s', m') := by
  induction is generalizing s m with
  | nil => exact ⟨m, by cases h; rfl⟩
  | cons i is ih =>
    obtain ⟨t, ht, h⟩ := exec_cons_eq_some.1 h
    obtain ⟨m', hm'⟩ := ih (reads s i m) h
    exact ⟨m', exec_cons_eq_some.2 ⟨(t, reads s i m), by simp [watch, ht], hm'⟩⟩

/-! ## Outputs -/

/-- What the steps of a run put out, in order. -/
def outputs {β : Type*} (step : σ → ι → Option σ) (out : σ → ι → σ → Option β) (s : σ) :
    List ι → List β
  | [] => []
  | i :: is => ((step s i).map fun s' => (out s i s').toList ++ outputs step out s' is).getD []

theorem outputs_cons {β : Type*} {step : σ → ι → Option σ} {out : σ → ι → σ → Option β} {s m : σ}
    {i : ι} (is : List ι) (h : step s i = some m) :
    outputs step out s (i :: is) = (out s i m).toList ++ outputs step out m is := by
  simp [outputs, h]

/-- **The output rule.** What relates the state to the outputs so far, and is kept as each step adds
its own, relates the last state of a run to all of them. -/
theorem exec_outputs {β : Type*} {step : σ → ι → Option σ} {G : σ → ι → Prop}
    {out : σ → ι → σ → Option β} {R : List β → σ → Prop}
    (hstep : ∀ l s i s', R l s → G s i → step s i = some s' → R (l ++ (out s i s').toList) s')
    {l : List β} {s s' : σ} {is : List ι} (hs : R l s) (hG : Guarded step G s is)
    (h : exec step s is = some s') : R (l ++ outputs step out s is) s' := by
  induction is generalizing l s with
  | nil =>
    cases h
    simpa [outputs] using hs
  | cons i is ih =>
    obtain ⟨m, hm, h⟩ := exec_cons_eq_some.1 h
    rw [outputs_cons is hm, ← List.append_assoc]
    exact ih (hstep l s i m hs hG.1 hm) (hG.2 m hm) h

/-! ## Growing histories -/

/-- The history `l'` is `l` followed by entries that satisfy `P`. -/
def Extends (P : α → Prop) (l l' : List α) : Prop := ∃ t, l' = l ++ t ∧ ∀ a ∈ t, P a

namespace Extends

variable {P Q : α → Prop} {l l' l'' : List α}

@[refl, simp] theorem refl (P : α → Prop) (l : List α) : Extends P l l := ⟨[], by simp⟩

theorem one {a : α} (h : P a) (l : List α) : Extends P l (l ++ [a]) := ⟨[a], rfl, by simpa using h⟩

theorem trans (h : Extends P l l') (h' : Extends P l' l'') : Extends P l l'' := by
  obtain ⟨t, rfl, ht⟩ := h
  obtain ⟨t', rfl, ht'⟩ := h'
  refine ⟨t ++ t', by simp, fun a ha => ?_⟩
  rcases List.mem_append.1 ha with ha | ha
  · exact ht a ha
  · exact ht' a ha

theorem concat {a : α} (h : Extends P l l') (ha : P a) : Extends P l (l' ++ [a]) :=
  h.trans (one ha l')

theorem mono (hPQ : ∀ a, P a → Q a) (h : Extends P l l') : Extends Q l l' := by
  obtain ⟨t, rfl, ht⟩ := h
  exact ⟨t, rfl, fun a ha => hPQ a (ht a ha)⟩

/-- What one more entry preserves, a longer history keeps. -/
theorem invariant {I : List α → Prop} (h : Extends P l l') (hl : I l)
    (hconcat : ∀ l a, P a → I l → I (l ++ [a])) : I l' := by
  obtain ⟨t, rfl, ht⟩ := h
  induction t generalizing l with
  | nil => simpa using hl
  | cons a t ih =>
    have hone : I (l ++ [a]) := hconcat l a (ht a List.mem_cons_self) hl
    rw [List.append_cons]
    exact ih hone fun b hb => ht b (List.mem_cons_of_mem _ hb)

theorem mem {a : α} (h : Extends P l l') (ha : a ∈ l) : a ∈ l' := by
  obtain ⟨t, rfl, -⟩ := h
  exact List.mem_append_left t ha

/-- The new entries satisfy `P`. -/
theorem of_mem_drop (h : Extends P l l') {a : α} (ha : a ∈ l'.drop l.length) : P a := by
  obtain ⟨t, rfl, ht⟩ := h
  exact ht a (by simpa using ha)

/-- A selection of the entries that misses every new entry did not change. -/
theorem filterMap_eq {β : Type*} {f : α → Option β} (h : Extends P l l')
    (hf : ∀ a, P a → f a = none) : l'.filterMap f = l.filterMap f := by
  obtain ⟨t, rfl, ht⟩ := h
  rw [List.filterMap_append, List.filterMap_eq_nil_iff.2 fun a ha => hf a (ht a ha),
    List.append_nil]

theorem filter_eq {p : α → Bool} (h : Extends (fun a => p a = false) l l') :
    l'.filter p = l.filter p := by
  obtain ⟨t, rfl, ht⟩ := h
  have hnone : t.filter p = [] := List.filter_eq_nil_iff.2 fun a ha => by simp [ht a ha]
  rw [List.filter_append, hnone, List.append_nil]

theorem countP_eq {p : α → Bool} (h : Extends (fun a => p a = false) l l') :
    l'.countP p = l.countP p := by
  rw [List.countP_eq_length_filter, List.countP_eq_length_filter, h.filter_eq]

end Extends

/-! ## Acceptors -/

/-- The history `l'` is `l` followed by entries that take the acceptor from `q` to `q'`. -/
def Reads {β : Type*} (accept : β → α → Option β) (l : List α) (q : β) (l' : List α) (q' : β) :
    Prop :=
  ∃ t, l' = l ++ t ∧ exec accept q t = some q'

namespace Reads

variable {β : Type*} {accept : β → α → Option β} {l l' l'' : List α} {q q' q'' : β}

theorem refl (accept : β → α → Option β) (l : List α) (q : β) : Reads accept l q l q :=
  ⟨[], by simp, rfl⟩

theorem one {a : α} (h : accept q a = some q') (l : List α) :
    Reads accept l q (l ++ [a]) q' :=
  ⟨[a], rfl, exec_cons_eq_some.2 ⟨q', h, rfl⟩⟩

theorem trans (h : Reads accept l q l' q') (h' : Reads accept l' q' l'' q'') :
    Reads accept l q l'' q'' := by
  obtain ⟨t, rfl, ht⟩ := h
  obtain ⟨t', rfl, ht'⟩ := h'
  exact ⟨t ++ t', by simp, exec_append_eq_some.2 ⟨q', ht, ht'⟩⟩

theorem concat {a : α} (h : Reads accept l q l' q') (ha : accept q' a = some q'') :
    Reads accept l q (l' ++ [a]) q'' :=
  h.trans (one ha l')

/-- The acceptor passes over entries that leave its state alone. -/
theorem of_extends (h : Extends (fun a => accept q a = some q) l l') : Reads accept l q l' q :=
  h.invariant (I := fun l' => Reads accept l q l' q) (refl accept l q) fun _ _ ha hl => hl.concat ha

end Reads

/-- **The simulation rule.** When each step takes a state that the acceptor's state stands for to
one that it stands for after reading what the step added to the history, so does every run. -/
theorem exec_reads {β : Type*} {step : σ → ι → Option σ} {accept : β → α → Option β}
    (hist : σ → List α) {R : β → σ → Prop}
    (hstep : ∀ q s i s', R q s → step s i = some s' →
      ∃ q', R q' s' ∧ Reads accept (hist s) q (hist s') q')
    {q : β} {s s' : σ} {is : List ι} (hq : R q s) (h : exec step s is = some s') :
    ∃ q', R q' s' ∧ Reads accept (hist s) q (hist s') q' := by
  induction is generalizing q s with
  | nil => exact (Option.some.inj h) ▸ ⟨q, hq, .refl _ _ _⟩
  | cons i is ih =>
    obtain ⟨m, hm, h⟩ := exec_cons_eq_some.1 h
    obtain ⟨qm, hqm, hone⟩ := hstep q s i m hq hm
    obtain ⟨q', hq', hrest⟩ := ih hqm h
    exact ⟨q', hq', hone.trans hrest⟩

/-- Along a guarded run the history grows by what its steps add. -/
theorem exec_extends {step : σ → ι → Option σ} {G : σ → ι → Prop} {I : σ → Prop} {P : α → Prop}
    (hist : σ → List α)
    (hstep : ∀ s i s', I s → G s i → step s i = some s' →
      I s' ∧ Extends P (hist s) (hist s'))
    {s s' : σ} {is : List ι} (hs : I s) (hG : Guarded step G s is)
    (h : exec step s is = some s') : I s' ∧ Extends P (hist s) (hist s') := by
  induction is generalizing s with
  | nil => exact (Option.some.inj h) ▸ ⟨hs, .refl P _⟩
  | cons i is ih =>
    obtain ⟨m, hm, h⟩ := exec_cons_eq_some.1 h
    obtain ⟨hI, hle⟩ := hstep s i m hs hG.1 hm
    obtain ⟨hI', hle'⟩ := ih hI (hG.2 m hm) h
    exact ⟨hI', hle.trans hle'⟩

end Lightstreamer.Foundations
