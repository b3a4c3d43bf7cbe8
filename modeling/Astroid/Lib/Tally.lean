import Mathlib

/-!
# Tallies over a log

A log is a list of entries; a tally adds up one quantity over the entries that
satisfy a condition.  The last section splits a tally by key: what a log says
in total is the sum of what it says of each key.
-/

namespace Tally

variable {α κ : Type}

/-- The sum of `f` over the entries of `l` that satisfy `p`. -/
def tally (f : α → ℤ) (p : α → Prop) [DecidablePred p] (l : List α) : ℤ :=
  ((l.filter p).map f).sum

section Basic

variable {f : α → ℤ} {p : α → Prop} [DecidablePred p] {l l' : List α}

@[simp] theorem tally_nil : tally f p [] = 0 := rfl

@[simp] theorem tally_cons (x : α) :
    tally f p (x :: l) = (if p x then f x else 0) + tally f p l := by
  by_cases h : p x <;> simp [tally, h]

@[simp] theorem tally_append : tally f p (l ++ l') = tally f p l + tally f p l' := by
  simp [tally]

theorem tally_nonneg (h : ∀ x ∈ l, p x → 0 ≤ f x) : 0 ≤ tally f p l := by
  refine List.sum_nonneg ?_
  intro y hy
  obtain ⟨x, hx, rfl⟩ := List.mem_map.1 hy
  rw [List.mem_filter] at hx
  exact h x hx.1 (of_decide_eq_true hx.2)

theorem tally_eq_zero (h : ∀ x ∈ l, ¬ p x) : tally f p l = 0 := by
  induction l with
  | nil => rfl
  | cons x l ih =>
      rw [List.forall_mem_cons] at h
      rw [tally_cons, if_neg h.1, ih h.2, add_zero]

/-- Leaving out the condition counts at least as much. -/
theorem tally_le_sum (h : ∀ x ∈ l, 0 ≤ f x) : tally f p l ≤ (l.map f).sum := by
  induction l with
  | nil => exact le_rfl
  | cons x l ih =>
      rw [List.forall_mem_cons] at h
      rw [tally_cons, List.map_cons, List.sum_cons]
      have hx : (if p x then f x else 0) ≤ f x := by
        split
        · exact le_rfl
        · exact h.1
      linarith [ih h.2]

/-- Replacing one entry replaces its contribution. -/
theorem tally_set {i : ℕ} {x y : α} (h : l[i]? = some x) :
    tally f p (l.set i y) =
      tally f p l - (if p x then f x else 0) + (if p y then f y else 0) := by
  induction l generalizing i with
  | nil => simp at h
  | cons z l ih =>
      cases i with
      | zero =>
          rw [List.getElem?_cons_zero, Option.some.injEq] at h
          subst h
          rw [List.set_cons_zero, tally_cons, tally_cons]
          ring
      | succ i =>
          rw [List.getElem?_cons_succ] at h
          rw [List.set_cons_succ, tally_cons, tally_cons, ih h]
          ring

/-- A tally over a filtered log is a tally under both conditions. -/
theorem tally_filter {q : α → Prop} [DecidablePred q] :
    tally f p (l.filter q) = tally f (fun x => q x ∧ p x) l := by
  induction l with
  | nil => rfl
  | cons x l ih =>
      by_cases hq : q x
      · rw [List.filter_cons_of_pos (by simpa using hq), tally_cons, tally_cons, ih]
        simp [hq]
      · rw [List.filter_cons_of_neg (by simpa using hq), tally_cons, ih]
        simp [hq]

/-- Two conditions that exclude each other and together say `p` split its tally. -/
theorem tally_split {q r : α → Prop} [DecidablePred q] [DecidablePred r]
    (hor : ∀ x ∈ l, p x ↔ q x ∨ r x) (hnot : ∀ x ∈ l, q x → ¬ r x) :
    tally f p l = tally f q l + tally f r l := by
  induction l with
  | nil => rfl
  | cons x l ih =>
      rw [List.forall_mem_cons] at hor hnot
      have hx := hnot.1
      rw [tally_cons, tally_cons, tally_cons, ih hor.2 hnot.2]
      by_cases hq : q x
      · simp only [hor.1, hq, hx hq, or_false, if_true, if_false]
        ring
      · simp only [hor.1, hq, false_or, if_false]
        ring

end Basic

/-! ## Splitting a tally by key -/

section Keyed

variable [DecidableEq κ] {f : α → ℤ} {p : α → Prop} [DecidablePred p] {l : List α}

/-- **A tally is the sum of its keys' tallies**, over any set of keys that has
every key the log mentions. -/
theorem sum_tally_key (key : α → κ) (T : Finset κ) (h : ∀ x ∈ l, key x ∈ T) :
    ∑ k ∈ T, tally f (fun x => key x = k ∧ p x) l = tally f p l := by
  induction l with
  | nil => simp
  | cons x l ih =>
      rw [List.forall_mem_cons] at h
      simp only [tally_cons, Finset.sum_add_distrib, ih h.2]
      congr 1
      by_cases hp : p x
      · simp [hp, h.1]
      · simp [hp]

end Keyed

end Tally
