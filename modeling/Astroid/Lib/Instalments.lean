import Mathlib

/-!
# A total in equal instalments

A total is paid in `n` instalments: the floored `n`-th part each time, and whatever is left
with the last one.  Every instalment is positive once the total is at least `n`, and together
they are the total.
-/

namespace Instalments

/-- Instalment `k` of `n`, counted from zero. -/
def instalment (total : ℤ) (n k : ℕ) : ℤ :=
  if k = n - 1 then total - total / n * ↑(n - 1) else total / n

/-- What the first `k` of the `n` instalments pay. -/
def paid (total : ℤ) (n k : ℕ) : List ℤ := (List.range k).map (instalment total n)

variable {total : ℤ} {n k : ℕ}

@[simp] theorem length_paid : (paid total n k).length = k := by
  simp [paid]

theorem paid_succ : paid total n (k + 1) = paid total n k ++ [instalment total n k] := by
  simp [paid, List.range_succ]

theorem instalment_of_lt (h : k < n - 1) : instalment total n k = total / n :=
  if_neg h.ne

theorem instalment_last : instalment total n (n - 1) = total - total / n * ↑(n - 1) :=
  if_pos rfl

/-- The last instalment is at least as large as the others. -/
theorem le_instalment_last (hn : 0 < n) : total / n ≤ instalment total n (n - 1) := by
  have hfloor : total / n * n ≤ total := Int.ediv_mul_le total (by omega)
  have hsplit : total / n * n = total / n * ↑(n - 1) + total / n := by
    have hcast : (n : ℤ) = ↑(n - 1) + 1 := by omega
    calc total / n * n = total / n * (↑(n - 1) + 1) := by rw [← hcast]
      _ = total / n * ↑(n - 1) + total / n := by ring
  rw [instalment_last]
  linarith

/-- No instalment pays less than the floored part. -/
theorem le_instalment (hn : 0 < n) : total / n ≤ instalment total n k := by
  by_cases hlast : k = n - 1
  · subst hlast
    exact le_instalment_last hn
  · exact (if_neg hlast).ge

/-- **Every instalment is positive** where the floored part is. -/
theorem pos_of_mem_paid (hn : 0 < n) (hpart : 0 < total / n) {x : ℤ} (hx : x ∈ paid total n k) :
    0 < x := by
  obtain ⟨j, _, rfl⟩ := List.mem_map.1 hx
  exact hpart.trans_le (le_instalment hn)

/-- Before the last instalment all were equal. -/
theorem sum_paid_of_lt (h : k < n) : (paid total n k).sum = k * (total / n) := by
  induction k with
  | zero => simp [paid]
  | succ k ih =>
      rw [paid_succ, List.sum_append, ih (by omega), List.sum_singleton,
        instalment_of_lt (by omega)]
      push_cast
      ring

/-- **The instalments are the total.** -/
theorem sum_paid (hn : 0 < n) : (paid total n n).sum = total := by
  obtain ⟨m, rfl⟩ := Nat.exists_eq_succ_of_ne_zero hn.ne'
  have hearlier : (paid total (m + 1) m).sum = m * (total / ↑(m + 1)) := sum_paid_of_lt (by omega)
  have hlast : instalment total (m + 1) m = total - total / ↑(m + 1) * ↑m := instalment_last
  rw [Nat.succ_eq_add_one, paid_succ, List.sum_append, hearlier, List.sum_singleton, hlast]
  ring

end Instalments
