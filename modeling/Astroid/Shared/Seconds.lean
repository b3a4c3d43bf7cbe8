import Astroid.Shared.Math

/-!
# Seconds

Ledger times and durations that a contract keeps in `u64` fields, as natural numbers: a
sum or a product is checked where the source checks it.
-/

namespace Astroid

/-- A result that must be a `u64`. -/
def orOverflowU64 (n : ℕ) : Result ℕ := if n < 2 ^ 64 then .ok n else .error (.error .overflow)

/-- `u64::checked_add`. -/
def addSeconds (a b : ℕ) : Result ℕ := orOverflowU64 (a + b)

/-- `u64::checked_mul`. -/
def mulSeconds (a b : ℕ) : Result ℕ := orOverflowU64 (a * b)

section Rules

variable {a b c : ℕ}

@[simp] theorem orOverflowU64_eq_ok : orOverflowU64 a = .ok c ↔ a < 2 ^ 64 ∧ a = c := by
  unfold orOverflowU64
  split <;> simp_all

@[simp] theorem addSeconds_eq_ok : addSeconds a b = .ok c ↔ a + b < 2 ^ 64 ∧ a + b = c :=
  orOverflowU64_eq_ok

@[simp] theorem mulSeconds_eq_ok : mulSeconds a b = .ok c ↔ a * b < 2 ^ 64 ∧ a * b = c :=
  orOverflowU64_eq_ok

end Rules

end Astroid
