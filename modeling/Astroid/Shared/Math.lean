import Astroid.Shared.Types

/-!
# Checked arithmetic

`shared/src/math.rs`: `i128` arithmetic that reports `Overflow` instead of
wrapping, and the casts between `u64` and `i128`.  An `i128` is an integer with
a range condition, a `u64` is a `UInt64`.

Each operation has one rule that says when it returns and what
(`checkedAdd_eq_ok` and so on); nothing below unfolds it again.
-/

namespace Astroid

def i128Min : ℤ := -2 ^ 127
def i128Max : ℤ := 2 ^ 127 - 1

/-- The values an `i128` can represent. -/
def IsI128 (x : ℤ) : Prop := i128Min ≤ x ∧ x ≤ i128Max

instance (x : ℤ) : Decidable (IsI128 x) := inferInstanceAs (Decidable (_ ∧ _))

/-- A result that must be representable. -/
def orOverflow (x : ℤ) : Result ℤ := if IsI128 x then .ok x else .error (.error .overflow)

def checkedAdd (a b : ℤ) : Result ℤ := orOverflow (a + b)

def checkedSub (a b : ℤ) : Result ℤ := orOverflow (a - b)

def checkedMul (a b : ℤ) : Result ℤ := orOverflow (a * b)

/-- Division truncates towards zero. -/
def checkedDiv (a b : ℤ) : Result ℤ :=
  if b = 0 then .error (.error .invalidInput) else orOverflow (a.tdiv b)

/-- A checked addition of `u32` counts. -/
def checkedCount (a b : ℕ) : Result ℕ :=
  if a + b < 2 ^ 32 then .ok (a + b) else .error (.error .overflow)

/-- `require_positive_amount`. -/
def requirePositiveAmount (amount : ℤ) : Result Unit := require (0 < amount) .invalidAmount

/-- `require_non_negative_amount`. -/
def requireNonNegativeAmount (amount : ℤ) : Result Unit := require (0 ≤ amount) .invalidAmount

section Rules

variable {a b c : ℤ}

@[simp] theorem orOverflow_eq_ok : orOverflow a = .ok c ↔ IsI128 a ∧ a = c := by
  unfold orOverflow
  split <;> simp_all

@[simp] theorem checkedCount_eq_ok {m n k : ℕ} :
    checkedCount m n = .ok k ↔ m + n < 2 ^ 32 ∧ m + n = k := by
  unfold checkedCount
  split <;> simp_all

@[simp] theorem checkedAdd_eq_ok : checkedAdd a b = .ok c ↔ IsI128 (a + b) ∧ a + b = c :=
  orOverflow_eq_ok

@[simp] theorem checkedSub_eq_ok : checkedSub a b = .ok c ↔ IsI128 (a - b) ∧ a - b = c :=
  orOverflow_eq_ok

@[simp] theorem checkedMul_eq_ok : checkedMul a b = .ok c ↔ IsI128 (a * b) ∧ a * b = c :=
  orOverflow_eq_ok

@[simp] theorem checkedDiv_eq_ok :
    checkedDiv a b = .ok c ↔ b ≠ 0 ∧ IsI128 (a.tdiv b) ∧ a.tdiv b = c := by
  unfold checkedDiv
  by_cases h : b = 0 <;> simp [h]

@[simp] theorem requirePositiveAmount_eq_ok {u : Unit} :
    requirePositiveAmount a = .ok u ↔ 0 < a :=
  require_eq_ok

@[simp] theorem requireNonNegativeAmount_eq_ok {u : Unit} :
    requireNonNegativeAmount a = .ok u ↔ 0 ≤ a :=
  require_eq_ok

/-- On the values the contracts divide, truncation is floor division and
returns whenever the dividend is representable. -/
theorem checkedDiv_of_nonneg (ha : 0 ≤ a) (hb : 0 < b) (hr : a ≤ i128Max) :
    checkedDiv a b = .ok (a / b) := by
  have htd : a.tdiv b = a / b := Int.tdiv_eq_ediv_of_nonneg ha
  have hle : a / b ≤ a := Int.ediv_le_self b ha
  have hnn : 0 ≤ a / b := Int.ediv_nonneg ha hb.le
  rw [checkedDiv_eq_ok, htd]
  refine ⟨hb.ne', ⟨?_, hle.trans hr⟩, rfl⟩
  unfold i128Min
  linarith

end Rules

/-! ## Ledger times -/

/-- `x as u64` of a non-negative `i128`: the low 64 bits. -/
def asU64 (x : ℤ) : UInt64 := UInt64.ofNat x.toNat

/-- `t as i128`. -/
def asI128 (t : UInt64) : ℤ := t.toNat

/-- `u64::saturating_add`. -/
def saturatingAdd (a b : UInt64) : UInt64 :=
  if a.toNat + b.toNat < 2 ^ 64 then a + b else UInt64.ofNat (2 ^ 64 - 1)

/-- `checked_add_u64`. -/
def checkedAddU64 (a b : UInt64) : Result UInt64 :=
  if a.toNat + b.toNat < 2 ^ 64 then .ok (a + b) else .error (.error .overflow)

@[simp] theorem checkedAddU64_eq_ok {a b c : UInt64} :
    checkedAddU64 a b = .ok c ↔ a.toNat + b.toNat < 2 ^ 64 ∧ a + b = c := by
  unfold checkedAddU64
  split <;> simp_all

theorem toNat_asU64 (x : ℤ) : (asU64 x).toNat = x.toNat % 2 ^ 64 := UInt64.toNat_ofNat'

theorem toNat_saturatingAdd (a b : UInt64) :
    (saturatingAdd a b).toNat = min (a.toNat + b.toNat) (2 ^ 64 - 1) := by
  unfold saturatingAdd
  split
  · rename_i h
    rw [UInt64.toNat_add, Nat.mod_eq_of_lt h]
    omega
  · rename_i h
    rw [UInt64.toNat_ofNat']
    omega

end Astroid
