import Astroid.Shared.Math

/-!
# Basis points

The rollover section of `shared/src/math.rs`: a percentage of an amount, taken in
parts so that no product is larger than the amount.  What comes out is the exact
floor (`calculateBudgetRollover_eq_ok`).
-/

namespace Astroid

open Outcome

/-- `BPS_DENOMINATOR`. -/
def bpsDenominator : ℤ := 10000

/-- An argument of type `i128`. -/
abbrev I128 := {x : ℤ // IsI128 x}

theorem isI128_zero : IsI128 0 := by decide

theorem isI128_fifty : IsI128 50 := by decide

theorem isI128_hundred : IsI128 100 := by decide

/-- `checked_rem`; the remainder has the sign of the dividend. -/
def checkedRem (a b : ℤ) : Result ℤ :=
  if b = 0 then .error (.error .invalidInput) else orOverflow (a.tmod b)

/-- `i128::saturating_add`. -/
def saturatingAddI128 (a b : ℤ) : ℤ := max i128Min (min i128Max (a + b))

/-- `i128::saturating_sub`. -/
def saturatingSubI128 (a b : ℤ) : ℤ := max i128Min (min i128Max (a - b))

/-- `i128::saturating_mul`. -/
def saturatingMulI128 (a b : ℤ) : ℤ := max i128Min (min i128Max (a * b))

/-- The share of `bps` basis points, split at the denominator. -/
def percentage (amount bps : ℤ) : Result ℤ := do
  let q ← checkedDiv amount bpsDenominator
  let r ← checkedRem amount bpsDenominator
  let whole ← checkedMul q bps
  let product ← checkedMul r bps
  let part ← checkedDiv product bpsDenominator
  checkedAdd whole part

/-- `calculate_budget_rollover`. -/
def calculateBudgetRollover (unspent rolloverBps maxRolloverCap : ℤ) : Result ℤ := do
  require (0 ≤ unspent ∧ 0 ≤ rolloverBps ∧ 0 ≤ maxRolloverCap) .invalidAmount
  require (rolloverBps ≤ bpsDenominator) .invalidInput
  if unspent = 0 ∨ rolloverBps = 0 then
    pure 0
  else do
    let credit ← percentage unspent rolloverBps
    pure (if 0 < maxRolloverCap ∧ maxRolloverCap < credit then maxRolloverCap else credit)

/-! ## The exact floor -/

section Floor

variable {a b amount bps : ℤ}

/-- A product divided by `b`, from the quotient and the remainder of one factor. -/
theorem mul_ediv_split (hb : b ≠ 0) : a / b * bps + a % b * bps / b = a * bps / b := by
  have hsplit : a * bps = a % b * bps + b * (a / b * bps) := by
    have h := Int.emod_add_mul_ediv a b
    calc a * bps = (a % b + b * (a / b)) * bps := by rw [h]
      _ = a % b * bps + b * (a / b * bps) := by ring
  rw [hsplit, Int.add_mul_ediv_left _ _ hb, add_comm]

theorem isI128_of_le (h0 : 0 ≤ a) (h : a ≤ b) (hb : IsI128 b) : IsI128 a := by
  refine ⟨?_, h.trans hb.2⟩
  unfold i128Min
  omega

@[simp] theorem checkedRem_eq_ok {c : ℤ} :
    checkedRem a b = .ok c ↔ b ≠ 0 ∧ IsI128 (a.tmod b) ∧ a.tmod b = c := by
  unfold checkedRem
  by_cases h : b = 0 <;> simp [h]

/-- A percentage of at most the whole is exact and never overflows. -/
theorem percentage_eq (h0 : 0 ≤ amount) (hamount : IsI128 amount) (hbps0 : 0 ≤ bps)
    (hbps : bps ≤ bpsDenominator) :
    percentage amount bps = .ok (amount * bps / bpsDenominator) := by
  unfold bpsDenominator at hbps
  have hq0 : 0 ≤ amount / 10000 := Int.ediv_nonneg h0 (by decide)
  have hr0 : 0 ≤ amount % 10000 := Int.emod_nonneg _ (by decide)
  have hr : amount % 10000 < 10000 := Int.emod_lt_of_pos _ (by decide)
  have hsum := Int.emod_add_mul_ediv amount 10000
  have hwhole0 : 0 ≤ amount / 10000 * bps := mul_nonneg hq0 hbps0
  have hwhole : amount / 10000 * bps ≤ 10000 * (amount / 10000) := by nlinarith
  have hproduct0 : 0 ≤ amount % 10000 * bps := mul_nonneg hr0 hbps0
  have hproduct : amount % 10000 * bps ≤ 10000 * (amount % 10000) := by nlinarith
  have hpart0 : 0 ≤ amount % 10000 * bps / 10000 := Int.ediv_nonneg hproduct0 (by decide)
  have hpart : amount % 10000 * bps / 10000 ≤ amount % 10000 := by omega
  have hmax : amount ≤ i128Max := hamount.2
  have hsmall : IsI128 (amount % 10000 * bps) := by
    unfold IsI128 i128Min i128Max
    omega
  have htotal : IsI128 (amount / 10000 * bps + amount % 10000 * bps / 10000) :=
    isI128_of_le (by omega) (by omega) hamount
  unfold percentage bpsDenominator
  simp only [checkedDiv_of_nonneg h0 (by decide : (0 : ℤ) < 10000) hmax, ok_bind]
  have hrem : checkedRem amount 10000 = .ok (amount % 10000) := by
    rw [checkedRem_eq_ok, Int.tmod_eq_emod_of_nonneg h0]
    exact ⟨by decide, isI128_of_le hr0 (by omega) hamount, rfl⟩
  have hmul : checkedMul (amount / 10000) bps = .ok (amount / 10000 * bps) :=
    checkedMul_eq_ok.2 ⟨isI128_of_le hwhole0 (by omega) hamount, rfl⟩
  have hmul' : checkedMul (amount % 10000) bps = .ok (amount % 10000 * bps) :=
    checkedMul_eq_ok.2 ⟨hsmall, rfl⟩
  simp only [hrem, hmul, hmul', ok_bind, checkedDiv_of_nonneg hproduct0
    (by decide : (0 : ℤ) < 10000) hsmall.2]
  exact checkedAdd_eq_ok.2 ⟨htotal, mul_ediv_split (by decide)⟩

/-- **What rolls over**: the floor of the percentage, under the cap where there is one. -/
theorem calculateBudgetRollover_eq_ok {unspent rolloverBps maxRolloverCap credit : ℤ}
    (hunspent : IsI128 unspent) :
    calculateBudgetRollover unspent rolloverBps maxRolloverCap = .ok credit ↔
      0 ≤ unspent ∧ 0 ≤ rolloverBps ∧ 0 ≤ maxRolloverCap ∧ rolloverBps ≤ bpsDenominator ∧
      credit = if maxRolloverCap ≠ 0 ∧ maxRolloverCap < unspent * rolloverBps / bpsDenominator
        then maxRolloverCap else unspent * rolloverBps / bpsDenominator := by
  simp only [calculateBudgetRollover, bind_eq_ok, require_eq_ok]
  constructor
  · rintro ⟨_, ⟨h0, hbps0, hcap0⟩, _, hbps, h⟩
    refine ⟨h0, hbps0, hcap0, hbps, ?_⟩
    split at h
    · rename_i hzero
      have hproduct : unspent * rolloverBps = 0 := mul_eq_zero.2 hzero
      cases h
      rw [hproduct, Int.zero_ediv, if_neg]
      rintro ⟨_, hneg⟩
      omega
    · rw [percentage_eq h0 hunspent hbps0 hbps, ok_bind, pure_eq_ok] at h
      rw [← h]
      refine if_congr ?_ rfl rfl
      rw [hcap0.lt_iff_ne, ne_comm]
  · rintro ⟨h0, hbps0, hcap0, hbps, rfl⟩
    refine ⟨(), ⟨h0, hbps0, hcap0⟩, (), hbps, ?_⟩
    split
    · rename_i hzero
      have hproduct : unspent * rolloverBps = 0 := mul_eq_zero.2 hzero
      rw [hproduct, Int.zero_ediv, if_neg]
      · rfl
      · rintro ⟨_, hneg⟩
        omega
    · rw [percentage_eq h0 hunspent hbps0 hbps, ok_bind, pure_eq_ok]
      refine if_congr ?_ rfl rfl
      rw [hcap0.lt_iff_ne, ne_comm]

/-- The floor of the percentage, under a cap that is not zero. -/
def rolledOver (unspent rolloverBps maxRolloverCap : ℤ) : ℤ :=
  if maxRolloverCap = 0 then unspent * rolloverBps / bpsDenominator
  else min (unspent * rolloverBps / bpsDenominator) maxRolloverCap

/-- Within the ranges the calculation checks, it returns. -/
theorem calculateBudgetRollover_eq {unspent rolloverBps maxRolloverCap : ℤ}
    (hunspent : IsI128 unspent) (h0 : 0 ≤ unspent) (hbps0 : 0 ≤ rolloverBps)
    (hbps : rolloverBps ≤ bpsDenominator) (hcap0 : 0 ≤ maxRolloverCap) :
    calculateBudgetRollover unspent rolloverBps maxRolloverCap
      = .ok (rolledOver unspent rolloverBps maxRolloverCap) := by
  refine (calculateBudgetRollover_eq_ok hunspent).2 ⟨h0, hbps0, hcap0, hbps, ?_⟩
  unfold rolledOver
  by_cases hcap : maxRolloverCap = 0
  · rw [if_pos hcap, if_neg fun h => h.1 hcap]
  · rw [if_neg hcap]
    split
    · rename_i hover
      exact min_eq_right hover.2.le
    · rename_i hunder
      rw [not_and, not_lt] at hunder
      exact min_eq_left (hunder hcap)

/-- More unspent, or a larger percentage of it, rolls over no less. -/
theorem rolledOver_mono {unspent unspent' rolloverBps rolloverBps' maxRolloverCap : ℤ}
    (h0 : 0 ≤ unspent) (hunspent : unspent ≤ unspent') (hbps0 : 0 ≤ rolloverBps)
    (hbps : rolloverBps ≤ rolloverBps') :
    rolledOver unspent rolloverBps maxRolloverCap
      ≤ rolledOver unspent' rolloverBps' maxRolloverCap := by
  have hproduct : unspent * rolloverBps ≤ unspent' * rolloverBps' :=
    mul_le_mul hunspent hbps hbps0 (h0.trans hunspent)
  have hfloor : unspent * rolloverBps / bpsDenominator ≤ unspent' * rolloverBps' / bpsDenominator :=
    Int.ediv_le_ediv (by decide) hproduct
  unfold rolledOver
  split
  · exact hfloor
  · exact min_le_min_right _ hfloor

end Floor

end Astroid
