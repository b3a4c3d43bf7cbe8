import Astroid.Escrow.Record

/-!
# What a schedule has vested

`vestedUnits` is the vesting curve of a schedule over unbounded integers.  It
starts at nothing, never falls, and ends at the whole amount; whenever
`calculate_vested_amount` returns, it returns the curve's value
(`calculateVestedAmount_eq`).
-/

namespace Astroid
namespace EscrowContract

open Outcome

/-- The vesting curve of a schedule. -/
def vestedUnits (amount : ℤ) (schedule : ReleaseSchedule) (now : ℕ) : ℤ :=
  match schedule.releaseType with
  | .none => 0
  | .cliff => if schedule.endTime.toNat ≤ now then amount else 0
  | .linear =>
      if now < schedule.cliffTime.toNat ∨ now < schedule.startTime.toNat then 0
      else if schedule.endTime.toNat ≤ now then amount
      else amount * (now - schedule.startTime.toNat : ℤ) /
        (schedule.endTime.toNat - schedule.startTime.toNat : ℤ)

section Curve

variable {amount : ℤ} {schedule : ReleaseSchedule} {now : ℕ}

/-- Between start and end a linear schedule has vested part of the amount. -/
theorem linear_part_bounds (ha : 0 ≤ amount) (hstart : schedule.startTime.toNat ≤ now)
    (hend : now < schedule.endTime.toNat) :
    0 ≤ amount * (now - schedule.startTime.toNat : ℤ) /
        (schedule.endTime.toNat - schedule.startTime.toNat : ℤ) ∧
      amount * (now - schedule.startTime.toNat : ℤ) /
        (schedule.endTime.toNat - schedule.startTime.toNat : ℤ) ≤ amount := by
  have hduration : (0 : ℤ) < schedule.endTime.toNat - schedule.startTime.toNat := by omega
  have helapsed : (0 : ℤ) ≤ now - schedule.startTime.toNat := by omega
  constructor
  · exact Int.ediv_nonneg (mul_nonneg ha helapsed) hduration.le
  · refine Int.ediv_le_of_le_mul hduration ?_
    exact mul_le_mul_of_nonneg_left (by omega) ha

theorem vestedUnits_nonneg (ha : 0 ≤ amount) : 0 ≤ vestedUnits amount schedule now := by
  unfold vestedUnits
  split
  · exact le_rfl
  · split <;> omega
  · split
    · exact le_rfl
    · split
      · exact ha
      · exact (linear_part_bounds ha (by omega) (by omega)).1

theorem vestedUnits_le (ha : 0 ≤ amount) : vestedUnits amount schedule now ≤ amount := by
  unfold vestedUnits
  split
  · exact ha
  · split <;> omega
  · split
    · exact ha
    · split
      · exact le_rfl
      · exact (linear_part_bounds ha (by omega) (by omega)).2

/-- **What has vested stays vested.** -/
theorem vestedUnits_mono {later : ℕ} (ha : 0 ≤ amount) (h : now ≤ later) :
    vestedUnits amount schedule now ≤ vestedUnits amount schedule later := by
  by_cases hdone : schedule.releaseType ≠ .none ∧ schedule.endTime.toNat ≤ later ∧
      ¬ (later < schedule.cliffTime.toNat ∨ later < schedule.startTime.toNat)
  · -- everything has vested by then
    obtain ⟨htype, hend, hstarted⟩ := hdone
    have hall : vestedUnits amount schedule later = amount := by
      unfold vestedUnits
      split
      · rename_i hnone
        exact absurd hnone htype
      · rw [if_pos hend]
      · rw [if_neg hstarted, if_pos hend]
    rw [hall]
    exact vestedUnits_le ha
  · cases htype : schedule.releaseType with
    | none => simp [vestedUnits, htype]
    | cliff =>
        simp only [vestedUnits, htype]
        split <;> split <;> omega
    | linear =>
        simp only [htype, ne_eq, reduceCtorEq, not_false_eq_true, true_and, not_and,
          not_not] at hdone
        have hnonneg : 0 ≤ vestedUnits amount schedule later := vestedUnits_nonneg ha
        by_cases hearly : now < schedule.cliffTime.toNat ∨ now < schedule.startTime.toNat
        · have hzero : vestedUnits amount schedule now = 0 := by
            simp only [vestedUnits, htype, if_pos hearly]
          rw [hzero]
          exact hnonneg
        · have hlate : ¬ (later < schedule.cliffTime.toNat ∨ later < schedule.startTime.toNat) := by
            omega
          have hnotEnd : ¬ schedule.endTime.toNat ≤ later := fun hend => hlate (hdone hend)
          have hnotEnd' : ¬ schedule.endTime.toNat ≤ now := by omega
          simp only [vestedUnits, htype, if_neg hearly, if_neg hlate, if_neg hnotEnd,
            if_neg hnotEnd']
          refine Int.ediv_le_ediv (by omega) ?_
          exact mul_le_mul_of_nonneg_left (by omega) ha

end Curve

/-- **`calculate_vested_amount` returns the curve's value.** -/
theorem calculateVestedAmount_eq {amount v : ℤ} {schedule : ReleaseSchedule} {now : UInt64}
    (ha : 0 ≤ amount) (h : calculateVestedAmount amount schedule now = .ok v) :
    v = vestedUnits amount schedule now.toNat := by
  unfold calculateVestedAmount at h
  unfold vestedUnits
  cases htype : schedule.releaseType with
  | none =>
      simp only [htype] at h ⊢
      cases h
      rfl
  | cliff =>
      simp only [htype, UInt64.lt_iff_toNat_lt, UInt64.le_iff_toNat_le] at h ⊢
      split at h
      · cases h
      · split at h
        · cases h
          rw [if_neg (by omega)]
        · split at h <;> cases h
          · rename_i hend
            rw [if_pos hend]
          · rename_i hend
            rw [if_neg hend]
  | linear =>
      simp only [htype, UInt64.lt_iff_toNat_lt, UInt64.le_iff_toNat_le] at h ⊢
      split at h
      · cases h
      · split at h
        · rename_i hearly
          cases h
          rw [if_pos hearly]
        · rename_i hvalid hearly
          rw [if_neg hearly]
          split at h
          · rename_i hend
            cases h
            rw [if_pos hend]
          · rename_i hend
            rw [if_neg hend]
            have helapsed : (0 : ℤ) ≤ asI128 now - asI128 schedule.startTime := by
              unfold asI128
              omega
            split at h
            · rename_i hzero
              unfold asI128 at hzero
              omega
            · simp only [bind_eq_ok, checkedMul_eq_ok, checkedDiv_eq_ok] at h
              obtain ⟨_, ⟨_, rfl⟩, _, _, rfl⟩ := h
              exact Int.tdiv_eq_ediv_of_nonneg (mul_nonneg ha helapsed)

/-- A linear schedule that can be evaluated does not start after its cliff. -/
theorem calculateVestedAmount_start {amount v : ℤ} {schedule : ReleaseSchedule} {now : UInt64}
    (htype : schedule.releaseType = .linear)
    (h : calculateVestedAmount amount schedule now = .ok v) :
    schedule.startTime ≤ schedule.cliffTime := by
  simp only [calculateVestedAmount, htype] at h
  split at h
  · cases h
  · rename_i hvalid
    by_contra hlt
    exact hvalid (.inr (.inl (UInt64.not_le.1 hlt)))

end EscrowContract
end Astroid
