import Astroid.Budget.Ceilings

/-!
# Rollover arithmetic

Both percentages of the contract are taken in two parts, the quotient by 10_000 and the
remainder, so that no product leaves the range of an `i128`.  What the parts add up to is the
floor of the whole product, for every amount an `i128` can hold (`rollover_arithmetic`).
-/

namespace Astroid
namespace BudgetContract

open Outcome

variable {self : Address} {env : Env self} {s s' : State} {id : String} {caller : Address}

/-- The percentages `set_recurrence` admits. -/
theorem setRecurrence_admits {period : Period} {periodSeconds : ℕ} {enabled : Bool}
    {cap maxBps : ℤ}
    (h : setRecurrence env s caller id period periodSeconds enabled cap maxBps = .ok s') :
    0 ≤ maxBps ∧ maxBps < bpsDenominator := by
  simp only [setRecurrence, requireValidLimit, bind_eq_ok, require_eq_ok] at h
  obtain ⟨_, _, _, hmax0, _, hmax, _⟩ := h
  exact ⟨hmax0, hmax⟩

/-- **Rollover arithmetic is exact and total.**  What rolls over is the floor of the
percentage, under the cap where there is one, and never overflows; it grows with what is
unspent and with the percentage.  The percentage of a limit is the floor too, for every
percentage that `set_recurrence` admits. -/
theorem rollover_arithmetic :
    (∀ unspent bps cap : I128, 0 ≤ unspent.1 → 0 ≤ bps.1 → bps.1 ≤ bpsDenominator → 0 ≤ cap.1 →
      calculateBudgetRollover unspent bps cap = .ok
        (if 0 < cap.1 then min (unspent.1 * bps.1 / bpsDenominator) cap.1
          else unspent.1 * bps.1 / bpsDenominator)) ∧
    (∀ unspent unspent' bps bps' cap : I128, 0 ≤ unspent.1 → unspent.1 ≤ unspent'.1 → 0 ≤ bps.1 →
      bps.1 ≤ bps'.1 → bps'.1 ≤ bpsDenominator → 0 ≤ cap.1 →
      ∃ credit credit', calculateBudgetRollover unspent bps cap = .ok credit ∧
        calculateBudgetRollover unspent' bps' cap = .ok credit' ∧ credit ≤ credit') ∧
    ∀ (self : Address) (env : Env self) (s s' : State) (caller : Address) (id : String)
      (period : Period) (periodSeconds : ℕ) (enabled : Bool) (cap maxBps : ℤ),
      setRecurrence env s caller id period periodSeconds enabled cap maxBps = .ok s' →
      ∀ limit : I128, 0 ≤ limit.1 →
        percentageOfLimit limit maxBps = .ok (limit.1 * maxBps / bpsDenominator) := by
  refine ⟨?_, ?_, ?_⟩
  · intro unspent bps cap h0 hbps0 hbps hcap0
    rw [calculateBudgetRollover_eq unspent.2 h0 hbps0 hbps hcap0, rolledOver]
    rcases hcap0.eq_or_lt with hzero | hpos
    · rw [if_pos hzero.symm, if_neg hzero.not_lt]
    · rw [if_neg hpos.ne', if_pos hpos]
  · intro unspent unspent' bps bps' cap h0 hunspent hbps0 hbps hbps' hcap0
    refine ⟨_, _, calculateBudgetRollover_eq unspent.2 h0 hbps0 (hbps.trans hbps') hcap0,
      calculateBudgetRollover_eq unspent'.2 (h0.trans hunspent) (hbps0.trans hbps) hbps' hcap0, ?_⟩
    exact rolledOver_mono h0 hunspent hbps0 hbps
  · intro self env s s' caller id period periodSeconds enabled cap maxBps hadmits limit h0
    obtain ⟨hmax0, hmax⟩ := setRecurrence_admits hadmits
    exact Budget.percentageOfLimit_eq ⟨h0, limit.2.2⟩ ⟨hmax0, hmax.le⟩

theorem isI128_max : IsI128 i128Max := by decide

/-- A half and a quarter of the largest `i128`. -/
theorem rollover_arithmetic_largest :
    calculateBudgetRollover i128Max 5000 0 = .ok (i128Max / 2) ∧
    (∃ credit credit', calculateBudgetRollover (i128Max - 1) 5000 50 = .ok credit ∧
      calculateBudgetRollover i128Max 10000 50 = .ok credit' ∧ credit ≤ credit') ∧
    percentageOfLimit i128Max 2500 = .ok (i128Max / 4) := by
  obtain ⟨hexact, hmono, hlimit⟩ := rollover_arithmetic
  refine ⟨?_, ?_, ?_⟩
  · exact hexact ⟨i128Max, isI128_max⟩ ⟨5000, by decide⟩ ⟨0, isI128_zero⟩ (by decide) (by decide)
      (by decide) le_rfl
  · exact hmono ⟨i128Max - 1, by decide⟩ ⟨i128Max, isI128_max⟩ ⟨5000, by decide⟩
      ⟨10000, by decide⟩ ⟨50, isI128_fifty⟩ (by decide) (by decide) (by decide) (by decide)
      (by decide) (by decide)
  · have hadmits : setRecurrence (signedBy 0 [1])
        (play deployed [(signedBy 0 [1], .allocate (.account 1) "eng" ⟨100, isI128_hundred⟩ .daily
          true 0)]) (.account 1) "eng" .custom 10 true 0 2500
        = .ok (play deployed (quartered ⟨100, isI128_hundred⟩)) := rfl
    exact hlimit _ _ _ _ _ _ _ _ _ _ _ hadmits ⟨i128Max, isI128_max⟩ (by decide)

end BudgetContract
end Astroid
