import Astroid.Budget.Ceilings

/-!
# Budgets left dormant

A budget that nobody touches accrues its limit for every window that passes, and a cap
is what keeps it settleable: the accrual of a capped budget saturates.  It saturates
under the absolute cap alone.  Under the percentage it is checked like that of an
uncapped budget, and a budget that was dormant for too long is stuck for good
(`settles_iff_survives`).
-/

namespace Astroid
namespace BudgetContract

open Outcome Lazy Budget

variable {self : Address} {s : State} {id : String} {b : Budget} {now : UInt64} {w : ℕ}

namespace Budget

/-- Where the sums of a settlement at `now` stay in range: the end of the window is a time,
and once it is past, the capacity and either the deficit or the accrual can be added up. -/
def Survives (b : Budget) (w now : ℕ) : Prop :=
  b.windowStart + w < 2 ^ 64 ∧
    (b.windowStart + w ≤ now → b.capacity ≤ i128Max ∧
      if b.Overspent then b.deficitAmount + (b.spent - b.capacity) ≤ i128Max
      else b.rolloverEnabled = true → b.rolloverCap = 0 → b.windowStart + 2 * w ≤ now →
        b.firstCredit + b.limit * ((((now - b.windowStart) / w : ℕ) : ℤ) - 1) ≤ i128Max)

/-- The idle windows fit when their sum does. -/
theorem fits_iff {periods : ℕ} (h : b.WellFormed) :
    b.Fits h periods ↔ (b.rolloverCap = 0 → 1 < periods →
      b.firstCredit + b.limit * ((periods : ℤ) - 1) ≤ i128Max) := by
  have hfirst := firstCredit_nonneg h
  constructor
  · intro hfits hcap hmany
    exact (hfits hcap hmany).2
  · intro hsum hcap hmany
    have hle := hsum hcap hmany
    refine ⟨?_, hle⟩
    omega

theorem Settles.survives {r : Budget} (h : b.WellFormed) (hw : b.window = some w)
    (hsettles : b.Settles h now.toNat r) : b.Survives w now.toNat := by
  cases hsettles with
  | same hopen _ =>
      obtain ⟨hfits, hrunning⟩ := hopen.running w hw
      refine ⟨hfits, ?_⟩
      intro hlapsed
      omega
  | closed w' periods credit deficit hdue hbalance _ =>
      have hsame := hdue.window_eq hw
      subst hsame
      refine ⟨hdue.fits, fun _ => ⟨hdue.capacity, ?_⟩⟩
      rw [← hdue.periods_eq]
      cases hbalance with
      | overspent hover hrange =>
          rw [if_pos hover]
          exact hrange
      | dropped hinside hdisabled => simp [hinside, hdisabled]
      | carried hinside henabled hidle =>
          rw [if_neg hinside]
          intro _ hcap htwo
          obtain ⟨_, hpos, _⟩ := hdue.bounds
          have hmany : 1 < periods := by
            have hone := hdue.eq_one_iff
            omega
          exact (fits_iff h).1 hidle hcap hmany

theorem Survives.settles (h : b.WellFormed) (hunexpired : b.Unexpired now.toNat)
    (hw : b.window = some w) (hsurvives : b.Survives w now.toNat) :
    ∃ r, b.Settles h now.toNat r := by
  obtain ⟨hfits, hsums⟩ := hsurvives
  by_cases hrunning : now.toNat < b.windowStart + w
  · have hopen : b.Open now.toNat := by
      refine ⟨hunexpired, ?_⟩
      intro w' hw'
      rw [hw, Option.some.injEq] at hw'
      subst hw'
      exact ⟨hfits, hrunning⟩
    exact ⟨b, .same hopen rfl⟩
  · have hlapsed := not_lt.1 hrunning
    obtain ⟨hcapacity, hsum⟩ := hsums hlapsed
    have hdue : b.Due now.toNat w ((now.toNat - b.windowStart) / w) :=
      ⟨hunexpired, hw, hfits, hlapsed, rfl, hcapacity⟩
    by_cases hover : b.Overspent
    · rw [if_pos hover] at hsum
      exact ⟨_, .closed w _ _ _ hdue (.overspent hover hsum) rfl⟩
    · rw [if_neg hover] at hsum
      by_cases henabled : b.rolloverEnabled = true
      · have hidle : b.Fits h ((now.toNat - b.windowStart) / w) := by
          rw [fits_iff h]
          intro hcap hmany
          have hone := hdue.eq_one_iff
          exact hsum henabled hcap (by omega)
        exact ⟨_, .closed w _ _ _ hdue (.carried hover henabled hidle) rfl⟩
      · have hdisabled : b.rolloverEnabled = false := by simpa using henabled
        exact ⟨_, .closed w _ _ _ hdue (.dropped hover hdisabled) rfl⟩

end Budget

/-- **A recurring budget settles** exactly where the sums of the settlement stay in range;
those of the idle windows have to, unless there is an absolute cap. -/
theorem settles_iff_survives (h : (machine self).Reachable s) (hb : s.budget id = some b)
    (hunexpired : b.Unexpired now.toNat) (hw : b.window = some w) :
    (∃ r, b.settle now = .ok r) ↔ b.Survives w now.toNat := by
  have hwell := (sound_reachable h hb).wellFormed
  constructor
  · rintro ⟨r, hsettle⟩
    exact ((settle_eq_ok hwell).1 hsettle).survives hwell hw
  · intro hsurvives
    obtain ⟨r, hsettles⟩ := hsurvives.settles hwell hunexpired hw
    exact ⟨r, (settle_eq_ok hwell).2 hsettles⟩

/-- Three idle windows of 100. -/
theorem settles_hundred : ∃ r, (quarter 100).settle 30 = .ok r := by
  have hreach : (machine (.contract 0)).Reachable
      (play deployed (quartered ⟨100, isI128_hundred⟩)) :=
    Deployment.reachable_play deployed_fresh (by decide)
  have hb : (play deployed (quartered ⟨100, isI128_hundred⟩)).budget "eng"
      = some (quarter 100) := rfl
  have hunexpired : (quarter 100).Unexpired (30 : UInt64).toNat := fun hexpired => hexpired.1 rfl
  have hw : (quarter 100).window = some 10 := rfl
  refine (settles_iff_survives hreach hb hunexpired hw).2 ⟨by decide, fun _ => ⟨by decide, ?_⟩⟩
  rw [if_neg (by decide)]
  exact fun _ _ _ => by decide

theorem isI128_large : IsI128 100000000000000000000000000000000000000 := by decide

/-- Three idle windows of a limit that fits twice into an `i128`: the credit would be a
quarter of the limit, and the sum on the way to it overflows. -/
theorem not_settles_large :
    ¬ ∀ (s : State) (id : String) (b : Budget), (machine (.contract 0)).Reachable s →
      s.budget id = some b → b.state = .active → b.rolloverCap ≠ 0 ∨ b.rolloverMaxBps ≠ 0 →
      ∀ (now : UInt64) (w : ℕ), b.Unexpired now.toNat → b.window = some w →
      ∃ r, b.settle now = .ok r := by
  intro hall
  have hreach : (machine (.contract 0)).Reachable (play deployed (quartered ⟨_, isI128_large⟩)) :=
    Deployment.reachable_play deployed_fresh (by decide)
  have hb : (play deployed (quartered ⟨_, isI128_large⟩)).budget "eng"
      = some (quarter 100000000000000000000000000000000000000) := rfl
  obtain ⟨r, hsettle⟩ := hall _ _ _ hreach hb rfl (.inr (by decide)) 30 10
    (fun hexpired => hexpired.1 rfl) rfl
  have hfails : (quarter 100000000000000000000000000000000000000).settle 30
      = .error (.error .overflow) := rfl
  rw [hfails] at hsettle
  cases hsettle

end BudgetContract
end Astroid
