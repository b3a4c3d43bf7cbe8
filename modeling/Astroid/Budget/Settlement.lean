import Astroid.Budget.Record
import Astroid.Lib.Lazy

/-!
# What the hook settles

`windowTransition` on a well-formed record, said without its arithmetic
(`windowTransition_eq_ok`): a window that has not lapsed is left alone; the windows
that have are closed together, and what they leave is a balance of credit and deficit
(`Balance`).  With rollover, the credit is what a `Lazy.Carry` accrues.
-/

namespace Astroid
namespace BudgetContract

open Outcome Lazy

/-! ## Well-formed records -/

namespace Budget

/-- The ranges of the amounts of a record. -/
structure WellFormed (b : Budget) : Prop where
  limit : 0 ≤ b.limit ∧ b.limit ≤ i128Max
  spent : 0 ≤ b.spent ∧ b.spent ≤ i128Max
  credit : 0 ≤ b.rolloverCredit ∧ b.rolloverCredit ≤ i128Max
  cap : 0 ≤ b.rolloverCap ∧ b.rolloverCap ≤ i128Max
  maxBps : 0 ≤ b.rolloverMaxBps ∧ b.rolloverMaxBps < bpsDenominator
  bps : 0 ≤ b.rolloverBps ∧ b.rolloverBps ≤ bpsDenominator
  deficit : 0 ≤ b.deficitAmount ∧ b.deficitAmount ≤ i128Max

variable (b : Budget)

/-- What the window allows before any deficit. -/
def capacity : ℤ := b.limit + b.rolloverCredit

/-- The window closes in deficit. -/
def Overspent : Prop := b.allowDeficit = true ∧ b.capacity < b.spent

/-- What is left of the window. -/
def unspent : ℤ := max 0 (b.capacity - b.spent)

/-- The smaller of the two ceilings of the credit, where zero is none. -/
def rolloverCeiling : ℤ :=
  if b.rolloverCap = 0 then b.limit * b.rolloverMaxBps / bpsDenominator
  else if b.limit * b.rolloverMaxBps / bpsDenominator = 0 then b.rolloverCap
  else min b.rolloverCap (b.limit * b.rolloverMaxBps / bpsDenominator)

/-- The budget can be used at `now`. -/
def Unexpired (now : ℕ) : Prop := ¬ (b.expiresAt ≠ 0 ∧ b.expiresAt ≤ now)

variable {b}

theorem Unexpired.mono {now now' : ℕ} (h : b.Unexpired now') (hle : now ≤ now') :
    b.Unexpired now := by
  rintro ⟨hne, hpast⟩
  exact h ⟨hne, hpast.trans hle⟩

theorem window_pos {w : ℕ} (h : b.window = some w) : 0 < w := by
  unfold window windowOf at h
  split at h
  · cases h
  · cases h
    decide
  · cases h
    decide
  · cases h
    decide
  · split at h
    · cases h
    · cases h
      omega

theorem percentageOfLimit_eq {limit bps : ℤ} (hlimit : 0 ≤ limit ∧ limit ≤ i128Max)
    (hbps : 0 ≤ bps ∧ bps ≤ bpsDenominator) :
    percentageOfLimit limit bps = .ok (limit * bps / bpsDenominator) := by
  unfold percentageOfLimit
  split
  · rename_i hzero
    rw [hzero, mul_zero, Int.zero_ediv]
    rfl
  · have hrange : IsI128 limit := ⟨le_trans (by decide) hlimit.1, hlimit.2⟩
    exact percentage_eq hlimit.1 hrange hbps.1 hbps.2

theorem effectiveRolloverCap_eq (h : b.WellFormed) :
    b.effectiveRolloverCap = .ok b.rolloverCeiling := by
  unfold effectiveRolloverCap rolloverCeiling
  rw [percentageOfLimit_eq h.limit ⟨h.maxBps.1, h.maxBps.2.le⟩, ok_bind]
  rfl

theorem rolloverCeiling_nonneg (h : b.WellFormed) : 0 ≤ b.rolloverCeiling := by
  have hpct : 0 ≤ b.limit * b.rolloverMaxBps / bpsDenominator :=
    Int.ediv_nonneg (mul_nonneg h.limit.1 h.maxBps.1) (by decide)
  have hcap := h.cap.1
  unfold rolloverCeiling
  split
  · exact hpct
  · split
    · exact hcap
    · exact le_min hcap hpct

theorem rolloverCeiling_of_cap (hcap : b.rolloverCap ≠ 0) (h : b.WellFormed) :
    b.rolloverCeiling ≠ 0 ∧ b.rolloverCeiling ≤ b.rolloverCap := by
  have hpct : 0 ≤ b.limit * b.rolloverMaxBps / bpsDenominator :=
    Int.ediv_nonneg (mul_nonneg h.limit.1 h.maxBps.1) (by decide)
  have hcap0 := h.cap.1
  unfold rolloverCeiling
  rw [if_neg hcap]
  split
  · exact ⟨hcap, le_rfl⟩
  · omega

/-! ## What rolls over -/

/-- A percentage is a carry. -/
def percentageCarry (bps : ℤ) (h0 : 0 ≤ bps) (h : bps ≤ bpsDenominator) : Carry ℤ where
  part x := x * bps / bpsDenominator
  nonneg x hx := Int.ediv_nonneg (mul_nonneg hx h0) (by decide)
  le x hx := by
    have hle : x * bps ≤ x * bpsDenominator := mul_le_mul_of_nonneg_left h hx
    have hdiv := Int.ediv_le_ediv (by decide : (0 : ℤ) < bpsDenominator) hle
    rwa [Int.mul_ediv_cancel _ (by decide)] at hdiv
  mono x y hxy := Int.ediv_le_ediv (by decide) (mul_le_mul_of_nonneg_right hxy h0)
  full x hx heq y := by
    have hfull : bps = bpsDenominator := by
      by_contra hne
      have hless : bps + 1 ≤ bpsDenominator := lt_of_le_of_ne h hne
      have hlow : x * bpsDenominator ≤ x * bps := by
        have hmul := Int.ediv_mul_le (x * bps) (by decide : bpsDenominator ≠ 0)
        rw [heq] at hmul
        exact hmul
      nlinarith
    rw [hfull]
    exact Int.mul_ediv_cancel y (by decide)

/-- The carry of a record. -/
def WellFormed.share (h : b.WellFormed) : Carry ℤ :=
  percentageCarry b.rolloverBps h.bps.1 h.bps.2

/-- The allowance of the idle periods can be added up, or is cut off by a cap. -/
def Fits (b : Budget) (h : b.WellFormed) (periods : ℕ) : Prop :=
  b.rolloverCap = 0 → 1 < periods →
    b.limit * (periods - 1) ≤ i128Max ∧
    clamp b.rolloverCeiling (h.share.part b.unspent) + b.limit * (periods - 1) ≤ i128Max

theorem unspent_eq : (if 0 < b.capacity - b.spent then b.capacity - b.spent else 0) = b.unspent := by
  unfold unspent
  split <;> omega

theorem unspent_range (h : b.WellFormed) (hcapacity : b.capacity ≤ i128Max) :
    0 ≤ b.unspent ∧ b.unspent ≤ i128Max := by
  have hspent := h.spent.1
  have hmax : (0 : ℤ) ≤ i128Max := by decide
  unfold unspent
  omega

theorem settled_carry (h : b.WellFormed) :
    h.share.settled b.rolloverCeiling b.limit b.unspent 1
      = clamp b.rolloverCeiling (h.share.part b.unspent) := by
  unfold Carry.settled
  rw [Nat.sub_self, zero_nsmul, clamp_clamp_add le_rfl, add_zero]

theorem settled_many {periods : ℕ} (h : b.WellFormed) (hmany : 1 < periods) :
    h.share.settled b.rolloverCeiling b.limit b.unspent periods
      = clamp b.rolloverCeiling (clamp b.rolloverCeiling (h.share.part b.unspent)
        + b.limit * (periods - 1)) := by
  have hidle : (((periods - 1 : ℕ) : ℤ)) = (periods : ℤ) - 1 := by omega
  unfold Carry.settled
  rw [nsmul_eq_mul, hidle, mul_comm b.limit]

/-- A sum that is cut off below the largest `i128` may saturate on the way. -/
theorem min_saturating {first limit idle ceiling : ℤ} (hfirst : 0 ≤ first)
    (hidle : 0 ≤ limit * idle) (hceiling : ceiling ≤ i128Max) :
    min (saturatingAddI128 first (saturatingMulI128 limit idle)) ceiling
      = min (first + limit * idle) ceiling := by
  have hmin : i128Min ≤ 0 := by decide
  unfold saturatingAddI128 saturatingMulI128
  generalize limit * idle = product at *
  omega

theorem enabledCarry_eq_ok {periods : ℕ} {credit : ℤ} (h : b.WellFormed)
    (hcapacity : b.capacity ≤ i128Max) (hperiods : 1 ≤ periods) :
    b.enabledCarry (b.capacity - b.spent) periods = .ok credit ↔
      b.Fits h periods ∧ credit = h.share.settled b.rolloverCeiling b.limit b.unspent periods := by
  obtain ⟨hu0, humax⟩ := unspent_range h hcapacity
  have hunspent : IsI128 b.unspent := ⟨le_trans (by decide) hu0, humax⟩
  have hfirst : calculateBudgetRollover b.unspent b.rolloverBps b.rolloverCeiling
      = .ok (clamp b.rolloverCeiling (h.share.part b.unspent)) :=
    (calculateBudgetRollover_eq_ok hunspent).2
      ⟨hu0, h.bps.1, rolloverCeiling_nonneg h, h.bps.2, rfl⟩
  have hc0 : 0 ≤ clamp b.rolloverCeiling (h.share.part b.unspent) :=
    clamp_nonneg (rolloverCeiling_nonneg h) (h.share.nonneg _ hu0)
  unfold enabledCarry
  simp only [unspent_eq, effectiveRolloverCap_eq h, hfirst, ok_bind]
  by_cases hmany : 1 < periods
  · have hprod0 : 0 ≤ b.limit * ((periods : ℤ) - 1) :=
      mul_nonneg h.limit.1 (by omega)
    rw [if_pos hmany, settled_many h hmany]
    unfold accrueIdlePeriods
    by_cases hcap : b.rolloverCap = 0
    · rw [if_neg (not_not.2 hcap)]
      simp only [bind_eq_ok, checkedMul_eq_ok, checkedAdd_eq_ok, pure_eq_ok, Fits, IsI128]
      have hmin : i128Min ≤ 0 := by decide
      constructor
      · rintro ⟨total, ⟨accrued, ⟨⟨_, hprod⟩, rfl⟩, ⟨_, hsum⟩, rfl⟩, rfl⟩
        exact ⟨fun _ _ => ⟨hprod, hsum⟩, rfl⟩
      · rintro ⟨hfits, rfl⟩
        obtain ⟨hprod, hsum⟩ := hfits hcap hmany
        exact ⟨_, ⟨_, ⟨⟨by omega, hprod⟩, rfl⟩, ⟨by omega, hsum⟩, rfl⟩, rfl⟩
    · -- the saturated total and the exact one are both cut off at the ceiling
      obtain ⟨hne, hle⟩ := rolloverCeiling_of_cap hcap h
      have hcut : ∀ x : ℤ, applyCap x b.rolloverCeiling = clamp b.rolloverCeiling x := fun _ => rfl
      rw [if_pos hcap]
      simp only [ok_bind, pure_eq_ok, hcut, clamp_eq_min hne] at hc0 ⊢
      rw [min_saturating hc0 hprod0 (hle.trans h.cap.2)]
      constructor
      · rintro rfl
        exact ⟨fun hzero => absurd hzero hcap, rfl⟩
      · rintro ⟨_, rfl⟩
        rfl
  · have hone : periods = 1 := by omega
    subst hone
    rw [if_neg hmany, settled_carry h, pure_eq_ok]
    constructor
    · rintro rfl
      exact ⟨fun _ hlt => absurd hlt hmany, rfl⟩
    · rintro ⟨_, rfl⟩
      rfl

/-! ## The hook -/

/-- `periods` windows have lapsed, and the balance of the first can be taken. -/
structure Due (b : Budget) (now w periods : ℕ) : Prop where
  unexpired : b.Unexpired now
  window : b.window = some w
  fits : b.windowStart + w < 2 ^ 64
  lapsed : b.windowStart + w ≤ now
  periods_eq : periods = (now - b.windowStart) / w
  capacity : b.capacity ≤ i128Max

/-- The window has not lapsed, or there is none. -/
structure Open (b : Budget) (now : ℕ) : Prop where
  unexpired : b.Unexpired now
  running : ∀ w, b.window = some w → b.windowStart + w < 2 ^ 64 ∧ now < b.windowStart + w

/-- The credit and the deficit that `periods` windows leave. -/
inductive Balance (b : Budget) (h : b.WellFormed) (periods : ℕ) : ℤ → ℤ → Prop
  | overspent : b.Overspent → b.deficitAmount + (b.spent - b.capacity) ≤ i128Max →
      Balance b h periods 0 (b.deficitAmount + (b.spent - b.capacity))
  | carried : ¬ b.Overspent → b.rolloverEnabled = true → b.Fits h periods →
      Balance b h periods (h.share.settled b.rolloverCeiling b.limit b.unspent periods)
        b.deficitAmount
  | dropped : ¬ b.Overspent → b.rolloverEnabled = false → Balance b h periods 0 b.deficitAmount

/-- The record with a new window. -/
def reopened (b : Budget) (start : ℕ) (credit deficit : ℤ) : Budget :=
  { b with rolloverCredit := credit, deficitAmount := deficit, spent := 0, windowStart := start }

/-- What the hook does to a well-formed record. -/
inductive Settles (b : Budget) (h : b.WellFormed) (now : ℕ) (b' : Budget) : Prop
  | same : b.Open now → b' = b → Settles b h now b'
  | closed (w periods : ℕ) (credit deficit : ℤ) : b.Due now w periods →
      b.Balance h periods credit deficit →
      b' = b.reopened (b.windowStart + periods * w) credit deficit → Settles b h now b'

theorem Due.window_eq {now w w' periods : ℕ} (h : b.Due now w' periods) (hw : b.window = some w) :
    w' = w :=
  Option.some.inj (h.window.symm.trans hw)

theorem Due.bounds {now w periods : ℕ} (h : b.Due now w periods) :
    0 < w ∧ 1 ≤ periods ∧ b.windowStart + periods * w ≤ now ∧
      now < b.windowStart + periods * w + w := by
  have hw := window_pos h.window
  have hlapsed := h.lapsed
  have hpos : 1 ≤ periods := by
    rw [h.periods_eq, Nat.le_div_iff_mul_le hw]
    omega
  have hle : periods * w ≤ now - b.windowStart := by
    rw [h.periods_eq]
    exact Nat.div_mul_le_self _ _
  have hlt : now - b.windowStart < (periods + 1) * w := by
    rw [h.periods_eq]
    exact Nat.lt_mul_of_div_lt (Nat.lt_succ_self _) hw
  rw [Nat.add_mul, one_mul] at hlt
  omega

theorem requireNotExpired_eq_ok {now : ℕ} {u : Unit} :
    b.requireNotExpired now = .ok u ↔ b.Unexpired now :=
  require_eq_ok

instance : Decidable b.Overspent := inferInstanceAs (Decidable (_ ∧ _))

/-- Only one window has lapsed until the next one has. -/
theorem Due.eq_one_iff {now w periods : ℕ} (h : b.Due now w periods) :
    periods = 1 ↔ now < b.windowStart + 2 * w := by
  obtain ⟨hpos, hn, hle, hlt⟩ := h.bounds
  constructor
  · rintro rfl
    omega
  · intro hearly
    by_contra hmany
    have htwo : 2 * w ≤ periods * w := Nat.mul_le_mul_right w (by omega)
    omega

/-- A new start on the schedule is reached without saturating. -/
theorem Due.start_eq {now w periods : ℕ} (h : b.Due now w periods) (hnow : now < 2 ^ 64) :
    saturateSeconds (b.windowStart + saturateSeconds ((now - b.windowStart) / w * w))
      = b.windowStart + periods * w := by
  obtain ⟨_, _, hle, _⟩ := h.bounds
  rw [← h.periods_eq]
  unfold saturateSeconds
  omega

theorem capacity_eq_ok {c : ℤ} (h : b.WellFormed) :
    checkedAdd b.limit b.rolloverCredit = .ok c ↔ b.capacity ≤ i128Max ∧ c = b.capacity := by
  have hlimit := h.limit.1
  have hcredit := h.credit.1
  have hmin : i128Min ≤ 0 := by decide
  rw [checkedAdd_eq_ok, IsI128, capacity]
  omega

theorem isWindowExpired_lapsed {now w : ℕ} (hw : b.window = some w)
    (hfits : b.windowStart + w < 2 ^ 64) (hlapsed : b.windowStart + w ≤ now) :
    b.isWindowExpired now = .ok true := by
  have hend : checkedAddSeconds b.windowStart w = .ok (b.windowStart + w) :=
    checkedAddSeconds_eq_ok.2 ⟨hfits, rfl⟩
  simp [isWindowExpired, hw, hend, hlapsed, pure, Except.pure]

section Lapsed

variable {now w : ℕ} {b' : Budget}

/-- A window that closes in deficit. -/
theorem windowTransition_overspent (h : b.WellFormed) (hunexpired : b.Unexpired now)
    (hw : b.window = some w) (hfits : b.windowStart + w < 2 ^ 64)
    (hlapsed : b.windowStart + w ≤ now) (hcapacity : b.capacity ≤ i128Max)
    (hover : b.Overspent) :
    b.windowTransition now = .ok b' ↔ b.deficitAmount + (b.spent - b.capacity) ≤ i128Max ∧
      b' = b.reopened (saturateSeconds (b.windowStart
        + saturateSeconds ((now - b.windowStart) / w * w))) 0
        (b.deficitAmount + (b.spent - b.capacity)) := by
  have hu : b.requireNotExpired now = .ok () := requireNotExpired_eq_ok.2 hunexpired
  have hcap : checkedAdd b.limit b.rolloverCredit = .ok b.capacity :=
    (capacity_eq_ok h).2 ⟨hcapacity, rfl⟩
  have hspent := h.spent
  have hcap0 : 0 ≤ b.capacity := add_nonneg h.limit.1 h.credit.1
  have hleft : checkedSub b.capacity b.spent = .ok (b.capacity - b.spent) := by
    refine checkedSub_eq_ok.2 ⟨?_, rfl⟩
    unfold IsI128 i128Min i128Max at *
    omega
  have hback : checkedSub b.spent b.capacity = .ok (b.spent - b.capacity) := by
    refine checkedSub_eq_ok.2 ⟨?_, rfl⟩
    unfold IsI128 i128Min i128Max at *
    omega
  have hover' : b.allowDeficit = true ∧ b.capacity < b.spent := hover
  simp only [windowTransition, hu, calculateRollover, hw, isWindowExpired_lapsed hw hfits hlapsed,
    hcap, hleft, if_pos hover', hback, ok_bind, okOr, orFail, reduceCtorEq, ↓reduceIte, pure_bind,
    bind_eq_ok, checkedAdd_eq_ok, pure_eq_ok]
  have hdeficit := h.deficit.1
  constructor
  · rintro ⟨_, ⟨hrange, rfl⟩, rfl⟩
    exact ⟨hrange.2, rfl⟩
  · rintro ⟨hrange, rfl⟩
    refine ⟨_, ⟨⟨?_, hrange⟩, rfl⟩, rfl⟩
    have hmin : i128Min ≤ 0 := by decide
    have hlt := hover.2
    omega

/-- A window that closes within its capacity, or that may not close in deficit. -/
theorem windowTransition_inside (h : b.WellFormed) (hunexpired : b.Unexpired now)
    (hw : b.window = some w) (hfits : b.windowStart + w < 2 ^ 64)
    (hlapsed : b.windowStart + w ≤ now) (hcapacity : b.capacity ≤ i128Max)
    (hinside : ¬ b.Overspent) :
    b.windowTransition now = .ok b' ↔ ∃ credit,
      (if b.rolloverEnabled = true then b.Fits h ((now - b.windowStart) / w) ∧ credit
          = h.share.settled b.rolloverCeiling b.limit b.unspent ((now - b.windowStart) / w)
        else credit = 0) ∧
      b' = b.reopened (saturateSeconds (b.windowStart
        + saturateSeconds ((now - b.windowStart) / w * w))) credit b.deficitAmount := by
  have hu : b.requireNotExpired now = .ok () := requireNotExpired_eq_ok.2 hunexpired
  have hcap : checkedAdd b.limit b.rolloverCredit = .ok b.capacity :=
    (capacity_eq_ok h).2 ⟨hcapacity, rfl⟩
  have hspent := h.spent
  have hcap0 : 0 ≤ b.capacity := add_nonneg h.limit.1 h.credit.1
  have hleft : checkedSub b.capacity b.spent = .ok (b.capacity - b.spent) := by
    refine checkedSub_eq_ok.2 ⟨?_, rfl⟩
    unfold IsI128 i128Min i128Max at *
    omega
  have hperiods : 1 ≤ (now - b.windowStart) / w := by
    rw [Nat.le_div_iff_mul_le (window_pos hw)]
    omega
  have hinside' : ¬ (b.allowDeficit = true ∧ b.capacity < b.spent) := hinside
  simp only [windowTransition, hu, calculateRollover, hw, isWindowExpired_lapsed hw hfits hlapsed,
    hcap, hleft, if_neg hinside', ok_bind, okOr, orFail, reduceCtorEq, ↓reduceIte]
  by_cases henabled : b.rolloverEnabled = true
  · simp only [if_pos henabled, bind_assoc, pure_bind, bind_eq_ok, reduceCtorEq, ↓reduceIte,
      pure_eq_ok, enabledCarry_eq_ok h hcapacity hperiods]
    constructor
    · rintro ⟨credit, hcredit, rfl⟩
      exact ⟨credit, hcredit, rfl⟩
    · rintro ⟨credit, hcredit, rfl⟩
      exact ⟨credit, hcredit, rfl⟩
  · simp only [if_neg henabled, pure_bind, reduceCtorEq, ↓reduceIte, pure_eq_ok]
    constructor
    · rintro rfl
      exact ⟨0, rfl, rfl⟩
    · rintro ⟨_, rfl, rfl⟩
      rfl

end Lapsed

/-- A record whose capacity overflows is not settled. -/
theorem not_windowTransition_overflow {now w : ℕ} {b' : Budget} (h : b.WellFormed)
    (hw : b.window = some w) (hfits : b.windowStart + w < 2 ^ 64)
    (hlapsed : b.windowStart + w ≤ now) (hover : ¬ b.capacity ≤ i128Max) :
    b.windowTransition now ≠ .ok b' := by
  simp only [windowTransition, calculateRollover, hw, isWindowExpired_lapsed hw hfits hlapsed,
    ok_bind, reduceCtorEq, ↓reduceIte, ne_eq, bind_eq_ok, not_exists, not_and]
  rintro _ _ _ ⟨c, hc, _⟩
  exact absurd ((capacity_eq_ok h).1 hc).1 hover

/-- An open window is left alone. -/
theorem Open.windowTransition {now : ℕ} (h : b.Open now) : b.windowTransition now = .ok b := by
  have hu : b.requireNotExpired now = .ok () := requireNotExpired_eq_ok.2 h.unexpired
  have hrunning : b.calculateRollover now = .ok ⟨b.rolloverCredit, 0, false⟩ := by
    unfold calculateRollover
    cases hw : b.window with
    | none => rfl
    | some w =>
        obtain ⟨hfits, hlt⟩ := h.running w hw
        have hend : checkedAddSeconds b.windowStart w = .ok (b.windowStart + w) :=
          checkedAddSeconds_eq_ok.2 ⟨hfits, rfl⟩
        simp [isWindowExpired, hw, hend, hlt, pure, Except.pure]
  simp only [Budget.windowTransition, hu, hrunning, ok_bind, ↓reduceIte]
  rfl

/-- A window can be compared with the clock only when its end is a time. -/
theorem windowTransition_fits {now w : ℕ} {b' : Budget} (h : b.windowTransition now = .ok b')
    (hw : b.window = some w) : b.windowStart + w < 2 ^ 64 := by
  simp only [windowTransition, calculateRollover, hw, isWindowExpired, bind_eq_ok,
    checkedAddSeconds_eq_ok] at h
  obtain ⟨_, _, _, ⟨_, ⟨_, ⟨hfits, _⟩, _⟩, _⟩, _⟩ := h
  exact hfits

/-- **What the hook settles.** -/
theorem windowTransition_eq_ok {now : ℕ} {b' : Budget} (h : b.WellFormed) (hnow : now < 2 ^ 64) :
    b.windowTransition now = .ok b' ↔ b.Settles h now b' := by
  constructor
  · intro hok
    have hunexpired : b.Unexpired now := by
      unfold windowTransition at hok
      obtain ⟨_, hu, _⟩ := bind_eq_ok.1 hok
      exact requireNotExpired_eq_ok.1 hu
    by_cases hopen : b.Open now
    · rw [hopen.windowTransition, Except.ok.injEq] at hok
      exact .same hopen hok.symm
    · -- some window has lapsed
      have hlapsed : ∃ w, b.window = some w ∧ b.windowStart + w ≤ now := by
        by_contra hnone
        refine hopen ⟨hunexpired, ?_⟩
        intro w hw
        refine ⟨windowTransition_fits hok hw, ?_⟩
        by_contra hle
        exact hnone ⟨w, hw, not_lt.1 hle⟩
      obtain ⟨w, hw, hlapsed⟩ := hlapsed
      have hfits := windowTransition_fits hok hw
      have hcapacity : b.capacity ≤ i128Max := by
        by_contra hover
        exact not_windowTransition_overflow h hw hfits hlapsed hover hok
      have hdue : b.Due now w ((now - b.windowStart) / w) :=
        ⟨hunexpired, hw, hfits, hlapsed, rfl, hcapacity⟩
      by_cases hover : b.Overspent
      · obtain ⟨hrange, rfl⟩ :=
          (windowTransition_overspent h hunexpired hw hfits hlapsed hcapacity hover).1 hok
        rw [hdue.start_eq hnow]
        exact .closed w _ _ _ hdue (.overspent hover hrange) rfl
      · obtain ⟨credit, hcredit, rfl⟩ :=
          (windowTransition_inside h hunexpired hw hfits hlapsed hcapacity hover).1 hok
        rw [hdue.start_eq hnow]
        by_cases henabled : b.rolloverEnabled = true
        · rw [if_pos henabled] at hcredit
          obtain ⟨hidle, rfl⟩ := hcredit
          exact .closed w _ _ _ hdue (.carried hover henabled hidle) rfl
        · rw [if_neg henabled] at hcredit
          subst hcredit
          exact .closed w _ _ _ hdue (.dropped hover (Bool.not_eq_true _ ▸ henabled)) rfl
  · rintro (⟨hopen, rfl⟩ | ⟨w, periods, credit, deficit, hdue, hbalance, rfl⟩)
    · exact hopen.windowTransition
    · have hstart := hdue.start_eq hnow
      obtain ⟨hunexpired, hw, hfits, hlapsed, hperiods, hcapacity⟩ := hdue
      subst hperiods
      rw [← hstart]
      cases hbalance with
      | overspent hover hrange =>
          exact (windowTransition_overspent h hunexpired hw hfits hlapsed hcapacity hover).2
            ⟨hrange, rfl⟩
      | carried hinside henabled hidle =>
          refine (windowTransition_inside h hunexpired hw hfits hlapsed hcapacity hinside).2
            ⟨_, ?_, rfl⟩
          rw [if_pos henabled]
          exact ⟨hidle, rfl⟩
      | dropped hinside hdisabled =>
          refine (windowTransition_inside h hunexpired hw hfits hlapsed hcapacity hinside).2
            ⟨_, ?_, rfl⟩
          rw [hdisabled]
          rfl

/-- The hook at a ledger time. -/
def settle (b : Budget) (t : UInt64) : Result Budget := b.windowTransition t.toNat

theorem settle_eq_ok {t : UInt64} {b' : Budget} (h : b.WellFormed) :
    b.settle t = .ok b' ↔ b.Settles h t.toNat b' :=
  windowTransition_eq_ok h t.toNat_lt

/-! ## Balances -/

section Balances

variable {h : b.WellFormed} {now w periods : ℕ} {credit deficit : ℤ} {b' : Budget}

theorem Balance.unique {credit' deficit' : ℤ} (hbalance : b.Balance h periods credit deficit)
    (hbalance' : b.Balance h periods credit' deficit') : credit = credit' ∧ deficit = deficit' := by
  cases hbalance with
  | overspent hover =>
      cases hbalance' with
      | overspent => exact ⟨rfl, rfl⟩
      | carried hinside => exact absurd hover hinside
      | dropped hinside => exact absurd hover hinside
  | carried hinside henabled =>
      cases hbalance' with
      | overspent hover => exact absurd hover hinside
      | carried => exact ⟨rfl, rfl⟩
      | dropped _ hdisabled =>
          rw [henabled] at hdisabled
          cases hdisabled
  | dropped hinside hdisabled =>
      cases hbalance' with
      | overspent hover => exact absurd hover hinside
      | carried _ henabled =>
          rw [henabled] at hdisabled
          cases hdisabled
      | dropped => exact ⟨rfl, rfl⟩

theorem settled_le_max (hcapacity : b.capacity ≤ i128Max) (hfits : b.Fits h periods) :
    h.share.settled b.rolloverCeiling b.limit b.unspent periods ≤ i128Max := by
  obtain ⟨hu0, humax⟩ := unspent_range h hcapacity
  by_cases hcap : b.rolloverCap = 0
  · have hfirst : clamp b.rolloverCeiling (h.share.part b.unspent) ≤ b.unspent :=
      clamp_le.trans (h.share.le _ hu0)
    refine clamp_le.trans ?_
    by_cases hmany : 1 < periods
    · have hidle : ((periods - 1 : ℕ) : ℤ) = (periods : ℤ) - 1 := by omega
      rw [nsmul_eq_mul, hidle, mul_comm]
      exact (hfits hcap hmany).2
    · have hzero : periods - 1 = 0 := by omega
      rw [hzero, zero_nsmul, add_zero]
      exact hfirst.trans humax
  · obtain ⟨hne, hle⟩ := rolloverCeiling_of_cap hcap h
    unfold Carry.settled
    rw [clamp_eq_min hne]
    exact (min_le_right _ _).trans (hle.trans h.cap.2)

theorem Balance.bounds (hbalance : b.Balance h periods credit deficit)
    (hcapacity : b.capacity ≤ i128Max) :
    (0 ≤ credit ∧ credit ≤ i128Max) ∧ 0 ≤ deficit ∧ deficit ≤ i128Max := by
  have hmax : (0 : ℤ) ≤ i128Max := by decide
  have hdeficit := h.deficit
  cases hbalance with
  | overspent hover hrange =>
      have hlt := hover.2
      exact ⟨⟨le_rfl, hmax⟩, by omega, hrange⟩
  | carried _ _ hfits =>
      have hu0 := (unspent_range h hcapacity).1
      exact ⟨⟨Carry.settled_nonneg (rolloverCeiling_nonneg h) h.limit.1 hu0,
        settled_le_max hcapacity hfits⟩, hdeficit⟩
  | dropped => exact ⟨⟨le_rfl, hmax⟩, hdeficit⟩

/-- What the hook leaves is well formed. -/
theorem Settles.wellFormed (hsettles : b.Settles h now b') : b'.WellFormed := by
  cases hsettles with
  | same _ hsame =>
      subst hsame
      exact h
  | closed w periods credit deficit hdue hbalance hclosed =>
      subst hclosed
      obtain ⟨hcredit, hdeficit⟩ := hbalance.bounds hdue.capacity
      have hspent : (0 : ℤ) ≤ 0 ∧ (0 : ℤ) ≤ i128Max := by decide
      exact ⟨h.limit, hspent, hcredit, h.cap, h.maxBps, h.bps, hdeficit⟩

/-- A reopened window is within its capacity. -/
theorem not_overspent_reopened {start : ℕ} (hlimit : 0 ≤ b.limit) (hcredit : 0 ≤ credit) :
    ¬ (b.reopened start credit deficit).Overspent := by
  rintro ⟨_, hlt⟩
  have hcap : (b.reopened start credit deficit).capacity = b.limit + credit := rfl
  have hspent : (b.reopened start credit deficit).spent = 0 := rfl
  omega

/-- The `n`-th boundary is due to be settled at. -/
theorem due_boundary {n : ℕ} (hw : b.window = some w) (hfits : b.windowStart + n * w < 2 ^ 64)
    (hunexpired : b.Unexpired (b.windowStart + n * w)) (hcapacity : b.capacity ≤ i128Max)
    (hn : 1 ≤ n) : b.Due (b.windowStart + n * w) w n := by
  have hpos := window_pos hw
  have hone : 1 * w ≤ n * w := Nat.mul_le_mul_right w hn
  refine ⟨hunexpired, hw, by omega, by omega, ?_, hcapacity⟩
  rw [Nat.add_sub_cancel_left, Nat.mul_div_cancel _ hpos]

end Balances

end Budget

end BudgetContract
end Astroid
