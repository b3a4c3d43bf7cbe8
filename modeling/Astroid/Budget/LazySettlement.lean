import Astroid.Budget.Effects

/-!
# Lazy settlement

The hook settles all elapsed periods at once, and a budget that nobody touched is meant
to be where it would be if it were visited every period.  The two agree exactly on the
`Skippable` budgets (`visits_eq_iff_skippable`): a share of an idle period's allowance
is lost at every boundary that is visited, and kept at every boundary that is not.

Queries visit boundaries (`Polled.visits`), so the difference is up to whoever asks.
-/

namespace Astroid
namespace BudgetContract

open Outcome Lazy Machine

namespace Budget

variable {b b' : Budget} {t : UInt64} {w k n : ℕ}

/-! ## When catching up loses nothing -/

section Conditions

variable (b)

/-- What carries over the end of the current window. -/
def firstCredit : ℤ := clamp b.rolloverCeiling (b.unspent * b.rolloverBps / bpsDenominator)

/-- The budget has windows, and is in use to the end of the `k`-th from now. -/
def Lasts (k : ℕ) : Prop :=
  ∃ w, b.window = some w ∧ b.windowStart + k * w < 2 ^ 64 ∧ b.Unexpired (b.windowStart + k * w)

/-- The whole of an idle window is carried over its end, or what is carried reaches the
ceiling anyway. -/
def KeepsIdle : Prop :=
  b.limit + b.firstCredit = 0 ∨ b.rolloverBps = bpsDenominator ∨
    (b.rolloverCeiling ≠ 0 ∧
      b.rolloverCeiling ≤ (b.limit + b.firstCredit) * b.rolloverBps / bpsDenominator)

/-- It does not matter when the budget is settled: nothing rolls over, or there is no
second boundary, or the amounts overflow before it, or nothing is lost of an idle
window.  After an overspend an idle window must yield nothing. -/
def Skippable : Prop :=
  b.rolloverEnabled = true → b.Lasts 2 → b.capacity ≤ i128Max →
    if b.Overspent then
      b.deficitAmount + (b.spent - b.capacity) ≤ i128Max →
        b.limit * b.rolloverBps < bpsDenominator ∧ (b.Lasts 3 → b.limit = 0)
    else
      b.limit + b.firstCredit ≤ i128Max → b.KeepsIdle

end Conditions

/-- The credit after one window. -/
theorem settled_one (h : b.WellFormed) :
    h.share.settled b.rolloverCeiling b.limit b.unspent 1 = b.firstCredit := by
  rw [settled_carry h]
  rfl

/-- Only everything, or nothing, is carried whole. -/
theorem share_eq_self {x : ℤ} (h : b.WellFormed) (hx : 0 ≤ x) :
    h.share.part x = x ↔ x = 0 ∨ b.rolloverBps = bpsDenominator := by
  constructor
  · intro hwhole
    rcases hx.eq_or_lt with hzero | hpos
    · exact .inl hzero.symm
    · have hone : 1 * b.rolloverBps / bpsDenominator = 1 := h.share.full x hpos hwhole 1
      have hbps := h.bps
      unfold bpsDenominator at *
      refine .inr ?_
      omega
  · rintro (rfl | hfull)
    · show 0 * b.rolloverBps / bpsDenominator = 0
      rw [zero_mul, Int.zero_ediv]
    · show x * b.rolloverBps / bpsDenominator = x
      rw [hfull, Int.mul_ediv_cancel _ (by decide)]

theorem firstCredit_nonneg (h : b.WellFormed) : 0 ≤ b.firstCredit := by
  have hspare : 0 ≤ b.unspent := le_max_left _ _
  exact clamp_nonneg (rolloverCeiling_nonneg h) (h.share.nonneg _ hspare)

/-- A budget keeps what its idle windows allow when its carry is lossless. -/
theorem keepsIdle_iff (h : b.WellFormed) :
    b.KeepsIdle ↔ h.share.Lossless b.rolloverCeiling b.limit b.firstCredit := by
  have hall : 0 ≤ b.limit + b.firstCredit := add_nonneg h.limit.1 (firstCredit_nonneg h)
  unfold KeepsIdle Carry.Lossless
  rw [share_eq_self h hall, or_assoc]
  rfl

/-- Nothing is carried of an amount too small for the percentage. -/
theorem share_eq_zero {x : ℤ} (h : b.WellFormed) (hx : 0 ≤ x) :
    h.share.part x = 0 ↔ x * b.rolloverBps < bpsDenominator := by
  have hproduct : 0 ≤ x * b.rolloverBps := mul_nonneg hx h.bps.1
  show x * b.rolloverBps / bpsDenominator = 0 ↔ _
  unfold bpsDenominator
  omega

theorem clamp_eq_zero {c x : ℤ} (hc : 0 ≤ c) : clamp c x = 0 ↔ x = 0 := by
  unfold clamp
  split <;> omega

/-! ## Windows that are due -/

theorem Due.lasts {now periods : ℕ} (hdue : b.Due now w periods) (hnow : now < 2 ^ 64)
    (hk : k ≤ periods) : b.Lasts k := by
  obtain ⟨_, _, hle, _⟩ := hdue.bounds
  have hmono : k * w ≤ periods * w := Nat.mul_le_mul_right w hk
  refine ⟨w, hdue.window, by omega, hdue.unexpired.mono ?_⟩
  omega

/-- A window that was reopened and has not lapsed since. -/
theorem Due.same {now now' m : ℕ} (hdue' : b.Due now' w n) (hdue : b.Due now w m)
    (hle : now ≤ now') (hrunning : now' < b.windowStart + m * w + w) : n = m := by
  obtain ⟨hpos, _, hle₁, hlt₁⟩ := hdue.bounds
  obtain ⟨_, _, hle₂, hlt₂⟩ := hdue'.bounds
  have hupper : n * w < (m + 1) * w := by
    rw [Nat.add_mul]
    omega
  have hlower : m * w < (n + 1) * w := by
    rw [Nat.add_mul]
    omega
  have h₁ := Nat.lt_of_mul_lt_mul_right hupper
  have h₂ := Nat.lt_of_mul_lt_mul_right hlower
  omega

/-- Whether a later window is due does not depend on a settlement before it. -/
theorem Due.reopened {now' m : ℕ} {credit deficit : ℤ} (hdue : b.Due now' w n)
    (hdue' : (b.reopened (b.windowStart + m * w) credit deficit).Due now' w k) : n = m + k := by
  obtain ⟨hpos, _, hle, hlt⟩ := hdue.bounds
  obtain ⟨_, _, hle', hlt'⟩ := hdue'.bounds
  have hstart : (b.reopened (b.windowStart + m * w) credit deficit).windowStart
      = b.windowStart + m * w := rfl
  rw [hstart] at hle' hlt'
  have hupper : n * w < (m + k + 1) * w := by
    rw [Nat.add_mul, Nat.add_mul]
    omega
  have hlower : (m + k) * w < (n + 1) * w := by
    rw [Nat.add_mul, Nat.add_mul]
    omega
  have h₁ := Nat.lt_of_mul_lt_mul_right hupper
  have h₂ := Nat.lt_of_mul_lt_mul_right hlower
  omega

/-! ## Skippable budgets -/

section Skips

variable {m : ℕ} {credit deficit credit' deficit' credit₂ deficit₂ : ℤ} {start : ℕ}

/-- Fewer periods can be accrued where more can. -/
theorem Fits.mono {h : b.WellFormed} (hfits : b.Fits h n) (hle : m ≤ n) : b.Fits h m := by
  intro hcap hmany
  obtain ⟨hidle, htotal⟩ := hfits hcap (by omega)
  have hmono : b.limit * ((m : ℤ) - 1) ≤ b.limit * ((n : ℤ) - 1) :=
    mul_le_mul_of_nonneg_left (by omega) h.limit.1
  exact ⟨by omega, by omega⟩

theorem Balance.earlier {h : b.WellFormed} (hbalance : b.Balance h n credit deficit)
    (hle : m ≤ n) : ∃ credit deficit, b.Balance h m credit deficit := by
  cases hbalance with
  | overspent hover hrange => exact ⟨_, _, .overspent hover hrange⟩
  | carried hinside henabled hfits => exact ⟨_, _, .carried hinside henabled (hfits.mono hle)⟩
  | dropped hinside hdisabled => exact ⟨_, _, .dropped hinside hdisabled⟩

/-- What can be settled later can be settled now. -/
theorem settle_earlier {t' : UInt64} (h : b.WellFormed) (hle : t ≤ t')
    (hlater : b.settle t' = .ok b') : ∃ r, b.settle t = .ok r := by
  have htime : t.toNat ≤ t'.toNat := hle
  by_cases hopen : b.Open t.toNat
  · exact ⟨b, hopen.windowTransition⟩
  · cases (settle_eq_ok h).1 hlater with
    | same hopen' _ =>
        refine absurd ⟨hopen'.unexpired.mono htime, ?_⟩ hopen
        intro w hw
        obtain ⟨hfits, hlt⟩ := hopen'.running w hw
        exact ⟨hfits, by omega⟩
    | closed w n credit deficit hdue hbalance _ =>
        have hunexpired := hdue.unexpired.mono htime
        have hlapsed : b.windowStart + w ≤ t.toNat := by
          by_contra hrunning
          refine hopen ⟨hunexpired, ?_⟩
          intro w' hw'
          obtain rfl := hdue.window_eq hw'
          exact ⟨hdue.fits, by omega⟩
        have hcount : (t.toNat - b.windowStart) / w ≤ n := by
          rw [hdue.periods_eq]
          exact Nat.div_le_div_right (by omega)
        obtain ⟨credit', deficit', hbalance'⟩ := hbalance.earlier hcount
        exact ⟨_, (settle_eq_ok h).2 (.closed w _ credit' deficit'
          ⟨hunexpired, hdue.window, hdue.fits, hlapsed, rfl, hdue.capacity⟩ hbalance' rfl)⟩

/-- Nothing is spent of a reopened window. -/
theorem unspent_reopened (hlimit : 0 ≤ b.limit) (hcredit : 0 ≤ credit) :
    (b.reopened start credit deficit).unspent = b.limit + credit := by
  show max 0 (b.limit + credit - 0) = b.limit + credit
  omega

/-- The credit of `k` windows that were reopened with `credit`. -/
theorem settled_reopened (h : b.WellFormed) (hr : (b.reopened start credit deficit).WellFormed) :
    hr.share.settled (b.reopened start credit deficit).rolloverCeiling
        (b.reopened start credit deficit).limit (b.reopened start credit deficit).unspent k
      = h.share.settled b.rolloverCeiling b.limit (b.limit + credit) k := by
  have hcredit : 0 ≤ credit := hr.credit.1
  rw [unspent_reopened h.limit.1 hcredit]
  rfl

/-- What two settlements of a skippable budget leave, after `m` windows and after `k` more. -/
theorem Skippable.balance (h : b.WellFormed) (hskip : b.Skippable)
    (hr : (b.reopened start credit deficit).WellFormed) (hlasts : ∀ j ≤ m + k, b.Lasts j)
    (hm : 1 ≤ m) (hk : 1 ≤ k) (hcapacity : b.capacity ≤ i128Max)
    (hcapacity' : (b.reopened start credit deficit).capacity ≤ i128Max)
    (hbalance : b.Balance h m credit deficit)
    (hbalance₂ : (b.reopened start credit deficit).Balance hr k credit₂ deficit₂)
    (honce : b.Balance h (m + k) credit' deficit') : credit₂ = credit' ∧ deficit₂ = deficit' := by
  have hceiling := rolloverCeiling_nonneg h
  have hlimit := h.limit.1
  have hinside' : ¬ (b.reopened start credit deficit).Overspent :=
    not_overspent_reopened hlimit hr.credit.1
  cases hbalance₂ with
  | overspent hover => exact absurd hover hinside'
  | dropped _ hdisabled =>
      -- without rollover there is no credit, and the deficit was booked before
      have hnone : b.rolloverEnabled = false := hdisabled
      cases hbalance with
      | overspent hover hrange =>
          exact honce.unique (.overspent hover hrange) |>.imp Eq.symm Eq.symm
      | carried _ henabled => rw [hnone] at henabled; cases henabled
      | dropped hinside _ => exact honce.unique (.dropped hinside hnone) |>.imp Eq.symm Eq.symm
  | carried _ henabled hfits =>
      have hsome : b.rolloverEnabled = true := henabled
      rw [settled_reopened h hr]
      have hskip' := hskip hsome (hlasts 2 (by omega)) hcapacity
      cases hbalance with
      | dropped _ hdisabled => rw [hsome] at hdisabled; cases hdisabled
      | overspent hover hrange =>
          rw [if_pos hover] at hskip'
          obtain ⟨hsmall, hthird⟩ := hskip' hrange
          obtain ⟨rfl, rfl⟩ := honce.unique (.overspent hover hrange)
          refine ⟨?_, rfl⟩
          have hnothing : h.share.part b.limit = 0 := (share_eq_zero h hlimit).2 hsmall
          have hidle : (k - 1) • b.limit = 0 := by
            by_cases hone : k = 1
            · rw [hone, Nat.sub_self, zero_nsmul]
            · rw [hthird (hlasts 3 (by omega)), nsmul_zero]
          rw [Carry.settled_eq hlimit, add_zero, hnothing, hidle, add_zero]
          exact (clamp_eq_zero hceiling).2 rfl
      | carried hinside _ hfits =>
          rw [if_neg hinside] at hskip'
          have hspare : 0 ≤ b.unspent := le_max_left _ _
          have hgrows : b.firstCredit ≤ h.share.settled b.rolloverCeiling b.limit b.unspent m := by
            rw [← settled_one h]
            exact Carry.settled_mono hlimit (by omega)
          have hroom : b.limit + b.firstCredit ≤ i128Max :=
            (add_le_add_right hgrows b.limit).trans hcapacity'
          have hlossless := (keepsIdle_iff h).1 (hskip' hroom)
          rw [← settled_one h] at hlossless
          cases honce with
          | overspent hover => exact absurd hover hinside
          | dropped _ hdisabled => rw [hsome] at hdisabled; cases hdisabled
          | carried =>
              exact ⟨hlossless.settled_settled hceiling hlimit hspare hm hk, rfl⟩

/-- **Settling a skippable budget can wait.** -/
theorem Skippable.skips (h : b.WellFormed) (hskip : b.Skippable) : Lazy.Skips settle b where
  earlier t t' r' hle hlater := settle_earlier h hle hlater
  twice t t' r r₂ r' hle hfirst hsecond honce := by
    have htime : t.toNat ≤ t'.toNat := hle
    cases (settle_eq_ok h).1 hfirst with
    | same _ hsame =>
        subst hsame
        rw [hsecond, Except.ok.injEq] at honce
        exact honce
    | closed w m credit deficit hdue hbalance hclosed =>
        obtain ⟨hpos, hm, _, _⟩ := hdue.bounds
        have hr : r.WellFormed := ((settle_eq_ok h).1 hfirst).wellFormed
        subst hclosed
        cases (settle_eq_ok h).1 honce with
        | same hopen _ =>
            have hrunning := (hopen.running w hdue.window).2
            have hlapsed := hdue.lapsed
            omega
        | closed w' n credit' deficit' hdue' hbalance' hclosed' =>
            obtain rfl := hdue'.window_eq hdue.window
            subst hclosed'
            cases (settle_eq_ok hr).1 hsecond with
            | same hopen hsame =>
                have hcount : n = m := hdue'.same hdue htime (hopen.running _ hdue.window).2
                subst hcount hsame
                obtain ⟨rfl, rfl⟩ := hbalance.unique hbalance'
                rfl
            | closed w₂ k credit₂ deficit₂ hdue₂ hbalance₂ hclosed₂ =>
                obtain rfl := hdue₂.window_eq hdue.window
                subst hclosed₂
                have hcount := hdue'.reopened hdue₂
                subst hcount
                have hk := hdue₂.bounds.2.1
                obtain ⟨rfl, rfl⟩ := hskip.balance h hr (fun j hj => hdue'.lasts t'.toNat_lt hj) hm hk
                  hdue.capacity hdue₂.capacity hbalance hbalance₂ hbalance'
                have hstart : b.windowStart + m * w₂ + k * w₂ = b.windowStart + (m + k) * w₂ := by
                  rw [Nat.add_mul, Nat.add_assoc]
                show b.reopened (b.windowStart + m * w₂ + k * w₂) credit₂ deficit₂ = _
                rw [hstart]

/-! ## Budgets that are not -/

/-- How often the budget is settled makes no difference to the record. -/
def SettlesOnce (b : Budget) : Prop :=
  ∀ ts t r r', (ts ++ [t]).Pairwise (· ≤ ·) → Lazy.visits settle b (ts ++ [t]) = .ok r →
    settle b t = .ok r' → r = r'

theorem exists_time (hn : n < 2 ^ 64) : ∃ t : UInt64, t.toNat = n :=
  ⟨.ofNatLT n hn, UInt64.toNat_ofNatLT⟩

/-- Visiting the first boundary on the way makes no difference to the credit, where `i`
more windows can be settled either way. -/
theorem SettlesOnce.same_credit {i : ℕ} (h : b.WellFormed) (hsame : b.SettlesOnce)
    (hw : b.window = some w) (hfits : b.windowStart + (1 + i) * w < 2 ^ 64)
    (hunexpired : b.Unexpired (b.windowStart + (1 + i) * w)) (hi : 1 ≤ i)
    (hcapacity : b.capacity ≤ i128Max) (hbalance : b.Balance h 1 credit deficit)
    (hcapacity' : b.limit + credit ≤ i128Max)
    (hbalance₂ : ∀ start, ∀ hr : (b.reopened start credit deficit).WellFormed,
      (b.reopened start credit deficit).Balance hr i credit₂ deficit₂)
    (honce : b.Balance h (1 + i) credit' deficit') : credit₂ = credit' := by
  have hpos := window_pos hw
  have hsplit : b.windowStart + 1 * w + i * w = b.windowStart + (1 + i) * w := by
    rw [Nat.add_mul, Nat.add_assoc]
  obtain ⟨t₁, ht₁⟩ : ∃ t₁ : UInt64, t₁.toNat = b.windowStart + 1 * w :=
    exists_time (by omega)
  obtain ⟨t₂, ht₂⟩ : ∃ t₂ : UInt64, t₂.toNat = b.windowStart + (1 + i) * w :=
    exists_time hfits
  have hle : t₁ ≤ t₂ := by
    show t₁.toNat ≤ t₂.toNat
    omega
  have hdue₁ : b.Due t₁.toNat w 1 := by
    rw [ht₁]
    exact due_boundary hw (by omega) (hunexpired.mono (by omega)) hcapacity le_rfl
  have hfirst := (settle_eq_ok h).2 (.closed w 1 _ _ hdue₁ hbalance rfl)
  have hr := ((settle_eq_ok h).1 hfirst).wellFormed
  have hdue₂ : (b.reopened (b.windowStart + 1 * w) credit deficit).Due t₂.toNat w i := by
    rw [← hsplit] at hfits hunexpired
    rw [ht₂, ← hsplit]
    exact due_boundary (b := b.reopened _ credit deficit) hw hfits hunexpired hcapacity' hi
  have hsecond := (settle_eq_ok hr).2 (.closed w i _ _ hdue₂ (hbalance₂ _ hr) rfl)
  have hdue : b.Due t₂.toNat w (1 + i) := by
    rw [ht₂]
    exact due_boundary hw hfits hunexpired hcapacity (by omega)
  have hlater := (settle_eq_ok h).2 (.closed w (1 + i) _ _ hdue honce rfl)
  have hvisits : Lazy.visits settle b [t₁, t₂] = .ok _ :=
    (visits_cons hfirst).trans (visits_cons hsecond)
  have hsorted : ([t₁] ++ [t₂]).Pairwise (· ≤ ·) := by simpa using hle
  exact congrArg rolloverCredit (hsame [t₁] t₂ _ _ hsorted hvisits hlater)

theorem fits_one {h : b.WellFormed} : b.Fits h 1 := fun _ hmany => absurd hmany (lt_irrefl 1)

/-- What `k` windows carry after the budget was reopened. -/
theorem reopened_carried (h : b.WellFormed) (hr : (b.reopened start credit deficit).WellFormed)
    (henabled : b.rolloverEnabled = true) (hfits : (b.reopened start credit deficit).Fits hr k) :
    (b.reopened start credit deficit).Balance hr k
      (h.share.settled b.rolloverCeiling b.limit (b.limit + credit) k) deficit := by
  rw [← settled_reopened h hr]
  exact .carried (not_overspent_reopened h.limit.1 hr.credit.1) henabled hfits

/-- After an overspend, an idle window yields nothing on the way to the second boundary,
and not to the third either. -/
theorem SettlesOnce.overspent (h : b.WellFormed) (hsame : b.SettlesOnce)
    (henabled : b.rolloverEnabled = true) (hlasts : b.Lasts 2) (hcapacity : b.capacity ≤ i128Max)
    (hover : b.Overspent) (hrange : b.deficitAmount + (b.spent - b.capacity) ≤ i128Max) :
    b.limit * b.rolloverBps < bpsDenominator ∧ (b.Lasts 3 → b.limit = 0) := by
  have hlimit := h.limit
  have hceiling := rolloverCeiling_nonneg h
  have hroom : b.limit + 0 ≤ i128Max := by omega
  have hbooked : ∀ n, b.Balance h n 0 (b.deficitAmount + (b.spent - b.capacity)) :=
    fun _ => .overspent hover hrange
  have hnothing : h.share.part b.limit = 0 := by
    obtain ⟨w, hw, hfits, hunexpired⟩ := hlasts
    have hcredit := hsame.same_credit (i := 1) h hw hfits hunexpired le_rfl hcapacity (hbooked 1)
      hroom (fun _ hr => reopened_carried h hr henabled fits_one) (hbooked 2)
    rw [Carry.settled_eq hlimit.1, clamp_eq_zero hceiling, Nat.sub_self, zero_nsmul, add_zero,
      add_zero] at hcredit
    exact hcredit
  refine ⟨(share_eq_zero h hlimit.1).1 hnothing, ?_⟩
  rintro ⟨w, hw, hfits, hunexpired⟩
  have htwo : ∀ start, ∀ hr : (b.reopened start 0 (b.deficitAmount + (b.spent - b.capacity))).WellFormed,
      (b.reopened start 0 (b.deficitAmount + (b.spent - b.capacity))).Fits hr 2 := by
    intro start hr _ _
    rw [unspent_reopened hlimit.1 le_rfl, add_zero]
    show b.limit * (2 - 1) ≤ i128Max ∧
      clamp b.rolloverCeiling (h.share.part b.limit) + b.limit * (2 - 1) ≤ i128Max
    rw [hnothing, (clamp_eq_zero hceiling).2 rfl]
    omega
  have hcredit := hsame.same_credit (i := 2) h hw hfits hunexpired (by decide) hcapacity (hbooked 1)
    hroom (fun start hr => reopened_carried h hr henabled (htwo start hr)) (hbooked 3)
  rw [Carry.settled_eq hlimit.1, clamp_eq_zero hceiling, add_zero, hnothing, zero_add,
    one_nsmul] at hcredit
  exact hcredit

/-- Within its capacity, the budget keeps what its idle windows allow. -/
theorem SettlesOnce.keepsIdle (h : b.WellFormed) (hsame : b.SettlesOnce)
    (henabled : b.rolloverEnabled = true) (hlasts : b.Lasts 2) (hcapacity : b.capacity ≤ i128Max)
    (hinside : ¬ b.Overspent) (hroom : b.limit + b.firstCredit ≤ i128Max) : b.KeepsIdle := by
  obtain ⟨w, hw, hfits, hunexpired⟩ := hlasts
  have hlimit := h.limit
  have hfirst : b.Balance h 1 b.firstCredit b.deficitAmount := by
    rw [← settled_one h]
    exact .carried hinside henabled fits_one
  have htwo : b.Fits h 2 := by
    intro _ _
    show b.limit * (2 - 1) ≤ i128Max ∧ b.firstCredit + b.limit * (2 - 1) ≤ i128Max
    omega
  have hcredit := hsame.same_credit (i := 1) h hw hfits hunexpired le_rfl hcapacity hfirst hroom
    (fun _ hr => reopened_carried h hr henabled fits_one) (.carried hinside henabled htwo)
  rw [keepsIdle_iff h, ← settled_one h]
  rw [← settled_one h] at hcredit
  exact Carry.lossless_of_settled hlimit.1 hcredit

end Skips

/-- A daily budget that rolls `rolloverBps` of what is left over. -/
def daily (rolloverBps : ℤ) : Budget where
  owner := .account 1
  limit := 100
  spent := 0
  period := .daily
  periodSeconds := 0
  windowStart := 0
  rolloverEnabled := true
  rolloverCredit := 0
  rolloverCap := 0
  rolloverMaxBps := 0
  rolloverBps := rolloverBps
  allowDeficit := false
  deficitAmount := 0
  expiresAt := 0
  state := .active

theorem daily_wellFormed {bps : ℤ} (hbps : 0 ≤ bps ∧ bps ≤ bpsDenominator) :
    (daily bps).WellFormed := by
  have hzero : (0 : ℤ) ≤ 0 ∧ (0 : ℤ) ≤ i128Max := by decide
  have hlimit : (0 : ℤ) ≤ 100 ∧ (100 : ℤ) ≤ i128Max := by decide
  have hmax : (0 : ℤ) ≤ 0 ∧ (0 : ℤ) < bpsDenominator := by decide
  exact ⟨hlimit, hzero, hzero, hzero, hmax, hbps, hzero⟩

end Budget

/-! ## Queries settle -/

section Polls

variable {self : Address} {env : Env self} {s s' : State} {id : String} {b b' : Budget}

/-- A budget that has not started is left alone by the hook. -/
theorem settle_scheduled (h : b.WellFormed) (hscheduled : env.timestamp.toNat < b.windowStart)
    (hsettle : b.settle env.timestamp = .ok b') : b' = b := by
  cases (Budget.settle_eq_ok h).1 hsettle with
  | same _ hsame => exact hsame
  | closed w _ _ _ hdue =>
      have hlapsed := hdue.lapsed
      omega

/-- A query of what remains, and a rollover, store what the hook leaves. -/
theorem poll_settles {call : Call} (h : b.WellFormed) (hb : s.budget id = some b)
    (hpoll : call = .remaining id ∨ ∃ caller, call = .rollover caller id)
    (hsettle : b.settle env.timestamp = .ok b') (hexec : exec env s call = .ok s') :
    s'.budget id = some b' := by
  obtain ⟨b₁, hb₁, heffect⟩ := exec_effect hb hexec
  rw [hb₁]
  rcases hpoll with rfl | ⟨caller, rfl⟩
  · cases heffect with
    | kept hnot => exact absurd rfl hnot
    | remaining hsettle' =>
        rw [hsettle, Except.ok.injEq] at hsettle'
        rw [hsettle']
    | unsettled hwhy =>
        rcases hwhy with hscheduled | hfails
        · rw [settle_scheduled h hscheduled hsettle]
        · exact absurd hsettle (hfails b')
  · cases heffect with
    | kept hnot => exact absurd rfl hnot
    | rollover hsettle' =>
        rw [hsettle, Except.ok.injEq] at hsettle'
        rw [hsettle']

/-- Calls that only settle the budget `id`, at their times. -/
inductive Polled (self : Address) (id : String) (s : State) : List UInt64 → State → Prop
  | nil : Polled self id s [] s
  | step {ts : List UInt64} {s₁ s₂ : State} {env : Env self} {call : Call} :
      Polled self id s ts s₁ → (call = .remaining id ∨ ∃ caller, call = .rollover caller id) →
      exec env s₁ call = .ok s₂ → Polled self id s (ts ++ [env.timestamp]) s₂

/-- **A budget that is polled is settled at every poll.** -/
theorem Polled.visits {ts : List UInt64} {r : Budget} (hpolled : Polled self id s ts s')
    (hb : s.budget id = some b) (h : b.WellFormed)
    (hvisits : Lazy.visits Budget.settle b ts = .ok r) : s'.budget id = some r ∧ r.WellFormed := by
  induction hpolled generalizing r with
  | nil =>
      cases hvisits
      exact ⟨hb, h⟩
  | step _ hpoll hexec ih =>
      rw [visits_append, bind_eq_ok] at hvisits
      obtain ⟨r₁, hbefore, hsettle⟩ := hvisits
      obtain ⟨hb₁, h₁⟩ := ih hbefore
      refine ⟨?_, ((Budget.settle_eq_ok h₁).1 hsettle).wellFormed⟩
      exact poll_settles h₁ hb₁ hpoll hsettle hexec

end Polls

end BudgetContract
end Astroid
