import Astroid.Budget.LazySettlement

/-!
# The ceilings of the rollover credit

A budget has two of them, an amount and a percentage of its limit, and the hook merges
them into one in which zero is none (`Lazy.tighter`).  A percentage that rounds down to
nothing is then no ceiling at all: the credit is under both of them exactly when the
percentage is worth something or nothing is banked (`credit_under_ceilings_iff`).
-/

namespace Astroid
namespace BudgetContract

open Outcome Lazy Budget

variable {self : Address} {env : Env self} {s s' : State} {id : String} {caller : Address}
  {b b' : Budget} {now : UInt64}

/-! ## What is banked -/

namespace Budget

section Definitions

variable (b : Budget)

/-- The credit is under every ceiling that was configured. -/
def UnderCeilings : Prop :=
  (b.rolloverCap ≠ 0 → b.rolloverCredit ≤ b.rolloverCap) ∧
    (b.rolloverMaxBps ≠ 0 → b.rolloverCredit ≤ b.limit * b.rolloverMaxBps / bpsDenominator)

/-- A percentage was configured, and it rounds down to nothing. -/
def RoundsAway : Prop := b.rolloverMaxBps ≠ 0 ∧ b.limit * b.rolloverMaxBps < bpsDenominator

/-- There is credit to keep at `now`: what is held, or what the windows that have lapsed
leave. -/
def Banks (now : ℕ) : Prop :=
  match b.window with
  | none => 0 < b.rolloverCredit
  | some w =>
      if now < b.windowStart + w then 0 < b.rolloverCredit
      else b.rolloverEnabled = true ∧ ¬ b.Overspent ∧
        (bpsDenominator ≤ b.unspent * b.rolloverBps ∨ (0 < b.limit ∧ b.windowStart + 2 * w ≤ now))

end Definitions

/-- A part of something is positive from the denominator on. -/
theorem ediv_pos_iff {x : ℤ} : 0 < x / bpsDenominator ↔ bpsDenominator ≤ x := by
  have hpos : 0 < bpsDenominator := by decide
  rw [Int.lt_iff_add_one_le, zero_add, Int.le_ediv_iff_mul_le hpos, one_mul]

/-- A clamped credit is under both ceilings unless the percentage rounded away. -/
theorem underCeilings_clamped {x : ℤ} (h : b.WellFormed)
    (hcredit : b.rolloverCredit = clamp b.rolloverCeiling x) :
    b.UnderCeilings ↔ ¬ (b.RoundsAway ∧ 0 < x) := by
  have hpct0 : 0 ≤ b.limit * b.rolloverMaxBps / bpsDenominator :=
    Int.ediv_nonneg (mul_nonneg h.limit.1 h.maxBps.1) (by decide)
  have hboth : Under b.rolloverCap b.rolloverCredit ∧
      Under (b.limit * b.rolloverMaxBps / bpsDenominator) b.rolloverCredit := by
    rw [under_tighter h.cap.1 hpct0, hcredit]
    exact under_clamp
  obtain ⟨hcap, hpct⟩ := hboth
  have hpositive : 0 < b.rolloverCredit ↔ 0 < x := by
    rw [hcredit]
    exact clamp_pos (rolloverCeiling_nonneg h)
  have haway : b.limit * b.rolloverMaxBps < bpsDenominator ↔
      b.limit * b.rolloverMaxBps / bpsDenominator = 0 := by
    rw [← not_le, ← ediv_pos_iff]
    omega
  unfold UnderCeilings RoundsAway
  rw [haway, ← hpositive]
  constructor
  · rintro ⟨_, hunder⟩ ⟨⟨hbps, hzero⟩, hpos⟩
    have hle := hunder hbps
    omega
  · intro hnot
    refine ⟨hcap, ?_⟩
    intro hbps
    by_cases hzero : b.limit * b.rolloverMaxBps / bpsDenominator = 0
    · -- with no percentage left, there is nothing to bound
      by_contra hover
      exact hnot ⟨⟨hbps, hzero⟩, by omega⟩
    · exact hpct hzero

/-- What the hook leaves is positive exactly when there was something to bank. -/
theorem credit_pos_iff (h : b.WellFormed) (hsettle : b.settle now = .ok b') :
    0 < b'.rolloverCredit ↔ b.Banks now.toNat := by
  cases (settle_eq_ok h).1 hsettle with
  | same hopen hsame =>
      subst hsame
      unfold Banks
      split
      · exact Iff.rfl
      · rename_i w hw
        rw [if_pos (hopen.running w hw).2]
  | closed w periods credit deficit hdue hbalance hclosed =>
      subst hclosed
      have hlate : ¬ now.toNat < b.windowStart + w := not_lt.2 hdue.lapsed
      have hbanks : b.Banks now.toNat ↔ b.rolloverEnabled = true ∧ ¬ b.Overspent ∧
          (bpsDenominator ≤ b.unspent * b.rolloverBps ∨
            (0 < b.limit ∧ b.windowStart + 2 * w ≤ now.toNat)) := by
        simp [Banks, hdue.window, hlate]
      rw [hbanks]
      show 0 < credit ↔ _
      cases hbalance with
      | overspent hover => simp [hover]
      | dropped _ hdisabled => simp [hdisabled]
      | carried hinside henabled =>
          obtain ⟨_, hpos, _⟩ := hdue.bounds
          have hu0 := (unspent_range h hdue.capacity).1
          have hlimit := h.limit.1
          have hcarry : 0 < h.share.part b.unspent ↔ bpsDenominator ≤ b.unspent * b.rolloverBps :=
            ediv_pos_iff
          have hcarry0 := h.share.nonneg _ hu0
          have hmany : b.windowStart + 2 * w ≤ now.toNat ↔ 1 < periods := by
            rw [← not_lt, ← hdue.eq_one_iff]
            omega
          have hidle : 0 < (periods - 1) • b.limit ↔ 0 < b.limit ∧ 1 < periods := by
            rw [nsmul_eq_mul]
            constructor
            · intro hprod
              have hlimit0 : b.limit ≠ 0 := right_ne_zero_of_mul hprod.ne'
              have hcount : ((periods - 1 : ℕ) : ℤ) ≠ 0 := left_ne_zero_of_mul hprod.ne'
              omega
            · rintro ⟨hlimit0, hcount⟩
              exact mul_pos (by omega) hlimit0
          have hidle0 : 0 ≤ (periods - 1) • b.limit := nsmul_nonneg hlimit _
          rw [Carry.settled_eq hlimit, clamp_pos (rolloverCeiling_nonneg h)]
          simp only [henabled, hinside, not_false_eq_true, true_and, hmany]
          rw [← hcarry, ← hidle]
          omega

end Budget

/-! ## The hook and the setters -/

/-- What a window that lapsed leaves was clamped. -/
theorem Budget.settled_clamped {w periods : ℕ} (h : b.WellFormed)
    (hdue : b.Due now.toNat w periods) (hsettle : b.settle now = .ok b') :
    ∃ x, b'.rolloverCredit = clamp b'.rolloverCeiling x := by
  have hnothing : clamp b.rolloverCeiling 0 = 0 :=
    le_antisymm clamp_le (clamp_nonneg (rolloverCeiling_nonneg h) le_rfl)
  cases (settle_eq_ok h).1 hsettle with
  | same hopen _ =>
      have hrunning := (hopen.running w hdue.window).2
      have hlapsed := hdue.lapsed
      omega
  | closed w' periods' credit deficit hdue' hbalance hclosed =>
      subst hclosed
      show ∃ x, credit = clamp b.rolloverCeiling x
      cases hbalance with
      | overspent => exact ⟨0, hnothing.symm⟩
      | dropped => exact ⟨0, hnothing.symm⟩
      | carried => exact ⟨_, Carry.settled_eq h.limit.1⟩

/-- The hook writes no part of the policy. -/
theorem Budget.settle_policy (hsettle : b.settle now = .ok b') :
    b'.limit = b.limit ∧ b'.rolloverMaxBps = b.rolloverMaxBps ∧ b'.rolloverCap = b.rolloverCap := by
  obtain ⟨_, _, _, _, rfl⟩ := settle_terms hsettle
  exact ⟨rfl, rfl, rfl⟩

/-- After a window that lapsed. -/
theorem Budget.settled_underCeilings (h : b.WellFormed)
    (hlapsed : b.isWindowExpired now.toNat = .ok true) (hsettle : b.settle now = .ok b') :
    b'.UnderCeilings ↔ ¬ (b.RoundsAway ∧ b.Banks now.toNat) := by
  have hsettles := (settle_eq_ok h).1 hsettle
  have hdue : ∃ w periods, b.Due now.toNat w periods := by
    cases hsettles with
    | closed w periods _ _ hdue => exact ⟨w, periods, hdue⟩
    | same hopen _ =>
        unfold isWindowExpired at hlapsed
        split at hlapsed
        · cases hlapsed
        · rename_i w hw
          simp only [bind_eq_ok, checkedAddSeconds_eq_ok, pure_eq_ok, decide_eq_true_eq] at hlapsed
          obtain ⟨_, ⟨_, rfl⟩, hle⟩ := hlapsed
          exact absurd (hopen.running w hw).2 (not_lt.2 hle)
  obtain ⟨w, periods, hdue⟩ := hdue
  obtain ⟨x, hcredit⟩ := settled_clamped h hdue hsettle
  have hwell : b'.WellFormed := hsettles.wellFormed
  obtain ⟨hlimit, hmax, _⟩ := settle_policy hsettle
  have haway : b'.RoundsAway ↔ b.RoundsAway := by
    unfold RoundsAway
    rw [hlimit, hmax]
  rw [underCeilings_clamped hwell hcredit, haway, ← credit_pos_iff h hsettle, hcredit,
    clamp_pos (rolloverCeiling_nonneg hwell)]

/-- After a new policy was adopted. -/
theorem Budget.clamped_underCeilings (h : b.WellFormed) (hclamp : clampCredit b = .ok b') :
    b'.UnderCeilings ↔ ¬ (b.RoundsAway ∧ b.rolloverEnabled = true ∧ 0 < b.rolloverCredit) := by
  have hnothing : clamp b.rolloverCeiling 0 = 0 :=
    le_antisymm clamp_le (clamp_nonneg (rolloverCeiling_nonneg h) le_rfl)
  obtain ⟨credit, rfl, _, hrange⟩ := clampCredit_ok hclamp
  obtain ⟨hcredit0, hcreditMax⟩ := hrange h
  have hwell : Budget.WellFormed { b with rolloverCredit := credit } :=
    ⟨h.limit, h.spent, ⟨hcredit0, hcreditMax⟩, h.cap, h.maxBps, h.bps, h.deficit⟩
  have hclamped : credit
      = clamp b.rolloverCeiling (if b.rolloverEnabled = true then b.rolloverCredit else 0) := by
    unfold clampCredit at hclamp
    by_cases henabled : b.rolloverEnabled = false
    · simp [henabled] at hclamp
      simp [henabled, hnothing, ← hclamp]
    · have hon : b.rolloverEnabled = true := by simpa using henabled
      by_cases hpos : 0 < b.rolloverCredit
      · simp [henabled, hpos, effectiveRolloverCap_eq h] at hclamp
        simp [hon, ← hclamp, applyCap, clamp]
      · simp [henabled, hpos] at hclamp
        have hsame : b.rolloverCredit = credit := congrArg Budget.rolloverCredit hclamp
        have hzero : b.rolloverCredit = 0 := le_antisymm (not_lt.1 hpos) h.credit.1
        simp [hon, ← hsame, hzero, hnothing]
  rw [underCeilings_clamped hwell hclamped]
  refine not_congr (and_congr Iff.rfl ?_)
  by_cases hon : b.rolloverEnabled = true
  · simp [hon]
  · simp [hon]

/-- A budget that has not started banks what it holds. -/
theorem Budget.banks_scheduled {now : ℕ} (h : now < b.windowStart) :
    b.Banks now ↔ 0 < b.rolloverCredit := by
  unfold Banks
  split
  · exact Iff.rfl
  · rename_i w _
    rw [if_pos (by omega)]

/-- The record a new recurrence leaves. -/
theorem setRecurrence_record {period : Period} {periodSeconds : UInt64} {enabled : Bool}
    {cap maxBps : I128} (hb : s.budget id = some b)
    (h : setRecurrence env s caller id period periodSeconds.toNat enabled cap maxBps = .ok s') :
    ∃ r c start, ((env.timestamp.toNat < b.windowStart ∧ r = b) ∨ b.settle env.timestamp = .ok r) ∧
      (0 ≤ cap.1 ∧ 0 ≤ maxBps.1 ∧ maxBps.1 < bpsDenominator) ∧
      clampCredit (r.recurring period periodSeconds.toNat enabled cap maxBps) = .ok c ∧
      s'.budget id = some { c with windowStart := start } := by
  simp only [setRecurrence, requireValidLimit, bind_eq_ok, requireOwner_eq_ok, require_eq_ok] at h
  obtain ⟨_, hcap, _, hmax0, _, hmax, _, _, b₁, ⟨_, hb₁, _⟩, _, _, h⟩ := h
  rw [hb, Option.some.injEq] at hb₁
  subst hb₁
  by_cases hscheduled : env.timestamp.toNat < b.windowStart
  · simp only [hscheduled, decide_true, ↓reduceIte, bind_eq_ok, pure_eq_ok] at h
    obtain ⟨_, _, _, rfl, c, hclamp, rfl⟩ := h
    exact ⟨b, c, c.windowStart, .inl ⟨hscheduled, rfl⟩, ⟨hcap, hmax0, hmax⟩, hclamp, store_budget⟩
  · simp only [hscheduled, decide_false, Bool.false_eq_true, ↓reduceIte, bind_eq_ok,
      pure_eq_ok] at h
    obtain ⟨r, hsettle, c, hclamp, rfl⟩ := h
    exact ⟨r, c, _, .inr hsettle, ⟨hcap, hmax0, hmax⟩, hclamp, store_budget⟩

/-- The record a new rollover policy leaves. -/
theorem setRolloverConfig_record {enabled : Bool} {bps cap : I128} (hb : s.budget id = some b)
    (h : setRolloverConfig env s caller id enabled bps cap = .ok s') :
    ∃ r c, b.settle env.timestamp = .ok r ∧ (0 ≤ cap.1 ∧ 0 ≤ bps.1 ∧ bps.1 ≤ bpsDenominator) ∧
      clampCredit { r with rolloverEnabled := enabled, rolloverBps := bps, rolloverCap := cap }
        = .ok c ∧ s'.budget id = some c := by
  simp only [setRolloverConfig, requireValidLimit, requireRolloverBps, bind_eq_ok,
    requireOwner_eq_ok, require_eq_ok, pure_eq_ok] at h
  obtain ⟨_, hcap, _, ⟨_, hbps0, hbps⟩, b₁, ⟨_, hb₁, _⟩, _, _, _, _, r, hsettle, c, hclamp, rfl⟩ := h
  rw [hb, Option.some.injEq] at hb₁
  subst hb₁
  exact ⟨r, c, hsettle, ⟨hcap, hbps0, hbps⟩, hclamp, store_budget⟩

/-- **The credit is under its ceilings** after a window that lapsed and after every new
policy, exactly when the percentage does not round away what is banked. -/
theorem credit_under_ceilings_iff (h : (machine self).Reachable s) (hb : s.budget id = some b) :
    (∀ (now : UInt64) (r : Budget), b.isWindowExpired now.toNat = .ok true →
      b.settle now = .ok r → (r.UnderCeilings ↔ ¬ (b.RoundsAway ∧ b.Banks now.toNat))) ∧
    (∀ (env : Env self) (caller : Address) (period : Period) (periodSeconds : UInt64)
      (enabled : Bool) (cap maxBps : I128) (s' : State),
      exec env s (.setRecurrence caller id period periodSeconds enabled cap maxBps) = .ok s' →
      ∃ b', s'.budget id = some b' ∧ (b'.UnderCeilings ↔
        ¬ (Budget.RoundsAway { b with rolloverMaxBps := maxBps } ∧ enabled = true ∧
          b.Banks env.timestamp.toNat))) ∧
    (∀ (env : Env self) (caller : Address) (enabled : Bool) (bps cap : I128) (s' : State),
      exec env s (.setRolloverConfig caller id enabled bps cap) = .ok s' →
      ∃ b', s'.budget id = some b' ∧ (b'.UnderCeilings ↔
        ¬ (b.RoundsAway ∧ enabled = true ∧ b.Banks env.timestamp.toNat))) := by
  have hsound := sound_reachable h hb
  refine ⟨fun now r => settled_underCeilings hsound.wellFormed, ?_, ?_⟩
  · intro env caller period periodSeconds enabled cap maxBps s' hexec
    obtain ⟨r, c, start, hr, ⟨hcap, hmax0, hmax⟩, hclamp, hb'⟩ := setRecurrence_record hb hexec
    have hrecord : r.WellFormed ∧ r.limit = b.limit ∧
        (0 < r.rolloverCredit ↔ b.Banks env.timestamp.toNat) := by
      rcases hr with ⟨hscheduled, rfl⟩ | hsettle
      · exact ⟨hsound.wellFormed, rfl, (banks_scheduled hscheduled).symm⟩
      · exact ⟨(hsound.settle hsettle).wellFormed, (settle_policy hsettle).1,
          credit_pos_iff hsound.wellFormed hsettle⟩
    obtain ⟨hwell, hlimit, hbanks⟩ := hrecord
    refine ⟨_, hb', ?_⟩
    have hpolicy : (r.recurring period periodSeconds.toNat enabled cap maxBps).WellFormed :=
      hwell.recurring hcap ⟨hmax0, hmax⟩
    have hunder := clamped_underCeilings hpolicy hclamp
    have haway : (r.recurring period periodSeconds.toNat enabled cap maxBps).RoundsAway ↔
        Budget.RoundsAway { b with rolloverMaxBps := maxBps } := by
      unfold RoundsAway Budget.recurring
      rw [hlimit]
    rw [haway] at hunder
    exact hunder.trans (not_congr (and_congr Iff.rfl (and_congr Iff.rfl hbanks)))
  · intro env caller enabled bps cap s' hexec
    obtain ⟨r, c, hsettle, ⟨hcap, hbps0, hbps⟩, hclamp, hb'⟩ := setRolloverConfig_record hb hexec
    obtain ⟨hlimit, hmax, _⟩ := settle_policy hsettle
    have hr := (hsound.settle hsettle).wellFormed
    have hwell : Budget.WellFormed
        { r with rolloverEnabled := enabled, rolloverBps := bps.1, rolloverCap := cap.1 } :=
      ⟨hr.limit, hr.spent, hr.credit, ⟨hcap, cap.2.2⟩, hr.maxBps, ⟨hbps0, hbps⟩, hr.deficit⟩
    refine ⟨c, hb', ?_⟩
    have hunder := clamped_underCeilings hwell hclamp
    have haway : Budget.RoundsAway
        { r with rolloverEnabled := enabled, rolloverBps := bps.1, rolloverCap := cap.1 } ↔
        b.RoundsAway := by
      unfold RoundsAway
      rw [hlimit, hmax]
    rw [haway] at hunder
    have hbanks : 0 < r.rolloverCredit ↔ b.Banks env.timestamp.toNat :=
      credit_pos_iff hsound.wellFormed hsettle
    exact hunder.trans (not_congr (and_congr Iff.rfl (and_congr Iff.rfl hbanks)))

theorem isI128_three : IsI128 3 := by decide

/-- A quarter, in basis points. -/
theorem isI128_quarter : IsI128 2500 := by decide

/-- Account 1 allocates `limit` for ten seconds at a time, all of which rolls over up to a
quarter of it. -/
def quartered (limit : I128) : Script Call :=
  [(signedBy 0 [1], .allocate (.account 1) "eng" limit .daily true 0),
    (signedBy 0 [1], .setRecurrence (.account 1) "eng" .custom 10 true ⟨0, isI128_zero⟩
      ⟨2500, isI128_quarter⟩)]

/-- The record after `quartered`. -/
def quarter (limit : ℤ) : Budget where
  owner := .account 1
  limit := limit
  spent := 0
  period := .custom
  periodSeconds := 10
  windowStart := 0
  rolloverEnabled := true
  rolloverCredit := 0
  rolloverCap := 0
  rolloverMaxBps := 2500
  rolloverBps := bpsDenominator
  allowDeficit := false
  deficitAmount := 0
  expiresAt := 0
  state := .active

/-- A quarter of 100 is a ceiling. -/
theorem credit_under_ceilings_hundred : ((quarter 100).reopened 10 25 0).UnderCeilings := by
  have hreach : (machine (.contract 0)).Reachable
      (play deployed (quartered ⟨100, isI128_hundred⟩)) :=
    Deployment.reachable_play deployed_fresh (by decide)
  have hb : (play deployed (quartered ⟨100, isI128_hundred⟩)).budget "eng"
      = some (quarter 100) := rfl
  have hlapsed : (quarter 100).isWindowExpired (10 : UInt64).toNat = .ok true := rfl
  have hsettle : (quarter 100).settle 10 = .ok ((quarter 100).reopened 10 25 0) := rfl
  refine ((credit_under_ceilings_iff hreach hb).1 10 _ hlapsed hsettle).2 ?_
  rintro ⟨⟨_, hsmall⟩, _⟩
  exact absurd hsmall (by decide)

/-- A quarter of 3 is none: after ten seconds the whole 3 is carried. -/
theorem not_credit_under_ceilings :
    ¬ ∀ (s : State) (id : String) (b : Budget), (machine (.contract 0)).Reachable s →
      s.budget id = some b → ∀ (now : UInt64) (r : Budget),
      b.isWindowExpired now.toNat = .ok true → b.settle now = .ok r → r.UnderCeilings := by
  intro hall
  have hreach : (machine (.contract 0)).Reachable
      (play deployed (quartered ⟨3, isI128_three⟩)) :=
    Deployment.reachable_play deployed_fresh (by decide)
  have hb : (play deployed (quartered ⟨3, isI128_three⟩)).budget "eng" = some (quarter 3) := rfl
  have hlapsed : (quarter 3).isWindowExpired (10 : UInt64).toNat = .ok true := rfl
  have hsettle : (quarter 3).settle 10 = .ok ((quarter 3).reopened 10 3 0) := rfl
  have hunder := hall _ _ _ hreach hb 10 _ hlapsed hsettle
  have hover : ((quarter 3).reopened 10 3 0).rolloverCredit ≤ 3 * 2500 / bpsDenominator :=
    hunder.2 (by decide)
  exact absurd hover (by decide)

end BudgetContract
end Astroid
